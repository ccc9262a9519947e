import OpenPortal.Paddington.Registry
import OpenPortal.Paddington.UrlRoundTrip

/-!
# Admitting clients by address

A client entry records where its peer may connect from, an address or a range
(`IpOrRange`), and the server lets a peer in only from an address its entry
matches (`ClientConfig::matches`).  `IpOrRange::matches` compares an address
entry with the address, and hands a range entry to `iptools`: it parses the
range again with `IpRange::new(range, "")` and asks whether it contains the
address's text.  A range that does not parse matches nothing.

`IpOrRange::new` stores a range only after `iptools` took it, so on every
configuration `ServiceConfig::new` and registry calls make, that branch of
`matches` is dead.  Each client entry is an address or a range that
`IpOrRange::new` made (`IpOrRange.Parsed`), and so

* printing an entry with `Display` and reading it back with `IpOrRange::new`
  gives the entry, as far as `std` reads back the addresses it prints;
* a client matches an address exactly when its entry is that address, or a
  range that `iptools` says contains it (`ServiceConfig.Reachable.clients_admit`).

`Display for IpAddr` and `IpRange::contains` enter as arguments (`AddrLibs`), as
the parsers do in `Libs`.  On the fragments, `std` prints IPv4 addresses in
dotted decimal, which its parser reads back for every address
(`IpAddr.parseV4_formatV4`).
-/

namespace OpenPortal

/-- What `IpOrRange` calls beyond `Libs`. -/
structure AddrLibs where
  /-- `<IpAddr as Display>::fmt`. -/
  display : IpAddr → List Char
  /-- `IpRange::contains(value)`, on the range `IpRange::new(range, "")` read, with the
  message of its error. -/
  contains : List Char → List Char → Except (List Char) Bool

variable (libs : Libs) (addrs : AddrLibs)

namespace IpOrRange

/-- `Display for IpOrRange`. -/
def toString (entry : IpOrRange) : List Char :=
  match entry with
  | .ip address => addrs.display address
  | .range text => text

/-- `IpOrRange::matches` (`matches` is a Lean keyword): `contains(..).unwrap_or(false)`
on a range `iptools` reads, and `false` (after a warning) on one it refuses. -/
def matchesAddr (entry : IpOrRange) (addr : IpAddr) : Bool :=
  match entry with
  | .ip address => address == addr
  | .range text =>
    match libs.ipRange text with
    | .ok () =>
      match addrs.contains text (addrs.display addr) with
      | .ok result => result
      | .error _ => false
    | .error _ => false

/-- What `IpOrRange::new` makes: an address `std` read, or a range `std` refused as an
address and `iptools` took. -/
inductive Parsed : IpOrRange → Prop
  | ip {text : List Char} {addr : IpAddr} (h : libs.ipAddr text = some addr) : Parsed (.ip addr)
  | range {range : List Char} (hip : libs.ipAddr range = none)
      (hrange : libs.ipRange range = .ok ()) : Parsed (.range range)

theorem parsed_of_new {text : List Char} {entry : IpOrRange}
    (h : IpOrRange.new libs text = .ok entry) : entry.Parsed libs := by
  unfold IpOrRange.new at h
  split at h
  · next addr haddr => cases h; exact .ip haddr
  · next hip =>
    split at h
    · next hrange => cases h; exact .range hip hrange
    · cases h

variable {libs}

/-- An entry `IpOrRange::new` made reads back from its `Display`, when `std` reads back
the text it prints for the addresses it reads. -/
theorem Parsed.new_toString {entry : IpOrRange} (h : entry.Parsed libs)
    (hdisplay : ∀ text addr, libs.ipAddr text = some addr →
      libs.ipAddr (addrs.display addr) = some addr) :
    IpOrRange.new libs (entry.toString addrs) = .ok entry := by
  cases h with
  | ip h => simp [toString, IpOrRange.new, hdisplay _ _ h]
  | range hip hrange => simp [toString, IpOrRange.new, hip, hrange]

/-- On an entry `IpOrRange::new` made, `matches` never meets a range `iptools` refuses:
it holds of an address exactly when the entry is that address, or a range that
`iptools` says contains the address's text. -/
theorem Parsed.matches_iff {entry : IpOrRange} (h : entry.Parsed libs) (addr : IpAddr) :
    entry.matchesAddr libs addrs addr = true ↔
      entry = .ip addr ∨
        ∃ range, entry = .range range ∧ addrs.contains range (addrs.display addr) = .ok true := by
  cases h with
  | ip => simp [matchesAddr]
  | @range text _ hrange =>
    simp only [matchesAddr, hrange, reduceCtorEq, false_or, IpOrRange.range.injEq,
      exists_eq_left']
    rcases addrs.contains text (addrs.display addr) with _ | result <;> simp

end IpOrRange

/-- `ClientConfig::matches`: a null entry matches nothing. -/
def ClientConfig.matchesAddr (client : ClientConfig) (addr : IpAddr) : Bool :=
  match client.ip with
  | some ip => ip.matchesAddr libs addrs addr
  | none => false

namespace ServiceConfig

/-- Every client entry holds an address or a range that `IpOrRange::new` made. -/
def ClientsParsed (config : ServiceConfig) : Prop :=
  ∀ c ∈ config.clients, ∃ entry, c.ip = some entry ∧ entry.Parsed libs

theorem ClientsParsed.apply {config : ServiceConfig} (h : config.ClientsParsed libs)
    (request : Request) : (config.apply libs request).1.ClientsParsed libs := by
  cases request with
  | addClient name ip innerKey outerKey =>
    rcases addClient_cases libs config name ip innerKey outerKey with
      ⟨hc, -⟩ | ⟨entry, hentry, -, -, he⟩
    · simpa [ServiceConfig.apply, hc] using h
    · simp only [ClientsParsed, ServiceConfig.apply, he, List.mem_append, List.mem_singleton]
      rintro c (hc | rfl)
      · exact h c hc
      · exact ⟨entry, rfl, IpOrRange.parsed_of_new libs hentry⟩
  | removeClient => exact fun c hc => h c (List.mem_of_mem_filter hc)
  | addServer invite =>
    rcases addServer_cases libs config invite with ⟨hc, -⟩ | ⟨_, -, -, -, he⟩
    · simpa [ServiceConfig.apply, hc] using h
    · simpa [ServiceConfig.apply, he] using h
  | removeServer => exact h

theorem Reachable.clientsParsed {config : ServiceConfig} (h : Reachable libs config) :
    config.ClientsParsed libs := by
  induction h with
  | new hnew =>
    obtain ⟨_, -, hc⟩ := new_eq_ok libs hnew
    rw [hc]
    simp [ClientsParsed]
  | apply request _ ih => exact ih.apply libs request

/-- On every configuration `ServiceConfig::new` and registry calls make, each client
entry holds an address or a range that `IpOrRange::new` made.  Printing the entry and
reading it back with `IpOrRange::new` gives the entry, when `std` reads back the text it
prints for the addresses it reads.  A client matches an address exactly when its entry is
that address, or a range that `iptools` says contains the address's text: `matches`
never meets a range `iptools` refuses. -/
theorem Reachable.clients_admit {config : ServiceConfig} (h : Reachable libs config)
    (hdisplay : ∀ text addr, libs.ipAddr text = some addr →
      libs.ipAddr (addrs.display addr) = some addr) :
    ∀ c ∈ config.clients, ∃ entry, c.ip = some entry ∧
      IpOrRange.new libs (entry.toString addrs) = .ok entry ∧
      ∀ addr, c.matchesAddr libs addrs addr = true ↔
        entry = .ip addr ∨
          ∃ range, entry = .range range ∧ addrs.contains range (addrs.display addr) = .ok true := by
  intro c hc
  obtain ⟨entry, hip, hparsed⟩ := h.clientsParsed libs c hc
  refine ⟨entry, hip, hparsed.new_toString addrs hdisplay, fun addr => ?_⟩
  rw [ClientConfig.matchesAddr, hip]
  exact hparsed.matches_iff addrs addr

end ServiceConfig

/-! ## The crates on fragments

`std`'s `Display` on IPv4 addresses, and `iptools`' containment on IPv4 ranges
`address/bits`.  IPv6 addresses are printed in full, without the `::` that `std`
puts for a run of zero groups; the fragment's parser refuses IPv6 text anyway. -/

namespace IpAddr

/-- `Ipv4Addr::octets`, the high one first. -/
def octets (bits : BitVec 32) : List Nat :=
  [bits.toNat / 2 ^ 24, bits.toNat / 2 ^ 16 % 256, bits.toNat / 2 ^ 8 % 256, bits.toNat % 256]

/-- `Display for Ipv4Addr`: the octets in decimal, joined by dots. -/
def formatV4 (bits : BitVec 32) : List Char :=
  ['.'].intercalate ((octets bits).map (Nat.toDigits 10))

/-- An IPv6 address as its eight groups in lower-case hex, joined by colons. -/
def formatV6 (bits : BitVec 128) : List Char :=
  [':'].intercalate ((List.range 8).map fun i =>
    Nat.toDigits 16 (bits.toNat / 2 ^ (16 * (7 - i)) % 2 ^ 16))

/-- `Display for IpAddr` on the fragment. -/
def formatFragment : IpAddr → List Char
  | .v4 bits => formatV4 bits
  | .v6 bits => formatV6 bits

/-- The decimal of a positive number does not start with `0`. -/
theorem head?_toDigitsCore_ne_zero (fuel n : Nat) (ds : List Char) (hn : n < fuel)
    (hpos : n ≠ 0) : (Nat.toDigitsCore 10 fuel n ds).head? ≠ some '0' := by
  induction fuel generalizing n ds with
  | zero => omega
  | succ fuel ih =>
    simp only [Nat.toDigitsCore]
    split_ifs with hdiv
    · intro hzero
      have hd := (Url.digitChar_digit (n % 10) (Nat.mod_lt _ (by decide))).1
      rw [Option.some.inj hzero] at hd
      exact hpos (by rw [Nat.mod_eq_of_lt (by omega)] at hd; exact hd.symm)
    · exact ih _ _ (by omega) (by omega)

/-- The fragment's octet parser reads back the decimal of every octet. -/
theorem octet?_toDigits : ∀ n < 256, octet? (Nat.toDigits 10 n) = some n := by
  intro n hn
  have hlead : (Nat.toDigits 10 n).length = 1 ∨ (Nat.toDigits 10 n).head? ≠ some '0' := by
    rcases Nat.eq_zero_or_pos n with rfl | hpos
    · exact .inl rfl
    · exact .inr (head?_toDigitsCore_ne_zero _ _ _ (Nat.lt_succ_self n) (by omega))
  rw [octet?, Url.digitsValue_toDigits, if_pos ⟨Url.toDigits_ne_nil n,
    List.all_eq_true.2 (Url.isDigit_of_mem_toDigits n), hlead, by omega⟩]

/-- `std` reads back every IPv4 address it prints. -/
theorem parseV4_formatV4 (bits : BitVec 32) : parseV4 (formatV4 bits) = some (.v4 bits) := by
  have hlt := bits.isLt
  have hdot : ∀ l ∈ (octets bits).map (Nat.toDigits 10), '.' ∉ l := by
    simp only [List.mem_map]
    rintro _ ⟨n, -, rfl⟩ hmem
    exact absurd (Url.isDigit_of_mem_toDigits n '.' hmem) (by decide)
  rw [parseV4, formatV4, List.splitOn_intercalate _ _ hdot (by simp [octets])]
  simp (disch := omega) only [octets, List.map_cons, List.map_nil, List.mapM_cons,
    List.mapM_nil, octet?_toDigits, Option.pure_def, Option.bind_eq_bind, Option.some_bind,
    Option.some.injEq, IpAddr.v4.injEq]
  apply BitVec.eq_of_toNat_eq
  simp only [BitVec.toNat_ofNat]
  omega

/-- The fragment's parser reads IPv4 addresses only. -/
theorem parseV4_eq_some {text : List Char} {addr : IpAddr} (h : parseV4 text = some addr) :
    ∃ bits, addr = .v4 bits := by
  unfold parseV4 at h
  split at h
  · exact ⟨_, (Option.some.inj h).symm⟩
  · cases h

end IpAddr

/-- `IpRange::contains` on IPv4 ranges `address/bits`: the address shares the range's
first `bits` bits. -/
def containsV4 (range value : List Char) : Except (List Char) Bool :=
  match range.splitOn '/', IpAddr.parseV4 value with
  | [net, bits], some (.v4 addr) =>
    match IpAddr.parseV4 net with
    | some (.v4 network) =>
      .ok (network.toNat >>> (32 - Url.digitsValue bits) ==
        addr.toNat >>> (32 - Url.digitsValue bits))
    | _ => .error "outside the modelled fragment".toList
  | _, _ => .error "outside the modelled fragment".toList

/-- `Display for IpAddr` and `IpRange::contains` on the fragments. -/
def AddrLibs.fragment : AddrLibs := ⟨IpAddr.formatFragment, containsV4⟩

/-- On the fragments, `std` reads back the text it prints for every address it reads. -/
theorem AddrLibs.fragment_display (text : List Char) (addr : IpAddr)
    (h : Libs.fragment.ipAddr text = some addr) :
    Libs.fragment.ipAddr (AddrLibs.fragment.display addr) = some addr := by
  obtain ⟨bits, rfl⟩ := IpAddr.parseV4_eq_some h
  exact IpAddr.parseV4_formatV4 bits

example : (IpOrRange.range "127.0.0.0/24".toList).matchesAddr Libs.fragment AddrLibs.fragment
    (.v4 0x7F000002) = true := by decide
example : (IpOrRange.range "127.0.0.0/24".toList).matchesAddr Libs.fragment AddrLibs.fragment
    (.v4 0x81000001) = false := by decide

/-- The test's client `secondary`, admitted from `127.0.0.1`: its entry prints as
`127.0.0.1` and reads back, and it matches that address alone. -/
theorem clients_admit_secondary :
    let primary : ServiceConfig :=
      ⟨"primary".toList, "ws://localhost:8080/".toList, .v4 0x7F000001, 5544, [], [], none⟩
    let config := (primary.apply Libs.fragment
      (.addClient "secondary".toList "127.0.0.1".toList ⟨[1]⟩ ⟨[2]⟩)).1
    ServiceConfig.Reachable Libs.fragment config ∧
      ∀ c ∈ config.clients, ∃ entry, c.ip = some entry ∧
        IpOrRange.new Libs.fragment (entry.toString AddrLibs.fragment) = .ok entry ∧
        ∀ addr, c.matchesAddr Libs.fragment AddrLibs.fragment addr = true ↔
          entry = .ip addr ∨ ∃ range, entry = .range range ∧
            AddrLibs.fragment.contains range (AddrLibs.fragment.display addr) = .ok true := by
  intro primary config
  have hnew : ServiceConfig.new Libs.fragment "primary".toList "http://localhost".toList
      "127.0.0.1".toList 5544 = .ok primary := rfl
  have h : ServiceConfig.Reachable Libs.fragment config := .apply _ (.new hnew)
  exact ⟨h, h.clients_admit Libs.fragment AddrLibs.fragment AddrLibs.fragment_display⟩

end OpenPortal
