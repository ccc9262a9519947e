import Mathlib.Data.Nat.Digits
import OpenPortal.Paddington.Url

/-!
# Websocket URLs read back

`create_websocket_url` prints `scheme://host:port/path` and the invitation's
receiver reads that text again with the `url` crate.  On the fragment that
`Url.parse` models, this section reads the printed text back
(`Url.parse_print`).  The scheme is `ws` or `wss`.  The host and the path come
back as printed, and the port comes back unless it is the scheme's default.

So the function is idempotent on every URL of the fragment but one kind: an
`ftp` URL with the explicit port 443 (`createWebsocketUrl_idempotent_iff`).
`ftp` becomes `wss`, whose default port is 443.  Every other scheme keeps its
default when it becomes `ws` or `wss`, or has no explicit port equal to the new
default.

The pieces are round trips of their own: decimal digits
(`Url.digitsValue_toDigits`), lower-casing (`Url.toLower_toLower`), and a host
and a path that the fragment accepts, which it accepts again unchanged
(`Url.host?_idem`, `Url.path?_idem`).
-/

namespace OpenPortal

namespace Url

/-! ## Decimal digits -/

theorem digitChar_digit :
    ∀ m < 10, digitStep 0 (Nat.digitChar m) = m ∧ (Nat.digitChar m).isDigit := by
  decide

theorem foldl_toDigitsCore (fuel n : Nat) (ds : List Char) (hn : n < fuel) :
    (Nat.toDigitsCore 10 fuel n ds).foldl digitStep 0 = ds.foldl digitStep n := by
  induction fuel generalizing n ds with
  | zero => omega
  | succ fuel ih =>
    have hmod := digitChar_digit (n % 10) (Nat.mod_lt _ (by decide))
    simp only [Nat.toDigitsCore]
    split_ifs with hdiv
    · rw [List.foldl_cons, hmod.1, Nat.mod_eq_of_lt (by omega)]
    · rw [ih (n / 10) _ (by omega), List.foldl_cons]
      congr 1
      simp only [digitStep] at hmod ⊢
      omega

theorem isDigit_of_mem_toDigitsCore (fuel n : Nat) (ds : List Char)
    (hds : ∀ c ∈ ds, c.isDigit) : ∀ c ∈ Nat.toDigitsCore 10 fuel n ds, c.isDigit := by
  induction fuel generalizing n ds with
  | zero => exact hds
  | succ fuel ih =>
    have hmod := (digitChar_digit (n % 10) (Nat.mod_lt _ (by decide))).2
    simp only [Nat.toDigitsCore]
    split_ifs with hdiv
    · exact fun c hc => (List.mem_cons.1 hc).elim (· ▸ hmod) (hds c)
    · exact ih _ _ fun c hc => (List.mem_cons.1 hc).elim (· ▸ hmod) (hds c)

theorem toDigitsCore_ne_nil (fuel n : Nat) {ds : List Char} (hds : ds ≠ []) :
    Nat.toDigitsCore 10 fuel n ds ≠ [] := by
  induction fuel generalizing n ds with
  | zero => exact hds
  | succ fuel ih =>
    simp only [Nat.toDigitsCore]
    split_ifs
    · exact List.cons_ne_nil _ _
    · exact ih _ (List.cons_ne_nil _ _)

/-- Reading the digits `Nat.toDigits` prints gives the number back. -/
theorem digitsValue_toDigits (n : Nat) : digitsValue (Nat.toDigits 10 n) = n :=
  foldl_toDigitsCore _ _ _ (Nat.lt_succ_self n)

theorem isDigit_of_mem_toDigits (n : Nat) : ∀ c ∈ Nat.toDigits 10 n, c.isDigit :=
  isDigit_of_mem_toDigitsCore _ _ _ (by simp)

theorem toDigits_ne_nil (n : Nat) : Nat.toDigits 10 n ≠ [] := by
  simp only [Nat.toDigits, Nat.toDigitsCore]
  split_ifs
  · exact List.cons_ne_nil _ _
  · exact toDigitsCore_ne_nil _ _ (List.cons_ne_nil _ _)

theorem toDigits_injective {m n : Nat} (h : Nat.toDigits 10 m = Nat.toDigits 10 n) : m = n := by
  rw [← digitsValue_toDigits m, h, digitsValue_toDigits]

/-! ## Hosts and paths -/

theorem toNat_ofNat_lower : ∀ m < 123, 97 ≤ m → (Char.ofNat m).toNat = m := by
  decide

theorem toLower_toLower (c : Char) : c.toLower.toLower = c.toLower := by
  by_cases h : 65 ≤ c.toNat ∧ c.toNat ≤ 90
  · have hlow : c.toLower = Char.ofNat (c.toNat + 32) := if_pos h
    have hnat := toNat_ofNat_lower (c.toNat + 32) (by omega) (by omega)
    rw [hlow]
    exact if_neg (by omega)
  · have hlow : c.toLower = c := if_neg h
    rw [hlow, hlow]

theorem host?_idem {host host' : List Char} (h : host? host = some host') :
    host? host' = some host' := by
  unfold host? at h
  dsimp only at h
  split_ifs at h with hcond
  cases h
  have hlow : (host.map Char.toLower).map Char.toLower = host.map Char.toLower := by
    simp [Function.comp_def, toLower_toLower]
  simp only [host?, hlow]
  exact if_pos hcond

theorem isHostChar_of_host? {host host' : List Char} (h : host? host = some host') :
    ∀ c ∈ host', isHostChar c := by
  unfold host? at h
  dsimp only at h
  split_ifs at h with hcond
  cases h
  simp only [Bool.and_eq_true, List.all_eq_true] at hcond
  exact hcond.1.1.1

theorem path?_idem {path path' : List Char} (h : path? path = some path') :
    path? path' = some path' := by
  unfold path? at h
  dsimp only at h
  split_ifs at h with hempty hcond
  · cases h; rfl
  · cases h
    simp only [path?, List.takeWhile_idem, hempty, if_false]
    exact if_pos hcond

theorem path?_cons {path path' : List Char} (h : path? path = some path') :
    ∃ rest, path' = '/' :: rest ∧ ∀ c ∈ path', isPathChar c := by
  unfold path? at h
  dsimp only at h
  split_ifs at h with hempty hcond
  · cases h; exact ⟨[], rfl, by decide⟩
  · cases h
    simp only [Bool.and_eq_true, List.all_eq_true, decide_eq_true_eq] at hcond
    obtain ⟨⟨hhead, hall⟩, -⟩ := hcond
    generalize path.takeWhile (fun c => c != '?' && c != '#') = path' at hempty hhead hall ⊢
    cases path' with
    | nil => exact absurd rfl hempty
    | cons c rest =>
      rw [List.head?_cons, Option.some.injEq] at hhead
      exact ⟨rest, hhead ▸ rfl, hall⟩

/-! ## Reading a printed URL back -/

theorem parse_websocket {scheme : List Char}
    (hscheme : scheme = "ws".toList ∨ scheme = "wss".toList) (rest : List Char) :
    parse (scheme ++ "://".toList ++ rest) = parseAuthority scheme rest := by
  rcases hscheme with rfl | rfl <;> rfl

theorem ne_of_isHostChar {c : Char} (h : isHostChar c) :
    c ≠ ':' ∧ c ≠ '/' ∧ c ≠ '?' ∧ c ≠ '#' := by
  refine ⟨?_, ?_, ?_, ?_⟩ <;> rintro rfl <;> exact absurd h (by decide)

theorem ne_of_isDigit {c : Char} (h : c.isDigit) : c ≠ ':' ∧ c ≠ '/' ∧ c ≠ '?' ∧ c ≠ '#' := by
  refine ⟨?_, ?_, ?_, ?_⟩ <;> rintro rfl <;> exact absurd h (by decide)

theorem port?_toDigits (default : Nat) {port : Nat} (hport : port < 65536) :
    port? default (Nat.toDigits 10 port) =
      .ok (if port = default then none else some port.toUInt16) := by
  have hne : (Nat.toDigits 10 port).isEmpty = false := by
    cases h : Nat.toDigits 10 port with
    | nil => exact absurd h (toDigits_ne_nil port)
    | cons _ _ => rfl
  have hall : (Nat.toDigits 10 port).all Char.isDigit = true :=
    List.all_eq_true.2 (isDigit_of_mem_toDigits port)
  simp only [port?, hne, hall, digitsValue_toDigits, Bool.not_true, Bool.false_or,
    decide_eq_true_eq, Bool.false_eq_true, if_false, if_neg (show ¬65535 < port by omega)]
  split_ifs <;> rfl

theorem parseAuthority_print {scheme host path : List Char} {port default : Nat}
    (hdefault : defaultPort scheme = some default) (hhost : host? host = some host)
    (hpath : path? path = some path) (hport : port < 65536) :
    parseAuthority scheme (host ++ ':' :: Nat.toDigits 10 port ++ path) =
      .ok ⟨scheme, some host, if port = default then none else some port.toUInt16, path⟩ := by
  -- No character of the host or the port is a delimiter of the authority.
  have hsafe : ∀ c ∈ host ++ Nat.toDigits 10 port, c ≠ ':' ∧ c ≠ '/' ∧ c ≠ '?' ∧ c ≠ '#' :=
    fun c hc => (List.mem_append.1 hc).elim
      (fun hc => ne_of_isHostChar (isHostChar_of_host? hhost c hc))
      (fun hc => ne_of_isDigit (isDigit_of_mem_toDigits port c hc))
  obtain ⟨rest, hrest, -⟩ := path?_cons hpath
  have hauth : (host ++ ':' :: Nat.toDigits 10 port ++ path).takeWhile
      (fun c => c != '/' && c != '?' && c != '#') = host ++ ':' :: Nat.toDigits 10 port := by
    rw [List.takeWhile_append_of_pos, hrest, List.takeWhile_cons_of_neg (by decide),
      List.append_nil]
    intro c hc
    have hc : c = ':' ∨ c ∈ host ++ Nat.toDigits 10 port := by
      simp only [List.mem_append, List.mem_cons] at hc ⊢
      tauto
    rcases hc with rfl | hc
    · decide
    · obtain ⟨-, h1, h2, h3⟩ := hsafe c hc
      simp [h1, h2, h3]
  have hsplit : (host ++ ':' :: Nat.toDigits 10 port).splitOn ':' =
      [host, Nat.toDigits 10 port] := by
    have hjoin : host ++ ':' :: Nat.toDigits 10 port =
        [':'].intercalate [host, Nat.toDigits 10 port] := by
      simp [List.intercalate]
    rw [hjoin]
    refine List.splitOn_intercalate _ _ ?_ (by simp)
    intro l hl hmem
    simp only [List.mem_cons, List.mem_singleton, List.not_mem_nil, or_false] at hl
    rcases hl with rfl | rfl
    · exact (hsafe _ (List.mem_append_left _ hmem)).1 rfl
    · exact (hsafe _ (List.mem_append_right _ hmem)).1 rfl
  simp only [parseAuthority, hauth, hsplit, hdefault, List.drop_left, hpath, hhost,
    port?_toDigits default hport]
  rfl

/-! ## What the fragment accepts -/

theorem port?_eq_some {default : Nat} {port : List Char} {x : UInt16}
    (h : port? default port = .ok (some x)) : x.toNat ≠ default := by
  unfold port? at h
  split_ifs at h with hempty hbad hdefault <;> cases h
  have hle : ¬65535 < digitsValue port := fun hlt => hbad (by simp [hlt])
  rw [Nat.toUInt16, UInt16.toNat_ofNat_of_lt (show digitsValue port < 65536 by omega)]
  exact hdefault

/-- A URL the fragment accepts has a scheme with a default port, a host and a
path it accepts again unchanged, and no explicit default port. -/
theorem parse_eq_ok {input : List Char} {url : Url} (h : parse input = .ok url) :
    ∃ default host, defaultPort url.scheme = some default ∧ url.hostStr = some host ∧
      host? host = some host ∧ path? url.path = some url.path ∧
      ∀ x, url.port = some x → x.toNat ≠ default := by
  simp only [parse] at h
  split at h
  · simp only [parseAuthority] at h
    split at h
    · split at h
      · cases h
        exact ⟨_, _, ‹defaultPort _ = some _›, rfl, host?_idem ‹host? _ = some _›,
          path?_idem ‹path? _ = some _›, fun _ h => nomatch h⟩
      · obtain ⟨port, hport, rfl⟩ := map_eq_ok.1 h
        exact ⟨_, _, ‹defaultPort _ = some _›, rfl, host?_idem ‹host? _ = some _›,
          path?_idem ‹path? _ = some _›, fun x (hx : port = some x) => port?_eq_some (hx ▸ hport)⟩
      · cases h
    · cases h
  · cases h

/-- The scheme `create_websocket_url` prints for a scheme of the fragment keeps
the scheme's default port, except that `ftp` becomes `wss`, whose default is
443. -/
theorem websocketScheme_default {scheme : List Char} {default : Nat}
    (h : defaultPort scheme = some default) :
    (websocketScheme scheme = "ws".toList ∨ websocketScheme scheme = "wss".toList) ∧
      ((defaultPort (websocketScheme scheme) = some default ∧ scheme ≠ "ftp".toList ∧
          default ≠ 8080) ∨
        (scheme = "ftp".toList ∧ defaultPort (websocketScheme scheme) = some 443)) := by
  have hdata : ∀ s : String, String.mk scheme = s → scheme = s.data :=
    fun _ hs => congrArg String.data hs
  unfold defaultPort at h
  split at h <;> cases h <;> (obtain rfl := hdata _ ‹_›) <;> decide

theorem getD_reread (port default : Nat) (hport : port < 65536) :
    ((if port = default then none else some port.toUInt16).getD 8080).toNat =
      if port = default then 8080 else port := by
  split_ifs
  · rfl
  · exact UInt16.toNat_ofNat_of_lt hport

/-- The printed port moves to 8080 exactly when it is the new scheme's default;
that happens only to an `ftp` URL with the explicit port 443. -/
theorem websocket_port_eq_default_iff {url : Url} {default : Nat}
    (hdefault : defaultPort url.scheme = some default)
    (hport : ∀ x, url.port = some x → x.toNat ≠ default) :
    ∃ d, defaultPort (websocketScheme url.scheme) = some d ∧ d ≠ 8080 ∧
      ((url.port.getD 8080).toNat = d ↔ url.scheme = "ftp".toList ∧ url.port = some 443) := by
  rcases (websocketScheme_default hdefault).2 with ⟨hd, hftp, hne⟩ | ⟨hftp, hd⟩
  · refine ⟨default, hd, hne, iff_of_false ?_ fun hc => hftp hc.1⟩
    cases hp : url.port with
    | none => exact fun h => hne h.symm
    | some x => exact hport x hp
  · refine ⟨443, hd, by decide, ?_⟩
    cases url.port with
    | none => exact iff_of_false (by decide) fun h => nomatch h.2
    | some x =>
      exact ⟨fun h => ⟨hftp, congrArg some (UInt16.toNat.inj
        (show x.toNat = (443 : UInt16).toNat from h))⟩, fun ⟨_, h⟩ => by cases h; rfl⟩

/-- A text `create_websocket_url` prints reads back: the scheme, the host and the
path as printed, and the port unless it is the scheme's default. -/
theorem parse_print {ws host path : List Char} {port d : Nat}
    (hws : ws = "ws".toList ∨ ws = "wss".toList) (hd : defaultPort ws = some d)
    (hhost : host? host = some host) (hpath : path? path = some path) (hport : port < 65536) :
    parse (ws ++ "://".toList ++ host ++ ':' :: Nat.toDigits 10 port ++ path) =
      .ok ⟨ws, some host, if port = d then none else some port.toUInt16, path⟩ := by
  rw [show ws ++ "://".toList ++ host ++ ':' :: Nat.toDigits 10 port ++ path =
      ws ++ "://".toList ++ (host ++ ':' :: Nat.toDigits 10 port ++ path) by
    simp only [List.append_assoc], parse_websocket hws, parseAuthority_print hd hhost hpath hport]

/-- `create_websocket_url` on its own output: the same text, but for the port,
which becomes 8080 when it is the scheme's default. -/
theorem createWebsocketUrl_reread {ws host path : List Char} {port d : Nat}
    (hws : ws = "ws".toList ∨ ws = "wss".toList) (hd : defaultPort ws = some d)
    (hhost : host? host = some host) (hpath : path? path = some path) (hport : port < 65536) :
    createWebsocketUrl parse (ws ++ "://".toList ++ host ++ ':' :: Nat.toDigits 10 port ++ path) =
      .ok (ws ++ "://".toList ++ host ++ ':' ::
        Nat.toDigits 10 (if port = d then 8080 else port) ++ path) := by
  have hself : websocketScheme ws = ws := by rcases hws with rfl | rfl <;> rfl
  simp only [createWebsocketUrl, parse_print hws hd hhost hpath hport, hself, Option.getD_some,
    getD_reread port d hport]

theorem print_port_inj {ws host path : List Char} {m n : Nat}
    (h : ws ++ "://".toList ++ host ++ ':' :: Nat.toDigits 10 m ++ path =
      ws ++ "://".toList ++ host ++ ':' :: Nat.toDigits 10 n ++ path) : m = n :=
  toDigits_injective (List.cons.inj (List.append_cancel_left (List.append_cancel_right h))).2

end Url

/-! ## Idempotence -/

open Url in
/-- On the fragment, `create_websocket_url` prints a URL that reads back with the
same host and path, and with its port unless that is the new scheme's default.
It is idempotent exactly when the URL is not an `ftp` URL with the explicit port
443. -/
theorem createWebsocketUrl_idempotent_iff {input : List Char} {url : Url}
    (h : Url.parse input = .ok url) :
    ∃ printed, createWebsocketUrl Url.parse input = .ok printed ∧
      Url.parse printed = .ok ⟨websocketScheme url.scheme, url.hostStr,
        if defaultPort (websocketScheme url.scheme) = some (url.port.getD 8080).toNat
        then none else some (url.port.getD 8080), url.path⟩ ∧
      (createWebsocketUrl Url.parse printed = .ok printed ↔
        ¬(url.scheme = "ftp".toList ∧ url.port = some 443)) := by
  obtain ⟨default, host, hdefault, hhostStr, hhost, hpath, hport⟩ := parse_eq_ok h
  obtain ⟨d, hd, hdne, hiff⟩ := websocket_port_eq_default_iff hdefault hport
  have hws := (websocketScheme_default hdefault).1
  have hlt := UInt16.toNat_lt_size (url.port.getD 8080)
  refine ⟨websocketScheme url.scheme ++ "://".toList ++ host ++ ':' ::
    Nat.toDigits 10 (url.port.getD 8080).toNat ++ url.path,
    by simp [createWebsocketUrl, h, hhostStr], ?_, ?_⟩
  · have hround : (url.port.getD 8080).toNat.toUInt16 = url.port.getD 8080 :=
      UInt16.toNat.inj (UInt16.toNat_ofNat_of_lt hlt)
    rw [parse_print hws hd hhost hpath hlt, hhostStr, hd, hround]
    simp only [Option.some.injEq, @eq_comm _ d]
  rw [createWebsocketUrl_reread hws hd hhost hpath hlt, Except.ok.injEq, ← not_congr hiff]
  constructor
  · intro heq hdefault'
    rw [if_pos hdefault'] at heq
    exact hdne ((print_port_inj heq).trans hdefault').symm
  · intro hne
    rw [if_neg hne]

/-- The URL of the invitation counterexample is the one kind that moves. -/
theorem createWebsocketUrl_idempotent_iff_ftp :
    Url.parse "ftp://Example.com:443/".toList =
        .ok ⟨"ftp".toList, some "example.com".toList, some 443, "/".toList⟩ ∧
      ∃ printed, createWebsocketUrl Url.parse "ftp://Example.com:443/".toList = .ok printed ∧
        Url.parse printed = .ok ⟨websocketScheme "ftp".toList, some "example.com".toList,
          if Url.defaultPort (websocketScheme "ftp".toList) =
              some ((some 443 : Option UInt16).getD 8080).toNat then none
          else some ((some 443 : Option UInt16).getD 8080), "/".toList⟩ ∧
        (createWebsocketUrl Url.parse printed = .ok printed ↔
          ¬("ftp".toList = "ftp".toList ∧ (some 443 : Option UInt16) = some 443)) := by
  have h : Url.parse "ftp://Example.com:443/".toList =
      .ok ⟨"ftp".toList, some "example.com".toList, some 443, "/".toList⟩ := rfl
  exact ⟨h, createWebsocketUrl_idempotent_iff h⟩

end OpenPortal
