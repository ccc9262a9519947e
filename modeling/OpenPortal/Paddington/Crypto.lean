import Mathlib.Tactic.FinCases
import OpenPortal.Paddington.Config

/-!
# Keys, hex text and sealed data

`paddington::crypto`.  A `Key` is written to configuration and invitation files
through `serde_with::hex::Hex`, which calls the `hex` crate.  `EncryptedData`
derives the same codec, but nothing among the sources writes one, so it is left
out.
Writing puts each byte as two lower-case digits (`Hex.encode`); reading takes the
text's UTF-8 bytes two at a time, digits of either case (`Hex.decode`).  What was
written reads back as the bytes it was written from (`Hex.decode_encode`), and what was
read is written back as the same text lower-cased (`Hex.encode_decode`), so a key
crosses a file unchanged (`Key.hex_round_trip`).  A text that does not read as a key is
refused for an odd number of bytes, or at its first byte that is not a digit, which the
error names with its position (`Key.deserialize_eq_error`).

`Key::encrypt` writes a value as JSON, seals the JSON's bytes with `orion::aead`, and
tags the result with the scheme's version, `1`.  `Key::decrypt` refuses every other
version, opens the bytes, reads them as UTF-8 and parses the JSON.  The crates enter
as arguments, each with the one law this module relies on (`CryptoLibs`, `Json`), and
the nonce `seal` draws is an argument.  Under those laws, decrypting what `encrypt`
returns gives the value back (`Key.decrypt_encrypt`).  The two `println!` calls are
left out.

The laws can all hold at once: `CryptoLibs.fragment` and `Json.bool` satisfy them, with
a UTF-8 reader that reads back every encoding `str::as_bytes` makes
(`fromUtf8Fragment_asBytes`), and on them `encrypt` succeeds
(`Key.decrypt_encrypt_fragment`).
-/

namespace OpenPortal

/-! ## Hex text -/

/-- `hex::FromHexError`, without `InvalidStringLength`, which reading a `Vec<u8>`
never raises. -/
inductive FromHexError where
  /-- A byte that is not a hex digit, as a `char`, and its position. -/
  | invalidHexCharacter (c : Char) (index : Nat)
  /-- An odd number of bytes. -/
  | oddLength
deriving DecidableEq, Repr

/-- `u8::to_ascii_lowercase`. -/
def toAsciiLowercase (c : UInt8) : UInt8 := if 65 ≤ c ∧ c ≤ 90 then c + 32 else c

namespace Hex

/-- `HEX_CHARS_LOWER`. -/
def charsLower : List Char := "0123456789abcdef".toList

/-- `hex::encode`: each byte as two lower-case digits, the high half first. -/
def encode (data : List UInt8) : List Char :=
  data.flatMap fun byte =>
    [charsLower.getD (byte.toNat >>> 4) '0', charsLower.getD (byte.toNat &&& 0x0f) '0']

/-- The crate's `val`: the value of one digit, for `b'A'..=b'F'`, `b'a'..=b'f'` and
`b'0'..=b'9'`. -/
def val (c : UInt8) (idx : Nat) : Except FromHexError UInt8 :=
  if 65 ≤ c ∧ c ≤ 70 then .ok (c - 65 + 10)
  else if 97 ≤ c ∧ c ≤ 102 then .ok (c - 97 + 10)
  else if 48 ≤ c ∧ c ≤ 57 then .ok (c - 48)
  else .error (.invalidHexCharacter (Char.ofNat c.toNat) idx)

/-- The pairs of `FromHex for Vec<u8>`, the `i`-th first:
`val(pair[0], 2 * i)? << 4 | val(pair[1], 2 * i + 1)?`.  A lone last byte is never
reached, since the length is checked first. -/
def decodePairs : Nat → List UInt8 → Except FromHexError (List UInt8)
  | _, [] => .ok []
  | i, hi :: lo :: rest => do
    let hi ← val hi (2 * i)
    let lo ← val lo (2 * i + 1)
    let rest ← decodePairs (i + 1) rest
    pure ((hi <<< 4 ||| lo) :: rest)
  | _, [_] => .error .oddLength

/-- `hex::decode`, that is `FromHex for Vec<u8>`, on the bytes of a text. -/
def decode (hex : List UInt8) : Except FromHexError (List UInt8) :=
  if hex.length % 2 ≠ 0 then .error .oddLength else decodePairs 0 hex

example : encode [0x7f, 0xa0] = "7fa0".toList := by decide
example : decode (asBytes "7FA0".toList) = .ok [0x7f, 0xa0] := rfl

/-! ### Writing, then reading -/

/-- Each lower-case digit is one byte, which `val` reads as the digit's value. -/
theorem val_digit {n : Nat} (h : n < 16) :
    ∃ byte, asBytes [charsLower.getD n '0'] = [byte] ∧ ∀ idx, val byte idx = .ok n.toUInt8 := by
  rcases n with _ | _ | _ | _ | _ | _ | _ | _ | _ | _ | _ | _ | _ | _ | _ | _ | n
  all_goals first | exact ⟨_, rfl, fun _ => rfl⟩ | omega

set_option maxRecDepth 4000 in
/-- A byte is its two halves put back together, as `val(..) << 4 | val(..)` does. -/
theorem halves_byte : ∀ byte : Fin 256,
    (byte.val >>> 4).toUInt8 <<< 4 ||| (byte.val &&& 0x0f).toUInt8 = byte.val.toUInt8 := by
  decide

/-- The two digits of a byte, as bytes, and what `val` reads from them. -/
theorem asBytes_encode_cons (byte : UInt8) (data : List UInt8) :
    ∃ hi lo, asBytes (encode (byte :: data)) = hi :: lo :: asBytes (encode data) ∧
      ∀ idx, val hi idx = .ok (byte.toNat >>> 4).toUInt8 ∧
        val lo idx = .ok (byte.toNat &&& 0x0f).toUInt8 := by
  have hbyte := byte.toNat_lt_size
  have hhigh : byte.toNat >>> 4 < 16 := by
    rw [Nat.shiftRight_eq_div_pow]
    simp only [UInt8.size] at hbyte
    omega
  have hlow : byte.toNat &&& 0x0f < 16 := lt_of_le_of_lt Nat.and_le_right (by decide)
  obtain ⟨hi, hhi, hvalHi⟩ := val_digit hhigh
  obtain ⟨lo, hlo, hvalLo⟩ := val_digit hlow
  refine ⟨hi, lo, ?_, fun idx => ⟨hvalHi idx, hvalLo idx⟩⟩
  simp only [asBytes, encode, List.flatMap_cons, List.flatMap_append] at hhi hlo ⊢
  simp only [List.flatMap_cons, List.flatMap_nil, List.append_nil] at hhi hlo
  rw [hhi, hlo]
  rfl

theorem length_asBytes_encode (data : List UInt8) :
    (asBytes (encode data)).length = 2 * data.length := by
  induction data with
  | nil => rfl
  | cons byte data ih =>
    obtain ⟨hi, lo, h, -⟩ := asBytes_encode_cons byte data
    rw [h, List.length_cons, List.length_cons, ih, List.length_cons]
    omega

theorem toUInt8_toNat (byte : UInt8) : byte.toNat.toUInt8 = byte :=
  UInt8.toNat.inj (UInt8.toNat_ofNat_of_lt byte.toNat_lt_size)

theorem decodePairs_encode (data : List UInt8) (i : Nat) :
    decodePairs i (asBytes (encode data)) = .ok data := by
  induction data generalizing i with
  | nil => rfl
  | cons byte data ih =>
    obtain ⟨hi, lo, h, hval⟩ := asBytes_encode_cons byte data
    have hback : (byte.toNat >>> 4).toUInt8 <<< 4 ||| (byte.toNat &&& 0x0f).toUInt8 = byte :=
      (halves_byte ⟨byte.toNat, byte.toNat_lt_size⟩).trans (toUInt8_toNat byte)
    rw [h, decodePairs, (hval (2 * i)).1, (hval (2 * i + 1)).2, ih]
    exact congrArg (fun byte => Except.ok (byte :: data)) hback

/-- Hex text that `encode` wrote reads back as the bytes it was written from. -/
theorem decode_encode (data : List UInt8) : decode (asBytes (encode data)) = .ok data := by
  rw [decode, length_asBytes_encode, if_neg (by omega), decodePairs_encode]

/-! ### Where reading stops -/

/-- `val` refuses a byte with the byte, as a `char`, and the position it was given. -/
theorem val_eq_error {c : UInt8} {idx : Nat} {e : FromHexError} (h : val c idx = .error e) :
    e = .invalidHexCharacter (Char.ofNat c.toNat) idx := by
  unfold val at h
  split_ifs at h
  exact (Except.error.inj h).symm

/-- Where `decodePairs` stops: at the first byte `val` refuses, numbered from the start of
the text, every byte before it a digit. -/
theorem decodePairs_eq_error {i : Nat} {hex : List UInt8} {e : FromHexError}
    (heven : hex.length % 2 = 0) (h : decodePairs i hex = .error e) :
    ∃ k b, hex[k]? = some b ∧ val b (2 * i + k) = .error e ∧
      ∀ j < k, ∃ b' v, hex[j]? = some b' ∧ val b' (2 * i + j) = .ok v := by
  induction i, hex using decodePairs.induct with
  | case1 => cases h
  | case2 i hi lo rest ih =>
    rcases bind_eq_error.1 h with hhi | ⟨vh, hvh, h⟩
    · exact ⟨0, hi, rfl, hhi, fun j hj => absurd hj (Nat.not_lt_zero j)⟩
    rcases bind_eq_error.1 h with hlo | ⟨vl, hvl, h⟩
    · refine ⟨1, lo, by simp, hlo, fun j hj => ?_⟩
      obtain rfl : j = 0 := by omega
      exact ⟨hi, vh, rfl, hvh⟩
    rcases bind_eq_error.1 h with hrest | ⟨_, -, h⟩
    · have hrest_even : rest.length % 2 = 0 := by
        simp only [List.length_cons] at heven; omega
      obtain ⟨k, b, hb, hval, hbefore⟩ := ih hrest_even hrest
      have hshift : ∀ n, 2 * i + (n + 2) = 2 * (i + 1) + n := fun n => by omega
      refine ⟨k + 2, b, by simpa using hb, hshift k ▸ hval, fun j hj => ?_⟩
      match j with
      | 0 => exact ⟨hi, vh, rfl, hvh⟩
      | 1 => exact ⟨lo, vl, by simp, hvl⟩
      | j + 2 =>
        obtain ⟨b', v, hb', hv⟩ := hbefore j (by omega)
        exact ⟨b', v, by simpa using hb', hshift j ▸ hv⟩
    · cases h
  | case3 => simp at heven

/-- `decode` refuses an odd number of bytes before it reads any; otherwise it stops at the
first byte that is not a hex digit, and its error is `val`'s for that byte at its
position. -/
theorem decode_eq_error {hex : List UInt8} {e : FromHexError} (h : decode hex = .error e) :
    hex.length % 2 = 1 ∧ e = .oddLength ∨
      ∃ k b, hex[k]? = some b ∧ val b k = .error e ∧
        ∀ j < k, ∃ b' v, hex[j]? = some b' ∧ val b' j = .ok v := by
  unfold decode at h
  split_ifs at h with hodd
  · exact .inl ⟨by omega, (Except.error.inj h).symm⟩
  · obtain ⟨k, b, hb, hval, hbefore⟩ := decodePairs_eq_error (by omega) h
    exact .inr ⟨k, b, hb, by simpa using hval, fun j hj => by simpa using hbefore j hj⟩

/-! ### Reading, then writing -/

set_option maxRecDepth 4000 in
/-- Each byte `val` reads as a digit is written back by `encode` as itself lower-cased. -/
theorem digit_lower : ∀ c : Fin 256, ∀ v ∈ (val c.val.toUInt8 0).toOption,
    v.toNat < 16 ∧ asBytes [charsLower.getD v.toNat '0'] = [toAsciiLowercase c.val.toUInt8] := by
  decide

theorem val_eq_ok {c : UInt8} {idx : Nat} {v : UInt8} (h : val c idx = .ok v) :
    v.toNat < 16 ∧ asBytes [charsLower.getD v.toNat '0'] = [toAsciiLowercase c] := by
  have hidx : (val c idx).toOption = (val c 0).toOption := by
    unfold val
    split_ifs <;> rfl
  have hv : v ∈ (val c 0).toOption := by rw [← hidx, h]; rfl
  simpa only [toUInt8_toNat] using
    digit_lower ⟨c.toNat, c.toNat_lt_size⟩ v (by simpa only [toUInt8_toNat] using hv)

set_option maxRecDepth 4000 in
/-- Two digits put together as `val(..) << 4 | val(..)` come apart as the byte's halves. -/
theorem halves_digits : ∀ hi lo : Fin 16,
    (hi.val.toUInt8 <<< 4 ||| lo.val.toUInt8).toNat >>> 4 = hi.val ∧
      (hi.val.toUInt8 <<< 4 ||| lo.val.toUInt8).toNat &&& 0x0f = lo.val := by
  decide

theorem asBytes_encode_digits {hi lo : UInt8} (hhi : hi.toNat < 16) (hlo : lo.toNat < 16)
    (data : List UInt8) :
    asBytes (encode ((hi <<< 4 ||| lo) :: data)) =
      asBytes [charsLower.getD hi.toNat '0'] ++ asBytes [charsLower.getD lo.toNat '0'] ++
        asBytes (encode data) := by
  obtain ⟨hhalf, hlhalf⟩ := halves_digits ⟨hi.toNat, hhi⟩ ⟨lo.toNat, hlo⟩
  simp only [toUInt8_toNat] at hhalf hlhalf
  simp only [encode, asBytes, List.flatMap_cons, hhalf, hlhalf, List.flatMap_nil,
    List.append_nil, List.append_assoc, List.cons_append, List.singleton_append, List.nil_append]

/-- Hex text the crate reads is written back lower-cased: the bytes `decode` read are
encoded as the text's own bytes, each lower-cased. -/
theorem decodePairs_eq_ok {i : Nat} {hex data : List UInt8} (h : decodePairs i hex = .ok data) :
    asBytes (encode data) = hex.map toAsciiLowercase := by
  induction i, hex using decodePairs.induct generalizing data with
  | case1 => cases h; rfl
  | case2 i hi lo rest ih =>
    obtain ⟨vh, hvh, h⟩ := bind_eq_ok.1 h
    obtain ⟨vl, hvl, h⟩ := bind_eq_ok.1 h
    obtain ⟨rest', hrest, h⟩ := bind_eq_ok.1 h
    cases h
    obtain ⟨hhi, hhiLower⟩ := val_eq_ok hvh
    obtain ⟨hlo, hloLower⟩ := val_eq_ok hvl
    rw [asBytes_encode_digits hhi hlo, hhiLower, hloLower, ih hrest]
    rfl
  | case3 => cases h

/-- Hex text that `decode` reads, written again by `encode`, is the text lower-cased. -/
theorem encode_decode {hex data : List UInt8} (h : decode hex = .ok data) :
    asBytes (encode data) = hex.map toAsciiLowercase := by
  unfold decode at h
  split_ifs at h
  exact decodePairs_eq_ok h

end Hex

/-! ## Keys in files -/

namespace Key

/-- The derived `Serialize for Key`: its one field as hex text. -/
def serialize (key : Key) : List Char := Hex.encode key.data

/-- The derived `Deserialize for Key`. -/
def deserialize (data : List Char) : Except FromHexError Key :=
  (Hex.decode (asBytes data)).map Key.mk

/-- A key written to a configuration or an invitation file reads back as the same
key. -/
theorem deserialize_serialize (key : Key) : deserialize key.serialize = .ok key := by
  rw [deserialize, serialize, Hex.decode_encode]
  rfl

/-- A key text that does not read as a key is refused for an odd number of bytes, or at
its first byte that is not a hex digit: the error names that byte, as a `char`, and its
position, and every byte before it is a digit. -/
theorem deserialize_eq_error {text : List Char} {e : FromHexError}
    (h : deserialize text = .error e) :
    (asBytes text).length % 2 = 1 ∧ e = .oddLength ∨
      ∃ k b, (asBytes text)[k]? = some b ∧ e = .invalidHexCharacter (Char.ofNat b.toNat) k ∧
        (∀ v, Hex.val b k ≠ .ok v) ∧
        ∀ j < k, ∃ b' v, (asBytes text)[j]? = some b' ∧ Hex.val b' j = .ok v := by
  have hdecode : Hex.decode (asBytes text) = .error e := by
    unfold deserialize at h
    cases hd : Hex.decode (asBytes text) <;> simp_all [Except.map]
  refine (Hex.decode_eq_error hdecode).imp id fun ⟨k, b, hb, hval, hbefore⟩ => ?_
  exact ⟨k, b, hb, Hex.val_eq_error hval, (fun v hv => nomatch hv.symm.trans hval), hbefore⟩

/-- The key text `7g`: its second byte is not a hex digit. -/
theorem deserialize_eq_error_7g :
    deserialize "7g".toList = .error (.invalidHexCharacter 'g' 1) ∧
      ((asBytes "7g".toList).length % 2 = 1 ∧ FromHexError.invalidHexCharacter 'g' 1 = .oddLength ∨
        ∃ k b, (asBytes "7g".toList)[k]? = some b ∧
          FromHexError.invalidHexCharacter 'g' 1 = .invalidHexCharacter (Char.ofNat b.toNat) k ∧
          (∀ v, Hex.val b k ≠ .ok v) ∧
          ∀ j < k, ∃ b' v, (asBytes "7g".toList)[j]? = some b' ∧ Hex.val b' j = .ok v) := by
  have h : deserialize "7g".toList = .error (.invalidHexCharacter 'g' 1) := rfl
  exact ⟨h, deserialize_eq_error h⟩

/-- A key read from hex text is written back as that text, lower-cased. -/
theorem serialize_deserialize {text : List Char} {key : Key} (h : deserialize text = .ok key) :
    asBytes key.serialize = (asBytes text).map toAsciiLowercase := by
  obtain ⟨data, hdata, rfl⟩ := map_eq_ok.1 h
  exact Hex.encode_decode hdata

/-- A key's file format: a key written as hex reads back as the same key, and hex text
read as a key is written back as the same text with its digits lower-cased, so reading
and writing a configuration or an invitation file changes no key. -/
theorem hex_round_trip :
    (∀ key : Key, deserialize key.serialize = .ok key) ∧
      ∀ text key, deserialize text = .ok key →
        asBytes key.serialize = (asBytes text).map toAsciiLowercase :=
  ⟨deserialize_serialize, fun _ _ => serialize_deserialize⟩

/-- The key `7fa0` read from upper-case text is written back in lower case. -/
theorem hex_round_trip_upper :
    deserialize "7FA0".toList = .ok ⟨[0x7f, 0xa0]⟩ ∧
      asBytes (serialize ⟨[0x7f, 0xa0]⟩) = (asBytes "7FA0".toList).map toAsciiLowercase :=
  ⟨rfl, hex_round_trip.2 _ _ rfl⟩

end Key

/-! ## Sealing -/

/-- `crypto::EncryptedData`: the sealed bytes and the scheme's version. -/
structure EncryptedData where
  /-- The sealed bytes. -/
  data : List UInt8
  /-- The scheme's version. -/
  version : UInt8
deriving DecidableEq, Repr

/-- What `crypto.rs` passes on through `anyhow::Error`. -/
inductive CryptoError where
  /-- `crypto::CryptoError`, raised by `bail!`. -/
  | crypto (message : List Char)
  /-- `orion::errors::UnknownCryptoError`. -/
  | orion
  /-- A `serde_json::Error`, by its message. -/
  | serde (message : List Char)
  /-- `std::string::FromUtf8Error`. -/
  | utf8
deriving DecidableEq, Repr

/-- The calls `crypto.rs` makes into `orion::aead` and `String::from_utf8`, with the
laws it relies on. -/
structure CryptoLibs where
  /-- `aead::SecretKey::from_slice`: whether orion takes the bytes as a key. -/
  fromSlice : List UInt8 → Bool
  /-- `aead::seal`, given the nonce it draws. -/
  sealBytes : List UInt8 → List UInt8 → List UInt8 → Option (List UInt8)
  /-- `aead::open`. -/
  openBytes : List UInt8 → List UInt8 → Option (List UInt8)
  /-- What orion sealed under a key it opens under the same key. -/
  openBytes_sealBytes : ∀ key nonce plain sealed, sealBytes key nonce plain = some sealed →
    openBytes key sealed = some plain
  /-- `String::from_utf8`. -/
  fromUtf8 : List UInt8 → Option (List Char)
  /-- `String::from_utf8` reads back the bytes of `str::as_bytes`. -/
  fromUtf8_asBytes : ∀ text, fromUtf8 (asBytes text) = some text

/-- `serde_json` at one type, with the law that it reads back what it writes. -/
structure Json (α : Type) where
  /-- `serde_json::to_string`. -/
  toString : α → Except (List Char) (List Char)
  /-- `serde_json::from_str`. -/
  fromStr : List Char → Except (List Char) α
  /-- serde_json reads back what it wrote. -/
  fromStr_toString : ∀ value text, toString value = .ok text → fromStr text = .ok value

namespace Key

variable {α : Type} (crypto : CryptoLibs) (json : Json α)

/-- `Key::encrypt`, given the nonce `seal` draws. -/
def encrypt (key : Key) (nonce : List UInt8) (data : α) : Except CryptoError EncryptedData :=
  if !crypto.fromSlice key.data then .error .orion
  else
    match json.toString data with
    | .error message => .error (.serde message)
    | .ok jsonData =>
      match crypto.sealBytes key.data nonce (asBytes jsonData) with
      | some sealed => .ok ⟨sealed, 1⟩
      | none => .error .orion

/-- `Key::decrypt`. -/
def decrypt (key : Key) (data : EncryptedData) : Except CryptoError α :=
  if data.version ≠ 1 then
    .error (.crypto ("Only version 1 is supported. This is version ".toList ++
      Nat.toDigits 10 data.version.toNat))
  else if !crypto.fromSlice key.data then .error .orion
  else
    match crypto.openBytes key.data data.data with
    | none => .error .orion
    | some decrypted =>
      match crypto.fromUtf8 decrypted with
      | none => .error .utf8
      | some text => (json.fromStr text).mapError .serde

/-- What `encrypt` returns: version `1`, and the seal of the JSON's bytes under a key
orion took. -/
theorem encrypt_eq_ok {key : Key} {nonce : List UInt8} {data : α} {sealed : EncryptedData}
    (h : encrypt crypto json key nonce data = .ok sealed) :
    crypto.fromSlice key.data = true ∧ sealed.version = 1 ∧
      ∃ text, json.toString data = .ok text ∧
        crypto.sealBytes key.data nonce (asBytes text) = some sealed.data := by
  unfold encrypt at h
  split_ifs at h with hkey
  split at h
  · cases h
  · next text htext =>
    split at h
    · next bytes hseal =>
      cases h
      exact ⟨by simpa using hkey, rfl, text, htext, hseal⟩
    · cases h

/-- Decrypting what `encrypt` returns gives the value back; an error of `encrypt`
passes through. -/
theorem decrypt_encrypt (key : Key) (nonce : List UInt8) (data : α) :
    (encrypt crypto json key nonce data).bind (decrypt crypto json key) =
      (encrypt crypto json key nonce data).map fun _ => data := by
  cases h : encrypt crypto json key nonce data with
  | error e => rfl
  | ok sealed =>
    obtain ⟨hkey, hversion, text, htext, hseal⟩ := encrypt_eq_ok crypto json h
    simp only [Except.bind, Except.map, decrypt, hversion, ne_eq, not_true_eq_false, if_false,
      hkey, Bool.not_true, Bool.false_eq_true, crypto.openBytes_sealBytes _ _ _ _ hseal,
      crypto.fromUtf8_asBytes, json.fromStr_toString _ _ htext]
    rfl

/-- `decrypt` refuses every version but `1`, before it looks at the key or the bytes. -/
theorem decrypt_of_version_ne {key : Key} {data : EncryptedData} (h : data.version ≠ 1) :
    decrypt crypto json key data = .error (.crypto
      ("Only version 1 is supported. This is version ".toList ++
        Nat.toDigits 10 data.version.toNat)) :=
  if_pos h

end Key


/-! ## The crates on a fragment

Instances of `CryptoLibs` and `Json` whose laws hold, so that the laws `decrypt_encrypt`
rests on can all hold at once.  The AEAD seals nothing: its sealed bytes are the nonce
then the plain bytes.  The UTF-8 reader takes each character from as many bytes as the
first one announces, and does not check the others, so it reads more than
`String::from_utf8` does. -/

/-- `String::from_utf8` on the fragment. -/
def fromUtf8Fragment : List UInt8 → Option (List Char)
  | [] => some []
  | b0 :: rest =>
    if b0.toNat < 0x80 then (fromUtf8Fragment rest).map (Char.ofNat b0.toNat :: ·)
    else match rest with
    | b1 :: rest =>
      if b0.toNat < 0xe0 then
        (fromUtf8Fragment rest).map (Char.ofNat (b0.toNat % 32 * 64 + b1.toNat % 64) :: ·)
      else match rest with
      | b2 :: rest =>
        if b0.toNat < 0xf0 then
          (fromUtf8Fragment rest).map
            (Char.ofNat (b0.toNat % 16 * 4096 + b1.toNat % 64 * 64 + b2.toNat % 64) :: ·)
        else match rest with
        | b3 :: rest =>
          (fromUtf8Fragment rest).map (Char.ofNat (b0.toNat % 8 * 262144 +
            b1.toNat % 64 * 4096 + b2.toNat % 64 * 64 + b3.toNat % 64) :: ·)
        | [] => none
      | [] => none
    | [] => none

theorem toNat_shiftRight (v k : UInt32) (hk : k.toNat < 32) :
    (v >>> k).toNat = v.toNat / 2 ^ k.toNat := by
  show (v.toBitVec >>> (UInt32.mod k 32).toBitVec).toNat = _
  rw [BitVec.ushiftRight_eq', BitVec.toNat_ushiftRight, Nat.shiftRight_eq_div_pow]
  congr 2
  show k.toNat % 32 = k.toNat
  omega

theorem toNat_toUInt8 (v : UInt32) : v.toUInt8.toNat = v.toNat % 256 := by
  simp [UInt32.toUInt8, UInt8.toNat, UInt8.ofNat, BitVec.toNat_ofNat]

set_option maxRecDepth 4000 in
/-- The bytes `String::utf8EncodeChar` makes, as numbers: a lead byte of each length, and a
continuation byte. -/
theorem toNat_utf8Byte : ∀ x : Fin 256,
    (x.val.toUInt8 &&& 0x1f ||| 0xc0).toNat = x.val % 32 + 192 ∧
      (x.val.toUInt8 &&& 0x0f ||| 0xe0).toNat = x.val % 16 + 224 ∧
      (x.val.toUInt8 &&& 0x07 ||| 0xf0).toNat = x.val % 8 + 240 ∧
      (x.val.toUInt8 &&& 0x3f ||| 0x80).toNat = x.val % 64 + 128 := by
  decide

/-- A byte the encoder makes, as a number. -/
theorem toNat_utf8Byte_of_UInt8 (x : UInt8) :
    (x &&& 0x1f ||| 0xc0).toNat = x.toNat % 32 + 192 ∧
      (x &&& 0x0f ||| 0xe0).toNat = x.toNat % 16 + 224 ∧
      (x &&& 0x07 ||| 0xf0).toNat = x.toNat % 8 + 240 ∧
      (x &&& 0x3f ||| 0x80).toNat = x.toNat % 64 + 128 := by
  simpa only [Hex.toUInt8_toNat] using toNat_utf8Byte ⟨x.toNat, x.toNat_lt_size⟩

/-! The reader on one character of each width, from the values of its bytes. -/

theorem fromUtf8Fragment_cons1 {b0 : UInt8} (n : Nat) (h0 : b0.toNat = n) (hn : n < 0x80)
    (rest : List UInt8) :
    fromUtf8Fragment (b0 :: rest) = (fromUtf8Fragment rest).map (Char.ofNat n :: ·) := by
  rw [fromUtf8Fragment.eq_def]
  simp only [h0, if_pos hn]

theorem fromUtf8Fragment_cons2 {b0 b1 : UInt8} (n : Nat) (h0 : b0.toNat = n / 64 + 192)
    (h1 : b1.toNat = n % 64 + 128) (hn : 0x80 ≤ n ∧ n < 0x800) (rest : List UInt8) :
    fromUtf8Fragment (b0 :: b1 :: rest) = (fromUtf8Fragment rest).map (Char.ofNat n :: ·) := by
  rw [fromUtf8Fragment.eq_def]
  simp only [h0, h1]
  rw [if_neg (by omega), if_pos (by omega), show (n / 64 + 192) % 32 * 64 + (n % 64 + 128) % 64 = n
    by omega]

theorem fromUtf8Fragment_cons3 {b0 b1 b2 : UInt8} (n : Nat) (h0 : b0.toNat = n / 4096 + 224)
    (h1 : b1.toNat = n / 64 % 64 + 128) (h2 : b2.toNat = n % 64 + 128)
    (hn : 0x800 ≤ n ∧ n < 0x10000) (rest : List UInt8) :
    fromUtf8Fragment (b0 :: b1 :: b2 :: rest) =
      (fromUtf8Fragment rest).map (Char.ofNat n :: ·) := by
  rw [fromUtf8Fragment.eq_def]
  simp only [h0, h1, h2]
  rw [if_neg (by omega), if_neg (by omega), if_pos (by omega), show (n / 4096 + 224) % 16 * 4096 +
    (n / 64 % 64 + 128) % 64 * 64 + (n % 64 + 128) % 64 = n by omega]

theorem fromUtf8Fragment_cons4 {b0 b1 b2 b3 : UInt8} (n : Nat) (h0 : b0.toNat = n / 262144 + 240)
    (h1 : b1.toNat = n / 4096 % 64 + 128) (h2 : b2.toNat = n / 64 % 64 + 128)
    (h3 : b3.toNat = n % 64 + 128) (hn : 0x10000 ≤ n ∧ n < 0x110000) (rest : List UInt8) :
    fromUtf8Fragment (b0 :: b1 :: b2 :: b3 :: rest) =
      (fromUtf8Fragment rest).map (Char.ofNat n :: ·) := by
  rw [fromUtf8Fragment.eq_def]
  simp only [h0, h1, h2, h3]
  rw [if_neg (by omega), if_neg (by omega), if_neg (by omega),
    show (n / 262144 + 240) % 8 * 262144 + (n / 4096 % 64 + 128) % 64 * 4096 +
      (n / 64 % 64 + 128) % 64 * 64 + (n % 64 + 128) % 64 = n by omega]

/-- The fragment's reader takes the bytes of one character back to the character. -/
theorem fromUtf8Fragment_utf8EncodeChar (c : Char) (rest : List UInt8) :
    fromUtf8Fragment (String.utf8EncodeChar c ++ rest) = (fromUtf8Fragment rest).map (c :: ·) := by
  have hvalid : c.toNat < 0x110000 := by
    rcases c.valid with h | h
    · exact lt_trans h (by decide)
    · exact h.2
  have b0 : c.val.toUInt8.toNat = c.toNat % 256 := toNat_toUInt8 _
  have b6 : (c.val >>> 6).toUInt8.toNat = c.toNat / 64 % 256 := by
    rw [toNat_toUInt8, toNat_shiftRight _ _ (by decide)]; rfl
  have b12 : (c.val >>> 12).toUInt8.toNat = c.toNat / 4096 % 256 := by
    rw [toNat_toUInt8, toNat_shiftRight _ _ (by decide)]; rfl
  have b18 : (c.val >>> 18).toUInt8.toNat = c.toNat / 262144 % 256 := by
    rw [toNat_toUInt8, toNat_shiftRight _ _ (by decide)]; rfl
  have tail : ∀ x : UInt8, (x &&& 0x3f ||| 0x80).toNat = x.toNat % 64 + 128 :=
    fun x => (toNat_utf8Byte_of_UInt8 x).2.2.2
  rw [← congrArg (fun d => (fromUtf8Fragment rest).map (d :: ·)) (Char.ofNat_toNat c)]
  dsimp only [String.utf8EncodeChar]
  split_ifs with h1 h2 h3
  · have h1' : c.toNat ≤ 127 := h1
    exact fromUtf8Fragment_cons1 _ (by omega) (by omega) rest
  · have h1' : ¬ c.toNat ≤ 127 := h1
    have h2' : c.toNat ≤ 2047 := h2
    refine fromUtf8Fragment_cons2 _ ?_ (by rw [tail, b0]; omega) (by omega) rest
    rw [(toNat_utf8Byte_of_UInt8 _).1, b6]; omega
  · have h2' : ¬ c.toNat ≤ 2047 := h2
    have h3' : c.toNat ≤ 65535 := h3
    refine fromUtf8Fragment_cons3 _ ?_ (by rw [tail, b6]; omega) (by rw [tail, b0]; omega)
      (by omega) rest
    rw [(toNat_utf8Byte_of_UInt8 _).2.1, b12]; omega
  · have h3' : ¬ c.toNat ≤ 65535 := h3
    refine fromUtf8Fragment_cons4 _ ?_ (by rw [tail, b12]; omega) (by rw [tail, b6]; omega)
      (by rw [tail, b0]; omega) (by omega) rest
    rw [(toNat_utf8Byte_of_UInt8 _).2.2.1, b18]; omega

/-- The fragment's reader reads back `str::as_bytes`. -/
theorem fromUtf8Fragment_asBytes (text : List Char) :
    fromUtf8Fragment (asBytes text) = some text := by
  induction text with
  | nil => rfl
  | cons c text ih =>
    show fromUtf8Fragment (String.utf8EncodeChar c ++ asBytes text) = _
    rw [fromUtf8Fragment_utf8EncodeChar, ih]
    rfl

/-- An AEAD that seals nothing, over keys of 32 bytes and nonces of 24: the sealed
bytes are the nonce, then the plain bytes. -/
def CryptoLibs.fragment : CryptoLibs where
  fromSlice key := key.length == 32
  sealBytes _ nonce plain := if nonce.length = 24 then some (nonce ++ plain) else none
  openBytes _ sealed := some (sealed.drop 24)
  openBytes_sealBytes key nonce plain sealed h := by
    dsimp only at h ⊢
    split_ifs at h with hnonce
    cases h
    rw [List.drop_left' hnonce]
  fromUtf8 := fromUtf8Fragment
  fromUtf8_asBytes := fromUtf8Fragment_asBytes

/-- `serde_json` at `bool`. -/
def Json.bool : Json Bool where
  toString value := .ok (if value then "true" else "false").toList
  fromStr text :=
    if text = "true".toList then .ok true
    else if text = "false".toList then .ok false
    else .error "expected a boolean".toList
  fromStr_toString value text h := by
    cases value <;> cases h <;> rfl

/-- On the fragments, `true` sealed under a key of 32 bytes opens to `true`: `encrypt`
succeeds there, so `decrypt_encrypt` does not hold only of failures. -/
theorem Key.decrypt_encrypt_fragment :
    (Key.encrypt CryptoLibs.fragment Json.bool ⟨List.replicate 32 7⟩ (List.replicate 24 1)
        true).bind (Key.decrypt CryptoLibs.fragment Json.bool ⟨List.replicate 32 7⟩) =
      .ok true := by
  rw [Key.decrypt_encrypt]
  rfl

end OpenPortal
