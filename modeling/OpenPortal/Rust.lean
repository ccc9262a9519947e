import Mathlib.Data.List.DropRight

/-!
# Rust text and results

Two pieces of the Rust standard library that every module below uses.

*Text.*  The sources handle text with four `str` methods: `split` on a character,
`split_whitespace`, `trim`, and `join` on a slice of parts.  None of them looks at
bytes, so a `String` or a `&str` is modelled by the list of its `char`s, and each
method by the list function that computes the same thing.  Where the bytes matter,
`as_bytes` is the UTF-8 encoding (`asBytes`).

* `split(c)` is `List.splitOn c`.  Both give the pieces between the occurrences
  of `c`, empty pieces included, and the one piece `""` for the empty string.
* `parts.join(sep)` is `sep.intercalate parts`.
* `trim` drops the leading and trailing characters that `char::is_whitespace`
  accepts (`isWhitespace`, the Unicode `White_Space` property).
* `split_whitespace` splits at those characters and drops the empty pieces.

The lemmas are the ones the parsers' round trips need: a piece of a split holds no
separator (`mem_of_mem_splitOnP`), and `trim` only removes characters and is
idempotent (`trim_isInfix_self`, `trim_trim`).

*Results.*  A `Result<T, E>` is `Except E T`, and the `?` operator is `>>=`,
after `Except.mapError` when it converts the error with `From`.
`bind_eq_ok` takes a successful chain of `?` apart one step at a time.
-/

namespace OpenPortal

/-! ## The methods -/

/-- `char::is_whitespace`: the characters with the Unicode `White_Space` property. -/
def isWhitespace (c : Char) : Bool :=
  c.toNat == 0x20 || (0x09 ≤ c.toNat && c.toNat ≤ 0x0D) || c.toNat == 0x85 ||
    c.toNat == 0xA0 || c.toNat == 0x1680 || (0x2000 ≤ c.toNat && c.toNat ≤ 0x200A) ||
    c.toNat == 0x2028 || c.toNat == 0x2029 || c.toNat == 0x202F || c.toNat == 0x205F ||
    c.toNat == 0x3000

/-- `str::trim`. -/
def trim (s : List Char) : List Char :=
  (s.dropWhile isWhitespace).rdropWhile isWhitespace

/-- `str::as_bytes`: the UTF-8 encoding of the text. -/
def asBytes (s : List Char) : List UInt8 :=
  s.flatMap String.utf8EncodeChar

/-- `str::split_whitespace`. -/
def splitWhitespace (s : List Char) : List (List Char) :=
  (s.splitOnP isWhitespace).filter fun part => !part.isEmpty

example : trim " \t a b \n".toList = "a b".toList := by decide
example : splitWhitespace "  portal  add_user a.b.c ".toList =
    ["portal".toList, "add_user".toList, "a.b.c".toList] := by decide

/-! ## Splitting -/

/-- A character of a piece of a split is a character of the text, and no separator. -/
theorem mem_of_mem_splitOnP {α : Type} (p : α → Bool) :
    ∀ {s l : List α}, l ∈ s.splitOnP p → ∀ c ∈ l, c ∈ s ∧ p c = false
  | [], l, hl => by simp_all
  | x :: xs, l, hl => by
      rw [List.splitOnP_cons] at hl
      split at hl
      · rcases List.mem_cons.1 hl with rfl | hl
        · simp
        · exact fun c hc => (mem_of_mem_splitOnP p hl c hc).imp_left (List.mem_cons_of_mem x)
      · obtain ⟨h, t, ht⟩ := List.exists_cons_of_ne_nil (List.splitOnP_ne_nil p xs)
        rw [ht, List.modifyHead_cons] at hl
        have tail : ∀ {l}, l ∈ xs.splitOnP p → ∀ c ∈ l, c ∈ x :: xs ∧ p c = false :=
          fun hl c hc => (mem_of_mem_splitOnP p hl c hc).imp_left (List.mem_cons_of_mem x)
        rcases List.mem_cons.1 hl with rfl | hl
        · intro c hc
          rcases List.mem_cons.1 hc with rfl | hc
          · simpa using ‹¬p c = true›
          · exact tail (ht ▸ List.mem_cons_self h t) c hc
        · exact tail (ht ▸ List.mem_cons_of_mem h hl)

/-- The first piece of a split is a prefix of the text. -/
theorem exists_splitOnP_eq_cons_prefix {α : Type} (p : α → Bool) :
    ∀ s : List α, ∃ t ts, s.splitOnP p = t :: ts ∧ t <+: s
  | [] => ⟨[], [], rfl, List.nil_prefix⟩
  | x :: xs => by
    obtain ⟨t, ts, h, hpre⟩ := exists_splitOnP_eq_cons_prefix p xs
    rw [List.splitOnP_cons, h]
    split
    · exact ⟨[], t :: ts, rfl, List.nil_prefix⟩
    · exact ⟨x :: t, ts, rfl, (List.prefix_cons_inj x).2 hpre⟩

/-- Every piece of a split is a stretch of the text. -/
theorem infix_of_mem_splitOnP {α : Type} (p : α → Bool) :
    ∀ {s l : List α}, l ∈ s.splitOnP p → l <:+: s
  | [], l, hl => by
    rw [List.splitOnP_nil, List.mem_singleton] at hl
    exact hl ▸ List.nil_infix
  | x :: xs, l, hl => by
    obtain ⟨t, ts, h, hpre⟩ := exists_splitOnP_eq_cons_prefix p xs
    have tail : ∀ {l}, l ∈ xs.splitOnP p → l <:+: x :: xs :=
      fun hl => List.infix_cons (infix_of_mem_splitOnP p hl)
    rw [List.splitOnP_cons, h] at hl
    split at hl
    · rcases List.mem_cons.1 hl with rfl | hl
      · exact List.nil_infix
      · exact tail (h ▸ hl)
    · rw [List.modifyHead_cons] at hl
      rcases List.mem_cons.1 hl with rfl | hl
      · exact ((List.prefix_cons_inj x).2 hpre).isInfix
      · exact tail (h ▸ List.mem_cons_of_mem _ hl)

theorem not_mem_of_mem_splitOn {c : Char} {s l : List Char} (hl : l ∈ s.splitOn c) : c ∉ l :=
  fun hc => by simpa using (mem_of_mem_splitOnP _ hl c hc).2

theorem mem_of_mem_splitOn {c d : Char} {s l : List Char} (hl : l ∈ s.splitOn c) (hd : d ∈ l) :
    d ∈ s :=
  (mem_of_mem_splitOnP _ hl d hd).1

/-- Joining with a separator puts it between the first part and the rest. -/
theorem intercalate_cons_of_ne_nil {α : Type} {x : α} {a : List α} {l : List (List α)}
    (h : l ≠ []) : [x].intercalate (a :: l) = a ++ x :: [x].intercalate l := by
  cases l with
  | nil => exact absurd rfl h
  | cons b l => simp [List.intercalate, List.intersperse_cons_cons]

theorem intercalate_modifyHead_cons {α : Type} {x c : α} {l : List (List α)} (h : l ≠ []) :
    [x].intercalate (l.modifyHead (c :: ·)) = c :: [x].intercalate l := by
  cases l with
  | nil => exact absurd rfl h
  | cons a l => cases l <;> simp [List.intercalate, List.intersperse_cons_cons]

/-- The join of the parts after the first is a suffix of the join of all of them. -/
theorem intercalate_suffix_cons {α : Type} (x : α) (a : List α) (l : List (List α)) :
    [x].intercalate l <:+ [x].intercalate (a :: l) := by
  cases l with
  | nil => exact List.nil_suffix
  | cons b l =>
    rw [intercalate_cons_of_ne_nil (List.cons_ne_nil b l), show a ++ x :: [x].intercalate (b :: l) =
      (a ++ [x]) ++ [x].intercalate (b :: l) by simp]
    exact List.suffix_append _ _

/-! ## Splitting at whitespace -/

@[simp]
theorem splitWhitespace_nil : splitWhitespace [] = [] := rfl

theorem splitWhitespace_cons_of_isWhitespace {c : Char} (h : isWhitespace c = true)
    (s : List Char) : splitWhitespace (c :: s) = splitWhitespace s := by
  simp [splitWhitespace, List.splitOnP_cons, h]

theorem splitWhitespace_singleton {c : Char} (h : isWhitespace c = false) :
    splitWhitespace [c] = [[c]] := by
  simp [splitWhitespace, List.splitOnP_cons, h]

/-- A word of one character, then whitespace. -/
theorem splitWhitespace_cons_cons_of_isWhitespace {c d : Char} (hc : isWhitespace c = false)
    (hd : isWhitespace d = true) (s : List Char) :
    splitWhitespace (c :: d :: s) = [c] :: splitWhitespace s := by
  simp [splitWhitespace, List.splitOnP_cons, hc, hd]

/-- A character that is not whitespace, before another, joins the first word. -/
theorem splitWhitespace_cons_cons {c d : Char} (hc : isWhitespace c = false)
    (hd : isWhitespace d = false) (s : List Char) :
    splitWhitespace (c :: d :: s) = (splitWhitespace (d :: s)).modifyHead (c :: ·) := by
  obtain ⟨t, ts, hs, -⟩ := exists_splitOnP_eq_cons_prefix isWhitespace s
  simp [splitWhitespace, List.splitOnP_cons, hc, hd, hs]

/-- A word, a space, and the rest: the word, then the words of the rest. -/
theorem splitWhitespace_append_space {w : List Char} (hw : ∀ c ∈ w, isWhitespace c = false)
    (hne : w ≠ []) (s : List Char) :
    splitWhitespace (w ++ ' ' :: s) = w :: splitWhitespace s := by
  rw [splitWhitespace, List.splitOnP_first isWhitespace w (by simpa using hw) ' ' (by decide)]
  simp [splitWhitespace, hne]

/-- The words of `split_whitespace` are not empty and hold no whitespace. -/
theorem word_of_mem_splitWhitespace {s w : List Char} (h : w ∈ splitWhitespace s) :
    w ≠ [] ∧ ∀ c ∈ w, isWhitespace c = false := by
  rw [splitWhitespace, List.mem_filter] at h
  exact ⟨by simpa using h.2, fun c hc => (mem_of_mem_splitOnP _ h.1 c hc).2⟩

/-- Text with a character that is not whitespace has a word. -/
theorem splitWhitespace_ne_nil :
    ∀ {s : List Char} {c : Char}, c ∈ s → isWhitespace c = false → splitWhitespace s ≠ []
  | x :: xs, c, hc, h => by
    cases hx : isWhitespace x
    · obtain ⟨t, ts, hs, -⟩ := exists_splitOnP_eq_cons_prefix isWhitespace xs
      simp [splitWhitespace, List.splitOnP_cons, hx, hs]
    · rw [splitWhitespace_cons_of_isWhitespace hx]
      rcases List.mem_cons.1 hc with rfl | hc
      · rw [h] at hx; cases hx
      · exact splitWhitespace_ne_nil hc h

/-! ## Trimming -/

/-- `trim` only removes characters at the two ends. -/
theorem trim_isInfix_self (s : List Char) : trim s <:+: s :=
  (List.rdropWhile_prefix _ _).isInfix.trans (List.dropWhile_suffix _).isInfix

theorem mem_of_mem_trim {c : Char} {s : List Char} (h : c ∈ trim s) : c ∈ s :=
  (trim_isInfix_self s).subset h

/-- `trim` leaves no whitespace at its start. -/
theorem isWhitespace_of_head?_trim {s : List Char} {c : Char} (h : (trim s).head? = some c) :
    isWhitespace c = false := by
  obtain ⟨t, ht⟩ : trim s <+: s.dropWhile isWhitespace := List.rdropWhile_prefix _ _
  have hfirst := List.head?_dropWhile_not isWhitespace s
  rwa [← ht, List.head?_append, h] at hfirst

/-- `trim` leaves no whitespace at its end. -/
theorem isWhitespace_of_getLast?_trim {s : List Char} {c : Char} (h : (trim s).getLast? = some c) :
    isWhitespace c = false := by
  have hne : trim s ≠ [] := by rintro hnil; rw [hnil] at h; cases h
  rw [List.getLast?_eq_getLast _ hne, Option.some.injEq] at h
  subst h
  simpa using List.rdropWhile_last_not isWhitespace (s.dropWhile isWhitespace) hne

theorem trim_trim (s : List Char) : trim (trim s) = trim s := by
  have hstart : (trim s).dropWhile isWhitespace = trim s := by
    rw [List.dropWhile_eq_self_iff]
    intro hl
    have hpre : trim s <+: s.dropWhile isWhitespace := List.rdropWhile_prefix _ _
    simp only [List.get_eq_getElem]
    rw [hpre.getElem]
    exact List.dropWhile_get_zero_not _ _ _
  rw [trim, hstart, trim, List.rdropWhile_idempotent]

/-! ## Results -/

theorem bind_eq_ok {ε α β : Type} {x : Except ε α} {f : α → Except ε β} {b : β} :
    x >>= f = .ok b ↔ ∃ a, x = .ok a ∧ f a = .ok b := by
  cases x <;> simp [bind, Except.bind]

theorem bind_eq_error {ε α β : Type} {x : Except ε α} {f : α → Except ε β} {e : ε} :
    x >>= f = .error e ↔ x = .error e ∨ ∃ a, x = .ok a ∧ f a = .error e := by
  cases x <;> simp [bind, Except.bind]

theorem map_eq_ok {ε α β : Type} {x : Except ε α} {f : α → β} {b : β} :
    x.map f = .ok b ↔ ∃ a, x = .ok a ∧ f a = b := by
  cases x <;> simp [Except.map]

@[simp]
theorem mapError_eq_ok {ε ε' α : Type} {x : Except ε α} {f : ε → ε'} {a : α} :
    x.mapError f = .ok a ↔ x = .ok a := by
  cases x <;> simp [Except.mapError]

theorem mapError_eq_error {ε ε' α : Type} {x : Except ε α} {f : ε → ε'} {e : ε'} :
    x.mapError f = .error e ↔ ∃ e', x = .error e' ∧ f e' = e := by
  cases x <;> simp [Except.mapError]

end OpenPortal
