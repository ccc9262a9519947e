import OpenPortal.Templemeads.Grammar

/-!
# Printing and parsing the grammar

The round-trip law of the grammar, `parse(print(instruction)) == instruction`,
and where it stops.

Every field that `UserIdentifier::parse` returns is non-empty, trimmed and free
of `.` (`UserIdentifier.WellFormed`).  Printing such an identifier and splitting
it at `.` gives its three fields back (`List.splitOn_intercalate`), and trimming
them changes nothing, so `parse` reads back what it printed.  A mapping works the
same way at `:`, provided none of its fields holds a `:`.  `UserMapping::parse`
guarantees that; `UserMapping::new` does not.

`Instruction::new` splits its text at single spaces.  For the four verbs with one
argument, the argument is the rest of the text joined back, so any identifier or
mapping survives.  `update_homedir` takes the second and third pieces and trims
the third: the identifier and the path must hold no space, and the path must be
its own trim.  `Instruction.Printable` collects these conditions.
-/

namespace OpenPortal

/-- A field as the parsers return it: non-empty, trimmed, free of the separator. -/
structure Field (sep : Char) (field : List Char) : Prop where
  ne_nil : field ≠ []
  trim_eq : trim field = field
  not_mem : sep ∉ field

theorem Field.trim_ne_nil {sep : Char} {field : List Char} (h : Field sep field) :
    trim field ≠ [] := by
  rw [h.trim_eq]; exact h.ne_nil

theorem Field.of_trim {sep : Char} {part : List Char} (hne : trim part ≠ []) (hsep : sep ∉ part) :
    Field sep (trim part) :=
  ⟨hne, trim_trim part, fun h => hsep (mem_of_mem_trim h)⟩

/-- Splitting `verb ++ " " ++ rest` at spaces: the verb, then the pieces of `rest`. -/
theorem splitOn_space_append {verb rest : List Char} (h : ' ' ∉ verb) :
    (verb ++ ' ' :: rest).splitOn ' ' = verb :: rest.splitOn ' ' :=
  List.splitOnP_first (· == ' ') verb (fun _ hx hsp => h (by rwa [beq_iff_eq.1 hsp] at hx))
    ' ' (by simp) rest

/-! ## Identifiers -/

namespace UserIdentifier

/-- The identifiers that `parse` returns. -/
structure WellFormed (user : UserIdentifier) : Prop where
  username : Field '.' user.username
  project : Field '.' user.project
  portal : Field '.' user.portal

theorem wellFormed_of_parse {identifier : List Char} {user : UserIdentifier}
    (h : parse identifier = .ok user) : user.WellFormed := by
  obtain ⟨a, b, c, hsplit, ha, hb, hc, rfl⟩ := parse_eq_ok h
  have piece : ∀ l ∈ [a, b, c], '.' ∉ l := fun l hl => not_mem_of_mem_splitOn (hsplit ▸ hl)
  exact ⟨.of_trim ha (piece a (by simp)), .of_trim hb (piece b (by simp)),
    .of_trim hc (piece c (by simp))⟩

/-- A character of a parsed identifier's text is a `.` or comes from the parsed text. -/
theorem mem_toString_of_parse {identifier : List Char} {user : UserIdentifier} {c : Char}
    (h : parse identifier = .ok user) (hc : c ∈ user.toString) : c = '.' ∨ c ∈ identifier := by
  obtain ⟨a, b, d, hsplit, -, -, -, rfl⟩ := parse_eq_ok h
  have piece : ∀ l ∈ [a, b, d], c ∈ trim l → c ∈ identifier :=
    fun l hl hcl => mem_of_mem_splitOn (hsplit ▸ hl) (mem_of_mem_trim hcl)
  simp only [UserIdentifier.toString, List.mem_append, List.mem_cons] at hc
  rcases hc with (ha | rfl | hb) | rfl | hd
  · exact .inr (piece a (by simp) ha)
  · exact .inl rfl
  · exact .inr (piece b (by simp) hb)
  · exact .inl rfl
  · exact .inr (piece d (by simp) hd)

theorem toString_eq (user : UserIdentifier) :
    user.toString = ['.'].intercalate [user.username, user.project, user.portal] := by
  simp [UserIdentifier.toString, List.intercalate]

theorem parse_toString {user : UserIdentifier} (h : user.WellFormed) :
    parse user.toString = .ok user := by
  have hsplit : user.toString.splitOn '.' = [user.username, user.project, user.portal] := by
    rw [toString_eq]
    refine List.splitOn_intercalate _ _ ?_ (by simp)
    simp [h.username.not_mem, h.project.not_mem, h.portal.not_mem]
  have := parse_of_splitOn hsplit h.username.trim_ne_nil h.project.trim_ne_nil
    h.portal.trim_ne_nil
  rwa [h.username.trim_eq, h.project.trim_eq, h.portal.trim_eq] at this

theorem WellFormed.isValid {user : UserIdentifier} (h : user.WellFormed) :
    user.isValid = true := by
  simp [UserIdentifier.isValid, h.username.ne_nil, h.project.ne_nil, h.portal.ne_nil]

end UserIdentifier

/-! ## Mappings -/

namespace UserMapping

/-- No field of the mapping holds a `:`. -/
def ColonFree (mapping : UserMapping) : Prop :=
  ':' ∉ mapping.user.toString ∧ ':' ∉ mapping.localUser ∧ ':' ∉ mapping.localProject

/-- The mappings of the round-trip law: made by `UserMapping::parse`, or by
`UserMapping::new` from an identifier that `UserIdentifier::parse` made. -/
def Built (mapping : UserMapping) : Prop :=
  (∃ s, parse s = .ok mapping) ∨
    ∃ user localUser localProject, (∃ s, UserIdentifier.parse s = .ok user) ∧
      new user localUser localProject = .ok mapping

/-- The mappings that print to a text `parse` reads back. -/
structure WellFormed (mapping : UserMapping) : Prop where
  user : mapping.user.WellFormed
  user_colon : ':' ∉ mapping.user.toString
  localUser : Field ':' mapping.localUser
  localProject : Field ':' mapping.localProject

theorem wellFormed_of_parse {identifier : List Char} {mapping : UserMapping}
    (h : parse identifier = .ok mapping) : mapping.WellFormed := by
  obtain ⟨u, lu, lp, hsplit, parsed, hparsed, hlu, hlp, rfl⟩ := parse_eq_ok h
  have piece : ∀ l ∈ [u, lu, lp], ':' ∉ l := fun l hl => not_mem_of_mem_splitOn (hsplit ▸ hl)
  refine ⟨UserIdentifier.wellFormed_of_parse hparsed, fun hc => ?_,
    .of_trim hlu (piece lu (by simp)), .of_trim hlp (piece lp (by simp))⟩
  rcases UserIdentifier.mem_toString_of_parse hparsed hc with h | h
  · exact absurd h (by decide)
  · exact piece u (by simp) h

theorem colonFree_of_parse {identifier : List Char} {mapping : UserMapping}
    (h : parse identifier = .ok mapping) : mapping.ColonFree :=
  have hw := wellFormed_of_parse h
  ⟨hw.user_colon, hw.localUser.not_mem, hw.localProject.not_mem⟩

theorem Built.wellFormed {mapping : UserMapping} (h : mapping.Built) (hcolon : mapping.ColonFree) :
    mapping.WellFormed := by
  rcases h with ⟨s, hs⟩ | ⟨user, lu, lp, ⟨s, hs⟩, hnew⟩
  · exact wellFormed_of_parse hs
  · obtain ⟨hlu, hlp, rfl⟩ := new_eq_ok hnew
    exact ⟨UserIdentifier.wellFormed_of_parse hs, hcolon.1, ⟨hlu, trim_trim lu, hcolon.2.1⟩,
      ⟨hlp, trim_trim lp, hcolon.2.2⟩⟩

theorem toString_eq (mapping : UserMapping) :
    mapping.toString =
      [':'].intercalate [mapping.user.toString, mapping.localUser, mapping.localProject] := by
  simp [UserMapping.toString, List.intercalate]

theorem parse_toString {mapping : UserMapping} (h : mapping.WellFormed) :
    parse mapping.toString = .ok mapping := by
  have hsplit : mapping.toString.splitOn ':' =
      [mapping.user.toString, mapping.localUser, mapping.localProject] := by
    rw [toString_eq]
    refine List.splitOn_intercalate _ _ ?_ (by simp)
    simp [h.user_colon, h.localUser.not_mem, h.localProject.not_mem]
  have := parse_of_splitOn hsplit (UserIdentifier.parse_toString h.user)
    h.localUser.trim_ne_nil h.localProject.trim_ne_nil
  rwa [h.localUser.trim_eq, h.localProject.trim_eq] at this

theorem WellFormed.isValid {mapping : UserMapping} (h : mapping.WellFormed) :
    mapping.isValid = true := by
  simp [UserMapping.isValid, h.user.isValid, h.localUser.ne_nil, h.localProject.ne_nil]

end UserMapping

/-! ## Instructions -/

namespace Instruction

/-- The instructions of the round-trip law: identifiers made by
`UserIdentifier::parse`, mappings as in `UserMapping.Built`, and any path. -/
inductive Built : Instruction → Prop
  | addUser {user : UserIdentifier} (h : ∃ s, UserIdentifier.parse s = .ok user) :
      Built (.addUser user)
  | removeUser {user : UserIdentifier} (h : ∃ s, UserIdentifier.parse s = .ok user) :
      Built (.removeUser user)
  | addLocalUser {mapping : UserMapping} (h : mapping.Built) : Built (.addLocalUser mapping)
  | removeLocalUser {mapping : UserMapping} (h : mapping.Built) :
      Built (.removeLocalUser mapping)
  | updateHomeDir {user : UserIdentifier} (h : ∃ s, UserIdentifier.parse s = .ok user)
      (homedir : List Char) : Built (.updateHomeDir user homedir)

/-- What printing needs on top of `Built`: no `:` in a mapping, and for
`update_homedir` no space in the identifier or the path and no whitespace at the
ends of the path. -/
def Printable : Instruction → Prop
  | .addLocalUser mapping => mapping.ColonFree
  | .removeLocalUser mapping => mapping.ColonFree
  | .updateHomeDir user homedir => ' ' ∉ user.toString ∧ ' ' ∉ homedir ∧ trim homedir = homedir
  | _ => True

theorem new_addUser (rest : List Char) :
    new ("add_user ".toList ++ rest) =
      match UserIdentifier.parse rest with
      | .ok user => .addUser user
      | .error _ => .invalid := by
  rw [show "add_user ".toList ++ rest = "add_user".toList ++ ' ' :: rest from rfl, new,
    splitOn_space_append (by decide)]
  simp only [List.intercalate_splitOn]
  rfl

theorem new_removeUser (rest : List Char) :
    new ("remove_user ".toList ++ rest) =
      match UserIdentifier.parse rest with
      | .ok user => .removeUser user
      | .error _ => .invalid := by
  rw [show "remove_user ".toList ++ rest = "remove_user".toList ++ ' ' :: rest from rfl, new,
    splitOn_space_append (by decide)]
  simp only [List.intercalate_splitOn]
  rfl

theorem new_addLocalUser (rest : List Char) :
    new ("add_local_user ".toList ++ rest) =
      match UserMapping.parse rest with
      | .ok mapping => .addLocalUser mapping
      | .error _ => .invalid := by
  rw [show "add_local_user ".toList ++ rest = "add_local_user".toList ++ ' ' :: rest from rfl,
    new, splitOn_space_append (by decide)]
  simp only [List.intercalate_splitOn]
  rfl

theorem new_removeLocalUser (rest : List Char) :
    new ("remove_local_user ".toList ++ rest) =
      match UserMapping.parse rest with
      | .ok mapping => .removeLocalUser mapping
      | .error _ => .invalid := by
  rw [show "remove_local_user ".toList ++ rest = "remove_local_user".toList ++ ' ' :: rest
    from rfl, new, splitOn_space_append (by decide)]
  simp only [List.intercalate_splitOn]
  rfl

theorem new_updateHomeDir {user homedir : List Char} (hu : ' ' ∉ user) (hh : ' ' ∉ homedir) :
    new ("update_homedir ".toList ++ user ++ ' ' :: homedir) =
      if (trim homedir).isEmpty then .invalid
      else
        match UserIdentifier.parse user with
        | .ok user => .updateHomeDir user (trim homedir)
        | .error _ => .invalid := by
  rw [show "update_homedir ".toList ++ user ++ ' ' :: homedir =
      "update_homedir".toList ++ ' ' :: (user ++ ' ' :: homedir) by simp, new,
    splitOn_space_append (by decide), splitOn_space_append hu, List.splitOn,
    List.splitOnP_eq_single _ _ (fun _ hx hsp => hh (by rwa [beq_iff_eq.1 hsp] at hx))]
  rfl

theorem new_toString {i : Instruction} (hvalid : i.isValid) (hbuilt : i.Built)
    (hprint : i.Printable) : new i.toString = i := by
  cases hbuilt with
  | addUser h =>
    obtain ⟨s, hs⟩ := h
    rw [toString, new_addUser,
      UserIdentifier.parse_toString (UserIdentifier.wellFormed_of_parse hs)]
  | removeUser h =>
    obtain ⟨s, hs⟩ := h
    rw [toString, new_removeUser,
      UserIdentifier.parse_toString (UserIdentifier.wellFormed_of_parse hs)]
  | addLocalUser h =>
    rw [toString, new_addLocalUser, UserMapping.parse_toString (h.wellFormed hprint)]
  | removeLocalUser h =>
    rw [toString, new_removeLocalUser, UserMapping.parse_toString (h.wellFormed hprint)]
  | updateHomeDir h homedir =>
    obtain ⟨s, hs⟩ := h
    obtain ⟨huser, hhome, htrim⟩ := hprint
    have hne : homedir ≠ [] := by
      simp only [isValid, Bool.and_eq_true] at hvalid
      simpa using hvalid.2
    rw [toString, new_updateHomeDir huser hhome, htrim, if_neg (by simpa using hne),
      UserIdentifier.parse_toString (UserIdentifier.wellFormed_of_parse hs)]

/-! ## What `Instruction::new` returns -/

/-- The instructions `Instruction::new` can return from the text `s`, with where their
fields come from: for the four verbs with one argument, a parser's reading of a stretch
of `s`; for `update_homedir`, two of the pieces of `s` at `' '`. -/
inductive FromText (s : List Char) : Instruction → Prop
  | addUser {rest : List Char} {user : UserIdentifier} (hrest : rest <:+: s)
      (h : UserIdentifier.parse rest = .ok user) : FromText s (.addUser user)
  | removeUser {rest : List Char} {user : UserIdentifier} (hrest : rest <:+: s)
      (h : UserIdentifier.parse rest = .ok user) : FromText s (.removeUser user)
  | addLocalUser {rest : List Char} {mapping : UserMapping} (hrest : rest <:+: s)
      (h : UserMapping.parse rest = .ok mapping) : FromText s (.addLocalUser mapping)
  | removeLocalUser {rest : List Char} {mapping : UserMapping} (hrest : rest <:+: s)
      (h : UserMapping.parse rest = .ok mapping) : FromText s (.removeLocalUser mapping)
  | updateHomeDir {user homedir : List Char} {parsed : UserIdentifier}
      (huser : user ∈ s.splitOn ' ') (hhome : homedir ∈ s.splitOn ' ')
      (h : UserIdentifier.parse user = .ok parsed) (hne : trim homedir ≠ []) :
      FromText s (.updateHomeDir parsed (trim homedir))
  | invalid : FromText s .invalid

theorem fromText_new (s : List Char) : FromText s (new s) := by
  unfold new
  split
  · exact .invalid
  · next verb args hsplit =>
    have hrest : [' '].intercalate args <:+: s := by
      have hjoin := List.intercalate_splitOn s ' '
      rw [hsplit] at hjoin
      exact hjoin ▸ (intercalate_suffix_cons ' ' verb args).isInfix
    split
    · split
      · exact .addUser hrest ‹_›
      · exact .invalid
    · split
      · exact .removeUser hrest ‹_›
      · exact .invalid
    · split
      · exact .addLocalUser hrest ‹_›
      · exact .invalid
    · split
      · exact .removeLocalUser hrest ‹_›
      · exact .invalid
    · split
      · next _ user homedir _ =>
        have hmem : user ∈ s.splitOn ' ' ∧ homedir ∈ s.splitOn ' ' := by simp [hsplit]
        split
        · exact .invalid
        · next hempty =>
          split
          · exact .updateHomeDir hmem.1 hmem.2 ‹_› (by simpa using hempty)
          · exact .invalid
      · exact .invalid
    · exact .invalid

/-- Every instruction `Instruction::new` returns, `Invalid` apart, is one the round-trip
law covers. -/
theorem FromText.lawful {s : List Char} {i : Instruction} (h : FromText s i) :
    i = .invalid ∨ (i.isValid ∧ i.Built ∧ i.Printable) := by
  cases h with
  | addUser _ h =>
    exact .inr ⟨(UserIdentifier.wellFormed_of_parse h).isValid, .addUser ⟨_, h⟩, trivial⟩
  | removeUser _ h =>
    exact .inr ⟨(UserIdentifier.wellFormed_of_parse h).isValid, .removeUser ⟨_, h⟩, trivial⟩
  | addLocalUser _ h =>
    exact .inr ⟨(UserMapping.wellFormed_of_parse h).isValid, .addLocalUser (.inl ⟨_, h⟩),
      UserMapping.colonFree_of_parse h⟩
  | removeLocalUser _ h =>
    exact .inr ⟨(UserMapping.wellFormed_of_parse h).isValid, .removeLocalUser (.inl ⟨_, h⟩),
      UserMapping.colonFree_of_parse h⟩
  | updateHomeDir huser hhome h hne =>
    have hspace : ∀ {l}, l ∈ s.splitOn ' ' → ' ' ∉ l := not_mem_of_mem_splitOn
    refine .inr ⟨by simp [isValid, (UserIdentifier.wellFormed_of_parse h).isValid, hne],
      .updateHomeDir ⟨_, h⟩ _, fun hc => ?_, fun hc => hspace hhome (mem_of_mem_trim hc),
      trim_trim _⟩
    rcases UserIdentifier.mem_toString_of_parse h hc with hdot | hc
    · exact absurd hdot (by decide)
    · exact hspace huser hc
  | invalid => exact .inl rfl

/-- An instruction `Instruction::new` read from text reads back from its printed form. -/
theorem FromText.reads_back {s : List Char} {i : Instruction} (h : FromText s i) :
    new i.toString = i := by
  rcases h.lawful with rfl | ⟨hvalid, hbuilt, hprint⟩
  · decide
  · exact new_toString hvalid hbuilt hprint

/-- What `Instruction::new` reads, printed, reads back the same: the instructions the
parser returns are a normal form of the grammar. -/
theorem new_toString_new (s : List Char) : new (new s).toString = new s :=
  (fromText_new s).reads_back

end Instruction

/-- The round-trip law of the grammar, on the instructions and mappings whose
fields the printed text can carry.  Every mapping `UserMapping::parse` makes is
one of them. -/
theorem instruction_round_trip :
    (∀ i : Instruction, i.isValid → i.Built → i.Printable → Instruction.new i.toString = i) ∧
      (∀ m : UserMapping, m.Built → m.ColonFree → UserMapping.parse m.toString = .ok m) ∧
      ∀ s (m : UserMapping), UserMapping.parse s = .ok m → m.ColonFree :=
  ⟨fun _ => Instruction.new_toString, fun _ h hc => UserMapping.parse_toString (h.wellFormed hc),
    fun _ _ => UserMapping.colonFree_of_parse⟩

/-- None of the conditions of `Instruction.Printable` can be dropped.  Each of the
five instructions is valid and built as the law asks, and comes back changed: a
path with a space or with a trailing tab, an identifier with a space under
`update_homedir`, and a `:` in a local name or in an identifier given to
`UserMapping::new`. -/
theorem instruction_round_trip_counterexample :
    let user : UserIdentifier := ⟨"user".toList, "project".toList, "portal".toList⟩
    let spaced : UserIdentifier := ⟨"bob smith".toList, "project".toList, "portal".toList⟩
    let coloned : UserIdentifier := ⟨"carol:x".toList, "project".toList, "portal".toList⟩
    let localColon : UserMapping := ⟨user, "x:y".toList, "proj".toList⟩
    let userColon : UserMapping := ⟨coloned, "local".toList, "proj".toList⟩
    UserIdentifier.parse "user.project.portal".toList = .ok user ∧
    UserIdentifier.parse "bob smith.project.portal".toList = .ok spaced ∧
    UserIdentifier.parse "carol:x.project.portal".toList = .ok coloned ∧
    UserMapping.new user "x:y".toList "proj".toList = .ok localColon ∧
    UserMapping.new coloned "local".toList "proj".toList = .ok userColon ∧
    (∀ i ∈ [Instruction.updateHomeDir user "/home/my files".toList,
        Instruction.updateHomeDir user "/home/user\t".toList,
        Instruction.updateHomeDir spaced "/home/bob".toList,
        Instruction.addLocalUser localColon, Instruction.addLocalUser userColon],
      i.isValid ∧ Instruction.new i.toString ≠ i) ∧
    UserMapping.parse localColon.toString =
      .error (.parse ("Invalid UserMapping: ".toList ++ localColon.toString)) ∧
    UserMapping.parse userColon.toString =
      .error (.parse ("Invalid UserMapping: ".toList ++ userColon.toString)) :=
  ⟨rfl, rfl, rfl, rfl, rfl, by decide, rfl, rfl⟩

end OpenPortal
