import Mathlib.Data.List.Chain
import OpenPortal.Templemeads.GrammarRoundTrip
import OpenPortal.Templemeads.Job

/-!
# Jobs on the wire

Agents pass jobs to each other as JSON.  `Job` derives `Serialize` and `Deserialize`:
`created` and `updated` go through `chrono::serde::ts_seconds`, and the command goes
as the text `Display for Command` prints and comes back through `Command::new`.
serde_json reads back every value it writes, so a crossing is `Job.deserialize` after
`Job.serialize`, on serde's data model.

*Spaced text.*  `Command::new` splits its text with `split_whitespace` and joins the
words after the first with single spaces, so the text it hands `Instruction::new` is
`Spaced`.  Splitting spaced text at whitespace and joining it again gives it back
(`Spaced.intercalate_splitWhitespace`).  The parsers trim every field they read, so
every field of an instruction read from spaced text is spaced, and so is the printed
instruction (`Instruction.FromText.spaced_toString`).

*Commands.*  A command read from text with at least one word prints to a text that
`Command::new` reads back the same (`Command.new_toString_new_iff`).  Text with no word
gives a destination that prints as nothing, and the next reading takes the
instruction's verb for the destination.  `Instruction::new` returns only valid
instructions besides `Invalid`, so `Job::parse` accepts exactly the texts whose route
names every hop and whose instruction is not `Invalid` (`Job.parse_ok_iff`).

*Jobs.*  A crossing rounds the two timestamps down to the second and re-reads the
command; nothing else changes.  So a job made by `Job::new` crosses unchanged exactly
when the clock read a whole second and its text has a word
(`Job.deserialize_serialize_new_iff`), and after its first crossing a job never
changes again (`Job.deserialize_serialize_idem`).
-/

namespace OpenPortal

/-! ## Spaced text -/

/-- Text as `Command::new` passes it on: words of characters that are not whitespace,
joined by single spaces. -/
structure Spaced (text : List Char) : Prop where
  /-- The only whitespace is the space. -/
  only_space : ∀ c ∈ text, isWhitespace c = true → c = ' '
  /-- No two spaces in a row. -/
  single : text.Chain' fun a b => a ≠ ' ' ∨ b ≠ ' '
  /-- No space at the start. -/
  head : text.head? ≠ some ' '
  /-- No space at the end. -/
  last : text.getLast? ≠ some ' '

/-- Re-splitting text with single spaces only drops a leading space. -/
theorem intercalate_splitWhitespace_dropWhile :
    ∀ {text : List Char}, (∀ c ∈ text, isWhitespace c = true → c = ' ') →
      text.Chain' (fun a b => a ≠ ' ' ∨ b ≠ ' ') → text.getLast? ≠ some ' ' →
      [' '].intercalate (splitWhitespace text) = text.dropWhile (· == ' ')
  | [], _, _, _ => rfl
  | c :: s, hspace, hsingle, hlast => by
    have hspace' : ∀ d ∈ s, isWhitespace d = true → d = ' ' :=
      fun d hd => hspace d (List.mem_cons_of_mem c hd)
    have hsingle' := hsingle.tail
    by_cases hc : c = ' '
    · subst hc
      rw [splitWhitespace_cons_of_isWhitespace (by decide), List.dropWhile_cons_of_pos (by decide)]
      cases s with
      | nil => rfl
      | cons d s =>
        exact intercalate_splitWhitespace_dropWhile hspace' hsingle'
          (by rwa [List.getLast?_cons_cons] at hlast)
    have hcw : isWhitespace c = false := by
      cases h : isWhitespace c
      · rfl
      · exact absurd (hspace c (List.mem_cons_self c s) h) hc
    rw [List.dropWhile_cons_of_neg (by simpa using hc)]
    cases s with
    | nil => rw [splitWhitespace_singleton hcw]; rfl
    | cons d s =>
      have ih := intercalate_splitWhitespace_dropWhile hspace' hsingle'
        (by rwa [List.getLast?_cons_cons] at hlast)
      by_cases hd : isWhitespace d = true
      · obtain rfl : d = ' ' := hspace' d (List.mem_cons_self d s) hd
        have hs : s ≠ [] := by rintro rfl; exact hlast rfl
        have hhead : s.dropWhile (· == ' ') = s := by
          cases s with
          | nil => rfl
          | cons e s =>
            have he := (List.chain'_cons'.1 hsingle').1 e rfl
            exact List.dropWhile_cons_of_neg (by simpa using he)
        rw [splitWhitespace_cons_of_isWhitespace hd, List.dropWhile_cons_of_pos (by decide),
          hhead] at ih
        have hwords : splitWhitespace s ≠ [] := fun hnil => hs (by rw [← ih, hnil]; rfl)
        rw [splitWhitespace_cons_cons_of_isWhitespace hcw hd, intercalate_cons_of_ne_nil hwords, ih]
        rfl
      · have hd' : isWhitespace d = false := by simpa using hd
        have hdspace : d ≠ ' ' := by rintro rfl; exact hd rfl
        rw [List.dropWhile_cons_of_neg (by simpa using hdspace)] at ih
        rw [splitWhitespace_cons_cons hcw hd',
          intercalate_modifyHead_cons (splitWhitespace_ne_nil (List.mem_cons_self d s) hd'), ih]

/-- Spaced text is the join of its own words. -/
theorem Spaced.intercalate_splitWhitespace {text : List Char} (h : Spaced text) :
    [' '].intercalate (splitWhitespace text) = text := by
  rw [intercalate_splitWhitespace_dropWhile h.only_space h.single h.last]
  cases text with
  | nil => rfl
  | cons c s => exact List.dropWhile_cons_of_neg (by simpa using h.head)

/-- A word with no whitespace is spaced. -/
theorem Spaced.of_forall {w : List Char} (h : ∀ c ∈ w, isWhitespace c = false) : Spaced w where
  only_space c hc hw := by rw [h c hc] at hw; cases hw
  single := List.Pairwise.chain' <| List.pairwise_of_forall_mem_list fun a ha _ _ =>
    .inl fun hsp => by rw [hsp] at ha; exact absurd (h ' ' ha) (by decide)
  head hw := absurd (h ' ' (List.mem_of_mem_head? hw)) (by decide)
  last hw := absurd (h ' ' (List.mem_of_getLast?_eq_some hw)) (by decide)

theorem Spaced.of_infix {s t : List Char} (h : Spaced t) (hst : s <:+: t)
    (hhead : s.head? ≠ some ' ') (hlast : s.getLast? ≠ some ' ') : Spaced s :=
  ⟨fun c hc => h.only_space c (hst.subset hc), h.single.infix hst, hhead, hlast⟩

/-- A trimmed stretch of spaced text is spaced. -/
theorem Spaced.trim_of_infix {s t : List Char} (h : Spaced t) (hst : s <:+: t) :
    Spaced (trim s) :=
  h.of_infix ((trim_isInfix_self s).trans hst)
    (fun hc => absurd (isWhitespace_of_head?_trim hc) (by decide))
    (fun hc => absurd (isWhitespace_of_getLast?_trim hc) (by decide))

/-- Two spaced texts joined at a character that is not whitespace, or at a space
between two that are not empty. -/
theorem Spaced.append_cons {a b : List Char} {sep : Char} (ha : Spaced a) (hb : Spaced b)
    (hsep : isWhitespace sep = false ∨ sep = ' ' ∧ a ≠ [] ∧ b ≠ []) : Spaced (a ++ sep :: b) where
  only_space c hc hw := by
    rcases List.mem_append.1 hc with hc | hc
    · exact ha.only_space c hc hw
    rcases List.mem_cons.1 hc with rfl | hc
    · rcases hsep with hsep | ⟨hsep, -⟩
      · rw [hsep] at hw; cases hw
      · exact hsep
    · exact hb.only_space c hc hw
  single := List.chain'_append.2 ⟨ha.single,
    List.chain'_cons'.2 ⟨fun _ hy => .inr fun hsp => hb.head (hsp ▸ hy), hb.single⟩,
    fun _ hx _ _ => .inl fun hsp => ha.last (hsp ▸ hx)⟩
  head := by
    cases a with
    | nil =>
      rintro ⟨⟩
      rcases hsep with hsep | ⟨-, hnil, -⟩
      · exact absurd hsep (by decide)
      · exact hnil rfl
    | cons c a => exact ha.head
  last := by
    rw [List.getLast?_append]
    cases b with
    | nil =>
      rintro ⟨⟩
      rcases hsep with hsep | ⟨-, -, hnil⟩
      · exact absurd hsep (by decide)
      · exact hnil rfl
    | cons d b => rw [List.getLast?_cons_cons]; simpa using hb.last

/-- Words joined by single spaces. -/
theorem spaced_intercalate :
    ∀ {words : List (List Char)}, (∀ w ∈ words, w ≠ [] ∧ ∀ c ∈ w, isWhitespace c = false) →
      Spaced ([' '].intercalate words)
  | [], _ => Spaced.of_forall (by simp [List.intercalate])
  | [w], h => by simpa [List.intercalate] using Spaced.of_forall (h w (by simp)).2
  | w :: v :: words, h => by
    have hw := h w (List.mem_cons_self _ _)
    have hrest : Spaced ([' '].intercalate (v :: words)) :=
      spaced_intercalate fun u hu => h u (List.mem_cons_of_mem _ hu)
    have hne : [' '].intercalate (v :: words) ≠ [] := by
      cases words with
      | nil => simpa [List.intercalate] using (h v (by simp)).1
      | cons u words => rw [intercalate_cons_of_ne_nil (List.cons_ne_nil _ _)]; simp
    rw [intercalate_cons_of_ne_nil (List.cons_ne_nil _ _)]
    exact (Spaced.of_forall hw.2).append_cons hrest (.inr ⟨rfl, hw.1, hne⟩)

/-! ## What the grammar prints from spaced text -/

/-- An identifier read from a stretch of spaced text prints as spaced text. -/
theorem UserIdentifier.spaced_toString {text rest : List Char} {user : UserIdentifier}
    (htext : Spaced text) (hrest : rest <:+: text) (h : UserIdentifier.parse rest = .ok user) :
    Spaced user.toString ∧ user.toString ≠ [] := by
  obtain ⟨a, b, c, hsplit, -, -, -, rfl⟩ := UserIdentifier.parse_eq_ok h
  have field : ∀ l ∈ [a, b, c], Spaced (trim l) := fun l hl =>
    htext.trim_of_infix ((infix_of_mem_splitOnP _ (hsplit ▸ hl)).trans hrest)
  refine ⟨?_, by simp [UserIdentifier.toString]⟩
  show Spaced ((trim a ++ '.' :: trim b) ++ '.' :: trim c)
  exact ((field a (by simp)).append_cons (field b (by simp)) (.inl (by decide))).append_cons
    (field c (by simp)) (.inl (by decide))

/-- A mapping read from a stretch of spaced text prints as spaced text. -/
theorem UserMapping.spaced_toString {text rest : List Char} {mapping : UserMapping}
    (htext : Spaced text) (hrest : rest <:+: text) (h : UserMapping.parse rest = .ok mapping) :
    Spaced mapping.toString ∧ mapping.toString ≠ [] := by
  obtain ⟨u, lu, lp, hsplit, parsed, hparsed, -, -, rfl⟩ := UserMapping.parse_eq_ok h
  have piece : ∀ l ∈ [u, lu, lp], l <:+: text := fun l hl =>
    (infix_of_mem_splitOnP _ (hsplit ▸ hl)).trans hrest
  have huser := (UserIdentifier.spaced_toString htext (piece u (by simp)) hparsed).1
  refine ⟨?_, by simp [UserMapping.toString]⟩
  show Spaced ((parsed.toString ++ ':' :: trim lu) ++ ':' :: trim lp)
  have hlu := htext.trim_of_infix (piece lu (by simp))
  exact (huser.append_cons hlu (.inl (by decide))).append_cons
    (htext.trim_of_infix (piece lp (by simp))) (.inl (by decide))

/-- A verb, a space, and a non-empty spaced argument. -/
theorem Spaced.verb {verb rest : List Char} (hverb : ∀ c ∈ verb, isWhitespace c = false)
    (hne : verb ≠ []) (h : Spaced rest) (hrest : rest ≠ []) : Spaced (verb ++ ' ' :: rest) :=
  (Spaced.of_forall hverb).append_cons h (.inr ⟨rfl, hne, hrest⟩)

/-- Every instruction `Instruction::new` reads from spaced text prints as spaced text. -/
theorem Instruction.FromText.spaced_toString {text : List Char} {i : Instruction}
    (h : FromText text i) (htext : Spaced text) : Spaced i.toString := by
  cases h with
  | addUser hrest h =>
    obtain ⟨hs, hne⟩ := UserIdentifier.spaced_toString htext hrest h
    show Spaced ("add_user".toList ++ ' ' :: _)
    exact Spaced.verb (by decide) (by decide) hs hne
  | removeUser hrest h =>
    obtain ⟨hs, hne⟩ := UserIdentifier.spaced_toString htext hrest h
    show Spaced ("remove_user".toList ++ ' ' :: _)
    exact Spaced.verb (by decide) (by decide) hs hne
  | addLocalUser hrest h =>
    obtain ⟨hs, hne⟩ := UserMapping.spaced_toString htext hrest h
    show Spaced ("add_local_user".toList ++ ' ' :: _)
    exact Spaced.verb (by decide) (by decide) hs hne
  | removeLocalUser hrest h =>
    obtain ⟨hs, hne⟩ := UserMapping.spaced_toString htext hrest h
    show Spaced ("remove_local_user".toList ++ ' ' :: _)
    exact Spaced.verb (by decide) (by decide) hs hne
  | updateHomeDir huser hhome h hempty =>
    obtain ⟨hs, hne⟩ := UserIdentifier.spaced_toString htext
      (infix_of_mem_splitOnP _ huser) h
    have hpath := htext.trim_of_infix (infix_of_mem_splitOnP _ hhome)
    show Spaced (("update_homedir".toList ++ ' ' :: _) ++ ' ' :: trim _)
    exact (Spaced.verb (by decide) (by decide) hs hne).append_cons hpath
      (.inr ⟨rfl, by simp, hempty⟩)
  | invalid => exact Spaced.of_forall (by decide)

/-! ## Commands -/

/-- Every printed instruction has a character that is not whitespace: its verb's. -/
theorem Instruction.exists_mem_toString (i : Instruction) :
    ∃ c ∈ i.toString, isWhitespace c = false := by
  cases i with
  | addUser => exact ⟨'a', List.mem_append_left _ (by decide), by decide⟩
  | removeUser => exact ⟨'r', List.mem_append_left _ (by decide), by decide⟩
  | addLocalUser => exact ⟨'a', List.mem_append_left _ (by decide), by decide⟩
  | removeLocalUser => exact ⟨'r', List.mem_append_left _ (by decide), by decide⟩
  | updateHomeDir => exact ⟨'u', List.mem_append_left _ (List.mem_append_left _ (by decide)),
      by decide⟩
  | invalid => exact ⟨'i', by decide, by decide⟩

namespace Command

/-- A printed command always has a word. -/
theorem splitWhitespace_toString_ne_nil (command : Command) :
    splitWhitespace command.toString ≠ [] := by
  obtain ⟨c, hc, h⟩ := command.instruction.exists_mem_toString
  exact splitWhitespace_ne_nil (List.mem_append_right _ (List.mem_cons_of_mem _ hc)) h

/-- `Command::new` reads a word, a space and an instruction printed from spaced text as
the word's destination and that instruction. -/
theorem new_append_toString {w text : List Char} (hw : ∀ c ∈ w, isWhitespace c = false)
    (hne : w ≠ []) (htext : Spaced text) :
    new (w ++ ' ' :: (Instruction.new text).toString) =
      ⟨Destination.new w, Instruction.new text⟩ := by
  have hprint := (Instruction.fromText_new text).spaced_toString htext
  simp only [new, splitWhitespace_append_space hw hne, List.head?_cons, Option.getD_some,
    List.tail_cons, hprint.intercalate_splitWhitespace, (Instruction.fromText_new text).reads_back]

/-- The instruction text `Command::new` reads is spaced. -/
theorem spaced_instructionText (s : List Char) :
    Spaced ([' '].intercalate (splitWhitespace s).tail) :=
  spaced_intercalate fun _ hv => word_of_mem_splitWhitespace (List.mem_of_mem_tail hv)

/-- The wire form of a command: what `Command::new` reads, printed by `Display` (which
`Serialize` writes), reads back the same exactly when the text has a word. -/
theorem new_toString_new_iff (s : List Char) :
    new (new s).toString = new s ↔ splitWhitespace s ≠ [] := by
  constructor
  · intro h hnil
    simp only [new, hnil] at h
    revert h
    decide
  · intro hne
    obtain ⟨w, ws, hws⟩ := List.exists_cons_of_ne_nil hne
    have hw := word_of_mem_splitWhitespace (hws ▸ List.mem_cons_self w ws)
    have hnew : new s = ⟨Destination.new w, Instruction.new ([' '].intercalate ws)⟩ := by
      simp [new, hws]
    have hrest := spaced_instructionText s
    rw [hws, List.tail_cons] at hrest
    rw [hnew, toString, Destination.toString_new, new_append_toString hw.2 hw.1 hrest]

end Command

/-! ## What `Job::parse` accepts -/

/-- `Instruction::is_valid` holds of every instruction `Instruction::new` reads, `Invalid`
apart. -/
theorem Instruction.isValid_new (s : List Char) :
    (new s).isValid = true ↔ new s ≠ .invalid := by
  rcases (fromText_new s).lawful with h | ⟨hvalid, -, -⟩
  · rw [h]
    decide
  · exact iff_of_true hvalid fun h => by rw [h] at hvalid; cases hvalid

/-- `Job::parse` accepts a text exactly when its first word names every hop of a route
and `Instruction::new` reads the rest as something other than `Invalid`: every
instruction `Instruction::new` reads, `Invalid` apart, passes `Instruction::is_valid`,
so that check refuses nothing `Instruction::new` read. -/
theorem Job.parse_ok_iff (command : List Char) (id : Uuid) (now : DateTime) :
    (∀ s, (Instruction.new s).isValid = true ↔ Instruction.new s ≠ .invalid) ∧
      ((∃ job, Job.parse command id now = .ok job) ↔
        (Command.new command).destination.isValid = true ∧
          (Command.new command).instruction ≠ .invalid) := by
  have hparse : (∃ job, Job.parse command id now = .ok job) ↔ (Command.new command).isValid :=
    ⟨fun ⟨_, h⟩ => (parse_eq_ok.1 h).1, fun h => ⟨_, parse_eq_ok.2 ⟨h, rfl⟩⟩⟩
  refine ⟨Instruction.isValid_new, ?_⟩
  rw [hparse, Command.isValid, Bool.and_eq_true, Command.new, Instruction.isValid_new]

/-! ## Jobs -/

/-- serde's data model of a `Job`, as the derived `Serialize` writes it field by field:
the timestamps as `chrono::serde::ts_seconds` writes them, the command as its text. -/
structure JobJson where
  /-- The id. -/
  id : Uuid
  /-- `created`, in whole seconds. -/
  created : Int
  /-- `updated`, in whole seconds. -/
  updated : Int
  /-- The version. -/
  version : UInt64
  /-- The command's text. -/
  command : List Char
  /-- The state. -/
  state : Status
  /-- The result. -/
  result : Option (List Char)
deriving DecidableEq, Repr

namespace DateTime

/-- `DateTime::timestamp`: the whole seconds since the epoch, rounded down. -/
def timestamp (t : DateTime) : Int := t.nanos / 1000000000

/-- `DateTime::from_timestamp(seconds, 0)`. -/
def fromTimestamp (seconds : Int) : DateTime := ⟨seconds * 1000000000⟩

@[simp]
theorem timestamp_fromTimestamp (seconds : Int) : (fromTimestamp seconds).timestamp = seconds := by
  simp [timestamp, fromTimestamp]

theorem fromTimestamp_timestamp_eq_iff (t : DateTime) :
    fromTimestamp t.timestamp = t ↔ t.nanos % 1000000000 = 0 := by
  rw [fromTimestamp, timestamp, DateTime.mk.injEq]
  omega

end DateTime

namespace Job

/-- The derived `Serialize for Job`. -/
def serialize (job : Job) : JobJson :=
  ⟨job.id, job.created.timestamp, job.updated.timestamp, job.version, job.command.toString,
    job.state, job.result⟩

/-- The derived `Deserialize for Job`; the command's reads its text with `Command::new`. -/
def deserialize (json : JobJson) : Job :=
  ⟨json.id, .fromTimestamp json.created, .fromTimestamp json.updated, json.version,
    Command.new json.command, json.state, json.result⟩

/-- A job crosses the wire unchanged exactly when both its timestamps are whole seconds
and its command reads back from its text. -/
theorem deserialize_serialize_eq_iff (job : Job) :
    deserialize job.serialize = job ↔
      job.created.nanos % 1000000000 = 0 ∧ job.updated.nanos % 1000000000 = 0 ∧
        Command.new job.command.toString = job.command := by
  cases job
  simp only [deserialize, serialize, Job.mk.injEq, DateTime.fromTimestamp_timestamp_eq_iff,
    and_true, true_and]

/-- A job made by `Job::new` crosses the wire unchanged exactly when the clock read a
whole second and its command text has a word. -/
theorem deserialize_serialize_new_iff (command : List Char) (id : Uuid) (now : DateTime) :
    deserialize (new command id now).serialize = new command id now ↔
      now.nanos % 1000000000 = 0 ∧ splitWhitespace command ≠ [] := by
  rw [deserialize_serialize_eq_iff]
  simp only [new, Command.new_toString_new_iff, and_self_left]

/-- After its first crossing, a job crosses the wire unchanged: every agent along a
route holds the job the first hop delivered. -/
theorem deserialize_serialize_idem (job : Job) :
    deserialize (deserialize job.serialize).serialize = deserialize job.serialize := by
  simp only [deserialize, serialize, DateTime.timestamp_fromTimestamp,
    (Command.new_toString_new_iff _).2 job.command.splitWhitespace_toString_ne_nil]

end Job

end OpenPortal
