import OpenPortal.Rust

/-!
# The instruction grammar

`templemeads::grammar`: the user identifier `username.project.portal`, the user
mapping `identifier:local_user:local_project`, and the `Instruction` an agent is
asked to carry out.  Each has a parser from text and a `Display` that prints it
back, and the JSON form of each is the JSON string of that `Display`
(`Serialize` prints, `Deserialize` parses).  serde_json reads back every string
it writes, so the JSON round trip of a value is the round trip of its text.

The parsers split on a separator and trim every piece.  A field that `parse`
returns is therefore non-empty, holds no separator and has no whitespace at its
ends.  `UserMapping::new` checks less: it trims the two local names and rejects
empty ones, and takes the identifier as given.

`Instruction::new` splits at single spaces.  The four verbs that take one
argument join the remaining pieces back, so their argument may hold spaces.
`update_homedir` reads the second and third pieces alone.
-/

namespace OpenPortal

/-- The errors the grammar raises: `Error::Parse` with its message. -/
inductive GrammarError where
  | parse (message : List Char)
deriving DecidableEq, Repr

/-- The check every parser here makes of a field: trimmed, it must not be empty.
The message is `Invalid <kind> - <field> cannot be empty '<shown>'`. -/
def trimNonEmpty (kind field : String) (shown part : List Char) :
    Except GrammarError (List Char) :=
  if (trim part).isEmpty then
    .error (.parse (("Invalid " ++ kind ++ " - " ++ field ++ " cannot be empty '").toList ++
      shown ++ ['\'']))
  else .ok (trim part)

theorem trimNonEmpty_eq_ok {kind field : String} {shown part value : List Char}
    (h : trimNonEmpty kind field shown part = .ok value) : trim part ≠ [] ∧ value = trim part := by
  unfold trimNonEmpty at h
  split at h <;> simp_all

@[simp] theorem trimNonEmpty_of_ne {kind field : String} {shown part : List Char}
    (h : trim part ≠ []) : trimNonEmpty kind field shown part = .ok (trim part) := by
  simp [trimNonEmpty, h]

/-! ## User identifiers -/

/-- `UserIdentifier`: the triple `username.project.portal`. -/
structure UserIdentifier where
  /-- The user's name in the portal. -/
  username : List Char
  /-- The project the user belongs to. -/
  project : List Char
  /-- The portal the project belongs to. -/
  portal : List Char
deriving DecidableEq, Repr

namespace UserIdentifier

/-- `UserIdentifier::parse`. -/
def parse (identifier : List Char) : Except GrammarError UserIdentifier :=
  match identifier.splitOn '.' with
  | [username, project, portal] => do
      let username ← trimNonEmpty "UserIdentifier" "username" identifier username
      let project ← trimNonEmpty "UserIdentifier" "project" identifier project
      let portal ← trimNonEmpty "UserIdentifier" "portal" identifier portal
      pure ⟨username, project, portal⟩
  | _ => .error (.parse ("Invalid UserIdentifier: ".toList ++ identifier))

/-- `Display for UserIdentifier`: `{username}.{project}.{portal}`. -/
def toString (user : UserIdentifier) : List Char :=
  user.username ++ '.' :: user.project ++ '.' :: user.portal

/-- `UserIdentifier::is_valid`. -/
def isValid (user : UserIdentifier) : Bool :=
  !user.username.isEmpty && !user.project.isEmpty && !user.portal.isEmpty

theorem parse_eq_ok {identifier : List Char} {user : UserIdentifier}
    (h : parse identifier = .ok user) :
    ∃ username project portal, identifier.splitOn '.' = [username, project, portal] ∧
      trim username ≠ [] ∧ trim project ≠ [] ∧ trim portal ≠ [] ∧
      user = ⟨trim username, trim project, trim portal⟩ := by
  unfold parse at h
  split at h
  · next username project portal hsplit =>
    obtain ⟨_, hu, h⟩ := bind_eq_ok.1 h
    obtain ⟨_, hp, h⟩ := bind_eq_ok.1 h
    obtain ⟨_, hq, h⟩ := bind_eq_ok.1 h
    obtain ⟨hu', rfl⟩ := trimNonEmpty_eq_ok hu
    obtain ⟨hp', rfl⟩ := trimNonEmpty_eq_ok hp
    obtain ⟨hq', rfl⟩ := trimNonEmpty_eq_ok hq
    exact ⟨_, _, _, hsplit, hu', hp', hq', (Except.ok.inj h).symm⟩
  · cases h

theorem parse_of_splitOn {identifier username project portal : List Char}
    (hsplit : identifier.splitOn '.' = [username, project, portal])
    (hu : trim username ≠ []) (hp : trim project ≠ []) (hq : trim portal ≠ []) :
    parse identifier = .ok ⟨trim username, trim project, trim portal⟩ := by
  simp [parse, hsplit, hu, hp, hq, bind, Except.bind, pure, Except.pure]

end UserIdentifier

/-! ## User mappings -/

/-- `UserMapping`: an identifier mapped to a local user and a local project. -/
structure UserMapping where
  /-- The portal's identifier of the user. -/
  user : UserIdentifier
  /-- The user's name on the local system. -/
  localUser : List Char
  /-- The project's name on the local system. -/
  localProject : List Char
deriving DecidableEq, Repr

namespace UserMapping

/-- `UserMapping::new`.  Its messages quote the trimmed local name, which is
empty whenever they are raised. -/
def new (user : UserIdentifier) (localUser localProject : List Char) :
    Except GrammarError UserMapping := do
  let localUser ← trimNonEmpty "UserMapping" "local_user" (trim localUser) localUser
  let localProject ←
    trimNonEmpty "UserMapping" "local_project" (trim localProject) localProject
  pure ⟨user, localUser, localProject⟩

/-- `UserMapping::parse`. -/
def parse (identifier : List Char) : Except GrammarError UserMapping :=
  match identifier.splitOn ':' with
  | [user, localUser, localProject] => do
      let user ← UserIdentifier.parse user
      let localUser ← trimNonEmpty "UserMapping" "local_user" identifier localUser
      let localProject ← trimNonEmpty "UserMapping" "local_project" identifier localProject
      pure ⟨user, localUser, localProject⟩
  | _ => .error (.parse ("Invalid UserMapping: ".toList ++ identifier))

/-- `Display for UserMapping`: `{user}:{local_user}:{local_project}`. -/
def toString (mapping : UserMapping) : List Char :=
  mapping.user.toString ++ ':' :: mapping.localUser ++ ':' :: mapping.localProject

/-- `UserMapping::is_valid`. -/
def isValid (mapping : UserMapping) : Bool :=
  mapping.user.isValid && !mapping.localUser.isEmpty && !mapping.localProject.isEmpty

theorem new_eq_ok {user : UserIdentifier} {localUser localProject : List Char}
    {mapping : UserMapping} (h : new user localUser localProject = .ok mapping) :
    trim localUser ≠ [] ∧ trim localProject ≠ [] ∧
      mapping = ⟨user, trim localUser, trim localProject⟩ := by
  obtain ⟨_, hu, h⟩ := bind_eq_ok.1 h
  obtain ⟨_, hp, h⟩ := bind_eq_ok.1 h
  obtain ⟨hu', rfl⟩ := trimNonEmpty_eq_ok hu
  obtain ⟨hp', rfl⟩ := trimNonEmpty_eq_ok hp
  exact ⟨hu', hp', (Except.ok.inj h).symm⟩

theorem parse_eq_ok {identifier : List Char} {mapping : UserMapping}
    (h : parse identifier = .ok mapping) :
    ∃ user localUser localProject, identifier.splitOn ':' = [user, localUser, localProject] ∧
      ∃ parsed, UserIdentifier.parse user = .ok parsed ∧
        trim localUser ≠ [] ∧ trim localProject ≠ [] ∧
        mapping = ⟨parsed, trim localUser, trim localProject⟩ := by
  unfold parse at h
  split at h
  · next user localUser localProject hsplit =>
    obtain ⟨parsed, huser, h⟩ := bind_eq_ok.1 h
    obtain ⟨_, hu, h⟩ := bind_eq_ok.1 h
    obtain ⟨_, hp, h⟩ := bind_eq_ok.1 h
    obtain ⟨hu', rfl⟩ := trimNonEmpty_eq_ok hu
    obtain ⟨hp', rfl⟩ := trimNonEmpty_eq_ok hp
    exact ⟨_, _, _, hsplit, parsed, huser, hu', hp', (Except.ok.inj h).symm⟩
  · cases h

theorem parse_of_splitOn {identifier user localUser localProject : List Char}
    {parsed : UserIdentifier} (hsplit : identifier.splitOn ':' = [user, localUser, localProject])
    (huser : UserIdentifier.parse user = .ok parsed)
    (hu : trim localUser ≠ []) (hp : trim localProject ≠ []) :
    parse identifier = .ok ⟨parsed, trim localUser, trim localProject⟩ := by
  simp [parse, hsplit, huser, hu, hp, bind, Except.bind, pure, Except.pure]

end UserMapping

/-! ## Instructions -/

/-- `Instruction`: what an agent is asked to do. -/
inductive Instruction where
  /-- Add a user. -/
  | addUser (user : UserIdentifier)
  /-- Remove a user. -/
  | removeUser (user : UserIdentifier)
  /-- Add a local user. -/
  | addLocalUser (mapping : UserMapping)
  /-- Remove a local user. -/
  | removeLocalUser (mapping : UserMapping)
  /-- Update the home directory of a user. -/
  | updateHomeDir (user : UserIdentifier) (homedir : List Char)
  /-- Placeholder for an invalid instruction, and the `Default`. -/
  | invalid
deriving DecidableEq, Repr

namespace Instruction

/-- `Instruction::new`: total, with `Invalid` for every text it does not read.
`split(' ')` never gives an empty list, so the first branch is never taken. -/
def new (s : List Char) : Instruction :=
  match s.splitOn ' ' with
  | [] => .invalid
  | verb :: args =>
    match String.mk verb with
    | "add_user" =>
      match UserIdentifier.parse ([' '].intercalate args) with
      | .ok user => .addUser user
      | .error _ => .invalid
    | "remove_user" =>
      match UserIdentifier.parse ([' '].intercalate args) with
      | .ok user => .removeUser user
      | .error _ => .invalid
    | "add_local_user" =>
      match UserMapping.parse ([' '].intercalate args) with
      | .ok mapping => .addLocalUser mapping
      | .error _ => .invalid
    | "remove_local_user" =>
      match UserMapping.parse ([' '].intercalate args) with
      | .ok mapping => .removeLocalUser mapping
      | .error _ => .invalid
    | "update_homedir" =>
      match args with
      | user :: homedir :: _ =>
        if (trim homedir).isEmpty then .invalid
        else
          match UserIdentifier.parse user with
          | .ok user => .updateHomeDir user (trim homedir)
          | .error _ => .invalid
      | _ => .invalid
    | _ => .invalid

/-- `Display for Instruction`. -/
def toString : Instruction → List Char
  | .addUser user => "add_user ".toList ++ user.toString
  | .removeUser user => "remove_user ".toList ++ user.toString
  | .addLocalUser mapping => "add_local_user ".toList ++ mapping.toString
  | .removeLocalUser mapping => "remove_local_user ".toList ++ mapping.toString
  | .updateHomeDir user homedir => "update_homedir ".toList ++ user.toString ++ ' ' :: homedir
  | .invalid => "invalid".toList

/-- `Instruction::is_valid`. -/
def isValid : Instruction → Bool
  | .addUser user => user.isValid
  | .removeUser user => user.isValid
  | .addLocalUser mapping => mapping.isValid
  | .removeLocalUser mapping => mapping.isValid
  | .updateHomeDir user homedir => user.isValid && !homedir.isEmpty
  | .invalid => false

example : new "add_user user.project.portal".toList =
    .addUser ⟨"user".toList, "project".toList, "portal".toList⟩ := by decide
example : new "update_homedir user.project.portal".toList = .invalid := by decide

end Instruction

end OpenPortal
