import OpenPortal.Templemeads.Grammar

/-!
# Jobs

`templemeads::job`: a job is one instruction addressed to a chain of agents,
with an id, two timestamps, a version and a state.  The state starts `Pending`
and a job is finished by `completed` or `errored`, which set the result, move
the state to `Complete` or `Error`, stamp `updated` and bump the version.  Both
refuse a job that is no longer pending.

The methods take `&mut self` and return a `Result`.  Here they take the job and
return the job beside the result, so that what a failing call leaves behind is
part of the model.  What the code draws from outside is an argument: the fresh
id `Uuid::new_v4`, the clock `Utc::now`, and the JSON text that
`serde_json::to_string` makes of a result value, or its error.

`completed` differs from `errored` in one place: it sets the state before the
fallible serialization, whose `?` returns with the state already `Complete` and
no result.  `Job.Shape` names the four jobs a run of calls can reach from a new
one, that one included (`Job.shape_run`).
-/

namespace OpenPortal

/-- Modelled from the spec: `crate::destination::Destination` is not among the
sources.  The spec calls a destination the "ordered, non-empty sequence of agent
names describing the multi-hop route", written as a dotted chain. -/
structure Destination where
  /-- The agents of the route, the next hop first. -/
  agents : List (List Char)
deriving DecidableEq, Repr

namespace Destination

/-- Modelled from the spec: `Destination::new` reads the dotted chain. -/
def new (s : List Char) : Destination := ⟨s.splitOn '.'⟩

/-- Modelled from the spec: `Destination::is_valid`, every agent named. -/
def isValid (destination : Destination) : Bool :=
  destination.agents.all fun agent => !agent.isEmpty

/-- Modelled from the spec: `Display for Destination`, the dotted chain. -/
def toString (destination : Destination) : List Char :=
  ['.'].intercalate destination.agents

@[simp]
theorem toString_new (s : List Char) : (new s).toString = s := by
  simp [new, toString, List.intercalate_splitOn]

end Destination

/-- A `uuid::Uuid`: 128 bits. -/
structure Uuid where
  /-- The bits of the id. -/
  value : BitVec 128
deriving DecidableEq, Repr

/-- A `chrono::DateTime<Utc>`: an instant, in nanoseconds since the epoch. -/
structure DateTime where
  /-- Nanoseconds since the epoch. -/
  nanos : Int
deriving DecidableEq, Repr

/-- An error of `serde_json`, kept opaque. -/
structure SerdeError where
  /-- Its message. -/
  message : List Char
deriving DecidableEq, Repr

/-- `job::Status`. -/
inductive Status where
  | pending
  | complete
  | error
deriving DecidableEq, Repr

/-- `job::Error`. -/
inductive JobError where
  | anyError (message : List Char)
  | serdeJson (error : SerdeError)
  | runError (message : List Char)
  | invalidState (message : List Char)
  | parse (message : List Char)
  | unknown (message : List Char)
deriving DecidableEq, Repr

/-- `job::Command`: the parsed `destination instruction...` text of a job. -/
structure Command where
  /-- Where the job goes. -/
  destination : Destination
  /-- What it asks. -/
  instruction : Instruction
deriving DecidableEq, Repr

namespace Command

/-- `Command::new`: the first whitespace-separated word is the destination, the
others, joined by single spaces, the instruction. -/
def new (command : List Char) : Command :=
  let parts := splitWhitespace command
  { destination := Destination.new (parts.head?.getD [])
    instruction := Instruction.new ([' '].intercalate parts.tail) }

/-- `Command::is_valid`. -/
def isValid (command : Command) : Bool :=
  command.destination.isValid && command.instruction.isValid

/-- `Display for Command`: `{destination} {instruction}`.  `Serialize for Command`
writes this text, and `Deserialize for Command` reads it back with `Command::new`. -/
def toString (command : Command) : List Char :=
  command.destination.toString ++ ' ' :: command.instruction.toString

end Command

/-- `job::Job`. -/
structure Job where
  /-- The id, drawn once by `Job::new`. -/
  id : Uuid
  /-- When the job was made. -/
  created : DateTime
  /-- When the job last changed. -/
  updated : DateTime
  /-- The version, `1` when made. -/
  version : UInt64
  /-- The destination and the instruction. -/
  command : Command
  /-- Where the job stands. -/
  state : Status
  /-- The JSON of the result, or the error message. -/
  result : Option (List Char)
deriving DecidableEq, Repr

namespace Job

/-- `Job::new`, with the id that `Uuid::new_v4` drew and the clock's reading. -/
def new (command : List Char) (id : Uuid) (now : DateTime) : Job where
  id := id
  created := now
  updated := now
  version := 1
  command := Command.new command
  state := .pending
  result := none

/-- `Job::parse`. -/
def parse (command : List Char) (id : Uuid) (now : DateTime) : Except JobError Job :=
  let job := new command id now
  if !job.command.isValid then .error (.parse "Invalid command".toList) else .ok job

theorem parse_eq_ok {command : List Char} {id : Uuid} {now : DateTime} {job : Job} :
    parse command id now = .ok job ↔
      (new command id now).command.isValid = true ∧ job = new command id now := by
  by_cases hvalid : (new command id now).command.isValid = true
  · simp only [parse, hvalid, Bool.not_true, Bool.false_eq_true, if_false, Except.ok.injEq,
      true_and]
    exact eq_comm
  · simp [parse, hvalid]

/-- The four assignments that end `completed` and `errored`: the state, the
result, the clock's reading and the next version. -/
def finish (job : Job) (state : Status) (result : List Char) (now : DateTime) : Job :=
  { job with state := state, result := some result, updated := now, version := job.version + 1 }

/-- `Job::completed`, given what `serde_json::to_string` made of the result. -/
def completed (job : Job) (serialized : Except SerdeError (List Char)) (now : DateTime) :
    Job × Except JobError Unit :=
  if job.state ≠ .pending then
    (job, .error (.invalidState "Cannot set result on non-pending job".toList))
  else
    let job := { job with state := .complete }
    match serialized with
    | .error error => (job, .error (.serdeJson error))
    | .ok text => (job.finish .complete text now, .ok ())

/-- `Job::errored`. -/
def errored (job : Job) (message : List Char) (now : DateTime) : Job × Except JobError Unit :=
  if job.state ≠ .pending then
    (job, .error (.invalidState "Cannot set error on non-pending job".toList))
  else (job.finish .error message now, .ok ())

/-- `Job::result::<T>`, given `serde_json::from_str` at `T`.  The field takes the
name `result`. -/
def readResult {α : Type} (job : Job) (decode : List Char → Except SerdeError α) :
    Except JobError (Option α) :=
  match job.state, job.result with
  | .pending, _ => .ok none
  | .error, some result => .error (.runError result)
  | .error, none => .error (.invalidState "Unknown error".toList)
  | .complete, some result =>
    match decode result with
    | .ok value => .ok (some value)
    | .error error => .error (.serdeJson error)
  | .complete, none => .error (.unknown "No result available".toList)

/-- `Job::execute`: completes a copy with the JSON of the text
`Hello, World! - we have run!`. -/
def execute (job : Job) (now : DateTime) : Except JobError Job :=
  let (job, result) := job.completed (.ok "\"Hello, World! - we have run!\"".toList) now
  result.map fun _ => job

end Job

end OpenPortal
