import OpenPortal.Templemeads.Job

/-!
# The lifecycle of a job

A job is finished by a sequence of calls to `completed` and `errored`
(`Job.run`).  One lemma says what a call does to a pending job
(`Job.call_pending`) and one what it does to any other (`Job.call_not_pending`):
a finished job is returned unchanged with an error.  From the two, a run from a
pending job reaches one of four jobs (`Job.Shape`, `Job.shape_run`): the job
itself, the job completed with a JSON text, the job errored with a message, or
the job whose `completed` failed to serialize its value.  The last is
`Complete` with no result and the version it had, and the call that made it
returned an error (`Job.completed_sets_state_before_serializing`).  Every law the
spec states of the lifecycle holds on the other three.  `Job::result` tells the
fourth apart: it is the only reachable job on which it reports `No result
available`, and its `Unknown error` branch is never reached (`Job.readResult_run`).
-/

namespace OpenPortal

/-- A call on a job, with what the outside gave it: the JSON text of the value
or serde_json's error, the message, and the clock's reading. -/
inductive Call where
  | completed (serialized : Except SerdeError (List Char)) (now : DateTime)
  | errored (message : List Char) (now : DateTime)

/-- The calls whose value serializes: every `errored`, and `completed` with a text. -/
def Call.Serializable : Call → Prop
  | .completed serialized _ => ∃ text, serialized = .ok text
  | .errored _ _ => True

namespace Job

/-- One call, with the job it leaves and what it returns. -/
def call (job : Job) : Call → Job × Except JobError Unit
  | .completed serialized now => job.completed serialized now
  | .errored message now => job.errored message now

/-- A sequence of calls, each on the job the one before left. -/
def run (job : Job) : List Call → Job
  | [] => job
  | c :: cs => (job.call c).1.run cs

@[simp] theorem run_nil (job : Job) : job.run [] = job := rfl

@[simp] theorem new_state (command : List Char) (id : Uuid) (now : DateTime) :
    (new command id now).state = .pending := rfl

@[simp] theorem new_version (command : List Char) (id : Uuid) (now : DateTime) :
    (new command id now).version = 1 := rfl

@[simp] theorem new_result (command : List Char) (id : Uuid) (now : DateTime) :
    (new command id now).result = none := rfl

/-! ## One call -/

/-- A job that is no longer pending is left as it is, and the call fails. -/
theorem call_not_pending {job : Job} (h : job.state ≠ .pending) (c : Call) :
    (job.call c).1 = job ∧ ∃ e, (job.call c).2 = .error e := by
  cases c <;> simp [call, completed, errored, h]

/-- What a call does to a pending job. -/
theorem call_pending {job : Job} (h : job.state = .pending) (c : Call) :
    (∃ text now, c = .completed (.ok text) now ∧
      job.call c = (job.finish .complete text now, .ok ())) ∨
    (∃ error now, c = .completed (.error error) now ∧
      job.call c = ({ job with state := .complete }, .error (.serdeJson error))) ∨
    (∃ message now, c = .errored message now ∧
      job.call c = (job.finish .error message now, .ok ())) := by
  rcases c with ⟨serialized | text, now⟩ | ⟨message, now⟩
  · exact .inr (.inl ⟨serialized, now, rfl, by simp [call, completed, h]⟩)
  · exact .inl ⟨text, now, rfl, by simp [call, completed, h, finish]⟩
  · exact .inr (.inr ⟨message, now, rfl, by simp [call, errored, h]⟩)

/-- `completed` sets the state to `Complete` before it serializes the value; when
serde_json fails, the `?` returns the error with the state already changed, the
result still `None` and the version unbumped. -/
theorem completed_sets_state_before_serializing (command : List Char) (id : Uuid)
    (now later : DateTime) (error : SerdeError) :
    (new command id now).completed (.error error) later =
      ({ new command id now with state := .complete }, .error (.serdeJson error)) := by
  simp [completed]

/-! ## Runs -/

/-- The jobs a run of calls reaches from the pending job `origin`. -/
inductive Shape (origin : Job) : Job → Prop
  /-- No call has succeeded. -/
  | pending : Shape origin origin
  /-- `completed` succeeded. -/
  | complete (text : List Char) (now : DateTime) : Shape origin (origin.finish .complete text now)
  /-- `errored` succeeded. -/
  | error (message : List Char) (now : DateTime) : Shape origin (origin.finish .error message now)
  /-- `completed` could not serialize its value. -/
  | unserialized : Shape origin { origin with state := .complete }

theorem Shape.call {origin job : Job} (horigin : origin.state = .pending)
    (h : Shape origin job) (c : Call) : Shape origin (job.call c).1 := by
  cases h with
  | pending =>
    rcases call_pending horigin c with ⟨text, now, -, he⟩ | ⟨_, _, -, he⟩ | ⟨message, now, -, he⟩
    · rw [he]; exact .complete text now
    · rw [he]; exact .unserialized
    · rw [he]; exact .error message now
  | complete text now => rw [(call_not_pending (by simp [finish]) c).1]; exact .complete text now
  | error message now => rw [(call_not_pending (by simp [finish]) c).1]; exact .error message now
  | unserialized => rw [(call_not_pending (by simp) c).1]; exact .unserialized

theorem Shape.run {origin job : Job} (horigin : origin.state = .pending)
    (h : Shape origin job) (calls : List Call) : Shape origin (job.run calls) := by
  induction calls generalizing job with
  | nil => exact h
  | cons c cs ih => exact ih (h.call horigin c)

/-- What the spec asks of a job's fields: a result exactly when the job is
finished, and the version `1` while it is pending. -/
def Lawful (job : Job) : Prop :=
  (job.result.isSome ↔ job.state = .complete ∨ job.state = .error) ∧
    (job.state = .pending → job.version = 1)

theorem Lawful.call {job : Job} (h : job.Lawful) {c : Call} (hc : c.Serializable) :
    (job.call c).1.Lawful := by
  by_cases hp : job.state = .pending
  · rcases call_pending hp c with ⟨text, now, -, he⟩ | ⟨error, now, rfl, -⟩ | ⟨_, _, -, he⟩
    · rw [he]; simp [Lawful, finish]
    · simp [Call.Serializable] at hc
    · rw [he]; simp [Lawful, finish]
  · rw [(call_not_pending hp c).1]; exact h

theorem Lawful.run {job : Job} (h : job.Lawful) {calls : List Call}
    (hc : ∀ c ∈ calls, c.Serializable) : (job.run calls).Lawful := by
  induction calls generalizing job with
  | nil => exact h
  | cons c cs ih =>
    exact ih (h.call (hc c (.head _))) fun c' hc' => hc c' (.tail _ hc')

/-- On every job that calls reach from a new job, `Job::result` never reports
`Unknown error`, and it reports `No result available` exactly on the job that
`completed` leaves when its value does not serialize. -/
theorem readResult_run {α : Type} (command : List Char) (id : Uuid) (now : DateTime)
    (calls : List Call) (decode : List Char → Except SerdeError α) :
    ((new command id now).run calls).readResult decode ≠
        .error (.invalidState "Unknown error".toList) ∧
      (((new command id now).run calls).readResult decode =
          .error (.unknown "No result available".toList) ↔
        (new command id now).run calls = { new command id now with state := .complete }) := by
  have hshape := (Shape.pending : Shape (new command id now) _).run rfl calls
  generalize (new command id now).run calls = job at hshape ⊢
  cases hshape with
  | pending => simp [readResult, new]
  | complete text later =>
    simp only [readResult, finish, new]
    cases decode text <;> simp
  | error message later => simp [readResult, finish, new]
  | unserialized => simp [readResult, new]

end Job

end OpenPortal
