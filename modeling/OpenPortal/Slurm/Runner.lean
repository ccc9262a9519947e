import OpenPortal.Rust
import OpenPortal.Templemeads.Board
import OpenPortal.Templemeads.Wire

/-!
# The slurm runner

`slurm::runner` is the handler the slurm agent runs on each job that reaches
it.  `RemoveUser` is completed at once, and any instruction but `AddUser` is
run by `Job::execute`.  `AddUser(user)` is forwarded to the account agent, and
the runner then blocks on the board it shares with the account agent until
the forwarded job comes back terminal.  Forwarding takes six steps, and an
error at any of them ends the runner.

1. `Job::parse` of `<recipient>.<account> add_user <user>`, with a fresh id:
   this is `add_job`.
2. `state::get(&account)`: the board shared with the account agent.
3. `board.add(&job)`, where `job` is the incoming job.
4. `Command::put(&add_job).send_to(&account)`, which by the spec writes
   `add_job` to the same board and sends it.
5. `job.running(...)`, sent upstream with `Command::update`.
6. `board.wait_for(&job)`.

Steps 3 and 6 use the incoming job while step 4 sends `add_job`, and the two
ids differ unless `Uuid::new_v4` draws the incoming id again.  The versions
that the account agent sends back carry `add_job`'s id, so they never move the
runner's waiter (`runner_waits_on_incoming_job`).

What the runner sends is right all the same.  The forwarded job reads back as
`AddUser` of the same user at `<recipient>.<account>` (`runner_forwards_user`).  A
pending job it does not forward it answers at once as `Complete`
(`runner_answers_at_once`).  Once its waiter resolves, it fails only where the
result does not serialize or the board refuses the job.  Otherwise its last frame
is the incoming job made terminal: `Complete` exactly when the reply's result
reads back, and otherwise `Error` naming the reply's error
(`runner_reports_account_result`).

The runner also calls a version of `templemeads` that is not among the sources:
`agent::account`, `state::get`, `Job::running`, a `Job::completed` and a
`Job::errored` that return the job, the envelope and the JSON codecs.  Those
calls form a `Runtime`, modelled from the spec.  The spec's jobs have a state
`Running` that `job::Status` lacks, so the runtime says which jobs are running
(`Runtime.isRunning`).  `Job::running` keeps a job's id, which the spec makes
immutable, and leaves the job `Running`.  `completed` and `errored` finish a
pending or running job as the sources finish a pending one, so they agree with
`Job::completed` wherever the sources define it (`Runtime.completed_of_pending`).
The tracing calls are left out.
-/

namespace OpenPortal

/-- Modelled from the spec: `job::Envelope`, a job with the peers it passed
between. -/
structure Envelope where
  /-- The peer the job came from. -/
  sender : List Char
  /-- This agent. -/
  recipient : List Char
  /-- The job. -/
  job : Job
deriving DecidableEq, Repr

/-- A frame the runner sends: `Command::put` or `Command::update`. -/
inductive Frame where
  | put (peer : List Char) (job : Job)
  | update (peer : List Char) (job : Job)
deriving DecidableEq, Repr

/-- `slurm::Error`, without `Any`, which nothing modelled raises. -/
inductive RunnerError where
  | job (error : JobError)
  | state (message : List Char)
  | board (error : BoardError)
  | noAccount (message : List Char)
deriving DecidableEq, Repr

/-- Modelled from the spec: what the runner draws from the agent runtime, with
the job API of the `templemeads` it calls. -/
structure Runtime where
  /-- `agent::account()`: the account agent, if one has registered. -/
  account : Option (List Char)
  /-- `state::get(&account)`, then its board. -/
  board : Except (List Char) Board
  /-- `Job::running`. -/
  running : Job → Except JobError Job
  /-- Whether a job is in the spec's state `Running`, which `job::Status` lacks. -/
  isRunning : Job → Bool
  /-- A job's id is immutable. -/
  running_id : ∀ job job', running job = .ok job' → job'.id = job.id
  /-- `Job::running` leaves the job `Running`. -/
  running_isRunning : ∀ job job', running job = .ok job' → isRunning job' = true
  /-- `Job::completed`, which returns the job, given what `serde_json::to_string`
  made of the result. -/
  completed : Job → Except SerdeError (List Char) → DateTime → Except JobError Job
  /-- A pending or running job completes as the sources complete a pending one. -/
  completed_live : ∀ job serialized now, job.state = .pending ∨ isRunning job = true →
    completed job serialized now =
      (serialized.map fun text => job.finish .complete text now).mapError .serdeJson
  /-- `Job::errored`, which returns the job. -/
  errored : Job → List Char → DateTime → Except JobError Job
  /-- A pending or running job errors as the sources error a pending one. -/
  errored_live : ∀ job message now, job.state = .pending ∨ isRunning job = true →
    errored job message now = .ok (job.finish .error message now)
  /-- `serde_json::from_str::<String>`. -/
  decode : List Char → Except SerdeError (List Char)
  /-- `serde_json::to_string` at `Option<String>`. -/
  encode : Option (List Char) → Except SerdeError (List Char)
  /-- The `Debug` text of a `job::Error`. -/
  debug : JobError → List Char

/-- Where the runner blocks, at `waiter.result().await`. -/
structure Waiting where
  /-- The board shared with the account agent. -/
  board : Board
  /-- The frames sent so far, in order. -/
  frames : List Frame
  /-- The runner's job, now running. -/
  job : Job
  /-- The waiter it blocks on. -/
  waiter : Waiter

/-- What a runner call comes to: a finished job, or a block on a waiter. -/
inductive Outcome where
  | done (job : Job)
  | waiting (state : Waiting)

/-- `runner`, given the fresh id and the clock reading that `Job::parse` draws
for `add_job`, up to the point where it blocks. -/
def runner (runtime : Runtime) (id : Uuid) (now : DateTime) (envelope : Envelope) :
    Except RunnerError Outcome :=
  let job := envelope.job
  match job.command.instruction with
  | .addUser user =>
    match runtime.account with
    | some account => do
      let addJob ← (Job.parse (envelope.recipient ++ '.' :: account ++ " add_user ".toList ++
        user.toString) id now).mapError .job
      let board ← runtime.board.mapError .state
      let board ← (board.add job).mapError .board
      let board ← (board.add addJob).mapError .board
      let job ← (runtime.running job).mapError .job
      pure (.waiting ⟨board, [.put account addJob, .update envelope.sender job], job,
        board.waitFor job⟩)
    | none => .error (.noAccount "Cannot run the job because there is no account agent".toList)
  | .removeUser _ =>
    ((runtime.completed job (.ok "\"User removed\"".toList) now).mapError .job).map .done
  | _ => ((job.execute now).mapError .job).map .done

/-- `runner` after its waiter resolves to `addJob`: it finishes its job with
`addJob`'s result, files the job on the board and sends it upstream. -/
def resume (runtime : Runtime) (now : DateTime) (envelope : Envelope) (waiting : Waiting)
    (addJob : Job) : Except RunnerError (Board × List Frame × Job) := do
  let job ← match addJob.readResult runtime.decode with
    | .ok result => (runtime.completed waiting.job (runtime.encode result) now).mapError .job
    | .error error =>
      (runtime.errored waiting.job
        ("Error adding user to account: ".toList ++ runtime.debug error) now).mapError .job
  let board ← (waiting.board.add job).mapError .board
  pure (board, waiting.frames ++ [.update envelope.sender job], job)

/-! ## The job API -/

/-- Where the sources define it, at a pending job, the job API completes as
`Job::completed` does. -/
theorem Runtime.completed_of_pending (runtime : Runtime) {job : Job}
    (hpending : job.state = .pending) (serialized : Except SerdeError (List Char))
    (now : DateTime) :
    runtime.completed job serialized now =
      (job.completed serialized now).2.map fun _ => (job.completed serialized now).1 := by
  rw [runtime.completed_live _ _ _ (.inl hpending)]
  cases serialized <;> simp [Job.completed, Job.finish, hpending, Except.map, Except.mapError]

/-- `Job::execute` of a pending job is the job API's completion with its text. -/
theorem Runtime.execute_of_pending (runtime : Runtime) {job : Job}
    (hpending : job.state = .pending) (now : DateTime) :
    job.execute now =
      runtime.completed job (.ok "\"Hello, World! - we have run!\"".toList) now := by
  rw [runtime.completed_of_pending hpending]
  rfl

/-- The runtime of the examples below: the account agent is `account`, the
shared board starts empty, and every job counts as running. -/
def Runtime.sample : Runtime where
  account := some "account".toList
  board := .ok Board.empty
  running := .ok
  isRunning _ := true
  running_id _ _ h := by cases h; rfl
  running_isRunning _ _ _ := rfl
  completed job serialized now :=
    (serialized.map fun text => job.finish .complete text now).mapError .serdeJson
  completed_live _ _ _ _ := rfl
  errored job message now := .ok (job.finish .error message now)
  errored_live _ _ _ _ := rfl
  decode := .ok
  encode _ := .ok []
  debug _ := []

/-! ## Where the runner blocks -/

theorem map_done_ne_waiting (x : Except RunnerError Job) (waiting : Waiting) :
    x.map Outcome.done ≠ .ok (.waiting waiting) := by
  cases x <;> simp [Except.map]

/-- A runner call that blocks forwarded an `AddUser` job through all six
steps, in order. -/
theorem runner_eq_waiting {runtime : Runtime} {id : Uuid} {now : DateTime}
    {envelope : Envelope} {waiting : Waiting}
    (h : runner runtime id now envelope = .ok (.waiting waiting)) :
    ∃ user account addJob shared added running,
      envelope.job.command.instruction = .addUser user ∧
      runtime.account = some account ∧
      Job.parse (envelope.recipient ++ '.' :: account ++ " add_user ".toList ++ user.toString)
        id now = .ok addJob ∧
      runtime.board = .ok shared ∧ shared.add envelope.job = .ok added ∧
      added.add addJob = .ok waiting.board ∧ runtime.running envelope.job = .ok running ∧
      waiting.frames = [.put account addJob, .update envelope.sender running] ∧
      waiting.job = running ∧ waiting.waiter = ⟨running.id⟩ := by
  simp only [runner] at h
  split at h
  · rename_i user hinstr
    split at h
    · rename_i account haccount
      obtain ⟨addJob, hparse, h⟩ := bind_eq_ok.1 h
      obtain ⟨shared, hshared, h⟩ := bind_eq_ok.1 h
      obtain ⟨added, hadded, h⟩ := bind_eq_ok.1 h
      obtain ⟨board, hboard, h⟩ := bind_eq_ok.1 h
      obtain ⟨running, hrunning, h⟩ := bind_eq_ok.1 h
      cases h
      exact ⟨user, account, addJob, shared, added, running, hinstr, haccount,
        mapError_eq_ok.1 hparse, mapError_eq_ok.1 hshared, mapError_eq_ok.1 hadded,
        mapError_eq_ok.1 hboard, mapError_eq_ok.1 hrunning, rfl, rfl, rfl⟩
    · cases h
  · exact absurd h (map_done_ne_waiting _ _)
  · exact absurd h (map_done_ne_waiting _ _)

/-- Where an `AddUser` job blocks the runner: the job it files on the shared
board and waits on is the incoming one, while the job it sends the account
agent has the fresh id.  Unless the fresh id is the incoming one, the
versions the account agent sends back never resolve the waiter; when the
incoming job was pending and new to the board, it never resolves at all. -/
theorem runner_waits_on_incoming_job {runtime : Runtime} {id : Uuid} {now : DateTime}
    {envelope : Envelope} {waiting : Waiting}
    (h : runner runtime id now envelope = .ok (.waiting waiting)) :
    ∃ account addJob, waiting.frames = [.put account addJob, .update envelope.sender waiting.job] ∧
      addJob.id = id ∧ waiting.waiter.id = envelope.job.id ∧
      (id ≠ envelope.job.id → ∀ replies : List Job, (∀ reply ∈ replies, reply.id = id) →
        waiting.waiter.result (waiting.board.receiveAll replies) =
          waiting.waiter.result waiting.board ∧
        (envelope.job.state = .pending →
          (∀ shared, runtime.board = .ok shared → shared.jobs.lookup envelope.job.id = none) →
          waiting.waiter.result (waiting.board.receiveAll replies) = none)) := by
  obtain ⟨user, account, addJob, shared, added, running, -, -, hparse, hshared, hadded, hboard,
    hrunning, hframes, hjob, hwaiter⟩ := runner_eq_waiting h
  have hid : addJob.id = id := by rw [(Job.parse_eq_ok.1 hparse).2]; rfl
  have hwaiter_id : waiting.waiter.id = envelope.job.id := by
    rw [hwaiter]; exact runtime.running_id _ _ hrunning
  refine ⟨account, addJob, hjob ▸ hframes, hid, hwaiter_id, fun hne replies hreplies => ?_⟩
  have hframe : waiting.waiter.result (waiting.board.receiveAll replies) =
      waiting.waiter.result waiting.board :=
    Waiter.result_receiveAll fun reply hreply => by
      rw [hreplies reply hreply, hwaiter_id]; exact hne
  refine ⟨hframe, fun hpending hnew => ?_⟩
  have hadded' : added = shared.insert envelope.job := by
    rw [Board.add_of_lookup_eq_none (hnew shared hshared)] at hadded
    exact (Except.ok.inj hadded).symm
  have hfiled : waiting.board.jobs.lookup envelope.job.id = some envelope.job := by
    rw [Board.lookup_add_of_ne hboard (by rw [hid]; exact hne.symm), hadded',
      Board.lookup_insert_self]
  rw [hframe, Waiter.result, hwaiter_id, hfiled]
  simp [hpending]

/-- The failing input: `alice.proj.portal` added through the account agent
`account`, with the incoming job's id 0 and the fresh id 1.  No versions the
account agent sends back ever resolve the runner's waiter. -/
theorem runner_waits_on_incoming_job_alice :
    let envelope : Envelope :=
      ⟨"portal".toList, "slurm".toList,
        Job.new "portal.slurm add_user alice.proj.portal".toList ⟨0⟩ ⟨0⟩⟩
    ∃ waiting, runner Runtime.sample ⟨1⟩ ⟨0⟩ envelope = .ok (.waiting waiting) ∧
      ∀ replies : List Job, (∀ reply ∈ replies, reply.id = ⟨1⟩) →
        waiting.waiter.result (waiting.board.receiveAll replies) = none := by
  intro envelope
  obtain ⟨waiting, h⟩ :
      ∃ waiting, runner Runtime.sample ⟨1⟩ ⟨0⟩ envelope = .ok (.waiting waiting) :=
    ⟨_, rfl⟩
  obtain ⟨-, -, -, -, -, hnever⟩ := runner_waits_on_incoming_job h
  refine ⟨waiting, h, fun replies hreplies => (hnever (by decide) replies hreplies).2 rfl ?_⟩
  intro shared hshared
  cases hshared
  rfl

/-! ## What the runner forwards -/

/-- The job the runner puts to the account agent asks it to add the user the incoming
job named, and goes to `<recipient>.<account>`: `Command::new` reads the text the runner
formats back as that destination and that instruction.  This holds whenever the
incoming command was read from text, as every job's is, and neither agent name holds
whitespace. -/
theorem runner_forwards_user {runtime : Runtime} {id : Uuid} {now : DateTime}
    {envelope : Envelope} {waiting : Waiting} {text : List Char}
    (hcommand : envelope.job.command = Command.new text)
    (hnames : ∀ account, runtime.account = some account →
      ∀ c ∈ envelope.recipient ++ '.' :: account, isWhitespace c = false)
    (h : runner runtime id now envelope = .ok (.waiting waiting)) :
    ∃ user account addJob, envelope.job.command.instruction = .addUser user ∧
      waiting.frames.head? = some (.put account addJob) ∧
      addJob.command = ⟨Destination.new (envelope.recipient ++ '.' :: account), .addUser user⟩ := by
  obtain ⟨user, account, addJob, _, _, _, hinstr, haccount, hparse, -, -, -, -, hframes, -⟩ :=
    runner_eq_waiting h
  refine ⟨user, account, addJob, hinstr, by rw [hframes]; rfl, ?_⟩
  have hread : Instruction.new ([' '].intercalate (splitWhitespace text).tail) = .addUser user := by
    rw [← hinstr, hcommand]; rfl
  have htext : envelope.recipient ++ '.' :: account ++ " add_user ".toList ++ user.toString =
      (envelope.recipient ++ '.' :: account) ++ ' ' ::
        (Instruction.new ([' '].intercalate (splitWhitespace text).tail)).toString := by
    rw [hread]; simp [Instruction.toString]
  rw [(Job.parse_eq_ok.1 hparse).2, Job.new, htext,
    Command.new_append_toString (hnames account haccount) (by simp)
      (Command.spaced_instructionText text), hread]

/-- The runner's test job: `portal.slurm add_user alice.proj.portal` reaches the slurm
agent, which asks `account` to add `alice.proj.portal` at `slurm.account`. -/
theorem runner_forwards_user_alice :
    let envelope : Envelope :=
      ⟨"portal".toList, "slurm".toList,
        Job.new "portal.slurm add_user alice.proj.portal".toList ⟨0⟩ ⟨0⟩⟩
    ∃ waiting, runner Runtime.sample ⟨1⟩ ⟨0⟩ envelope = .ok (.waiting waiting) ∧
      ∃ user account addJob, envelope.job.command.instruction = .addUser user ∧
        waiting.frames.head? = some (.put account addJob) ∧
        addJob.command =
          ⟨Destination.new (envelope.recipient ++ '.' :: account), .addUser user⟩ := by
  intro envelope
  obtain ⟨waiting, h⟩ :
      ∃ waiting, runner Runtime.sample ⟨1⟩ ⟨0⟩ envelope = .ok (.waiting waiting) :=
    ⟨_, rfl⟩
  have hnames : ∀ account, Runtime.sample.account = some account →
      ∀ c ∈ envelope.recipient ++ '.' :: account, isWhitespace c = false := by
    rintro account ⟨⟩
    decide
  exact ⟨waiting, h, runner_forwards_user rfl hnames h⟩

/-! ## What the runner answers -/

/-- A pending job the runner does not forward it answers at once, sending
nothing: finished as `Complete`, one version later, with `"User removed"` for
`RemoveUser` and with `Job::execute`'s text for every other instruction. -/
theorem runner_answers_at_once (runtime : Runtime) (id : Uuid) (now : DateTime)
    (envelope : Envelope) (hinstr : ∀ user, envelope.job.command.instruction ≠ .addUser user)
    (hpending : envelope.job.state = .pending) :
    runner runtime id now envelope =
      .ok (.done (envelope.job.finish .complete
        (match envelope.job.command.instruction with
          | .removeUser _ => "\"User removed\"".toList
          | _ => "\"Hello, World! - we have run!\"".toList) now)) := by
  cases hi : envelope.job.command.instruction with
  | addUser user => exact absurd hi (hinstr user)
  | _ =>
    simp only [runner, hi, runtime.execute_of_pending hpending,
      runtime.completed_live _ _ _ (.inl hpending)]
    rfl

/-- What a `resume` of a pending or running job that returns did: the job
finished with the account agent's result, or as `Error` with the text of the
account agent's error, and the board and the frames gained it. -/
theorem resume_eq_ok {runtime : Runtime} {now : DateTime} {envelope : Envelope}
    {waiting : Waiting} {addJob : Job} {board : Board} {frames : List Frame} {job : Job}
    (hlive : waiting.job.state = .pending ∨ runtime.isRunning waiting.job = true)
    (h : resume runtime now envelope waiting addJob = .ok (board, frames, job)) :
    waiting.board.add job = .ok board ∧
      frames = waiting.frames ++ [.update envelope.sender job] ∧
      ((∃ result text, addJob.readResult runtime.decode = .ok result ∧
          runtime.encode result = .ok text ∧ job = waiting.job.finish .complete text now) ∨
        ∃ error, addJob.readResult runtime.decode = .error error ∧
          job = waiting.job.finish .error ("Error adding user to account: ".toList ++
            runtime.debug error) now) := by
  rw [resume] at h
  cases hread : addJob.readResult runtime.decode <;>
    simp only [hread, runtime.completed_live _ _ _ hlive, runtime.errored_live _ _ _ hlive] at h <;>
    obtain ⟨answer, hanswer, hfile⟩ := bind_eq_ok.1 h <;>
    obtain ⟨filed, hfiled, hpure⟩ := bind_eq_ok.1 hfile <;> cases hpure
  case ok result =>
    obtain ⟨text, htext, rfl⟩ := map_eq_ok.1 (mapError_eq_ok.1 (mapError_eq_ok.1 hanswer))
    exact ⟨mapError_eq_ok.1 hfiled, rfl, .inl ⟨result, text, rfl, htext, rfl⟩⟩
  case error error =>
    cases hanswer
    exact ⟨mapError_eq_ok.1 hfiled, rfl, .inr ⟨error, rfl, rfl⟩⟩

/-- A `resume` of a pending or running job fails only where the result does not
serialize or the board refuses the job. -/
theorem resume_eq_error {runtime : Runtime} {now : DateTime} {envelope : Envelope}
    {waiting : Waiting} {addJob : Job} {error : RunnerError}
    (hlive : waiting.job.state = .pending ∨ runtime.isRunning waiting.job = true)
    (h : resume runtime now envelope waiting addJob = .error error) :
    (∃ e, error = .job (.serdeJson e)) ∨ ∃ e, error = .board e := by
  rw [resume] at h
  cases hread : addJob.readResult runtime.decode <;>
    simp only [hread, runtime.completed_live _ _ _ hlive, runtime.errored_live _ _ _ hlive] at h <;>
    rcases bind_eq_error.1 h with hanswer | ⟨answer, -, hfile⟩
  case ok.inl =>
    obtain ⟨e, hserde, rfl⟩ := mapError_eq_error.1 hanswer
    obtain ⟨e', -, rfl⟩ := mapError_eq_error.1 hserde
    exact .inl ⟨e', rfl⟩
  case error.inl => cases hanswer
  all_goals
    rcases bind_eq_error.1 hfile with hboard | ⟨filed, -, hpure⟩
    · obtain ⟨e, -, rfl⟩ := mapError_eq_error.1 hboard
      exact .inr ⟨e, rfl⟩
    · cases hpure

/-- Once its waiter resolves, the runner never fails for want of a pending job:
`Job::running` left its job `Running`, so it fails only where the result does not
serialize or the board refuses the job.  When it returns, it answers the sender
last with the incoming job made terminal, one version past the running one:
`Complete` with the account agent's result exactly when that job's result reads
back, and `Error` naming the account agent's error otherwise.  Three frames went
out: the forwarded job, the running update and this answer. -/
theorem runner_reports_account_result {runtime : Runtime} {id : Uuid} {now now' : DateTime}
    {envelope : Envelope} {waiting : Waiting} {addJob : Job}
    (hrun : runner runtime id now envelope = .ok (.waiting waiting)) :
    (∀ error, resume runtime now' envelope waiting addJob = .error error →
      (∃ e, error = .job (.serdeJson e)) ∨ ∃ e, error = .board e) ∧
    ∀ board frames job, resume runtime now' envelope waiting addJob = .ok (board, frames, job) →
      (∃ account forwarded, frames = [.put account forwarded,
          .update envelope.sender waiting.job, .update envelope.sender job]) ∧
        job.id = envelope.job.id ∧ job.version = waiting.job.version + 1 ∧
        (job.state = .complete ↔ ∃ result text,
          addJob.readResult runtime.decode = .ok result ∧
            runtime.encode result = .ok text ∧ job.result = some text) ∧
        (job.state = .error ↔ ∃ error, addJob.readResult runtime.decode = .error error ∧
          job.result = some ("Error adding user to account: ".toList ++ runtime.debug error)) := by
  obtain ⟨_, account, forwarded, _, _, _, -, -, -, -, -, -, hrunning, hframes, hjob, -⟩ :=
    runner_eq_waiting hrun
  have hlive : waiting.job.state = .pending ∨ runtime.isRunning waiting.job = true :=
    .inr (hjob ▸ runtime.running_isRunning _ _ hrunning)
  have hid : waiting.job.id = envelope.job.id := hjob ▸ runtime.running_id _ _ hrunning
  refine ⟨fun _ => resume_eq_error hlive, fun board frames job hresume => ?_⟩
  obtain ⟨-, hanswer, hcases⟩ := resume_eq_ok hlive hresume
  refine ⟨⟨account, forwarded, by rw [hanswer, hframes, hjob]; rfl⟩, ?_⟩
  rcases hcases with ⟨result, text, hread, htext, rfl⟩ | ⟨error, hread, rfl⟩
  · exact ⟨hid, rfl, iff_of_true rfl ⟨result, text, hread, htext, rfl⟩,
      by simp [Job.finish, hread]⟩
  · exact ⟨hid, rfl, by simp [Job.finish, hread], iff_of_true rfl ⟨error, hread, rfl⟩⟩

/-- The runner's test job, resumed on a reply whose result reads back: the
answer is the incoming job, `Complete`. -/
theorem runner_reports_account_result_alice :
    let envelope : Envelope :=
      ⟨"portal".toList, "slurm".toList,
        Job.new "portal.slurm add_user alice.proj.portal".toList ⟨0⟩ ⟨0⟩⟩
    ∃ waiting, runner Runtime.sample ⟨1⟩ ⟨0⟩ envelope = .ok (.waiting waiting) ∧
      ∃ board frames job,
        resume Runtime.sample ⟨1⟩ envelope waiting envelope.job = .ok (board, frames, job) ∧
          job.id = envelope.job.id ∧ job.state = .complete := by
  intro envelope
  refine ⟨_, rfl, _, _, _, rfl, ?_⟩
  obtain ⟨-, hanswer⟩ := @runner_reports_account_result Runtime.sample ⟨1⟩ ⟨0⟩ ⟨1⟩
    envelope _ envelope.job rfl
  obtain ⟨-, hid, -, hcomplete, -⟩ := hanswer _ _ _ rfl
  exact ⟨hid, hcomplete.2 ⟨none, [], rfl, rfl, rfl⟩⟩

end OpenPortal
