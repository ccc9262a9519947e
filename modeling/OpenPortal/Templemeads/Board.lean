import Mathlib.Data.List.AList
import OpenPortal.Templemeads.Job

/-!
# Boards

Modelled from the spec: `templemeads::board` is not among the sources.  The
spec describes a board as a per-peer index of the jobs exchanged with that
peer, keyed by job id, together with waiters.  `add` inserts a job or replaces
the one with its id when the new version is strictly higher.  An equal version
is a no-op, and a lower one fails with `OutOfOrder`.  A waiter registered with
`wait_for(id)` resolves once the job with that id on the board is terminal,
and at once if it already is.

A board is a `Board`, whose jobs are kept by their own id (the `keyed` field),
so a board that files a job under another job's id cannot be built.  A waiter
is the id it waits on, and `Waiter.result` reads off what it resolves to on a
board.  The runtime applies each version that arrives from the peer with
`add` and drops an out-of-order one (`Board.receive`).

The one fact the slurm runner needs is a frame law: versions of other jobs
never move a waiter (`Waiter.result_receiveAll`).  `Board::get` and
`Board::remove`, which the runner does not call, are left out.
-/

namespace OpenPortal

/-- Modelled from the spec: the errors of a board. -/
inductive BoardError where
  /-- `add` of a version lower than the one on the board. -/
  | outOfOrder
deriving DecidableEq, Repr

/-- Modelled from the spec: a board, its jobs by id. -/
structure Board where
  /-- The latest version of each job the board holds. -/
  jobs : AList (fun _ : Uuid => Job)
  /-- Each job is filed under its own id. -/
  keyed : ∀ id job, jobs.lookup id = some job → job.id = id

/-- Modelled from the spec: a waiter, a handle on the job with this id. -/
structure Waiter where
  /-- The id of the job it waits on. -/
  id : Uuid
deriving DecidableEq, Repr

namespace Board

/-- An empty board. -/
def empty : Board := ⟨∅, fun _ _ h => by simp [AList.lookup_empty] at h⟩

/-- Files `job` under its id, replacing what was there. -/
def insert (board : Board) (job : Job) : Board where
  jobs := board.jobs.insert job.id job
  keyed id found h := by
    by_cases hid : id = job.id
    · subst hid
      rw [AList.lookup_insert, Option.some.injEq] at h
      exact h ▸ rfl
    · rw [AList.lookup_insert_ne hid] at h
      exact board.keyed id found h

/-- Modelled from the spec: `Board::add`, which keeps versions monotone. -/
def add (board : Board) (job : Job) : Except BoardError Board :=
  match board.jobs.lookup job.id with
  | some existing =>
    if existing.version < job.version then .ok (board.insert job)
    else if existing.version = job.version then .ok board
    else .error .outOfOrder
  | none => .ok (board.insert job)

/-- Modelled from the spec: `Board::wait_for`; legal for an id the board does
not hold yet. -/
def waitFor (_board : Board) (job : Job) : Waiter := ⟨job.id⟩

/-- Modelled from the spec: how the runtime applies a version that arrives
from the peer.  An out-of-order version is dropped. -/
def receive (board : Board) (job : Job) : Board :=
  match board.add job with
  | .ok board => board
  | .error _ => board

/-- The versions that arrive from the peer, applied in order. -/
def receiveAll (board : Board) (jobs : List Job) : Board := jobs.foldl receive board

@[simp]
theorem lookup_insert_self (board : Board) (job : Job) :
    (board.insert job).jobs.lookup job.id = some job :=
  AList.lookup_insert _

@[simp]
theorem lookup_insert_of_ne {board : Board} {job : Job} {id : Uuid} (h : id ≠ job.id) :
    (board.insert job).jobs.lookup id = board.jobs.lookup id :=
  AList.lookup_insert_ne h

/-- What `add` can do: file the job, or leave the board as it was. -/
theorem add_eq_ok {board board' : Board} {job : Job} (h : board.add job = .ok board') :
    board' = board.insert job ∨ board' = board := by
  unfold add at h
  split at h
  · split_ifs at h <;> cases h
    · exact .inl rfl
    · exact .inr rfl
  · cases h; exact .inl rfl

theorem add_of_lookup_eq_none {board : Board} {job : Job} (h : board.jobs.lookup job.id = none) :
    board.add job = .ok (board.insert job) := by
  simp [add, h]

theorem lookup_add_of_ne {board board' : Board} {job : Job} {id : Uuid}
    (hadd : board.add job = .ok board') (h : id ≠ job.id) :
    board'.jobs.lookup id = board.jobs.lookup id := by
  rcases add_eq_ok hadd with rfl | rfl
  · exact lookup_insert_of_ne h
  · rfl

/-- Receiving a version of one job leaves every other job where it was. -/
theorem lookup_receive_of_ne {board : Board} {job : Job} {id : Uuid} (h : id ≠ job.id) :
    (board.receive job).jobs.lookup id = board.jobs.lookup id := by
  unfold receive
  split
  · exact lookup_add_of_ne ‹_› h
  · rfl

theorem lookup_receiveAll_of_ne {board : Board} {jobs : List Job} {id : Uuid}
    (h : ∀ job ∈ jobs, job.id ≠ id) :
    (board.receiveAll jobs).jobs.lookup id = board.jobs.lookup id := by
  induction jobs generalizing board with
  | nil => rfl
  | cons job jobs ih =>
    simp only [receiveAll, List.foldl_cons] at ih ⊢
    rw [ih fun j hj => h j (List.mem_cons_of_mem _ hj),
      lookup_receive_of_ne (h job (List.mem_cons_self _ _)).symm]

end Board

namespace Waiter

/-- What the waiter resolves to on `board`: the job it waits on, once that job
is terminal. -/
def result (waiter : Waiter) (board : Board) : Option Job :=
  match board.jobs.lookup waiter.id with
  | some job => if job.state = .pending then none else some job
  | none => none

/-- Versions of other jobs never move a waiter. -/
theorem result_receiveAll {waiter : Waiter} {board : Board} {jobs : List Job}
    (h : ∀ job ∈ jobs, job.id ≠ waiter.id) :
    waiter.result (board.receiveAll jobs) = waiter.result board := by
  simp only [result, Board.lookup_receiveAll_of_ne h]

end Waiter

end OpenPortal
