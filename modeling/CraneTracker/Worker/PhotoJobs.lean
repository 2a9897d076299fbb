import Mathlib.Algebra.Order.Ring.Int
import CraneTracker.Models

/-!
# The photo worker, statement by statement

`app/worker/photo_jobs.py`: the conditions of its locking queries, and what its writes do to a row.
`Pipeline/System.lean` puts them in the order in which the worker runs them.

The outcome writes `captureFailure` and `captureSuccess` take two rows. `capture_failure` and
`capture_success` read the job with a plain `SELECT`, set attributes on it, and flush. The flush is an
`UPDATE` by primary key of the columns whose new value differs from the value that was read. By then
the row may have changed. So the write is a function of the row that was read and of the row as it is
when the `UPDATE` takes its lock (`assign`).
-/

namespace CraneTracker

/-- `ClaimedJob`. -/
structure ClaimedJob where
  id : Uuid
  operation : JobOperation
  storage_key : String
deriving DecidableEq, Repr

/-- The `ClaimedJob` that `claim_jobs` returns for a job. -/
def OutboxJob.toClaimedJob (job : OutboxJob) : ClaimedJob :=
  ⟨job.id, job.operation, job.storage_key⟩

namespace OutboxJob

/-- The condition of `claim_jobs` in a transaction that began at `now`: the job is pending and due,
or it is processing and its lease has expired. A null lease compares as false. -/
def claimable (operation : JobOperation) (now : Timestamp) (job : OutboxJob) : Bool :=
  job.operation = operation &&
    ((job.status = .pending && job.available_at < now) ||
      (job.status = .processing && job.lease_expires_at.any (· < now)))

/-- What `claim_jobs` sets on each job that it returns. -/
def claim (cfg : Settings) (now : Timestamp) (job : OutboxJob) : OutboxJob :=
  { job with
    status := .processing
    attempts := job.attempts + 1
    lease_expires_at := some (now + cfg.lock_lease_window * 1000000) }

end OutboxJob

/-- `calculate_backoff`: `random.uniform(0, min(MAX_DELAY, MIN_DELAY * 2**attempts))`, in
milliseconds, may return `backoff` microseconds. -/
def backoffInRange (cfg : Settings) (attempts : ℕ) (backoff : ℤ) : Bool :=
  let ceiling := min cfg.max_backoff_delay (cfg.min_backoff_delay * 2 ^ attempts)
  min 0 (ceiling * 1000) ≤ backoff && backoff ≤ max 0 (ceiling * 1000)

/-- What the flush of an assignment does to a column: it is written only when the new value differs
from the value that was read. -/
def assign {α : Type*} [DecidableEq α] (read new current : α) : α :=
  if read = new then current else new

/-- The status that `capture_failure` assigns. -/
def failureStatus (cfg : Settings) (read : OutboxJob) : JobStatus :=
  if read.attempts < cfg.max_worker_attempts then .pending else .failed

/-- The `UPDATE` of `capture_failure` on the row `row`, after reading `read` in a transaction that
began at `now`. -/
def captureFailure (cfg : Settings) (now : Timestamp) (backoff : ℤ) (err_str : String)
    (read row : OutboxJob) : OutboxJob :=
  { row with
    status := assign read.status (failureStatus cfg read) row.status
    -- An SQL expression differs from every value that was read, so its column is always written.
    available_at := now + backoff
    lease_expires_at := assign read.lease_expires_at none row.lease_expires_at
    last_error := assign read.last_error (some err_str) row.last_error }

/-- The `UPDATE` of `capture_success` on the row `row`, after reading `read` in a transaction that
began at `now`. -/
def captureSuccess (now : Timestamp) (read row : OutboxJob) : OutboxJob :=
  { row with
    status := assign read.status .completed row.status
    lease_expires_at := assign read.lease_expires_at none row.lease_expires_at
    completed_at := some now }

/-- The condition of `run_reap_crane_photos` in a transaction that began at `now`. -/
def CranePhoto.reapable (cfg : Settings) (now : Timestamp) (photo : CranePhoto) : Bool :=
  photo.status = .pendingUpload && photo.added_at + cfg.photo_reaper_delay * 1000 < now

section Rows

variable {cfg : Settings} {now : Timestamp} {backoff : ℤ} {err_str : String} {read row : OutboxJob}

@[simp] theorem OutboxJob.claim_status : (row.claim cfg now).status = .processing := rfl

/-- An assignment to a row that is as it was read leaves the new value. -/
@[simp] theorem assign_self {α : Type*} [DecidableEq α] (read new : α) :
    assign read new read = new := by
  unfold assign
  split_ifs with h
  · exact h
  · rfl

/-- A failure is never recorded as a completion. -/
theorem failureStatus_ne_completed (cfg : Settings) (read : OutboxJob) :
    failureStatus cfg read ≠ .completed := by
  unfold failureStatus
  split_ifs <;> simp

/-- A recorded failure leaves the job with the status that `capture_failure` assigns, or with the one
that it had. -/
theorem captureFailure_status :
    (captureFailure cfg now backoff err_str read row).status = failureStatus cfg read ∨
      (captureFailure cfg now backoff err_str read row).status = row.status := by
  unfold captureFailure assign
  dsimp only
  split_ifs
  · exact Or.inr rfl
  · exact Or.inl rfl

/-- A recorded success leaves the job completed, or with the status that it had. -/
theorem captureSuccess_status :
    (captureSuccess now read row).status = .completed ∨
      (captureSuccess now read row).status = row.status := by
  unfold captureSuccess assign
  dsimp only
  split_ifs
  · exact Or.inr rfl
  · exact Or.inl rfl

/-- What the condition of `claim_jobs` says. -/
theorem OutboxJob.claimable_iff {operation : JobOperation} :
    row.claimable operation now = true ↔ row.operation = operation ∧
      ((row.status = .pending ∧ row.available_at < now) ∨
        (row.status = .processing ∧ ∃ t, row.lease_expires_at = some t ∧ t < now)) := by
  simp [OutboxJob.claimable, Option.any_eq_true]

/-- What the condition of `run_reap_crane_photos` says of the status. -/
theorem CranePhoto.status_of_reapable {photo : CranePhoto} (h : photo.reapable cfg now = true) :
    photo.status = .pendingUpload := by
  simp only [CranePhoto.reapable, Bool.and_eq_true, decide_eq_true_eq] at h
  exact h.1

end Rows

end CraneTracker
