import Mathlib.Algebra.Group.Action.Defs
import Mathlib.Algebra.Order.BigOperators.Group.List
import Mathlib.Data.List.TakeWhile
import CraneTracker.Worker.Outcomes

/-!
# The job queue drains

One worker runs `run_delete_batch` again and again, and nothing goes wrong but the deletes
(`Run.Succeeds`). The clock advances by more than `MAX_DELAY` between two runs, so no backoff outlasts
the pause.

`Accounted` ties the row of a job to the calls of `delete_photo` that it has caused: as many as its
attempts, all of them failed as long as it is pending. `remaining` is the number of attempts that a
pending job has left. Each run that finds a pending job lowers the sum over all jobs, so that `n` jobs
are finished after `n * MAX_ATTEMPTS` runs at the latest (`queue_drains`), whichever jobs the batches
take.
-/

namespace CraneTracker.PhotoJobs

open Pipeline Table

/-! ## Runs -/

/-- A run of `run_delete_batch`, and when it is over. -/
structure Run where
  world : BatchWorld
  ended : Timestamp

/-- Nothing goes wrong in the run but deletes: no other worker holds a job, every database write
succeeds, which the text of an exception allows, and nobody shuts the worker down. -/
structure Run.Succeeds (r : Run) : Prop where
  claim : r.world.claimError = false
  locked : r.world.locked = []
  shutdown : ∀ i, (r.world.handling i).shutdown = false
  removed : ∀ i, (r.world.handling i).removed = false
  dbError : ∀ i, (r.world.handling i).dbError = false
  stored : ∀ i err_str effect, (r.world.handling i).result = .error err_str effect →
    fitsVarchar lastErrorWidth err_str = true
  begun : r.world.now ≤ r.ended
  written : ∀ i, (r.world.handling i).now ≤ r.ended

/-- The state, and the calls of `delete_photo` so far. -/
structure Progress where
  store : Store
  calls : List Call

/-- One run. -/
def Progress.run (cfg : Settings) (x : Progress) (r : Run) : Progress :=
  let b := runDeleteBatch cfg r.world x.store
  ⟨b.store, x.calls ++ b.calls⟩

/-- One run after the other. -/
def Progress.runs (cfg : Settings) (x : Progress) (rs : List Run) : Progress :=
  rs.foldl (Progress.run cfg) x

/-- How the calls for a job have ended, in order. -/
def resultsOf (calls : List Call) (job_id : Uuid) : List DeleteResult :=
  (calls.filter fun call => call.job.id = job_id).map Call.result

/-! ## One job -/

/-- The row of a job against the calls that it has caused. A pending job is due at `ready`. -/
inductive Accounted (cfg : Settings) (ready : Timestamp) (job : OutboxJob)
    (results : List DeleteResult) : Prop
  | pending (hstatus : job.status = .pending) (hdue : job.available_at < ready)
      (hlength : results.length = job.attempts) (hattempts : job.attempts < cfg.max_worker_attempts)
      (hfailed : ∀ result ∈ results, result ≠ .deleted)
  | completed (hstatus : job.status = .completed)
      (hlength : results.length ≤ cfg.max_worker_attempts)
      (hlast : results.getLast? = some .deleted)
  | failed (hstatus : job.status = .failed) (hlength : results.length = cfg.max_worker_attempts)
      (hfailed : ∀ result ∈ results, result ≠ .deleted)

/-- The attempts that a job has left. -/
def remaining (cfg : Settings) (job : OutboxJob) : ℕ :=
  if job.status = .pending then cfg.max_worker_attempts - job.attempts else 0

section Job

variable {cfg : Settings} {ready : Timestamp} {job : OutboxJob} {results : List DeleteResult}

/-- A backoff is `MAX_DELAY` at most. -/
theorem calculateBackoff_le (hdelay : 0 ≤ cfg.max_backoff_delay) (attempts : ℕ) (uniform : Uniform) :
    calculateBackoff cfg attempts uniform ≤ cfg.max_backoff_delay * 1000 := by
  have hmem := (uniform.mem
    (min cfg.max_backoff_delay (cfg.min_backoff_delay * 2 ^ attempts) * 1000)).2
  have hle : min cfg.max_backoff_delay (cfg.min_backoff_delay * 2 ^ attempts) ≤
      cfg.max_backoff_delay := min_le_left _ _
  unfold calculateBackoff
  omega

/-- A job that is due stays due. -/
theorem Accounted.mono {ready' : Timestamp} (h : Accounted cfg ready job results)
    (hle : ready ≤ ready') : Accounted cfg ready' job results := by
  cases h with
  | pending hstatus hdue hlength hattempts hfailed =>
    exact .pending hstatus (lt_of_lt_of_le hdue hle) hlength hattempts hfailed
  | completed hstatus hlength hlast => exact .completed hstatus hlength hlast
  | failed hstatus hlength hfailed => exact .failed hstatus hlength hfailed

/-- A job has caused `MAX_ATTEMPTS` calls at most. -/
theorem Accounted.length_le (h : Accounted cfg ready job results) :
    results.length ≤ cfg.max_worker_attempts := by
  cases h with
  | pending _ _ hlength hattempts _ => omega
  | completed _ hlength _ => exact hlength
  | failed _ hlength _ => exact hlength.le

/-- A job is completed exactly when its last call succeeded. -/
theorem Accounted.completed_iff (h : Accounted cfg ready job results) :
    job.status = .completed ↔ results.getLast? = some .deleted := by
  have hnot (hfailed : ∀ result ∈ results, result ≠ .deleted) :
      results.getLast? ≠ some .deleted := fun hlast =>
    hfailed _ (List.mem_of_getLast? hlast) rfl
  cases h with
  | pending hstatus _ _ _ hfailed =>
    rw [hstatus]
    exact iff_of_false nofun (hnot hfailed)
  | completed hstatus _ hlast => exact iff_of_true hstatus hlast
  | failed hstatus _ hfailed =>
    rw [hstatus]
    exact iff_of_false nofun (hnot hfailed)

/-- A job has failed exactly when it has made `MAX_ATTEMPTS` calls and all of them failed. -/
theorem Accounted.failed_iff (h : Accounted cfg ready job results) : job.status = .failed ↔
    results.length = cfg.max_worker_attempts ∧ ∀ result ∈ results, result ≠ .deleted := by
  cases h with
  | pending hstatus _ hlength hattempts _ =>
    rw [hstatus]
    refine iff_of_false nofun fun hc => ?_
    have := hc.1
    omega
  | completed hstatus _ hlast =>
    rw [hstatus]
    exact iff_of_false nofun fun hc => hc.2 _ (List.mem_of_getLast? hlast) rfl
  | failed hstatus hlength hfailed => exact iff_of_true hstatus ⟨hlength, hfailed⟩

/-- A claimed job whose delete returns is completed by it. -/
theorem accounted_captureSuccess {now t : Timestamp} (hlength : results.length = job.attempts)
    (hattempts : job.attempts < cfg.max_worker_attempts) :
    Accounted cfg ready (CraneTracker.captureSuccess t (job.claim cfg now) (job.claim cfg now))
      (results ++ [.deleted]) := by
  have hstatus : (CraneTracker.captureSuccess t (job.claim cfg now) (job.claim cfg now)).status =
      .completed := rfl
  have hlength' : (results ++ [DeleteResult.deleted]).length = job.attempts + 1 := by
    rw [List.length_append, List.length_singleton, hlength]
  exact .completed hstatus (by omega) List.getLast?_concat

/-- A claimed job whose delete raises is put back, or has failed. -/
theorem accounted_captureFailure {now t : Timestamp} {backoff : ℤ} {err_str : String} {effect : Bool}
    (hlength : results.length = job.attempts) (hattempts : job.attempts < cfg.max_worker_attempts)
    (hfailed : ∀ result ∈ results, result ≠ .deleted) (hdue : t + backoff < ready) :
    Accounted cfg ready (CraneTracker.captureFailure cfg t backoff err_str (job.claim cfg now)
      (job.claim cfg now)) (results ++ [.error err_str effect]) := by
  have hlength' : (results ++ [DeleteResult.error err_str effect]).length = job.attempts + 1 := by
    rw [List.length_append, List.length_singleton, hlength]
  have hfailed' : ∀ result ∈ results ++ [.error err_str effect], result ≠ .deleted := by
    intro result hresult
    rcases List.mem_append.1 hresult with hold | hnew
    · exact hfailed result hold
    · rw [List.mem_singleton.1 hnew]
      exact nofun
  have hstatus : (CraneTracker.captureFailure cfg t backoff err_str (job.claim cfg now)
      (job.claim cfg now)).status = failureStatus cfg (job.claim cfg now) := assign_self _ _
  unfold failureStatus at hstatus
  split_ifs at hstatus with hlt
  · exact .pending hstatus hdue hlength' hlt hfailed'
  · have hlast : ¬job.attempts + 1 < cfg.max_worker_attempts := hlt
    exact .failed hstatus (by omega) hfailed'

/-- What a successful status write leaves of a claimed job. -/
theorem accounted_writtenRow {h : Handling} {now ended : Timestamp} (hdelay : 0 ≤ cfg.max_backoff_delay)
    (hdb : h.dbError = false) (hstored : ∀ err_str effect, h.result = .error err_str effect →
      fitsVarchar lastErrorWidth err_str = true) (hwritten : h.now ≤ ended)
    (hlength : results.length = job.attempts) (hattempts : job.attempts < cfg.max_worker_attempts)
    (hfailed : ∀ result ∈ results, result ≠ .deleted) :
    Accounted cfg (ended + cfg.max_backoff_delay * 1000 + 1) (writtenRow cfg h (job.claim cfg now))
      (results ++ [h.result]) := by
  cases hresult : h.result with
  | deleted =>
    rw [writtenRow_deleted hdb hresult]
    exact accounted_captureSuccess hlength hattempts
  | error err_str effect =>
    rw [writtenRow_error hdb hresult, if_pos (hstored err_str effect hresult)]
    have hbackoff : calculateBackoff cfg (job.claim cfg now).attempts h.uniform ≤
        cfg.max_backoff_delay * 1000 := calculateBackoff_le hdelay _ _
    refine accounted_captureFailure hlength hattempts hfailed ?_
    calc h.now + calculateBackoff cfg (job.claim cfg now).attempts h.uniform
        ≤ ended + cfg.max_backoff_delay * 1000 := add_le_add hwritten hbackoff
      _ < ended + cfg.max_backoff_delay * 1000 + 1 := lt_add_one _

/-- A status write on a claimed job lowers what the job has left. -/
theorem remaining_writtenRow {h : Handling} {now : Timestamp} (hstatus : job.status = .pending)
    (hattempts : job.attempts < cfg.max_worker_attempts) :
    remaining cfg (writtenRow cfg h (job.claim cfg now)) < remaining cfg job := by
  have hjob : remaining cfg job = cfg.max_worker_attempts - job.attempts := if_pos hstatus
  have hrow : (writtenRow cfg h (job.claim cfg now)).attempts = job.attempts + 1 := by
    unfold writtenRow
    split_ifs
    · rfl
    · cases h.result with
      | deleted => rfl
      | error err_str effect =>
        dsimp only
        split_ifs <;> rfl
  rw [hjob, remaining, hrow]
  split_ifs <;> omega

end Job

/-! ## One run -/

/-- The state of a queue whose jobs have the ids `ids`, and in which every pending job is due at
`ready`. -/
structure Draining (cfg : Settings) (ids : List Uuid) (ready : Timestamp) (x : Progress) : Prop where
  nodup : ids.Nodup
  ids : x.store.jobs.map OutboxJob.id = ids
  accounted : ∀ job ∈ x.store.jobs, Accounted cfg ready job (resultsOf x.calls job.id)

/-- The attempts that all jobs have left. -/
def total (cfg : Settings) (x : Progress) : ℕ := (x.store.jobs.map (remaining cfg)).sum

section Run

variable {cfg : Settings} {ids : List Uuid} {ready : Timestamp} {x : Progress} {r : Run}
  {job : OutboxJob}

theorem Draining.keyUnique (h : Draining cfg ids ready x) :
    KeyUnique OutboxJob.id x.store.jobs := by
  rw [KeyUnique, h.ids]
  exact h.nodup

/-- Without a shutdown, the loop reaches all jobs. -/
theorem Run.Succeeds.done_eq (hr : r.Succeeds) {s : Store} :
    r.world.done cfg s = r.world.claimed cfg s := by
  refine List.takeWhile_eq_self_iff.2 fun job _ => ?_
  rw [hr.shutdown]
  rfl

/-- A run keeps the job ids. -/
theorem ids_run (hr : r.Succeeds) :
    (x.run cfg r).store.jobs.map OutboxJob.id = x.store.jobs.map OutboxJob.id := by
  have hloop : ∀ (jobs : List ClaimedJob) (b : Batch),
      (deleteJobs cfg r.world.handling jobs b).store.jobs.map OutboxJob.id =
        b.store.jobs.map OutboxJob.id := by
    intro jobs
    induction jobs with
    | nil => exact fun b => rfl
    | cons job jobs ih =>
      intro b
      rw [deleteJobs_of_not_shutdown (hr.shutdown _), ih, ids_handleJob, hr.removed,
        if_neg Bool.false_ne_true]
  show (runDeleteBatch cfg r.world x.store).store.jobs.map OutboxJob.id = _
  rw [runDeleteBatch_of_claimed hr.claim, hloop, ids_afterClaim]

/-- A claimed job is pending: nobody has left a job `PROCESSING`. -/
theorem Draining.pending_of_claimed (h : Draining cfg ids ready x)
    (hjob : job ∈ r.world.claimed cfg x.store) : job.status = .pending := by
  obtain ⟨hmem, hdue⟩ := mem_of_claimed hjob
  have hclaimable := (OutboxJob.claimable_iff.1 hdue).2
  cases h.accounted job hmem with
  | pending hstatus => exact hstatus
  | completed hstatus => rw [hstatus] at hclaimable; simp at hclaimable
  | failed hstatus => rw [hstatus] at hclaimable; simp at hclaimable

/-- The run claims a job if one is pending. -/
theorem Draining.claimed_ne_nil (h : Draining cfg ids ready x) (hr : r.Succeeds)
    (hbatch : 1 ≤ cfg.job_batch_size) (hready : ready ≤ r.world.now) (hjob : job ∈ x.store.jobs)
    (hpending : job.status = .pending) : r.world.claimed cfg x.store ≠ [] := by
  have hdue : job.available_at < r.world.now := by
    cases h.accounted job hjob with
    | pending _ hdue => exact lt_of_lt_of_le hdue hready
    | completed hstatus => rw [hstatus] at hpending; cases hpending
    | failed hstatus => rw [hstatus] at hpending; cases hpending
  have hclaimable : job.claimable .delete r.world.now = true :=
    OutboxJob.claimable_iff.2 ⟨rfl, .inl ⟨hpending, hdue⟩⟩
  have hsorted : job ∈ r.world.order.sort
      (x.store.jobs.filter (OutboxJob.claimable .delete r.world.now)) :=
    (r.world.order.perm _).mem_iff.2 (List.mem_filter.2 ⟨hjob, hclaimable⟩)
  have hrows : job ∈ (r.world.order.sort
      (x.store.jobs.filter (OutboxJob.claimable .delete r.world.now))).filter
        fun row => !r.world.locked.contains row.id := by
    refine List.mem_filter.2 ⟨hsorted, ?_⟩
    rw [hr.locked]
    rfl
  have hpos := List.length_pos_of_mem hrows
  rw [← List.length_pos_iff]
  show 0 < (List.take _ _).length
  rw [List.length_take]
  omega

/-- A call of a run is for a claimed job, and tells how its delete ended. -/
theorem calls_run (hr : r.Succeeds) : (x.run cfg r).calls = x.calls ++
    (r.world.claimed cfg x.store).map fun job =>
      ⟨job.toClaimedJob, (r.world.handling job.id).result⟩ := by
  show x.calls ++ (runDeleteBatch cfg r.world x.store).calls = _
  rw [calls_runDeleteBatch hr.claim, hr.done_eq]

theorem resultsOf_cons {job : ClaimedJob} {result : DeleteResult} {calls : List Call} {i : Uuid} :
    resultsOf (⟨job, result⟩ :: calls) i =
      if job.id = i then result :: resultsOf calls i else resultsOf calls i := by
  unfold resultsOf
  rw [List.filter_cons]
  by_cases hi : job.id = i <;> simp [hi]

/-- A list of distinct jobs has one call for each of them. -/
theorem resultsOf_map {handling : Uuid → Handling} {jobs : List OutboxJob} {i : Uuid}
    (hnodup : (jobs.map OutboxJob.id).Nodup) :
    resultsOf (jobs.map fun job => ⟨job.toClaimedJob, (handling job.id).result⟩) i =
      if i ∈ jobs.map OutboxJob.id then [(handling i).result] else [] := by
  induction jobs with
  | nil => rfl
  | cons job jobs ih =>
    rw [List.map_cons, List.nodup_cons] at hnodup
    have hid : job.toClaimedJob.id = job.id := rfl
    rw [List.map_cons, List.map_cons, resultsOf_cons, ih hnodup.2, hid]
    by_cases hi : job.id = i
    · have hnot : i ∉ jobs.map OutboxJob.id := hi ▸ hnodup.1
      rw [if_pos hi, if_neg hnot, if_pos (hi ▸ List.mem_cons_self), hi]
    · have hmem : i ∈ job.id :: jobs.map OutboxJob.id ↔ i ∈ jobs.map OutboxJob.id := by
        rw [List.mem_cons, or_iff_right (Ne.symm hi)]
      rw [if_neg hi, if_congr hmem rfl rfl]

/-- The results of a job after a run. -/
theorem resultsOf_run (h : Draining cfg ids ready x) (hr : r.Succeeds) {i : Uuid} :
    resultsOf (x.run cfg r).calls i = resultsOf x.calls i ++
      if i ∈ (r.world.claimed cfg x.store).map OutboxJob.id then [(r.world.handling i).result]
      else [] := by
  rw [calls_run hr, ← resultsOf_map (nodup_claimed h.keyUnique)]
  unfold resultsOf
  rw [List.filter_append, List.map_append]

/-- A job that a run does not claim keeps its row. -/
theorem Draining.job_run_of_not_claimed (h : Draining cfg ids ready x) (hr : r.Succeeds)
    (hjob : job ∈ x.store.jobs)
    (hnot : job.id ∉ (r.world.claimed cfg x.store).map OutboxJob.id) :
    (x.run cfg r).store.job job.id = some job := by
  show (runDeleteBatch cfg r.world x.store).store.job job.id = some job
  rw [job_runDeleteBatch h.keyUnique hr.claim, hr.done_eq, if_neg hnot,
    job_afterClaim_of_not_mem hnot]
  exact row_of_mem h.keyUnique hjob

/-- A job that a run claims is written. -/
theorem Draining.job_run_of_claimed (h : Draining cfg ids ready x) (hr : r.Succeeds)
    (hclaimed : job ∈ r.world.claimed cfg x.store) : (x.run cfg r).store.job job.id =
      some (writtenRow cfg (r.world.handling job.id) (job.claim cfg r.world.now)) := by
  have hrow : (x.run cfg r).store.job job.id =
      recordedRow cfg (r.world.handling job.id) (job.claim cfg r.world.now) :=
    job_of_done h.keyUnique hr.claim (hr.done_eq ▸ hclaimed)
  rwa [recordedRow, hr.removed, if_neg Bool.false_ne_true] at hrow

/-- The row of a job after a run, against its calls. -/
theorem Draining.job_run (h : Draining cfg ids ready x) (hr : r.Succeeds)
    (hdelay : 0 ≤ cfg.max_backoff_delay) (hready : ready ≤ r.world.now) (hjob : job ∈ x.store.jobs) :
    ∃ row, (x.run cfg r).store.job job.id = some row ∧
      Accounted cfg (r.ended + cfg.max_backoff_delay * 1000 + 1) row
        (resultsOf (x.run cfg r).calls job.id) ∧
      remaining cfg row ≤ remaining cfg job ∧
      (job ∈ r.world.claimed cfg x.store → remaining cfg row < remaining cfg job) := by
  have haccounted := h.accounted job hjob
  rw [resultsOf_run h hr]
  by_cases hclaimed : job ∈ r.world.claimed cfg x.store
  · rw [if_pos (List.mem_map_of_mem hclaimed)]
    have hpending := h.pending_of_claimed hclaimed
    cases haccounted with
    | pending hstatus _ hlength hattempts hfailed =>
      have hlt : remaining cfg (writtenRow cfg (r.world.handling job.id) (job.claim cfg r.world.now)) <
          remaining cfg job := remaining_writtenRow hstatus hattempts
      refine ⟨_, h.job_run_of_claimed hr hclaimed, ?_, hlt.le, fun _ => hlt⟩
      exact accounted_writtenRow hdelay (hr.dbError _) (hr.stored _) (hr.written _) hlength hattempts
        hfailed
    | completed hstatus => rw [hstatus] at hpending; cases hpending
    | failed hstatus => rw [hstatus] at hpending; cases hpending
  · have hnot : job.id ∉ (r.world.claimed cfg x.store).map OutboxJob.id := by
      intro hmem
      obtain ⟨job', hjob', hid⟩ := List.mem_map.1 hmem
      have heq := List.inj_on_of_nodup_map h.keyUnique (mem_of_claimed hjob').1 hjob hid
      exact hclaimed (heq ▸ hjob')
    rw [if_neg hnot, List.append_nil]
    refine ⟨job, h.job_run_of_not_claimed hr hjob hnot, haccounted.mono ?_, le_rfl,
      fun hc => absurd hc hclaimed⟩
    have hnonneg : 0 ≤ cfg.max_backoff_delay * 1000 + 1 := by omega
    calc ready ≤ r.ended := hready.trans hr.begun
      _ ≤ r.ended + (cfg.max_backoff_delay * 1000 + 1) := le_add_of_nonneg_right hnonneg
      _ = r.ended + cfg.max_backoff_delay * 1000 + 1 := (add_assoc _ _ _).symm

/-- A run leaves a queue that is draining. -/
theorem Draining.run (h : Draining cfg ids ready x) (hr : r.Succeeds)
    (hdelay : 0 ≤ cfg.max_backoff_delay) (hready : ready ≤ r.world.now) :
    Draining cfg ids (r.ended + cfg.max_backoff_delay * 1000 + 1) (x.run cfg r) := by
  have hids : (x.run cfg r).store.jobs.map OutboxJob.id = ids := (ids_run hr).trans h.ids
  refine ⟨h.nodup, hids, fun row hrow => ?_⟩
  have hunique : KeyUnique OutboxJob.id (x.run cfg r).store.jobs := by
    rw [KeyUnique, hids]
    exact h.nodup
  -- The row is that of a job from before the run.
  have hmem : row.id ∈ x.store.jobs.map OutboxJob.id := by
    rw [h.ids, ← hids]
    exact List.mem_map_of_mem hrow
  obtain ⟨job, hjob, hid⟩ := List.mem_map.1 hmem
  obtain ⟨row', hrow', haccounted, -⟩ := h.job_run hr hdelay hready hjob
  rw [hid] at hrow' haccounted
  obtain rfl : row = row' := Option.some.inj ((row_of_mem hunique hrow).symm.trans hrow')
  exact haccounted

/-- A run lowers the attempts that are left, if any are. -/
theorem Draining.total_run (h : Draining cfg ids ready x) (hr : r.Succeeds)
    (hbatch : 1 ≤ cfg.job_batch_size) (hdelay : 0 ≤ cfg.max_backoff_delay)
    (hready : ready ≤ r.world.now) : total cfg (x.run cfg r) ≤ total cfg x - 1 := by
  have hunique : KeyUnique OutboxJob.id (x.run cfg r).store.jobs := by
    rw [KeyUnique, ids_run hr]
    exact h.keyUnique
  have htotal : total cfg (x.run cfg r) = (x.store.jobs.map fun job =>
      ((x.run cfg r).store.job job.id).elim 0 (remaining cfg)).sum := by
    have hrows := congrArg (List.map fun row : Option OutboxJob => row.elim 0 (remaining cfg))
      (map_some_eq hunique (ids_run hr))
    rw [List.map_map, List.map_map] at hrows
    exact congrArg List.sum hrows
  have hle : ∀ job ∈ x.store.jobs,
      ((x.run cfg r).store.job job.id).elim 0 (remaining cfg) ≤ remaining cfg job := by
    intro job hjob
    obtain ⟨row, hrow, -, hle, -⟩ := h.job_run hr hdelay hready hjob
    rw [hrow]
    exact hle
  rw [htotal]
  cases hclaimed : r.world.claimed cfg x.store with
  | nil =>
    -- No job is pending, and nothing is left.
    have hzero : total cfg x = 0 := by
      refine List.sum_eq_zero fun n hn => ?_
      obtain ⟨job, hjob, rfl⟩ := List.mem_map.1 hn
      exact if_neg fun hpending => h.claimed_ne_nil hr hbatch hready hjob hpending hclaimed
    calc _ ≤ total cfg x := List.sum_le_sum hle
      _ = total cfg x - 1 := by rw [hzero]
  | cons job jobs =>
    have hmem : job ∈ r.world.claimed cfg x.store := hclaimed ▸ List.mem_cons_self
    have hjob := (mem_of_claimed hmem).1
    have hlt : ((x.run cfg r).store.job job.id).elim 0 (remaining cfg) < remaining cfg job := by
      obtain ⟨row, hrow, -, -, hlt⟩ := h.job_run hr hdelay hready hjob
      rw [hrow]
      exact hlt hmem
    have hsum : _ < total cfg x := List.sum_lt_sum _ _ hle ⟨job, hjob, hlt⟩
    omega

end Run

/-! ## All runs -/

section Runs

variable {cfg : Settings} {ids : List Uuid} {ready : Timestamp} {x : Progress} {rs : List Run}

/-- The clock advances by more than `MAX_DELAY` between two runs. -/
def Spaced (cfg : Settings) (rs : List Run) : Prop :=
  rs.IsChain fun r r' => r.ended + cfg.max_backoff_delay * 1000 < r'.world.now

/-- What a sequence of runs preserves, and how it lowers the attempts that are left. -/
theorem Draining.runs (h : Draining cfg ids ready x) (hrs : ∀ r ∈ rs, r.Succeeds)
    (hspaced : Spaced cfg rs) (hbatch : 1 ≤ cfg.job_batch_size) (hdelay : 0 ≤ cfg.max_backoff_delay)
    (hready : ∀ r, rs.head? = some r → ready ≤ r.world.now) :
    (∃ ready', Draining cfg ids ready' (x.runs cfg rs)) ∧
      total cfg (x.runs cfg rs) ≤ total cfg x - rs.length := by
  induction rs generalizing x ready with
  | nil => exact ⟨⟨ready, h⟩, le_rfl⟩
  | cons r rs ih =>
    have hr := hrs r List.mem_cons_self
    have hnow := hready r rfl
    obtain ⟨hnext, hspaced'⟩ := List.isChain_cons.1 hspaced
    obtain ⟨hdraining, htotal⟩ := ih (h.run hr hdelay hnow)
      (fun r' hr' => hrs r' (List.mem_cons_of_mem _ hr')) hspaced' hnext
    have hrun := h.total_run hr hbatch hdelay hnow
    refine ⟨hdraining, ?_⟩
    show total cfg ((x.run cfg r).runs cfg rs) ≤ _
    rw [List.length_cons]
    omega

/-- A job that has not been tried and that is due at `now`. -/
structure Fresh (now : Timestamp) (job : OutboxJob) : Prop where
  status : job.status = .pending
  attempts : job.attempts = 0
  due : job.available_at < now

/-- A table of fresh jobs is ready to be drained. -/
theorem draining_of_fresh {s : Store} {now : Timestamp} (hattempts : 1 ≤ cfg.max_worker_attempts)
    (hunique : KeyUnique OutboxJob.id s.jobs) (hfresh : ∀ job ∈ s.jobs, Fresh now job) :
    Draining cfg (s.jobs.map OutboxJob.id) now ⟨s, []⟩ where
  nodup := hunique
  ids := rfl
  accounted job hjob := by
    obtain ⟨hstatus, hzero, hdue⟩ := hfresh job hjob
    refine .pending hstatus hdue hzero.symm ?_ nofun
    omega

/-- A job has at most `MAX_ATTEMPTS` attempts left. -/
theorem total_le : total cfg x ≤ x.store.jobs.length * cfg.max_worker_attempts := by
  have hle : ∀ n ∈ x.store.jobs.map (remaining cfg), n ≤ cfg.max_worker_attempts := by
    intro n hn
    obtain ⟨job, -, rfl⟩ := List.mem_map.1 hn
    unfold remaining
    split_ifs <;> omega
  have hsum := List.sum_le_card_nsmul _ _ hle
  rwa [List.length_map, smul_eq_mul] at hsum

/-- A queue in which nothing is left is finished, and `run_delete_batch` finds nothing in it. -/
theorem Draining.finished (h : Draining cfg ids ready x) (htotal : total cfg x = 0) :
    (∀ job ∈ x.store.jobs, job.status = .completed ∨ job.status = .failed) ∧
      ∀ w, (runDeleteBatch cfg w x.store).processed_jobs = 0 := by
  have hfinished : ∀ job ∈ x.store.jobs, job.status = .completed ∨ job.status = .failed := by
    intro job hjob
    have hzero : remaining cfg job = 0 :=
      List.sum_eq_zero_iff.1 htotal _ (List.mem_map_of_mem hjob)
    cases h.accounted job hjob with
    | pending hstatus _ _ hattempts _ =>
      rw [remaining, if_pos hstatus] at hzero
      omega
    | completed hstatus => exact .inl hstatus
    | failed hstatus => exact .inr hstatus
  refine ⟨hfinished, fun w => ?_⟩
  cases hclaim : w.claimError with
  | true => rw [runDeleteBatch_of_claimError hclaim]
  | false =>
    rw [processed_runDeleteBatch hclaim, List.length_eq_zero_iff, List.eq_nil_iff_forall_not_mem]
    intro job hjob
    obtain ⟨hmem, hdue⟩ := mem_of_claimed (claimed_of_done hjob)
    have hclaimable := (OutboxJob.claimable_iff.1 hdue).2
    rcases hfinished job hmem with hstatus | hstatus <;>
      rw [hstatus] at hclaimable <;> simp at hclaimable

/-- The queue drains. A table of fresh jobs that are due has the same jobs after every sequence of
runs. A job causes at most `MAX_ATTEMPTS` calls of `delete_photo`. It is completed exactly when its
last call succeeded, and has failed exactly when it made `MAX_ATTEMPTS` calls and all of them failed.
After `n * MAX_ATTEMPTS` runs over `n` jobs, each job is completed or has failed, and
`run_delete_batch` returns `0`. -/
theorem queue_drains (cfg : Settings) (hbatch : 1 ≤ cfg.job_batch_size)
    (hattempts : 1 ≤ cfg.max_worker_attempts) (hmin : 0 ≤ cfg.min_backoff_delay)
    (hmax : cfg.min_backoff_delay ≤ cfg.max_backoff_delay) (s : Store)
    (hunique : KeyUnique OutboxJob.id s.jobs) (hfresh : ∀ job ∈ s.jobs, Fresh s.clock job)
    (rs : List Run) (hrs : ∀ r ∈ rs, r.Succeeds) (hspaced : Spaced cfg rs)
    (hstart : ∀ r, rs.head? = some r → s.clock ≤ r.world.now) :
    let x := Progress.runs cfg ⟨s, []⟩ rs
    x.store.jobs.map OutboxJob.id = s.jobs.map OutboxJob.id ∧
    (∀ job ∈ x.store.jobs, (resultsOf x.calls job.id).length ≤ cfg.max_worker_attempts ∧
      (job.status = .completed ↔ (resultsOf x.calls job.id).getLast? = some .deleted) ∧
      (job.status = .failed ↔ (resultsOf x.calls job.id).length = cfg.max_worker_attempts ∧
        ∀ result ∈ resultsOf x.calls job.id, result ≠ .deleted)) ∧
    (s.jobs.length * cfg.max_worker_attempts ≤ rs.length →
      (∀ job ∈ x.store.jobs, job.status = .completed ∨ job.status = .failed) ∧
      ∀ w, (runDeleteBatch cfg w x.store).processed_jobs = 0) := by
  intro x
  obtain ⟨⟨ready, hx⟩, htotal⟩ := (draining_of_fresh hattempts hunique hfresh).runs hrs hspaced
    hbatch (hmin.trans hmax) hstart
  refine ⟨hx.ids, fun job hjob => ?_, fun hlength => hx.finished ?_⟩
  · have haccounted := hx.accounted job hjob
    exact ⟨haccounted.length_le, haccounted.completed_iff, haccounted.failed_iff⟩
  · have hbound : total cfg ⟨s, []⟩ ≤ s.jobs.length * cfg.max_worker_attempts := total_le
    omega

end Runs

/-- Two runs in which the delete of a job fails, with a pause of more than `MAX_DELAY` between them. -/
def failingRuns : List Run :=
  [⟨worldOf (raises "Photo could not be deleted"), 2⟩,
    ⟨{ worldOf (raises "Photo could not be deleted") with now := 60000003 }, 60000003⟩]

/-- A job whose delete fails is finished after two runs if it has two attempts. -/
theorem queue_drains_failing :
    ((Progress.runs { max_worker_attempts := 2 } ⟨storeOf [readyJob 1], []⟩
      failingRuns).store.jobs.all fun job => job.status = .completed ∨ job.status = .failed) = true := by
  have hfresh : ∀ job ∈ (storeOf [readyJob 1]).jobs, Fresh 1 job := by
    intro job hjob
    rw [List.mem_singleton.1 hjob]
    exact ⟨rfl, rfl, by decide⟩
  have hstored : fitsVarchar lastErrorWidth "Photo could not be deleted" = true := by
    decide +kernel
  have hraises : ∀ i err_str effect, (raises "Photo could not be deleted" i).result =
      .error err_str effect → fitsVarchar lastErrorWidth err_str = true := by
    intro i err_str effect hresult
    obtain ⟨rfl, -⟩ := DeleteResult.error.inj hresult
    exact hstored
  have hlate : (2 : ℤ) ≤ 60000003 := by decide
  have hrs : ∀ r ∈ failingRuns, r.Succeeds := by
    intro r hr
    rcases List.mem_pair.1 hr with rfl | rfl
    · exact ⟨rfl, rfl, fun _ => rfl, fun _ => rfl, fun _ => rfl, hraises, by decide,
        fun _ => le_rfl⟩
    · exact ⟨rfl, rfl, fun _ => rfl, fun _ => rfl, fun _ => rfl, hraises, le_rfl,
        fun _ => hlate⟩
  have hspaced : Spaced { max_worker_attempts := 2 } failingRuns :=
    List.isChain_pair.2 (by decide)
  have hstart : ∀ r, failingRuns.head? = some r → (1 : ℤ) ≤ r.world.now := by
    intro r hr
    obtain rfl := Option.some.inj hr
    exact le_rfl
  have hfinished := ((queue_drains { max_worker_attempts := 2 } (by decide) (by decide) (by decide)
    (by decide) (storeOf [readyJob 1]) (List.nodup_singleton _) hfresh failingRuns hrs hspaced
    hstart).2.2 le_rfl).1
  exact List.all_eq_true.2 fun job hjob => decide_eq_true (hfinished job hjob)

end CraneTracker.PhotoJobs
