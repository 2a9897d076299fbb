import CraneTracker.Worker.Main

/-!
# The work that is left for the worker

Whatever a turn of the worker meets, it leaves no more to do than there was (`workLeft`): a claim uses up
an attempt, and only the reaper adds a job, for a photo that it takes. A job or photo that a turn has
processed, and recorded, is work done. So a worker whose status writes succeed does not go on for ever
about the same jobs (`main_loop_bounded`).
-/

namespace CraneTracker.PhotoJobs

open Interleaving Pipeline Table

/-! ## The work that is left -/

/-- How often the job may still be claimed, when each outcome is recorded. -/
def claimsLeft (cfg : Settings) (job : OutboxJob) : ℕ :=
  if job.status = .pending ∨ job.status = .processing then max 1 (cfg.max_worker_attempts - job.attempts)
  else 0

/-- The work that a pending photo will make: the reaper, and then the worker. -/
def photoWork (cfg : Settings) (photo : CranePhoto) : ℕ :=
  if photo.status = .pendingUpload then max 1 cfg.max_worker_attempts + 1 else 0

/-- How much there is to process at most, when each outcome is recorded. -/
def workLeft (cfg : Settings) (s : Store) : ℕ :=
  (s.jobs.map (claimsLeft cfg)).sum + (s.photos.map (photoWork cfg)).sum

section Job

variable {cfg : Settings} {job row : OutboxJob} {now : Timestamp} {h : Handling}

/-- A job has work left as long as it is not finished. -/
theorem claimsLeft_eq_zero : claimsLeft cfg job = 0 ↔ Finished job := by
  unfold claimsLeft Finished
  cases job.status <;> simp

/-- A claimed job was open. -/
theorem claimsLeft_of_claimable (hclaimable : job.claimable .delete now = true) :
    claimsLeft cfg job = max 1 (cfg.max_worker_attempts - job.attempts) := by
  rcases (OutboxJob.claimable_iff.1 hclaimable).2 with ⟨hstatus, -⟩ | ⟨hstatus, -⟩
  · exact if_pos (Or.inl hstatus)
  · exact if_pos (Or.inr hstatus)

/-- A claim leaves no more to do. -/
theorem claimsLeft_claim_le (hclaimable : job.claimable .delete now = true) :
    claimsLeft cfg (job.claim cfg now) ≤ claimsLeft cfg job := by
  rw [claimsLeft_of_claimable hclaimable]
  have hclaim : claimsLeft cfg (job.claim cfg now) =
      max 1 (cfg.max_worker_attempts - (job.attempts + 1)) := if_pos (Or.inr rfl)
  rw [hclaim]
  omega

/-- What a status write may leave of the row that it has read. -/
inductive Written (cfg : Settings) (h : Handling) (row : OutboxJob) : OutboxJob → Prop
  /-- The write fails. -/
  | lost (hlost : h.dbError = true ∨ ∃ err_str effect, h.result = .error err_str effect ∧
      fitsVarchar lastErrorWidth err_str = false) : Written cfg h row row
  | success : Written cfg h row (CraneTracker.captureSuccess h.now row row)
  | failure (err_str : String) : Written cfg h row (CraneTracker.captureFailure cfg h.now
      (calculateBackoff cfg row.attempts h.uniform) err_str row row)

theorem written_writtenRow (cfg : Settings) (h : Handling) (row : OutboxJob) :
    Written cfg h row (writtenRow cfg h row) := by
  cases hdb : h.dbError with
  | true =>
    rw [writtenRow, if_pos hdb]
    exact .lost (Or.inl hdb)
  | false =>
    cases hres : h.result with
    | deleted =>
      rw [writtenRow_deleted hdb hres]
      exact .success
    | error err_str effect =>
      rw [writtenRow_error hdb hres]
      split_ifs with hfits
      · exact .failure err_str
      · exact .lost (Or.inr ⟨err_str, effect, hres, by simpa using hfits⟩)

/-- The status that a recorded failure leaves. -/
theorem status_captureFailure {backoff : ℤ} {err_str : String} :
    (CraneTracker.captureFailure cfg now backoff err_str row row).status = failureStatus cfg row :=
  assign_self _ _

/-- A recorded outcome of a claim is work done. -/
theorem claimsLeft_written_lt (hclaimable : job.claimable .delete now = true)
    (hdb : h.dbError = false) (hstored : ∀ err_str effect, h.result = .error err_str effect →
      fitsVarchar lastErrorWidth err_str = true) :
    claimsLeft cfg (writtenRow cfg h (job.claim cfg now)) < claimsLeft cfg job := by
  rw [claimsLeft_of_claimable hclaimable]
  have hwritten := written_writtenRow cfg h (job.claim cfg now)
  generalize writtenRow cfg h (job.claim cfg now) = row at hwritten
  cases hwritten with
  | lost hlost =>
    rcases hlost with hlost | ⟨err_str, effect, hres, hfits⟩
    · rw [hdb] at hlost
      cases hlost
    · rw [hstored err_str effect hres] at hfits
      cases hfits
  | success =>
    have hzero : claimsLeft cfg (CraneTracker.captureSuccess h.now (job.claim cfg now)
        (job.claim cfg now)) = 0 := claimsLeft_eq_zero.2 (Or.inl rfl)
    rw [hzero]
    omega
  | failure err_str =>
    unfold claimsLeft
    rw [status_captureFailure]
    unfold failureStatus
    show (if _ then max 1 (cfg.max_worker_attempts - (job.attempts + 1)) else 0) < _
    by_cases hlt : (job.claim cfg now).attempts < cfg.max_worker_attempts
    · have hattempts : job.attempts + 1 < cfg.max_worker_attempts := hlt
      rw [if_pos hlt, if_pos (Or.inl rfl)]
      omega
    · rw [if_neg hlt, if_neg (by simp)]
      omega

/-- A status write leaves no more to do. -/
theorem claimsLeft_written_le (hclaimable : job.claimable .delete now = true) :
    claimsLeft cfg (writtenRow cfg h (job.claim cfg now)) ≤ claimsLeft cfg job := by
  by_cases hlost : h.dbError = true ∨ ∃ err_str effect, h.result = .error err_str effect ∧
      fitsVarchar lastErrorWidth err_str = false
  · have hrow : writtenRow cfg h (job.claim cfg now) = job.claim cfg now := by
      rcases hlost with hdb | ⟨err_str, effect, hres, hfits⟩
      · rw [writtenRow, if_pos hdb]
      · cases hdb : h.dbError with
        | true => rw [writtenRow, if_pos hdb]
        | false => rw [writtenRow_error hdb hres, if_neg (by rw [hfits]; exact Bool.false_ne_true)]
    rw [hrow]
    exact claimsLeft_claim_le hclaimable
  · push Not at hlost
    exact (claimsLeft_written_lt hclaimable (by simpa using hlost.1)
      fun err_str effect hres => by simpa using hlost.2 err_str effect hres).le

end Job

/-! ## What a batch does to a job -/

/-- What a batch does to the row `job`. -/
inductive BatchRow (cfg : Settings) (w : BatchWorld) (s : Store) (job : OutboxJob) : OutboxJob → Prop
  /-- The batch does not claim it. -/
  | kept (hnot : w.claimError = true ∨ job ∉ w.claimed cfg s) : BatchRow cfg w s job job
  /-- The batch claims it, and the loop does not come to it. -/
  | left (hclaimed : job ∈ w.claimed cfg s) (hnot : job ∉ w.done cfg s) :
      BatchRow cfg w s job (job.claim cfg w.now)
  /-- The loop comes to it. -/
  | done (hdone : job ∈ w.done cfg s) :
      BatchRow cfg w s job (writtenRow cfg (w.handling job.id) (job.claim cfg w.now))

section Batch

variable {cfg : Settings} {w : BatchWorld} {s : Store} {job : OutboxJob}

/-- What a batch does to a job, when nobody removes jobs. -/
theorem batchRow (hrem : ∀ i, (w.handling i).removed = false)
    (hunique : KeyUnique OutboxJob.id s.jobs) (hjob : job ∈ s.jobs) :
    ∃ row, (runDeleteBatch cfg w s).store.job job.id = some row ∧ BatchRow cfg w s job row := by
  have hrow : s.job job.id = some job := row_of_mem hunique hjob
  cases hclaim : w.claimError with
  | true =>
    rw [runDeleteBatch_of_claimError hclaim]
    exact ⟨job, hrow, .kept (Or.inl hclaim)⟩
  | false =>
    by_cases hclaimed : job ∈ w.claimed cfg s
    · by_cases hdone : job ∈ w.done cfg s
      · refine ⟨_, ?_, .done hdone⟩
        rw [job_of_done hunique hclaim hdone, recordedRow, hrem, if_neg Bool.false_ne_true]
      · refine ⟨_, ?_, .left hclaimed hdone⟩
        -- Ids are unique, so no other job that the loop comes to has this one.
        have hid : job.id ∉ (w.done cfg s).map OutboxJob.id := by
          intro hmem
          obtain ⟨job', hjob', heq⟩ := List.mem_map.1 hmem
          have hmem' := (mem_of_claimed (claimed_of_done hjob')).1
          exact hdone (List.inj_on_of_nodup_map hunique hmem' hjob heq ▸ hjob')
        rw [job_runDeleteBatch hunique hclaim, if_neg hid, job_afterClaim_of_mem hunique hclaimed]
    · exact ⟨job, job_runDeleteBatch_of_not_claimed hunique hjob hclaimed, .kept (Or.inr hclaimed)⟩

/-- The jobs after a batch are rows of it. -/
theorem batchRow_of_mem (hrem : ∀ i, (w.handling i).removed = false)
    (hunique : KeyUnique OutboxJob.id s.jobs) {row : OutboxJob}
    (hrow : row ∈ (runDeleteBatch cfg w s).store.jobs) :
    ∃ job ∈ s.jobs, BatchRow cfg w s job row := by
  have hbatched : Batched s (runDeleteBatch cfg w s).store := batched_runDeleteBatch hrem
  have hids := hbatched.ids
  have hmem : row.id ∈ s.jobs.map OutboxJob.id := hids ▸ List.mem_map_of_mem hrow
  obtain ⟨job, hjob, hid⟩ := List.mem_map.1 hmem
  obtain ⟨row', hrow', hbatch⟩ : ∃ row', (runDeleteBatch cfg w s).store.job job.id = some row' ∧
      BatchRow cfg w s job row' := batchRow hrem hunique hjob
  have hunique' : KeyUnique OutboxJob.id (runDeleteBatch cfg w s).store.jobs := by
    rwa [KeyUnique, hids]
  rw [hid] at hrow'
  obtain rfl : row = row' := Option.some.inj ((row_of_mem hunique' hrow).symm.trans hrow')
  exact ⟨job, hjob, hbatch⟩

/-- A batch leaves no more to do with a job. -/
theorem BatchRow.claimsLeft_le {row : OutboxJob} (h : BatchRow cfg w s job row) :
    claimsLeft cfg row ≤ claimsLeft cfg job := by
  cases h with
  | kept => exact le_rfl
  | left hclaimed => exact claimsLeft_claim_le (mem_of_claimed hclaimed).2
  | done hdone => exact claimsLeft_written_le (mem_of_claimed (claimed_of_done hdone)).2

/-- A batch makes no photo more work. -/
theorem photoWork_runDeleteBatch_le (hrem : ∀ i, (w.handling i).removed = false) :
    ((runDeleteBatch cfg w s).store.photos.map (photoWork cfg)).sum ≤
      (s.photos.map (photoWork cfg)).sum :=
  ((batched_runDeleteBatch hrem).photos.map _).sum_le_sum fun _ _ => Nat.zero_le _

/-- A batch leaves no more to do. -/
theorem workLeft_runDeleteBatch_le (hrem : ∀ i, (w.handling i).removed = false)
    (hunique : KeyUnique OutboxJob.id s.jobs) :
    workLeft cfg (runDeleteBatch cfg w s).store ≤ workLeft cfg s := by
  have hbatched : Batched s (runDeleteBatch cfg w s).store := batched_runDeleteBatch hrem
  have hunique' : KeyUnique OutboxJob.id (runDeleteBatch cfg w s).store.jobs := by
    rwa [KeyUnique, hbatched.ids]
  have hjobs : ((runDeleteBatch cfg w s).store.jobs.map (claimsLeft cfg)).sum ≤
      (s.jobs.map (claimsLeft cfg)).sum := by
    rw [sum_map_row hunique' hbatched.ids]
    refine List.sum_le_sum fun job hjob => ?_
    obtain ⟨row, hrow, hbatch⟩ := batchRow hrem hunique hjob
    have hlookup : Table.row OutboxJob.id (runDeleteBatch cfg w s).store.jobs job.id = some row := hrow
    rw [hlookup]
    exact hbatch.claimsLeft_le
  exact add_le_add hjobs (photoWork_runDeleteBatch_le hrem)

/-- What a batch has processed and recorded is done. -/
theorem workLeft_runDeleteBatch_add_le (hrem : ∀ i, (w.handling i).removed = false)
    (hdb : ∀ i, (w.handling i).dbError = false)
    (hstored : ∀ i err_str effect, (w.handling i).result = .error err_str effect →
      fitsVarchar lastErrorWidth err_str = true)
    (hunique : KeyUnique OutboxJob.id s.jobs) :
    workLeft cfg (runDeleteBatch cfg w s).store + (runDeleteBatch cfg w s).processed_jobs ≤
      workLeft cfg s := by
  cases hclaim : w.claimError with
  | true =>
    rw [runDeleteBatch_of_claimError hclaim]
    exact le_rfl
  | false =>
    have hbatched : Batched s (runDeleteBatch cfg w s).store := batched_runDeleteBatch hrem
    have hunique' : KeyUnique OutboxJob.id (runDeleteBatch cfg w s).store.jobs := by
      rwa [KeyUnique, hbatched.ids]
    have hnodup : (w.done cfg s).Nodup :=
      (nodup_claimed hunique).of_map.sublist (List.takeWhile_sublist _)
    have hjobs : ((runDeleteBatch cfg w s).store.jobs.map (claimsLeft cfg)).sum +
        (w.done cfg s).length * 1 ≤ (s.jobs.map (claimsLeft cfg)).sum := by
      rw [sum_map_row hunique' hbatched.ids]
      refine sum_map_add_mul_le hnodup
        (fun job hjob => (mem_of_claimed (claimed_of_done hjob)).1) (fun job hjob => ?_)
        fun job hjob => ?_
      · obtain ⟨row, hrow, hbatch⟩ := batchRow hrem hunique hjob
        have hlookup : Table.row OutboxJob.id (runDeleteBatch cfg w s).store.jobs job.id =
          some row := hrow
        rw [hlookup]
        exact hbatch.claimsLeft_le
      · have hlookup : Table.row OutboxJob.id (runDeleteBatch cfg w s).store.jobs job.id =
            some (writtenRow cfg (w.handling job.id) (job.claim cfg w.now)) := by
          have hrow := job_of_done hunique hclaim hjob
          rwa [recordedRow, hrem, if_neg Bool.false_ne_true] at hrow
        rw [hlookup]
        exact claimsLeft_written_lt (mem_of_claimed (claimed_of_done hjob)).2 (hdb _) (hstored _)
    have hphotos : ((runDeleteBatch cfg w s).store.photos.map (photoWork cfg)).sum ≤
        (s.photos.map (photoWork cfg)).sum := photoWork_runDeleteBatch_le hrem
    rw [processed_runDeleteBatch hclaim]
    unfold workLeft
    omega

end Batch

/-! ## What the reaper does -/

section Reap

variable {cfg : Settings} {w : ReapWorld} {s s' : Store} {n : ℕ} {moved : List CranePhoto}
  {new : List OutboxJob}

/-- The jobs that the reaper inserts are new ones. -/
theorem Reaped.new_eq (hreaped : Reaped cfg w s s' moved new)
    (h : reapTransaction cfg w s = some (n, s')) :
    ∀ job ∈ new, ∃ id storage_key, job = createTask w.now id .delete storage_key := by
  have hjobs : s.jobs ++ new = s'.jobs := by rw [hreaped.store]
  rw [(reapTransaction_eq_some h).2] at hjobs
  have heq := List.append_cancel_left hjobs
  intro job hjob
  rw [heq] at hjob
  obtain ⟨x, -, rfl⟩ := List.mem_map.1 hjob
  exact ⟨x.2, x.1.storage_key, rfl⟩

/-- What the reaper has moved is done: of the work that a photo makes, it leaves that of the job. -/
theorem workLeft_runReapCranePhotos_add_le (hunique : KeyUnique CranePhoto.id s.photos) :
    workLeft cfg (runReapCranePhotos cfg w s).2 + (runReapCranePhotos cfg w s).1 ≤ workLeft cfg s := by
  unfold runReapCranePhotos
  cases hrun : reapTransaction cfg w s with
  | none => exact le_rfl
  | some r =>
    obtain ⟨n, s'⟩ := r
    obtain ⟨hn, new, hreaped⟩ := reaped hunique hrun
    show workLeft cfg s' + n ≤ workLeft cfg s
    have hnew : (new.map (claimsLeft cfg)).sum = n * max 1 cfg.max_worker_attempts := by
      have hlength : new.length = n := by
        have hkeys := congrArg List.length hreaped.keys
        rwa [List.length_map, List.length_map, ← hn] at hkeys
      rw [← hlength, ← List.length_map (claimsLeft cfg), ← smul_eq_mul]
      refine List.sum_eq_card_nsmul _ _ fun k hk => ?_
      obtain ⟨job, hjob, rfl⟩ := List.mem_map.1 hk
      obtain ⟨id, storage_key, rfl⟩ := hreaped.new_eq hrun job hjob
      exact if_pos (Or.inl rfl)
    have hphotos : (s'.photos.map (photoWork cfg)).sum + n * (max 1 cfg.max_worker_attempts + 1) ≤
        (s.photos.map (photoWork cfg)).sum := by
      -- A photo that is moved was pending, and no longer is.
      have hmarked : ∀ photo, photoWork cfg (markPendingDelete photo) = 0 := fun _ => if_neg nofun
      rw [hn, show s'.photos = s.photos.map fun photo => if photo ∈ w.photos cfg s then
        markPendingDelete photo else photo by rw [hreaped.store], List.map_map]
      refine sum_map_add_mul_le hreaped.nodup
        (fun photo hphoto => List.mem_of_mem_filter (hreaped.overdue photo hphoto))
        (fun photo _ => ?_) fun photo hphoto => ?_
      · show photoWork cfg (if photo ∈ w.photos cfg s then markPendingDelete photo else photo) ≤ _
        split_ifs
        · rw [hmarked]
          exact Nat.zero_le _
        · exact le_rfl
      · show photoWork cfg (if photo ∈ w.photos cfg s then markPendingDelete photo else photo) + _ ≤ _
        rw [if_pos hphoto, hmarked, photoWork, if_pos (hreaped.pending photo hphoto), Nat.zero_add]
    have hjobs : s'.jobs = s.jobs ++ new := by rw [hreaped.store]
    unfold workLeft
    rw [hjobs, List.map_append, List.sum_append, hnew]
    rw [Nat.mul_succ] at hphotos
    omega

end Reap

/-! ## Turns -/

/-- Every status write of the turn that is come to succeeds, which the text of an exception allows. -/
structure Turn.Records (t : Turn) : Prop where
  dbError : ∀ i, (t.batch.handling i).dbError = false
  stored : ∀ i err_str effect, (t.batch.handling i).result = .error err_str effect →
    fitsVarchar lastErrorWidth err_str = true
  escape : ∀ k, t.escape ≠ some (.record k)

/-- The turns `ts` may come next at `s`: the pipeline reaches the state, nobody else is in the middle of a
transaction, nobody removes jobs, and the clock does not go back. -/
def MayFollow (cfg : Settings) (ts : List Turn) (s : Store) : Prop :=
  ∃ c p, Reachable cfg c ∧ Resting p c ∧ c.shared.store = s ∧ (∀ t ∈ ts, t.Alone) ∧ InOrder cfg ts s

section Turn

variable {cfg : Settings} {t : Turn} {ts : List Turn} {s : Store}

theorem MayFollow.consistent (h : MayFollow cfg ts s) : s.Consistent := by
  obtain ⟨c, p, hc, -, rfl, -⟩ := h
  exact hc.consistent

theorem MayFollow.alone (h : MayFollow cfg (t :: ts) s) : t.Alone := by
  obtain ⟨c, p, -, -, -, halone, -⟩ := h
  exact halone t List.mem_cons_self

/-- The other turns may come next after the first one. -/
theorem MayFollow.next (h : MayFollow cfg (t :: ts) s) : MayFollow cfg ts (t.run cfg s).2 := by
  obtain ⟨c, p, hc, hp, rfl, halone, hord⟩ := h
  have hnext := Turn.reachable hc hp.idle (hp.locks hc) (halone t List.mem_cons_self) hord.1
  exact ⟨_, p, hnext, hp.next _, rfl, fun t' ht' => halone t' (List.mem_cons_of_mem t ht'), hord.2⟩

/-- The loop goes on until `shutdown` is set. -/
theorem mainLoop_of_shutdown (h : t.shutdown = true) : mainLoop cfg (t :: ts) s = ([], s) := by
  rw [mainLoop, if_pos h]

theorem mainLoop_of_not_shutdown (h : t.shutdown = false) : mainLoop cfg (t :: ts) s =
    ((t.run cfg s).1 :: (mainLoop cfg ts (t.run cfg s).2).1, (mainLoop cfg ts (t.run cfg s).2).2) := by
  rw [mainLoop, if_neg (by rw [h]; exact Bool.false_ne_true)]

/-- A turn leaves no more to do. -/
theorem Turn.workLeft_run_le (ht : t.Alone) (hs : s.Consistent) :
    workLeft cfg (t.run cfg s).2 ≤ workLeft cfg s := by
  have hbatch {w : BatchWorld} (hrem : ∀ i, (w.handling i).removed = false) :
      workLeft cfg (runDeleteBatch cfg w s).store ≤ workLeft cfg s :=
    workLeft_runDeleteBatch_le hrem hs.job_unique
  have hstep := t.step_run cfg s
  generalize t.run cfg s = r at hstep
  cases hstep with
  | raised => exact le_rfl
  | interrupted k => exact hbatch ht.removed
  | batch => exact hbatch ht.removed
  | runs =>
    have hphotos : (runDeleteBatch cfg t.batch s).store.photos.Sublist s.photos :=
      (batched_runDeleteBatch ht.removed).photos
    have hreap : workLeft cfg (runReapCranePhotos cfg t.reap (runDeleteBatch cfg t.batch s).store).2 + _ ≤
        workLeft cfg (runDeleteBatch cfg t.batch s).store :=
      workLeft_runReapCranePhotos_add_le (hs.photo_unique.sublist (hphotos.map _))
    exact (Nat.le_of_add_right_le hreap).trans (hbatch ht.removed)

/-- What a turn has processed is done, when its status writes succeed. -/
theorem Turn.workLeft_run_add_le (ht : t.Alone) (hr : t.Records) (hs : s.Consistent) :
    workLeft cfg (t.run cfg s).2 + (t.run cfg s).1 ≤ workLeft cfg s := by
  have hbatch : workLeft cfg (runDeleteBatch cfg t.batch s).store +
      (runDeleteBatch cfg t.batch s).processed_jobs ≤ workLeft cfg s :=
    workLeft_runDeleteBatch_add_le ht.removed hr.dbError hr.stored hs.job_unique
  have hstep := t.step_run cfg s
  generalize t.run cfg s = r at hstep
  cases hstep with
  | raised => exact le_rfl
  | interrupted k hescape => exact absurd hescape (hr.escape k)
  | batch => exact hbatch
  | runs =>
    have hphotos : (runDeleteBatch cfg t.batch s).store.photos.Sublist s.photos :=
      (batched_runDeleteBatch ht.removed).photos
    have hreap : workLeft cfg (runReapCranePhotos cfg t.reap (runDeleteBatch cfg t.batch s).store).2 +
        (runReapCranePhotos cfg t.reap (runDeleteBatch cfg t.batch s).store).1 ≤
          workLeft cfg (runDeleteBatch cfg t.batch s).store :=
      workLeft_runReapCranePhotos_add_le (hs.photo_unique.sublist (hphotos.map _))
    have htick : workLeft cfg (t.runs cfg s).2 =
        workLeft cfg (runReapCranePhotos cfg t.reap (runDeleteBatch cfg t.batch s).store).2 := rfl
    have hcount : (t.runs cfg s).1 = (runDeleteBatch cfg t.batch s).processed_jobs +
        (runReapCranePhotos cfg t.reap (runDeleteBatch cfg t.batch s).store).1 := rfl
    rw [htick, hcount]
    omega

/-- The turns leave no more to do. -/
theorem workLeft_mainLoop_le (h : MayFollow cfg ts s) :
    workLeft cfg (mainLoop cfg ts s).2 ≤ workLeft cfg s := by
  induction ts generalizing s with
  | nil => exact le_rfl
  | cons t ts ih =>
    cases hshutdown : t.shutdown with
    | true => rw [mainLoop_of_shutdown hshutdown]
    | false =>
      rw [mainLoop_of_not_shutdown hshutdown]
      exact (ih h.next).trans (t.workLeft_run_le h.alone h.consistent)

/-- What the turns have processed is done, when their status writes succeed. -/
theorem workLeft_mainLoop_add_le (h : MayFollow cfg ts s) (hr : ∀ t ∈ ts, t.Records) :
    workLeft cfg (mainLoop cfg ts s).2 + (mainLoop cfg ts s).1.sum ≤ workLeft cfg s := by
  induction ts generalizing s with
  | nil => exact le_rfl
  | cons t ts ih =>
    cases hshutdown : t.shutdown with
    | true =>
      rw [mainLoop_of_shutdown hshutdown]
      exact le_rfl
    | false =>
      rw [mainLoop_of_not_shutdown hshutdown]
      have hrun : workLeft cfg (t.run cfg s).2 + (t.run cfg s).1 ≤ workLeft cfg s :=
        t.workLeft_run_add_le h.alone (hr t List.mem_cons_self) h.consistent
      have hrest := ih h.next fun t' ht' => hr t' (List.mem_cons_of_mem t ht')
      show workLeft cfg (mainLoop cfg ts (t.run cfg s).2).2 +
        ((t.run cfg s).1 :: (mainLoop cfg ts (t.run cfg s).2).1).sum ≤ workLeft cfg s
      rw [List.sum_cons]
      omega

end Turn

section Bounded

variable {cfg : Settings} {ts : List Turn} {c : State} {p : ℕ}

/-- When nobody else acts during its turns and the clock does not go back, the worker leaves no more to do
than there was, whatever the turns meet, and if its status writes succeed, then it processes no more in all
its turns than there was to do. -/
theorem main_loop_bounded (h : Reachable cfg c) (hp : Resting p c) (halone : ∀ t ∈ ts, t.Alone)
    (hord : InOrder cfg ts c.shared.store) :
    workLeft cfg (mainLoop cfg ts c.shared.store).2 ≤ workLeft cfg c.shared.store ∧
      ((∀ t ∈ ts, t.Records) → workLeft cfg (mainLoop cfg ts c.shared.store).2 +
        (mainLoop cfg ts c.shared.store).1.sum ≤ workLeft cfg c.shared.store) := by
  have hm : MayFollow cfg ts c.shared.store := ⟨c, p, h, hp, rfl, halone, hord⟩
  exact ⟨workLeft_mainLoop_le hm, workLeft_mainLoop_add_le hm⟩

end Bounded

/-- A turn that deletes an object and records it has one thing less to do. -/
theorem main_loop_bounded_retry : (mainLoop {} retryTurns.tail restingState.shared.store).1.sum = 1 ∧
    workLeft {} (mainLoop {} retryTurns.tail restingState.shared.store).2 + 1 ≤
      workLeft {} restingState.shared.store := by
  have hord : InOrder {} retryTurns.tail restingState.shared.store := by
    unfold retryTurns
    exact ⟨⟨by decide +kernel, by decide +kernel⟩, trivial⟩
  have hr : ∀ t ∈ retryTurns.tail, t.Records := by
    intro t ht
    obtain rfl := List.mem_singleton.1 ht
    exact ⟨fun _ => rfl, nofun, nofun⟩
  have hone : (mainLoop {} retryTurns.tail restingState.shared.store).1.sum = 1 := by decide +kernel
  refine ⟨hone, ?_⟩
  rw [← hone]
  exact (main_loop_bounded ⟨0, [1], _, run_restingRun⟩ resting_restingState
    (fun t ht => alone_retryTurns t (List.mem_of_mem_tail ht)) hord).2 hr

end CraneTracker.PhotoJobs
