import CraneTracker.Pipeline.Clocks
import CraneTracker.Pipeline.Timely
import CraneTracker.Worker.Work

/-!
# The worker recovers from whatever has been left behind

An open job is due when its backoff or lease is over, and a turn that begins later than that finds it
(`DueBy`). So a turn that begins late and that nothing disturbs has processed something, unless there is
nothing left (`Turn.settled_of_idle`). As many late turns as there is work settle everything that any
crashes and failures have left behind (`main_loop_recovers`): each job is completed or has failed, and no
photo is pending.
-/

namespace CraneTracker.PhotoJobs

open Interleaving Pipeline Table

/-! ## When the work is due -/

/-- An open job can be claimed from `t` on. -/
structure JobDue (t : Timestamp) (job : OutboxJob) : Prop where
  pending : job.status = .pending → job.available_at ≤ t
  processing : job.status = .processing → ∃ e, job.lease_expires_at = some e ∧ e ≤ t

/-- Whatever there is to do can be done from `t` on. -/
structure DueBy (cfg : Settings) (t : Timestamp) (s : Store) : Prop where
  job : ∀ job ∈ s.jobs, JobDue t job
  photo : ∀ photo ∈ s.photos, photo.status = .pendingUpload →
    photo.added_at + cfg.photo_reaper_delay * 1000 ≤ t

/-- How long a job may have to wait after a turn, at most. -/
def pause (cfg : Settings) : ℤ := max (maxBackoff cfg) (cfg.lock_lease_window * 1000000)

/-- The turn is over by `ended`. -/
structure Turn.Within (t : Turn) : Prop where
  batch : t.batch.now ≤ t.ended
  handling : ∀ i, (t.batch.handling i).now ≤ t.ended
  reap : t.reap.now ≤ t.ended

section Due

variable {cfg : Settings} {t t' now ended : Timestamp} {job row : OutboxJob} {s : Store} {h : Handling}

theorem pause_nonneg (cfg : Settings) : 0 ≤ pause cfg := (le_max_left 0 _).trans (le_max_left _ _)

theorem JobDue.mono (hd : JobDue t job) (hle : t ≤ t') : JobDue t' job where
  pending hstatus := (hd.pending hstatus).trans hle
  processing hstatus := by
    obtain ⟨e, he, hdue⟩ := hd.processing hstatus
    exact ⟨e, he, hdue.trans hle⟩

theorem DueBy.mono (hd : DueBy cfg t s) (hle : t ≤ t') : DueBy cfg t' s where
  job job hjob := (hd.job job hjob).mono hle
  photo photo hphoto hstatus := (hd.photo photo hphoto hstatus).trans hle

/-- A backoff is `MAX_DELAY` at most, or none. -/
theorem calculateBackoff_le_maxBackoff (cfg : Settings) (attempts : ℕ) (uniform : Uniform) :
    calculateBackoff cfg attempts uniform ≤ maxBackoff cfg := by
  have hmem := (uniform.mem
    (min cfg.max_backoff_delay (cfg.min_backoff_delay * 2 ^ attempts) * 1000)).2
  have hle : min cfg.max_backoff_delay (cfg.min_backoff_delay * 2 ^ attempts) ≤
      cfg.max_backoff_delay := min_le_left _ _
  unfold calculateBackoff maxBackoff
  omega

/-- A lease is over after the pause. -/
theorem jobDue_claim (hnow : now ≤ ended) : JobDue (ended + pause cfg) (job.claim cfg now) where
  pending hstatus := by cases hstatus
  processing _ := ⟨_, rfl, add_le_add hnow (le_max_right _ _)⟩

/-- Whatever a status write leaves of a claimed job is due after the pause. -/
theorem jobDue_writtenRow (hnow : now ≤ ended) (hwritten : h.now ≤ ended) :
    JobDue (ended + pause cfg) (writtenRow cfg h (job.claim cfg now)) := by
  have hw := written_writtenRow cfg h (job.claim cfg now)
  generalize writtenRow cfg h (job.claim cfg now) = row at hw
  cases hw with
  | lost => exact jobDue_claim hnow
  | success => exact ⟨nofun, nofun⟩
  | failure err_str =>
    refine ⟨fun _ => ?_, fun hstatus => ?_⟩
    · have hbackoff : calculateBackoff cfg (job.claim cfg now).attempts h.uniform ≤ pause cfg :=
        (calculateBackoff_le_maxBackoff cfg _ _).trans (le_max_left _ _)
      exact add_le_add hwritten hbackoff
    · rw [status_captureFailure, failureStatus] at hstatus
      split_ifs at hstatus

/-- A batch leaves work that is due after the pause. -/
theorem DueBy.runDeleteBatch {w : BatchWorld} (hd : DueBy cfg t s)
    (hrem : ∀ i, (w.handling i).removed = false) (hunique : KeyUnique OutboxJob.id s.jobs)
    (hnow : w.now ≤ ended) (hwritten : ∀ i, (w.handling i).now ≤ ended) :
    DueBy cfg (max t (ended + pause cfg)) (runDeleteBatch cfg w s).store where
  job row hrow := by
    obtain ⟨job, hjob, hbatch⟩ := batchRow_of_mem hrem hunique hrow
    cases hbatch with
    | kept => exact (hd.job row hjob).mono (le_max_left _ _)
    | left => exact (jobDue_claim hnow).mono (le_max_right _ _)
    | done => exact (jobDue_writtenRow hnow (hwritten _)).mono (le_max_right _ _)
  photo photo hphoto hstatus :=
    (hd.photo photo ((batched_runDeleteBatch hrem).photos.subset hphoto) hstatus).trans
      (le_max_left _ _)

/-- The reaper leaves work that is due after the pause. -/
theorem DueBy.runReapCranePhotos {w : ReapWorld} (hd : DueBy cfg t s)
    (hunique : KeyUnique CranePhoto.id s.photos) (hnow : w.now ≤ ended) :
    DueBy cfg (max t (ended + pause cfg)) (runReapCranePhotos cfg w s).2 := by
  unfold PhotoJobs.runReapCranePhotos
  cases hrun : reapTransaction cfg w s with
  | none => exact hd.mono (le_max_left _ _)
  | some r =>
    obtain ⟨n, s'⟩ := r
    obtain ⟨-, new, hreaped⟩ := reaped hunique hrun
    have hjobs : s'.jobs = s.jobs ++ new := by rw [hreaped.store]
    have hphotos : s'.photos = s.photos.map fun photo => if photo ∈ w.photos cfg s then
      markPendingDelete photo else photo := by rw [hreaped.store]
    constructor
    · intro job hjob
      have hmem : job ∈ s.jobs ++ new := hjobs ▸ hjob
      rcases List.mem_append.1 hmem with hold | hnew
      · exact (hd.job job hold).mono (le_max_left _ _)
      · obtain ⟨id, storage_key, rfl⟩ := hreaped.new_eq hrun job hnew
        have hdue : w.now ≤ ended + pause cfg :=
          hnow.trans (le_add_of_nonneg_right (pause_nonneg cfg))
        exact ⟨fun _ => hdue.trans (le_max_right _ _), nofun⟩
    · intro photo hphoto hstatus
      have hmem : photo ∈ s.photos.map fun photo => if photo ∈ w.photos cfg s then
        markPendingDelete photo else photo := hphotos ▸ hphoto
      obtain ⟨photo₀, hphoto₀, rfl⟩ := List.mem_map.1 hmem
      by_cases hmoved : photo₀ ∈ w.photos cfg s
      · rw [if_pos hmoved] at hstatus
        cases hstatus
      · rw [if_neg hmoved] at hstatus ⊢
        exact (hd.photo photo₀ hphoto₀ hstatus).trans (le_max_left _ _)

/-- A turn leaves work that is due after the pause. -/
theorem Turn.dueBy_run {t : Turn} {ready : Timestamp} (hd : DueBy cfg ready s) (ht : t.Alone)
    (hw : t.Within) (hs : s.Consistent) :
    DueBy cfg (max ready (t.ended + pause cfg)) (t.run cfg s).2 := by
  have hstep := t.step_run cfg s
  generalize t.run cfg s = r at hstep
  cases hstep with
  | raised => exact hd.mono (le_max_left _ _)
  | interrupted k => exact hd.runDeleteBatch ht.removed hs.job_unique hw.batch hw.handling
  | batch => exact hd.runDeleteBatch ht.removed hs.job_unique hw.batch hw.handling
  | runs =>
    have hphotos : (PhotoJobs.runDeleteBatch cfg t.batch s).store.photos.Sublist s.photos :=
      (batched_runDeleteBatch ht.removed).photos
    have hbatch := hd.runDeleteBatch ht.removed hs.job_unique hw.batch hw.handling
    have hreap := hbatch.runReapCranePhotos (hs.photo_unique.sublist (hphotos.map _)) hw.reap
    rw [max_assoc, max_self] at hreap
    exact ⟨hreap.job, hreap.photo⟩

end Due

/-! ## A turn that nothing disturbs -/

/-- Nothing disturbs the turn but deletes that fail. -/
structure Turn.Clean (cfg : Settings) (t : Turn) (s : Store) : Prop where
  escape : t.escape = none
  claim : t.batch.claimError = false
  running : ∀ i, (t.batch.handling i).shutdown = false
  dbError : ∀ i, (t.batch.handling i).dbError = false
  stored : ∀ i err_str effect, (t.batch.handling i).result = .error err_str effect →
    fitsVarchar lastErrorWidth err_str = true
  reap : ∃ r, reapTransaction cfg t.reap (runDeleteBatch cfg t.batch s).store = some r

/-- There is nothing to do. -/
structure Settled (s : Store) : Prop where
  job : ∀ job ∈ s.jobs, Finished job
  photo : ∀ photo ∈ s.photos, photo.status ≠ .pendingUpload

/-- The rows and objects are the same. -/
structure SameRows (s s' : Store) : Prop where
  jobs : s'.jobs = s.jobs
  photos : s'.photos = s.photos
  storage : s'.storage = s.storage

section Clean

variable {cfg : Settings} {t : Turn} {s : Store} {ready : Timestamp}

/-- There is nothing to do when no work is left. -/
theorem settled_iff : Settled s ↔ workLeft cfg s = 0 := by
  unfold workLeft
  rw [Nat.add_eq_zero_iff, List.sum_eq_zero_iff, List.sum_eq_zero_iff]
  have hphoto : ∀ photo, photoWork cfg photo = 0 ↔ photo.status ≠ .pendingUpload := by
    intro photo
    unfold photoWork
    split_ifs with hstatus
    · simp [hstatus]
    · simp [hstatus]
  constructor
  · intro h
    refine ⟨fun n hn => ?_, fun n hn => ?_⟩
    · obtain ⟨job, hjob, rfl⟩ := List.mem_map.1 hn
      exact claimsLeft_eq_zero.2 (h.job job hjob)
    · obtain ⟨photo, hmem, rfl⟩ := List.mem_map.1 hn
      exact (hphoto photo).2 (h.photo photo hmem)
  · rintro ⟨hjobs, hphotos⟩
    exact ⟨fun job hjob => claimsLeft_eq_zero.1 (hjobs _ (List.mem_map_of_mem hjob)),
      fun photo hmem => (hphoto photo).1 (hphotos _ (List.mem_map_of_mem hmem))⟩

theorem Turn.Clean.records (h : t.Clean cfg s) : t.Records :=
  ⟨h.dbError, h.stored, fun k => by rw [h.escape]; nofun⟩

theorem Turn.Clean.run_eq (h : t.Clean cfg s) : t.run cfg s = t.runs cfg s := by
  unfold Turn.run
  rw [h.escape]

/-- A batch that claims nothing changes nothing but the clock. -/
theorem sameRows_of_claimed_eq_nil {w : BatchWorld} (h : w.claimError = true ∨ w.claimed cfg s = []) :
    SameRows s (runDeleteBatch cfg w s).store := by
  cases hclaim : w.claimError with
  | true =>
    rw [runDeleteBatch_of_claimError hclaim]
    exact ⟨rfl, rfl, rfl⟩
  | false =>
    have hnil : w.claimed cfg s = [] := h.resolve_left (by rw [hclaim]; exact Bool.false_ne_true)
    rw [runDeleteBatch_of_claimed hclaim, hnil]
    refine ⟨?_, rfl, rfl⟩
    show updateWhere (fun r => r.id ∈ (w.claimed cfg s).map OutboxJob.id) _ s.jobs = s.jobs
    rw [hnil]
    simp [updateWhere]

/-- The reaper, when there is nothing to move, changes nothing. -/
theorem sameRows_of_photos_eq_nil {w : ReapWorld} (h : w.photos cfg s = []) :
    runReapCranePhotos cfg w s = (0, s) := by
  unfold runReapCranePhotos
  cases hrun : reapTransaction cfg w s with
  | none => rfl
  | some r =>
    obtain ⟨n, s'⟩ := r
    obtain ⟨hn, hs'⟩ := reapTransaction_eq_some hrun
    have hsame : s' = s := by
      rw [hs', h]
      exact apply_createDeleteCraneJobs_nil
    rw [hn, h, hsame]
    rfl

/-- A turn that nothing disturbs and that processes nothing has found nothing. -/
theorem Turn.Clean.nothing (h : t.Clean cfg s) (hzero : (t.run cfg s).1 = 0)
    (hunique : KeyUnique CranePhoto.id (runDeleteBatch cfg t.batch s).store.photos) :
    t.batch.claimed cfg s = [] ∧ t.reap.photos cfg (runDeleteBatch cfg t.batch s).store = [] := by
  rw [h.run_eq] at hzero
  have hcount : (runDeleteBatch cfg t.batch s).processed_jobs +
      (runReapCranePhotos cfg t.reap (runDeleteBatch cfg t.batch s).store).1 = 0 := hzero
  obtain ⟨hbatch, hreap⟩ := Nat.add_eq_zero_iff.1 hcount
  constructor
  · rw [processed_runDeleteBatch h.claim, List.length_eq_zero_iff, BatchWorld.done,
      List.takeWhile_eq_self_iff.2 fun job _ => by rw [h.running]; rfl] at hbatch
    exact hbatch
  · obtain ⟨⟨n, s'⟩, hr⟩ := h.reap
    rw [runReapCranePhotos, hr] at hreap
    obtain ⟨hn, -⟩ := reaped hunique hr
    exact List.length_eq_zero_iff.1 (hn.symm.trans hreap)

/-- A turn that nothing disturbs and that processes nothing changes nothing but the clock. -/
theorem Turn.Clean.sameRows (h : t.Clean cfg s) (hzero : (t.run cfg s).1 = 0)
    (hunique : KeyUnique CranePhoto.id (runDeleteBatch cfg t.batch s).store.photos) :
    SameRows s (t.run cfg s).2 := by
  obtain ⟨hclaimed, hphotos⟩ := h.nothing hzero hunique
  have hbatch : SameRows s (runDeleteBatch cfg t.batch s).store :=
    sameRows_of_claimed_eq_nil (Or.inr hclaimed)
  have hreap := sameRows_of_photos_eq_nil hphotos
  rw [h.run_eq, Turn.runs, hreap]
  exact ⟨hbatch.jobs, hbatch.photos, hbatch.storage⟩

/-- A turn that nothing disturbs, that begins when everything is due, and that processes nothing, has
nothing to do. -/
theorem Turn.settled_of_idle (h : t.Clean cfg s) (ht : t.Alone) (hd : DueBy cfg ready s)
    (hsize : 1 ≤ cfg.job_batch_size) (hbatch : ready < t.batch.now) (hreap : ready < t.reap.now)
    (hunique : KeyUnique CranePhoto.id (runDeleteBatch cfg t.batch s).store.photos)
    (hzero : (t.run cfg s).1 = 0) : Settled s := by
  obtain ⟨hclaimed, hphotos⟩ := h.nothing hzero hunique
  have hsame : SameRows s (runDeleteBatch cfg t.batch s).store :=
    sameRows_of_claimed_eq_nil (Or.inr hclaimed)
  have hjobs : s.jobs.filter (OutboxJob.claimable .delete t.batch.now) = [] :=
    t.batch.order.filter_eq_nil hsize (fun r => by rw [ht.batch_locked]; rfl) hclaimed
  have hpending : s.photos.filter (CranePhoto.reapable cfg t.reap.now) = [] := by
    rw [← hsame.photos]
    exact t.reap.order.filter_eq_nil hsize (fun r => by rw [ht.reap_locked]; rfl) hphotos
  constructor
  · intro job hjob
    have hnot := List.filter_eq_nil_iff.1 hjobs job hjob
    rw [OutboxJob.claimable_iff] at hnot
    have hoperation : job.operation = .delete := by
      cases job.operation
      rfl
    cases hstatus : job.status with
    | completed => exact Or.inl hstatus
    | failed => exact Or.inr hstatus
    | pending =>
      have hdue := (hd.job job hjob).pending hstatus
      exact absurd ⟨hoperation, Or.inl ⟨hstatus, hdue.trans_lt hbatch⟩⟩ hnot
    | processing =>
      obtain ⟨e, he, hdue⟩ := (hd.job job hjob).processing hstatus
      exact absurd ⟨hoperation, Or.inr ⟨hstatus, e, he, hdue.trans_lt hbatch⟩⟩ hnot
  · intro photo hphoto hstatus
    have hnot := List.filter_eq_nil_iff.1 hpending photo hphoto
    have hdue := (hd.photo photo hphoto hstatus).trans_lt hreap
    rw [CranePhoto.reapable, hstatus, decide_eq_true rfl, decide_eq_true hdue] at hnot
    exact hnot rfl

/-- A settled state has nothing to claim. -/
theorem Settled.claimed_eq_nil {w : BatchWorld} (h : Settled s) : w.claimed cfg s = [] :=
  List.eq_nil_iff_forall_not_mem.2 fun job hjob =>
    not_claimed_of_finished (h.job job (mem_of_claimed hjob).1) hjob

/-- A settled state has nothing to reap. -/
theorem Settled.photos_eq_nil {w : ReapWorld} (h : Settled s) : w.photos cfg s = [] := by
  refine List.eq_nil_iff_forall_not_mem.2 fun photo hphoto => ?_
  obtain ⟨hmem, hover⟩ := List.mem_filter.1 (mem_overdue hphoto)
  rw [Bool.and_eq_true] at hover
  exact h.photo photo hmem (CranePhoto.status_of_reapable hover.1)

/-- The same rows are settled too. -/
theorem Settled.of_sameRows {s' : Store} (h : Settled s) (hs : SameRows s s') : Settled s' where
  job job hjob := h.job job (hs.jobs ▸ hjob)
  photo photo hphoto := h.photo photo (hs.photos ▸ hphoto)

/-- A turn does nothing in a settled state, whatever it meets. -/
theorem Settled.run (h : Settled s) (t : Turn) :
    (t.run cfg s).1 = 0 ∧ SameRows s (t.run cfg s).2 := by
  have hbatch (w : BatchWorld) : SameRows s (runDeleteBatch cfg w s).store :=
    sameRows_of_claimed_eq_nil (Or.inr h.claimed_eq_nil)
  have hcount (w : BatchWorld) : (runDeleteBatch cfg w s).processed_jobs = 0 := by
    cases hclaim : w.claimError with
    | true => rw [runDeleteBatch_of_claimError hclaim]
    | false =>
      rw [processed_runDeleteBatch hclaim, BatchWorld.done, h.claimed_eq_nil]
      rfl
  have hstep := t.step_run cfg s
  generalize t.run cfg s = r at hstep
  cases hstep with
  | raised => exact ⟨rfl, rfl, rfl, rfl⟩
  | interrupted k => exact ⟨rfl, hbatch _⟩
  | batch => exact ⟨hcount _, hbatch _⟩
  | runs =>
    have hsettled : Settled (runDeleteBatch cfg t.batch s).store := h.of_sameRows (hbatch t.batch)
    have hreap : runReapCranePhotos cfg t.reap (runDeleteBatch cfg t.batch s).store =
        (0, (runDeleteBatch cfg t.batch s).store) := sameRows_of_photos_eq_nil hsettled.photos_eq_nil
    rw [Turn.runs, hreap, hcount]
    exact ⟨rfl, (hbatch t.batch).jobs, (hbatch t.batch).photos, (hbatch t.batch).storage⟩

/-- Turns do nothing in a settled state, whatever they meet. -/
theorem Settled.mainLoop (h : Settled s) (ts : List Turn) :
    (mainLoop cfg ts s).1.sum = 0 ∧ SameRows s (mainLoop cfg ts s).2 := by
  induction ts generalizing s with
  | nil => exact ⟨rfl, rfl, rfl, rfl⟩
  | cons t ts ih =>
    cases hshutdown : t.shutdown with
    | true =>
      rw [mainLoop_of_shutdown hshutdown]
      exact ⟨rfl, rfl, rfl, rfl⟩
    | false =>
      rw [mainLoop_of_not_shutdown hshutdown]
      obtain ⟨hzero, hsame⟩ : (t.run cfg s).1 = 0 ∧ SameRows s (t.run cfg s).2 := h.run t
      obtain ⟨hsum, hrest⟩ := ih (h.of_sameRows hsame)
      refine ⟨?_, hrest.jobs.trans hsame.jobs, hrest.photos.trans hsame.photos,
        hrest.storage.trans hsame.storage⟩
      show ((t.run cfg s).1 :: (PhotoJobs.mainLoop cfg ts (t.run cfg s).2).1).sum = 0
      rw [List.sum_cons, hzero, hsum]

end Clean

/-! ## Enough late turns -/

/-- Of the turns `ts` from `s`, `n` are late: nothing disturbs them, and they begin when the backoffs and
leases of the earlier turns are over. Everything is due at `ready`. -/
inductive LateTurns (cfg : Settings) : Timestamp → List Turn → Store → ℕ → Prop
  | nil (ready : Timestamp) (s : Store) : LateTurns cfg ready [] s 0
  /-- Any turn, whatever it meets. -/
  | other {ready : Timestamp} {t : Turn} {ts : List Turn} {s : Store} {n : ℕ}
      (hshutdown : t.shutdown = false) (hwithin : t.Within)
      (h : LateTurns cfg (max ready (t.ended + pause cfg)) ts (t.run cfg s).2 n) :
      LateTurns cfg ready (t :: ts) s n
  /-- A turn that nothing disturbs, and that processes nothing. -/
  | idle {ready : Timestamp} {t : Turn} {ts : List Turn} {s : Store} {n : ℕ}
      (hshutdown : t.shutdown = false) (hclean : t.Clean cfg s) (hzero : (t.run cfg s).1 = 0)
      (h : LateTurns cfg ready ts (t.run cfg s).2 n) : LateTurns cfg ready (t :: ts) s n
  | late {ready : Timestamp} {t : Turn} {ts : List Turn} {s : Store} {n : ℕ}
      (hshutdown : t.shutdown = false) (hwithin : t.Within) (hclean : t.Clean cfg s)
      (hbatch : ready < t.batch.now) (hreap : ready < t.reap.now)
      (h : LateTurns cfg (max ready (t.ended + pause cfg)) ts (t.run cfg s).2 n) :
      LateTurns cfg ready (t :: ts) s (n + 1)

section Late

variable {cfg : Settings} {ts : List Turn} {s : Store} {ready : Timestamp} {n : ℕ}

/-- As many late turns as there is work settle everything. -/
theorem settled_of_lateTurns (hsize : 1 ≤ cfg.job_batch_size) (h : LateTurns cfg ready ts s n)
    (hm : MayFollow cfg ts s) (hd : DueBy cfg ready s) (hn : workLeft cfg s ≤ n) :
    Settled (mainLoop cfg ts s).2 := by
  induction h with
  | nil ready s => exact settled_iff.2 (Nat.le_zero.1 hn)
  | @other ready t ts s n hshutdown hwithin _ ih =>
    rw [mainLoop_of_not_shutdown hshutdown]
    exact ih hm.next (Turn.dueBy_run hd hm.alone hwithin hm.consistent)
      ((t.workLeft_run_le hm.alone hm.consistent).trans hn)
  | @idle ready t ts s n hshutdown hclean hzero _ ih =>
    rw [mainLoop_of_not_shutdown hshutdown]
    have hphotos : (runDeleteBatch cfg t.batch s).store.photos.Sublist s.photos :=
      (batched_runDeleteBatch hm.alone.removed).photos
    have hsame := hclean.sameRows hzero (hm.consistent.photo_unique.sublist (hphotos.map _))
    refine ih hm.next ⟨?_, ?_⟩ ((t.workLeft_run_le hm.alone hm.consistent).trans hn)
    · rw [hsame.jobs]
      exact hd.job
    · rw [hsame.photos]
      exact hd.photo
  | @late ready t ts s n hshutdown hwithin hclean hbatch hreap _ ih =>
    rw [mainLoop_of_not_shutdown hshutdown]
    refine ih hm.next (Turn.dueBy_run hd hm.alone hwithin hm.consistent) ?_
    have hrun : workLeft cfg (t.run cfg s).2 + (t.run cfg s).1 ≤ workLeft cfg s :=
      t.workLeft_run_add_le hm.alone hclean.records hm.consistent
    by_cases hzero : (t.run cfg s).1 = 0
    · have hphotos : (runDeleteBatch cfg t.batch s).store.photos.Sublist s.photos :=
        (batched_runDeleteBatch hm.alone.removed).photos
      have hsettled : Settled s := Turn.settled_of_idle hclean hm.alone hd hsize hbatch hreap
        (hm.consistent.photo_unique.sublist (hphotos.map _)) hzero
      have hnone : workLeft cfg s = 0 := settled_iff.1 hsettled
      omega
    · omega

end Late

/-- How long anything in the tables may have to wait at most. -/
def maxWait (cfg : Settings) : ℤ := max (pause cfg) (cfg.photo_reaper_delay * 1000)

section Recovery

variable {cfg : Settings} {ts : List Turn} {c : State} {p : ℕ}

/-- After a timely run everything is due in time: a job that is being processed has a lease. -/
theorem dueBy_of_timely (hmax : 1 ≤ cfg.max_worker_attempts) {clock : Timestamp} {cranes : List Uuid}
    {es : List (Event Action)} (htimely : Timely cfg (initial clock cranes) es)
    (hrun : (system cfg).run (initial clock cranes) es = some c) :
    DueBy cfg (c.shared.store.clock + maxWait cfg) c.shared.store := by
  have hreach : Reachable cfg c := ⟨clock, cranes, es, hrun⟩
  have htime := inTime_of_reachable hreach
  have hkept := kept_run hmax htimely hrun
  have hbackoff : maxBackoff cfg ≤ maxWait cfg := (le_max_left _ _).trans (le_max_left _ _)
  have hlease : cfg.lock_lease_window * 1000000 ≤ maxWait cfg :=
    (le_max_right _ _).trans (le_max_left _ _)
  have hdelay : cfg.photo_reaper_delay * 1000 ≤ maxWait cfg := le_max_right _ _
  refine ⟨fun job hjob => ⟨fun _ => ?_, fun hstatus => ?_⟩, fun photo hphoto _ => ?_⟩
  · exact (htime.job (hreach.consistent.job_of_mem hjob)).available.trans
      (add_le_add le_rfl hbackoff)
  · have hrow := hreach.consistent.job_of_mem hjob
    obtain ⟨e, he⟩ := Option.isSome_iff_exists.1 ((hkept.wellFormed.job hrow).processing hstatus).1
    exact ⟨e, he, ((htime.job hrow).lease e he).trans (add_le_add le_rfl hlease)⟩
  · exact add_le_add (htime.photo (hreach.consistent.photo_of_mem hphoto)) hdelay

/-- Whatever requests and workers have left behind in a timely run, a worker settles it when nobody else
is active. Its turns may meet anything, as long as there are as many late ones as there is work. In the
end each job is completed or has failed. The published photos are as they were, each with its object in
storage, and every other photo that is left is marked for deletion, and the job for it has failed. No
further turn does anything, whatever it meets. -/
theorem main_loop_recovers (hmax : 1 ≤ cfg.max_worker_attempts) (hsize : 1 ≤ cfg.job_batch_size)
    {clock : Timestamp} {cranes : List Uuid} {es : List (Event Action)}
    (htimely : Timely cfg (initial clock cranes) es)
    (hrun : (system cfg).run (initial clock cranes) es = some c) (hp : Resting p c)
    (halone : ∀ t ∈ ts, t.Alone) (hord : InOrder cfg ts c.shared.store)
    (hlate : LateTurns cfg (c.shared.store.clock + maxWait cfg) ts c.shared.store
      (workLeft cfg c.shared.store)) :
    let s := (mainLoop cfg ts c.shared.store).2
    (∀ job ∈ s.jobs, job.status = .completed ∨ job.status = .failed) ∧
      activePhotos s = activePhotos c.shared.store ∧
      (∀ photo ∈ s.photos, photo.status = .active ∧ photo.storage_key ∈ s.storage ∨
        photo.status = .pendingDelete ∧
          ∃ job ∈ s.jobs, job.storage_key = photo.storage_key ∧ job.status = .failed) ∧
      ∀ ts', (mainLoop cfg ts' s).1.sum = 0 ∧ SameRows s (mainLoop cfg ts' s).2 := by
  intro s
  have hreach : Reachable cfg c := ⟨clock, cranes, es, hrun⟩
  have hsettled : Settled s := settled_of_lateTurns hsize hlate ⟨c, p, hreach, hp, rfl, halone, hord⟩
    (dueBy_of_timely hmax htimely hrun) le_rfl
  obtain ⟨hafter, hactive, -⟩ := turns_run hreach hp halone hord
  have hs : s.Consistent := hafter.consistent
  refine ⟨hsettled.job, hactive, fun photo hphoto => ?_, fun ts' => hsettled.mainLoop ts'⟩
  have hrow := hs.photo_of_mem hphoto
  cases hstatus : photo.status with
  | active => exact Or.inl ⟨rfl, hs.active_stored hrow hstatus⟩
  | pendingUpload => exact absurd hstatus (hsettled.photo photo hphoto)
  | pendingDelete =>
    obtain ⟨j, job, hjob, hkey, hopen⟩ := hs.photo_job hrow hstatus
    have hmem := mem_of_row hjob
    exact Or.inr ⟨rfl, job, hmem, hkey, (hsettled.job job hmem).resolve_left hopen⟩

end Recovery

/-- A job has two attempts. -/
def twoAttempts : Settings := { max_worker_attempts := 2 }

theorem twoRun_isSome : ((system twoAttempts).run (initial 0 [1]) restingRun).isSome = true := by
  decide +kernel

/-- The state after `restingRun`, when a job has two attempts. -/
def twoState : State := ((system twoAttempts).run (initial 0 [1]) restingRun).get twoRun_isSome

theorem run_twoRun : (system twoAttempts).run (initial 0 [1]) restingRun = some twoState :=
  (Option.some_get twoRun_isSome).symm

/-- A turn at `now` in which each delete fails. -/
def failingTurn (now : Timestamp) (escape : Option Escape) : Turn :=
  ⟨false, ⟨now, false, .insertion OutboxJob.created_at, [],
    fun _ => ⟨false, .error "timeout" false, now, .zero, false, false⟩⟩,
    { reapAlone 10 with now := now }, escape, now⟩

/-- The outcome of the first turn cannot be recorded, and the other two are late. -/
def failingTurns : List Turn :=
  [failingTurn 2 (some (.record 0)), failingTurn 300000003 none, failingTurn 600000004 none]

/-- The worker gives up on a job that it cannot work off, and the published photo stays. -/
theorem main_loop_recovers_failing :
    (∀ job ∈ (mainLoop twoAttempts failingTurns twoState.shared.store).2.jobs,
      job.status = .completed ∨ job.status = .failed) ∧
    activePhotos (mainLoop twoAttempts failingTurns twoState.shared.store).2 =
      activePhotos twoState.shared.store := by
  have htimely : Timely twoAttempts (initial 0 [1]) restingRun :=
    timely_of_clock 2 (by decide +kernel) (by decide +kernel)
  have hp : Resting 1 twoState := resting_of_run run_twoRun (by decide +kernel) (by decide +kernel)
  have halone : ∀ t ∈ failingTurns, t.Alone := by
    intro t ht
    unfold failingTurns at ht
    simp only [List.mem_cons, List.not_mem_nil, or_false] at ht
    rcases ht with rfl | rfl | rfl <;> exact ⟨rfl, rfl, fun _ => rfl⟩
  have hord : InOrder twoAttempts failingTurns twoState.shared.store := by
    unfold failingTurns
    exact ⟨⟨by decide +kernel, by decide +kernel⟩, ⟨by decide +kernel, by decide +kernel⟩,
      ⟨by decide +kernel, by decide +kernel⟩, trivial⟩
  have hstored : ∀ err_str effect, DeleteResult.error "timeout" false = .error err_str effect →
      fitsVarchar lastErrorWidth err_str = true := by
    intro err_str effect heq
    obtain ⟨rfl, -⟩ := DeleteResult.error.inj heq
    decide +kernel
  have hwithin : ∀ now escape, (failingTurn now escape).Within := fun now _ =>
    ⟨le_rfl, fun _ => le_rfl, le_rfl⟩
  have hclean : ∀ now s, (reapTransaction twoAttempts (failingTurn now none).reap
      (runDeleteBatch twoAttempts (failingTurn now none).batch s).store).isSome = true →
        (failingTurn now none).Clean twoAttempts s := fun now s hreap =>
    ⟨rfl, rfl, fun _ => rfl, fun _ => rfl, fun _ => hstored, Option.isSome_iff_exists.1 hreap⟩
  have hwork : workLeft twoAttempts twoState.shared.store = 2 := by decide +kernel
  have hlate : LateTurns twoAttempts (twoState.shared.store.clock + maxWait twoAttempts) failingTurns
      twoState.shared.store (workLeft twoAttempts twoState.shared.store) := by
    rw [hwork]
    exact .other rfl (hwithin _ _) (.late rfl (hwithin _ _) (hclean _ _ (by decide +kernel))
      (by decide +kernel) (by decide +kernel) (.late rfl (hwithin _ _)
        (hclean _ _ (by decide +kernel)) (by decide +kernel) (by decide +kernel) (.nil _ _)))
  obtain ⟨hdone, hactive, -⟩ :=
    main_loop_recovers (by decide) (by decide) htimely run_twoRun hp halone hord hlate
  exact ⟨hdone, hactive⟩

end CraneTracker.PhotoJobs
