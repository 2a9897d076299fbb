import CraneTracker.Pipeline.Reports

/-!
# What the clock says of the rows

`func.now()` is the time at which a transaction began, so a row that is written now may carry a time
that has passed, and never one to come (`Proc.began`). The exceptions are meant: a lease and a backoff
lie ahead, but by no more than `LOCK_LEASE_WINDOW` and `MAX_DELAY`. So whatever has been left behind is
due after that much time (`timestamps_bounded`).

The reaper takes photos that are overdue, and nobody else takes a pending one from its request. So an
upload has `PHOTO_REAPER_DELAY` to itself (`upload_window`).
-/

namespace CraneTracker.Pipeline

open Interleaving Table

/-! ## Transactions in progress -/

/-- When the transaction of an upload request began, as far as the request goes by it. -/
def Upload.began : Upload → Option Timestamp
  | .lockCrane now _ => some now
  | .count now _ => some now
  | .insert now _ => some now
  | .abandonFlush now _ _ => some now
  | .abandonCommit now _ _ => some now
  | _ => none

/-- When the transaction of an admin deletion began. -/
def AdminDelete.began : AdminDelete → Option Timestamp
  | .lock now _ _ => some now
  | .commit now _ => some now
  | _ => none

/-- When the transaction of a report began. -/
def Report.began : Report → Option Timestamp
  | .lock now _ _ _ => some now
  | .insert now _ _ => some now
  | .commit now _ _ => some now
  | _ => none

/-- When the transaction of a worker began. -/
def Worker.began : Worker → Option Timestamp
  | .claim now => some now
  | .claimScan now _ _ => some now
  | .successFlush now _ _ => some now
  | .successDelete now _ _ => some now
  | .successCommit now _ _ _ => some now
  | .failureFlush now _ _ _ _ => some now
  | .failureCommit now _ _ _ _ => some now
  | .reap now => some now
  | .reapScan now _ _ => some now
  | _ => none

/-- When the transaction of a process began. -/
def Proc.began : Proc → Option Timestamp
  | .free => none
  | .upload u => u.began
  | .adminDelete d => d.began
  | .report r => r.began
  | .worker w => w.began

/-- The backoff that a worker is about to write. -/
def Worker.backoff : Worker → Option ℤ
  | .failureFlush _ backoff _ _ _ => some backoff
  | .failureCommit _ backoff _ _ _ => some backoff
  | _ => none

/-- The backoff that a process is about to write. -/
def Proc.backoff : Proc → Option ℤ
  | .worker w => w.backoff
  | _ => none

/-- The longest backoff, in microseconds. -/
def maxBackoff (cfg : Settings) : ℤ := max 0 (cfg.max_backoff_delay * 1000)

section Step

variable {cfg : Settings} {p : ℕ} {db : Db} {t : Timestamp} {b : ℤ}

/-- A transaction of an upload request begins at the time of the clock. -/
theorem Upload.began_step {u : Upload} {a : UploadAction} {o : Outcome Upload}
    (h : u.step p db a = some o) (ht : o.proc.began = some t) :
    u.began = some t ∨ t = db.store.clock := by
  cases Upload.step_cases h with
  | lockCrane | count | abandonFlush => exact Or.inl ht
  | abandonSelect => exact Or.inr (Option.some.inj ht).symm
  | missingCrane | full | insert | put | storageError | otherError | finalize | lost | finalizeCommit
  | abandoned | abandonRaised | abandonCommit | dbError | finalizeError | abandonError | stop => cases ht

/-- A transaction of a worker begins at the time of the clock. -/
theorem Worker.began_step {w : Worker} {a : WorkerAction} {o : Outcome Worker}
    (h : w.step cfg p db a = some o) (ht : o.proc.began = some t) :
    w.began = some t ∨ t = db.store.clock := by
  cases Worker.step_cases h with
  | selectJobs | takeJob | skipJob | successFlush | failureFlush | deletePhotos | selectPhotos
  | takePhoto | skipPhoto => exact Or.inl ht
  | beginClaim | successSelect | failureSelect | beginReap =>
    exact Or.inr (Option.some.inj ht).symm
  | claimCommit | endBatch | nextJob | shutdown | delete | deleteError | successMissing
  | failureMissing | successCommit | failureCommit | reapCommit | queryError | statusError | stop =>
    cases ht

/-- A transaction begins at the time of the clock. -/
theorem Proc.began_step {l : Proc} {a : Action} {o : Outcome Proc}
    (h : l.step cfg p db a = some o) (ht : o.proc.began = some t) :
    l.began = some t ∨ t = db.store.clock := by
  cases Proc.step_cases h with
  | tick => exact Or.inl ht
  | createCrane => exact Or.inl ht
  | startUpload | startAdminDelete | startReport => exact Or.inr (Option.some.inj ht).symm
  | refuseUpload | startWorker => cases ht
  | upload u a o ho => exact Upload.began_step ho ht
  | adminDelete d a o ho =>
    cases AdminDelete.step_cases ho with
    | lock => exact Or.inl ht
    | missing | commit | dbError | stop => cases ht
  | report r a o ho =>
    cases Report.step_cases ho with
    | lock | insert => exact Or.inl ht
    | missing | duplicate | commit | dbError | stop => cases ht
  | worker w a o ho => exact Worker.began_step ho ht

/-- A backoff is at most `MAX_DELAY`. -/
theorem le_maxBackoff {attempts : ℕ} (h : backoffInRange cfg attempts b = true) :
    b ≤ maxBackoff cfg := by
  unfold backoffInRange at h
  rw [Bool.and_eq_true, decide_eq_true_eq, decide_eq_true_eq] at h
  have hmin : min cfg.max_backoff_delay (cfg.min_backoff_delay * 2 ^ attempts) ≤
      cfg.max_backoff_delay := min_le_left _ _
  have hle := h.2
  unfold maxBackoff
  omega

/-- The backoff that a process is about to write is drawn within its range. -/
theorem Proc.backoff_step {l : Proc} {a : Action} {o : Outcome Proc}
    (h : l.step cfg p db a = some o) (hb : o.proc.backoff = some b) :
    l.backoff = some b ∨ b ≤ maxBackoff cfg := by
  cases Proc.step_cases h with
  | tick => exact Or.inl hb
  | createCrane => exact Or.inl hb
  | worker w a o ho =>
    cases Worker.step_cases ho with
    | failureFlush => exact Or.inl hb
    | failureSelect job err_str rest backoff read hread hrange =>
      exact Or.inr (Option.some.inj hb ▸ le_maxBackoff hrange)
    | beginClaim | selectJobs | takeJob | skipJob | claimCommit | endBatch | nextJob | shutdown | delete
    | deleteError | successSelect | successMissing | failureMissing | successFlush | deletePhotos
    | successCommit | failureCommit | beginReap | selectPhotos | takePhoto | skipPhoto | reapCommit
    | queryError | statusError | stop => cases hb
  | refuseUpload | startUpload | startAdminDelete | startReport | startWorker | upload | adminDelete
  | report => cases hb

end Step

/-! ## Rows -/

/-- The times of a job at `clock`. -/
structure JobInTime (cfg : Settings) (clock : Timestamp) (job : OutboxJob) : Prop where
  created : job.created_at ≤ clock
  completed : ∀ t, job.completed_at = some t → t ≤ clock
  available : job.available_at ≤ clock + maxBackoff cfg
  lease : ∀ t, job.lease_expires_at = some t → t ≤ clock + cfg.lock_lease_window * 1000000

/-- What the clock says of the transactions in progress and of the rows. -/
structure InTime (cfg : Settings) (c : State) : Prop where
  began : ∀ p t, (c.procs p).began = some t → t ≤ c.shared.store.clock
  backoff : ∀ p b, (c.procs p).backoff = some b → b ≤ maxBackoff cfg
  photo : ∀ {i photo}, c.shared.store.photo i = some photo → photo.added_at ≤ c.shared.store.clock
  job : ∀ {i job}, c.shared.store.job i = some job → JobInTime cfg c.shared.store.clock job
  report : ∀ report ∈ c.shared.store.reports, report.added_at ≤ c.shared.store.clock

section Rows

variable {cfg : Settings} {clock clock' now : Timestamp} {job : OutboxJob} {c c' : State}
  {e : Event Action}

theorem JobInTime.mono (h : JobInTime cfg clock job) (hle : clock ≤ clock') :
    JobInTime cfg clock' job where
  created := h.created.trans hle
  completed t ht := (h.completed t ht).trans hle
  available := h.available.trans (add_le_add_left hle _)
  lease t ht := (h.lease t ht).trans (add_le_add_left hle _)

/-- A flush that clears a lease leaves none, or the one that was there. -/
theorem assign_none_eq_some {α : Type*} [DecidableEq α] {read current : Option α} {t : α}
    (h : assign read none current = some t) : current = some t := by
  unfold assign at h
  split_ifs at h
  exact h

/-- A write keeps the jobs in time. -/
theorem InTime.job_next (hc : InTime cfg c) (hholds : (pipeline cfg).Holds c)
    (h : (system cfg).next c e = some c') {i : Uuid} {job : OutboxJob}
    (hjob : c'.shared.store.job i = some job) : JobInTime cfg c'.shared.store.clock job := by
  have hclock : c.shared.store.clock ≤ c'.shared.store.clock := by
    rw [store_next h]
    exact clock_apply (guarded_writeOf hholds h)
  have horigin := writeOf_origin h
  have hstep := Pipeline.job_next hholds h i
  rw [hjob] at hstep
  generalize hi : c.shared.store.job i = r at hstep
  suffices hsuff : JobInTime cfg c.shared.store.clock job from hsuff.mono hclock
  cases hstep with
  | same => exact hc.job hi
  | created deleter now rows photo hw =>
    have hnow : now ≤ c.shared.store.clock := by
      rw [hw] at horigin
      cases deleter with
      | abandonCranePhotoUpload =>
        obtain ⟨photo, answer, job_id, hl, -⟩ := horigin
        exact hc.began e.pid now (by rw [hl]; rfl)
      | deleteCranePhoto =>
        obtain ⟨photo, job_id, hl, -⟩ := horigin
        exact hc.began e.pid now (by rw [hl]; rfl)
      | runReapCranePhotos =>
        obtain ⟨next, photos, job_ids, hl, -⟩ := horigin
        exact hc.began e.pid now (by rw [hl]; rfl)
    exact ⟨hnow, nofun, hnow.trans (le_add_of_nonneg_right (le_max_left _ _)), nofun⟩
  | claimed now jobs job _ _ _ _ hnow =>
    have hold := hc.job hi
    refine ⟨hold.created, hold.completed, hold.available, fun t ht => ?_⟩
    obtain rfl := Option.some.inj ht
    exact add_le_add_left hnow _
  | failed now backoff err_str read job hw =>
    rw [hw] at horigin
    obtain ⟨rest, hl, -⟩ := horigin
    have hnow := hc.began e.pid now (by rw [hl]; rfl)
    have hbackoff := hc.backoff e.pid backoff (by rw [hl]; rfl)
    have hold := hc.job hi
    exact ⟨hold.created, hold.completed, add_le_add hnow hbackoff,
      fun t ht => hold.lease t (assign_none_eq_some ht)⟩
  | succeeded now read photo_ids job hw =>
    rw [hw] at horigin
    obtain ⟨rest, hl, -⟩ := horigin
    have hnow := hc.began e.pid now (by rw [hl]; rfl)
    have hold := hc.job hi
    refine ⟨hold.created, fun t ht => ?_, hold.available,
      fun t ht => hold.lease t (assign_none_eq_some ht)⟩
    obtain rfl := Option.some.inj ht
    exact hnow

/-- A write keeps the photos in time. -/
theorem InTime.photo_next (hc : InTime cfg c) (hholds : (pipeline cfg).Holds c)
    (h : (system cfg).next c e = some c') {i : Uuid} {photo : CranePhoto}
    (hphoto : c'.shared.store.photo i = some photo) : photo.added_at ≤ c'.shared.store.clock := by
  have hclock : c.shared.store.clock ≤ c'.shared.store.clock := by
    rw [store_next h]
    exact clock_apply (guarded_writeOf hholds h)
  have hstep := Pipeline.photo_next hholds h i
  rw [hphoto] at hstep
  generalize hi : c.shared.store.photo i = r at hstep
  refine le_trans ?_ hclock
  cases hstep with
  | same => exact hc.photo hi
  | inserted photo hw =>
    have horigin := writeOf_origin h
    rw [hw] at horigin
    obtain ⟨now, upload, photo_id, hl, -, rfl⟩ := horigin
    exact hc.began e.pid now (by rw [hl]; rfl)
  | finalized photo =>
    have hold := hc.photo hi
    exact hold
  | marked photo =>
    have hold := hc.photo hi
    exact hold

/-- An event keeps the times. -/
theorem InTime.next (hc : InTime cfg c) (hholds : (pipeline cfg).Holds c)
    (h : (system cfg).next c e = some c') : InTime cfg c' := by
  have hclock : c.shared.store.clock ≤ c'.shared.store.clock := by
    rw [store_next h]
    exact clock_apply (guarded_writeOf hholds h)
  obtain ⟨o, ho, hproc, -⟩ := outcome_next h
  refine ⟨fun p t ht => ?_, fun p b hb => ?_, hc.photo_next hholds h, hc.job_next hholds h,
    fun report hreport => ?_⟩
  · refine le_trans ?_ hclock
    by_cases hp : p = e.pid
    · subst hp
      rw [hproc] at ht
      rcases Proc.began_step ho ht with hold | rfl
      · exact hc.began e.pid t hold
      · exact le_rfl
    · rw [System.procs_next_of_ne h hp] at ht
      exact hc.began p t ht
  · by_cases hp : p = e.pid
    · subst hp
      rw [hproc] at hb
      rcases Proc.backoff_step ho hb with hold | hle
      · exact hc.backoff e.pid b hold
      · exact hle
    · rw [System.procs_next_of_ne h hp] at hb
      exact hc.backoff p b hb
  · refine le_trans ?_ hclock
    rcases reports_next hholds h with ⟨hsub, -⟩ | ⟨report', hw, heq⟩
    · exact hc.report report (hsub.subset hreport)
    · rw [heq] at hreport
      rcases List.mem_append.1 hreport with hold | hnew
      · exact hc.report report hold
      · obtain rfl := List.mem_singleton.1 hnew
        have horigin := writeOf_origin h
        rw [hw] at horigin
        obtain ⟨report_id, -, hl⟩ := horigin
        exact hc.began e.pid report.added_at (by rw [hl]; rfl)

end Rows

/-- The times of the rows and of the transactions, in every reachable state. -/
theorem inTime_of_reachable {cfg : Settings} {c : State} (h : Reachable cfg c) : InTime cfg c := by
  obtain ⟨clock, cranes, es, hrun⟩ := h
  have hinit := holds_initial cfg clock cranes
  refine hinit.visits_induction (J := InTime cfg) ?_
    (fun _ _ _ hpass hholds hc => hc.next hholds hpass.next) (System.Visits.last hrun)
  exact ⟨nofun, nofun, nofun, nofun, nofun⟩

/-- In every reachable state, nothing is dated later than the clock, a lease ends within
`LOCK_LEASE_WINDOW` of it and a backoff within `MAX_DELAY`. So a pending job, a job with a lease, and a
pending photo become due by the mere passage of that much time: `claim_jobs` and
`run_reap_crane_photos` then find them. -/
theorem timestamps_bounded {cfg : Settings} {c : State} (h : Reachable cfg c) :
    (∀ job ∈ c.shared.store.jobs, JobInTime cfg c.shared.store.clock job) ∧
      (∀ photo ∈ c.shared.store.photos, photo.added_at ≤ c.shared.store.clock) ∧
      (∀ report ∈ c.shared.store.reports, report.added_at ≤ c.shared.store.clock) ∧
      ∀ now,
        (∀ job ∈ c.shared.store.jobs, job.status = .pending →
          c.shared.store.clock + maxBackoff cfg < now → job.claimable .delete now = true) ∧
        (∀ job ∈ c.shared.store.jobs, job.status = .processing → job.lease_expires_at.isSome = true →
          c.shared.store.clock + cfg.lock_lease_window * 1000000 < now →
            job.claimable .delete now = true) ∧
        (∀ photo ∈ c.shared.store.photos, photo.status = .pendingUpload →
          c.shared.store.clock + cfg.photo_reaper_delay * 1000 < now →
            photo.reapable cfg now = true) := by
  have hc := inTime_of_reachable h
  have hjobs : ∀ job ∈ c.shared.store.jobs, JobInTime cfg c.shared.store.clock job :=
    fun job hjob => hc.job (h.consistent.job_of_mem hjob)
  have hphotos : ∀ photo ∈ c.shared.store.photos, photo.added_at ≤ c.shared.store.clock :=
    fun photo hphoto => hc.photo (h.consistent.photo_of_mem hphoto)
  have hoperation : ∀ job : OutboxJob, job.operation = .delete := fun job => by
    cases job.operation
    rfl
  refine ⟨hjobs, hphotos, hc.report, fun now => ⟨fun job hjob hstatus hnow => ?_,
    fun job hjob hstatus hlease hnow => ?_, fun photo hphoto hstatus hnow => ?_⟩⟩
  · exact OutboxJob.claimable_iff.2
      ⟨hoperation job, Or.inl ⟨hstatus, (hjobs job hjob).available.trans_lt hnow⟩⟩
  · obtain ⟨t, ht⟩ := Option.isSome_iff_exists.1 hlease
    exact OutboxJob.claimable_iff.2
      ⟨hoperation job, Or.inr ⟨hstatus, t, ht, ((hjobs job hjob).lease t ht).trans_lt hnow⟩⟩
  · have hadded := hphotos photo hphoto
    have hdue : photo.added_at + cfg.photo_reaper_delay * 1000 < now :=
      (add_le_add_left hadded _).trans_lt hnow
    rw [CranePhoto.reapable, hstatus, decide_eq_true rfl, decide_eq_true hdue, Bool.and_self]

/-- A worker has claimed a job and died. Whoever comes when its lease is over finds the job. -/
theorem timestamps_bounded_claimed :
    ∃ c, (system {}).run (initial 0 [1]) (abandonedRun ++ claimEvents 1 abandonedJob ++
        [⟨1, .worker .stop⟩]) = some c ∧
      c.shared.store.jobs = [abandonedJob.claim {} 1] ∧
      ∀ job ∈ c.shared.store.jobs, job.claimable .delete 300000002 = true := by
  have hrun : ((system {}).run (initial 0 [1]) (abandonedRun ++ claimEvents 1 abandonedJob ++
      [⟨1, .worker .stop⟩])).map (fun c => (c.shared.store.jobs, c.shared.store.clock)) =
        some ([abandonedJob.claim {} 1], 1) := by decide +kernel
  obtain ⟨c, hc, heq⟩ := Option.map_eq_some_iff.1 hrun
  obtain ⟨hjobs, hclock⟩ := Prod.mk.inj heq
  refine ⟨c, hc, hjobs, fun job hjob => ?_⟩
  have hlate : c.shared.store.clock + ({} : Settings).lock_lease_window * 1000000 < 300000002 := by
    rw [hclock]
    decide
  have hclaimed : job = abandonedJob.claim {} 1 := List.mem_singleton.1 (hjobs ▸ hjob)
  exact ((timestamps_bounded ⟨0, [1], _, hc⟩).2.2.2 300000002).2.1 job hjob (by rw [hclaimed]; rfl)
    (by rw [hclaimed]; rfl) hlate

/-! ## The time that an upload has -/

/-- The photo that an upload request has inserted and not yet published or given up. -/
def Upload.unpublished : Upload → Option CranePhoto
  | .put photo => some photo
  | .finalize photo => some photo
  | .finalizeCommit photo => some photo
  | .abandon photo _ => some photo
  | .abandonFlush _ photo _ => some photo
  | .abandonCommit _ photo _ => some photo
  | _ => none

/-- The photo that a process has inserted and not yet published or given up. -/
def Proc.unpublished : Proc → Option CranePhoto
  | .upload u => u.unpublished
  | _ => none

/-- The photos that a worker is about to reap. -/
def Worker.reaping : Worker → Option (Timestamp × List CranePhoto)
  | .reapScan now _ photos => some (now, photos)
  | _ => none

/-- The photos that a process is about to reap. -/
def Proc.reaping : Proc → Option (Timestamp × List CranePhoto)
  | .worker w => w.reaping
  | _ => none

section Step

variable {cfg : Settings} {p : ℕ} {db : Db}

/-- The reaper takes overdue photos. -/
theorem Proc.reaping_step {l : Proc} {a : Action} {o : Outcome Proc}
    (h : l.step cfg p db a = some o)
    (hl : ∀ x, l.reaping = some x → ∀ photo ∈ x.2, photo.reapable cfg x.1 = true) :
    ∀ x, o.proc.reaping = some x → ∀ photo ∈ x.2, photo.reapable cfg x.1 = true := by
  intro x ho
  cases Proc.step_cases h with
  | tick => exact hl x ho
  | createCrane => exact hl x ho
  | worker w a o ho' =>
    cases Worker.step_cases ho' with
    | selectPhotos now rows hrows =>
      obtain rfl := Option.some.inj ho
      exact nofun
    | takePhoto now id next photos photo hlimit hnext =>
      obtain rfl := Option.some.inj ho
      intro r hr
      rcases List.mem_append.1 hr with hold | hnew
      · exact hl _ rfl r hold
      · obtain rfl := List.mem_singleton.1 hnew
        exact (Locks.lockNext_eq_some.1 hnext).2.2
    | skipPhoto now id next photos hlimit hnext =>
      obtain rfl := Option.some.inj ho
      exact hl _ rfl
    | beginClaim | selectJobs | takeJob | skipJob | claimCommit | endBatch | nextJob | shutdown | delete
    | deleteError | successSelect | failureSelect | successMissing | failureMissing | successFlush
    | failureFlush | deletePhotos | successCommit | failureCommit | beginReap | reapCommit | queryError
    | statusError | stop => cases ho
  | refuseUpload | startUpload | startAdminDelete | startReport | startWorker | upload | adminDelete
  | report => cases ho

/-- A request gets to a photo that it is to publish by its insert, and a photo that it has inserted stays
the same. -/
theorem Upload.unpublished_step {u : Upload} (hu : u.Inv p db) {a : UploadAction}
    {o : Outcome Upload} (h : u.step p db a = some o) {photo : CranePhoto}
    (ho : o.proc.unpublished = some photo) :
    u.unpublished = some photo ∨ o.write = .preuploadCranePhoto photo := by
  cases Upload.step_cases h with
  | insert => exact Or.inr (by rw [Option.some.inj ho])
  | put | storageError | finalize | lost | abandonFlush => exact Or.inl ho
  | abandonSelect photo₀ read answer hrow hstatus =>
    -- The pending row is the one that was inserted.
    have hunpublished : Unpublished p db.store photo₀ := hu
    obtain rfl := hunpublished.eq_of_pending hrow hstatus
    exact Or.inl ho
  | finalizeError u photo₀ hu' =>
    rcases hu' with rfl | rfl
    · exact Or.inl ho
    · exact Or.inl ho
  | lockCrane | missingCrane | full | count | otherError | finalizeCommit | abandoned | abandonRaised
  | abandonCommit | dbError | abandonError | stop => cases ho

/-- What an upload request knows of a photo that it has inserted. -/
theorem Upload.Inv.unpublished {u : Upload} (h : u.Inv p db) {photo : CranePhoto}
    (hu : u.unpublished = some photo) : Unpublished p db.store photo := by
  cases u with
  | put => exact Option.some.inj hu ▸ h
  | finalize => exact Option.some.inj hu ▸ h.1
  | finalizeCommit => exact Option.some.inj hu ▸ h.1
  | abandon => exact Option.some.inj hu ▸ h
  | abandonFlush => exact Option.some.inj hu ▸ h
  | abandonCommit => exact Option.some.inj hu ▸ h.1
  | lockCrane | count | insert | answered | stopped => cases hu

/-- A process gets to a photo that it is to publish by its insert. -/
theorem Proc.unpublished_step {l : Proc} (hl : l.Inv p db) {a : Action} {o : Outcome Proc}
    (h : l.step cfg p db a = some o) {photo : CranePhoto} (ho : o.proc.unpublished = some photo) :
    l.unpublished = some photo ∨ o.write = .preuploadCranePhoto photo := by
  cases Proc.step_cases h with
  | tick => exact Or.inl ho
  | createCrane => exact Or.inl ho
  | upload u a o ho' => exact Upload.unpublished_step hl ho' ho
  | refuseUpload | startUpload | startAdminDelete | startReport | startWorker | adminDelete | report
  | worker => cases ho

end Step

/-- A photo that its request has yet to publish is as it was inserted, or overdue. The reaper takes
overdue photos. -/
structure InWindow (cfg : Settings) (c : State) : Prop where
  kept : ∀ p photo, (c.procs p).unpublished = some photo →
    c.shared.store.photo photo.id = some photo ∨
      photo.added_at + cfg.photo_reaper_delay * 1000 < c.shared.store.clock
  reaping : ∀ p x, (c.procs p).reaping = some x → ∀ photo ∈ x.2, photo.reapable cfg x.1 = true

section Window

variable {cfg : Settings} {c c' : State} {e : Event Action} {p : ℕ} {photo : CranePhoto}

/-- What the request of a photo that it has yet to publish knows. -/
theorem unpublished_of_holds (hholds : (pipeline cfg).Holds c)
    (hp : (c.procs p).unpublished = some photo) : Unpublished p c.shared.store photo := by
  have hinv := hholds.2 p
  generalize c.procs p = l at hp hinv
  cases l with
  | upload u => exact Upload.Inv.unpublished hinv hp
  | free | adminDelete | report | worker => cases hp

/-- An event leaves the row of a photo that its request has yet to publish, or the photo is overdue, or
the event is the end of the request. -/
theorem InWindow.row_next (hc : InWindow cfg c) (hholds : (pipeline cfg).Holds c)
    (htime : InTime cfg c) (h : (system cfg).next c e = some c')
    (hp : (c.procs p).unpublished = some photo)
    (hrow : c.shared.store.photo photo.id = some photo)
    (hp' : (c'.procs p).unpublished = some photo) :
    c'.shared.store.photo photo.id = some photo ∨
      photo.added_at + cfg.photo_reaper_delay * 1000 < c.shared.store.clock := by
  have hun := unpublished_of_holds hholds hp
  have horigin := writeOf_origin h
  have hguard := guarded_writeOf hholds h
  have hstep := photo_next hholds h photo.id
  rw [hrow] at hstep
  obtain ⟨o, ho, hproc, -⟩ := outcome_next h
  generalize c'.shared.store.photo photo.id = r at hstep ⊢
  cases hstep with
  | same => exact Or.inl rfl
  | finalized r hw _ hown =>
    -- Its own request publishes it, and answers.
    obtain rfl : p = e.pid := Option.some.inj (hun.own.symm.trans hown)
    rw [hw] at horigin
    obtain ⟨photo₀, hl, hact, -⟩ := horigin
    rw [hl, hact] at ho
    cases ho
    rw [hproc] at hp'
    cases hp'
  | marked r deleter now rows hw hin hlock hmarks =>
    cases deleter with
    | abandonCranePhotoUpload =>
      obtain rfl : p = e.pid := Option.some.inj (hun.own.symm.trans hmarks.1)
      rw [hw] at horigin
      obtain ⟨photo₀, answer, job_id, hl, hact, -⟩ := horigin
      rw [hl, hact] at ho
      obtain ⟨o', ho', rfl⟩ := Option.map_eq_some_iff.1 ho
      cases Upload.step_cases ho' with
      | abandonCommit =>
        rw [hproc] at hp'
        cases hp'
    | deleteCranePhoto => exact absurd (hun.pending.symm.trans hmarks) (by simp)
    | runReapCranePhotos =>
      rw [hw] at horigin
      obtain ⟨next, photos, job_ids, hl, -, rfl⟩ := horigin
      obtain ⟨x, hx, hid, -⟩ := hin
      have hmem : x.1 ∈ photos := (List.of_mem_zip hx).1
      have hreap := hc.reaping e.pid (now, photos) (by rw [hl]; rfl) x.1 hmem
      -- The row that the reaper has locked is the row as it is.
      have hinv := hholds.2 e.pid
      rw [hl] at hinv
      have hscan : c.shared.locks.photo.Scan e.pid CranePhoto.id c.shared.store.photos
        (fun photo => photo.status = .pendingUpload) next photos := hinv
      have hcurrent : c.shared.store.photo x.1.id = some x.1 := hscan.current hmem
      obtain rfl : photo = x.1 := by
        rw [hid, hrow] at hcurrent
        exact Option.some.inj hcurrent
      have hnow := htime.began e.pid now (by rw [hl]; rfl)
      simp only [CranePhoto.reapable, Bool.and_eq_true, decide_eq_true_eq] at hreap
      exact Or.inr (hreap.2.trans_le hnow)
  | removed r now read photo_ids hw hlock hkey =>
    rw [hw] at hguard
    obtain ⟨-, ⟨job, hjob, hjkey⟩, -⟩ := hguard
    have hdelete := hholds.1.job_photo hjob hrow (hkey.trans hjkey.symm)
    exact absurd (hun.pending.symm.trans hdelete) (by simp)

/-- An event keeps a photo that its request has yet to publish as it is, or the photo is overdue. -/
theorem InWindow.next (hc : InWindow cfg c) (hholds : (pipeline cfg).Holds c)
    (htime : InTime cfg c) (h : (system cfg).next c e = some c') : InWindow cfg c' := by
  have hclock : c.shared.store.clock ≤ c'.shared.store.clock := by
    rw [store_next h]
    exact clock_apply (guarded_writeOf hholds h)
  obtain ⟨o, ho, hproc, -⟩ := outcome_next h
  refine ⟨fun p photo hp' => ?_, fun p x hx => ?_⟩
  · have hold : (c.procs p).unpublished = some photo →
        c'.shared.store.photo photo.id = some photo ∨
          photo.added_at + cfg.photo_reaper_delay * 1000 < c'.shared.store.clock := by
      intro hp
      rcases hc.kept p photo hp with hrow | hlate
      · rcases hc.row_next hholds htime h hp hrow hp' with hrow' | hlate
        · exact Or.inl hrow'
        · exact Or.inr (hlate.trans_le hclock)
      · exact Or.inr (hlate.trans_le hclock)
    by_cases hpid : p = e.pid
    · subst hpid
      have hp'' := hp'
      rw [hproc] at hp''
      rcases Proc.unpublished_step (hholds.2 e.pid) ho hp'' with hp | hw
      · exact hold hp
      · left
        have hwrite : writeOf cfg c e = .preuploadCranePhoto photo := by
          rw [writeOf, ho]
          exact hw
        have hguard := guarded_writeOf hholds h
        rw [hwrite] at hguard
        rw [store_next h, hwrite, Store.photo_preuploadCranePhoto, if_pos rfl]
        -- The id is new.
        have hnone : c.shared.store.photo photo.id = none := by
          refine Option.eq_none_iff_forall_ne_some.2 fun r hr => ?_
          have hissued := (hholds.1.photo_key hr).1
          rw [hguard.1] at hissued
          cases hissued
        rw [hnone, Option.none_or]
    · rw [System.procs_next_of_ne h hpid] at hp'
      exact hold hp'
  · by_cases hpid : p = e.pid
    · subst hpid
      rw [hproc] at hx
      exact Proc.reaping_step ho (hc.reaping e.pid) x hx
    · rw [System.procs_next_of_ne h hpid] at hx
      exact hc.reaping p x hx

/-- A photo that its request has yet to publish is as it was inserted, or overdue. -/
theorem inWindow_of_reachable (h : Reachable cfg c) : InWindow cfg c := by
  obtain ⟨clock, cranes, es, hrun⟩ := h
  have hinit := holds_initial cfg clock cranes
  have hboth : InTime cfg c ∧ InWindow cfg c := by
    refine hinit.visits_induction (J := fun c => InTime cfg c ∧ InWindow cfg c)
      ⟨inTime_of_reachable ⟨clock, cranes, [], rfl⟩, nofun, nofun⟩
      (fun _ _ _ hpass hholds hc => ?_) (System.Visits.last hrun)
    exact ⟨hc.1.next hholds hpass.next, hc.2.next hholds hc.1 hpass.next⟩
  exact hboth.2

/-- An upload request has `PHOTO_REAPER_DELAY` to put its object and publish its photo. Until then,
whatever the other requests and the workers do, the row stays as the request inserted it, and
`finalize_crane_photo` finds it and never answers that it has lost a race. -/
theorem upload_window (h : Reachable cfg c) (hp : (c.procs p).unpublished = some photo)
    (hclock : c.shared.store.clock ≤ photo.added_at + cfg.photo_reaper_delay * 1000) :
    c.shared.store.photo photo.id = some photo ∧ photo.status = .pendingUpload ∧
      ∀ c', c.procs p = .upload (.finalize photo) →
        (system cfg).next c ⟨p, .upload .finalize⟩ = some c' →
          c'.procs p = .upload (.finalizeCommit photo) := by
  have hrow : c.shared.store.photo photo.id = some photo := by
    rcases (inWindow_of_reachable h).kept p photo hp with hrow | hlate
    · exact hrow
    · exact absurd hlate hclock.not_gt
  have hpending := (unpublished_of_holds h.holds hp).pending
  refine ⟨hrow, hpending, fun c' hl hnext => ?_⟩
  obtain ⟨o, ho, hproc, -⟩ := outcome_next hnext
  have hl' : c.procs (Event.mk p (Action.upload .finalize)).pid = .upload (.finalize photo) := hl
  rw [hl'] at ho
  obtain ⟨o', ho', rfl⟩ := Option.map_eq_some_iff.1 ho
  have hlast : c'.procs p = .upload o'.proc := hproc
  rw [hlast]
  cases Upload.step_cases ho' with
  | finalize => rfl
  | lost _ hlost => exact absurd hpending (hlost photo hrow)

end Window

/-- The reaper runs at the last moment of the time that an upload has, and the upload finds its photo. -/
theorem upload_window_reaped :
    ∃ c, (system {}).run (initial 0 [1]) (preuploadEvents 0 1 2 ++ [⟨0, .upload (.put .stored)⟩,
        ⟨1, .startWorker⟩, ⟨1, .tick 5000000⟩, ⟨1, .worker .beginReap⟩,
        ⟨1, .worker (.selectPhotos [])⟩, ⟨1, .worker (.reapCommit [])⟩]) = some c ∧
      c.shared.store.photo 2 = some (jpegPhoto 0 1 2 .pendingUpload) := by
  have hrun : ((system {}).run (initial 0 [1]) (preuploadEvents 0 1 2 ++
      [⟨0, .upload (.put .stored)⟩, ⟨1, .startWorker⟩, ⟨1, .tick 5000000⟩, ⟨1, .worker .beginReap⟩,
        ⟨1, .worker (.selectPhotos [])⟩, ⟨1, .worker (.reapCommit [])⟩])).map
      (fun c => ((c.procs 0).unpublished, c.shared.store.clock)) =
        some (some (jpegPhoto 0 1 2 .pendingUpload), 5000000) := by decide +kernel
  obtain ⟨c, hc, heq⟩ := Option.map_eq_some_iff.1 hrun
  obtain ⟨hp, hclock⟩ := Prod.mk.inj heq
  have hlate : c.shared.store.clock ≤
      (jpegPhoto 0 1 2 .pendingUpload).added_at + ({} : Settings).photo_reaper_delay * 1000 := by
    rw [hclock]
    decide
  exact ⟨c, hc, (upload_window ⟨0, [1], _, hc⟩ hp hlate).1⟩

end CraneTracker.Pipeline
