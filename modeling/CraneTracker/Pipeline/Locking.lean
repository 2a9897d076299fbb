import CraneTracker.Pipeline.Events

/-!
# Row locks and waiting

A process holds row locks only in the middle of a transaction, and the place where it stands says which
(`Proc.held`, `locked_iff`). So what a process can wait for is known from where the others stand.

A statement that updates or locks rows waits for their holders (`Proc.wants`). The queries of the
workers do not wait: they skip what is locked. A request waits with no lock in its hands, and only
`capture_success` waits for a photo while it has a job locked. So a chain of waiting processes has two
links at most, and at its end stands one that can go on (`no_deadlock`).
-/

namespace CraneTracker.Pipeline

open Interleaving Table

/-- A row that can be locked. -/
inductive Row
  | crane (id : Uuid)
  | photo (id : Uuid)
  | job (id : Uuid)
deriving DecidableEq, Repr

/-- The process that has the row locked. -/
def RowLocks.holder (l : RowLocks) : Row → Option ℕ
  | .crane id => l.crane id
  | .photo id => l.photo id
  | .job id => l.job id

/-- The process `p` can lock the row. -/
def RowLocks.free (l : RowLocks) (p : ℕ) (r : Row) : Prop := ∀ q, l.holder r = some q → q = p

/-- The locks when no transaction is open. -/
def RowLocks.none : RowLocks := ⟨fun _ => .none, fun _ => .none, fun _ => .none⟩

section Holder

variable {l : RowLocks} {p q : ℕ} {r : Row} {ids : List Uuid}

theorem holder_release : (l.release p).holder r = (l.holder r).filter fun q => q ≠ p := by
  cases r <;> rfl

theorem holder_lockCranes : (l.lockCranes p ids).holder r =
    if r ∈ ids.map Row.crane then some p else l.holder r := by
  cases r with
  | crane id =>
    have hmem : Row.crane id ∈ ids.map Row.crane ↔ id ∈ ids := by simp
    exact (if_congr hmem rfl rfl).symm
  | photo | job => exact (if_neg (by simp)).symm

theorem holder_lockPhotos : (l.lockPhotos p ids).holder r =
    if r ∈ ids.map Row.photo then some p else l.holder r := by
  cases r with
  | photo id =>
    have hmem : Row.photo id ∈ ids.map Row.photo ↔ id ∈ ids := by simp
    exact (if_congr hmem rfl rfl).symm
  | crane | job => exact (if_neg (by simp)).symm

theorem holder_lockJobs : (l.lockJobs p ids).holder r =
    if r ∈ ids.map Row.job then some p else l.holder r := by
  cases r with
  | job id =>
    have hmem : Row.job id ∈ ids.map Row.job ↔ id ∈ ids := by simp
    exact (if_congr hmem rfl rfl).symm
  | crane | photo => exact (if_neg (by simp)).symm

/-- A row is free when its lock is available. -/
theorem free_iff : l.free p r ↔ l.holder r = .none ∨ l.holder r = some p := by
  unfold RowLocks.free
  cases h : l.holder r with
  | none => simp
  | some q => simp

end Holder

/-! ## What a process holds -/

/-- The rows that an upload request has locked. -/
def Upload.held : Upload → List Row
  | .count _ upload => [.crane upload.crane_id]
  | .insert _ upload => [.crane upload.crane_id]
  | .finalizeCommit photo => [.photo photo.id]
  | .abandonCommit _ photo _ => [.photo photo.id]
  | _ => []

/-- The rows that an admin deletion has locked. -/
def AdminDelete.held : AdminDelete → List Row
  | .commit _ photo => [.photo photo.id]
  | _ => []

/-- The rows that a report has locked. -/
def Report.held : Report → List Row
  | .insert _ photo_id _ => [.photo photo_id]
  | .commit _ photo_id _ => [.photo photo_id]
  | _ => []

/-- The rows that a worker has locked. -/
def Worker.held : Worker → List Row
  | .claimScan _ _ jobs => jobs.map fun job => .job job.id
  | .successDelete _ read _ => [.job read.id]
  | .successCommit _ read photo_ids _ => .job read.id :: photo_ids.map .photo
  | .failureCommit _ _ _ read _ => [.job read.id]
  | .reapScan _ _ photos => photos.map fun photo => .photo photo.id
  | _ => []

/-- The rows that a process has locked. -/
def Proc.held : Proc → List Row
  | .free => []
  | .upload u => u.held
  | .adminDelete d => d.held
  | .report r => r.held
  | .worker w => w.held

/-- What a step of the process `p` does to the locks, when it held `held` before and holds `held'`
after it. -/
structure Tidy (p : ℕ) (l l' : RowLocks) (held held' : List Row) : Prop where
  own : (∀ r, l.holder r = some p → r ∈ held) → ∀ r, l'.holder r = some p → r ∈ held'
  others : ∀ q, q ≠ p → ∀ r, l'.holder r = some q → l.holder r = some q

section Tidy

variable {cfg : Settings} {p : ℕ} {db : Db} {l : RowLocks} {held held' : List Row} {ids : List Uuid}

/-- A step that leaves the locks as they are. -/
theorem Tidy.pass (h : held ⊆ held') : Tidy p l l held held' :=
  ⟨fun hown r hr => h (hown r hr), fun _ _ _ hr => hr⟩

/-- The end of a transaction. -/
theorem Tidy.release : Tidy p l (l.release p) held held' := by
  constructor
  · intro _ r hr
    rw [holder_release, Option.filter_eq_some_iff] at hr
    simp at hr
  · intro q _ r hr
    rw [holder_release, Option.filter_eq_some_iff] at hr
    exact hr.1

/-- A step that locks rows. -/
theorem Tidy.of_lock {l' : RowLocks} {rows : List Row}
    (hl : ∀ r, l'.holder r = if r ∈ rows then some p else l.holder r) (h : held ++ rows ⊆ held') :
    Tidy p l l' held held' := by
  constructor
  · intro hown r hr
    rw [hl] at hr
    split_ifs at hr with hmem
    · exact h (List.mem_append_right _ hmem)
    · exact h (List.mem_append_left _ (hown r hr))
  · intro q hq r hr
    rw [hl] at hr
    split_ifs at hr with hmem
    · exact absurd (Option.some.inj hr).symm hq
    · exact hr

/-- A step of an upload request. -/
theorem Upload.tidy_step {u : Upload} {a : UploadAction} {o : Outcome Upload}
    (h : u.step p db a = some o) : Tidy p db.locks o.locks u.held o.proc.held := by
  cases Upload.step_cases h with
  | lockCrane => exact .of_lock (fun r => holder_lockCranes) (List.Subset.refl _)
  | finalize => exact .of_lock (fun r => holder_lockPhotos) (List.Subset.refl _)
  | abandonFlush => exact .of_lock (fun r => holder_lockPhotos) (List.Subset.refl _)
  | missingCrane | count | put | storageError | otherError | abandonSelect | abandoned =>
    exact .pass (List.Subset.refl _)
  | full | insert | lost | finalizeCommit | abandonRaised | abandonCommit | dbError | finalizeError
  | abandonError | stop => exact .release

/-- A step of an admin deletion. -/
theorem AdminDelete.tidy_step {d : AdminDelete} {a : AdminDeleteAction} {o : Outcome AdminDelete}
    (h : d.step p db a = some o) : Tidy p db.locks o.locks d.held o.proc.held := by
  cases AdminDelete.step_cases h with
  | lock now photo_id photo hrow =>
    obtain rfl : photo.id = photo_id := key_of_row hrow
    exact .of_lock (fun r => holder_lockPhotos) (List.Subset.refl _)
  | missing => exact .pass (List.Subset.refl _)
  | commit | dbError | stop => exact .release

/-- A step of a report. -/
theorem Report.tidy_step {r : Report} {a : ReportAction} {o : Outcome Report}
    (h : r.step p db a = some o) : Tidy p db.locks o.locks r.held o.proc.held := by
  cases Report.step_cases h with
  | lock => exact .of_lock (fun r => holder_lockPhotos) (List.Subset.refl _)
  | missing | insert => exact .pass (List.Subset.refl _)
  | duplicate | commit | dbError | stop => exact .release

/-- A step of a worker. -/
theorem Worker.tidy_step {w : Worker} {a : WorkerAction} {o : Outcome Worker}
    (h : w.step cfg p db a = some o) : Tidy p db.locks o.locks w.held o.proc.held := by
  cases Worker.step_cases h with
  | takeJob now id next jobs job _ hnext =>
    obtain rfl : job.id = id := key_of_row (Locks.lockNext_eq_some.1 hnext).1
    refine .of_lock (fun r => holder_lockJobs) ?_
    simp [Worker.held]
  | takePhoto now id next photos photo _ hnext =>
    obtain rfl : photo.id = id := key_of_row (Locks.lockNext_eq_some.1 hnext).1
    refine .of_lock (fun r => holder_lockPhotos) ?_
    simp [Worker.held]
  | successFlush => exact .of_lock (fun r => holder_lockJobs) (List.Subset.refl _)
  | failureFlush => exact .of_lock (fun r => holder_lockJobs) (List.Subset.refl _)
  | deletePhotos => exact .of_lock (fun r => holder_lockPhotos) (List.Subset.refl _)
  | beginClaim | selectJobs | skipJob | endBatch | nextJob | shutdown | delete | deleteError
  | successSelect | failureSelect | successMissing | failureMissing | beginReap | selectPhotos
  | skipPhoto => exact .pass (List.Subset.refl _)
  | claimCommit | successCommit | failureCommit | reapCommit | queryError | statusError | stop =>
    exact .release

/-- A step of a process. -/
theorem Proc.tidy_step {l : Proc} {a : Action} {o : Outcome Proc} (h : l.step cfg p db a = some o) :
    Tidy p db.locks o.locks l.held o.proc.held := by
  cases Proc.step_cases h with
  | tick | createCrane | refuseUpload | startUpload | startAdminDelete | startReport | startWorker =>
    exact .pass (List.Subset.refl _)
  | upload u a o ho => exact Upload.tidy_step ho
  | adminDelete d a o ho => exact AdminDelete.tidy_step ho
  | report r a o ho => exact Report.tidy_step ho
  | worker w a o ho => exact Worker.tidy_step ho

end Tidy

section Locked

variable {cfg : Settings} {c c' : State} {e : Event Action} {p : ℕ} {db : Db} {r : Row}

/-- Every lock is that of a transaction that its holder is in the middle of. -/
def Tracked (c : State) : Prop := ∀ p r, c.shared.locks.holder r = some p → r ∈ (c.procs p).held

/-- An event keeps track of the locks. -/
theorem Tracked.next (hc : Tracked c) (h : (system cfg).next c e = some c') : Tracked c' := by
  obtain ⟨o, ho, hproc, hshared⟩ := outcome_next h
  have htidy := Proc.tidy_step ho
  intro p r hr
  rw [hshared] at hr
  by_cases hp : p = e.pid
  · subst hp
    rw [hproc]
    exact htidy.own (hc e.pid) r hr
  · rw [System.procs_next_of_ne h hp]
    exact hc p r (htidy.others p hp r hr)

/-- A process holds what its place says. -/
theorem Proc.holder_of_held {l : Proc} (hl : l.Inv p db) (hr : r ∈ l.held) :
    db.locks.holder r = some p := by
  cases l with
  | free => cases hr
  | upload u =>
    cases u with
    | count =>
      obtain rfl := List.mem_singleton.1 hr
      exact hl
    | insert =>
      obtain rfl := List.mem_singleton.1 hr
      exact hl.1
    | finalizeCommit =>
      obtain rfl := List.mem_singleton.1 hr
      exact hl.2.1
    | abandonCommit =>
      obtain rfl := List.mem_singleton.1 hr
      exact hl.2.1
    | lockCrane | put | finalize | abandon | abandonFlush | answered | stopped => cases hr
  | adminDelete d =>
    cases d with
    | commit =>
      obtain rfl := List.mem_singleton.1 hr
      exact hl.1
    | lock | answered | stopped => cases hr
  | report d =>
    cases d with
    | insert =>
      obtain rfl := List.mem_singleton.1 hr
      exact hl.1
    | commit =>
      obtain rfl := List.mem_singleton.1 hr
      exact hl.1
    | lock | answered | stopped => cases hr
  | worker w =>
    cases w with
    | claimScan =>
      obtain ⟨job, hjob, rfl⟩ := List.mem_map.1 hr
      exact hl.2.locked hjob
    | successDelete =>
      obtain rfl := List.mem_singleton.1 hr
      exact hl.2.1
    | successCommit now read photo_ids rest =>
      obtain ⟨-, hjob, hdel, -⟩ := hl
      rcases List.mem_cons.1 hr with rfl | hphoto
      · exact hjob
      · obtain ⟨i, hi, rfl⟩ := List.mem_map.1 hphoto
        exact hdel.locked hi
    | failureCommit =>
      obtain rfl := List.mem_singleton.1 hr
      exact hl.2.1
    | reapScan =>
      obtain ⟨photo, hphoto, rfl⟩ := List.mem_map.1 hr
      exact Locks.Scan.locked hl hphoto
    | idle | claim | batch | delete | deleted | deleteFailed | successFlush | failureFlush | reap =>
      cases hr

/-- In every reachable state, a process has exactly those rows locked that its place says. -/
theorem locked_iff (h : Reachable cfg c) (p : ℕ) (r : Row) :
    c.shared.locks.holder r = some p ↔ r ∈ (c.procs p).held := by
  have htracked : Tracked c := by
    obtain ⟨clock, cranes, es, hrun⟩ := h
    refine System.run_invariant (I := Tracked) (fun c e c' hc hnext => hc.next hnext) hrun ?_
    intro p r hr
    cases r <;> cases hr
  exact ⟨htracked p r, Proc.holder_of_held (h.holds.2 p)⟩

end Locked

/-! ## What a process waits for -/

/-- The rows that the next statement of a process waits for, if it is one that waits. -/
def Proc.wants (s : Store) : Proc → List Row
  | .upload (.lockCrane _ prepared) => [.crane prepared.crane_id]
  | .upload (.finalize photo) => [.photo photo.id]
  | .upload (.abandonFlush _ photo _) => [.photo photo.id]
  | .adminDelete (.lock _ _ photo_id) => [.photo photo_id]
  | .report (.lock _ _ photo_id _) => [.photo photo_id]
  | .worker (.successFlush _ read _) => [.job read.id]
  | .worker (.failureFlush _ _ _ read _) => [.job read.id]
  | .worker (.successDelete _ read _) =>
    (s.photos.filter fun r => r.storage_key = read.storage_key).map fun r => .photo r.id
  | _ => []

/-- The process `p` waits for the process `q`: its next statement wants a row that `q` has locked. -/
def WaitsFor (c : State) (p q : ℕ) : Prop :=
  q ≠ p ∧ ∃ r ∈ (c.procs p).wants c.shared.store, c.shared.locks.holder r = some q

section Wants

variable {cfg : Settings} {p q : ℕ} {s : Store} {k k' : RowLocks}

/-- A lock is available when its row is free. -/
theorem available_crane {id : Uuid} (h : k.free p (.crane id)) : k.crane.available p id = true := by
  rcases free_iff.1 h with hk | hk
  · rw [Locks.available, show k.crane id = none from hk]
    rfl
  · rw [Locks.available, show k.crane id = some p from hk]
    simp

theorem available_photo {id : Uuid} (h : k.free p (.photo id)) : k.photo.available p id = true := by
  rcases free_iff.1 h with hk | hk
  · rw [Locks.available, show k.photo id = none from hk]
    rfl
  · rw [Locks.available, show k.photo id = some p from hk]
    simp

theorem available_job {id : Uuid} (h : k.free p (.job id)) : k.job.available p id = true := by
  rcases free_iff.1 h with hk | hk
  · rw [Locks.available, show k.job id = none from hk]
    rfl
  · rw [Locks.available, show k.job id = some p from hk]
    simp

/-- An upload request that can take a step under some locks can take it when the rows that it wants are
free. -/
theorem Upload.isSome_step {u : Upload} {a : UploadAction}
    (h : (u.step p ⟨s, k⟩ a).isSome = true) (hfree : ∀ r ∈ (Proc.upload u).wants s, k'.free p r) :
    (u.step p ⟨s, k'⟩ a).isSome = true := by
  obtain ⟨o, ho⟩ := Option.isSome_iff_exists.1 h
  cases Upload.step_cases ho with
  | lockCrane now upload hcrane =>
    have havailable := available_crane (hfree _ (List.mem_singleton_self _))
    simp [Upload.step, show s.hasCrane upload.crane_id = true from hcrane, havailable]
  | missingCrane now upload hcrane =>
    simp [Upload.step, show ¬s.hasCrane upload.crane_id = true from hcrane]
  | full now upload e he => simp [Upload.step, show ensureCranePhotoCapacity s.photos _ = _ from he]
  | count now upload hok => simp [Upload.step, show ensureCranePhotoCapacity s.photos _ = _ from hok]
  | insert now upload photo_id hnew hfits =>
    simp [Upload.step, hfits, show s.issued photo_id = none from hnew]
  | finalize photo r hrow hstatus =>
    have havailable := available_photo (hfree _ (List.mem_singleton_self _))
    simp [Upload.step, show s.photo photo.id = some r from hrow, hstatus, havailable]
  | lost photo hrow =>
    have hnot : (s.photo photo.id).any (fun r => r.status = .pendingUpload) = false := by
      rw [Bool.eq_false_iff, Ne, Option.any_eq_true]
      rintro ⟨r, hr, hpending⟩
      exact hrow r hr (of_decide_eq_true hpending)
    simp [Upload.step, hnot]
  | abandonSelect photo read answer hrow hstatus =>
    have hread : (s.photo photo.id).filter (fun r => r.status = .pendingUpload) = some read :=
      Option.filter_eq_some_iff.2 ⟨hrow, decide_eq_true hstatus⟩
    simp [Upload.step, hread]
  | abandoned photo answer hrow =>
    have hnone : (s.photo photo.id).filter (fun r => r.status = .pendingUpload) = none := by
      rw [Option.filter_eq_none_iff]
      intro r hr hpending
      exact hrow r hr (of_decide_eq_true hpending)
    simp [Upload.step, hnone]
  | abandonFlush now photo r answer hrow =>
    have havailable := available_photo (hfree _ (List.mem_singleton_self _))
    simp [Upload.step, show s.photo photo.id = some r from hrow, havailable]
  | abandonRaised now photo answer hrow =>
    simp [Upload.step, show s.photo photo.id = none from hrow]
  | abandonCommit now photo answer job_id hjob =>
    simp [Upload.step, show s.job job_id = none from hjob]
  | put | storageError | otherError | finalizeCommit => rfl
  | dbError u now upload hu => rcases hu with rfl | rfl | rfl <;> rfl
  | finalizeError u photo hu => rcases hu with rfl | rfl <;> rfl
  | abandonError u now photo answer hu => rcases hu with rfl | rfl | rfl <;> rfl
  | stop u hu =>
    cases u with
    | answered photo_id answer => exact absurd rfl (hu photo_id answer)
    | lockCrane | count | insert | put | finalize | finalizeCommit | abandon | abandonFlush
    | abandonCommit | stopped => rfl

/-- So can an admin deletion. -/
theorem AdminDelete.isSome_step {d : AdminDelete} {a : AdminDeleteAction}
    (h : (d.step p ⟨s, k⟩ a).isSome = true)
    (hfree : ∀ r ∈ (Proc.adminDelete d).wants s, k'.free p r) :
    (d.step p ⟨s, k'⟩ a).isSome = true := by
  obtain ⟨o, ho⟩ := Option.isSome_iff_exists.1 h
  cases AdminDelete.step_cases ho with
  | lock now photo_id photo hrow hstatus =>
    have havailable := available_photo (hfree _ (List.mem_singleton_self _))
    have hread : (s.photo photo_id).filter
        (fun r => r.crane_id = photo.crane_id && r.status = .active) = some photo :=
      Option.filter_eq_some_iff.2 ⟨hrow, by simp [hstatus]⟩
    simp only [AdminDelete.step, hread, havailable]
    rfl
  | missing now crane_id photo_id hrow =>
    have hnone : (s.photo photo_id).filter
        (fun r => r.crane_id = crane_id && r.status = .active) = none := by
      rw [Option.filter_eq_none_iff]
      intro r hr hcond
      simp only [Bool.and_eq_true, decide_eq_true_eq] at hcond
      exact hrow r hr hcond.1 hcond.2
    simp only [AdminDelete.step, hnone]
    rfl
  | commit now photo job_id hjob =>
    simp [AdminDelete.step, show s.job job_id = none from hjob]
  | dbError d hd =>
    cases d with
    | answered answer => exact absurd rfl (hd answer)
    | stopped => cases h
    | lock | commit => rfl
  | stop d hd =>
    cases d with
    | answered answer => exact absurd rfl (hd answer)
    | lock | commit | stopped => rfl

/-- So can a report. -/
theorem Report.isSome_step {d : Report} {a : ReportAction} (h : (d.step p ⟨s, k⟩ a).isSome = true)
    (hfree : ∀ r ∈ (Proc.report d).wants s, k'.free p r) : (d.step p ⟨s, k'⟩ a).isSome = true := by
  obtain ⟨o, ho⟩ := Option.isSome_iff_exists.1 h
  cases Report.step_cases ho with
  | missing now crane_id photo_id reporter_ip_hash hrow =>
    have hnot : (s.photo photo_id).any
        (fun r => r.crane_id = crane_id && r.status = .active) = false := by
      rw [Bool.eq_false_iff, Ne, Option.any_eq_true]
      rintro ⟨r, hr, hcond⟩
      simp only [Bool.and_eq_true, decide_eq_true_eq] at hcond
      exact hrow r hr hcond.1 hcond.2
    simp [Report.step, hnot]
  | lock now photo_id reporter_ip_hash photo hrow hstatus =>
    have havailable := available_photo (hfree _ (List.mem_singleton_self _))
    simp [Report.step, show s.photo photo_id = some photo from hrow, hstatus, havailable]
  | duplicate now photo_id reporter_ip_hash r hr hphoto hhash =>
    have hany : s.reports.any (fun r =>
        r.photo_id = photo_id && r.reporter_ip_hash = reporter_ip_hash) = true :=
      List.any_eq_true.2 ⟨r, hr, by simp [hphoto, hhash]⟩
    simp [Report.step, hany]
  | insert now photo_id reporter_ip_hash hnew =>
    have hnot : s.reports.any (fun r =>
        r.photo_id = photo_id && r.reporter_ip_hash = reporter_ip_hash) = false := by
      rw [Bool.eq_false_iff, Ne, List.any_eq_true]
      rintro ⟨r, hr, hcond⟩
      simp only [Bool.and_eq_true, decide_eq_true_eq] at hcond
      exact hnew r hr hcond.1 hcond.2
    simp [Report.step, hnot]
  | commit => rfl
  | dbError d hd =>
    cases d with
    | answered answer => exact absurd rfl (hd answer)
    | stopped => cases h
    | lock | insert | commit => rfl
  | stop d hd =>
    cases d with
    | answered answer => exact absurd rfl (hd answer)
    | lock | insert | commit | stopped => rfl

/-- The locking query of `claim_jobs` does not wait. -/
theorem Worker.isSome_lockNextJob {now : Timestamp} {id : Uuid} {next : List Uuid}
    {jobs : List OutboxJob} (hlimit : jobs.length < cfg.job_batch_size) :
    ((Worker.claimScan now (id :: next) jobs).step cfg p ⟨s, k⟩ .lockNextJob).isSome = true := by
  unfold Worker.step
  dsimp only
  rw [if_pos hlimit]
  split <;> rfl

/-- The locking query of `run_reap_crane_photos` does not wait. -/
theorem Worker.isSome_lockNextPhoto {now : Timestamp} {id : Uuid} {next : List Uuid}
    {photos : List CranePhoto} (hlimit : photos.length < cfg.job_batch_size) :
    ((Worker.reapScan now (id :: next) photos).step cfg p ⟨s, k⟩ .lockNextPhoto).isSome = true := by
  unfold Worker.step
  dsimp only
  rw [if_pos hlimit]
  split <;> rfl

/-- So can a worker. -/
theorem Worker.isSome_step {w : Worker} {a : WorkerAction}
    (h : (w.step cfg p ⟨s, k⟩ a).isSome = true)
    (hfree : ∀ r ∈ (Proc.worker w).wants s, k'.free p r) :
    (w.step cfg p ⟨s, k'⟩ a).isSome = true := by
  obtain ⟨o, ho⟩ := Option.isSome_iff_exists.1 h
  cases Worker.step_cases ho with
  | selectJobs now rows hrows => simp only [Worker.step, if_pos hrows, Option.isSome_some]
  | takeJob now id next jobs job hlimit => exact Worker.isSome_lockNextJob hlimit
  | skipJob now id next jobs hlimit => exact Worker.isSome_lockNextJob hlimit
  | claimCommit now next jobs hend => simp only [Worker.step, if_pos hend, Option.isSome_some]
  | successSelect job rest backoff read hread =>
    simp [Worker.step, show s.job job.id = some read from hread]
  | failureSelect job err_str rest backoff read hread hbackoff =>
    simp [Worker.step, show s.job job.id = some read from hread, hbackoff]
  | successMissing job rest backoff hread =>
    simp [Worker.step, show s.job job.id = none from hread]
  | failureMissing job err_str rest backoff hread =>
    simp [Worker.step, show s.job job.id = none from hread]
  | successFlush now read rest hrow =>
    have havailable := available_job (hfree _ (List.mem_singleton_self _))
    simp [Worker.step, show (s.job read.id).isSome = true from hrow, havailable]
  | failureFlush now backoff err_str read rest hfits hrow =>
    have havailable := available_job (hfree _ (List.mem_singleton_self _))
    simp [Worker.step, hfits, show (s.job read.id).isSome = true from hrow, havailable]
  | deletePhotos now read rest =>
    have havailable : ((s.photos.filter fun r => r.storage_key = read.storage_key).map
        CranePhoto.id).all (k'.photo.available p) = true := by
      refine List.all_eq_true.2 fun i hi => ?_
      obtain ⟨photo, hphoto, rfl⟩ := List.mem_map.1 hi
      exact available_photo (hfree _ (List.mem_map.2 ⟨photo, hphoto, rfl⟩))
    simp only [Worker.step, if_pos havailable, Option.isSome_some]
  | selectPhotos now rows hrows => simp only [Worker.step, if_pos hrows, Option.isSome_some]
  | takePhoto now id next photos photo hlimit => exact Worker.isSome_lockNextPhoto hlimit
  | skipPhoto now id next photos hlimit => exact Worker.isSome_lockNextPhoto hlimit
  | reapCommit now next photos job_ids hend hlength hnodup hfresh =>
    have hids : job_ids.all (fun i => s.job i = none) = true := by simpa using hfresh
    have hall := And.intro hend (And.intro hlength (And.intro hnodup hids))
    simp only [Worker.step, if_pos hall, Option.isSome_some]
  | queryError w hw =>
    cases w with
    | idle | batch | delete => cases h
    | claim | claimScan | reap | reapScan => rfl
    | deleted | deleteFailed | successFlush | successDelete | successCommit | failureFlush
    | failureCommit => cases hw
  | statusError w rest hw =>
    cases w with
    | idle | batch | delete | claim | claimScan | reap | reapScan => cases hw
    | deleted | deleteFailed | successFlush | successDelete | successCommit | failureFlush
    | failureCommit => rfl
  | beginClaim | endBatch | nextJob | shutdown | delete | deleteError | successCommit | failureCommit
  | beginReap | stop => rfl

/-- A process that can take a step under some locks can take it when the rows that it wants are free. -/
theorem Proc.isSome_step {l : Proc} {a : Action} (h : (l.step cfg p ⟨s, k⟩ a).isSome = true)
    (hfree : ∀ r ∈ l.wants s, k'.free p r) : (l.step cfg p ⟨s, k'⟩ a).isSome = true := by
  obtain ⟨o, ho⟩ := Option.isSome_iff_exists.1 h
  cases Proc.step_cases ho with
  | tick l now hnow => simp only [Proc.step, if_pos hnow, Option.isSome_some]
  | refuseUpload request e he => simp [Proc.step, he]
  | startUpload request prepared hok => simp [Proc.step, hok]
  | createCrane | startAdminDelete | startReport | startWorker => rfl
  | upload u a o ho' =>
    have hsome := Upload.isSome_step (Option.isSome_iff_exists.2 ⟨o, ho'⟩) hfree
    rwa [← Option.isSome_map] at hsome
  | adminDelete d a o ho' =>
    have hsome := AdminDelete.isSome_step (Option.isSome_iff_exists.2 ⟨o, ho'⟩) hfree
    rwa [← Option.isSome_map] at hsome
  | report r a o ho' =>
    have hsome := Report.isSome_step (Option.isSome_iff_exists.2 ⟨o, ho'⟩) hfree
    rwa [← Option.isSome_map] at hsome
  | worker w a o ho' =>
    have hsome := Worker.isSome_step (Option.isSome_iff_exists.2 ⟨o, ho'⟩) hfree
    rwa [← Option.isSome_map] at hsome

end Wants

/-! ## No deadlock -/

/-- A step of the program of a process: no error of the database, no crash, and no shutdown. -/
def Action.ordinary : Action → Bool
  | .upload .dbError => false
  | .upload .stop => false
  | .adminDelete .dbError => false
  | .adminDelete .stop => false
  | .report .dbError => false
  | .report .stop => false
  | .worker .dbError => false
  | .worker .stop => false
  | .worker .shutdown => false
  | .upload _ => true
  | .adminDelete _ => true
  | .report _ => true
  | .worker _ => true
  | _ => false

/-- The next statement of the process is one that the database refuses: it writes a text that does not
fit its column. -/
def Proc.refused : Proc → Bool
  | .upload (.insert _ prepared) => !fitsVarchar originalFilenameWidth prepared.filename
  | .worker (.failureFlush _ _ err_str _ _) => !fitsVarchar lastErrorWidth err_str
  | _ => false

/-- The step is an error of the database in a statement of an upload or a worker. -/
def Action.isDbError : Action → Bool
  | .upload .dbError => true
  | .worker .dbError => true
  | _ => false

/-- The step is one that the process takes by itself: its next statement, or the error of one that the
database refuses. -/
def Proc.Takes (l : Proc) (a : Action) : Prop :=
  a.ordinary = true ∨ l.refused = true ∧ a.isDbError = true

/-- The process can go on by itself. -/
def CanStep (cfg : Settings) (c : State) (p : ℕ) : Prop :=
  ∃ a, ((c.procs p).step cfg p c.shared a).isSome = true ∧ (c.procs p).Takes a

/-- The process is in the middle of a request or of a run of the worker. -/
def Proc.unfinished : Proc → Bool
  | .free => false
  | .upload u => !u.ended
  | .adminDelete (.answered _) => false
  | .adminDelete .stopped => false
  | .adminDelete _ => true
  | .report (.answered _) => false
  | .report .stopped => false
  | .report _ => true
  | .worker .idle => false
  | .worker _ => true

/-- There is an id for the next photo, and one for a job of each photo that there is, and one more. -/
structure IdsLeft (s : Store) : Prop where
  photo : ∃ i, s.issued i = none
  job : ∃ ids : List Uuid, ids.Nodup ∧ s.photos.length < ids.length ∧ ∀ i ∈ ids, s.job i = none

section Progress

variable {p : ℕ} {s : Store} {k : RowLocks}

/-- With at most one photo and no jobs there are ids. -/
theorem IdsLeft.of_length {i : Uuid} (hissued : s.issued i = none) (hphotos : s.photos.length ≤ 1)
    (hjobs : s.jobs.length = 0) : IdsLeft s := by
  refine ⟨⟨i, hissued⟩, [0, 1], by decide, Nat.lt_succ_of_le hphotos, fun j _ => ?_⟩
  rw [Store.job, List.eq_nil_of_length_eq_zero hjobs]
  rfl

theorem IdsLeft.job_id (h : IdsLeft s) : ∃ i, s.job i = none := by
  obtain ⟨ids, -, hlength, hjobs⟩ := h.job
  exact ⟨_, hjobs _ (List.getElem_mem (Nat.zero_lt_of_lt hlength))⟩

/-- An upload request in progress can go on when nothing is locked. -/
theorem Upload.progress (hids : IdsLeft s) {u : Upload} (hu : u.ended = false) :
    ∃ a, (u.step p ⟨s, .none⟩ a).isSome = true ∧ (Proc.upload u).Takes (.upload a) := by
  obtain ⟨photo_id, hphoto⟩ := hids.photo
  obtain ⟨job_id, hjob⟩ := hids.job_id
  cases u with
  | lockCrane now upload =>
    refine ⟨.lockCrane, ?_, .inl rfl⟩
    by_cases hcrane : s.hasCrane upload.crane_id = true
    · simp [Upload.step, hcrane, RowLocks.none, Locks.available]
    · simp [Upload.step, hcrane]
  | count now upload =>
    refine ⟨.count, ?_, .inl rfl⟩
    unfold Upload.step
    dsimp only
    split <;> rfl
  | insert now upload =>
    cases hfits : fitsVarchar originalFilenameWidth upload.filename with
    | true => exact ⟨.insert photo_id, by simp [Upload.step, hfits, hphoto], .inl rfl⟩
    | false => exact ⟨.dbError, rfl, .inr ⟨by simp [Proc.refused, hfits], rfl⟩⟩
  | put photo => exact ⟨.put .stored, rfl, .inl rfl⟩
  | finalize photo =>
    refine ⟨.finalize, ?_, .inl rfl⟩
    by_cases hrow : (s.photo photo.id).any (fun r => r.status = .pendingUpload) = true
    · simp [Upload.step, hrow, RowLocks.none, Locks.available]
    · simp [Upload.step, hrow]
  | finalizeCommit photo => exact ⟨.finalizeCommit, rfl, .inl rfl⟩
  | abandon photo answer =>
    refine ⟨.abandonSelect, ?_, .inl rfl⟩
    unfold Upload.step
    dsimp only
    split <;> rfl
  | abandonFlush now photo answer =>
    refine ⟨.abandonFlush, ?_, .inl rfl⟩
    cases hrow : s.photo photo.id <;> simp [Upload.step, hrow, RowLocks.none, Locks.available]
  | abandonCommit now photo answer =>
    exact ⟨.abandonCommit job_id, by simp [Upload.step, hjob], .inl rfl⟩
  | answered | stopped => cases hu

/-- So can an admin deletion. -/
theorem AdminDelete.progress (hids : IdsLeft s) {d : AdminDelete}
    (hd : (Proc.adminDelete d).unfinished = true) :
    ∃ a, (d.step p ⟨s, .none⟩ a).isSome = true ∧ (Action.adminDelete a).ordinary = true := by
  obtain ⟨job_id, hjob⟩ := hids.job_id
  cases d with
  | lock now crane_id photo_id =>
    refine ⟨.lock, ?_, rfl⟩
    unfold AdminDelete.step
    dsimp only
    split
    · simp [RowLocks.none, Locks.available]
    · rfl
  | commit now photo =>
    exact ⟨.commit job_id, by simp [AdminDelete.step, hjob], rfl⟩
  | answered | stopped => cases hd

/-- So can a report. -/
theorem Report.progress {d : Report} (hd : (Proc.report d).unfinished = true) :
    ∃ a, (d.step p ⟨s, .none⟩ a).isSome = true ∧ (Action.report a).ordinary = true := by
  cases d with
  | lock now crane_id photo_id reporter_ip_hash =>
    refine ⟨.lock, ?_, rfl⟩
    unfold Report.step
    dsimp only
    split_ifs with hrow hlock
    · rfl
    · exact absurd rfl hlock
    · rfl
  | insert now photo_id reporter_ip_hash =>
    refine ⟨.insert, ?_, rfl⟩
    unfold Report.step
    dsimp only
    split_ifs <;> rfl
  | commit now photo_id reporter_ip_hash => exact ⟨.commit 0, rfl, rfl⟩
  | answered | stopped => cases hd

/-- So can a worker. -/
theorem Worker.progress (cfg : Settings) (hids : IdsLeft s) {w : Worker} (hw : w.Inv p ⟨s, k⟩)
    (hbusy : (Proc.worker w).unfinished = true) :
    ∃ a, (w.step cfg p ⟨s, .none⟩ a).isSome = true ∧ (Proc.worker w).Takes (.worker a) := by
  obtain ⟨ids, hnodup, hlength, hjobs⟩ := hids.job
  cases w with
  | idle => cases hbusy
  | claim now =>
    obtain ⟨rows, hrows⟩ : ∃ rows, Selects (OutboxJob.claimable .delete now) OutboxJob.created_at
        s.jobs rows := ⟨_, (OrderBy.insertion OutboxJob.created_at).selects⟩
    exact ⟨.selectJobs rows, by simp only [Worker.step, if_pos hrows, Option.isSome_some], .inl rfl⟩
  | claimScan now next jobs =>
    by_cases hend : next = [] ∨ cfg.job_batch_size ≤ jobs.length
    · exact ⟨.claimCommit, by simp only [Worker.step, if_pos hend, Option.isSome_some], .inl rfl⟩
    · rw [not_or, not_le] at hend
      obtain ⟨id, next, rfl⟩ := List.exists_cons_of_ne_nil hend.1
      exact ⟨.lockNextJob, Worker.isSome_lockNextJob hend.2, .inl rfl⟩
  | batch rest => exact ⟨.nextJob, by cases rest <;> rfl, .inl rfl⟩
  | delete job rest => exact ⟨.delete .deleted, rfl, .inl rfl⟩
  | deleted job rest =>
    refine ⟨.captureSelect 0, ?_, .inl rfl⟩
    unfold Worker.step
    dsimp only
    split <;> rfl
  | deleteFailed job err_str rest =>
    refine ⟨.captureSelect 0, ?_, .inl rfl⟩
    cases hread : s.job job.id with
    | none => simp [Worker.step, hread]
    | some read => simp [Worker.step, hread, backoffInRange]
  | successFlush now read rest =>
    obtain ⟨⟨job, hjob, -⟩, -⟩ := hw
    have hrow : (s.job read.id).isSome = true := Option.isSome_iff_exists.2 ⟨job, hjob⟩
    exact ⟨.captureFlush, by simp [Worker.step, hrow, RowLocks.none, Locks.available], .inl rfl⟩
  | failureFlush now backoff err_str read rest =>
    obtain ⟨⟨job, hjob, -⟩, -⟩ := hw
    have hrow : (s.job read.id).isSome = true := Option.isSome_iff_exists.2 ⟨job, hjob⟩
    cases hfits : fitsVarchar lastErrorWidth err_str with
    | true =>
      exact ⟨.captureFlush, by simp [Worker.step, hfits, hrow, RowLocks.none, Locks.available],
        .inl rfl⟩
    | false => exact ⟨.dbError, rfl, .inr ⟨by simp [Proc.refused, hfits], rfl⟩⟩
  | successDelete now read rest =>
    have hfree : ((s.photos.filter fun r => r.storage_key = read.storage_key).map
        CranePhoto.id).all (RowLocks.none.photo.available p) = true :=
      List.all_eq_true.2 fun _ _ => rfl
    exact ⟨.deletePhotos, by simp only [Worker.step, if_pos hfree, Option.isSome_some], .inl rfl⟩
  | successCommit | failureCommit => exact ⟨.captureCommit, rfl, .inl rfl⟩
  | reap now =>
    obtain ⟨rows, hrows⟩ : ∃ rows, Selects (CranePhoto.reapable cfg now) CranePhoto.added_at
        s.photos rows := ⟨_, (OrderBy.insertion CranePhoto.added_at).selects⟩
    exact ⟨.selectPhotos rows, by simp only [Worker.step, if_pos hrows, Option.isSome_some], .inl rfl⟩
  | reapScan now next photos =>
    by_cases hend : next = [] ∨ cfg.job_batch_size ≤ photos.length
    · -- The photos that the query has returned are rows of the table, so there are ids for them.
      have hsub : photos.length ≤ s.photos.length :=
        ((Locks.Scan.nodup_rows hw).of_map.subperm fun photo hphoto =>
          mem_of_row (Locks.Scan.current hw hphoto)).length_le
      have htake : (ids.take photos.length).length = photos.length := by
        rw [List.length_take]
        omega
      have hnew : (ids.take photos.length).all (fun i => s.job i = none) = true :=
        List.all_eq_true.2 fun i hi => decide_eq_true (hjobs i (List.mem_of_mem_take hi))
      have hdistinct : (ids.take photos.length).Nodup := hnodup.sublist (List.take_sublist _ _)
      have hall := And.intro hend (And.intro htake (And.intro hdistinct hnew))
      exact ⟨.reapCommit (ids.take photos.length), by
        simp only [Worker.step, if_pos hall, Option.isSome_some], .inl rfl⟩
    · rw [not_or, not_le] at hend
      obtain ⟨id, next, rfl⟩ := List.exists_cons_of_ne_nil hend.1
      exact ⟨.lockNextPhoto, Worker.isSome_lockNextPhoto hend.2, .inl rfl⟩

/-- A process in progress can go on when nothing is locked. -/
theorem Proc.progress (cfg : Settings) (hids : IdsLeft s) {l : Proc} (hl : l.Inv p ⟨s, k⟩)
    (hbusy : l.unfinished = true) :
    ∃ a, (l.step cfg p ⟨s, .none⟩ a).isSome = true ∧ l.Takes a := by
  cases l with
  | free => cases hbusy
  | upload u =>
    obtain ⟨a, ha, htakes⟩ :=
      Upload.progress (p := p) hids (by simpa [Proc.unfinished] using hbusy)
    exact ⟨.upload a, by rwa [← Option.isSome_map] at ha, htakes⟩
  | adminDelete d =>
    obtain ⟨a, ha, hord⟩ := AdminDelete.progress (p := p) hids hbusy
    exact ⟨.adminDelete a, by rwa [← Option.isSome_map] at ha, .inl hord⟩
  | report d =>
    obtain ⟨a, ha, hord⟩ := Report.progress (p := p) (s := s) hbusy
    exact ⟨.report a, by rwa [← Option.isSome_map] at ha, .inl hord⟩
  | worker w =>
    obtain ⟨a, ha, htakes⟩ := Worker.progress cfg hids hl hbusy
    exact ⟨.worker a, by rwa [← Option.isSome_map] at ha, htakes⟩

end Progress

/-! ### The order of the locks -/

/-- The rows that are locked later in a transaction come first. -/
def Row.level : Row → ℕ
  | .crane _ => 1
  | .photo _ => 1
  | .job _ => 2

/-- How far the end of a chain of waiting processes is at most. -/
def Proc.rank : Proc → ℕ
  | .upload (.lockCrane _ _) => 1
  | .upload (.finalize _) => 1
  | .upload (.abandonFlush _ _ _) => 1
  | .adminDelete (.lock _ _ _) => 1
  | .report (.lock _ _ _ _) => 1
  | .worker (.successFlush _ _ _) => 2
  | .worker (.failureFlush _ _ _ _ _) => 2
  | .worker (.successDelete _ _ _) => 1
  | _ => 0

section Order

variable {cfg : Settings} {c : State} {p q : ℕ} {s : Store} {l : Proc} {r : Row}

theorem Proc.rank_le (l : Proc) : l.rank ≤ 2 := by
  unfold Proc.rank
  split <;> omega

/-- What a process wants is as far as its rank says. -/
theorem Proc.rank_of_wants (h : r ∈ l.wants s) : l.rank = r.level := by
  unfold Proc.wants at h
  split at h
  case h_8 =>
    obtain ⟨photo, -, rfl⟩ := List.mem_map.1 h
    rfl
  case h_9 => cases h
  all_goals
    obtain rfl := List.mem_singleton.1 h
    rfl

/-- What a process holds is beyond what it wants. -/
theorem Proc.rank_lt_of_held (h : r ∈ l.held) : l.rank < r.level := by
  have hpos : 0 < r.level := by cases r <;> exact Nat.succ_pos _
  cases l with
  | free => cases h
  | upload u =>
    cases u with
    | lockCrane | put | finalize | abandon | abandonFlush | answered | stopped => cases h
    | count | insert | finalizeCommit | abandonCommit => exact hpos
  | adminDelete d =>
    cases d with
    | lock | answered | stopped => cases h
    | commit => exact hpos
  | report d =>
    cases d with
    | lock | answered | stopped => cases h
    | insert | commit => exact hpos
  | worker w =>
    cases w with
    | idle | claim | batch | delete | deleted | deleteFailed | successFlush | failureFlush | reap =>
      cases h
    | claimScan | successCommit | failureCommit | reapScan => exact hpos
    | successDelete =>
      obtain rfl := List.mem_singleton.1 h
      exact Nat.one_lt_two

/-- A process that holds a row is in the middle of something. -/
theorem Proc.unfinished_of_held (h : r ∈ l.held) : l.unfinished = true := by
  cases l with
  | free => cases h
  | upload u => cases u <;> first | rfl | cases h
  | adminDelete d => cases d <;> first | rfl | cases h
  | report d => cases d <;> first | rfl | cases h
  | worker w => cases w <;> first | rfl | cases h

/-- A chain of waiting processes goes down. -/
theorem WaitsFor.rank_lt (h : Reachable cfg c) (hw : WaitsFor c p q) :
    (c.procs q).rank < (c.procs p).rank := by
  obtain ⟨-, r, hwants, hholder⟩ := hw
  rw [Proc.rank_of_wants hwants]
  exact Proc.rank_lt_of_held ((locked_iff h q r).1 hholder)

/-- A step that a process could take if nothing were locked, and cannot take, is one for which it
waits. -/
theorem exists_waitsFor {a : Action} (hnow : (c.procs p).step cfg p c.shared a = none)
    (halone : ((c.procs p).step cfg p ⟨c.shared.store, .none⟩ a).isSome = true) :
    ∃ q, WaitsFor c p q := by
  by_contra hno
  have hfree : ∀ r ∈ (c.procs p).wants c.shared.store, c.shared.locks.free p r := by
    intro r hr q hq
    by_contra hne
    exact hno ⟨q, hne, r, hr, hq⟩
  have hstep : ((c.procs p).step cfg p c.shared a).isSome = true := Proc.isSome_step halone hfree
  rw [hnow] at hstep
  cases hstep

/-- At the end of the chain of a process in progress stands one that is in progress and can go on. -/
theorem exists_canStep (h : Reachable cfg c) (hids : IdsLeft c.shared.store)
    (hbusy : (c.procs p).unfinished = true) :
    ∃ q, Relation.ReflTransGen (WaitsFor c) p q ∧ (c.procs q).unfinished = true ∧
      CanStep cfg c q := by
  -- By induction on the rank, along the chain.
  generalize hn : (c.procs p).rank = n
  induction n using Nat.strong_induction_on generalizing p with
  | h n ih =>
    obtain ⟨a, ha, htakes⟩ := Proc.progress cfg hids (h.holds.2 p) hbusy
    cases hnow : (c.procs p).step cfg p c.shared a with
    | some o => exact ⟨p, .refl, hbusy, a, by rw [hnow]; rfl, htakes⟩
    | none =>
      obtain ⟨q, hq⟩ := exists_waitsFor hnow ha
      obtain ⟨r, -, hholder⟩ := hq.2
      have hbusy' := Proc.unfinished_of_held ((locked_iff h q r).1 hholder)
      obtain ⟨q', hchain, hgoes⟩ := ih _ (hn ▸ WaitsFor.rank_lt h hq) hbusy' rfl
      exact ⟨q', .head hq hchain, hgoes⟩

end Order

/-- The pipeline does not deadlock. In every reachable state, a step that only the locks of others keep a
process from taking is one for which it waits, a chain of waiting processes has two links at most, and
as long as there are new ids, at the end of the chain of each request and each worker in progress stands
one that is in progress and can go on. -/
theorem no_deadlock {cfg : Settings} {c : State} (h : Reachable cfg c) :
    (∀ p a, (c.procs p).step cfg p c.shared a = none →
      ((c.procs p).step cfg p ⟨c.shared.store, .none⟩ a).isSome = true → ∃ q, WaitsFor c p q) ∧
    (∃ rank : ℕ → ℕ, (∀ p, rank p ≤ 2) ∧ ∀ p q, WaitsFor c p q → rank q < rank p) ∧
    (IdsLeft c.shared.store → ∀ p, (c.procs p).unfinished = true →
      ∃ q, Relation.ReflTransGen (WaitsFor c) p q ∧ (c.procs q).unfinished = true ∧
        CanStep cfg c q) :=
  ⟨fun _ _ => exists_waitsFor, ⟨fun p => (c.procs p).rank, fun p => (c.procs p).rank_le,
    fun _ _ => WaitsFor.rank_lt h⟩, fun hids _ => exists_canStep h hids⟩

/-- One upload has locked its crane, and another upload to the crane waits for it. -/
theorem no_deadlock_uploads :
    ∃ c, (system {}).run (initial 0 [1]) [⟨0, .startUpload (jpegRequest 1)⟩, ⟨0, .upload .lockCrane⟩,
      ⟨0, .upload .count⟩, ⟨1, .startUpload (jpegRequest 1)⟩] = some c ∧ WaitsFor c 1 0 ∧
      ∃ q, Relation.ReflTransGen (WaitsFor c) 1 q ∧ (c.procs q).unfinished = true ∧
        CanStep {} c q := by
  have hrun : ((system {}).run (initial 0 [1]) [⟨0, .startUpload (jpegRequest 1)⟩,
      ⟨0, .upload .lockCrane⟩, ⟨0, .upload .count⟩, ⟨1, .startUpload (jpegRequest 1)⟩]).map
        (fun c => ((c.procs 1).wants c.shared.store, c.shared.locks.holder (.crane 1),
          (c.procs 1).unfinished, c.shared.store.issued 0, c.shared.store.photos.length,
          c.shared.store.jobs.length)) = some ([.crane 1], some 0, true, none, 0, 0) := by
    decide +kernel
  obtain ⟨c, hc, heq⟩ := Option.map_eq_some_iff.1 hrun
  simp only [Prod.mk.injEq] at heq
  obtain ⟨hwants, hholder, hbusy, hissued, hphotos, hjobs⟩ := heq
  have hids : IdsLeft c.shared.store := .of_length hissued (by rw [hphotos]; exact zero_le_one) hjobs
  refine ⟨c, hc, ⟨by decide, .crane 1, by rw [hwants]; exact List.mem_singleton_self _, hholder⟩, ?_⟩
  exact (no_deadlock ⟨0, [1], _, hc⟩).2.2 hids 1 hbusy

end CraneTracker.Pipeline
