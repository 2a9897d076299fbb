import CraneTracker.Pipeline.System

/-!
# What a step can be

The step functions of `Pipeline/System.lean`, read backwards: for each party a relation with one case
for each way in which it can step, and the guards of that case. What a party preserves is proved by these
cases, and no proof unfolds a step function again.
-/

namespace CraneTracker.Pipeline

open Table

/-! ## Upload requests -/

/-- What a step of an upload request can be. -/
inductive Upload.Step (p : ℕ) (db : Db) : Upload → UploadAction → Outcome Upload → Prop
  | lockCrane (now : Timestamp) (upload : PreparedUpload)
      (hcrane : db.store.hasCrane upload.crane_id = true)
      (hlock : db.locks.crane.available p upload.crane_id = true) :
      Upload.Step p db (.lockCrane now upload) .lockCrane
        ⟨.none, db.locks.lockCranes p [upload.crane_id], .count now upload⟩
  | missingCrane (now : Timestamp) (upload : PreparedUpload)
      (hcrane : db.store.hasCrane upload.crane_id ≠ true) :
      Upload.Step p db (.lockCrane now upload) .lockCrane ⟨.none, db.locks,
        .answered none (AppError.resourceNotFound "crane" upload.crane_id).response⟩
  | full (now : Timestamp) (upload : PreparedUpload) (e : AppError)
      (he : ensureCranePhotoCapacity db.store.photos upload.crane_id = .error e) :
      Upload.Step p db (.count now upload) .count
        ⟨.none, db.locks.release p, .answered none e.response⟩
  | count (now : Timestamp) (upload : PreparedUpload)
      (hok : ensureCranePhotoCapacity db.store.photos upload.crane_id = .ok ()) :
      Upload.Step p db (.count now upload) .count ⟨.none, db.locks, .insert now upload⟩
  | insert (now : Timestamp) (upload : PreparedUpload) (photo_id : Uuid)
      (hnew : db.store.issued photo_id = none)
      (hfits : fitsVarchar originalFilenameWidth upload.filename = true) :
      Upload.Step p db (.insert now upload) (.insert photo_id)
        ⟨.preuploadCranePhoto (preuploadCranePhoto now upload photo_id), db.locks.release p,
          .put (preuploadCranePhoto now upload photo_id)⟩
  | put (photo : CranePhoto) :
      Upload.Step p db (.put photo) (.put .stored)
        ⟨.putObject photo.storage_key, db.locks, .finalize photo⟩
  | storageError (photo : CranePhoto) (message : String) (effect : Bool) :
      Upload.Step p db (.put photo) (.put (.storageError message effect))
        ⟨if effect then .putObject photo.storage_key else .none, db.locks,
          .abandon photo (.error 503 message)⟩
  | otherError (photo : CranePhoto) (effect : Bool) :
      Upload.Step p db (.put photo) (.put (.otherError effect))
        ⟨if effect then .putObject photo.storage_key else .none, db.locks,
          .answered (some photo.id) .raised⟩
  | finalize (photo r : CranePhoto) (hrow : db.store.photo photo.id = some r)
      (hstatus : r.status = .pendingUpload)
      (hlock : db.locks.photo.available p photo.id = true) :
      Upload.Step p db (.finalize photo) .finalize
        ⟨.none, db.locks.lockPhotos p [photo.id], .finalizeCommit photo⟩
  | lost (photo : CranePhoto)
      (hrow : ∀ r, db.store.photo photo.id = some r → r.status ≠ .pendingUpload) :
      Upload.Step p db (.finalize photo) .finalize
        ⟨.none, db.locks.release p, .abandon photo raceResponse⟩
  | finalizeCommit (photo : CranePhoto) :
      Upload.Step p db (.finalizeCommit photo) .finalizeCommit
        ⟨.finalizeCranePhoto photo.id, db.locks.release p, .answered (some photo.id) (.ok 201)⟩
  | abandonSelect (photo read : CranePhoto) (answer : Answer)
      (hrow : db.store.photo photo.id = some read) (hstatus : read.status = .pendingUpload) :
      Upload.Step p db (.abandon photo answer) .abandonSelect
        ⟨.none, db.locks, .abandonFlush db.store.clock read answer⟩
  | abandoned (photo : CranePhoto) (answer : Answer)
      (hrow : ∀ r, db.store.photo photo.id = some r → r.status ≠ .pendingUpload) :
      Upload.Step p db (.abandon photo answer) .abandonSelect
        ⟨.none, db.locks, .answered (some photo.id) answer⟩
  | abandonFlush (now : Timestamp) (photo r : CranePhoto) (answer : Answer)
      (hrow : db.store.photo photo.id = some r)
      (hlock : db.locks.photo.available p photo.id = true) :
      Upload.Step p db (.abandonFlush now photo answer) .abandonFlush
        ⟨.none, db.locks.lockPhotos p [photo.id], .abandonCommit now photo answer⟩
  | abandonRaised (now : Timestamp) (photo : CranePhoto) (answer : Answer)
      (hrow : db.store.photo photo.id = none) :
      Upload.Step p db (.abandonFlush now photo answer) .abandonFlush
        ⟨.none, db.locks.release p, .answered (some photo.id) answer⟩
  | abandonCommit (now : Timestamp) (photo : CranePhoto) (answer : Answer) (job_id : Uuid)
      (hjob : db.store.job job_id = none) :
      Upload.Step p db (.abandonCommit now photo answer) (.abandonCommit job_id)
        ⟨.createDeleteCraneJobs .abandonCranePhotoUpload now [(photo, job_id)], db.locks.release p,
          .answered (some photo.id) answer⟩
  | dbError (u : Upload) (now : Timestamp) (upload : PreparedUpload)
      (hu : u = .lockCrane now upload ∨ u = .count now upload ∨ u = .insert now upload) :
      Upload.Step p db u .dbError
        ⟨.none, db.locks.release p, .answered none sqlAlchemyErrorResponse⟩
  | finalizeError (u : Upload) (photo : CranePhoto)
      (hu : u = .finalize photo ∨ u = .finalizeCommit photo) :
      Upload.Step p db u .dbError ⟨.none, db.locks.release p, .abandon photo notSavedResponse⟩
  | abandonError (u : Upload) (now : Timestamp) (photo : CranePhoto) (answer : Answer)
      (hu : u = .abandon photo answer ∨ u = .abandonFlush now photo answer ∨
        u = .abandonCommit now photo answer) :
      Upload.Step p db u .dbError
        ⟨.none, db.locks.release p, .answered (some photo.id) answer⟩
  | stop (u : Upload) (hu : ∀ photo_id answer, u ≠ .answered photo_id answer) :
      Upload.Step p db u .stop ⟨.none, db.locks.release p, .stopped⟩

/-- An upload request steps in one of these ways. -/
theorem Upload.step_cases {p : ℕ} {db : Db} {u : Upload} {a : UploadAction} {o : Outcome Upload}
    (h : u.step p db a = some o) : Upload.Step p db u a o := by
  cases a with
  | lockCrane =>
    simp only [Upload.step] at h
    split at h
    · split_ifs at h with hcrane hlock
      · cases h
        exact .lockCrane _ _ hcrane hlock
      · cases h
        exact .missingCrane _ _ hcrane
    · cases h
  | count =>
    simp only [Upload.step] at h
    split at h
    · split at h
      · rename_i e he
        cases h
        exact .full _ _ e he
      · rename_i hok
        cases h
        exact .count _ _ hok
    · cases h
  | insert photo_id =>
    simp only [Upload.step] at h
    split at h
    · split_ifs at h with hfits hnew
      cases h
      exact .insert _ _ _ hnew hfits
    · cases h
  | put result =>
    simp only [Upload.step] at h
    split at h
    · split at h
      · cases h
        exact .put _
      · cases h
        exact .storageError _ _ _
      · cases h
        exact .otherError _ _
    · cases h
  | finalize =>
    simp only [Upload.step] at h
    split at h
    · split_ifs at h with hpending hlock
      · cases h
        obtain ⟨r, hrow, hstatus⟩ := (Option.any_eq_true _ _).1 hpending
        exact .finalize _ r hrow (of_decide_eq_true hstatus) hlock
      · cases h
        refine .lost _ fun r hrow hstatus => hpending ?_
        rw [hrow, Option.any_some, decide_eq_true hstatus]
    · cases h
  | finalizeCommit =>
    simp only [Upload.step] at h
    split at h
    · cases h
      exact .finalizeCommit _
    · cases h
  | abandonSelect =>
    simp only [Upload.step] at h
    split at h
    · split at h
      · rename_i read hread
        cases h
        obtain ⟨hrow, hstatus⟩ := Option.filter_eq_some_iff.1 hread
        exact .abandonSelect _ read _ hrow (of_decide_eq_true hstatus)
      · rename_i hread
        cases h
        refine .abandoned _ _ fun r hrow hstatus => ?_
        rw [hrow, Option.filter_some, if_pos (decide_eq_true hstatus)] at hread
        cases hread
    · cases h
  | abandonFlush =>
    simp only [Upload.step] at h
    split at h
    · split at h
      · rename_i r hrow
        split_ifs at h with hlock
        cases h
        exact .abandonFlush _ _ r _ hrow hlock
      · rename_i hrow
        cases h
        exact .abandonRaised _ _ _ hrow
    · cases h
  | abandonCommit job_id =>
    simp only [Upload.step] at h
    split at h
    · split_ifs at h with hjob
      cases h
      exact .abandonCommit _ _ _ _ hjob
    · cases h
  | dbError =>
    simp only [Upload.step] at h
    split at h
    · cases h
      exact .dbError _ _ _ (.inl rfl)
    · cases h
      exact .dbError _ _ _ (.inr (.inl rfl))
    · cases h
      exact .dbError _ _ _ (.inr (.inr rfl))
    · cases h
      exact .finalizeError _ _ (.inl rfl)
    · cases h
      exact .finalizeError _ _ (.inr rfl)
    · cases h
      exact .abandonError _ 0 _ _ (.inl rfl)
    · cases h
      exact .abandonError _ _ _ _ (.inr (.inl rfl))
    · cases h
      exact .abandonError _ _ _ _ (.inr (.inr rfl))
    · cases h
  | stop =>
    simp only [Upload.step] at h
    split at h
    · cases h
    · rename_i hne
      cases h
      exact .stop _ hne

/-! ## Admin deletions -/

/-- What a step of an admin deletion can be. -/
inductive AdminDelete.Step (p : ℕ) (db : Db) :
    AdminDelete → AdminDeleteAction → Outcome AdminDelete → Prop
  | lock (now : Timestamp) (photo_id : Uuid) (photo : CranePhoto)
      (hrow : db.store.photo photo_id = some photo) (hstatus : photo.status = .active)
      (hlock : db.locks.photo.available p photo_id = true) :
      AdminDelete.Step p db (.lock now photo.crane_id photo_id) .lock
        ⟨.none, db.locks.lockPhotos p [photo_id], .commit now photo⟩
  | missing (now : Timestamp) (crane_id photo_id : Uuid)
      (hrow : ∀ r, db.store.photo photo_id = some r → r.crane_id = crane_id →
        r.status ≠ .active) :
      AdminDelete.Step p db (.lock now crane_id photo_id) .lock
        ⟨.none, db.locks, .answered (AppError.resourceNotFound "photo" photo_id).response⟩
  | commit (now : Timestamp) (photo : CranePhoto) (job_id : Uuid)
      (hjob : db.store.job job_id = none) :
      AdminDelete.Step p db (.commit now photo) (.commit job_id)
        ⟨.createDeleteCraneJobs .deleteCranePhoto now [(photo, job_id)], db.locks.release p,
          .answered (.ok 204)⟩
  | dbError (d : AdminDelete) (hd : ∀ answer, d ≠ .answered answer) :
      AdminDelete.Step p db d .dbError
        ⟨.none, db.locks.release p, .answered sqlAlchemyErrorResponse⟩
  | stop (d : AdminDelete) (hd : ∀ answer, d ≠ .answered answer) :
      AdminDelete.Step p db d .stop ⟨.none, db.locks.release p, .stopped⟩

/-- An admin deletion steps in one of these ways. -/
theorem AdminDelete.step_cases {p : ℕ} {db : Db} {d : AdminDelete} {a : AdminDeleteAction}
    {o : Outcome AdminDelete} (h : d.step p db a = some o) : AdminDelete.Step p db d a o := by
  cases a with
  | lock =>
    simp only [AdminDelete.step] at h
    split at h
    · split at h
      · rename_i photo hread
        split_ifs at h with hlock
        cases h
        obtain ⟨hrow, hcond⟩ := Option.filter_eq_some_iff.1 hread
        simp only [Bool.and_eq_true, decide_eq_true_eq] at hcond
        obtain ⟨rfl, hstatus⟩ := hcond
        exact .lock _ _ photo hrow hstatus hlock
      · rename_i hread
        cases h
        refine .missing _ _ _ fun r hrow hcrane hstatus => ?_
        rw [hrow, Option.filter_some, if_pos (by simp [hcrane, hstatus])] at hread
        cases hread
    · cases h
  | commit job_id =>
    simp only [AdminDelete.step] at h
    split at h
    · split_ifs at h with hjob
      cases h
      exact .commit _ _ _ hjob
    · cases h
  | dbError =>
    simp only [AdminDelete.step] at h
    split at h
    · cases h
      exact .dbError _ nofun
    · cases h
      exact .dbError _ nofun
    · cases h
  | stop =>
    simp only [AdminDelete.step] at h
    split at h
    · cases h
    · rename_i hne
      cases h
      exact .stop _ hne

/-! ## Photo reports -/

/-- What a step of a report can be. -/
inductive Report.Step (p : ℕ) (db : Db) : Report → ReportAction → Outcome Report → Prop
  | missing (now : Timestamp) (crane_id photo_id : Uuid) (reporter_ip_hash : String)
      (hrow : ∀ r, db.store.photo photo_id = some r → r.crane_id = crane_id →
        r.status ≠ .active) :
      Report.Step p db (.lock now crane_id photo_id reporter_ip_hash) .lock
        ⟨.none, db.locks, .answered (AppError.resourceNotFound "photo" photo_id).response⟩
  | lock (now : Timestamp) (photo_id : Uuid) (reporter_ip_hash : String) (photo : CranePhoto)
      (hrow : db.store.photo photo_id = some photo) (hstatus : photo.status = .active)
      (hlock : db.locks.photo.available p photo_id = true) :
      Report.Step p db (.lock now photo.crane_id photo_id reporter_ip_hash) .lock
        ⟨.none, db.locks.lockPhotos p [photo_id], .insert now photo_id reporter_ip_hash⟩
  | duplicate (now : Timestamp) (photo_id : Uuid) (reporter_ip_hash : String) (r : PhotoReport)
      (hr : r ∈ db.store.reports) (hphoto : r.photo_id = photo_id)
      (hhash : r.reporter_ip_hash = reporter_ip_hash) :
      Report.Step p db (.insert now photo_id reporter_ip_hash) .insert
        ⟨.none, db.locks.release p, .answered (.error 409 "Photo already reported from this IP")⟩
  | insert (now : Timestamp) (photo_id : Uuid) (reporter_ip_hash : String)
      (hnew : ∀ r ∈ db.store.reports, r.photo_id = photo_id →
        r.reporter_ip_hash ≠ reporter_ip_hash) :
      Report.Step p db (.insert now photo_id reporter_ip_hash) .insert
        ⟨.none, db.locks, .commit now photo_id reporter_ip_hash⟩
  | commit (now : Timestamp) (photo_id : Uuid) (reporter_ip_hash : String) (report_id : Uuid) :
      Report.Step p db (.commit now photo_id reporter_ip_hash) (.commit report_id)
        ⟨.reportCranePhoto ⟨report_id, photo_id, reporter_ip_hash, now⟩, db.locks.release p,
          .answered (.ok 201)⟩
  | dbError (r : Report) (hr : ∀ answer, r ≠ .answered answer) :
      Report.Step p db r .dbError ⟨.none, db.locks.release p, .answered sqlAlchemyErrorResponse⟩
  | stop (r : Report) (hr : ∀ answer, r ≠ .answered answer) :
      Report.Step p db r .stop ⟨.none, db.locks.release p, .stopped⟩

/-- A report steps in one of these ways. -/
theorem Report.step_cases {p : ℕ} {db : Db} {r : Report} {a : ReportAction} {o : Outcome Report}
    (h : r.step p db a = some o) : Report.Step p db r a o := by
  cases a with
  | lock =>
    simp only [Report.step] at h
    split at h
    · split_ifs at h with hphoto hlock
      · cases h
        obtain ⟨photo, hrow, hcond⟩ := (Option.any_eq_true _ _).1 hphoto
        simp only [Bool.and_eq_true, decide_eq_true_eq] at hcond
        obtain ⟨rfl, hstatus⟩ := hcond
        exact .lock _ _ _ photo hrow hstatus hlock
      · cases h
        refine .missing _ _ _ _ fun r hrow hcrane hstatus => hphoto ?_
        rw [hrow, Option.any_some, hcrane, hstatus]
        simp
    · cases h
  | insert =>
    simp only [Report.step] at h
    split at h
    · split_ifs at h with hdup
      · cases h
        obtain ⟨r, hr, hcond⟩ := List.any_eq_true.1 hdup
        simp only [Bool.and_eq_true, decide_eq_true_eq] at hcond
        exact .duplicate _ _ _ r hr hcond.1 hcond.2
      · cases h
        refine .insert _ _ _ fun r hr hphoto hhash => hdup ?_
        exact List.any_eq_true.2 ⟨r, hr, by simp [hphoto, hhash]⟩
    · cases h
  | commit report_id =>
    simp only [Report.step] at h
    split at h
    · cases h
      exact .commit _ _ _ _
    · cases h
  | dbError =>
    simp only [Report.step] at h
    split at h
    · cases h
      exact .dbError _ nofun
    · cases h
      exact .dbError _ nofun
    · cases h
      exact .dbError _ nofun
    · cases h
  | stop =>
    simp only [Report.step] at h
    split at h
    · cases h
    · rename_i hne
      cases h
      exact .stop _ hne

/-! ## Workers -/

/-- The jobs that are left to a worker in the middle of a status write. -/
def Worker.left : Worker → Option (List ClaimedJob)
  | .deleted _ rest => some rest
  | .deleteFailed _ _ rest => some rest
  | .successFlush _ _ rest => some rest
  | .successDelete _ _ rest => some rest
  | .successCommit _ _ _ rest => some rest
  | .failureFlush _ _ _ _ rest => some rest
  | .failureCommit _ _ _ _ rest => some rest
  | _ => none

/-- What a step of a worker can be. -/
inductive Worker.Step (cfg : Settings) (p : ℕ) (db : Db) :
    Worker → WorkerAction → Outcome Worker → Prop
  | beginClaim : Worker.Step cfg p db .idle .beginClaim ⟨.none, db.locks, .claim db.store.clock⟩
  | selectJobs (now : Timestamp) (rows : List OutboxJob)
      (hrows : Selects (OutboxJob.claimable .delete now) OutboxJob.created_at db.store.jobs rows) :
      Worker.Step cfg p db (.claim now) (.selectJobs rows)
        ⟨.none, db.locks, .claimScan now (rows.map OutboxJob.id) []⟩
  | takeJob (now : Timestamp) (id : Uuid) (next : List Uuid) (jobs : List OutboxJob)
      (job : OutboxJob) (hlimit : jobs.length < cfg.job_batch_size)
      (hnext : db.locks.job.lockNext p OutboxJob.id (OutboxJob.claimable .delete now)
        (db.store.job id) = some job) :
      Worker.Step cfg p db (.claimScan now (id :: next) jobs) .lockNextJob
        ⟨.none, db.locks.lockJobs p [id], .claimScan now next (jobs ++ [job])⟩
  | skipJob (now : Timestamp) (id : Uuid) (next : List Uuid) (jobs : List OutboxJob)
      (hlimit : jobs.length < cfg.job_batch_size)
      (hnext : db.locks.job.lockNext p OutboxJob.id (OutboxJob.claimable .delete now)
        (db.store.job id) = none) :
      Worker.Step cfg p db (.claimScan now (id :: next) jobs) .lockNextJob
        ⟨.none, db.locks, .claimScan now next jobs⟩
  | claimCommit (now : Timestamp) (next : List Uuid) (jobs : List OutboxJob)
      (hend : next = [] ∨ cfg.job_batch_size ≤ jobs.length) :
      Worker.Step cfg p db (.claimScan now next jobs) .claimCommit
        ⟨.claimJobs now jobs, db.locks.release p, .batch (jobs.map OutboxJob.toClaimedJob)⟩
  | endBatch : Worker.Step cfg p db (.batch []) .nextJob ⟨.none, db.locks, .idle⟩
  | nextJob (job : ClaimedJob) (rest : List ClaimedJob) :
      Worker.Step cfg p db (.batch (job :: rest)) .nextJob ⟨.none, db.locks, .delete job rest⟩
  | shutdown (job : ClaimedJob) (rest : List ClaimedJob) :
      Worker.Step cfg p db (.batch (job :: rest)) .shutdown ⟨.none, db.locks, .idle⟩
  | delete (job : ClaimedJob) (rest : List ClaimedJob) :
      Worker.Step cfg p db (.delete job rest) (.delete .deleted)
        ⟨.deleteObject job.storage_key, db.locks, .deleted job rest⟩
  | deleteError (job : ClaimedJob) (rest : List ClaimedJob) (err_str : String) (effect : Bool) :
      Worker.Step cfg p db (.delete job rest) (.delete (.error err_str effect))
        ⟨if effect then .deleteObject job.storage_key else .none, db.locks,
          .deleteFailed job err_str rest⟩
  | successSelect (job : ClaimedJob) (rest : List ClaimedJob) (backoff : ℤ) (read : OutboxJob)
      (hread : db.store.job job.id = some read) :
      Worker.Step cfg p db (.deleted job rest) (.captureSelect backoff)
        ⟨.none, db.locks, .successFlush db.store.clock read rest⟩
  | failureSelect (job : ClaimedJob) (err_str : String) (rest : List ClaimedJob) (backoff : ℤ)
      (read : OutboxJob) (hread : db.store.job job.id = some read)
      (hbackoff : backoffInRange cfg read.attempts backoff = true) :
      Worker.Step cfg p db (.deleteFailed job err_str rest) (.captureSelect backoff)
        ⟨.none, db.locks, .failureFlush db.store.clock backoff err_str read rest⟩
  | successMissing (job : ClaimedJob) (rest : List ClaimedJob) (backoff : ℤ)
      (hread : db.store.job job.id = none) :
      Worker.Step cfg p db (.deleted job rest) (.captureSelect backoff)
        ⟨.none, db.locks, .batch rest⟩
  | failureMissing (job : ClaimedJob) (err_str : String) (rest : List ClaimedJob) (backoff : ℤ)
      (hread : db.store.job job.id = none) :
      Worker.Step cfg p db (.deleteFailed job err_str rest) (.captureSelect backoff)
        ⟨.none, db.locks, .batch rest⟩
  | successFlush (now : Timestamp) (read : OutboxJob) (rest : List ClaimedJob)
      (hrow : (db.store.job read.id).isSome = true)
      (hlock : db.locks.job.available p read.id = true) :
      Worker.Step cfg p db (.successFlush now read rest) .captureFlush
        ⟨.none, db.locks.lockJobs p [read.id], .successDelete now read rest⟩
  | failureFlush (now : Timestamp) (backoff : ℤ) (err_str : String) (read : OutboxJob)
      (rest : List ClaimedJob) (hfits : fitsVarchar lastErrorWidth err_str = true)
      (hrow : (db.store.job read.id).isSome = true)
      (hlock : db.locks.job.available p read.id = true) :
      Worker.Step cfg p db (.failureFlush now backoff err_str read rest) .captureFlush
        ⟨.none, db.locks.lockJobs p [read.id], .failureCommit now backoff err_str read rest⟩
  | deletePhotos (now : Timestamp) (read : OutboxJob) (rest : List ClaimedJob)
      (photo_ids : List Uuid) (hids : photo_ids =
        (db.store.photos.filter fun r => r.storage_key = read.storage_key).map CranePhoto.id)
      (hlocks : ∀ i ∈ photo_ids, db.locks.photo.available p i = true) :
      Worker.Step cfg p db (.successDelete now read rest) .deletePhotos
        ⟨.none, db.locks.lockPhotos p photo_ids, .successCommit now read photo_ids rest⟩
  | successCommit (now : Timestamp) (read : OutboxJob) (photo_ids : List Uuid)
      (rest : List ClaimedJob) :
      Worker.Step cfg p db (.successCommit now read photo_ids rest) .captureCommit
        ⟨.captureSuccess now read photo_ids, db.locks.release p, .batch rest⟩
  | failureCommit (now : Timestamp) (backoff : ℤ) (err_str : String) (read : OutboxJob)
      (rest : List ClaimedJob) :
      Worker.Step cfg p db (.failureCommit now backoff err_str read rest) .captureCommit
        ⟨.captureFailure now backoff err_str read, db.locks.release p, .batch rest⟩
  | beginReap : Worker.Step cfg p db .idle .beginReap ⟨.none, db.locks, .reap db.store.clock⟩
  | selectPhotos (now : Timestamp) (rows : List CranePhoto)
      (hrows : Selects (CranePhoto.reapable cfg now) CranePhoto.added_at db.store.photos rows) :
      Worker.Step cfg p db (.reap now) (.selectPhotos rows)
        ⟨.none, db.locks, .reapScan now (rows.map CranePhoto.id) []⟩
  | takePhoto (now : Timestamp) (id : Uuid) (next : List Uuid) (photos : List CranePhoto)
      (photo : CranePhoto) (hlimit : photos.length < cfg.job_batch_size)
      (hnext : db.locks.photo.lockNext p CranePhoto.id (CranePhoto.reapable cfg now)
        (db.store.photo id) = some photo) :
      Worker.Step cfg p db (.reapScan now (id :: next) photos) .lockNextPhoto
        ⟨.none, db.locks.lockPhotos p [id], .reapScan now next (photos ++ [photo])⟩
  | skipPhoto (now : Timestamp) (id : Uuid) (next : List Uuid) (photos : List CranePhoto)
      (hlimit : photos.length < cfg.job_batch_size)
      (hnext : db.locks.photo.lockNext p CranePhoto.id (CranePhoto.reapable cfg now)
        (db.store.photo id) = none) :
      Worker.Step cfg p db (.reapScan now (id :: next) photos) .lockNextPhoto
        ⟨.none, db.locks, .reapScan now next photos⟩
  | reapCommit (now : Timestamp) (next : List Uuid) (photos : List CranePhoto)
      (job_ids : List Uuid) (hend : next = [] ∨ cfg.job_batch_size ≤ photos.length)
      (hlength : job_ids.length = photos.length) (hnodup : job_ids.Nodup)
      (hfresh : ∀ i ∈ job_ids, db.store.job i = none) :
      Worker.Step cfg p db (.reapScan now next photos) (.reapCommit job_ids)
        ⟨.createDeleteCraneJobs .runReapCranePhotos now (photos.zip job_ids), db.locks.release p,
          .idle⟩
  | queryError (w : Worker) (hw : w.left = none) :
      Worker.Step cfg p db w .dbError ⟨.none, db.locks.release p, .idle⟩
  | statusError (w : Worker) (rest : List ClaimedJob) (hw : w.left = some rest) :
      Worker.Step cfg p db w .dbError ⟨.none, db.locks.release p, .batch rest⟩
  | stop (w : Worker) : Worker.Step cfg p db w .stop ⟨.none, db.locks.release p, .idle⟩

/-- A worker steps in one of these ways. -/
theorem Worker.step_cases {cfg : Settings} {p : ℕ} {db : Db} {w : Worker} {a : WorkerAction}
    {o : Outcome Worker} (h : w.step cfg p db a = some o) : Worker.Step cfg p db w a o := by
  cases a with
  | beginClaim =>
    simp only [Worker.step] at h
    split at h
    · cases h
      exact .beginClaim
    · cases h
  | selectJobs rows =>
    simp only [Worker.step] at h
    split at h
    · split_ifs at h with hrows
      cases h
      exact .selectJobs _ _ hrows
    · cases h
  | lockNextJob =>
    simp only [Worker.step] at h
    split at h
    · split_ifs at h with hlimit
      split at h
      · rename_i job hnext
        cases h
        exact .takeJob _ _ _ _ job hlimit hnext
      · rename_i hnext
        cases h
        exact .skipJob _ _ _ _ hlimit hnext
    · cases h
  | claimCommit =>
    simp only [Worker.step] at h
    split at h
    · split_ifs at h with hend
      cases h
      exact .claimCommit _ _ _ hend
    · cases h
  | nextJob =>
    simp only [Worker.step] at h
    split at h
    · cases h
      exact .endBatch
    · cases h
      exact .nextJob _ _
    · cases h
  | shutdown =>
    simp only [Worker.step] at h
    split at h
    · cases h
      exact .shutdown _ _
    · cases h
  | delete result =>
    simp only [Worker.step] at h
    split at h
    · split at h
      · cases h
        exact .delete _ _
      · cases h
        exact .deleteError _ _ _ _
    · cases h
  | captureSelect backoff =>
    simp only [Worker.step] at h
    split at h
    · split at h
      · rename_i read hread
        cases h
        exact .successSelect _ _ _ read hread
      · rename_i hread
        cases h
        exact .successMissing _ _ _ hread
    · split at h
      · rename_i read hread
        split_ifs at h with hbackoff
        cases h
        exact .failureSelect _ _ _ _ read hread hbackoff
      · rename_i hread
        cases h
        exact .failureMissing _ _ _ _ hread
    · cases h
  | captureFlush =>
    simp only [Worker.step] at h
    split at h
    · split_ifs at h with hflush
      cases h
      obtain ⟨hrow, hlock⟩ := Bool.and_eq_true_iff.1 hflush
      exact .successFlush _ _ _ hrow hlock
    · split_ifs at h with hfits hflush
      cases h
      obtain ⟨hrow, hlock⟩ := Bool.and_eq_true_iff.1 hflush
      exact .failureFlush _ _ _ _ _ hfits hrow hlock
    · cases h
  | deletePhotos =>
    simp only [Worker.step] at h
    split at h
    · split_ifs at h with hlocks
      cases h
      exact .deletePhotos _ _ _ _ rfl (List.all_eq_true.1 hlocks)
    · cases h
  | captureCommit =>
    simp only [Worker.step] at h
    split at h
    · cases h
      exact .successCommit _ _ _ _
    · cases h
      exact .failureCommit _ _ _ _ _
    · cases h
  | beginReap =>
    simp only [Worker.step] at h
    split at h
    · cases h
      exact .beginReap
    · cases h
  | selectPhotos rows =>
    simp only [Worker.step] at h
    split at h
    · split_ifs at h with hrows
      cases h
      exact .selectPhotos _ _ hrows
    · cases h
  | lockNextPhoto =>
    simp only [Worker.step] at h
    split at h
    · split_ifs at h with hlimit
      split at h
      · rename_i photo hnext
        cases h
        exact .takePhoto _ _ _ _ photo hlimit hnext
      · rename_i hnext
        cases h
        exact .skipPhoto _ _ _ _ hlimit hnext
    · cases h
  | reapCommit job_ids =>
    simp only [Worker.step] at h
    split at h
    · split_ifs at h with hids
      cases h
      obtain ⟨hend, hlength, hnodup, hfresh⟩ := hids
      have hfresh' : ∀ i ∈ job_ids, db.store.job i = none := by simpa using hfresh
      exact .reapCommit _ _ _ _ hend hlength hnodup hfresh'
    · cases h
  | dbError =>
    -- The queries end the run, and the status writes go on with the loop.
    cases w with
    | claim | claimScan | reap | reapScan =>
      cases h
      exact .queryError _ rfl
    | deleted | deleteFailed | successFlush | successDelete | successCommit | failureFlush
    | failureCommit =>
      cases h
      exact .statusError _ _ rfl
    | idle | batch | delete => cases h
  | stop =>
    cases h
    exact .stop _

end CraneTracker.Pipeline
