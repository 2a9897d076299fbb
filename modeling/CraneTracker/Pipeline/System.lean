import CraneTracker.Lib.Interleaving
import CraneTracker.Pipeline.Store

/-!
# The parties of the photo pipeline

The upload requests, the admin deletions, the photo reports, and the workers, each as a process of an
interleaved system. A step of a process is one statement of its code that reads the database, locks
rows, commits, or calls the storage, so the steps of the others can fall between any two of them.

The database is PostgreSQL at READ COMMITTED:

- A plain `SELECT` reads the committed rows and takes no lock.
- `SELECT ... FOR UPDATE` and an `UPDATE` or `DELETE` wait until no other transaction holds the row,
  then decide on its current version. The step is not possible while another process holds the row.
- `FOR UPDATE SKIP LOCKED` evaluates its condition and order on a snapshot, then goes through the rows
  of the result. It skips those that another transaction holds and those whose current version no
  longer satisfies the condition, and stops at the limit. Each row is a step of its own.
- Locks last until the commit or the rollback. Nobody sees the writes of a transaction before its
  commit, so a statement that only writes is part of the step that commits it.
- `now()` is the time at which the transaction began.

A statement or a commit may raise an `SQLAlchemyError`, which applies nothing (`dbError`), and a
process may stop at any point (`stop`). A call of the storage takes effect at one point in time. When
it raises, it may have taken effect or not.
-/

namespace CraneTracker.Pipeline

open Interleaving Table

/-- What a step of a process does: a write, the new row locks, and the new local state. -/
structure Outcome (π : Type) where
  write : Write
  locks : RowLocks
  proc : π

/-- The same outcome with another form of local state. -/
def Outcome.map {π π' : Type} (f : π → π') (o : Outcome π) : Outcome π' :=
  ⟨o.write, o.locks, f o.proc⟩

/-! ## Upload requests -/

/-- How a call of `upload_photo` ends: it returns, it raises a `PhotoStorageError`, or it raises
another exception. `effect` says whether the object was stored although the call raised. -/
inductive PutResult
  | stored
  | storageError (message : String) (effect : Bool)
  | otherError (effect : Bool)

/-- The local state of an upload request, by the statement that it runs next. -/
inductive Upload
  /-- The locking query of `ensure_crane_photo_capacity`, in a transaction that began at `now`. -/
  | lockCrane (now : Timestamp) (upload : PreparedUpload)
  /-- The count of `ensure_crane_photo_capacity`. -/
  | count (now : Timestamp) (upload : PreparedUpload)
  /-- The insert of `preupload_crane_photo` and its commit. -/
  | insert (now : Timestamp) (upload : PreparedUpload)
  /-- `upload_crane_photo_to_storage`, for the photo that was inserted. -/
  | put (photo : CranePhoto)
  /-- The guarded `UPDATE` of `finalize_crane_photo`. -/
  | finalize (photo : CranePhoto)
  /-- Its commit. -/
  | finalizeCommit (photo : CranePhoto)
  /-- The `SELECT` of `abandon_crane_photo_upload`. The request will end with `answer`. -/
  | abandon (photo : CranePhoto) (answer : Answer)
  /-- The flush of `create_delete_crane_job`, for the photo as it was read. -/
  | abandonFlush (now : Timestamp) (photo : CranePhoto) (answer : Answer)
  /-- The commit of the abandonment. -/
  | abandonCommit (now : Timestamp) (photo : CranePhoto) (answer : Answer)
  /-- The request has ended. `photo_id` is the photo that it inserted. -/
  | answered (photo_id : Option Uuid) (answer : Answer)
  /-- The process has stopped without an answer. -/
  | stopped

/-- The steps of an upload request. -/
inductive UploadAction
  | lockCrane
  | count
  | insert (photo_id : Uuid)
  | put (result : PutResult)
  | finalize
  | finalizeCommit
  | abandonSelect
  | abandonFlush
  | abandonCommit (job_id : Uuid)
  | dbError
  | stop

/-- The answer of an upload whose finalization raises an `SQLAlchemyError`. -/
def notSavedResponse : Answer := .error 500 "Photo could not be saved"

/-- The answer of an upload that is no longer pending when it is finalized. -/
def raceResponse : Answer := .error 503 AppError.photoUploadRace.str

/-- The steps of `upload_crane_photo` after its validation. -/
def Upload.step (p : ℕ) (db : Db) (u : Upload) (a : UploadAction) : Option (Outcome Upload) :=
  match a with
  | .lockCrane =>
    match u with
    | .lockCrane now upload =>
      -- A crane that is missing is not locked, and the query does not wait.
      if db.store.hasCrane upload.crane_id then
        if db.locks.crane.available p upload.crane_id then
          some ⟨.none, db.locks.lockCranes p [upload.crane_id], .count now upload⟩
        else none
      else
        some ⟨.none, db.locks,
          .answered none (AppError.resourceNotFound "crane" upload.crane_id).response⟩
    | _ => none
  | .count =>
    match u with
    | .count now upload =>
      -- The count is a statement of its own, so it sees what was committed before it.
      match ensureCranePhotoCapacity db.store.photos upload.crane_id with
      | .error e => some ⟨.none, db.locks.release p, .answered none e.response⟩
      | .ok _ => some ⟨.none, db.locks, .insert now upload⟩
    | _ => none
  | .insert photo_id =>
    match u with
    | .insert now upload =>
      -- The database refuses a file name with a NUL character.
      if fitsVarchar originalFilenameWidth upload.filename then
        -- `generate_uuid7` never repeats an id.
        if db.store.issued photo_id = none then
          let photo := preuploadCranePhoto now upload photo_id
          some ⟨.preuploadCranePhoto photo, db.locks.release p, .put photo⟩
        else none
      else none
    | _ => none
  | .put result =>
    match u with
    | .put photo =>
      match result with
      | .stored => some ⟨.putObject photo.storage_key, db.locks, .finalize photo⟩
      -- The route catches a `PhotoStorageError`, and abandons the photo.
      | .storageError message effect =>
        some ⟨if effect then .putObject photo.storage_key else .none, db.locks,
          .abandon photo (.error 503 message)⟩
      -- It catches nothing else, and the photo stays pending.
      | .otherError effect =>
        some ⟨if effect then .putObject photo.storage_key else .none, db.locks,
          .answered (some photo.id) .raised⟩
    | _ => none
  | .finalize =>
    match u with
    | .finalize photo =>
      -- A row that is missing or not pending does not match, and the `UPDATE` does not wait for it.
      if (db.store.photo photo.id).any fun r => r.status = .pendingUpload then
        if db.locks.photo.available p photo.id then
          some ⟨.none, db.locks.lockPhotos p [photo.id], .finalizeCommit photo⟩
        else none
      else
        some ⟨.none, db.locks.release p, .abandon photo raceResponse⟩
    | _ => none
  | .finalizeCommit =>
    match u with
    | .finalizeCommit photo =>
      some ⟨.finalizeCranePhoto photo.id, db.locks.release p, .answered (some photo.id) (.ok 201)⟩
    | _ => none
  | .abandonSelect =>
    match u with
    | .abandon photo answer =>
      match (db.store.photo photo.id).filter fun r => r.status = .pendingUpload with
      | some read => some ⟨.none, db.locks, .abandonFlush db.store.clock read answer⟩
      -- Marked or removed by another: there is nothing to abandon.
      | none => some ⟨.none, db.locks, .answered (some photo.id) answer⟩
    | _ => none
  | .abandonFlush =>
    match u with
    | .abandonFlush now photo answer =>
      match db.store.photo photo.id with
      | some _ =>
        if db.locks.photo.available p photo.id then
          some ⟨.none, db.locks.lockPhotos p [photo.id], .abandonCommit now photo answer⟩
        else none
      -- No row matches the primary key: the flush raises, and `_abandon_helper` rolls back.
      | none => some ⟨.none, db.locks.release p, .answered (some photo.id) answer⟩
    | _ => none
  | .abandonCommit job_id =>
    match u with
    | .abandonCommit now photo answer =>
      if db.store.job job_id = none then
        some ⟨.createDeleteCraneJobs .abandonCranePhotoUpload now [(photo, job_id)],
          db.locks.release p, .answered (some photo.id) answer⟩
      else none
    | _ => none
  | .dbError =>
    match u with
    -- Nothing has been inserted yet, and the error leaves the route.
    | .lockCrane _ _ | .count _ _ | .insert _ _ =>
      some ⟨.none, db.locks.release p, .answered none sqlAlchemyErrorResponse⟩
    -- The route catches it, and abandons the photo.
    | .finalize photo | .finalizeCommit photo =>
      some ⟨.none, db.locks.release p, .abandon photo notSavedResponse⟩
    -- `_abandon_helper` catches everything.
    | .abandon photo answer | .abandonFlush _ photo answer | .abandonCommit _ photo answer =>
      some ⟨.none, db.locks.release p, .answered (some photo.id) answer⟩
    | _ => none
  | .stop =>
    match u with
    -- The database rolls back the transaction of a process that is gone.
    | .answered _ _ => none
    | _ => some ⟨.none, db.locks.release p, .stopped⟩

/-- The request has ended. -/
def Upload.ended : Upload → Bool
  | .answered _ _ => true
  | .stopped => true
  | _ => false

/-! ## Admin deletions -/

/-- The local state of an admin deletion. -/
inductive AdminDelete
  /-- The locking query of `delete_crane_photo`, in a transaction that began at `now`. -/
  | lock (now : Timestamp) (crane_id photo_id : Uuid)
  /-- `create_delete_crane_job` for the locked photo, and the commit. -/
  | commit (now : Timestamp) (photo : CranePhoto)
  | answered (answer : Answer)
  | stopped

/-- The steps of an admin deletion. -/
inductive AdminDeleteAction
  | lock
  | commit (job_id : Uuid)
  | dbError
  | stop

/-- The steps of the route `delete_crane_photo`. -/
def AdminDelete.step (p : ℕ) (db : Db) (d : AdminDelete) (a : AdminDeleteAction) :
    Option (Outcome AdminDelete) :=
  match a with
  | .lock =>
    match d with
    | .lock now crane_id photo_id =>
      match (db.store.photo photo_id).filter fun r => r.crane_id = crane_id && r.status = .active with
      | some photo =>
        if db.locks.photo.available p photo_id then
          some ⟨.none, db.locks.lockPhotos p [photo_id], .commit now photo⟩
        else none
      | none =>
        some ⟨.none, db.locks, .answered (AppError.resourceNotFound "photo" photo_id).response⟩
    | _ => none
  | .commit job_id =>
    match d with
    | .commit now photo =>
      if db.store.job job_id = none then
        some ⟨.createDeleteCraneJobs .deleteCranePhoto now [(photo, job_id)], db.locks.release p,
          .answered (.ok 204)⟩
      else none
    | _ => none
  | .dbError =>
    match d with
    | .lock _ _ _ | .commit _ _ =>
      some ⟨.none, db.locks.release p, .answered sqlAlchemyErrorResponse⟩
    | _ => none
  | .stop =>
    match d with
    | .answered _ => none
    | _ => some ⟨.none, db.locks.release p, .stopped⟩

/-! ## Photo reports -/

/-- The local state of a photo report. -/
inductive Report
  /-- The locking query of `report_crane_photo`, in a transaction that began at `now`. -/
  | lock (now : Timestamp) (crane_id photo_id : Uuid) (reporter_ip_hash : String)
  /-- The insert that ignores conflicts. -/
  | insert (now : Timestamp) (photo_id : Uuid) (reporter_ip_hash : String)
  /-- The commit, after the insert returned a row. -/
  | commit (now : Timestamp) (photo_id : Uuid) (reporter_ip_hash : String)
  | answered (answer : Answer)
  | stopped

/-- The steps of a photo report. -/
inductive ReportAction
  | lock
  | insert
  | commit (report_id : Uuid)
  | dbError
  | stop

/-- The steps of the route `report_crane_photo`. -/
def Report.step (p : ℕ) (db : Db) (r : Report) (a : ReportAction) : Option (Outcome Report) :=
  match a with
  | .lock =>
    match r with
    | .lock now crane_id photo_id reporter_ip_hash =>
      if (db.store.photo photo_id).any fun r => r.crane_id = crane_id && r.status = .active then
        if db.locks.photo.available p photo_id then
          some ⟨.none, db.locks.lockPhotos p [photo_id], .insert now photo_id reporter_ip_hash⟩
        else none
      else
        some ⟨.none, db.locks, .answered (AppError.resourceNotFound "photo" photo_id).response⟩
    | _ => none
  | .insert =>
    match r with
    | .insert now photo_id reporter_ip_hash =>
      -- `on_conflict_do_nothing`: no row is returned, and the route answers `409`.
      if db.store.reports.any fun r =>
          r.photo_id = photo_id && r.reporter_ip_hash = reporter_ip_hash then
        some ⟨.none, db.locks.release p,
          .answered (.error 409 "Photo already reported from this IP")⟩
      else
        some ⟨.none, db.locks, .commit now photo_id reporter_ip_hash⟩
    | _ => none
  | .commit report_id =>
    match r with
    | .commit now photo_id reporter_ip_hash =>
      some ⟨.reportCranePhoto ⟨report_id, photo_id, reporter_ip_hash, now⟩, db.locks.release p,
        .answered (.ok 201)⟩
    | _ => none
  | .dbError =>
    match r with
    | .lock _ _ _ _ | .insert _ _ _ | .commit _ _ _ =>
      some ⟨.none, db.locks.release p, .answered sqlAlchemyErrorResponse⟩
    | _ => none
  | .stop =>
    match r with
    | .answered _ => none
    | _ => some ⟨.none, db.locks.release p, .stopped⟩

/-! ## Workers -/

/-- How a call of `delete_photo` ends: it returns, or it raises. `effect` says whether the object was
deleted although the call raised. -/
inductive DeleteResult
  | deleted
  | error (err_str : String) (effect : Bool)

/-- The local state of a worker. The jobs in `rest` are those of its batch that it has yet to
reach. -/
inductive Worker
  /-- Between two runs. -/
  | idle
  /-- The locking query of `claim_jobs`, in a transaction that began at `now`. -/
  | claim (now : Timestamp)
  /-- The query has yet to reach the rows `next`, and has returned `jobs`. -/
  | claimScan (now : Timestamp) (next : List Uuid) (jobs : List OutboxJob)
  /-- The head of the loop of `run_delete_batch`. -/
  | batch (rest : List ClaimedJob)
  /-- The call of `delete_photo`. -/
  | delete (job : ClaimedJob) (rest : List ClaimedJob)
  /-- The `SELECT` of `capture_success`. -/
  | deleted (job : ClaimedJob) (rest : List ClaimedJob)
  /-- The `SELECT` of `capture_failure`. -/
  | deleteFailed (job : ClaimedJob) (err_str : String) (rest : List ClaimedJob)
  /-- The flush of `capture_success`, which has read `read`. -/
  | successFlush (now : Timestamp) (read : OutboxJob) (rest : List ClaimedJob)
  /-- The `DELETE` of `capture_success`. -/
  | successDelete (now : Timestamp) (read : OutboxJob) (rest : List ClaimedJob)
  /-- The commit of `capture_success`, whose `DELETE` found `photo_ids`. -/
  | successCommit (now : Timestamp) (read : OutboxJob) (photo_ids : List Uuid)
      (rest : List ClaimedJob)
  /-- The flush of `capture_failure`, which has read `read`. -/
  | failureFlush (now : Timestamp) (backoff : ℤ) (err_str : String) (read : OutboxJob)
      (rest : List ClaimedJob)
  /-- The commit of `capture_failure`. -/
  | failureCommit (now : Timestamp) (backoff : ℤ) (err_str : String) (read : OutboxJob)
      (rest : List ClaimedJob)
  /-- The locking query of `run_reap_crane_photos`, in a transaction that began at `now`. -/
  | reap (now : Timestamp)
  /-- The query has yet to reach the rows `next`, and has returned `photos`. -/
  | reapScan (now : Timestamp) (next : List Uuid) (photos : List CranePhoto)

/-- The steps of a worker. -/
inductive WorkerAction
  | beginClaim
  | selectJobs (rows : List OutboxJob)
  | lockNextJob
  | claimCommit
  | nextJob
  | shutdown
  | delete (result : DeleteResult)
  | captureSelect (backoff : ℤ)
  | captureFlush
  | deletePhotos
  | captureCommit
  | beginReap
  | selectPhotos (rows : List CranePhoto)
  | lockNextPhoto
  | reapCommit (job_ids : List Uuid)
  | dbError
  | stop

/-- The steps of `run_delete_batch` and `run_reap_crane_photos`. -/
def Worker.step (cfg : Settings) (p : ℕ) (db : Db) (w : Worker) (a : WorkerAction) :
    Option (Outcome Worker) :=
  match a with
  | .beginClaim =>
    match w with
    | .idle => some ⟨.none, db.locks, .claim db.store.clock⟩
    | _ => none
  | .selectJobs rows =>
    match w with
    | .claim now =>
      -- The snapshot of the query, in the order in which it goes through the rows.
      if Selects (OutboxJob.claimable .delete now) OutboxJob.created_at db.store.jobs rows then
        some ⟨.none, db.locks, .claimScan now (rows.map OutboxJob.id) []⟩
      else none
    | _ => none
  | .lockNextJob =>
    match w with
    | .claimScan now (id :: next) jobs =>
      if jobs.length < cfg.job_batch_size then
        match db.locks.job.lockNext p OutboxJob.id (OutboxJob.claimable .delete now)
          (db.store.job id) with
        | some job => some ⟨.none, db.locks.lockJobs p [id], .claimScan now next (jobs ++ [job])⟩
        | none => some ⟨.none, db.locks, .claimScan now next jobs⟩
      else none
    | _ => none
  | .claimCommit =>
    match w with
    | .claimScan now next jobs =>
      -- The query ends at its last row or at the limit.
      if next = [] ∨ cfg.job_batch_size ≤ jobs.length then
        some ⟨.claimJobs now jobs, db.locks.release p, .batch (jobs.map OutboxJob.toClaimedJob)⟩
      else none
    | _ => none
  | .nextJob =>
    match w with
    | .batch [] => some ⟨.none, db.locks, .idle⟩
    | .batch (job :: rest) => some ⟨.none, db.locks, .delete job rest⟩
    | _ => none
  | .shutdown =>
    match w with
    -- `shutdown` is set: the jobs that are left keep their leases.
    | .batch (_ :: _) => some ⟨.none, db.locks, .idle⟩
    | _ => none
  | .delete result =>
    match w with
    | .delete job rest =>
      match result with
      | .deleted => some ⟨.deleteObject job.storage_key, db.locks, .deleted job rest⟩
      | .error err_str effect =>
        some ⟨if effect then .deleteObject job.storage_key else .none, db.locks,
          .deleteFailed job err_str rest⟩
    | _ => none
  | .captureSelect backoff =>
    match w with
    | .deleted job rest =>
      match db.store.job job.id with
      | some read => some ⟨.none, db.locks, .successFlush db.store.clock read rest⟩
      -- A `ResourceNotFoundError`, which `_record_job_outcome` logs.
      | none => some ⟨.none, db.locks, .batch rest⟩
    | .deleteFailed job err_str rest =>
      match db.store.job job.id with
      | some read =>
        if backoffInRange cfg read.attempts backoff then
          some ⟨.none, db.locks, .failureFlush db.store.clock backoff err_str read rest⟩
        else none
      | none => some ⟨.none, db.locks, .batch rest⟩
    | _ => none
  | .captureFlush =>
    match w with
    | .successFlush now read rest =>
      -- The `UPDATE` by primary key waits for the row, whoever has claimed it since.
      if (db.store.job read.id).isSome && db.locks.job.available p read.id then
        some ⟨.none, db.locks.lockJobs p [read.id], .successDelete now read rest⟩
      else none
    | .failureFlush now backoff err_str read rest =>
      -- The database refuses an error text that is too long for its column or has a NUL character.
      if fitsVarchar lastErrorWidth err_str then
        if (db.store.job read.id).isSome && db.locks.job.available p read.id then
          some ⟨.none, db.locks.lockJobs p [read.id], .failureCommit now backoff err_str read rest⟩
        else none
      else none
    | _ => none
  | .deletePhotos =>
    match w with
    | .successDelete now read rest =>
      -- The `DELETE` waits for every row with the key.
      let photo_ids :=
        (db.store.photos.filter fun r => r.storage_key = read.storage_key).map CranePhoto.id
      if photo_ids.all (db.locks.photo.available p) then
        some ⟨.none, db.locks.lockPhotos p photo_ids, .successCommit now read photo_ids rest⟩
      else none
    | _ => none
  | .captureCommit =>
    match w with
    | .successCommit now read photo_ids rest =>
      some ⟨.captureSuccess now read photo_ids, db.locks.release p, .batch rest⟩
    | .failureCommit now backoff err_str read rest =>
      some ⟨.captureFailure now backoff err_str read, db.locks.release p, .batch rest⟩
    | _ => none
  | .beginReap =>
    match w with
    | .idle => some ⟨.none, db.locks, .reap db.store.clock⟩
    | _ => none
  | .selectPhotos rows =>
    match w with
    | .reap now =>
      if Selects (CranePhoto.reapable cfg now) CranePhoto.added_at db.store.photos rows then
        some ⟨.none, db.locks, .reapScan now (rows.map CranePhoto.id) []⟩
      else none
    | _ => none
  | .lockNextPhoto =>
    match w with
    | .reapScan now (id :: next) photos =>
      if photos.length < cfg.job_batch_size then
        match db.locks.photo.lockNext p CranePhoto.id (CranePhoto.reapable cfg now)
          (db.store.photo id) with
        | some photo =>
          some ⟨.none, db.locks.lockPhotos p [id], .reapScan now next (photos ++ [photo])⟩
        | none => some ⟨.none, db.locks, .reapScan now next photos⟩
      else none
    | _ => none
  | .reapCommit job_ids =>
    match w with
    | .reapScan now next photos =>
      if (next = [] ∨ cfg.job_batch_size ≤ photos.length) ∧ job_ids.length = photos.length ∧
          job_ids.Nodup ∧ job_ids.all (fun i => db.store.job i = none) then
        some ⟨.createDeleteCraneJobs .runReapCranePhotos now (photos.zip job_ids),
          db.locks.release p, .idle⟩
      else none
    | _ => none
  | .dbError =>
    match w with
    -- Both jobs of the worker catch the error and return `0`.
    | .claim _ | .claimScan _ _ _ | .reap _ | .reapScan _ _ _ =>
      some ⟨.none, db.locks.release p, .idle⟩
    -- `_record_job_outcome` catches it, and the loop goes on without an outcome.
    | .deleted _ rest | .deleteFailed _ _ rest | .successFlush _ _ rest | .successDelete _ _ rest
    | .successCommit _ _ _ rest | .failureFlush _ _ _ _ rest | .failureCommit _ _ _ _ rest =>
      some ⟨.none, db.locks.release p, .batch rest⟩
    | _ => none
  | .stop => some ⟨.none, db.locks.release p, .idle⟩

/-! ## The system -/

/-- The local state of a process. A process that is `free` can become any party. -/
inductive Proc
  | free
  | upload (u : Upload)
  | adminDelete (d : AdminDelete)
  | report (r : Report)
  | worker (w : Worker)

/-- The steps of a process, of the database clock, and of the creation of cranes. -/
inductive Action
  | tick (now : Timestamp)
  | createCrane (id : Uuid)
  | startUpload (request : UploadRequest)
  | startAdminDelete (crane_id photo_id : Uuid)
  | startReport (crane_id photo_id : Uuid) (reporter_ip_hash : String)
  | startWorker
  | upload (a : UploadAction)
  | adminDelete (a : AdminDeleteAction)
  | report (a : ReportAction)
  | worker (a : WorkerAction)

/-- The step of a process. -/
def Proc.step (cfg : Settings) (p : ℕ) (db : Db) (proc : Proc) (a : Action) :
    Option (Outcome Proc) :=
  match a with
  | .tick now => if db.store.clock ≤ now then some ⟨.tick now, db.locks, proc⟩ else none
  | .createCrane id => some ⟨.createCrane id, db.locks, proc⟩
  | .startUpload request =>
    match proc with
    | .free =>
      match validateUpload request with
      | .error e => some ⟨.none, db.locks, .upload (.answered none e.response)⟩
      | .ok prepared => some ⟨.none, db.locks, .upload (.lockCrane db.store.clock prepared)⟩
    | _ => none
  | .startAdminDelete crane_id photo_id =>
    match proc with
    | .free => some ⟨.none, db.locks, .adminDelete (.lock db.store.clock crane_id photo_id)⟩
    | _ => none
  | .startReport crane_id photo_id reporter_ip_hash =>
    match proc with
    | .free =>
      some ⟨.none, db.locks, .report (.lock db.store.clock crane_id photo_id reporter_ip_hash)⟩
    | _ => none
  | .startWorker =>
    match proc with
    | .free => some ⟨.none, db.locks, .worker .idle⟩
    | _ => none
  | .upload a =>
    match proc with
    | .upload u => (u.step p db a).map (Outcome.map .upload)
    | _ => none
  | .adminDelete a =>
    match proc with
    | .adminDelete d => (d.step p db a).map (Outcome.map .adminDelete)
    | _ => none
  | .report a =>
    match proc with
    | .report r => (r.step p db a).map (Outcome.map .report)
    | _ => none
  | .worker a =>
    match proc with
    | .worker w => (w.step cfg p db a).map (Outcome.map .worker)
    | _ => none

/-- What a step of a process can be: a step of the clock or the creation of a crane, which leave the
process as it is, the start of a party, or a step of the party that the process is. -/
inductive Proc.Step (cfg : Settings) (p : ℕ) (db : Db) : Proc → Action → Outcome Proc → Prop
  | tick (l : Proc) (now : Timestamp) (hnow : db.store.clock ≤ now) :
      Proc.Step cfg p db l (.tick now) ⟨.tick now, db.locks, l⟩
  | createCrane (l : Proc) (id : Uuid) :
      Proc.Step cfg p db l (.createCrane id) ⟨.createCrane id, db.locks, l⟩
  | refuseUpload (request : UploadRequest) (e : AppError) (he : validateUpload request = .error e) :
      Proc.Step cfg p db .free (.startUpload request)
        ⟨.none, db.locks, .upload (.answered none e.response)⟩
  | startUpload (request : UploadRequest) (prepared : PreparedUpload)
      (hok : validateUpload request = .ok prepared) :
      Proc.Step cfg p db .free (.startUpload request)
        ⟨.none, db.locks, .upload (.lockCrane db.store.clock prepared)⟩
  | startAdminDelete (crane_id photo_id : Uuid) :
      Proc.Step cfg p db .free (.startAdminDelete crane_id photo_id)
        ⟨.none, db.locks, .adminDelete (.lock db.store.clock crane_id photo_id)⟩
  | startReport (crane_id photo_id : Uuid) (reporter_ip_hash : String) :
      Proc.Step cfg p db .free (.startReport crane_id photo_id reporter_ip_hash)
        ⟨.none, db.locks, .report (.lock db.store.clock crane_id photo_id reporter_ip_hash)⟩
  | startWorker : Proc.Step cfg p db .free .startWorker ⟨.none, db.locks, .worker .idle⟩
  | upload (u : Upload) (a : UploadAction) (o : Outcome Upload) (ho : u.step p db a = some o) :
      Proc.Step cfg p db (.upload u) (.upload a) (o.map .upload)
  | adminDelete (d : AdminDelete) (a : AdminDeleteAction) (o : Outcome AdminDelete)
      (ho : d.step p db a = some o) :
      Proc.Step cfg p db (.adminDelete d) (.adminDelete a) (o.map .adminDelete)
  | report (r : Report) (a : ReportAction) (o : Outcome Report) (ho : r.step p db a = some o) :
      Proc.Step cfg p db (.report r) (.report a) (o.map .report)
  | worker (w : Worker) (a : WorkerAction) (o : Outcome Worker) (ho : w.step cfg p db a = some o) :
      Proc.Step cfg p db (.worker w) (.worker a) (o.map .worker)

/-- A process steps in one of these ways. -/
theorem Proc.step_cases {cfg : Settings} {p : ℕ} {db : Db} {l : Proc} {a : Action}
    {o : Outcome Proc} (h : l.step cfg p db a = some o) : Proc.Step cfg p db l a o := by
  unfold Proc.step at h
  cases a with
  | tick now =>
    dsimp only at h
    split_ifs at h with hnow
    obtain rfl := Option.some.inj h
    exact .tick l now hnow
  | createCrane id =>
    obtain rfl := Option.some.inj h
    exact .createCrane l id
  | startUpload request =>
    cases l with
    | free =>
      dsimp only at h
      cases hval : validateUpload request with
      | error e =>
        rw [hval] at h
        obtain rfl := Option.some.inj h
        exact .refuseUpload request e hval
      | ok prepared =>
        rw [hval] at h
        obtain rfl := Option.some.inj h
        exact .startUpload request prepared hval
    | upload | adminDelete | report | worker => cases h
  | startAdminDelete crane_id photo_id =>
    cases l with
    | free =>
      obtain rfl := Option.some.inj h
      exact .startAdminDelete crane_id photo_id
    | upload | adminDelete | report | worker => cases h
  | startReport crane_id photo_id reporter_ip_hash =>
    cases l with
    | free =>
      obtain rfl := Option.some.inj h
      exact .startReport crane_id photo_id reporter_ip_hash
    | upload | adminDelete | report | worker => cases h
  | startWorker =>
    cases l with
    | free =>
      obtain rfl := Option.some.inj h
      exact .startWorker
    | upload | adminDelete | report | worker => cases h
  | upload a =>
    cases l with
    | upload u =>
      obtain ⟨o', ho', rfl⟩ := Option.map_eq_some_iff.1 h
      exact .upload u a o' ho'
    | free | adminDelete | report | worker => cases h
  | adminDelete a =>
    cases l with
    | adminDelete d =>
      obtain ⟨o', ho', rfl⟩ := Option.map_eq_some_iff.1 h
      exact .adminDelete d a o' ho'
    | free | upload | report | worker => cases h
  | report a =>
    cases l with
    | report r =>
      obtain ⟨o', ho', rfl⟩ := Option.map_eq_some_iff.1 h
      exact .report r a o' ho'
    | free | upload | adminDelete | worker => cases h
  | worker a =>
    cases l with
    | worker w =>
      obtain ⟨o', ho', rfl⟩ := Option.map_eq_some_iff.1 h
      exact .worker w a o' ho'
    | free | upload | adminDelete | report => cases h

/-- The photo pipeline. -/
def system (cfg : Settings) : System Db Proc Action where
  step p a db proc := (proc.step cfg p db a).map
    fun o => (⟨db.store.apply cfg p o.write, o.locks⟩, o.proc)

/-- A configuration of the pipeline. -/
abbrev State := Config Db Proc

/-- The write of an event, `none` when the event cannot happen. -/
def writeOf (cfg : Settings) (c : State) (e : Event Action) : Write :=
  (((c.procs e.pid).step cfg e.pid c.shared e.act).map Outcome.write).getD .none

/-- The pipeline before its first request: some cranes, no photo, no job, and no object. -/
def initial (clock : Timestamp) (cranes : List Uuid) : State where
  shared :=
    { store := ⟨clock, cranes, [], [], [], ∅, fun _ => none⟩
      locks := ⟨fun _ => none, fun _ => none, fun _ => none⟩ }
  procs _ := .free

/-- The states that some run of the pipeline reaches. -/
def Reachable (cfg : Settings) (c : State) : Prop :=
  ∃ clock cranes es, (system cfg).run (initial clock cranes) es = some c

/-- An event that happens is a step of its process, whose write is applied. -/
theorem next_eq_some {cfg : Settings} {c c' : State} {e : Event Action} :
    (system cfg).next c e = some c' ↔
      ∃ o, (c.procs e.pid).step cfg e.pid c.shared e.act = some o ∧
        c' = ⟨⟨c.shared.store.apply cfg e.pid o.write, o.locks⟩,
          Function.update c.procs e.pid o.proc⟩ := by
  rw [System.next_eq_some]
  constructor
  · rintro ⟨s', l', h, rfl⟩
    obtain ⟨o, ho, heq⟩ := Option.map_eq_some_iff.1 h
    obtain ⟨rfl, rfl⟩ := Prod.mk.inj heq
    exact ⟨o, ho, rfl⟩
  · rintro ⟨o, ho, rfl⟩
    exact ⟨_, o.proc, by simp only [system, ho, Option.map_some], rfl⟩

/-- The outcome of an event: the new local state of its process, and the new shared state. -/
theorem outcome_next {cfg : Settings} {c c' : State} {e : Event Action}
    (h : (system cfg).next c e = some c') :
    ∃ o, (c.procs e.pid).step cfg e.pid c.shared e.act = some o ∧ c'.procs e.pid = o.proc ∧
      c'.shared = ⟨c.shared.store.apply cfg e.pid o.write, o.locks⟩ := by
  obtain ⟨o, ho, rfl⟩ := next_eq_some.1 h
  exact ⟨o, ho, Function.update_self _ _ _, rfl⟩

/-- An event applies its write. -/
theorem store_next {cfg : Settings} {c c' : State} {e : Event Action}
    (h : (system cfg).next c e = some c') :
    c'.shared.store = c.shared.store.apply cfg e.pid (writeOf cfg c e) := by
  obtain ⟨o, ho, rfl⟩ := next_eq_some.1 h
  rw [writeOf, ho]
  rfl

end CraneTracker.Pipeline
