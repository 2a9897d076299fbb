import Mathlib.Data.Finset.Basic
import CraneTracker.Lib.Table
import CraneTracker.Services.Photo
import CraneTracker.Worker.PhotoJobs

/-!
# The committed state and its writes

`Store` is what the parties of the photo pipeline share: the committed rows of the tables that it
uses, the objects in storage, and the database clock. A transaction changes the committed rows at
its commit, all at once, so each commit is one `Write`. So is each effect on the object storage. The
sequence of writes of a run is then the committed history of the pipeline. `Store.apply` says what
each write does.

`issued` is the one field that the database does not have. It records which request inserted the row
with a given photo id. Ids are never reused, so it survives the row.
-/

namespace CraneTracker.Pipeline

open Table

/-- The committed state. -/
structure Store where
  /-- The database clock. -/
  clock : Timestamp
  /-- The ids of the cranes. -/
  cranes : List Uuid
  photos : List CranePhoto
  jobs : List OutboxJob
  reports : List PhotoReport
  /-- The keys of the objects in storage. -/
  storage : Finset String
  /-- The request that inserted the photo with a given id. -/
  issued : Uuid → Option ℕ

/-- The three functions that move a photo to `PENDING_DELETE` and queue a job for it. -/
inductive Deleter
  | abandonCranePhotoUpload
  | deleteCranePhoto
  | runReapCranePhotos
deriving DecidableEq, Repr

/-- What one commit, or one effect on the storage, does to the committed state. -/
inductive Write
  /-- Nothing. -/
  | none
  /-- The clock advances to `now`. -/
  | tick (now : Timestamp)
  /-- A new crane. -/
  | createCrane (id : Uuid)
  /-- The commit of `preupload_crane_photo`. -/
  | preuploadCranePhoto (photo : CranePhoto)
  /-- The commit of `finalize_crane_photo`. -/
  | finalizeCranePhoto (photo_id : Uuid)
  /-- The commit of `create_delete_crane_job` for each of `rows`: a photo as it was read, and the id
  of its job. The transaction began at `now`. -/
  | createDeleteCraneJobs (deleter : Deleter) (now : Timestamp) (rows : List (CranePhoto × Uuid))
  /-- The commit of `claim_jobs` that returns `jobs`. -/
  | claimJobs (now : Timestamp) (jobs : List OutboxJob)
  /-- The commit of `capture_failure`. -/
  | captureFailure (now : Timestamp) (backoff : ℤ) (err_str : String) (read : OutboxJob)
  /-- The commit of `capture_success`, whose `DELETE` found the photos `photo_ids`. -/
  | captureSuccess (now : Timestamp) (read : OutboxJob) (photo_ids : List Uuid)
  /-- The commit of `report_crane_photo`. -/
  | reportCranePhoto (report : PhotoReport)
  /-- An object is put in storage. -/
  | putObject (object_key : String)
  /-- An object is deleted from storage. -/
  | deleteObject (object_key : String)

namespace Store

/-- The crane exists. -/
def hasCrane (s : Store) (crane_id : Uuid) : Bool := crane_id ∈ s.cranes

/-- The committed row of a photo. -/
def photo (s : Store) (id : Uuid) : Option CranePhoto := row CranePhoto.id s.photos id

/-- The committed row of a job. -/
def job (s : Store) (id : Uuid) : Option OutboxJob := row OutboxJob.id s.jobs id

/-- The effect of a write, by the process `p`, on the committed state. Removing a photo removes its
reports, by `ON DELETE CASCADE`. -/
def apply (cfg : Settings) (p : ℕ) (s : Store) : Write → Store
  | .none => s
  | .tick now => { s with clock := now }
  | .createCrane id => { s with cranes := s.cranes ++ [id] }
  | .preuploadCranePhoto photo =>
    { s with
      photos := s.photos ++ [photo]
      issued := fun id => if id = photo.id then some p else s.issued id }
  | .finalizeCranePhoto photo_id =>
    { s with photos := updateWhere (fun r => r.id = photo_id) finalizeCranePhoto s.photos }
  | .createDeleteCraneJobs _ now rows =>
    { s with
      photos := updateWhere (fun r => r.id ∈ rows.map fun x => x.1.id) markPendingDelete s.photos
      jobs := s.jobs ++ rows.map fun x => createTask now x.2 .delete x.1.storage_key }
  | .claimJobs now jobs =>
    { s with
      jobs := updateWhere (fun r => r.id ∈ jobs.map OutboxJob.id) (OutboxJob.claim cfg now) s.jobs }
  | .captureFailure now backoff err_str read =>
    { s with
      jobs := updateWhere (fun r => r.id = read.id)
        (CraneTracker.captureFailure cfg now backoff err_str read) s.jobs }
  -- The job and its photos change in one commit.
  | .captureSuccess now read photo_ids =>
    { s with
      jobs := updateWhere (fun r => r.id = read.id) (CraneTracker.captureSuccess now read) s.jobs
      photos := deleteWhere (fun r => r.id ∈ photo_ids) s.photos
      reports := deleteWhere (fun r => r.photo_id ∈ photo_ids) s.reports }
  | .reportCranePhoto report => { s with reports := s.reports ++ [report] }
  | .putObject object_key => { s with storage := insert object_key s.storage }
  | .deleteObject object_key => { s with storage := s.storage.erase object_key }

section Apply

variable {cfg : Settings} {p : ℕ} {s : Store} {now : Timestamp} {i : Uuid}

/-- The photo rows after the commit of `finalize_crane_photo`. -/
theorem photo_finalizeCranePhoto {photo_id : Uuid} :
    (s.apply cfg p (.finalizeCranePhoto photo_id)).photo i =
      (s.photo i).map fun r => if r.id = photo_id then finalizeCranePhoto r else r := by
  unfold photo
  rw [apply, row_updateWhere]
  · simp only [decide_eq_true_eq]
  · exact fun _ => rfl

/-- The photo rows after the commit of `create_delete_crane_job`. -/
theorem photo_createDeleteCraneJobs {deleter : Deleter} {rows : List (CranePhoto × Uuid)} :
    (s.apply cfg p (.createDeleteCraneJobs deleter now rows)).photo i =
      (s.photo i).map fun r =>
        if r.id ∈ rows.map fun x => x.1.id then markPendingDelete r else r := by
  unfold photo
  rw [apply, row_updateWhere]
  · simp only [decide_eq_true_eq]
  · exact fun _ => rfl

/-- The photo rows after the commit of `preupload_crane_photo`. -/
theorem photo_preuploadCranePhoto {ph : CranePhoto} :
    (s.apply cfg p (.preuploadCranePhoto ph)).photo i =
      (s.photo i).or (if ph.id = i then some ph else none) := by
  unfold photo
  rw [apply, row_append]
  congr 1
  by_cases h : ph.id = i <;> simp [row, h]

/-- The photo rows after the commit of `capture_success`. -/
theorem photo_captureSuccess (h : KeyUnique CranePhoto.id s.photos) {read : OutboxJob}
    {photo_ids : List Uuid} :
    (s.apply cfg p (.captureSuccess now read photo_ids)).photo i =
      (s.photo i).filter fun r => !decide (r.id ∈ photo_ids) := by
  unfold photo
  rw [apply, row_deleteWhere h]

/-- The job rows after the commit of `claim_jobs`. -/
theorem job_claimJobs {jobs : List OutboxJob} :
    (s.apply cfg p (.claimJobs now jobs)).job i =
      (s.job i).map fun r => if r.id ∈ jobs.map OutboxJob.id then r.claim cfg now else r := by
  unfold job
  rw [apply, row_updateWhere]
  · simp only [decide_eq_true_eq]
  · exact fun _ => rfl

/-- The job rows after the commit of `capture_failure`. -/
theorem job_captureFailure {backoff : ℤ} {err_str : String} {read : OutboxJob} :
    (s.apply cfg p (.captureFailure now backoff err_str read)).job i =
      (s.job i).map fun r =>
        if r.id = read.id then captureFailure cfg now backoff err_str read r else r := by
  unfold job
  rw [apply, row_updateWhere]
  · simp only [decide_eq_true_eq]
  · exact fun _ => rfl

/-- The job rows after the commit of `capture_success`. -/
theorem job_captureSuccess {read : OutboxJob} {photo_ids : List Uuid} :
    (s.apply cfg p (.captureSuccess now read photo_ids)).job i =
      (s.job i).map fun r => if r.id = read.id then captureSuccess now read r else r := by
  unfold job
  rw [apply, row_updateWhere]
  · simp only [decide_eq_true_eq]
  · exact fun _ => rfl

/-- A commit of `create_delete_crane_job` leaves the jobs that exist as they are. -/
theorem job_createDeleteCraneJobs {deleter : Deleter} {rows : List (CranePhoto × Uuid)}
    {j : OutboxJob} (h : s.job i = some j) :
    (s.apply cfg p (.createDeleteCraneJobs deleter now rows)).job i = some j := by
  unfold job at h ⊢
  rw [apply, row_append, h, Option.some_or]

end Apply

end Store

/-! ## Row locks -/

/-- The row locks of the tables whose rows the pipeline locks. -/
structure RowLocks where
  crane : Locks Uuid
  photo : Locks Uuid
  job : Locks Uuid

namespace RowLocks

/-- The end of the transaction of `p`. -/
def release (l : RowLocks) (p : ℕ) : RowLocks :=
  ⟨l.crane.release p, l.photo.release p, l.job.release p⟩

/-- The process `p` locks cranes. -/
def lockCranes (l : RowLocks) (p : ℕ) (ids : List Uuid) : RowLocks :=
  { l with crane := l.crane.acquire p ids }

/-- The process `p` locks photos. -/
def lockPhotos (l : RowLocks) (p : ℕ) (ids : List Uuid) : RowLocks :=
  { l with photo := l.photo.acquire p ids }

/-- The process `p` locks jobs. -/
def lockJobs (l : RowLocks) (p : ℕ) (ids : List Uuid) : RowLocks :=
  { l with job := l.job.acquire p ids }

/-- What the process `q` holds in `l` it holds in `l'`. -/
structure Keeps (q : ℕ) (l l' : RowLocks) : Prop where
  crane : Locks.Keeps q l.crane l'.crane
  photo : Locks.Keeps q l.photo l'.photo
  job : Locks.Keeps q l.job l'.job

section Keeps

variable {p q : ℕ} {l : RowLocks} {ids : List Uuid}

theorem Keeps.refl (q : ℕ) (l : RowLocks) : Keeps q l l :=
  ⟨.refl q _, .refl q _, .refl q _⟩

/-- The end of a transaction releases no lock of another process. -/
theorem Keeps.release (hq : q ≠ p) (l : RowLocks) : Keeps q l (l.release p) :=
  ⟨.release hq _, .release hq _, .release hq _⟩

/-- Locking available cranes takes no lock from another process. -/
theorem Keeps.lockCranes (hq : q ≠ p) (h : ∀ i ∈ ids, l.crane.available p i = true) :
    Keeps q l (l.lockCranes p ids) :=
  ⟨.acquire hq h, .refl q _, .refl q _⟩

/-- Locking available photos takes no lock from another process. -/
theorem Keeps.lockPhotos (hq : q ≠ p) (h : ∀ i ∈ ids, l.photo.available p i = true) :
    Keeps q l (l.lockPhotos p ids) :=
  ⟨.refl q _, .acquire hq h, .refl q _⟩

/-- Locking available jobs takes no lock from another process. -/
theorem Keeps.lockJobs (hq : q ≠ p) (h : ∀ i ∈ ids, l.job.available p i = true) :
    Keeps q l (l.lockJobs p ids) :=
  ⟨.refl q _, .refl q _, .acquire hq h⟩

end Keeps

end RowLocks

/-- The shared state: the committed state, and the row locks of the open transactions. -/
structure Db where
  store : Store
  locks : RowLocks

end CraneTracker.Pipeline
