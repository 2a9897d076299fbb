import CraneTracker.Pipeline.Invariant

/-!
# What an event does

The facts about one event of a run that the results about whole runs start from. An event does one of
five things to the row of a photo (`photo_next`) and to the row of a job (`job_next`), and each write
comes from one statement of one party (`Write.Origin`). `Worker.hasDeleted` names the stretch of a
worker's run between a `delete_photo` that returned and the commit of its outcome.
-/

namespace CraneTracker.Pipeline

open Interleaving Table

/-- Where a write comes from: the local state `l` of the process that applies it, and its step
`a`. -/
def Write.Origin (l : Proc) (a : Action) : Write → Prop
  | .none => True
  | .tick now => a = .tick now
  | .createCrane id => a = .createCrane id
  | .preuploadCranePhoto photo => ∃ now upload photo_id, l = .upload (.insert now upload) ∧
    a = .upload (.insert photo_id) ∧ photo = CraneTracker.preuploadCranePhoto now upload photo_id
  | .finalizeCranePhoto photo_id => ∃ photo, l = .upload (.finalizeCommit photo) ∧
    a = .upload .finalizeCommit ∧ photo.id = photo_id
  | .createDeleteCraneJobs .abandonCranePhotoUpload now rows => ∃ photo answer job_id,
    l = .upload (.abandonCommit now photo answer) ∧ a = .upload (.abandonCommit job_id) ∧
      rows = [(photo, job_id)]
  | .createDeleteCraneJobs .deleteCranePhoto now rows => ∃ photo job_id,
    l = .adminDelete (.commit now photo) ∧ a = .adminDelete (.commit job_id) ∧
      rows = [(photo, job_id)]
  | .createDeleteCraneJobs .runReapCranePhotos now rows => ∃ next photos job_ids,
    l = .worker (.reapScan now next photos) ∧ a = .worker (.reapCommit job_ids) ∧
      rows = photos.zip job_ids
  | .claimJobs now jobs => ∃ next, l = .worker (.claimScan now next jobs) ∧
    a = .worker .claimCommit
  | .captureFailure now backoff err_str read => ∃ rest,
    l = .worker (.failureCommit now backoff err_str read rest) ∧ a = .worker .captureCommit
  | .captureSuccess now read photo_ids => ∃ rest,
    l = .worker (.successCommit now read photo_ids rest) ∧ a = .worker .captureCommit
  | .reportCranePhoto report => ∃ report_id, a = .report (.commit report_id) ∧
    l = .report (.commit report.added_at report.photo_id report.reporter_ip_hash)
  | .putObject object_key => ∃ photo result, l = .upload (.put photo) ∧
    a = .upload (.put result) ∧ photo.storage_key = object_key
  | .deleteObject object_key => ∃ job rest result, l = .worker (.delete job rest) ∧
    a = .worker (.delete result) ∧ job.storage_key = object_key

section Origin

variable {cfg : Settings} {p : ℕ} {db : Db}

/-- Where the writes of an upload request come from. -/
theorem Upload.write_origin {u : Upload} {a : UploadAction} {o : Outcome Upload}
    (h : u.step p db a = some o) : o.write.Origin (.upload u) (.upload a) := by
  cases Upload.step_cases h with
  | insert => exact ⟨_, _, _, rfl, rfl, rfl⟩
  | put => exact ⟨_, _, rfl, rfl, rfl⟩
  | storageError photo message effect =>
    dsimp only
    split_ifs
    · exact ⟨_, _, rfl, rfl, rfl⟩
    · trivial
  | otherError photo effect =>
    dsimp only
    split_ifs
    · exact ⟨_, _, rfl, rfl, rfl⟩
    · trivial
  | finalizeCommit => exact ⟨_, rfl, rfl, rfl⟩
  | abandonCommit => exact ⟨_, _, _, rfl, rfl, rfl⟩
  | lockCrane | missingCrane | full | count | finalize | lost | abandonSelect | abandoned
  | abandonFlush | abandonRaised | dbError | finalizeError | abandonError | stop => trivial

/-- Where the writes of an admin deletion come from. -/
theorem AdminDelete.write_origin {d : AdminDelete} {a : AdminDeleteAction}
    {o : Outcome AdminDelete} (h : d.step p db a = some o) :
    o.write.Origin (.adminDelete d) (.adminDelete a) := by
  cases AdminDelete.step_cases h with
  | commit => exact ⟨_, _, rfl, rfl, rfl⟩
  | lock | missing | dbError | stop => trivial

/-- Where the writes of a report come from. -/
theorem Report.write_origin {r : Report} {a : ReportAction} {o : Outcome Report}
    (h : r.step p db a = some o) : o.write.Origin (.report r) (.report a) := by
  cases Report.step_cases h with
  | commit => exact ⟨_, rfl, rfl⟩
  | missing | lock | duplicate | insert | dbError | stop => trivial

/-- Where the writes of a worker come from. -/
theorem Worker.write_origin {w : Worker} {a : WorkerAction} {o : Outcome Worker}
    (h : w.step cfg p db a = some o) : o.write.Origin (.worker w) (.worker a) := by
  cases Worker.step_cases h with
  | claimCommit => exact ⟨_, rfl, rfl⟩
  | delete => exact ⟨_, _, _, rfl, rfl, rfl⟩
  | deleteError job rest err_str effect =>
    dsimp only
    split_ifs
    · exact ⟨_, _, _, rfl, rfl, rfl⟩
    · trivial
  | successCommit => exact ⟨_, rfl, rfl⟩
  | failureCommit => exact ⟨_, rfl, rfl⟩
  | reapCommit => exact ⟨_, _, _, rfl, rfl, rfl⟩
  | beginClaim | selectJobs | takeJob | skipJob | endBatch | nextJob | shutdown | successSelect
  | failureSelect | successMissing | failureMissing | successFlush | failureFlush | deletePhotos
  | beginReap | selectPhotos | takePhoto | skipPhoto | queryError | statusError | stop => trivial

/-- Where the writes of a process come from. -/
theorem Proc.write_origin {l : Proc} {a : Action} {o : Outcome Proc}
    (h : l.step cfg p db a = some o) : o.write.Origin l a := by
  cases Proc.step_cases h with
  | tick => rfl
  | createCrane => rfl
  | refuseUpload | startUpload | startAdminDelete | startReport | startWorker => trivial
  | upload u a o ho => exact Upload.write_origin ho
  | adminDelete d a o ho => exact AdminDelete.write_origin ho
  | report r a o ho => exact Report.write_origin ho
  | worker w a o ho => exact Worker.write_origin ho

end Origin

section Event

variable {cfg : Settings} {c c' : State} {e : Event Action}

/-- Where the write of an event comes from. -/
theorem writeOf_origin (h : (system cfg).next c e = some c') :
    (writeOf cfg c e).Origin (c.procs e.pid) e.act := by
  obtain ⟨o, ho, -⟩ := next_eq_some.1 h
  rw [writeOf, ho]
  exact Proc.write_origin ho

/-- What an event does to a photo. -/
theorem photo_next (hc : (pipeline cfg).Holds c) (h : (system cfg).next c e = some c') (i : Uuid) :
    PhotoStep e.pid c.shared (writeOf cfg c e) i (c.shared.store.photo i)
      (c'.shared.store.photo i) := by
  rw [store_next h]
  exact photo_apply cfg hc.1.photo_unique (guarded_writeOf hc h) i

/-- What an event does to a job. -/
theorem job_next (hc : (pipeline cfg).Holds c) (h : (system cfg).next c e = some c') (i : Uuid) :
    JobStep cfg e.pid c.shared (writeOf cfg c e) i (c.shared.store.job i)
      (c'.shared.store.job i) := by
  rw [store_next h]
  exact job_apply cfg (guarded_writeOf hc h) i

end Event

/-! ## Storage calls that have returned -/

/-- The key that a worker has deleted from storage, until the outcome is committed. -/
def Worker.hasDeleted : Worker → Option String
  | .deleted job _ => some job.storage_key
  | .successFlush _ read _ => some read.storage_key
  | .successDelete _ read _ => some read.storage_key
  | .successCommit _ read _ _ => some read.storage_key
  | _ => none

/-- The key that a process has deleted from storage, until the outcome is committed. -/
def Proc.hasDeleted : Proc → Option String
  | .worker w => w.hasDeleted
  | _ => none

/-- The photo whose object a request has put in storage, until it commits or gives up. -/
def Upload.hasPut : Upload → Option CranePhoto
  | .finalize photo => some photo
  | .finalizeCommit photo => some photo
  | _ => none

/-- The photo whose object a process has put in storage, until it commits or gives up. -/
def Proc.hasPut : Proc → Option CranePhoto
  | .upload u => u.hasPut
  | _ => none

section Returned

variable {cfg : Settings} {p : ℕ} {db : Db}

/-- A request gets to where its object is in storage by a put that returned. -/
theorem Upload.hasPut_step {u : Upload} {a : UploadAction} {o : Outcome Upload}
    (h : u.step p db a = some o) {photo : CranePhoto} (ho : o.proc.hasPut = some photo) :
    u.hasPut = some photo ∨ u = .put photo ∧ a = .put .stored := by
  cases Upload.step_cases h with
  | put =>
    obtain rfl := Option.some.inj ho
    exact Or.inr ⟨rfl, rfl⟩
  | finalize => exact Or.inl ho
  | lockCrane | missingCrane | full | count | insert | storageError | otherError | lost
  | finalizeCommit | abandonSelect | abandoned | abandonFlush | abandonRaised | abandonCommit
  | dbError | finalizeError | abandonError | stop => cases ho

/-- A process gets to where its object is in storage by a put that returned. -/
theorem Proc.hasPut_step {l : Proc} {a : Action} {o : Outcome Proc}
    (h : l.step cfg p db a = some o) {photo : CranePhoto} (ho : o.proc.hasPut = some photo) :
    l.hasPut = some photo ∨ l = .upload (.put photo) ∧ a = .upload (.put .stored) := by
  cases Proc.step_cases h with
  | tick => exact Or.inl ho
  | createCrane => exact Or.inl ho
  | upload u a o ho' =>
    rcases Upload.hasPut_step ho' ho with hput | ⟨rfl, rfl⟩
    · exact Or.inl hput
    · exact Or.inr ⟨rfl, rfl⟩
  | refuseUpload | startUpload | startAdminDelete | startReport | startWorker => cases ho
  | adminDelete | report | worker => cases ho

/-- A worker gets to where its object is deleted by a `delete_photo` that returned. -/
theorem Worker.hasDeleted_step {w : Worker} (hw : w.Inv p db) {a : WorkerAction}
    {o : Outcome Worker} (h : w.step cfg p db a = some o) {object_key : String}
    (ho : o.proc.hasDeleted = some object_key) :
    w.hasDeleted = some object_key ∨
      ∃ job rest, w = .delete job rest ∧ a = .delete .deleted ∧ job.storage_key = object_key := by
  cases Worker.step_cases h with
  | delete => exact Or.inr ⟨_, _, rfl, rfl, Option.some.inj ho⟩
  | successSelect job rest backoff read hread =>
    have hjobs : db.store.HasJobs (job :: rest) := hw
    -- The row that is read has the key that was claimed.
    obtain ⟨-, hkey⟩ := (hjobs job List.mem_cons_self).read hread
    left
    rw [← ho]
    exact congrArg some hkey.symm
  | successFlush => exact Or.inl ho
  | deletePhotos => exact Or.inl ho
  | beginClaim | selectJobs | takeJob | skipJob | claimCommit | endBatch | nextJob | shutdown
  | deleteError | failureSelect | successMissing | failureMissing | failureFlush | successCommit
  | failureCommit | beginReap | selectPhotos | takePhoto | skipPhoto | reapCommit | queryError
  | statusError | stop => cases ho

/-- A process gets to where its object is deleted by a `delete_photo` that returned. -/
theorem Proc.hasDeleted_step {l : Proc} (hl : l.Inv p db) {a : Action} {o : Outcome Proc}
    (h : l.step cfg p db a = some o) {object_key : String}
    (ho : o.proc.hasDeleted = some object_key) :
    l.hasDeleted = some object_key ∨ ∃ job rest, l = .worker (.delete job rest) ∧
      a = .worker (.delete .deleted) ∧ job.storage_key = object_key := by
  cases Proc.step_cases h with
  | tick => exact Or.inl ho
  | createCrane => exact Or.inl ho
  | worker w a o ho' =>
    rcases Worker.hasDeleted_step hl ho' ho with hdel | ⟨job, rest, rfl, rfl, hkey⟩
    · exact Or.inl hdel
    · exact Or.inr ⟨job, rest, rfl, rfl, hkey⟩
  | refuseUpload | startUpload | startAdminDelete | startReport | startWorker => cases ho
  | upload | adminDelete | report => cases ho

end Returned

/-! ## Events of one party in a row

The runs that the development evaluates are made of these. -/

/-- A small JPEG for the crane `crane_id`. -/
def jpegRequest (crane_id : Uuid) : UploadRequest where
  crane_id := crane_id
  filename := some "crane.jpg"
  content_type := some "image/jpeg"
  file_size := 1
  image := ⟨.ok ("JPEG", 1, 1), .ok (), .ok 1⟩

/-- The request `p` inserts the photo `photo_id`. -/
def preuploadEvents (p : ℕ) (crane_id photo_id : Uuid) : List (Event Action) :=
  [⟨p, .startUpload (jpegRequest crane_id)⟩, ⟨p, .upload .lockCrane⟩, ⟨p, .upload .count⟩,
    ⟨p, .upload (.insert photo_id)⟩]

/-- The request `p` puts the object of its photo in storage and publishes the photo. -/
def publishEvents (p : ℕ) : List (Event Action) :=
  [⟨p, .upload (.put .stored)⟩, ⟨p, .upload .finalize⟩, ⟨p, .upload .finalizeCommit⟩]

/-- The photo that `preuploadEvents` inserts at the time `now`. -/
def jpegPhoto (now : Timestamp) (crane_id photo_id : Uuid) (status : CranePhotoStatus) :
    CranePhoto :=
  ⟨photo_id, crane_id, createStorageKey crane_id photo_id ".jpg", "crane.jpg", "image/jpeg", now,
    status⟩

/-- The put of the request `p` fails, and the request queues the job `job_id` for its photo. -/
def abandonEvents (p : ℕ) (job_id : Uuid) : List (Event Action) :=
  [⟨p, .upload (.put (.storageError "timeout" false))⟩, ⟨p, .upload .abandonSelect⟩,
    ⟨p, .upload .abandonFlush⟩, ⟨p, .upload (.abandonCommit job_id)⟩]

/-- The worker `p` claims the job whose row is `job`, and gets to its storage call. -/
def claimEvents (p : ℕ) (job : OutboxJob) : List (Event Action) :=
  [⟨p, .worker .beginClaim⟩, ⟨p, .worker (.selectJobs [job])⟩, ⟨p, .worker .lockNextJob⟩,
    ⟨p, .worker .claimCommit⟩, ⟨p, .worker .nextJob⟩]

/-- The storage call of the worker `p` returns, and the worker records it. -/
def successEvents (p : ℕ) : List (Event Action) :=
  [⟨p, .worker (.delete .deleted)⟩, ⟨p, .worker (.captureSelect 0)⟩, ⟨p, .worker .captureFlush⟩,
    ⟨p, .worker .deletePhotos⟩, ⟨p, .worker .captureCommit⟩]

/-- The storage call of the worker `p` fails, and the worker records it. -/
def failureEvents (p : ℕ) : List (Event Action) :=
  [⟨p, .worker (.delete (.error "timeout" false))⟩, ⟨p, .worker (.captureSelect 0)⟩,
    ⟨p, .worker .captureFlush⟩, ⟨p, .worker .captureCommit⟩]

/-- The worker `p` reaps the photo whose row is `photo`, to the job `job_id`. -/
def reapEvents (p : ℕ) (photo : CranePhoto) (job_id : Uuid) : List (Event Action) :=
  [⟨p, .worker .beginReap⟩, ⟨p, .worker (.selectPhotos [photo])⟩, ⟨p, .worker .lockNextPhoto⟩,
    ⟨p, .worker (.reapCommit [job_id])⟩]

/-- The request `p` inserts the photo 2 of the crane 1 at the time `0`, and abandons it to the job
4. The workers `1` and `2` start, and the clock goes on to `1`. -/
def abandonedRun : List (Event Action) :=
  preuploadEvents 0 1 2 ++ abandonEvents 0 4 ++
    [⟨1, .startWorker⟩, ⟨2, .startWorker⟩, ⟨3, .tick 1⟩]

/-- The job that `abandonedRun` queues. -/
def abandonedJob : OutboxJob := createTask 0 4 .delete (createStorageKey 1 2 ".jpg")

end CraneTracker.Pipeline
