import CraneTracker.Pipeline.System

/-!
# What a write finds, and what it does to a row

A process applies a write only after its guards: the locks that it holds, and what it has read under
them. `Write.Guarded` lists them, write by write. `Pipeline/Invariant.lean` proves that the steps of
the parties pass them.

Under its guards a write does one of a few things to the row of a photo (`PhotoStep`) and to the row
of a job (`JobStep`). `photo_apply` and `job_apply` prove it once, and every invariant about rows is
a case analysis of the two.
-/

namespace CraneTracker.Pipeline

open Table

/-! ## Guards -/

/-- What the three functions that mark a photo for deletion know of its committed row. Only an
abandonment may find the row marked already: it reads the row without a lock. -/
def Deleter.Marks (p : ℕ) (s : Store) (photo : CranePhoto) : Deleter → Prop
  | .abandonCranePhotoUpload => s.issued photo.id = some p ∧ photo.status ≠ .active
  | .deleteCranePhoto => photo.status = .active
  | .runReapCranePhotos => photo.status = .pendingUpload

/-- The job `id` is there, with the key `object_key`. -/
def Store.HasJob (s : Store) (id : Uuid) (object_key : String) : Prop :=
  ∃ job, s.job id = some job ∧ job.storage_key = object_key

/-- The process `p` is about to delete the photos `photo_ids`, which are those with the key
`object_key`. -/
structure Db.Deletes (p : ℕ) (db : Db) (object_key : String) (photo_ids : List Uuid) : Prop where
  /-- They are locked. -/
  locked : ∀ {i}, i ∈ photo_ids → db.locks.photo i = some p
  /-- They are there, with the key. -/
  found : ∀ {i}, i ∈ photo_ids →
    ∃ photo, db.store.photo i = some photo ∧ photo.storage_key = object_key
  /-- No other photo has the key. -/
  all : ∀ {i photo}, db.store.photo i = some photo → photo.storage_key = object_key →
    i ∈ photo_ids

/-- The guards of a write that the process `p` applies. -/
def Write.Guarded (p : ℕ) (db : Db) : Write → Prop
  | .none => True
  | .tick now => db.store.clock ≤ now
  | .createCrane _ => True
  | .preuploadCranePhoto photo =>
    db.store.issued photo.id = .none ∧ photo.status = .pendingUpload ∧
      (∃ extension, photo.storage_key = createStorageKey photo.crane_id photo.id extension) ∧
      db.locks.crane photo.crane_id = some p ∧
      activePhotoCount db.store.photos photo.crane_id < maxPhotosPerCrane
  | .finalizeCranePhoto photo_id =>
    db.locks.photo photo_id = some p ∧ db.store.issued photo_id = some p ∧
      ∃ photo, db.store.photo photo_id = some photo ∧ photo.status = .pendingUpload ∧
        photo.storage_key ∈ db.store.storage
  | .createDeleteCraneJobs deleter _ rows =>
    (rows.map Prod.snd).Nodup ∧ (rows.map fun x => x.1.id).Nodup ∧
      ∀ x ∈ rows, db.locks.photo x.1.id = some p ∧ db.store.job x.2 = .none ∧
        ∃ photo, db.store.photo x.1.id = some photo ∧ photo.storage_key = x.1.storage_key ∧
          deleter.Marks p db.store photo
  | .claimJobs now jobs =>
    now ≤ db.store.clock ∧ (jobs.map OutboxJob.id).Nodup ∧
      ∀ job ∈ jobs, db.locks.job job.id = some p ∧ db.store.job job.id = some job ∧
        job.claimable .delete now = true
  | .captureFailure _ _ _ read =>
    db.locks.job read.id = some p ∧ db.store.HasJob read.id read.storage_key
  | .captureSuccess _ read photo_ids =>
    db.locks.job read.id = some p ∧ db.store.HasJob read.id read.storage_key ∧
      db.Deletes p read.storage_key photo_ids
  | .reportCranePhoto _ => True
  | .putObject _ => True
  | .deleteObject object_key => ∃ job ∈ db.store.jobs, job.storage_key = object_key

/-! ## Photos -/

/-- What a write `w` of the process `p` does to the row of the photo `i`. -/
inductive PhotoStep (p : ℕ) (db : Db) (w : Write) (i : Uuid) :
    Option CranePhoto → Option CranePhoto → Prop
  /-- Nothing. -/
  | same (r : Option CranePhoto) : PhotoStep p db w i r r
  /-- `preupload_crane_photo` inserts it, under an id that nobody has had. -/
  | inserted (photo : CranePhoto) (hw : w = .preuploadCranePhoto photo) (hid : photo.id = i)
      (hnew : db.store.issued i = none) (hstatus : photo.status = .pendingUpload) :
      PhotoStep p db w i none (some photo)
  /-- The request that inserted it publishes it, when its object is in storage. -/
  | finalized (photo : CranePhoto) (hw : w = .finalizeCranePhoto i)
      (hlock : db.locks.photo i = some p) (hown : db.store.issued i = some p)
      (hstatus : photo.status = .pendingUpload)
      (hstored : photo.storage_key ∈ db.store.storage) :
      PhotoStep p db w i (some photo) (some (finalizeCranePhoto photo))
  /-- One of the three functions marks it for deletion, and queues a job for it. -/
  | marked (photo : CranePhoto) (deleter : Deleter) (now : Timestamp)
      (rows : List (CranePhoto × Uuid)) (hw : w = .createDeleteCraneJobs deleter now rows)
      (hrow : ∃ x ∈ rows, x.1.id = i ∧ x.1.storage_key = photo.storage_key)
      (hlock : db.locks.photo i = some p) (hmarks : deleter.Marks p db.store photo) :
      PhotoStep p db w i (some photo) (some (markPendingDelete photo))
  /-- `capture_success` removes it. -/
  | removed (photo : CranePhoto) (now : Timestamp) (read : OutboxJob) (photo_ids : List Uuid)
      (hw : w = .captureSuccess now read photo_ids) (hlock : db.locks.photo i = some p)
      (hkey : photo.storage_key = read.storage_key) :
      PhotoStep p db w i (some photo) none

section Apply

variable {cfg : Settings} {p : ℕ} {db : Db} {w : Write} {i : Uuid}

/-- A guarded write does one of five things to a photo. -/
theorem photo_apply (cfg : Settings) (hs : KeyUnique CranePhoto.id db.store.photos)
    (hw : w.Guarded p db) (i : Uuid) :
    PhotoStep p db w i (db.store.photo i) ((db.store.apply cfg p w).photo i) := by
  cases w with
  | none | tick | createCrane | claimJobs | captureFailure | reportCranePhoto | putObject
  | deleteObject => exact .same _
  | preuploadCranePhoto photo =>
    obtain ⟨hnew, hstatus, -, -, -⟩ := hw
    rw [Store.photo_preuploadCranePhoto]
    by_cases hid : photo.id = i
    · rw [if_pos hid]
      cases hrow : db.store.photo i with
      | none => exact .inserted photo rfl hid (hid ▸ hnew) hstatus
      -- A row with the id would shadow the new one. `Store.Consistent` rules it out.
      | some r => exact .same _
    · rw [if_neg hid, Option.or_none]
      exact .same _
  | finalizeCranePhoto photo_id =>
    obtain ⟨hlock, hown, photo, hrow, hstatus, hstored⟩ := hw
    rw [Store.photo_finalizeCranePhoto]
    refine map_row_cases (PhotoStep p db _ i) .same fun r hr hid => ?_
    obtain rfl : i = photo_id := (key_of_row hr).symm.trans hid
    obtain rfl : photo = r := Option.some.inj (hrow.symm.trans hr)
    exact .finalized photo rfl hlock hown hstatus hstored
  | createDeleteCraneJobs deleter now rows =>
    obtain ⟨-, -, hrows⟩ := hw
    rw [Store.photo_createDeleteCraneJobs]
    refine map_row_cases (PhotoStep p db _ i) .same fun r hr hmem => ?_
    -- The row is among those that were read, and the guard speaks of it.
    obtain ⟨x, hx, hxid⟩ := List.mem_map.1 hmem
    obtain ⟨hlock, -, photo, hrow, hkey, hmarks⟩ := hrows x hx
    have hxi : x.1.id = i := hxid.trans (key_of_row hr)
    rw [hxi] at hlock hrow
    obtain rfl : photo = r := Option.some.inj (hrow.symm.trans hr)
    exact .marked photo deleter now rows rfl ⟨x, hx, hxi, hkey.symm⟩ hlock hmarks
  | captureSuccess now read photo_ids =>
    obtain ⟨-, -, hdel⟩ := hw
    rw [Store.photo_captureSuccess hs]
    cases hi : db.store.photo i with
    | none => exact .same _
    | some r =>
      have hid : r.id = i := key_of_row hi
      by_cases hmem : r.id ∈ photo_ids
      -- The `DELETE` found the row, with the key of the job.
      · obtain ⟨photo, hrow, hkey⟩ := hdel.found (hid ▸ hmem)
        obtain rfl : photo = r := Option.some.inj (hrow.symm.trans hi)
        rw [Option.filter_some, if_neg (by simpa using hmem)]
        exact .removed photo now read photo_ids rfl (hdel.locked (hid ▸ hmem)) hkey
      · rw [Option.filter_some, if_pos (by simpa using hmem)]
        exact .same _

end Apply

/-! ## Jobs -/

/-- What a write `w` of the process `p` does to the row of the job `i`. -/
inductive JobStep (cfg : Settings) (p : ℕ) (db : Db) (w : Write) (i : Uuid) :
    Option OutboxJob → Option OutboxJob → Prop
  /-- Nothing. -/
  | same (r : Option OutboxJob) : JobStep cfg p db w i r r
  /-- One of the three functions that mark photos queues it, for the photo `photo`. -/
  | created (deleter : Deleter) (now : Timestamp) (rows : List (CranePhoto × Uuid))
      (photo : CranePhoto) (hw : w = .createDeleteCraneJobs deleter now rows)
      (hrow : ∃ x ∈ rows, x.2 = i ∧ x.1.id = photo.id)
      (hphoto : db.store.photo photo.id = some photo) :
      JobStep cfg p db w i none (some (createTask now i .delete photo.storage_key))
  /-- `claim_jobs` returns it. -/
  | claimed (now : Timestamp) (jobs : List OutboxJob) (job : OutboxJob)
      (hw : w = .claimJobs now jobs) (hmem : job ∈ jobs) (hlock : db.locks.job i = some p)
      (hclaimable : job.claimable .delete now = true) (hnow : now ≤ db.store.clock) :
      JobStep cfg p db w i (some job) (some (job.claim cfg now))
  /-- `capture_failure` records an outcome. -/
  | failed (now : Timestamp) (backoff : ℤ) (err_str : String) (read job : OutboxJob)
      (hw : w = .captureFailure now backoff err_str read) (hid : read.id = i)
      (hlock : db.locks.job i = some p) (hkey : job.storage_key = read.storage_key) :
      JobStep cfg p db w i (some job) (some (captureFailure cfg now backoff err_str read job))
  /-- `capture_success` records an outcome, and removes the photos with the key. -/
  | succeeded (now : Timestamp) (read : OutboxJob) (photo_ids : List Uuid) (job : OutboxJob)
      (hw : w = .captureSuccess now read photo_ids) (hid : read.id = i)
      (hlock : db.locks.job i = some p) (hkey : job.storage_key = read.storage_key) :
      JobStep cfg p db w i (some job) (some (captureSuccess now read job))

section Apply

variable {cfg : Settings} {p : ℕ} {db : Db} {w : Write} {i : Uuid}

/-- The job rows after a guarded commit of `create_delete_crane_job`. -/
theorem job_apply_createDeleteCraneJobs {deleter : Deleter} {now : Timestamp}
    {rows : List (CranePhoto × Uuid)}
    (hw : (Write.createDeleteCraneJobs deleter now rows).Guarded p db) (i : Uuid) :
    JobStep cfg p db (.createDeleteCraneJobs deleter now rows) i (db.store.job i)
      ((db.store.apply cfg p (.createDeleteCraneJobs deleter now rows)).job i) := by
  obtain ⟨-, -, hrows⟩ := hw
  cases hi : db.store.job i with
  -- A job that exists comes before the new ones in the table.
  | some job =>
    rw [Store.job_createDeleteCraneJobs hi]
    exact .same _
  | none =>
    unfold Store.job at hi ⊢
    rw [Store.apply, row_append, hi, Option.none_or]
    cases hnew : row OutboxJob.id
        (rows.map fun x => createTask now x.2 .delete x.1.storage_key) i with
    | none => exact .same _
    | some job =>
      obtain ⟨x, hx, rfl⟩ := List.mem_map.1 (mem_of_row hnew)
      have hid : (createTask now x.2 .delete x.1.storage_key).id = i := key_of_row hnew
      replace hid : x.2 = i := hid
      obtain ⟨-, -, photo, hphoto, hkey, -⟩ := hrows x hx
      have hpid : photo.id = x.1.id := key_of_row hphoto
      rw [← hkey, hid]
      exact .created deleter now rows photo rfl ⟨x, hx, hid, hpid.symm⟩ (by rwa [hpid])

/-- A guarded write does one of five things to a job. -/
theorem job_apply (cfg : Settings) (hw : w.Guarded p db) (i : Uuid) :
    JobStep cfg p db w i (db.store.job i) ((db.store.apply cfg p w).job i) := by
  cases w with
  | none | tick | createCrane | preuploadCranePhoto | finalizeCranePhoto | reportCranePhoto
  | putObject | deleteObject => exact .same _
  | createDeleteCraneJobs deleter now rows => exact job_apply_createDeleteCraneJobs hw i
  | claimJobs now jobs =>
    obtain ⟨hnow, -, hjobs⟩ := hw
    rw [Store.job_claimJobs]
    refine map_row_cases (JobStep cfg p db _ i) .same fun r hr hmem => ?_
    obtain ⟨job, hjob, hjid⟩ := List.mem_map.1 hmem
    obtain ⟨hlock, hrow, hclaimable⟩ := hjobs job hjob
    rw [hjid.trans (key_of_row hr)] at hlock hrow
    obtain rfl : job = r := Option.some.inj (hrow.symm.trans hr)
    exact .claimed now jobs job rfl hjob hlock hclaimable hnow
  | captureFailure now backoff err_str read =>
    obtain ⟨hlock, job, hrow, hkey⟩ := hw
    rw [Store.job_captureFailure]
    refine map_row_cases (JobStep cfg p db _ i) .same fun r hr hread => ?_
    have hid : read.id = i := hread.symm.trans (key_of_row hr)
    rw [hid] at hlock hrow
    obtain rfl : job = r := Option.some.inj (hrow.symm.trans hr)
    exact .failed now backoff err_str read job rfl hid hlock hkey
  | captureSuccess now read photo_ids =>
    obtain ⟨hlock, ⟨job, hrow, hkey⟩, -⟩ := hw
    rw [Store.job_captureSuccess]
    refine map_row_cases (JobStep cfg p db _ i) .same fun r hr hread => ?_
    have hid : read.id = i := hread.symm.trans (key_of_row hr)
    rw [hid] at hlock hrow
    obtain rfl : job = r := Option.some.inj (hrow.symm.trans hr)
    exact .succeeded now read photo_ids job rfl hid hlock hkey

/-- The request that a photo id was issued to, after a guarded write. -/
theorem issued_apply (hw : w.Guarded p db) {q : ℕ} (h : db.store.issued i = some q) :
    (db.store.apply cfg p w).issued i = some q := by
  cases w with
  | preuploadCranePhoto photo =>
    obtain ⟨hnew, -⟩ := hw
    have hne : i ≠ photo.id := by
      rintro rfl
      rw [hnew] at h
      exact absurd h (by simp)
    exact (if_neg hne).trans h
  | none | tick | createCrane | finalizeCranePhoto | createDeleteCraneJobs | claimJobs
  | captureFailure | captureSuccess | reportCranePhoto | putObject | deleteObject => exact h

/-- The clock does not go back. -/
theorem clock_apply (hw : w.Guarded p db) :
    db.store.clock ≤ (db.store.apply cfg p w).clock := by
  cases w with
  | tick now => exact hw
  | none | createCrane | preuploadCranePhoto | finalizeCranePhoto | createDeleteCraneJobs | claimJobs
  | captureFailure | captureSuccess | reportCranePhoto | putObject | deleteObject => exact le_rfl

/-- An object leaves storage only when a job has its key. -/
theorem storage_apply (cfg : Settings) (hw : w.Guarded p db) {object_key : String}
    (h : object_key ∈ db.store.storage) :
    object_key ∈ (db.store.apply cfg p w).storage ∨
      ∃ job ∈ db.store.jobs, job.storage_key = object_key := by
  cases w with
  | putObject key => exact Or.inl (Finset.mem_insert_of_mem h)
  | deleteObject key =>
    by_cases hkey : object_key = key
    -- A key is deleted only for a job.
    · exact Or.inr (hkey ▸ hw)
    · exact Or.inl (Finset.mem_erase.2 ⟨hkey, h⟩)
  | none | tick | createCrane | preuploadCranePhoto | finalizeCranePhoto | createDeleteCraneJobs
  | claimJobs | captureFailure | captureSuccess | reportCranePhoto => exact Or.inl h

end Apply

end CraneTracker.Pipeline
