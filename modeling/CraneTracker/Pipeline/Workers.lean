import CraneTracker.Pipeline.Rely
import CraneTracker.Pipeline.Steps

/-!
# The workers between their steps

What a worker knows of the committed state between its steps: the rows that its locking query has
taken, and that the jobs of its batch are still there with their keys. It does not know that it still
holds their leases.
-/

namespace CraneTracker.Pipeline

open Interleaving Table

/-- The claimed jobs are there, with their keys. -/
def Store.HasJobs (s : Store) (jobs : List ClaimedJob) : Prop :=
  ∀ job ∈ jobs, s.HasJob job.id job.storage_key

/-- What a worker knows between its steps. -/
def Worker.Inv (p : ℕ) (db : Db) : Worker → Prop
  | .idle => True
  | .claim now => now ≤ db.store.clock
  | .claimScan now next jobs => now ≤ db.store.clock ∧
    db.locks.job.Scan p OutboxJob.id db.store.jobs (fun job => job.claimable .delete now = true)
      next jobs
  | .batch rest => db.store.HasJobs rest
  | .delete job rest => db.store.HasJobs (job :: rest)
  | .deleted job rest => db.store.HasJobs (job :: rest)
  | .deleteFailed job _ rest => db.store.HasJobs (job :: rest)
  | .successFlush _ read rest =>
    db.store.HasJob read.id read.storage_key ∧ db.store.HasJobs rest
  | .successDelete _ read rest => db.store.HasJob read.id read.storage_key ∧
    db.locks.job read.id = some p ∧ db.store.HasJobs rest
  | .successCommit _ read photo_ids rest => db.store.HasJob read.id read.storage_key ∧
    db.locks.job read.id = some p ∧ db.Deletes p read.storage_key photo_ids ∧
    db.store.HasJobs rest
  | .failureFlush _ _ _ read rest =>
    db.store.HasJob read.id read.storage_key ∧ db.store.HasJobs rest
  | .failureCommit _ _ _ read rest => db.store.HasJob read.id read.storage_key ∧
    db.locks.job read.id = some p ∧ db.store.HasJobs rest
  | .reap _ => True
  | .reapScan _ next photos =>
    db.locks.photo.Scan p CranePhoto.id db.store.photos (fun photo => photo.status = .pendingUpload)
      next photos

section Worker

variable {cfg : Settings} {p q : ℕ} {db db' : Db}

/-- Claimed jobs stay. -/
theorem Rely.hasJobs (hr : Rely q db db') {jobs : List ClaimedJob} (h : db.store.HasJobs jobs) :
    db'.store.HasJobs jobs :=
  fun job hjob => hr.job (h job hjob)

/-- The photos that a process is about to delete stay the ones with the key, when a job has it. -/
theorem Rely.deletes (hr : Rely q db db') (hs : db.store.Consistent) (hs' : db'.store.Consistent)
    {id : Uuid} {object_key : String} {photo_ids : List Uuid}
    (hjob : db.store.HasJob id object_key) (h : db.Deletes q object_key photo_ids) :
    db'.Deletes q object_key photo_ids where
  locked hi := hr.locks.photo _ (h.locked hi)
  found hi := by
    obtain ⟨photo, hrow, hkey⟩ := h.found hi
    exact ⟨photo, hr.locked_photo (h.locked hi) hrow, hkey⟩
  all := by
    intro i photo hrow hkey
    obtain ⟨job, hjob, hjkey⟩ := hjob
    -- The key of the job names an id that was issued before, so the photo was there before.
    obtain ⟨-, extension, hk⟩ := hs'.photo_key hrow
    have hjob_key : job.storage_key = createStorageKey photo.crane_id i extension :=
      calc job.storage_key = object_key := hjkey
        _ = photo.storage_key := hkey.symm
        _ = createStorageKey photo.crane_id i extension := hk
    have hissued := hs.issued_of_job_key hjob hjob_key
    obtain ⟨r, hold, hkey'⟩ := hr.old_photo hissued hrow
    exact h.all hold (hkey'.symm.trans hkey)

/-- What a worker knows survives what the others do. -/
theorem Worker.Inv.stable (hs : db.store.Consistent) (hs' : db'.store.Consistent)
    (hr : Rely q db db') {w : Worker} (h : w.Inv q db) : w.Inv q db' := by
  cases w with
  | idle => trivial
  | claim => exact le_trans h hr.clock
  | claimScan =>
    obtain ⟨hnow, hscan⟩ := h
    exact ⟨hnow.trans hr.clock, hscan.stable hr.locks.job hr.locked_job⟩
  | batch => exact hr.hasJobs h
  | delete => exact hr.hasJobs h
  | deleted => exact hr.hasJobs h
  | deleteFailed => exact hr.hasJobs h
  | successFlush => exact ⟨hr.job h.1, hr.hasJobs h.2⟩
  | successDelete =>
    obtain ⟨hjob, hlock, hrest⟩ := h
    exact ⟨hr.job hjob, hr.locks.job _ hlock, hr.hasJobs hrest⟩
  | successCommit =>
    obtain ⟨hjob, hlock, hdel, hrest⟩ := h
    exact ⟨hr.job hjob, hr.locks.job _ hlock, hr.deletes hs hs' hjob hdel, hr.hasJobs hrest⟩
  | failureFlush => exact ⟨hr.job h.1, hr.hasJobs h.2⟩
  | failureCommit =>
    obtain ⟨hjob, hlock, hrest⟩ := h
    exact ⟨hr.job hjob, hr.locks.job _ hlock, hr.hasJobs hrest⟩
  | reap => trivial
  | reapScan => exact Locks.Scan.stable h hr.locks.photo hr.locked_photo

/-- Reading the job that a worker has in hand finds it, with the key that was claimed. -/
theorem Store.HasJob.read {s : Store} {job : ClaimedJob} (h : s.HasJob job.id job.storage_key)
    {read : OutboxJob} (hread : s.job job.id = some read) :
    read.id = job.id ∧ read.storage_key = job.storage_key := by
  obtain ⟨r, hr, hkey⟩ := h
  obtain rfl : r = read := Option.some.inj (hr.symm.trans hread)
  exact ⟨key_of_row hr, hkey⟩

/-- A job that a `SELECT` has read is there, with the key that was read. -/
theorem Store.hasJob_of_read {s : Store} {i : Uuid} {read : OutboxJob} (h : s.job i = some read) :
    s.HasJob read.id read.storage_key := by
  have hid : read.id = i := key_of_row h
  exact ⟨read, by rwa [hid], rfl⟩

/-- The jobs after the first are there too. -/
theorem Store.HasJobs.tail {s : Store} {job : ClaimedJob} {rest : List ClaimedJob}
    (h : s.HasJobs (job :: rest)) : s.HasJobs rest :=
  fun j hj => h j (List.mem_cons_of_mem _ hj)

/-- The commit of `claim_jobs` passes its guards. -/
theorem guarded_claimJobs {now : Timestamp} {next : List Uuid} {jobs : List OutboxJob}
    (hw : (Worker.claimScan now next jobs).Inv p db) :
    (Write.claimJobs now jobs).Guarded p db := by
  obtain ⟨hnow, hscan⟩ := hw
  exact ⟨hnow, hscan.nodup_rows,
    fun job hjob => ⟨hscan.locked hjob, hscan.current hjob, hscan.satisfied hjob⟩⟩

/-- The commit of `run_reap_crane_photos` passes its guards. -/
theorem guarded_reap {now : Timestamp} {next : List Uuid} {photos : List CranePhoto}
    {job_ids : List Uuid} (hw : (Worker.reapScan now next photos).Inv p db)
    (hlength : job_ids.length = photos.length) (hnodup : job_ids.Nodup)
    (hfresh : ∀ i ∈ job_ids, db.store.job i = none) :
    (Write.createDeleteCraneJobs .runReapCranePhotos now (photos.zip job_ids)).Guarded p db := by
  have hscan : db.locks.photo.Scan p CranePhoto.id db.store.photos
    (fun photo => photo.status = .pendingUpload) next photos := hw
  -- There is one job id for each photo, so the pairs project to the two lists.
  have hsnd : (photos.zip job_ids).map Prod.snd = job_ids := List.map_snd_zip hlength.le
  have hfst : (photos.zip job_ids).map Prod.fst = photos := List.map_fst_zip hlength.ge
  have hfst' : ((photos.zip job_ids).map fun x => x.1.id) = photos.map CranePhoto.id := by
    conv_rhs => rw [← hfst, List.map_map]
    rfl
  refine ⟨by rwa [hsnd], by rw [hfst']; exact hscan.nodup_rows, ?_⟩
  rintro ⟨photo, job_id⟩ hx
  obtain ⟨hphoto, hjob⟩ := List.of_mem_zip hx
  exact ⟨hscan.locked hphoto, hfresh job_id hjob, photo, hscan.current hphoto, rfl,
    hscan.satisfied hphoto⟩

/-- The photos that the `DELETE` of `capture_success` locks are those with the key. -/
theorem deletes_filter (hs : db.store.Consistent) (object_key : String) {photo_ids : List Uuid}
    (h : photo_ids =
      (db.store.photos.filter fun r => r.storage_key = object_key).map CranePhoto.id) :
    Db.Deletes p ⟨db.store, db.locks.lockPhotos p photo_ids⟩ object_key photo_ids where
  locked hi := Locks.acquire_of_mem hi
  found hi := by
    rw [h] at hi
    obtain ⟨photo, hmem, rfl⟩ := List.mem_map.1 hi
    obtain ⟨hphoto, hkey⟩ := List.mem_filter.1 hmem
    exact ⟨photo, hs.photo_of_mem hphoto, by simpa using hkey⟩
  all := by
    intro i photo hrow hkey
    rw [h]
    exact List.mem_map.2
      ⟨photo, List.mem_filter.2 ⟨mem_of_row hrow, by simpa using hkey⟩, key_of_row hrow⟩

/-- A worker in the middle of a status write knows that the jobs that are left to it are there. -/
theorem Worker.Inv.left {w : Worker} (hw : w.Inv p db) {rest : List ClaimedJob}
    (h : w.left = some rest) : db.store.HasJobs rest := by
  cases w with
  | deleted | deleteFailed =>
    obtain rfl := Option.some.inj h
    exact Store.HasJobs.tail hw
  | successFlush | failureFlush =>
    obtain rfl := Option.some.inj h
    exact hw.2
  | successDelete | failureCommit =>
    obtain rfl := Option.some.inj h
    exact hw.2.2
  | successCommit =>
    obtain rfl := Option.some.inj h
    exact hw.2.2.2
  | idle | claim | claimScan | batch | delete | reap | reapScan => cases h

/-- Each step of a worker is sound. -/
theorem Worker.step_sound (cfg : Settings) (hs : db.store.Consistent) {w : Worker}
    (hw : w.Inv p db) {a : WorkerAction} {o : Outcome Worker} (h : w.step cfg p db a = some o) :
    o.Sound cfg p db (Worker.Inv p) := by
  cases Worker.step_cases h with
  | beginClaim => exact .pass (le_refl db.store.clock)
  | selectJobs now rows hrows => exact .pass ⟨hw, .start hrows hs.job_unique⟩
  | takeJob now id next jobs job hlimit hnext =>
    obtain ⟨hnow, hscan⟩ := hw
    have hlock := Locks.available_of_lockNext hnext
    exact ⟨trivial, fun q hq => .lockJobs hq (by simpa using hlock), hnow,
      hscan.take hnext fun hclaimable => hclaimable⟩
  | skipJob => exact .pass ⟨hw.1, hw.2.skip⟩
  | claimCommit now next jobs =>
    -- The claimed jobs are in the table after the commit, with the keys that it returns.
    have hguard := guarded_claimJobs hw
    refine ⟨hguard, fun q hq => .release hq _, fun job hjob => ?_⟩
    obtain ⟨r, hr, rfl⟩ := List.mem_map.1 hjob
    exact hasJob_apply cfg hguard ⟨r, hw.2.current hr, rfl⟩
  | endBatch => exact .pass trivial
  | nextJob => exact .pass hw
  | shutdown => exact .pass trivial
  | delete job rest =>
    have hjobs : db.store.HasJobs (job :: rest) := hw
    -- The worker deletes the key of a job that is there, whoever holds its lease by now.
    obtain ⟨r, hr, hkey⟩ := hjobs job List.mem_cons_self
    exact ⟨⟨r, mem_of_row hr, hkey⟩, fun q _ => .refl q _, hjobs⟩
  | deleteError job rest err_str effect =>
    have hjobs : db.store.HasJobs (job :: rest) := hw
    obtain ⟨r, hr, hkey⟩ := hjobs job List.mem_cons_self
    split_ifs
    · exact ⟨⟨r, mem_of_row hr, hkey⟩, fun q _ => .refl q _, hjobs⟩
    · exact .pass hjobs
  -- The `SELECT` takes no lock, so the worker knows that the job is there and no more.
  | successSelect job rest backoff read hread =>
    exact .pass ⟨Store.hasJob_of_read hread, Store.HasJobs.tail hw⟩
  | failureSelect job err_str rest backoff read hread =>
    exact .pass ⟨Store.hasJob_of_read hread, Store.HasJobs.tail hw⟩
  | successMissing => exact .pass (Store.HasJobs.tail hw)
  | failureMissing => exact .pass (Store.HasJobs.tail hw)
  | successFlush now read rest hrow hlock =>
    exact ⟨trivial, fun q hq => .lockJobs hq (by simpa using hlock), hw.1,
      Locks.acquire_of_mem (List.mem_singleton_self _), hw.2⟩
  | failureFlush now backoff err_str read rest hlength hrow hlock =>
    exact ⟨trivial, fun q hq => .lockJobs hq (by simpa using hlock), hw.1,
      Locks.acquire_of_mem (List.mem_singleton_self _), hw.2⟩
  | deletePhotos now read rest photo_ids hids hlocks =>
    obtain ⟨hjob, hlock, hrest⟩ := hw
    exact ⟨trivial, fun q hq => .lockPhotos hq hlocks, hjob, hlock, deletes_filter hs _ hids, hrest⟩
  | successCommit now read photo_ids rest =>
    obtain ⟨hjob, hlock, hdel, hrest⟩ := hw
    have hguard : (Write.captureSuccess now read photo_ids).Guarded p db := ⟨hlock, hjob, hdel⟩
    exact ⟨hguard, fun q hq => .release hq _, fun j hj => hasJob_apply cfg hguard (hrest j hj)⟩
  | failureCommit now backoff err_str read rest =>
    obtain ⟨hjob, hlock, hrest⟩ := hw
    have hguard : (Write.captureFailure now backoff err_str read).Guarded p db := ⟨hlock, hjob⟩
    exact ⟨hguard, fun q hq => .release hq _, fun j hj => hasJob_apply cfg hguard (hrest j hj)⟩
  | beginReap => exact .pass trivial
  | selectPhotos now rows hrows => exact .pass (.start hrows hs.photo_unique)
  | takePhoto now id next photos photo hlimit hnext =>
    have hscan : db.locks.photo.Scan p CranePhoto.id db.store.photos
      (fun photo => photo.status = .pendingUpload) (id :: next) photos := hw
    have hlock := Locks.available_of_lockNext hnext
    exact ⟨trivial, fun q hq => .lockPhotos hq (by simpa using hlock),
      hscan.take hnext CranePhoto.status_of_reapable⟩
  | skipPhoto now id next photos =>
    have hscan : db.locks.photo.Scan p CranePhoto.id db.store.photos
      (fun photo => photo.status = .pendingUpload) (id :: next) photos := hw
    exact .pass hscan.skip
  | reapCommit now next photos job_ids hend hlength hnodup hfresh =>
    exact ⟨guarded_reap hw hlength hnodup hfresh, fun q hq => .release hq _, trivial⟩
  | queryError => exact .release trivial
  | statusError w rest hrest => exact .release (hw.left hrest)
  | stop => exact .release trivial

end Worker

end CraneTracker.Pipeline
