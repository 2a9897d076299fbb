import CraneTracker.Pipeline.Writes

/-!
# The invariant of the committed state

`Store.Consistent` ties the photos, the jobs, and the objects in storage together. Its fields support
each other, so they are proved as one invariant. A photo may be published because no job can delete
its object (`job_photo`). A job may delete an object, even a second time and long after its lease has
expired, because the photo of its key is marked and stays so. The count of a crane's photos only
grows under the crane's lock.

`Store.Consistent.apply` is the step lemma: a guarded write keeps the committed state consistent. It
is a case analysis of what the write does to a photo (`PhotoStep`) and to a job (`JobStep`).
-/

namespace CraneTracker.Pipeline

open Table

/-- The invariant of the committed state. -/
structure Store.Consistent (s : Store) : Prop where
  /-- The ids of photos are unique. -/
  photo_unique : KeyUnique CranePhoto.id s.photos
  /-- The ids of jobs are unique. -/
  job_unique : KeyUnique OutboxJob.id s.jobs
  /-- A photo was inserted by a request, with a key made of its crane and its id. -/
  photo_key : ∀ {i photo}, s.photo i = some photo → (s.issued i).isSome = true ∧
    ∃ extension, photo.storage_key = createStorageKey photo.crane_id i extension
  /-- The key of a job is that of a photo that a request has inserted. -/
  job_key : ∀ {j job}, s.job j = some job → ∃ crane_id i extension,
    job.storage_key = createStorageKey crane_id i extension ∧ (s.issued i).isSome = true
  /-- A photo whose key has a job is marked for deletion. -/
  job_photo : ∀ {j job i photo}, s.job j = some job → s.photo i = some photo →
    photo.storage_key = job.storage_key → photo.status = .pendingDelete
  /-- A photo that is marked for deletion has a job that is not completed. -/
  photo_job : ∀ {i photo}, s.photo i = some photo → photo.status = .pendingDelete →
    ∃ j job, s.job j = some job ∧ job.storage_key = photo.storage_key ∧ job.status ≠ .completed
  /-- The object of a published photo is in storage. -/
  active_stored : ∀ {i photo}, s.photo i = some photo → photo.status = .active →
    photo.storage_key ∈ s.storage
  /-- A crane has at most `MAX_PHOTOS_PER_CRANE` photos that count. -/
  capacity : ∀ crane_id, activePhotoCount s.photos crane_id ≤ maxPhotosPerCrane

namespace Store.Consistent

section Keys

variable {s : Store} (hs : s.Consistent)
include hs

/-- A photo in the table is the row of its id. -/
theorem photo_of_mem {photo : CranePhoto} (h : photo ∈ s.photos) :
    s.photo photo.id = some photo :=
  row_of_mem hs.photo_unique h

/-- A job in the table is the row of its id. -/
theorem job_of_mem {job : OutboxJob} (h : job ∈ s.jobs) : s.job job.id = some job :=
  row_of_mem hs.job_unique h

/-- Photos with the same key have the same id. -/
theorem id_eq_of_key {i i' : Uuid} {photo photo' : CranePhoto} (h : s.photo i = some photo)
    (h' : s.photo i' = some photo') (hkey : photo.storage_key = photo'.storage_key) : i = i' := by
  obtain ⟨-, extension, hk⟩ := hs.photo_key h
  obtain ⟨-, extension', hk'⟩ := hs.photo_key h'
  rw [hk, hk'] at hkey
  exact (createStorageKey_inj hkey).2.1

/-- The key of a job names an id that was issued. -/
theorem issued_of_job_key {j i crane_id : Uuid} {job : OutboxJob} {extension : String}
    (h : s.job j = some job) (hkey : job.storage_key = createStorageKey crane_id i extension) :
    (s.issued i).isSome = true := by
  obtain ⟨crane_id', i', extension', hk, hissued⟩ := hs.job_key h
  rw [hk] at hkey
  obtain ⟨-, rfl, -⟩ := createStorageKey_inj hkey
  exact hissued

/-- A photo that is not marked for deletion has no job. -/
theorem key_ne_of_status {j i : Uuid} {job : OutboxJob} {photo : CranePhoto}
    (hphoto : s.photo i = some photo) (hstatus : photo.status ≠ .pendingDelete)
    (hjob : s.job j = some job) : photo.storage_key ≠ job.storage_key :=
  fun hkey => hstatus (hs.job_photo hjob hphoto hkey)

end Keys

section Apply

variable {cfg : Settings} {p : ℕ} {db : Db} {w : Write}

/-- A write that adds no row with a taken id keeps the ids of photos unique. -/
theorem photo_unique_apply (hs : db.store.Consistent) (hw : w.Guarded p db) :
    KeyUnique CranePhoto.id (db.store.apply cfg p w).photos := by
  cases w with
  | none | tick | createCrane | claimJobs | captureFailure | reportCranePhoto | putObject
  | deleteObject => exact hs.photo_unique
  | preuploadCranePhoto photo =>
    obtain ⟨hnew, -⟩ := hw
    refine hs.photo_unique.append (List.nodup_singleton _) ?_
    intro r hr r' hr' heq
    obtain rfl : r' = photo := List.mem_singleton.1 hr'
    -- The id of a row was issued, and that of the new row was not.
    have hissued := (hs.photo_key (hs.photo_of_mem hr)).1
    rw [heq, hnew] at hissued
    exact absurd hissued (by simp)
  | finalizeCranePhoto => exact hs.photo_unique.updateWhere fun _ => rfl
  | createDeleteCraneJobs => exact hs.photo_unique.updateWhere fun _ => rfl
  | captureSuccess => exact hs.photo_unique.deleteWhere _

/-- A write that adds no row with a taken id keeps the ids of jobs unique. -/
theorem job_unique_apply (hs : db.store.Consistent) (hw : w.Guarded p db) :
    KeyUnique OutboxJob.id (db.store.apply cfg p w).jobs := by
  cases w with
  | none | tick | createCrane | preuploadCranePhoto | finalizeCranePhoto | reportCranePhoto
  | putObject | deleteObject => exact hs.job_unique
  | createDeleteCraneJobs deleter now rows =>
    obtain ⟨hnodup, -, hrows⟩ := hw
    refine hs.job_unique.append ?_ ?_
    · rw [KeyUnique, List.map_map]
      exact hnodup
    · intro job hjob job' hjob' heq
      obtain ⟨x, hx, rfl⟩ := List.mem_map.1 hjob'
      have hnone := (hrows x hx).2.1
      exact row_eq_none.1 hnone job hjob heq
  | claimJobs => exact hs.job_unique.updateWhere fun _ => rfl
  | captureFailure => exact hs.job_unique.updateWhere fun _ => rfl
  | captureSuccess => exact hs.job_unique.updateWhere fun _ => rfl

/-- The ids that were issued stay issued. -/
theorem isSome_issued_apply (hw : w.Guarded p db) {i : Uuid}
    (h : (db.store.issued i).isSome = true) :
    ((db.store.apply cfg p w).issued i).isSome = true := by
  obtain ⟨q, hq⟩ := Option.isSome_iff_exists.1 h
  rw [issued_apply hw hq]
  rfl

/-- A photo row after a guarded write has a key made of its crane and its id. -/
theorem photo_key_apply (hs : db.store.Consistent) (hw : w.Guarded p db) {i : Uuid}
    {photo : CranePhoto} (h : (db.store.apply cfg p w).photo i = some photo) :
    ((db.store.apply cfg p w).issued i).isSome = true ∧
      ∃ extension, photo.storage_key = createStorageKey photo.crane_id i extension := by
  have hstep := photo_apply cfg hs.photo_unique hw i
  rw [h] at hstep
  generalize hi : db.store.photo i = r at hstep
  cases hstep with
  | same =>
    obtain ⟨hissued, hkey⟩ := hs.photo_key hi
    exact ⟨isSome_issued_apply hw hissued, hkey⟩
  | inserted _ hw' hid =>
    subst hw' hid
    obtain ⟨-, -, hkey, -, -⟩ := hw
    exact ⟨by simp [Store.apply], hkey⟩
  | finalized photo =>
    obtain ⟨hissued, hkey⟩ := hs.photo_key hi
    exact ⟨isSome_issued_apply hw hissued, hkey⟩
  | marked photo =>
    obtain ⟨hissued, hkey⟩ := hs.photo_key hi
    exact ⟨isSome_issued_apply hw hissued, hkey⟩

/-- Where a job row after a guarded write comes from: a job with its key was there, or the write
queues it for a photo that it marks. -/
theorem job_origin (hw : w.Guarded p db) {j : Uuid} {job : OutboxJob}
    (h : (db.store.apply cfg p w).job j = some job) :
    (∃ job₀, db.store.job j = some job₀ ∧ job₀.storage_key = job.storage_key) ∨
      ∃ deleter now rows photo, w = .createDeleteCraneJobs deleter now rows ∧
        (∃ x ∈ rows, x.1.id = photo.id) ∧ db.store.photo photo.id = some photo ∧
        job.storage_key = photo.storage_key := by
  have hstep := job_apply cfg hw j
  rw [h] at hstep
  generalize hj : db.store.job j = r at hstep
  cases hstep with
  | same => exact Or.inl ⟨job, rfl, rfl⟩
  | created deleter now rows photo hw' hrow hphoto =>
    obtain ⟨x, hx, -, hid⟩ := hrow
    exact Or.inr ⟨deleter, now, rows, photo, hw', ⟨x, hx, hid⟩, hphoto, rfl⟩
  | claimed _ _ job₀ => exact Or.inl ⟨job₀, rfl, rfl⟩
  | failed _ _ _ _ job₀ => exact Or.inl ⟨job₀, rfl, rfl⟩
  | succeeded _ _ _ job₀ => exact Or.inl ⟨job₀, rfl, rfl⟩

/-- A job row after a guarded write has the key of a photo that a request has inserted. -/
theorem job_key_apply (hs : db.store.Consistent) (hw : w.Guarded p db) {j : Uuid}
    {job : OutboxJob} (h : (db.store.apply cfg p w).job j = some job) :
    ∃ crane_id i extension, job.storage_key = createStorageKey crane_id i extension ∧
      ((db.store.apply cfg p w).issued i).isSome = true := by
  -- The key is that of an older job, or that of the photo that the write marks.
  rcases job_origin hw h with ⟨job₀, h₀, hkey₀⟩ | ⟨_, _, _, photo, _, _, hphoto, hkey₀⟩
  · obtain ⟨crane_id, i, extension, hkey, hissued⟩ := hs.job_key h₀
    exact ⟨crane_id, i, extension, hkey₀.symm.trans hkey, isSome_issued_apply hw hissued⟩
  · obtain ⟨hissued, extension, hkey⟩ := hs.photo_key hphoto
    exact ⟨photo.crane_id, photo.id, extension, hkey₀.trans hkey, isSome_issued_apply hw hissued⟩

/-- What a commit of `create_delete_crane_job` leaves of a photo that it marks. -/
theorem status_of_marked {deleter : Deleter} {now : Timestamp} {rows : List (CranePhoto × Uuid)}
    {x : CranePhoto × Uuid} (hx : x ∈ rows) {photo : CranePhoto}
    (h : (db.store.apply cfg p (.createDeleteCraneJobs deleter now rows)).photo x.1.id
      = some photo) : photo.status = .pendingDelete := by
  rw [Store.photo_createDeleteCraneJobs, Option.map_eq_some_iff] at h
  obtain ⟨r, hr, rfl⟩ := h
  have hmem : r.id ∈ rows.map fun x => x.1.id := by
    rw [key_of_row hr]
    exact List.mem_map_of_mem hx
  rw [if_pos hmem]
  rfl

/-- After a guarded write, a photo whose key has a job is marked for deletion. -/
theorem job_photo_apply (hs : db.store.Consistent) (hw : w.Guarded p db) {j i : Uuid}
    {job : OutboxJob} {photo : CranePhoto} (hjob : (db.store.apply cfg p w).job j = some job)
    (hphoto : (db.store.apply cfg p w).photo i = some photo)
    (hkey : photo.storage_key = job.storage_key) : photo.status = .pendingDelete := by
  rcases job_origin hw hjob with
    ⟨job₀, hjob₀, hkey₀⟩ | ⟨deleter, now, rows, photo₀, rfl, ⟨x, hx, hid⟩, hphoto₀, hkey₀⟩
  -- An older job: its photo was marked before, and stays marked.
  · have hkey' := hkey.trans hkey₀.symm
    have hstep := photo_apply cfg hs.photo_unique hw i
    rw [hphoto] at hstep
    generalize hi : db.store.photo i = r at hstep
    cases hstep with
    | same => exact hs.job_photo hjob₀ hi hkey'
    | inserted _ hw' hid hnew =>
      subst hw' hid
      obtain ⟨-, -, ⟨extension, hk⟩, -, -⟩ := hw
      have hissued := hs.issued_of_job_key hjob₀ (hkey'.symm.trans hk)
      rw [hnew] at hissued
      exact absurd hissued (by simp)
    | finalized photo _ _ _ hstatus =>
      have hne : photo.status ≠ .pendingDelete := by rw [hstatus]; simp
      have hkey₁ : photo.storage_key = job₀.storage_key := hkey'
      exact absurd hkey₁ (hs.key_ne_of_status hi hne hjob₀)
    | marked => rfl
  · obtain ⟨-, extension, hk⟩ := photo_key_apply hs hw hphoto
    obtain ⟨-, extension₀, hk₀⟩ := hs.photo_key hphoto₀
    have hkeys : photo.storage_key = photo₀.storage_key := hkey.trans hkey₀
    rw [hk, hk₀] at hkeys
    have hi : i = x.1.id := (createStorageKey_inj hkeys).2.1.trans hid.symm
    exact status_of_marked hx (hi ▸ hphoto)

/-- A job survives a guarded write, with its key. It becomes completed only when its photos are
removed. -/
theorem job_survives (cfg : Settings) (hw : w.Guarded p db) {j : Uuid} {job : OutboxJob}
    (h : db.store.job j = some job) :
    ∃ job', (db.store.apply cfg p w).job j = some job' ∧ job'.storage_key = job.storage_key ∧
      (job.status ≠ .completed → job'.status ≠ .completed ∨ ∃ now read photo_ids,
        w = .captureSuccess now read photo_ids ∧ job.storage_key = read.storage_key) := by
  have hstep := job_apply cfg hw j
  rw [h] at hstep
  generalize hj : (db.store.apply cfg p w).job j = r at hstep
  cases hstep with
  | same => exact ⟨job, rfl, rfl, fun hne => Or.inl hne⟩
  | claimed => exact ⟨_, rfl, rfl, fun _ => Or.inl (by simp)⟩
  | failed now backoff err_str read =>
    refine ⟨_, rfl, rfl, fun hne => Or.inl ?_⟩
    have hor : (captureFailure cfg now backoff err_str read job).status = failureStatus cfg read ∨
        (captureFailure cfg now backoff err_str read job).status = job.status :=
      captureFailure_status
    rcases hor with h | h
    · rw [h]
      exact failureStatus_ne_completed cfg read
    · rwa [h]
  | succeeded now read photo_ids _ hw' _ _ hkey =>
    exact ⟨_, rfl, rfl, fun _ => Or.inr ⟨now, read, photo_ids, hw', hkey⟩⟩

/-- After a guarded write, a photo that is marked for deletion has a job that is not completed. -/
theorem photo_job_apply (hs : db.store.Consistent) (hw : w.Guarded p db) {i : Uuid}
    {photo : CranePhoto} (hphoto : (db.store.apply cfg p w).photo i = some photo)
    (hstatus : photo.status = .pendingDelete) :
    ∃ j job, (db.store.apply cfg p w).job j = some job ∧
      job.storage_key = photo.storage_key ∧ job.status ≠ .completed := by
  have hstep := photo_apply cfg hs.photo_unique hw i
  rw [hphoto] at hstep
  generalize hi : db.store.photo i = r at hstep
  cases hstep with
  | same =>
    obtain ⟨j, job, hjob, hkey, hne⟩ := hs.photo_job hi hstatus
    obtain ⟨job', hjob', hkey', hor⟩ := job_survives cfg hw hjob
    -- If the job becomes completed, the same commit removes the photo.
    rcases hor hne with hne' | ⟨now, read, photo_ids, rfl, hread⟩
    · exact ⟨j, job', hjob', hkey'.trans hkey, hne'⟩
    · obtain ⟨-, -, hdel⟩ := hw
      have hmem : photo.id ∈ photo_ids := by
        rw [key_of_row hi]
        exact hdel.all hi (hkey.symm.trans hread)
      rw [Store.photo_captureSuccess hs.photo_unique, hi, Option.filter_some,
        if_neg (by simpa using hmem)] at hphoto
      exact absurd hphoto (by simp)
  | inserted _ _ _ _ hpending => exact absurd (hstatus.symm.trans hpending) (by simp)
  | finalized => exact absurd hstatus (by simp [finalizeCranePhoto])
  | marked photo deleter now rows hw' hrow =>
    subst hw'
    obtain ⟨x, hx, -, hkey⟩ := hrow
    have hmem : createTask now x.2 .delete x.1.storage_key ∈
        (db.store.apply cfg p (.createDeleteCraneJobs deleter now rows)).jobs := by
      refine List.mem_append_right _ (List.mem_map.2 ⟨x, hx, rfl⟩)
    -- The job that is queued for it is pending.
    exact ⟨x.2, _, row_of_mem (job_unique_apply hs hw) hmem, hkey, by simp [createTask]⟩

/-- After a guarded write, the object of a published photo is in storage. -/
theorem active_stored_apply (hs : db.store.Consistent) (hw : w.Guarded p db) {i : Uuid}
    {photo : CranePhoto} (hphoto : (db.store.apply cfg p w).photo i = some photo)
    (hstatus : photo.status = .active) :
    photo.storage_key ∈ (db.store.apply cfg p w).storage := by
  have hstep := photo_apply cfg hs.photo_unique hw i
  rw [hphoto] at hstep
  generalize hi : db.store.photo i = r at hstep
  cases hstep with
  | same =>
    -- If the object is deleted then its key has a job, and the photo would be marked.
    rcases storage_apply cfg hw (hs.active_stored hi hstatus) with h | ⟨job, hjob, hkey⟩
    · exact h
    · have hne : photo.status ≠ .pendingDelete := by rw [hstatus]; simp
      exact absurd hkey.symm (hs.key_ne_of_status hi hne (hs.job_of_mem hjob))
  | inserted _ _ _ _ hpending => exact absurd (hstatus.symm.trans hpending) (by simp)
  | finalized _ hw' _ _ _ hstored =>
    subst hw'
    exact hstored
  | marked => exact absurd hstatus (by simp [markPendingDelete])

/-- The count of a crane's photos grows only by an insertion under the crane's lock, and only below
the limit. -/
theorem activePhotoCount_apply (cfg : Settings) (hs : db.store.Consistent)
    (hw : w.Guarded p db) (crane_id : Uuid) :
    activePhotoCount (db.store.apply cfg p w).photos crane_id
        ≤ activePhotoCount db.store.photos crane_id ∨
      db.locks.crane crane_id = some p ∧
        activePhotoCount (db.store.apply cfg p w).photos crane_id ≤ maxPhotosPerCrane := by
  cases w with
  | none | tick | createCrane | claimJobs | captureFailure | reportCranePhoto | putObject
  | deleteObject => exact Or.inl le_rfl
  | preuploadCranePhoto photo =>
    obtain ⟨-, -, -, hlock, hcount⟩ := hw
    -- The insertion counts for the crane of the photo, which is locked.
    have hcount' : activePhotoCount (db.store.apply cfg p (.preuploadCranePhoto photo)).photos
        crane_id = activePhotoCount db.store.photos crane_id +
          if photo.countsFor crane_id then 1 else 0 := by
      simp [activePhotoCount, Store.apply, List.countP_append, List.countP_singleton]
    by_cases hc : photo.countsFor crane_id
    · have hcrane : photo.crane_id = crane_id := by
        simp only [CranePhoto.countsFor, Bool.and_eq_true, decide_eq_true_eq] at hc
        exact hc.1
      subst hcrane
      refine Or.inr ⟨hlock, ?_⟩
      rw [hcount', if_pos hc]
      omega
    · left
      rw [hcount', if_neg hc]
      omega
  | finalizeCranePhoto photo_id =>
    obtain ⟨-, -, photo, hrow, hstatus, -⟩ := hw
    refine Or.inl (countP_updateWhere_le fun r hr hid hcounts => ?_)
    -- Publishing moves a photo between the two statuses that count.
    have hrid : r.id = photo_id := by simpa using hid
    obtain rfl : photo = r := by
      have := hs.photo_of_mem hr
      rw [hrid, hrow] at this
      exact Option.some.inj this
    have hcrane : photo.crane_id = crane_id := by
      simp only [CranePhoto.countsFor, finalizeCranePhoto, Bool.and_eq_true] at hcounts
      exact of_decide_eq_true hcounts.1
    simp [CranePhoto.countsFor, hstatus, hcrane]
  | createDeleteCraneJobs deleter now rows =>
    refine Or.inl (countP_updateWhere_le fun r _ _ hcounts => ?_)
    -- A marked photo no longer counts.
    simp [CranePhoto.countsFor, markPendingDelete] at hcounts
  | captureSuccess => exact Or.inl countP_deleteWhere_le

/-- A guarded write keeps the committed state consistent. -/
theorem apply (hs : db.store.Consistent) (hw : w.Guarded p db) :
    (db.store.apply cfg p w).Consistent where
  photo_unique := photo_unique_apply hs hw
  job_unique := job_unique_apply hs hw
  photo_key := photo_key_apply hs hw
  job_key := job_key_apply hs hw
  job_photo := job_photo_apply hs hw
  photo_job := photo_job_apply hs hw
  active_stored := active_stored_apply hs hw
  capacity crane_id := by
    rcases activePhotoCount_apply cfg hs hw crane_id with h | ⟨-, h⟩
    · exact h.trans (hs.capacity crane_id)
    · exact h

end Apply

end Store.Consistent

end CraneTracker.Pipeline
