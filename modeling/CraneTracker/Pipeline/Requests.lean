import CraneTracker.Pipeline.Rely
import CraneTracker.Pipeline.Steps

/-!
# The requests between their steps

What an upload request, an admin deletion, and a report know of the committed state between their
steps: the locks that they hold, and what they have read and can still rely on. An upload request
holds no lock while it calls the storage. It knows that the row of its photo is as it inserted it,
marked for deletion, or gone (`Unpublished`).
-/

namespace CraneTracker.Pipeline

open Interleaving Table

/-! ## Upload requests -/

/-- The photo that the request `p` inserted and has not published: its row is as inserted, marked for
deletion, or gone. -/
structure Unpublished (p : ℕ) (s : Store) (photo : CranePhoto) : Prop where
  pending : photo.status = .pendingUpload
  own : s.issued photo.id = some p
  row : ∀ {r}, s.photo photo.id = some r → r = photo ∨ r = markPendingDelete photo

/-- A pending row of an unpublished photo is the row that was inserted. -/
theorem Unpublished.eq_of_pending {p : ℕ} {s : Store} {photo r : CranePhoto}
    (h : Unpublished p s photo) (hr : s.photo photo.id = some r)
    (hstatus : r.status = .pendingUpload) : r = photo := by
  rcases h.row hr with rfl | rfl
  · rfl
  · exact absurd hstatus (by simp [markPendingDelete])

/-- Others leave an unpublished photo unpublished. -/
theorem Unpublished.stable {q : ℕ} {db db' : Db} (hr : Rely q db db') {photo : CranePhoto}
    (h : Unpublished q db.store photo) : Unpublished q db'.store photo where
  pending := h.pending
  own := hr.issued h.own
  row hrow := by
    rcases hr.own_photo h.own hrow with hold | ⟨r, hold, rfl⟩
    · exact h.row hold
    · right
      rcases h.row hold with rfl | rfl
      · rfl
      · rfl

/-- What an upload request knows between its steps. -/
def Upload.Inv (p : ℕ) (db : Db) : Upload → Prop
  | .lockCrane _ _ => True
  | .count _ upload => db.locks.crane upload.crane_id = some p
  | .insert _ upload => db.locks.crane upload.crane_id = some p ∧
    activePhotoCount db.store.photos upload.crane_id < maxPhotosPerCrane
  | .put photo => Unpublished p db.store photo
  | .finalize photo => Unpublished p db.store photo ∧
    (db.store.photo photo.id = some photo → photo.storage_key ∈ db.store.storage)
  | .finalizeCommit photo => Unpublished p db.store photo ∧ db.locks.photo photo.id = some p ∧
    db.store.photo photo.id = some photo ∧ photo.storage_key ∈ db.store.storage
  | .abandon photo _ => Unpublished p db.store photo
  | .abandonFlush _ photo _ => Unpublished p db.store photo
  | .abandonCommit _ photo _ => Unpublished p db.store photo ∧
    db.locks.photo photo.id = some p ∧ ∃ r, db.store.photo photo.id = some r
  | .answered _ _ => True
  | .stopped => True

section Upload

variable {cfg : Settings} {p q : ℕ} {db db' : Db}

/-- The object of a pending photo stays in storage. -/
theorem Rely.stored (hr : Rely q db db') (hs : db.store.Consistent) {photo : CranePhoto}
    (hphoto : db.store.photo photo.id = some photo) (hstatus : photo.status = .pendingUpload)
    (hstored : photo.storage_key ∈ db.store.storage) :
    photo.storage_key ∈ db'.store.storage := by
  rcases hr.storage hstored with h | ⟨job, hjob, hkey⟩
  · exact h
  · have hne : photo.status ≠ .pendingDelete := by rw [hstatus]; simp
    exact absurd hkey.symm (hs.key_ne_of_status hphoto hne (hs.job_of_mem hjob))

/-- What an upload request knows survives what the others do. -/
theorem Upload.Inv.stable (hs : db.store.Consistent) (hr : Rely q db db') {u : Upload}
    (h : u.Inv q db) : u.Inv q db' := by
  cases u with
  | lockCrane => trivial
  | count => exact hr.locks.crane _ h
  | insert =>
    obtain ⟨hlock, hcount⟩ := h
    exact ⟨hr.locks.crane _ hlock, (hr.capacity hlock).trans_lt hcount⟩
  | put => exact Unpublished.stable hr h
  | finalize photo =>
    obtain ⟨hu, hstored⟩ := h
    refine ⟨hu.stable hr, fun hrow => ?_⟩
    -- The row is as it was inserted, so it was so before.
    have hold : db.store.photo photo.id = some photo := by
      rcases hr.own_photo hu.own hrow with hold | ⟨r, -, heq⟩
      · exact hold
      · have hstatus := hu.pending
        rw [heq] at hstatus
        exact absurd hstatus (by simp [markPendingDelete])
    exact hr.stored hs hold hu.pending (hstored hold)
  | finalizeCommit photo =>
    obtain ⟨hu, hlock, hrow, hstored⟩ := h
    exact ⟨hu.stable hr, hr.locks.photo _ hlock, hr.locked_photo hlock hrow,
      hr.stored hs hrow hu.pending hstored⟩
  | abandon => exact Unpublished.stable hr h
  | abandonFlush => exact Unpublished.stable hr h
  | abandonCommit =>
    obtain ⟨hu, hlock, r, hrow⟩ := h
    exact ⟨hu.stable hr, hr.locks.photo _ hlock, r, hr.locked_photo hlock hrow⟩
  | answered => trivial
  | stopped => trivial

/-- The photo that `preupload_crane_photo` inserts is unpublished. -/
theorem unpublished_preuploadCranePhoto (cfg : Settings) (hs : db.store.Consistent) {now : Timestamp}
    {upload : PreparedUpload} {photo_id : Uuid} (hnew : db.store.issued photo_id = none) :
    Unpublished p
      (db.store.apply cfg p (.preuploadCranePhoto (preuploadCranePhoto now upload photo_id)))
      (preuploadCranePhoto now upload photo_id) where
  pending := rfl
  own := if_pos rfl
  row hrow := by
    -- The id is new, so the table has no row with it.
    have hnone : db.store.photo photo_id = none := by
      cases h : db.store.photo photo_id with
      | none => rfl
      | some r =>
        have hissued := (hs.photo_key h).1
        rw [hnew] at hissued
        exact absurd hissued (by simp)
    rw [Store.photo_preuploadCranePhoto] at hrow
    simp only [preuploadCranePhoto, hnone, if_true, Option.none_or] at hrow
    exact Or.inl (Option.some.inj hrow).symm

/-- The commit of an abandonment passes its guards. -/
theorem guarded_abandon {now : Timestamp} {photo : CranePhoto} {answer : Answer} {job_id : Uuid}
    (hu : (Upload.abandonCommit now photo answer).Inv p db) (hjob : db.store.job job_id = none) :
    (Write.createDeleteCraneJobs .abandonCranePhotoUpload now [(photo, job_id)]).Guarded p db := by
  obtain ⟨hu, hlock, r, hrow⟩ := hu
  refine ⟨List.nodup_singleton _, List.nodup_singleton _, fun x hx => ?_⟩
  obtain rfl : x = (photo, job_id) := List.mem_singleton.1 hx
  have hid : r.id = photo.id := key_of_row hrow
  -- Nobody else publishes the photo, so it is pending or already marked.
  have hstatus : r.status ≠ .active := by
    rcases hu.row hrow with rfl | rfl
    · rw [hu.pending]
      simp
    · simp [markPendingDelete]
  have hkey : r.storage_key = photo.storage_key := by
    rcases hu.row hrow with rfl | rfl
    · rfl
    · rfl
  exact ⟨hlock, hjob, r, hrow, hkey, by rw [hid]; exact hu.own, hstatus⟩

/-- Each step of an upload request is sound. -/
theorem Upload.step_sound (cfg : Settings) (hs : db.store.Consistent) {u : Upload}
    (hu : u.Inv p db) {a : UploadAction} {o : Outcome Upload} (h : u.step p db a = some o) :
    o.Sound cfg p db (Upload.Inv p) := by
  cases Upload.step_cases h with
  | lockCrane now upload hcrane hlock =>
    exact ⟨trivial, fun q hq => .lockCranes hq (by simpa using hlock),
      Locks.acquire_of_mem (List.mem_singleton_self _)⟩
  | missingCrane => exact .pass trivial
  | full => exact .release trivial
  | count now upload hok => exact .pass ⟨hu, ensureCranePhotoCapacity_eq_ok.1 hok⟩
  | insert now upload photo_id hnew =>
    obtain ⟨hlock, hcount⟩ := hu
    exact ⟨⟨hnew, rfl, ⟨_, rfl⟩, hlock, hcount⟩, fun q hq => .release hq _,
      unpublished_preuploadCranePhoto cfg hs hnew⟩
  | put photo =>
    have hu' : Unpublished p db.store photo := hu
    -- The put does not touch the rows, and the object is in storage after it.
    exact ⟨trivial, fun q _ => .refl q _, ⟨hu'.pending, hu'.own, hu'.row⟩,
      fun _ => Finset.mem_insert_self _ _⟩
  | storageError photo message effect =>
    have hu' : Unpublished p db.store photo := hu
    split_ifs
    · exact ⟨trivial, fun q _ => .refl q _, hu'.pending, hu'.own, hu'.row⟩
    · exact .pass hu'
  | otherError photo effect =>
    split_ifs
    · exact ⟨trivial, fun q _ => .refl q _, trivial⟩
    · exact .pass trivial
  | finalize photo r hrow hstatus hlock =>
    obtain ⟨hu, hstored⟩ := hu
    -- The `UPDATE` found the row pending, so it is as it was inserted.
    obtain rfl := hu.eq_of_pending hrow hstatus
    exact ⟨trivial, fun q hq => .lockPhotos hq (by simpa using hlock), hu,
      Locks.acquire_of_mem (List.mem_singleton_self _), hrow, hstored hrow⟩
  | lost => exact .release hu.1
  | finalizeCommit =>
    obtain ⟨hu, hlock, hrow, hstored⟩ := hu
    exact ⟨⟨hlock, hu.own, _, hrow, hu.pending, hstored⟩, fun q hq => .release hq _, trivial⟩
  | abandonSelect photo read answer hrow hstatus =>
    have hu' : Unpublished p db.store photo := hu
    -- A plain `SELECT`: the row may change before the flush.
    obtain rfl := hu'.eq_of_pending hrow hstatus
    exact .pass hu'
  | abandoned => exact .pass trivial
  | abandonFlush now photo r answer hrow hlock =>
    exact ⟨trivial, fun q hq => .lockPhotos hq (by simpa using hlock), hu,
      Locks.acquire_of_mem (List.mem_singleton_self _), r, hrow⟩
  | abandonRaised => exact .release trivial
  | abandonCommit now photo answer job_id hjob =>
    exact ⟨guarded_abandon hu hjob, fun q hq => .release hq _, trivial⟩
  | dbError => exact .release trivial
  | finalizeError u photo hcase =>
    rcases hcase with rfl | rfl
    · exact .release hu.1
    · exact .release hu.1
  | abandonError => exact .release trivial
  | stop => exact .release trivial

end Upload

/-! ## Admin deletions and reports -/

/-- What an admin deletion knows between its steps. -/
def AdminDelete.Inv (p : ℕ) (db : Db) : AdminDelete → Prop
  | .lock _ _ _ => True
  | .commit _ photo => db.locks.photo photo.id = some p ∧
    db.store.photo photo.id = some photo ∧ photo.status = .active
  | .answered _ => True
  | .stopped => True

/-- What a report knows between its steps. -/
def Report.Inv (p : ℕ) (db : Db) : Report → Prop
  | .lock _ _ _ _ => True
  | .insert _ photo_id _ => db.locks.photo photo_id = some p ∧
    ∃ photo, db.store.photo photo_id = some photo ∧ photo.status = .active
  | .commit _ photo_id _ => db.locks.photo photo_id = some p ∧
    ∃ photo, db.store.photo photo_id = some photo ∧ photo.status = .active
  | .answered _ => True
  | .stopped => True

section AdminDelete

variable {cfg : Settings} {p q : ℕ} {db db' : Db}

/-- What an admin deletion knows survives what the others do. -/
theorem AdminDelete.Inv.stable (hr : Rely q db db') {d : AdminDelete} (h : d.Inv q db) :
    d.Inv q db' := by
  cases d with
  | commit now photo =>
    obtain ⟨hlock, hrow, hstatus⟩ := h
    exact ⟨hr.locks.photo _ hlock, hr.locked_photo hlock hrow, hstatus⟩
  | lock => trivial
  | answered => trivial
  | stopped => trivial

/-- What a report knows survives what the others do. -/
theorem Report.Inv.stable (hr : Rely q db db') {r : Report} (h : r.Inv q db) : r.Inv q db' := by
  cases r with
  | insert =>
    obtain ⟨hlock, photo, hrow, hstatus⟩ := h
    exact ⟨hr.locks.photo _ hlock, photo, hr.locked_photo hlock hrow, hstatus⟩
  | commit =>
    obtain ⟨hlock, photo, hrow, hstatus⟩ := h
    exact ⟨hr.locks.photo _ hlock, photo, hr.locked_photo hlock hrow, hstatus⟩
  | lock => trivial
  | answered => trivial
  | stopped => trivial

/-- Each step of an admin deletion is sound. -/
theorem AdminDelete.step_sound (cfg : Settings) {d : AdminDelete} (hd : d.Inv p db)
    {a : AdminDeleteAction} {o : Outcome AdminDelete} (h : d.step p db a = some o) :
    o.Sound cfg p db (AdminDelete.Inv p) := by
  cases AdminDelete.step_cases h with
  | lock now photo_id photo hrow hstatus hlock =>
    obtain rfl : photo.id = photo_id := key_of_row hrow
    exact ⟨trivial, fun q hq => .lockPhotos hq (by simpa using hlock),
      Locks.acquire_of_mem (List.mem_singleton_self _), hrow, hstatus⟩
  | missing => exact .pass trivial
  | commit now photo job_id hjob =>
    obtain ⟨hlock, hrow, hstatus⟩ := hd
    refine ⟨⟨List.nodup_singleton _, List.nodup_singleton _, fun x hx => ?_⟩,
      fun q hq => .release hq _, trivial⟩
    obtain rfl : x = (photo, job_id) := List.mem_singleton.1 hx
    exact ⟨hlock, hjob, photo, hrow, rfl, hstatus⟩
  | dbError => exact .release trivial
  | stop => exact .release trivial

/-- Each step of a report is sound. -/
theorem Report.step_sound (cfg : Settings) {r : Report} (hr : r.Inv p db) {a : ReportAction}
    {o : Outcome Report} (h : r.step p db a = some o) : o.Sound cfg p db (Report.Inv p) := by
  cases Report.step_cases h with
  | missing => exact .pass trivial
  | lock now photo_id reporter_ip_hash photo hrow hstatus hlock =>
    exact ⟨trivial, fun q hq => .lockPhotos hq (by simpa using hlock),
      Locks.acquire_of_mem (List.mem_singleton_self _), photo, hrow, hstatus⟩
  | duplicate => exact .release trivial
  | insert => exact .pass hr
  | commit => exact ⟨trivial, fun q hq => .release hq _, trivial⟩
  | dbError => exact .release trivial
  | stop => exact .release trivial

end AdminDelete

end CraneTracker.Pipeline
