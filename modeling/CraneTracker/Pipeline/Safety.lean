import CraneTracker.Pipeline.Events

/-!
# What holds in every reachable state

The invariants of the committed state, in the terms of the tables: a published photo has its object,
a crane has at most three photos that count, and the photos and the jobs agree.
-/

namespace CraneTracker.Pipeline

open Interleaving

variable {cfg : Settings} {c : State}

/-- The object of every published photo is in storage. -/
theorem active_photo_stored (h : Reachable cfg c) : ∀ photo ∈ c.shared.store.photos,
    photo.status = .active → photo.storage_key ∈ c.shared.store.storage := by
  intro photo hphoto hstatus
  have hs := h.consistent
  exact hs.active_stored (hs.photo_of_mem hphoto) hstatus

/-- The run of one upload, which publishes its photo. -/
theorem active_photo_stored_upload :
    ∃ c, (system {}).run (initial 0 [1]) (preuploadEvents 0 1 2 ++ publishEvents 0) = some c ∧
      createStorageKey 1 2 ".jpg" ∈ c.shared.store.storage := by
  have hrun : ((system {}).run (initial 0 [1]) (preuploadEvents 0 1 2 ++ publishEvents 0)).map
      (fun c => c.shared.store.photos) = some [jpegPhoto 0 1 2 .active] := by decide +kernel
  obtain ⟨c, hc, hphotos⟩ := Option.map_eq_some_iff.1 hrun
  refine ⟨c, hc, ?_⟩
  have hreach : Reachable {} c := ⟨0, [1], _, hc⟩
  exact active_photo_stored hreach (jpegPhoto 0 1 2 .active) (by simp [hphotos]) rfl

/-- A crane has at most `MAX_PHOTOS_PER_CRANE` photos that are published or pending. -/
theorem photo_limit (h : Reachable cfg c) (crane_id : Uuid) :
    (c.shared.store.photos.filter fun photo => photo.crane_id = crane_id ∧
      (photo.status = .active ∨ photo.status = .pendingUpload)).length ≤ maxPhotosPerCrane := by
  have hcount := h.consistent.capacity crane_id
  unfold activePhotoCount CranePhoto.countsFor at hcount
  rw [List.countP_eq_length_filter] at hcount
  simpa [Bool.decide_and, Bool.decide_or] using hcount

/-- Three uploads to one crane: the limit is reached. -/
theorem photo_limit_reached :
    ∃ c, (system {}).run (initial 0 [1]) (preuploadEvents 0 1 2 ++ preuploadEvents 1 1 3 ++
      preuploadEvents 2 1 4) = some c ∧ c.shared.store.photos.length = 3 ∧
      (c.shared.store.photos.filter fun photo => photo.crane_id = 1 ∧
        (photo.status = .active ∨ photo.status = .pendingUpload)).length ≤ 3 := by
  have hrun : ((system {}).run (initial 0 [1]) (preuploadEvents 0 1 2 ++ preuploadEvents 1 1 3 ++
      preuploadEvents 2 1 4)).map (fun c => c.shared.store.photos.length) = some 3 := by decide +kernel
  obtain ⟨c, hc, hlength⟩ := Option.map_eq_some_iff.1 hrun
  have hreach : Reachable {} c := ⟨0, [1], _, hc⟩
  exact ⟨c, hc, hlength, photo_limit hreach 1⟩

/-- The photos and the jobs agree: a photo that is marked for deletion has a job that is not
completed, and a job has the key of no photo that is published or pending. -/
theorem outbox_consistency (h : Reachable cfg c) :
    (∀ photo ∈ c.shared.store.photos, photo.status = .pendingDelete →
      ∃ job ∈ c.shared.store.jobs, job.storage_key = photo.storage_key ∧
        job.status ≠ .completed) ∧
    ∀ job ∈ c.shared.store.jobs, ∀ photo ∈ c.shared.store.photos,
      photo.status = .active ∨ photo.status = .pendingUpload →
        job.storage_key ≠ photo.storage_key := by
  have hs := h.consistent
  constructor
  · intro photo hphoto hstatus
    obtain ⟨j, job, hjob, hkey, hne⟩ := hs.photo_job (hs.photo_of_mem hphoto) hstatus
    exact ⟨job, Table.mem_of_row hjob, hkey, hne⟩
  · intro job hjob photo hphoto hstatus hkey
    have hmarked := hs.job_photo (hs.job_of_mem hjob) (hs.photo_of_mem hphoto) hkey.symm
    rw [hmarked] at hstatus
    simp at hstatus

/-- One photo is published, then deleted by an admin, and another is pending. -/
theorem outbox_consistency_adminDelete :
    ∃ c, (system {}).run (initial 0 [1]) (preuploadEvents 0 1 2 ++ publishEvents 0 ++
      preuploadEvents 1 1 3 ++ [⟨2, .startAdminDelete 1 2⟩, ⟨2, .adminDelete .lock⟩,
        ⟨2, .adminDelete (.commit 4)⟩]) = some c ∧
      (∃ job ∈ c.shared.store.jobs, job.storage_key = createStorageKey 1 2 ".jpg" ∧
        job.status ≠ .completed) ∧
      ∀ job ∈ c.shared.store.jobs, job.storage_key ≠ createStorageKey 1 3 ".jpg" := by
  have hrun : ((system {}).run (initial 0 [1]) (preuploadEvents 0 1 2 ++ publishEvents 0 ++
      preuploadEvents 1 1 3 ++ [⟨2, .startAdminDelete 1 2⟩, ⟨2, .adminDelete .lock⟩,
        ⟨2, .adminDelete (.commit 4)⟩])).map (fun c => c.shared.store.photos)
      = some [jpegPhoto 0 1 2 .pendingDelete, jpegPhoto 0 1 3 .pendingUpload] := by decide +kernel
  obtain ⟨c, hc, hphotos⟩ := Option.map_eq_some_iff.1 hrun
  have hreach : Reachable {} c := ⟨0, [1], _, hc⟩
  obtain ⟨hmarked, hpending⟩ := outbox_consistency hreach
  refine ⟨c, hc, hmarked (jpegPhoto 0 1 2 .pendingDelete) (by simp [hphotos]) rfl, ?_⟩
  intro job hjob
  exact hpending job hjob (jpegPhoto 0 1 3 .pendingUpload) (by simp [hphotos]) (Or.inr rfl)

end CraneTracker.Pipeline
