import CraneTracker.Pipeline.Events

/-!
# One cleanup job per photo

Three functions queue a job for a photo. The reaper and the admin deletion read the row under a lock,
and find it not yet marked. An abandonment reads it without one, and by the time it writes another may
have marked the photo and queued its job. `oneJobPerKey_iff` proves that this is the only way to a
second job, and that it always leads to one.
-/

namespace CraneTracker.Pipeline

open Interleaving Table

/-- There is at most one `DELETE` job for each key. -/
def OneJobPerKey (s : Store) : Prop :=
  ∀ object_key, (s.jobs.filter fun job => job.operation = .delete ∧
    job.storage_key = object_key).length ≤ 1

/-- If the event `e` commits an abandonment, then the row of its photo is still pending. -/
def AbandonsPending (cfg : Settings) (c : State) (e : Event Action) : Prop :=
  ∀ now rows, writeOf cfg c e = .createDeleteCraneJobs .abandonCranePhotoUpload now rows →
    ∀ x ∈ rows, ∃ photo, c.shared.store.photo x.1.id = some photo ∧
      photo.status = .pendingUpload

/-- One job per key is uniqueness of the keys of the jobs. -/
theorem oneJobPerKey_iff_keyUnique {s : Store} :
    OneJobPerKey s ↔ KeyUnique OutboxJob.storage_key s.jobs := by
  have hcount : ∀ object_key, (s.jobs.filter fun job => job.operation = .delete ∧
      job.storage_key = object_key).length = (s.jobs.map OutboxJob.storage_key).count object_key := by
    intro object_key
    rw [← List.countP_eq_length_filter, List.count, List.countP_map]
    refine List.countP_congr fun job _ => ?_
    cases hop : job.operation
    simp
  unfold OneJobPerKey KeyUnique
  rw [List.nodup_iff_count_le_one]
  constructor
  · intro h object_key
    rw [← hcount]
    exact h object_key
  · intro h object_key
    rw [hcount]
    exact h object_key

section Cleanup

variable {cfg : Settings} {c c' : State} {e : Event Action}

/-- The photos that a commit of `create_delete_crane_job` marks have no job yet, if an abandonment
finds its photo pending. -/
theorem not_marked_of_marks {p : ℕ} {deleter : Deleter} {photo : CranePhoto} {s : Store}
    (hmarks : deleter.Marks p s photo)
    (hpending : deleter = .abandonCranePhotoUpload → photo.status = .pendingUpload) :
    photo.status ≠ .pendingDelete := by
  cases deleter with
  | abandonCranePhotoUpload =>
    rw [hpending rfl]
    simp
  | deleteCranePhoto =>
    have hstatus : photo.status = .active := hmarks
    rw [hstatus]
    simp
  | runReapCranePhotos =>
    have hstatus : photo.status = .pendingUpload := hmarks
    rw [hstatus]
    simp

/-- An event keeps the keys of the jobs unique, if it abandons only pending photos. -/
theorem keyUnique_jobs_next (hc : (pipeline cfg).Holds c) (h : (system cfg).next c e = some c')
    (hu : KeyUnique OutboxJob.storage_key c.shared.store.jobs) (ha : AbandonsPending cfg c e) :
    KeyUnique OutboxJob.storage_key c'.shared.store.jobs := by
  have hguard := guarded_writeOf hc h
  rw [store_next h]
  cases hw : writeOf cfg c e with
  | none | tick | createCrane | preuploadCranePhoto | finalizeCranePhoto | reportCranePhoto
  | putObject | deleteObject => exact hu
  | claimJobs => exact hu.updateWhere fun _ => rfl
  | captureFailure => exact hu.updateWhere fun _ => rfl
  | captureSuccess => exact hu.updateWhere fun _ => rfl
  | createDeleteCraneJobs deleter now rows =>
    rw [hw] at hguard
    obtain ⟨-, hids, hrows⟩ := hguard
    -- A marked photo is the row of its id, with the key of its job, and has no job yet.
    have hrow : ∀ x ∈ rows, ∃ photo, c.shared.store.photo x.1.id = some photo ∧
        photo.storage_key = x.1.storage_key ∧ photo.status ≠ .pendingDelete := by
      intro x hx
      obtain ⟨-, -, photo, hphoto, hkey, hmarks⟩ := hrows x hx
      refine ⟨photo, hphoto, hkey, not_marked_of_marks hmarks ?_⟩
      rintro rfl
      obtain ⟨photo', hphoto', hstatus⟩ := ha now rows hw x hx
      obtain rfl : photo = photo' := Option.some.inj (hphoto.symm.trans hphoto')
      exact hstatus
    refine hu.append ?_ ?_
    -- Distinct photos have distinct keys.
    · have hinj : ∀ x ∈ rows, ∀ y ∈ rows, x.1.storage_key = y.1.storage_key → x = y := by
        intro x hx y hy hxy
        obtain ⟨photo, hphoto, hkey, -⟩ := hrow x hx
        obtain ⟨photo', hphoto', hkey', -⟩ := hrow y hy
        have hkeys : photo.storage_key = photo'.storage_key :=
          calc photo.storage_key = x.1.storage_key := hkey
            _ = y.1.storage_key := hxy
            _ = photo'.storage_key := hkey'.symm
        have hid : x.1.id = y.1.id := hc.1.id_eq_of_key hphoto hphoto' hkeys
        exact List.inj_on_of_nodup_map hids hx hy hid
      have hmap := (List.Nodup.of_map _ hids).map_on hinj
      rw [KeyUnique, List.map_map]
      exact hmap
    · intro job hjob job' hjob' heq
      obtain ⟨x, hx, rfl⟩ := List.mem_map.1 hjob'
      obtain ⟨photo, hphoto, hkey, hstatus⟩ := hrow x hx
      exact hc.1.key_ne_of_status hphoto hstatus (hc.1.job_of_mem hjob) (hkey.trans heq.symm)

/-- An abandonment of a photo that is not pending queues a second job for its key. -/
theorem not_keyUnique_of_abandon (hc : (pipeline cfg).Holds c)
    (h : (system cfg).next c e = some c') (ha : ¬ AbandonsPending cfg c e) :
    ¬ KeyUnique OutboxJob.storage_key c'.shared.store.jobs := by
  intro hu
  apply ha
  intro now rows hw x hx
  have hguard := guarded_writeOf hc h
  rw [hw] at hguard
  obtain ⟨-, -, photo, hphoto, hkey, hmarks⟩ := hguard.2.2 x hx
  refine ⟨photo, hphoto, ?_⟩
  cases hstatus : photo.status with
  | pendingUpload => rfl
  | active => exact absurd hstatus hmarks.2
  | pendingDelete =>
    -- The photo is marked, so it has a job already.
    obtain ⟨j, job, hjob, hjkey, -⟩ := hc.1.photo_job hphoto hstatus
    rw [store_next h, hw, KeyUnique, Store.apply, List.map_append, List.nodup_append] at hu
    have hold : x.1.storage_key ∈ c.shared.store.jobs.map OutboxJob.storage_key :=
      List.mem_map.2 ⟨job, mem_of_row hjob, hjkey.trans hkey⟩
    have hnew : x.1.storage_key ∈ (rows.map fun x =>
        createTask now x.2 .delete x.1.storage_key).map OutboxJob.storage_key :=
      List.mem_map.2 ⟨_, List.mem_map.2 ⟨x, hx, rfl⟩, rfl⟩
    exact absurd rfl (hu.2.2 _ hold _ hnew)

end Cleanup

/-- Over a run, there is at most one `DELETE` job for each key in every state exactly when every
abandonment that commits finds the row of its photo still pending. -/
theorem oneJobPerKey_iff (cfg : Settings) (clock : Timestamp) (cranes : List Uuid)
    (es : List (Event Action)) :
    (∀ c, (system cfg).Visits (initial clock cranes) es c → OneJobPerKey c.shared.store) ↔
      ∀ c e c', (system cfg).Passes (initial clock cranes) es c e c' → AbandonsPending cfg c e := by
  have hinit := holds_initial cfg clock cranes
  simp only [oneJobPerKey_iff_keyUnique]
  constructor
  · intro hu c e c' hpass
    by_contra ha
    have hc := hinit.visits hpass.visits_left
    exact not_keyUnique_of_abandon hc hpass.next ha (hu c' hpass.visits)
  · intro ha c hv
    have hnone : KeyUnique OutboxJob.storage_key (initial clock cranes).shared.store.jobs :=
      List.nodup_nil
    exact hinit.visits_induction hnone
      (J := fun c => KeyUnique OutboxJob.storage_key c.shared.store.jobs)
      (fun c₁ e c₂ hpass hc₁ hu₁ => keyUnique_jobs_next hc₁ hpass.next hu₁ (ha c₁ e c₂ hpass)) hv

/-- The put of a request fails. The request reads the row of its photo, the reaper marks the photo and
queues the job 4, and the request queues the job 5. -/
theorem two_cleanup_jobs : ¬ ∀ cfg c, Reachable cfg c → OneJobPerKey c.shared.store := by
  intro hone
  have hrun : ((system {}).run (initial 0 [1]) (preuploadEvents 0 1 2 ++
      [⟨0, .upload (.put (.storageError "timeout" false))⟩, ⟨0, .upload .abandonSelect⟩,
        ⟨1, .startWorker⟩, ⟨3, .tick 5000001⟩] ++
      reapEvents 1 (jpegPhoto 0 1 2 .pendingUpload) 4 ++
      [⟨0, .upload .abandonFlush⟩, ⟨0, .upload (.abandonCommit 5)⟩])).map
      (fun c => c.shared.store.jobs.map OutboxJob.storage_key)
      = some [createStorageKey 1 2 ".jpg", createStorageKey 1 2 ".jpg"] := by decide +kernel
  obtain ⟨c, hc, hkeys⟩ := Option.map_eq_some_iff.1 hrun
  have hu := oneJobPerKey_iff_keyUnique.1 (hone {} c ⟨0, [1], _, hc⟩)
  rw [KeyUnique, hkeys] at hu
  simp at hu

end CraneTracker.Pipeline
