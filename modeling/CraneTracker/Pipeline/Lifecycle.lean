import CraneTracker.Pipeline.Events
import CraneTracker.Pipeline.Safety

/-!
# The life of a photo

A photo id goes through the stages `unborn`, `pendingUpload`, `active`, `pendingDelete`, and
`removed`, in this order, possibly without `active`. `Stage.Step` lists the steps, and
`stage_step` proves that an event makes at most one of them. So the history of a photo over a run is
a path of them.

Three of the steps have an author and a past. `PutSucceeded` and `DeleteReturned` speak of the events
of the run so far, and `putSucceeded_of_hasPut` and `deleteReturned_of_hasDeleted` tie them to the
local states of the parties.
-/

namespace CraneTracker.Pipeline

open Interleaving Table

/-- The stages of a photo id. -/
inductive Stage
  | unborn
  | pendingUpload
  | active
  | pendingDelete
  | removed
deriving DecidableEq, Repr

/-- The stage of a row with the given status. -/
def CranePhotoStatus.stage : CranePhotoStatus → Stage
  | .active => .active
  | .pendingUpload => .pendingUpload
  | .pendingDelete => .pendingDelete

/-- The stage of the photo `i`. -/
def Store.stage (s : Store) (i : Uuid) : Stage :=
  match s.photo i with
  | some photo => CranePhotoStatus.stage photo.status
  | none => if (s.issued i).isSome then .removed else .unborn

/-- The steps of a photo's life. -/
inductive Stage.Step : Stage → Stage → Prop
  | preupload : Step .unborn .pendingUpload
  | finalize : Step .pendingUpload .active
  | abandon : Step .pendingUpload .pendingDelete
  | delete : Step .active .pendingDelete
  | remove : Step .pendingDelete .removed

section Stage

variable {cfg : Settings} {c c' : State} {e : Event Action}

/-- The stage of a photo that has a row. -/
theorem Store.stage_of_row {s : Store} {i : Uuid} {photo : CranePhoto}
    (h : s.photo i = some photo) : s.stage i = CranePhotoStatus.stage photo.status := by
  rw [Store.stage, h]

/-- A photo whose row neither comes nor goes keeps its issuer. -/
theorem issued_apply_of_none {p : ℕ} {s : Store} {w : Write} {i : Uuid} (hold : s.photo i = none)
    (hnew : (s.apply cfg p w).photo i = none) : (s.apply cfg p w).issued i = s.issued i := by
  cases w with
  | preuploadCranePhoto photo =>
    by_cases hid : photo.id = i
    · rw [Store.photo_preuploadCranePhoto, hold, if_pos hid] at hnew
      cases hnew
    · exact if_neg (Ne.symm hid)
  | none | tick | createCrane | finalizeCranePhoto | createDeleteCraneJobs | claimJobs
  | captureFailure | captureSuccess | reportCranePhoto | putObject | deleteObject => rfl

/-- An event makes at most one step of a photo's life. -/
theorem stage_step (hc : (pipeline cfg).Holds c) (h : (system cfg).next c e = some c')
    (i : Uuid) : c.shared.store.stage i = c'.shared.store.stage i ∨
      Stage.Step (c.shared.store.stage i) (c'.shared.store.stage i) := by
  have hguard := guarded_writeOf hc h
  have hstep := photo_next hc h i
  generalize hold : c.shared.store.photo i = r at hstep
  generalize hnew : c'.shared.store.photo i = r' at hstep
  cases hstep with
  | same =>
    left
    cases r with
    | some photo => rw [Store.stage_of_row hold, Store.stage_of_row hnew]
    | none =>
      have hnew' := hnew
      rw [store_next h] at hnew'
      have hissued := issued_apply_of_none hold hnew'
      rw [← store_next h] at hissued
      rw [Store.stage, Store.stage, hold, hnew, hissued]
  | inserted photo hw hid hissued hstatus =>
    right
    rw [Store.stage_of_row hnew, hstatus, Store.stage, hold, hissued]
    exact .preupload
  | finalized photo hw hlock hown hstatus =>
    right
    rw [Store.stage_of_row hold, Store.stage_of_row hnew, hstatus]
    exact .finalize
  -- A photo that is marked a second time stays where it is.
  | marked photo deleter now rows hw hrow hlock hmarks =>
    rw [Store.stage_of_row hold, Store.stage_of_row hnew]
    cases hstatus : photo.status with
    | active => exact Or.inr .delete
    | pendingUpload => exact Or.inr .abandon
    | pendingDelete => exact Or.inl rfl
  | removed photo now read photo_ids hw hlock hkey =>
    right
    rw [hw] at hguard
    obtain ⟨-, ⟨job, hjob, hjkey⟩, -⟩ := hguard
    -- The job has the key of the photo, so the photo is marked.
    have hstatus := hc.1.job_photo hjob hold (hkey.trans hjkey.symm)
    have hissued : (c'.shared.store.issued i).isSome = true := by
      rw [store_next h]
      exact Store.Consistent.isSome_issued_apply (guarded_writeOf hc h) (hc.1.photo_key hold).1
    rw [Store.stage_of_row hold, Store.stage, hnew, hstatus, hissued]
    exact .remove

/-- The history of a photo over a run is a path of the steps. -/
theorem isChain_stage (hc : (pipeline cfg).Holds c) (es : List (Event Action)) (i : Uuid) :
    (((system cfg).states c es).map fun c => c.shared.store.stage i).IsChain
      fun a b => a = b ∨ Stage.Step a b := by
  rw [List.isChain_map]
  exact System.isChain_states (fun c e c' hc h => ⟨hc.next h, stage_step hc h i⟩) hc es

end Stage

/-! ## Authors and pasts -/

/-- In the run `es` from `c₀`, a call of `upload_photo` by the request `p`, for the photo `i`, has
returned. -/
def PutSucceeded (cfg : Settings) (c₀ : State) (es : List (Event Action)) (p : ℕ) (i : Uuid) :
    Prop :=
  ∃ c c' photo, (system cfg).Passes c₀ es c ⟨p, .upload (.put .stored)⟩ c' ∧
    c.procs p = .upload (.put photo) ∧ photo.id = i

/-- In the run `es` from `c₀`, a call of `delete_photo` for the key `object_key` has returned. -/
def DeleteReturned (cfg : Settings) (c₀ : State) (es : List (Event Action)) (object_key : String) :
    Prop :=
  ∃ c c' p job rest, (system cfg).Passes c₀ es c ⟨p, .worker (.delete .deleted)⟩ c' ∧
    c.procs p = .worker (.delete job rest) ∧ job.storage_key = object_key

section Past

variable {cfg : Settings} {c₀ c c' : State} {es : List (Event Action)} {e : Event Action}

/-- What has returned in a run has returned in its continuations. -/
theorem PutSucceeded.append {p : ℕ} {i : Uuid} (h : PutSucceeded cfg c₀ es p i)
    (es' : List (Event Action)) : PutSucceeded cfg c₀ (es ++ es') p i := by
  obtain ⟨c, c', photo, hpass, hproc, hid⟩ := h
  exact ⟨c, c', photo, hpass.append es', hproc, hid⟩

/-- What has returned in a run has returned in its continuations. -/
theorem DeleteReturned.append {object_key : String} (h : DeleteReturned cfg c₀ es object_key)
    (es' : List (Event Action)) : DeleteReturned cfg c₀ (es ++ es') object_key := by
  obtain ⟨c, c', p, job, rest, hpass, hproc, hkey⟩ := h
  exact ⟨c, c', p, job, rest, hpass.append es', hproc, hkey⟩

/-- A request whose object is in storage has put it there. -/
theorem putSucceeded_of_hasPut (hinit : ∀ p, c₀.procs p = .free)
    (h : (system cfg).run c₀ es = some c) :
    ∀ p photo, (c.procs p).hasPut = some photo → PutSucceeded cfg c₀ es p photo.id := by
  refine System.run_induction (I := fun es c => ∀ p photo, (c.procs p).hasPut = some photo →
    PutSucceeded cfg c₀ es p photo.id) ?_ ?_ h
  · intro p photo hput
    rw [hinit p] at hput
    cases hput
  -- Only the process that moves can get to where its object is in storage.
  · rintro es c ⟨q, a⟩ c' hrun hnext ih p photo hput
    by_cases hp : p = q
    · subst hp
      obtain ⟨o, ho, hproc', -⟩ := outcome_next hnext
      rw [hproc'] at hput
      rcases Proc.hasPut_step ho hput with hold | ⟨hproc, hact⟩
      · exact (ih _ photo hold).append _
      · obtain rfl : a = .upload (.put .stored) := hact
        exact ⟨c, c', photo, .last hrun hnext, hproc, rfl⟩
    · rw [System.procs_next_of_ne hnext hp] at hput
      exact (ih p photo hput).append _

/-- A worker that is about to record a deletion has made it. -/
theorem deleteReturned_of_hasDeleted (hc₀ : (pipeline cfg).Holds c₀)
    (hinit : ∀ p, c₀.procs p = .free) (h : (system cfg).run c₀ es = some c) :
    ∀ p object_key, (c.procs p).hasDeleted = some object_key →
      DeleteReturned cfg c₀ es object_key := by
  refine System.run_induction (I := fun es c => ∀ p object_key,
    (c.procs p).hasDeleted = some object_key → DeleteReturned cfg c₀ es object_key) ?_ ?_ h
  · intro p object_key hdel
    rw [hinit p] at hdel
    cases hdel
  -- Only the process that moves can get to where its object is deleted.
  · rintro es c ⟨q, a⟩ c' hrun hnext ih p object_key hdel
    by_cases hp : p = q
    · subst hp
      obtain ⟨o, ho, hproc', -⟩ := outcome_next hnext
      rw [hproc'] at hdel
      have hinv := (hc₀.run hrun).2 p
      rcases Proc.hasDeleted_step hinv ho hdel with hold | ⟨job, rest, hproc, hact, hkey⟩
      · exact (ih _ object_key hold).append _
      · obtain rfl : a = .worker (.delete .deleted) := hact
        exact ⟨c, c', p, job, rest, .last hrun hnext, hproc, hkey⟩
    · rw [System.procs_next_of_ne hnext hp] at hdel
      exact (ih p object_key hdel).append _

end Past

section Author

variable {cfg : Settings} {c c' : State} {e : Event Action} {i : Uuid}

/-- A photo in a stage of a status has a row with the status. -/
theorem Store.row_of_stage {s : Store} {status : CranePhotoStatus}
    (h : s.stage i = CranePhotoStatus.stage status) :
    ∃ photo, s.photo i = some photo ∧ photo.status = status := by
  unfold Store.stage at h
  split at h
  · rename_i photo hrow
    refine ⟨photo, hrow, ?_⟩
    cases hstatus : photo.status <;> cases status <;> simp_all [CranePhotoStatus.stage]
  · split_ifs at h <;> cases status <;> cases h

/-- A photo becomes published by the commit of its own request's finalization. -/
theorem author_of_finalize (hc : (pipeline cfg).Holds c) (h : (system cfg).next c e = some c')
    (hold : c.shared.store.stage i ≠ .active) (hnew : c'.shared.store.stage i = .active) :
    e.act = .upload .finalizeCommit ∧ c.shared.store.issued i = some e.pid ∧
      ∃ photo, (c.procs e.pid).hasPut = some photo ∧ photo.id = i := by
  have hnew' : c'.shared.store.stage i = CranePhotoStatus.stage .active := hnew
  obtain ⟨photo', hrow', hstatus'⟩ := Store.row_of_stage hnew'
  have horigin := writeOf_origin h
  have hstep := photo_next hc h i
  rw [hrow'] at hstep
  generalize hrow : c.shared.store.photo i = r at hstep
  cases hstep with
  | same => exact absurd ((Store.stage_of_row hrow).trans (by rw [hstatus']; rfl)) hold
  | inserted _ _ _ _ hstatus => exact absurd (hstatus'.symm.trans hstatus) (by simp)
  | finalized photo hw _ hown =>
    rw [hw] at horigin
    obtain ⟨photo₀, hproc, hact, hid⟩ := horigin
    exact ⟨hact, hown, photo₀, by rw [hproc]; rfl, hid⟩
  | marked => exact absurd hstatus' (by simp [markPendingDelete])

/-- A published photo is marked for deletion by the commit of an admin deletion. -/
theorem author_of_delete (hc : (pipeline cfg).Holds c) (h : (system cfg).next c e = some c')
    (hold : c.shared.store.stage i = .active) (hnew : c'.shared.store.stage i ≠ .active) :
    ∃ job_id, e.act = .adminDelete (.commit job_id) := by
  have hold' : c.shared.store.stage i = CranePhotoStatus.stage .active := hold
  obtain ⟨photo, hrow, hstatus⟩ := Store.row_of_stage hold'
  have horigin := writeOf_origin h
  have hguard := guarded_writeOf hc h
  have hstep := photo_next hc h i
  rw [hrow] at hstep
  generalize hrow' : c'.shared.store.photo i = r at hstep
  cases hstep with
  | same => exact absurd ((Store.stage_of_row hrow').trans (by rw [hstatus]; rfl)) hnew
  | finalized _ _ _ _ hpending => exact absurd (hstatus.symm.trans hpending) (by simp)
  | marked _ deleter now rows hw _ _ hmarks =>
    cases deleter with
    -- An abandonment and the reaper mark only what is not published.
    | abandonCranePhotoUpload => exact absurd hstatus hmarks.2
    | deleteCranePhoto =>
      rw [hw] at horigin
      obtain ⟨_, job_id, -, hact, -⟩ := horigin
      exact ⟨job_id, hact⟩
    | runReapCranePhotos => exact absurd (hstatus.symm.trans hmarks) (by simp)
  | removed _ _ _ _ hw _ hkey =>
    rw [hw] at hguard
    obtain ⟨-, ⟨job, hjob, hjkey⟩, -⟩ := hguard
    have hmarked := hc.1.job_photo hjob hrow (hkey.trans hjkey.symm)
    exact absurd (hstatus.symm.trans hmarked) (by simp)

/-- A photo's row is removed by a worker that has deleted its object. -/
theorem author_of_remove (hc : (pipeline cfg).Holds c) (h : (system cfg).next c e = some c')
    {photo : CranePhoto} (hold : c.shared.store.photo i = some photo)
    (hnew : c'.shared.store.photo i = none) :
    (c.procs e.pid).hasDeleted = some photo.storage_key := by
  have horigin := writeOf_origin h
  have hstep := photo_next hc h i
  rw [hold, hnew] at hstep
  cases hstep with
  | removed _ now read photo_ids hw _ hkey =>
    rw [hw] at horigin
    obtain ⟨rest, hproc, -⟩ := horigin
    rw [hproc, hkey]
    rfl

end Author

/-- The life of a photo. Over every run, its history is a path of the steps. In every run that ends in
`c` and can go on by `e`, if `e` publishes it then `e` is the finalization of the request that
inserted it, whose put has returned. If `e` takes it out of `active` then `e` commits an admin
deletion. If `e` removes its row, then a call of `delete_photo` for its key has returned. -/
theorem photo_lifecycle (cfg : Settings) (clock : Timestamp) (cranes : List Uuid) (i : Uuid) :
    (initial clock cranes).shared.store.stage i = .unborn ∧
    (∀ es, (((system cfg).states (initial clock cranes) es).map
      fun c => c.shared.store.stage i).IsChain fun a b => a = b ∨ Stage.Step a b) ∧
    ∀ es c e c', (system cfg).run (initial clock cranes) es = some c →
      (system cfg).next c e = some c' →
      (c.shared.store.stage i ≠ .active → c'.shared.store.stage i = .active →
        e.act = .upload .finalizeCommit ∧ c.shared.store.issued i = some e.pid ∧
          PutSucceeded cfg (initial clock cranes) es e.pid i) ∧
      (c.shared.store.stage i = .active → c'.shared.store.stage i ≠ .active →
        ∃ job_id, e.act = .adminDelete (.commit job_id)) ∧
      (∀ photo, c.shared.store.photo i = some photo → c'.shared.store.photo i = none →
        DeleteReturned cfg (initial clock cranes) es photo.storage_key) := by
  have hinit := holds_initial cfg clock cranes
  refine ⟨rfl, fun es => isChain_stage hinit es i, fun es c e c' hrun hnext => ?_⟩
  have hc := hinit.run hrun
  refine ⟨fun hold hnew => ?_, author_of_delete hc hnext, fun photo hold hnew => ?_⟩
  · obtain ⟨hact, hown, photo, hput, rfl⟩ := author_of_finalize hc hnext hold hnew
    exact ⟨hact, hown, putSucceeded_of_hasPut (fun _ => rfl) hrun e.pid photo hput⟩
  · exact deleteReturned_of_hasDeleted hinit (fun _ => rfl) hrun e.pid _
      (author_of_remove hc hnext hold hnew)

/-- An upload that publishes its photo, an admin deletion, and a worker that removes the row: each of
the three steps has its past. -/
theorem photo_lifecycle_removed :
    PutSucceeded {} (initial 0 [1]) (preuploadEvents 0 1 2 ++
      [⟨0, .upload (.put .stored)⟩, ⟨0, .upload .finalize⟩]) 0 2 ∧
    DeleteReturned {} (initial 0 [1]) (abandonedRun ++ claimEvents 1 abandonedJob ++
      [⟨1, .worker (.delete .deleted)⟩, ⟨1, .worker (.captureSelect 0)⟩,
        ⟨1, .worker .captureFlush⟩, ⟨1, .worker .deletePhotos⟩]) (createStorageKey 1 2 ".jpg") := by
  constructor
  · have hrun : ((system {}).run (initial 0 [1]) (preuploadEvents 0 1 2 ++
        [⟨0, .upload (.put .stored)⟩, ⟨0, .upload .finalize⟩])).bind (fun c =>
        ((system {}).next c ⟨0, .upload .finalizeCommit⟩).map fun c' =>
          (c.shared.store.stage 2, c'.shared.store.stage 2)) = some (.pendingUpload, .active) := by
      decide +kernel
    obtain ⟨c, hc, hnext⟩ := Option.bind_eq_some_iff.1 hrun
    obtain ⟨c', hc', hstages⟩ := Option.map_eq_some_iff.1 hnext
    obtain ⟨hold, hnew⟩ := Prod.mk.inj hstages
    exact (((photo_lifecycle {} 0 [1] 2).2.2 _ c _ c' hc hc').1 (by rw [hold]; simp) hnew).2.2
  · have hrun : ((system {}).run (initial 0 [1]) (abandonedRun ++ claimEvents 1 abandonedJob ++
        [⟨1, .worker (.delete .deleted)⟩, ⟨1, .worker (.captureSelect 0)⟩,
          ⟨1, .worker .captureFlush⟩, ⟨1, .worker .deletePhotos⟩])).bind (fun c =>
        ((system {}).next c ⟨1, .worker .captureCommit⟩).map fun c' =>
          (c.shared.store.photo 2, c'.shared.store.photo 2))
        = some (some (jpegPhoto 0 1 2 .pendingDelete), none) := by decide +kernel
    obtain ⟨c, hc, hnext⟩ := Option.bind_eq_some_iff.1 hrun
    obtain ⟨c', hc', hrows⟩ := Option.map_eq_some_iff.1 hnext
    obtain ⟨hold, hnew⟩ := Prod.mk.inj hrows
    exact ((photo_lifecycle {} 0 [1] 2).2.2 _ c _ c' hc hc').2.2 _ hold hnew

end CraneTracker.Pipeline
