import CraneTracker.Cranes.Listing
import CraneTracker.Pipeline.System

/-!
# The deletion of a crane

`delete_crane` of `app/services/crane.py`, on the store of the photo pipeline. The function deletes the
objects of the crane's photos one by one, in its own transaction, and then the rows. When it raises, the
rows stay and the objects that are gone stay gone. The other deletions of the program mark the rows in
the transaction and leave the objects to the worker.

A deletion that returns leaves nothing of the crane (`removed_of_returns`). `failed_deletion_iff` says when
one that raises costs no active photo its object.
-/

namespace CraneTracker.Cranes

open Pipeline Table

/-- What a call of `delete_crane` meets: whether its query fails, how the calls of `delete_photo` end, and
whether the flush fails. -/
structure DeletionWorld where
  queryError : Bool
  result : Uuid → DeleteResult
  flushError : Bool

/-- What `delete_crane` raises. -/
inductive DeletionError
  | app (e : AppError)
  | sqlAlchemyError

/-- The loop over the photos: the storage that it leaves, and the error at which it stopped. -/
def deletePhotos (result : Uuid → DeleteResult) :
    List CranePhoto → Finset String → Finset String × Option String
  | [], storage => (storage, none)
  | photo :: photos, storage =>
    match result photo.id with
    | .deleted => deletePhotos result photos (storage.erase photo.storage_key)
    | .error err_str effect =>
      (if effect then storage.erase photo.storage_key else storage, some err_str)

/-- The photos of a crane, in the order of the loop. -/
def craneRecords (s : Store) (id : Uuid) : List CranePhoto := photoRecords (fun _ => true) s.photos id

/-- `session.delete(crane)`: the crane goes, with its photos and their reports. -/
def removeCrane (s : Store) (id : Uuid) : Store :=
  { s with
    cranes := s.cranes.filter (· ≠ id)
    photos := deleteWhere (fun photo => photo.crane_id = id) s.photos
    reports := deleteWhere (fun report => (craneRecords s id).any (·.id = report.photo_id))
      s.reports }

/-- `delete_crane`. When it raises, its caller rolls the rows back. -/
def deleteCrane (w : DeletionWorld) (s : Store) (id : Uuid) : Store × Except DeletionError Unit :=
  if w.queryError then (s, .error .sqlAlchemyError)
  else if s.hasCrane id = false then (s, .error (.app (.resourceNotFound "crane" id)))
  else
    match deletePhotos w.result (craneRecords s id) s.storage with
    | (storage, some err_str) => ({ s with storage }, .error (.app (.photoStorage err_str)))
    | (storage, none) =>
      if w.flushError then ({ s with storage }, .error .sqlAlchemyError)
      else (removeCrane { s with storage } id, .ok ())

/-! ## The loop -/

/-- The call deletes the object, whether it returns or raises. -/
def TakesEffect : DeleteResult → Prop
  | .deleted => True
  | .error _ effect => effect = true

/-- The loop over `photos` deletes the object of `photo`: it comes so far, and the call takes effect. -/
def Erases (result : Uuid → DeleteResult) (photos : List CranePhoto) (photo : CranePhoto) : Prop :=
  ∃ before after, photos = before ++ photo :: after ∧ (∀ p ∈ before, result p.id = .deleted) ∧
    TakesEffect (result photo.id)

variable {result : Uuid → DeleteResult} {photo p : CranePhoto} {photos : List CranePhoto}
  {storage : Finset String} {key : String}

/-- The loop deletes the objects of its photos. -/
theorem Erases.mem (h : Erases result photos photo) : photo ∈ photos := by
  obtain ⟨before, after, rfl, -, -⟩ := h
  exact List.mem_append_right _ List.mem_cons_self

/-- It is the first photo, or the first call returns and the rest of the loop does it. -/
theorem erases_cons : Erases result (p :: photos) photo ↔
    photo = p ∧ TakesEffect (result p.id) ∨ result p.id = .deleted ∧ Erases result photos photo := by
  constructor
  · rintro ⟨before, after, hphotos, hbefore, heffect⟩
    cases before with
    | nil =>
      obtain ⟨rfl, rfl⟩ := List.cons.inj hphotos
      exact .inl ⟨rfl, heffect⟩
    | cons q before =>
      obtain ⟨rfl, rfl⟩ := List.cons.inj hphotos
      rw [List.forall_mem_cons] at hbefore
      exact .inr ⟨hbefore.1, before, after, rfl, hbefore.2, heffect⟩
  · rintro (⟨rfl, heffect⟩ | ⟨hp, before, after, rfl, hbefore, heffect⟩)
    · exact ⟨[], photos, rfl, by simp, heffect⟩
    · exact ⟨p :: before, after, rfl, List.forall_mem_cons.2 ⟨hp, hbefore⟩, heffect⟩

/-- An object is in storage after the loop if and only if it was there and the loop does not delete it. -/
theorem mem_deletePhotos : key ∈ (deletePhotos result photos storage).1 ↔
    key ∈ storage ∧ ∀ photo, Erases result photos photo → photo.storage_key ≠ key := by
  induction photos generalizing storage with
  | nil => simp [deletePhotos, Erases]
  | cons p photos ih =>
    simp only [erases_cons]
    rw [deletePhotos]
    cases hp : result p.id with
    | deleted =>
      dsimp only
      rw [ih, Finset.mem_erase]
      constructor
      · rintro ⟨⟨hne, hmem⟩, hrest⟩
        refine ⟨hmem, ?_⟩
        rintro photo (⟨rfl, -⟩ | ⟨-, hphoto⟩)
        · exact hne.symm
        · exact hrest photo hphoto
      · rintro ⟨hmem, hall⟩
        exact ⟨⟨(hall p (.inl ⟨rfl, trivial⟩)).symm, hmem⟩,
          fun photo hphoto => hall photo (.inr ⟨rfl, hphoto⟩)⟩
    | error err_str effect =>
      cases effect with
      | true => simp [TakesEffect, eq_comm, and_comm]
      | false => simp [TakesEffect]

/-- The loop raises unless every call returns. -/
theorem error_deletePhotos :
    (deletePhotos result photos storage).2 = none ↔ ∀ photo ∈ photos, result photo.id = .deleted := by
  induction photos generalizing storage with
  | nil => simp [deletePhotos]
  | cons p photos ih =>
    rw [deletePhotos, List.forall_mem_cons]
    cases hp : result p.id with
    | deleted => simpa using ih
    | error err_str effect => simp

/-! ## Failed deletions -/

variable {w : DeletionWorld} {s : Store} {id : Uuid}

theorem mem_craneRecords : photo ∈ craneRecords s id ↔ photo ∈ s.photos ∧ photo.crane_id = id := by
  rw [craneRecords, (perm_photoRecords _ _ _).mem_iff]
  simp

/-- The loop runs. -/
def Reaches (w : DeletionWorld) (s : Store) (id : Uuid) : Prop := w.queryError = false ∧ id ∈ s.cranes

/-- Nothing fails on the way. -/
def Succeeds (w : DeletionWorld) (s : Store) (id : Uuid) : Prop :=
  (∀ photo ∈ craneRecords s id, w.result photo.id = .deleted) ∧ w.flushError = false

/-- The state that a deletion leaves that comes to the loop and raises. -/
def afterLoop (w : DeletionWorld) (s : Store) (id : Uuid) : Store :=
  { s with storage := (deletePhotos w.result (craneRecords s id) s.storage).1 }

/-- How a deletion ends: it raises before the loop, it raises in the loop or at the flush, or it removes
the crane. -/
theorem deleteCrane_cases (w : DeletionWorld) (s : Store) (id : Uuid) :
    (¬ Reaches w s id ∧ ∃ e, deleteCrane w s id = (s, .error e)) ∨
      (Reaches w s id ∧ ¬ Succeeds w s id ∧ ∃ e, deleteCrane w s id = (afterLoop w s id, .error e)) ∨
        Reaches w s id ∧ Succeeds w s id ∧
          deleteCrane w s id = (removeCrane (afterLoop w s id) id, .ok ()) := by
  rw [deleteCrane]
  cases hquery : w.queryError with
  | true => exact .inl ⟨fun h => by simp [Reaches, hquery] at h, _, rfl⟩
  | false =>
    by_cases hcrane : id ∈ s.cranes
    · have hreaches : Reaches w s id := ⟨hquery, hcrane⟩
      have herror : (deletePhotos w.result (craneRecords s id) s.storage).2 = none ↔
          ∀ photo ∈ craneRecords s id, w.result photo.id = .deleted := error_deletePhotos
      rw [if_neg Bool.false_ne_true, if_neg (by simpa [Store.hasCrane] using hcrane), afterLoop,
        Succeeds, ← herror]
      rcases deletePhotos w.result (craneRecords s id) s.storage with ⟨storage, _ | err_str⟩
      · cases hflush : w.flushError with
        | true => exact .inr (.inl ⟨hreaches, fun h => by simpa using h.2, _, rfl⟩)
        | false => exact .inr (.inr ⟨hreaches, ⟨rfl, rfl⟩, rfl⟩)
      · exact .inr (.inl ⟨hreaches, fun h => by simpa using h.1, _, rfl⟩)
    · rw [if_neg Bool.false_ne_true, if_pos (by simpa [Store.hasCrane] using hcrane)]
      exact .inl ⟨fun h => hcrane h.2, _, rfl⟩

/-- A deletion that raises leaves the rows. -/
theorem rows_of_raises {e : DeletionError} (h : (deleteCrane w s id).2 = .error e) :
    (deleteCrane w s id).1 = { s with storage := (deleteCrane w s id).1.storage } := by
  rcases deleteCrane_cases w s id with ⟨-, e, heq⟩ | ⟨-, -, e, heq⟩ | ⟨-, -, heq⟩
  · rw [heq]
  · rw [heq]
    rfl
  · rw [heq] at h
    cases h

/-- A deletion that returns leaves nothing of the crane: not its row, no photo, and no object. -/
theorem removed_of_returns (h : (deleteCrane w s id).2 = .ok ()) :
    id ∉ (deleteCrane w s id).1.cranes ∧
      (∀ photo ∈ (deleteCrane w s id).1.photos, photo.crane_id ≠ id) ∧
        ∀ photo ∈ s.photos, photo.crane_id = id →
          photo.storage_key ∉ (deleteCrane w s id).1.storage := by
  rcases deleteCrane_cases w s id with ⟨-, e, heq⟩ | ⟨-, -, e, heq⟩ | ⟨-, hsucceeds, heq⟩
  · rw [heq] at h
    cases h
  · rw [heq] at h
    cases h
  · rw [heq]
    refine ⟨by simp [removeCrane], fun photo hphoto => ?_, fun photo hphoto hcrane hmem => ?_⟩
    · simpa using (mem_deleteWhere.1 hphoto).2
    · -- Every call returned, so the loop came to the photo.
      have hrecord := mem_craneRecords.2 ⟨hphoto, hcrane⟩
      obtain ⟨before, after, hrecords⟩ := List.append_of_mem hrecord
      have heffect : TakesEffect (w.result photo.id) := by
        rw [hsucceeds.1 photo hrecord]
        trivial
      have herases : Erases w.result (craneRecords s id) photo :=
        ⟨before, after, hrecords, fun p hp => hsucceeds.1 p (hrecords ▸ List.mem_append_left _ hp),
          heffect⟩
      exact (mem_deletePhotos.1 hmem).2 photo herases rfl

/-- Every active photo of the crane that has its object in storage has it there afterwards. -/
def ActivePhotosKept (s s' : Store) (id : Uuid) : Prop :=
  ∀ photo ∈ s.photos, photo.crane_id = id → photo.status = .active →
    photo.storage_key ∈ s.storage → photo.storage_key ∈ s'.storage

/-- Every photo whose object the loop deletes is not active, or has no object. -/
def SparesActive (w : DeletionWorld) (s : Store) (id : Uuid) : Prop :=
  ∀ photo, Erases w.result (craneRecords s id) photo → photo.status = .active →
    photo.storage_key ∉ s.storage

/-- The loop keeps the objects of the active photos if and only if it spares them. -/
theorem activePhotosKept_afterLoop (hkeys : KeyUnique CranePhoto.storage_key s.photos) :
    ActivePhotosKept s (afterLoop w s id) id ↔ SparesActive w s id := by
  constructor
  · intro hkept photo hphoto hactive hmem
    obtain ⟨hrow, hcrane⟩ := mem_craneRecords.1 hphoto.mem
    have hafter := mem_deletePhotos.1 (hkept photo hrow hcrane hactive hmem)
    exact hafter.2 photo hphoto rfl
  · intro hspares photo hphoto hcrane hactive hmem
    refine mem_deletePhotos.2 ⟨hmem, fun p hp hkey => ?_⟩
    -- The key is unique, so the deleted object is that of the photo itself.
    have hrow := (mem_craneRecords.1 hp.mem).1
    obtain rfl := List.inj_on_of_nodup_map hkeys hrow hphoto hkey
    exact hspares p hp hactive hmem

/-- A deletion that raises keeps the objects of the crane's active photos if and only if it raises before
the loop, or the loop spares them. -/
theorem failed_deletion_iff (hkeys : KeyUnique CranePhoto.storage_key s.photos) :
    ((∃ e, (deleteCrane w s id).2 = .error e) → ActivePhotosKept s (deleteCrane w s id).1 id) ↔
      ¬ Reaches w s id ∨ Succeeds w s id ∨ SparesActive w s id := by
  rcases deleteCrane_cases w s id with
    ⟨hreaches, e, heq⟩ | ⟨hreaches, hfails, e, heq⟩ | ⟨hreaches, hsucceeds, heq⟩
  · rw [heq]
    exact ⟨fun _ => .inl hreaches, fun _ _ _ _ _ _ hmem => hmem⟩
  · rw [heq, ← activePhotosKept_afterLoop hkeys]
    constructor
    · exact fun hkept => .inr (.inr (hkept ⟨e, rfl⟩))
    · rintro (hnot | hsucceeds | hkept) -
      · exact absurd hreaches hnot
      · exact absurd hsucceeds hfails
      · exact hkept
  · rw [heq]
    exact ⟨fun _ => .inr (.inl hsucceeds), by rintro - ⟨e, ⟨⟩⟩⟩

/-- A store with a crane that has two active photos, with their objects. -/
def twoPhotos : Store where
  clock := 0
  cranes := [1]
  photos := [
    ⟨2, 1, "a", "a.png", "image/png", 0, .active⟩,
    ⟨3, 1, "b", "b.png", "image/png", 1, .active⟩]
  jobs := []
  reports := []
  storage := {"a", "b"}
  issued _ := none

/-- A store with a crane that has a photo marked for deletion and an active one, with their objects. -/
def markedAndActive : Store where
  clock := 0
  cranes := [1]
  photos := [
    ⟨2, 1, "a", "a.png", "image/png", 0, .pendingDelete⟩,
    ⟨3, 1, "b", "b.png", "image/png", 1, .active⟩]
  jobs := []
  reports := []
  storage := {"a", "b"}
  issued _ := none

/-- The loop deletes the object of the photo that is marked for deletion, and the delete of the active one
fails. -/
theorem failed_deletion_marked :
    let w : DeletionWorld := ⟨false, fun id =>
      if id = 2 then .deleted else .error "Photo could not be deleted" false, false⟩
    (deleteCrane w markedAndActive 1).2 = .error (.app (.photoStorage "Photo could not be deleted")) ∧
      "a" ∉ (deleteCrane w markedAndActive 1).1.storage ∧
      ActivePhotosKept markedAndActive (deleteCrane w markedAndActive 1).1 1 := by
  intro w
  have hkeys : (markedAndActive.photos.map CranePhoto.storage_key).Nodup := by decide
  have hspares : SparesActive w markedAndActive 1 := by
    intro photo hphoto hactive
    -- Only the object of the first photo is deleted, and that photo is not active.
    obtain ⟨hrow, -⟩ := mem_craneRecords.1 hphoto.mem
    obtain ⟨-, -, -, -, heffect⟩ := hphoto
    rcases List.mem_pair.1 hrow with rfl | rfl
    · cases hactive
    · cases heffect
  exact ⟨rfl, by decide, (failed_deletion_iff hkeys).2 (.inr (.inr hspares)) ⟨_, rfl⟩⟩

/-- The second delete fails: the first photo is still active, and its object is gone. -/
theorem failed_deletion_loses :
    let w : DeletionWorld := ⟨false, fun id =>
      if id = 2 then .deleted else .error "Photo could not be deleted" false, false⟩
    (deleteCrane w twoPhotos 1).2 = .error (.app (.photoStorage "Photo could not be deleted")) ∧
      (∃ photo ∈ (deleteCrane w twoPhotos 1).1.photos, photo.crane_id = 1 ∧ photo.status = .active ∧
        photo.storage_key ∈ twoPhotos.storage ∧
          photo.storage_key ∉ (deleteCrane w twoPhotos 1).1.storage) ∧
        ¬ ActivePhotosKept twoPhotos (deleteCrane w twoPhotos 1).1 1 := by
  intro w
  have hrow : (⟨2, 1, "a", "a.png", "image/png", 0, .active⟩ : CranePhoto) ∈ twoPhotos.photos := by
    decide
  have hstored : "a" ∈ twoPhotos.storage := by decide
  have hgone : "a" ∉ (deleteCrane w twoPhotos 1).1.storage := by decide
  exact ⟨rfl, ⟨_, hrow, rfl, rfl, hstored, hgone⟩,
    fun hkept => hgone (hkept _ hrow rfl rfl hstored)⟩

end CraneTracker.Cranes
