import Mathlib.Data.Set.Card
import CraneTracker.Lib.Linearization

/-!
# The album

What the photo pipeline is for, as if its operations happened one at a time and nothing ever failed in the
middle. An album has owners, and each has a limited number of places. An upload reserves a place for a new
photo, and later publishes the photo or gives the place back. A photo that is published can be deleted, and
can be reported, once by each reporter. A photo that is gone does not come back, so it is published at most
once (`count_publish_le`). Nothing here is about tables, locks, jobs, or the object storage.
-/

namespace Album

open Interleaving

/-- A place: whose it is, and whether its photo is published. -/
structure Place (C : Type*) where
  owner : C
  published : Bool

/-- The owners, the places that are taken, by photo, who has reported which photo, and the photos that have
ever had a place. -/
@[ext]
structure State (C P R : Type*) where
  owners : Set C
  places : P → Option (Place C)
  reports : Set (P × R)
  used : Set P

/-- The operations. -/
inductive Op (C P R : Type*)
  | addOwner (x : C)
  | reserve (x : C)
  | publish (i : P)
  | release (i : P)
  | delete (x : C) (i : P)
  | report (x : C) (i : P) (r : R)
deriving DecidableEq, Repr

/-- What an operation returns. -/
inductive Reply
  | done
  /-- There is no such owner. -/
  | noOwner
  /-- The owner has no place left. -/
  | full
  /-- The owner has no such photo that is published. -/
  | noPhoto
  /-- The reporter has reported the photo before. -/
  | duplicate
deriving DecidableEq, Repr

variable {C P R : Type*} [DecidableEq P]

namespace State

variable (s : State C P R)

/-- The number of places that an owner has taken. -/
noncomputable def taken (x : C) : ℕ := Set.ncard {i | ∃ place, s.places i = some place ∧ place.owner = x}

/-- The photo is published, with this owner. -/
def Published (x : C) (i : P) : Prop := s.places i = some ⟨x, true⟩

/-- A place is taken, or its photo is published. -/
def put (i : P) (place : Place C) : State C P R :=
  { s with places := Function.update s.places i (some place), used := insert i s.used }

/-- A place becomes free, and the reports of its photo go with it. -/
def remove (i : P) : State C P R where
  owners := s.owners
  places := Function.update s.places i none
  reports := {x | x ∈ s.reports ∧ x.1 ≠ i}
  used := s.used

/-- Several places become free. -/
def removeAll (is : List P) : State C P R where
  owners := s.owners
  places i := if i ∈ is then none else s.places i
  reports := {x | x ∈ s.reports ∧ x.1 ∉ is}
  used := s.used

end State

/-- What an operation does, and what it returns. -/
inductive Step (limit : ℕ) : State C P R → Op C P R × Reply → State C P R → Prop
  | addOwner (s : State C P R) (x : C) :
      Step limit s (.addOwner x, .done) { s with owners := insert x s.owners }
  | reserve (s : State C P R) (x : C) (i : P) (howner : x ∈ s.owners) (hroom : s.taken x < limit)
      (hnew : i ∉ s.used) : Step limit s (.reserve x, .done) (s.put i ⟨x, false⟩)
  | noOwner (s : State C P R) (x : C) (howner : x ∉ s.owners) : Step limit s (.reserve x, .noOwner) s
  | full (s : State C P R) (x : C) (hroom : limit ≤ s.taken x) : Step limit s (.reserve x, .full) s
  | publish (s : State C P R) (x : C) (i : P) (hplace : s.places i = some ⟨x, false⟩) :
      Step limit s (.publish i, .done) (s.put i ⟨x, true⟩)
  | release (s : State C P R) (x : C) (i : P) (hplace : s.places i = some ⟨x, false⟩) :
      Step limit s (.release i, .done) (s.remove i)
  | delete (s : State C P R) (x : C) (i : P) (hphoto : s.Published x i) :
      Step limit s (.delete x i, .done) (s.remove i)
  | notDeleted (s : State C P R) (x : C) (i : P) (hphoto : ¬ s.Published x i) :
      Step limit s (.delete x i, .noPhoto) s
  | report (s : State C P R) (x : C) (i : P) (r : R) (hphoto : s.Published x i)
      (hnew : (i, r) ∉ s.reports) :
      Step limit s (.report x i r, .done) { s with reports := insert (i, r) s.reports }
  | notReported (s : State C P R) (x : C) (i : P) (r : R) (hphoto : ¬ s.Published x i) :
      Step limit s (.report x i r, .noPhoto) s
  | duplicate (s : State C P R) (x : C) (i : P) (r : R) (hphoto : s.Published x i)
      (hold : (i, r) ∈ s.reports) : Step limit s (.report x i r, .duplicate) s

/-- The album, as a machine. -/
abbrev machine (C P R : Type*) [DecidableEq P] (limit : ℕ) :
    Machine (State C P R) (Op C P R × Reply) := Step limit

/-- The operation that frees a place. -/
def freeing (i : P) (place : Place C) : Op C P R × Reply :=
  if place.published then (.delete place.owner i, .done) else (.release i, .done)

variable {limit : ℕ} {s : State C P R}

/-- A place is freed by the operation that fits it. -/
theorem step_freeing {i : P} {place : Place C} (h : s.places i = some place) :
    Step limit s (freeing i place) (s.remove i) := by
  obtain ⟨x, published⟩ := place
  cases published with
  | true => exact .delete s x i h
  | false => exact .release s x i h

/-- The removal of a place that nobody has taken does nothing. -/
theorem remove_eq_self {i : P} (h : s.places i = none) (hreports : ∀ x ∈ s.reports, x.1 ≠ i) :
    s.remove i = s := by
  refine State.ext rfl ?_ ?_ rfl
  · show Function.update s.places i none = s.places
    rw [← h, Function.update_eq_self]
  · exact Set.ext fun x => ⟨fun hx => hx.1, fun hx => ⟨hx, hreports x hx⟩⟩

/-- The removal of no place. -/
theorem removeAll_nil : s.removeAll [] = s := by
  unfold State.removeAll
  simp

/-- The removal of several places, one after the other. -/
theorem removeAll_cons (i : P) (is : List P) : s.removeAll (i :: is) = (s.remove i).removeAll is := by
  refine State.ext rfl (funext fun j => ?_) (Set.ext fun x => ?_) rfl
  · show (if j ∈ i :: is then none else s.places j) =
      if j ∈ is then none else Function.update s.places i none j
    by_cases hj : j = i
    · subst hj
      simp
    · simp [hj]
  · show x ∈ s.reports ∧ x.1 ∉ i :: is ↔ (x ∈ s.reports ∧ x.1 ≠ i) ∧ x.1 ∉ is
    rw [List.mem_cons, not_or, and_assoc]

/-- Several places are freed by a run of the operations that fit them. -/
theorem run_removeAll {is : List P} (hnodup : is.Nodup)
    (hreports : ∀ x ∈ s.reports, s.places x.1 ≠ none) :
    (machine C P R limit).Run s (is.filterMap fun i => (s.places i).map (freeing i))
      (s.removeAll is) := by
  induction is generalizing s with
  | nil =>
    rw [removeAll_nil]
    exact .nil s
  | cons i is ih =>
    obtain ⟨hi, hnodup⟩ := List.nodup_cons.1 hnodup
    have hreports' : ∀ x ∈ (s.remove i).reports, (s.remove i).places x.1 ≠ none := by
      rintro x ⟨hx, hne⟩
      show Function.update s.places i none x.1 ≠ none
      rw [Function.update_of_ne hne]
      exact hreports x hx
    -- The other places are as they were.
    have hrest : (is.filterMap fun j => ((s.remove i).places j).map (freeing j)) =
        is.filterMap fun j => (s.places j).map (freeing (R := R) j) := by
      refine List.filterMap_congr fun j hj => ?_
      have hne : j ≠ i := fun heq => hi (heq ▸ hj)
      show (Function.update s.places i none j).map _ = _
      rw [Function.update_of_ne hne]
    have htail := ih hnodup hreports'
    rw [hrest, ← removeAll_cons] at htail
    cases hplace : s.places i with
    | some place =>
      rw [List.filterMap_cons_some (by rw [hplace]; rfl)]
      exact .cons (step_freeing hplace) htail
    | none =>
      rw [List.filterMap_cons_none (by rw [hplace]; rfl)]
      have hsame : s.remove i = s :=
        remove_eq_self hplace fun x hx heq => hreports x hx (by rw [heq, hplace])
      rw [removeAll_cons, hsame] at htail ⊢
      exact htail

/-! ## Every photo is published at most once -/

/-- The photo can be published some time: it has a place, or has never had one. -/
def State.Unpublished (s : State C P R) (i : P) : Prop :=
  i ∉ s.used ∨ ∃ x, s.places i = some ⟨x, false⟩

variable {s' : State C P R} {x : Op C P R × Reply} {i : P}

/-- What can be published after a step could be published before, and was not published by it. -/
theorem State.Unpublished.of_step (h : Step limit s x s') (hi : s'.Unpublished i) :
    s.Unpublished i ∧ x ≠ (.publish i, .done) := by
  cases h with
  | addOwner | noOwner | full | notDeleted | report | notReported | duplicate => exact ⟨hi, by simp⟩
  | reserve y j howner hroom hnew =>
    refine ⟨?_, by simp⟩
    by_cases hij : i = j
    · exact Or.inl (hij ▸ hnew)
    · rcases hi with hunused | ⟨z, hz⟩
      · exact Or.inl fun hmem => hunused (Or.inr hmem)
      · exact Or.inr ⟨z, (Function.update_of_ne hij _ _).symm.trans hz⟩
  | publish y j hplace =>
    by_cases hij : i = j
    · subst hij
      rcases hi with hunused | ⟨z, hz⟩
      · exact absurd (Set.mem_insert i s.used) hunused
      · cases (Function.update_self _ _ _).symm.trans hz
    · refine ⟨?_, by simp [Ne.symm hij]⟩
      rcases hi with hunused | ⟨z, hz⟩
      · exact Or.inl fun hmem => hunused (Or.inr hmem)
      · exact Or.inr ⟨z, (Function.update_of_ne hij _ _).symm.trans hz⟩
  | release y j hplace | delete y j hphoto =>
    refine ⟨?_, by simp⟩
    rcases hi with hunused | ⟨z, hz⟩
    · exact Or.inl hunused
    · refine Or.inr ⟨z, ?_⟩
      by_cases hij : i = j
      · rw [hij] at hz
        cases (Function.update_self _ _ _).symm.trans hz
      · exact (Function.update_of_ne hij _ _).symm.trans hz

/-- A photo is published when it can be. -/
theorem unpublished_of_publish {r : Reply} (h : Step limit s (.publish i, r) s') : s.Unpublished i := by
  cases h with
  | publish y _ hplace => exact Or.inr ⟨y, hplace⟩

variable {ops : List (Op C P R × Reply)}

/-- A photo that cannot be published is not published any more. -/
theorem publish_not_mem (hrun : (machine C P R limit).Run s ops s') (hi : ¬ s.Unpublished i) :
    (.publish i, .done) ∉ ops := by
  induction hrun with
  | nil => exact List.not_mem_nil
  | cons hstep _ ih =>
    rw [List.mem_cons, not_or]
    refine ⟨?_, ih fun hlater => hi (hlater.of_step hstep).1⟩
    rintro rfl
    exact hi (unpublished_of_publish hstep)

/-- In a run of the album a photo is published at most once. -/
theorem count_publish_le [DecidableEq C] [DecidableEq R] (hrun : (machine C P R limit).Run s ops s')
    (i : P) : ops.count (.publish i, .done) ≤ 1 := by
  induction hrun with
  | nil => exact Nat.zero_le 1
  | @cons s s₁ s' x ops hstep hrest ih =>
    by_cases hx : x = (.publish i, .done)
    · have hlater : ¬ s₁.Unpublished i := fun hlater => (hlater.of_step hstep).2 hx
      have hnone := publish_not_mem hrest hlater
      rw [hx, List.count_cons_self, List.count_eq_zero_of_not_mem hnone]
    · rw [List.count_cons_of_ne hx]
      exact ih

end Album
