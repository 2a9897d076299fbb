import Mathlib.Algebra.Order.Ring.Defs
import Mathlib.Order.Interval.Set.Defs
import CraneTracker.Services.Crane

/-!
# The schemas and the limits on coordinates

`app/schemas/base.py`: the bodies of the responses that list cranes and show one, and the limits that a
request body has to keep. With them go the bounds of a map, which `get_cranes` checks itself. Coordinates
are finite: NaN and the infinities are no elements of an ordered ring.
-/

namespace CraneTracker

variable {K : Type}

/-! ## Responses -/

/-- `CranePhotoResponse`. -/
structure CranePhotoResponse where
  id : Uuid
  crane_id : Uuid
  url : Option String
  original_filename : String
  content_type : String
  added_at : Timestamp
deriving DecidableEq, Repr

/-- `CraneSummary`. -/
structure CraneSummary (K : Type) where
  id : Uuid
  lat : K
  lng : K
  project_name : Option String
  status : CraneStatus
  city : Option String
  neighborhood : Option String
  photos : ℕ := 0
  contribs : ℕ := 0
  added_at : Timestamp
deriving DecidableEq, Repr

/-- `CraneDetail`. -/
structure CraneDetail (K : Type) extends CraneSummary K where
  photo_items : List CranePhotoResponse := []
  links : List String := []
deriving DecidableEq, Repr

/-- `CraneSummary.model_validate`. A row of `crane` has no `photos` and no `contribs`, so these keep their
defaults. -/
def CraneSummary.modelValidate (crane : Crane K) : CraneSummary K where
  id := crane.id
  lat := crane.lat
  lng := crane.lng
  project_name := crane.project_name
  status := crane.status
  city := crane.city
  neighborhood := crane.neighborhood
  added_at := crane.added_at

/-- `CraneDetail.model_validate`. -/
def CraneDetail.modelValidate (crane : Crane K) : CraneDetail K where
  toCraneSummary := CraneSummary.modelValidate crane

/-! ## Limits -/

/-- The two comparisons that a coordinate fails. -/
theorem out_of_range_iff [LinearOrder K] {x low high : K} :
    (x > high ∨ x < low) ↔ x ∉ Set.Icc low high := by
  rw [Set.mem_Icc, not_and_or, not_le, not_le, or_comm, gt_iff_lt]

/-- The bounds of a map. -/
structure Bounds (K : Type) where
  north : K
  south : K
  east : K
  west : K
deriving DecidableEq, Repr

/-- `InvalidCoordinateError`. -/
structure InvalidCoordinateError where
  message : String
deriving DecidableEq, Repr

variable [Ring K] [LinearOrder K]

/-- The limits of `CraneInput`: the `ge` and `le` of its fields. The project name has none. -/
def CraneInput.validate (input : CraneInput K) : Bool :=
  -90 ≤ input.lat && input.lat ≤ 90 && (-180 ≤ input.lng && input.lng ≤ 180)

/-- The checks of `get_cranes`. -/
def Bounds.check (b : Bounds K) : Except InvalidCoordinateError Unit :=
  if b.north > 90 ∨ b.north < -90 ∨ b.south > 90 ∨ b.south < -90 then
    .error ⟨"Latitude must be between -90 and +90"⟩
  else if b.east > 180 ∨ b.east < -180 ∨ b.west > 180 ∨ b.west < -180 then
    .error ⟨"Longitude must be between -180 and +180"⟩
  else if b.north ≤ b.south then
    .error ⟨"North must be > South"⟩
  else if b.east ≤ b.west then
    .error ⟨"East must be > West"⟩
  else
    .ok ()

/-- A latitude or a longitude is out of range, or the box is empty. -/
def Bounds.Invalid (b : Bounds K) : Prop :=
  b.north ∉ Set.Icc (-90) 90 ∨ b.south ∉ Set.Icc (-90) 90 ∨ b.east ∉ Set.Icc (-180) 180 ∨
    b.west ∉ Set.Icc (-180) 180 ∨ b.north ≤ b.south ∨ b.east ≤ b.west

/-- The checks fail exactly for invalid bounds. -/
theorem Bounds.check_cases (b : Bounds K) :
    b.Invalid ∧ (∃ e, b.check = .error e) ∨ ¬ b.Invalid ∧ b.check = .ok () := by
  have hlat : (b.north > 90 ∨ b.north < -90 ∨ b.south > 90 ∨ b.south < -90) ↔
      b.north ∉ Set.Icc (-90) 90 ∨ b.south ∉ Set.Icc (-90) 90 := by
    rw [← or_assoc, out_of_range_iff, out_of_range_iff]
  have hlng : (b.east > 180 ∨ b.east < -180 ∨ b.west > 180 ∨ b.west < -180) ↔
      b.east ∉ Set.Icc (-180) 180 ∨ b.west ∉ Set.Icc (-180) 180 := by
    rw [← or_assoc, out_of_range_iff, out_of_range_iff]
  unfold Bounds.check Bounds.Invalid
  split_ifs with h₁ h₂ h₃ h₄
  · exact .inl ⟨(hlat.1 h₁).elim .inl fun h => .inr (.inl h), _, rfl⟩
  · exact .inl ⟨.inr (.inr ((hlng.1 h₂).elim .inl fun h => .inr (.inl h))), _, rfl⟩
  · exact .inl ⟨.inr (.inr (.inr (.inr (.inl h₃)))), _, rfl⟩
  · exact .inl ⟨.inr (.inr (.inr (.inr (.inr h₄)))), _, rfl⟩
  · refine .inr ⟨?_, rfl⟩
    rintro (h | h | h | h | h | h)
    · exact h₁ (hlat.2 (.inl h))
    · exact h₁ (hlat.2 (.inr h))
    · exact h₂ (hlng.2 (.inl h))
    · exact h₂ (hlng.2 (.inr h))
    · exact h₃ h
    · exact h₄ h

end CraneTracker
