import Mathlib.Data.List.Sort
import CraneTracker.Admin.Paging
import CraneTracker.Schemas

/-!
# The map's list of cranes, and one crane

`get_cranes` and `get_crane` of `app/services/crane.py`, and the route of the second. The list counts the
photos of each crane in a subquery; the route of one crane loads them and counts what it has loaded.

`map_listing` says which cranes the list shows, and that the two counts are the same.
-/

namespace CraneTracker.Cranes

open Table

/-! ## The tables -/

/-- The rows that the two reads see. Ids are primary keys. -/
structure Tables (K : Type) where
  cranes : List (Crane K)
  photos : List CranePhoto
  crane_unique : KeyUnique Crane.id cranes

/-- The order of `Crane.photo_records`. -/
def recordsBefore (a b : CranePhoto) : Prop :=
  a.added_at < b.added_at ∨ a.added_at = b.added_at ∧ a.id ≤ b.id

instance : DecidableRel recordsBefore := fun a b =>
  inferInstanceAs (Decidable (a.added_at < b.added_at ∨ a.added_at = b.added_at ∧ a.id ≤ b.id))

/-- `Crane.photo_records`, as a relationship that is loaded with a condition. -/
def photoRecords (condition : CranePhoto → Bool) (photos : List CranePhoto) (crane_id : Uuid) :
    List CranePhoto :=
  (photos.filter fun photo => photo.crane_id = crane_id && condition photo).insertionSort recordsBefore

/-- A loaded relationship has the photos of the crane that satisfy the condition. -/
theorem perm_photoRecords (condition : CranePhoto → Bool) (photos : List CranePhoto) (crane_id : Uuid) :
    (photoRecords condition photos crane_id).Perm
      (photos.filter fun photo => photo.crane_id = crane_id && condition photo) :=
  List.perm_insertionSort _ _

/-! ## `get_cranes` -/

variable {K : Type}

/-- `CraneListResult`. -/
structure CraneListResult (K : Type) where
  cranes : List (CraneSummary K)
  truncated : Bool
deriving DecidableEq, Repr

/-- `location.intersects(ST_MakeEnvelope(west, south, east, north))`: the point lies in the closed box. -/
def inBox [LinearOrder K] (b : Bounds K) (crane : Crane K) : Bool :=
  b.west ≤ crane.location.lng && crane.location.lng ≤ b.east &&
    (b.south ≤ crane.location.lat && crane.location.lat ≤ b.north)

/-- The subquery `photo_count`. -/
def photoCount (photos : List CranePhoto) (crane : Crane K) : ℕ :=
  photos.countP fun photo => photo.crane_id = crane.id && photo.status = .active

/-- `CRANE_LIST_LIMIT`. -/
def craneListLimit : ℕ := 5000

/-- `ORDER BY added_at DESC`. -/
abbrev Newest (K : Type) := OrderBy fun crane : Crane K => OrderDual.toDual crane.added_at

/-- `get_cranes` of the service. -/
def getCranes [Ring K] [LinearOrder K] (order : Newest K) (s : Tables K) (b : Bounds K)
    (limit : ℕ := craneListLimit) : Except InvalidCoordinateError (CraneListResult K) := do
  b.check
  let rows := ((order.sort (s.cranes.filter (inBox b))).take (limit + 1)).map fun crane =>
    (crane, photoCount s.photos crane)
  .ok {
    cranes := (rows.take limit).map fun row =>
      { CraneSummary.modelValidate row.1 with photos := row.2 }
    truncated := rows.length > limit }

/-! ## `get_crane` -/

/-- `get_crane` of the service: the crane, and its loaded photos. -/
def getCrane (s : Tables K) (id : Uuid) : Except AppError (Crane K × List CranePhoto) :=
  match row Crane.id s.cranes id with
  | none => .error (.resourceNotFound "crane" id)
  | some crane => .ok (crane, photoRecords (·.status = .active) s.photos crane.id)

/-- `serialize_crane_photo`. -/
def serializeCranePhoto (r2_public_base_url : Option String) (photo : CranePhoto) :
    CranePhotoResponse where
  id := photo.id
  crane_id := photo.crane_id
  url := Admin.getPublicUrl r2_public_base_url photo.storage_key
  original_filename := photo.original_filename
  content_type := photo.content_type
  added_at := photo.added_at

/-- `get_crane` of the route. -/
def craneDetail (r2_public_base_url : Option String) (s : Tables K) (id : Uuid) :
    Except AppError (CraneDetail K) := do
  let (crane, photo_records) ← getCrane s id
  let photo_items := photo_records.map (serializeCranePhoto r2_public_base_url)
  .ok { CraneDetail.modelValidate crane with
    photos := photo_records.length
    photo_items }

/-! ## The list -/

/-- The summary of a listed crane. -/
def summary (s : Tables K) (crane : Crane K) : CraneSummary K :=
  { CraneSummary.modelValidate crane with photos := photoCount s.photos crane }

variable {s : Tables K}

/-- The subquery counts the photos that the relationship loads. -/
theorem length_photoRecords (photos : List CranePhoto) (crane : Crane K) :
    (photoRecords (·.status = .active) photos crane.id).length = photoCount photos crane := by
  rw [(perm_photoRecords _ _ _).length_eq, photoCount, List.countP_eq_length_filter]

/-- The detail of a crane says what its summary says, with as many photos. -/
theorem craneDetail_of_mem (r2_public_base_url : Option String) {crane : Crane K}
    (h : crane ∈ s.cranes) : ∃ detail, craneDetail r2_public_base_url s crane.id = .ok detail ∧
      detail.toCraneSummary = summary s crane ∧
        detail.photo_items.length = photoCount s.photos crane := by
  have hrow : row Crane.id s.cranes crane.id = some crane := row_of_mem s.crane_unique h
  unfold craneDetail getCrane
  rw [hrow]
  refine ⟨_, rfl, ?_, ?_⟩
  · simp only [CraneDetail.modelValidate, summary, length_photoRecords]
  · rw [List.length_map, length_photoRecords]

variable [LinearOrder K] {order : Newest K} {b : Bounds K} {limit : ℕ}

/-- The cranes that the list shows. -/
def shown (order : Newest K) (s : Tables K) (b : Bounds K) (limit : ℕ) : List (Crane K) :=
  (order.sort (s.cranes.filter (inBox b))).take limit

/-- The cranes of the list are among those in the box. -/
theorem mem_shown {crane : Crane K} (h : crane ∈ shown order s b limit) :
    crane ∈ s.cranes ∧ inBox b crane = true :=
  List.mem_filter.1 ((order.perm _).mem_iff.1 (List.mem_of_mem_take h))

/-- No crane is repeated. -/
theorem keyUnique_shown : KeyUnique Crane.id (shown order s b limit) := by
  have hselects := order.selects (p := inBox b) (t := s.cranes)
  exact (hselects.keyUnique s.crane_unique).sublist ((List.take_sublist _ _).map Crane.id)

/-- The newest cranes come first. -/
theorem pairwise_shown : (shown order s b limit).Pairwise fun c d => d.added_at ≤ c.added_at :=
  (order.sorted _).sublist (List.take_sublist _ _)

/-- No crane that is left out is newer than one that is shown. -/
theorem le_of_not_shown {c d : Crane K} (hc : c ∈ s.cranes) (hbox : inBox b c = true)
    (hnot : c ∉ shown order s b limit) (hd : d ∈ shown order s b limit) : c.added_at ≤ d.added_at := by
  have hmem := (order.perm _).mem_iff.2 (List.mem_filter.2 ⟨hc, hbox⟩)
  exact le_of_mem_take (order.sorted _) hd hmem hnot

/-- The list is as long as the limit allows. -/
theorem length_shown :
    (shown order s b limit).length = min limit (s.cranes.countP (inBox b)) := by
  rw [shown, List.length_take, (order.perm _).length_eq, List.countP_eq_length_filter]

/-- What a list of cranes is: the newest cranes in the box, up to the limit, each with the number of
photos that the route of the crane gives and shows. -/
structure Lists (r2_public_base_url : Option String) (s : Tables K) (b : Bounds K) (limit : ℕ)
    (cranes : List (Crane K)) (result : CraneListResult K) : Prop where
  ids : result.cranes.map CraneSummary.id = cranes.map Crane.id
  mem : ∀ c ∈ cranes, c ∈ s.cranes ∧ inBox b c = true
  length : cranes.length = min limit (s.cranes.countP (inBox b))
  unique : KeyUnique Crane.id cranes
  newest : cranes.Pairwise fun c d => d.added_at ≤ c.added_at
  omitted : ∀ c ∈ s.cranes, inBox b c = true → c ∉ cranes → ∀ d ∈ cranes, c.added_at ≤ d.added_at
  truncated : result.truncated = true ↔ limit < s.cranes.countP (inBox b)
  photos : ∀ crane ∈ result.cranes, ∃ detail, craneDetail r2_public_base_url s crane.id = .ok detail ∧
    detail.toCraneSummary = crane ∧ crane.photos = detail.photos ∧
      crane.photos = detail.photo_items.length

variable [Ring K]

/-- What the list returns within valid bounds. -/
theorem getCranes_of_check (h : b.check = .ok ()) : getCranes order s b limit =
    .ok ⟨(shown order s b limit).map (summary s), limit < s.cranes.countP (inBox b)⟩ := by
  have hlength : (order.sort (s.cranes.filter (inBox b))).length = s.cranes.countP (inBox b) := by
    rw [(order.perm _).length_eq, List.countP_eq_length_filter]
  unfold getCranes
  rw [h]
  dsimp only [bind, Except.bind]
  rw [List.length_map, List.length_take, hlength, ← List.map_take, List.take_take, List.map_map,
    min_eq_left (Nat.le_succ limit)]
  congr 2
  rw [decide_eq_decide]
  omega

/-- `get_cranes` raises for invalid bounds, and otherwise lists the newest cranes in the box. -/
theorem map_listing (r2_public_base_url : Option String) (order : Newest K) (s : Tables K)
    (b : Bounds K) (limit : ℕ) :
    b.Invalid ∧ (∃ e, getCranes order s b limit = .error e) ∨
      ¬ b.Invalid ∧ ∃ cranes result, getCranes order s b limit = .ok result ∧
        Lists r2_public_base_url s b limit cranes result := by
  rcases b.check_cases with ⟨hinvalid, e, hcheck⟩ | ⟨hvalid, hcheck⟩
  · exact .inl ⟨hinvalid, e, by rw [getCranes, hcheck]; rfl⟩
  · refine .inr ⟨hvalid, shown order s b limit, _, getCranes_of_check hcheck, ?_⟩
    exact {
      ids := by rw [List.map_map]; rfl
      mem := fun c hc => mem_shown hc
      length := length_shown
      unique := keyUnique_shown
      newest := pairwise_shown
      omitted := fun c hc hbox hnot d hd => le_of_not_shown hc hbox hnot hd
      truncated := decide_eq_true_iff
      photos := by
        intro crane hcrane
        obtain ⟨c, hc, rfl⟩ := List.mem_map.1 hcrane
        obtain ⟨detail, hdetail, hsummary, hitems⟩ :=
          craneDetail_of_mem r2_public_base_url (mem_shown hc).1
        refine ⟨detail, hdetail, hsummary, ?_, hitems.symm⟩
        rw [← hsummary] }

end CraneTracker.Cranes
