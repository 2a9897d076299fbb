import CraneTracker.Models

/-!
# The crane service, statement by statement

`create_crane` of `app/services/crane.py`: the duplicate check, what the geocode call leads to, and
the row that is inserted. `Creation/System.lean` puts them in the order in which the route runs them.
Then `report_crane_as_gone`: the count, and what a crane becomes when enough have reported it. That
order is in `Gone/System.lean`.

Nothing here computes with a coordinate, so coordinates are of any type. `ST_DWithin` is PostGIS's, and
is a parameter.
-/

namespace CraneTracker

/-- `CRANE_DUPLICATE_DISTANCE_METERS`. -/
def craneDuplicateDistanceMeters : ℕ := 100

/-- A point, as `WKTElement("POINT(lng lat)")` gives it. -/
structure Point (K : Type) where
  lng : K
  lat : K
deriving DecidableEq, Repr

/-- `CraneInput`. -/
structure CraneInput (K : Type) where
  lat : K
  lng : K
  project_name : Option String := none
deriving DecidableEq, Repr

/-- `CreateCraneRequest`. -/
structure CreateCraneRequest (K : Type) extends CraneInput K where
  override_duplicate_warning : Bool := false
deriving DecidableEq, Repr

/-- `CraneStatus`. -/
inductive CraneStatus
  | active
  | gone
deriving DecidableEq, Repr

/-- `GeocodeData`. -/
structure GeocodeData where
  city : Option String
  neighborhood : Option String
deriving DecidableEq, Repr

/-- A row of `crane`. -/
structure Crane (K : Type) where
  id : Uuid
  lat : K
  lng : K
  location : Point K
  project_name : Option String
  status : CraneStatus := .active
  city : Option String
  neighborhood : Option String
  added_at : Timestamp
  updated_at : Timestamp
deriving DecidableEq, Repr

/-- How `reverse_geocode` ends: it returns, it raises a `GeocodeRetrievalError`, or it raises another
exception. -/
inductive GeocodeResult
  | data (geocode_data : GeocodeData)
  | retrievalError (message : String)
  | otherError

variable {K : Type}

/-- The `input_point` of `create_crane`. -/
def CraneInput.point (input : CraneInput K) : Point K := ⟨input.lng, input.lat⟩

/-- The duplicate query of `create_crane`, over the rows that it sees. -/
def possibleDuplicate (dwithin : Point K → Point K → ℕ → Bool) (cranes : List (Crane K))
    (input : CraneInput K) : Bool :=
  cranes.any fun crane => dwithin crane.location input.point craneDuplicateDistanceMeters

/-- The geocode data that `create_crane` goes on with. A retrieval error costs only the names. -/
def GeocodeResult.orNone : GeocodeResult → Option GeocodeData
  | .data geocode_data => some geocode_data
  | .retrievalError _ => some ⟨none, none⟩
  | .otherError => none

/-- The row that `create_crane` inserts in a transaction that began at `now`. -/
def createCraneRow (now : Timestamp) (id : Uuid) (input : CraneInput K) (geocode_data : GeocodeData) :
    Crane K where
  id := id
  lat := input.lat
  lng := input.lng
  location := input.point
  project_name := input.project_name
  city := geocode_data.city
  neighborhood := geocode_data.neighborhood
  added_at := now
  updated_at := now

/-- The response to a `DuplicateCraneError`. -/
def duplicateCraneResponse : Answer :=
  .error 409 "Possible duplicate crane entry. Ensure it is a new crane"

/-! ## Gone reports -/

/-- A row of `gone_report`. -/
structure GoneReport where
  id : Uuid
  crane_id : Uuid
  reporter_ip_hash : String
  added_at : Timestamp
deriving DecidableEq, Repr

/-- The count of `report_crane_as_gone`, over the rows that it sees. -/
def goneReportCount (reports : List GoneReport) (crane_id : Uuid) : ℕ :=
  reports.countP fun report => report.crane_id = crane_id

/-- The flush of `crane.status = "gone"` in a transaction that began at `now`. A crane that is gone
already is not written. -/
def markGone (now : Timestamp) (crane : Crane K) : Crane K :=
  if crane.status = .gone then crane else { crane with status := .gone, updated_at := now }

/-- The response to a `DuplicateGoneReportError`. -/
def duplicateGoneReportResponse : Answer :=
  .error 409 "Duplicate gone reports submitted by same IP for same crane"

/-- The response to a request whose client has no address. -/
def unknownHostResponse : Answer := .error 400 "could not identify host to record report"

end CraneTracker
