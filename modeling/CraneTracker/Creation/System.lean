import CraneTracker.Lib.Interleaving
import CraneTracker.Services.Crane

/-!
# The creation of cranes

The route `create_crane` as a process of an interleaved system, over the committed rows of `crane`. A
request checks for duplicates, calls the geocoder, inserts, and commits, all in one transaction at READ
COMMITTED. The check takes no lock and sees the rows that are committed when it runs. The insert is seen
by nobody before the commit.

Two things are recorded that the table does not hold: each row keeps the override flag of its request,
and a request keeps the number `seen` of the rows that its check saw. Rows are only added, in the order
of their commits, so the check saw the first `seen` of them.
-/

namespace CraneTracker.Creation

open Interleaving

/-- A committed crane, and the override flag of the request that created it. -/
structure Created (K : Type) where
  crane : Crane K
  override_duplicate_warning : Bool

/-- The shared state: the database clock, and the committed cranes in the order of their commits. -/
structure Db (K : Type) where
  clock : Timestamp
  committed : List (Created K)

/-- The local state of a request, by the statement that it runs next. -/
inductive Create (K : Type)
  /-- The request has not arrived. -/
  | free
  /-- The duplicate check, unless the request overrides it. -/
  | check (request : CreateCraneRequest K)
  /-- `reverse_geocode`. The check began the transaction at `now`. -/
  | geocode (now : Option Timestamp) (request : CreateCraneRequest K) (seen : ℕ)
  /-- The insert and the refresh. -/
  | insert (now : Option Timestamp) (request : CreateCraneRequest K) (geocode_data : GeocodeData)
      (seen : ℕ)
  /-- The commit of the row. -/
  | commit (crane : Crane K) (request : CreateCraneRequest K) (seen : ℕ)
  | answered (answer : Answer)
  | stopped

/-- The steps of a request, and of the database clock. -/
inductive Action (K : Type)
  | tick (now : Timestamp)
  | start (request : CreateCraneRequest K)
  | check
  | geocode (result : GeocodeResult)
  | insert (id : Uuid)
  | commit
  | dbError
  | stop

variable {K : Type}

/-- The steps of the route `create_crane`. -/
def Create.step (dwithin : Point K → Point K → ℕ → Bool) (a : Action K) (db : Db K) (r : Create K) :
    Option (Db K × Create K) :=
  match a with
  | .tick now => if db.clock ≤ now then some ({ db with clock := now }, r) else none
  | .start request =>
    match r with
    | .free => some (db, .check request)
    | _ => none
  | .check =>
    match r with
    | .check request =>
      if request.override_duplicate_warning = false then
        if possibleDuplicate dwithin (db.committed.map Created.crane) request.toCraneInput then
          some (db, .answered duplicateCraneResponse)
        else
          -- The check is the first statement, so the transaction begins here.
          some (db, .geocode (some db.clock) request db.committed.length)
      else
        some (db, .geocode none request db.committed.length)
    | _ => none
  | .geocode result =>
    match r with
    | .geocode now request seen =>
      match result.orNone with
      | some geocode_data => some (db, .insert now request geocode_data seen)
      | none => some (db, .answered .raised)
    | _ => none
  | .insert id =>
    match r with
    | .insert now request geocode_data seen =>
      -- Without a check, the insert is the first statement of the transaction.
      let crane := createCraneRow (now.getD db.clock) id request.toCraneInput geocode_data
      some (db, .commit crane request seen)
    | _ => none
  | .commit =>
    match r with
    | .commit crane request _ =>
      -- Nothing is checked again at the commit.
      some ({ db with committed := db.committed ++ [⟨crane, request.override_duplicate_warning⟩] },
        .answered (.ok 201))
    | _ => none
  | .dbError =>
    match r with
    | .check _ | .insert _ _ _ _ | .commit _ _ _ => some (db, .answered sqlAlchemyErrorResponse)
    | _ => none
  | .stop =>
    match r with
    | .answered _ => none
    | _ => some (db, .stopped)

/-- The creation of cranes. -/
def system (dwithin : Point K → Point K → ℕ → Bool) : System (Db K) (Create K) (Action K) where
  step _ := Create.step dwithin

/-- A state of the system. -/
abbrev State (K : Type) := Config (Db K) (Create K)

/-- Before the first request. -/
def initial (clock : Timestamp) : State K := ⟨⟨clock, []⟩, fun _ => .free⟩

end CraneTracker.Creation
