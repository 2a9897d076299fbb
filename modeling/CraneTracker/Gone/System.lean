import CraneTracker.Lib.Interleaving
import CraneTracker.Lib.Table
import CraneTracker.Services.Crane

/-!
# Reports of cranes that are gone

The route `report_crane_as_gone` as a process of an interleaved system, over the committed rows of
`crane` and `gone_report`. A request locks the crane, inserts its report under a savepoint, counts, and
marks the crane, all in one transaction at READ COMMITTED. Its own report is in its count before anyone
else sees it.

`hash_ip` is a parameter, and so is the threshold, which the route takes from the settings.
-/

namespace CraneTracker.Gone

open Interleaving Table

/-- The shared state: the database clock, the committed rows, and the locks of the open transactions.
An insert locks the key of the unique constraint `crane_reporter` until its transaction ends. -/
structure Db (K : Type) where
  clock : Timestamp
  cranes : List (Crane K)
  reports : List GoneReport
  crane_locks : Locks Uuid
  key_locks : Locks (Uuid × String)

namespace Db

variable {K : Type}

/-- The committed row of a crane. -/
def crane (db : Db K) (id : Uuid) : Option (Crane K) := row Crane.id db.cranes id

/-- The end of the transaction of `p`. -/
def release (db : Db K) (p : ℕ) : Db K :=
  { db with crane_locks := db.crane_locks.release p, key_locks := db.key_locks.release p }

/-- The commit of `p`, in a transaction that began at `now`: the report is inserted, and the crane is
marked if it is `gone`. -/
def commitReport (db : Db K) (p : ℕ) (now : Timestamp) (crane : Crane K) (report : GoneReport)
    (gone : Bool) : Db K :=
  { db.release p with
    cranes :=
      if gone then updateWhere (fun r => r.id = crane.id) (markGone now) db.cranes else db.cranes
    reports := db.reports ++ [report] }

end Db

/-- The local state of a request, by the statement that it runs next. The transaction began at
`now`. -/
inductive Report (K : Type)
  /-- The request has not arrived. -/
  | free
  /-- The locking query. -/
  | lock (now : Timestamp) (crane_id : Uuid) (client_ip : String)
  /-- The insert, for the crane as it was read. -/
  | insert (now : Timestamp) (crane : Crane K) (client_ip : String)
  /-- The count. -/
  | count (now : Timestamp) (crane : Crane K) (report : GoneReport)
  /-- The flush of the status, if the count has reached the threshold, and the commit. -/
  | commit (now : Timestamp) (crane : Crane K) (report : GoneReport) (gone : Bool)
  | answered (answer : Answer)
  | stopped

/-- The steps of a request, and of the database clock. -/
inductive Action
  | tick (now : Timestamp)
  | start (crane_id : Uuid) (client_ip : Option String)
  | lock
  | insert (id : Uuid)
  | count
  | commit
  | dbError
  | stop

variable {K : Type}

/-- The steps of the route `report_crane_as_gone`. -/
def Report.step (hash_ip : String → String) (threshold : ℕ) (p : ℕ) (a : Action) (db : Db K)
    (r : Report K) : Option (Db K × Report K) :=
  match a with
  | .tick now => if db.clock ≤ now then some ({ db with clock := now }, r) else none
  | .start crane_id client_ip =>
    match r with
    | .free =>
      match client_ip with
      | some client_ip => some (db, .lock db.clock crane_id client_ip)
      | none => some (db, .answered unknownHostResponse)
    | _ => none
  | .lock =>
    match r with
    | .lock now crane_id client_ip =>
      match db.crane crane_id with
      | some crane =>
        if db.crane_locks.available p crane_id then
          some ({ db with crane_locks := db.crane_locks.acquire p [crane_id] },
            .insert now crane client_ip)
        else none
      | none => some (db, .answered (AppError.resourceNotFound "crane" crane_id).response)
    | _ => none
  | .insert id =>
    match r with
    | .insert now crane client_ip =>
      let report : GoneReport := ⟨id, crane.id, hash_ip client_ip, now⟩
      -- The unique constraint: an `IntegrityError`, which becomes a `DuplicateGoneReportError`.
      if db.reports.any fun r =>
          r.crane_id = report.crane_id && r.reporter_ip_hash = report.reporter_ip_hash then
        some (db.release p, .answered duplicateGoneReportResponse)
      -- An insert waits for another transaction that has inserted the key and not ended.
      else if db.key_locks.available p (report.crane_id, report.reporter_ip_hash) then
        some ({ db with
          key_locks := db.key_locks.acquire p [(report.crane_id, report.reporter_ip_hash)] },
          .count now crane report)
      else none
    | _ => none
  | .count =>
    match r with
    | .count now crane report =>
      -- The count is a statement of its own: it sees what was committed before it, and its own row.
      let gone_report_count := goneReportCount (db.reports ++ [report]) crane.id
      some (db, .commit now crane report (gone_report_count ≠ 0 && threshold ≤ gone_report_count))
    | _ => none
  | .commit =>
    match r with
    | .commit now crane report gone =>
      some (db.commitReport p now crane report gone, .answered (.ok 200))
    | _ => none
  | .dbError =>
    match r with
    | .lock _ _ _ | .insert _ _ _ | .count _ _ _ | .commit _ _ _ _ =>
      some (db.release p, .answered sqlAlchemyErrorResponse)
    | _ => none
  | .stop =>
    match r with
    | .answered _ => none
    | _ => some (db.release p, .stopped)

/-- The reports of cranes that are gone. -/
def system (K : Type) (hash_ip : String → String) (threshold : ℕ) :
    System (Db K) (Report K) Action where
  step := Report.step hash_ip threshold

/-- A state of the system. -/
abbrev State (K : Type) := Config (Db K) (Report K)

/-- Before the first request: some cranes, and no report. -/
def initial (clock : Timestamp) (cranes : List (Crane K)) : State K :=
  ⟨⟨clock, cranes, [], fun _ => none, fun _ => none⟩, fun _ => .free⟩

end CraneTracker.Gone
