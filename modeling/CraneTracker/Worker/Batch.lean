import CraneTracker.Pipeline.System

/-!
# The delete batch as one function

`run_delete_batch` of `app/worker/photo_jobs.py` from its start to its return, with what it calls, on
the committed state. `Pipeline/System.lean` has the same code step by step, between the steps of
others. Here it is a function of the state and of what it meets on the way (`BatchWorld`): the order of
its query, how each call of the storage ends, when the shutdown is noticed, and which database writes
fail.

`deleteJobs` is the loop. The jobs that it reaches are a prefix of the claimed list (`reached`), and
what it does to a job of the prefix is `handleJob`, which touches the row of that job only. So the row
that the batch leaves is a function of what it met at that job (`recordedRow`).
-/

namespace CraneTracker.PhotoJobs

open Pipeline Table

/-! ## Status writes -/

/-- The exceptions that `_record_job_outcome` catches. -/
inductive RecordError
  | resourceNotFound (resource : String) (identifier : Uuid)
  | sqlAlchemyError
deriving DecidableEq, Repr

/-- `random.uniform(0, b)`, in microseconds: some value between `0` and `b`. -/
structure Uniform where
  draw : ℤ → ℤ
  mem : ∀ b, min 0 b ≤ draw b ∧ draw b ≤ max 0 b

/-- `calculate_backoff`, in microseconds. -/
def calculateBackoff (cfg : Settings) (attempts : ℕ) (uniform : Uniform) : ℤ :=
  uniform.draw (min cfg.max_backoff_delay (cfg.min_backoff_delay * 2 ^ attempts) * 1000)

/-- What the loop of `run_delete_batch` meets at a job. -/
structure Handling where
  /-- `shutdown` is set when the loop reaches the job. -/
  shutdown : Bool
  /-- How the call of `delete_photo` ends. -/
  result : DeleteResult
  /-- When the transaction of the status write begins. -/
  now : Timestamp
  uniform : Uniform
  /-- Somebody has removed the row of the job by then. -/
  removed : Bool
  /-- A statement of the status write raises `SQLAlchemyError`. -/
  dbError : Bool

/-- `capture_failure`. -/
def captureFailure (cfg : Settings) (h : Handling) (job_id : Uuid) (err_str : String) (s : Store) :
    Except RecordError Store :=
  if h.dbError then .error .sqlAlchemyError
  else
    match s.job job_id with
    | none => .error (.resourceNotFound "outbox_job" job_id)
    | some job =>
      -- `last_error` takes the text, or the database rejects the `UPDATE`.
      if fitsVarchar lastErrorWidth err_str then
        .ok (s.apply cfg 0
          (.captureFailure h.now (calculateBackoff cfg job.attempts h.uniform) err_str job))
      else .error .sqlAlchemyError

/-- `capture_success`. -/
def captureSuccess (cfg : Settings) (h : Handling) (job_id : Uuid) (s : Store) :
    Except RecordError Store :=
  if h.dbError then .error .sqlAlchemyError
  else
    match s.job job_id with
    | none => .error (.resourceNotFound "outbox_job" job_id)
    | some job =>
      let photo_ids :=
        (s.photos.filter fun r => r.storage_key = job.storage_key).map CranePhoto.id
      .ok (s.apply cfg 0 (.captureSuccess h.now job photo_ids))

/-- `_record_job_outcome`: whether the status write succeeded, and the state that it leaves. -/
def recordJobOutcome (cfg : Settings) (h : Handling) (job_id : Uuid) (err_str : Option String)
    (s : Store) : Bool × Store :=
  let written :=
    match err_str with
    | none => captureSuccess cfg h job_id s
    | some err_str => captureFailure cfg h job_id err_str s
  match written with
  | .ok s' => (true, s')
  -- `session.rollback()`.
  | .error (.resourceNotFound _ _) => (false, s)
  | .error .sqlAlchemyError => (false, s)

/-! ## The loop -/

/-- A call of `delete_photo`: the job that it is for, and how it ends. -/
structure Call where
  job : ClaimedJob
  result : DeleteResult

/-- What `run_delete_batch` has done: the state that it leaves, `processed_jobs`, and its calls of
`delete_photo`. -/
structure Batch where
  store : Store
  processed_jobs : ℕ
  calls : List Call

/-- `str(e)` of the exception that a call of `delete_photo` raises. -/
def errStr : DeleteResult → Option String
  | .deleted => none
  | .error err_str _ => some err_str

/-- What a call of `delete_photo` does to the storage. -/
def deletePhoto (cfg : Settings) (object_key : String) (result : DeleteResult) (s : Store) : Store :=
  match result with
  | .deleted => s.apply cfg 0 (.deleteObject object_key)
  | .error _ effect => if effect then s.apply cfg 0 (.deleteObject object_key) else s

/-- What has happened to the database when the status write begins. -/
def elapse (cfg : Settings) (h : Handling) (job_id : Uuid) (s : Store) : Store :=
  let s := s.apply cfg 0 (.tick h.now)
  if h.removed then { s with jobs := deleteWhere (fun r => r.id = job_id) s.jobs } else s

/-- The body of the loop: the call of `delete_photo`, and the status write. -/
def handleJob (cfg : Settings) (h : Handling) (job : ClaimedJob) (s : Store) : Store :=
  let s := deletePhoto cfg job.storage_key h.result s
  let s := elapse cfg h job.id s
  (recordJobOutcome cfg h job.id (errStr h.result) s).2

/-- The loop of `run_delete_batch`. -/
def deleteJobs (cfg : Settings) (handling : Uuid → Handling) : List ClaimedJob → Batch → Batch
  | [], b => b
  | job :: rest, b =>
    let h := handling job.id
    if h.shutdown then b
    else
      deleteJobs cfg handling rest
        ⟨handleJob cfg h job b.store, b.processed_jobs + 1, b.calls ++ [⟨job, h.result⟩]⟩

/-! ## The batch -/

/-- What a run of `run_delete_batch` meets. -/
structure BatchWorld where
  /-- When the transaction of `claim_jobs` begins. -/
  now : Timestamp
  /-- `claim_jobs` raises `SQLAlchemyError`. -/
  claimError : Bool
  /-- The order in which the query of `claim_jobs` goes through the jobs. -/
  order : OrderBy OutboxJob.created_at
  /-- The jobs that other transactions have locked, which it skips. -/
  locked : List Uuid
  /-- What the loop meets at a job. -/
  handling : Uuid → Handling

/-- The jobs that the query of `claim_jobs` returns. -/
def BatchWorld.jobs (w : BatchWorld) (operation : JobOperation) (batch_size : ℕ) (s : Store) :
    List OutboxJob :=
  let rows := w.order.sort (s.jobs.filter (OutboxJob.claimable operation w.now))
  (rows.filter fun r => !w.locked.contains r.id).take batch_size

/-- `claim_jobs`. -/
def claimJobs (cfg : Settings) (w : BatchWorld) (operation : JobOperation) (batch_size : ℕ)
    (s : Store) : Except RecordError (List ClaimedJob × Store) :=
  if w.claimError then .error .sqlAlchemyError
  else
    let jobs := w.jobs operation batch_size s
    .ok (jobs.map OutboxJob.toClaimedJob,
      (s.apply cfg 0 (.tick w.now)).apply cfg 0 (.claimJobs w.now jobs))

/-- `run_delete_batch`. -/
def runDeleteBatch (cfg : Settings) (w : BatchWorld) (s : Store) : Batch :=
  match claimJobs cfg w .delete cfg.job_batch_size s with
  | .error _ => ⟨s, 0, []⟩
  | .ok (claimed_jobs, s) => deleteJobs cfg w.handling claimed_jobs ⟨s, 0, []⟩

/-! ## One job -/

/-- The row that a status write leaves of the row `row`. -/
def writtenRow (cfg : Settings) (h : Handling) (row : OutboxJob) : OutboxJob :=
  if h.dbError then row
  else
    match h.result with
    | .deleted => CraneTracker.captureSuccess h.now row row
    | .error err_str _ =>
      if fitsVarchar lastErrorWidth err_str then
        CraneTracker.captureFailure cfg h.now (calculateBackoff cfg row.attempts h.uniform) err_str
          row row
      else row

/-- What the loop leaves of the row `row`. -/
def recordedRow (cfg : Settings) (h : Handling) (row : OutboxJob) : Option OutboxJob :=
  if h.removed then none else some (writtenRow cfg h row)

section Job

variable {cfg : Settings} {h : Handling} {job : ClaimedJob} {s : Store} {i job_id : Uuid}

/-- A status write that does not find its row, or that the database fails, changes nothing. -/
theorem recordJobOutcome_of_failed {err_str : Option String}
    (hf : h.dbError = true ∨ s.job job_id = none) :
    (recordJobOutcome cfg h job_id err_str s).2 = s := by
  unfold recordJobOutcome captureSuccess captureFailure
  rcases hf with hf | hf
  · rw [hf]
    cases err_str <;> rfl
  · rw [hf]
    cases err_str <;> cases h.dbError <;> rfl

/-- What `capture_success` writes. -/
theorem recordJobOutcome_success {read : OutboxJob} (hdb : h.dbError = false)
    (hread : s.job job_id = some read) : (recordJobOutcome cfg h job_id none s).2 =
      s.apply cfg 0 (.captureSuccess h.now read
        ((s.photos.filter fun r => r.storage_key = read.storage_key).map CranePhoto.id)) := by
  unfold recordJobOutcome captureSuccess
  rw [hdb, hread]
  rfl

/-- What `capture_failure` writes, unless the database rejects the text of the error. -/
theorem recordJobOutcome_failure {read : OutboxJob} {err_str : String} (hdb : h.dbError = false)
    (hread : s.job job_id = some read) : (recordJobOutcome cfg h job_id (some err_str) s).2 =
      if fitsVarchar lastErrorWidth err_str then
        s.apply cfg 0
          (.captureFailure h.now (calculateBackoff cfg read.attempts h.uniform) err_str read)
      else s := by
  unfold recordJobOutcome captureFailure
  dsimp only
  rw [hdb, hread]
  cases fitsVarchar lastErrorWidth err_str <;> rfl

/-- The row after a success whose status write commits. -/
theorem writtenRow_deleted {row : OutboxJob} (hdb : h.dbError = false)
    (hres : h.result = .deleted) :
    writtenRow cfg h row = CraneTracker.captureSuccess h.now row row := by
  unfold writtenRow
  rw [hdb, hres]
  rfl

/-- The row after a failure, when the database is available. -/
theorem writtenRow_error {row : OutboxJob} {err_str : String} {effect : Bool}
    (hdb : h.dbError = false) (hres : h.result = .error err_str effect) :
    writtenRow cfg h row = if fitsVarchar lastErrorWidth err_str then
      CraneTracker.captureFailure cfg h.now (calculateBackoff cfg row.attempts h.uniform) err_str
        row row
    else row := by
  unfold writtenRow
  rw [hdb, hres]
  rfl

/-- What an update of the row that was read does to the jobs. -/
theorem job_of_update {read : OutboxJob} {f : OutboxJob → OutboxJob}
    (hread : s.job job_id = some read) :
    ((s.job i).map fun r => if r.id = read.id then f r else r) =
      if i = job_id then some (f read) else s.job i := by
  have hid : read.id = job_id := key_of_row hread
  rw [hid]
  refine map_row_ite.trans ?_
  split_ifs with hi
  · show (s.job i).map f = _
    rw [hi, hread, Option.map_some]
  · rfl

/-- The jobs after a status write. -/
theorem job_recordJobOutcome : (recordJobOutcome cfg h job_id (errStr h.result) s).2.job i =
    if i = job_id then (s.job i).map (writtenRow cfg h) else s.job i := by
  cases hdb : h.dbError with
  | true =>
    have hid : writtenRow cfg h = id := by
      funext row
      rw [writtenRow, if_pos hdb, id]
    rw [recordJobOutcome_of_failed (.inl hdb), hid, Option.map_id_apply, ite_self]
  | false =>
    cases hread : s.job job_id with
    | none =>
      rw [recordJobOutcome_of_failed (.inr hread)]
      split_ifs with hi
      · rw [hi, hread, Option.map_none]
      · rfl
    | some read =>
      have hwritten : (if i = job_id then (s.job i).map (writtenRow cfg h) else s.job i) =
          if i = job_id then some (writtenRow cfg h read) else s.job i := by
        split_ifs with hi
        · rw [hi, hread, Option.map_some]
        · rfl
      rw [hwritten]
      cases hres : h.result with
      | deleted =>
        rw [errStr, recordJobOutcome_success hdb hread, Store.job_captureSuccess, job_of_update hread,
          writtenRow_deleted hdb hres]
      | error err_str effect =>
        rw [errStr, recordJobOutcome_failure hdb hread, writtenRow_error hdb hres]
        split_ifs with hfits hi hi
        · rw [Store.job_captureFailure, job_of_update hread, if_pos hi]
        · rw [Store.job_captureFailure, job_of_update hread, if_neg hi]
        · rw [hi, hread]
        · rfl

/-- A call of `delete_photo` changes no row. -/
theorem jobs_deletePhoto {object_key : String} {result : DeleteResult} :
    (deletePhoto cfg object_key result s).jobs = s.jobs := by
  unfold deletePhoto
  cases result with
  | deleted => rfl
  | error err_str effect => cases effect <;> rfl

/-- The jobs when the status write begins. -/
theorem job_elapse (hunique : KeyUnique OutboxJob.id s.jobs) : (elapse cfg h job_id s).job i =
    if h.removed = true ∧ i = job_id then none else s.job i := by
  unfold elapse Store.job
  cases h.removed with
  | true =>
    show row OutboxJob.id (deleteWhere _ s.jobs) i = _
    rw [row_deleteWhere hunique]
    cases hrow : row OutboxJob.id s.jobs i with
    | none => rw [Option.filter_none, ite_self]
    | some r =>
      rw [Option.filter_some, key_of_row hrow]
      by_cases hi : i = job_id <;> simp [hi]
  | false =>
    show row OutboxJob.id s.jobs i = _
    rw [if_neg fun hc => Bool.false_ne_true hc.1]

/-- The body of the loop changes the row of its job only, by what it meets at that job. -/
theorem job_handleJob (hunique : KeyUnique OutboxJob.id s.jobs) : (handleJob cfg h job s).job i =
    if i = job.id then (s.job i).bind (recordedRow cfg h) else s.job i := by
  have hjobs : (deletePhoto cfg job.storage_key h.result s).jobs = s.jobs := jobs_deletePhoto
  have hjob : (deletePhoto cfg job.storage_key h.result s).job i = s.job i := by
    rw [Store.job, hjobs, Store.job]
  show (recordJobOutcome cfg h job.id (errStr h.result) _).2.job i = _
  rw [job_recordJobOutcome, job_elapse (hjobs ▸ hunique), hjob]
  by_cases hi : i = job.id
  · rw [if_pos hi, if_pos hi]
    cases hrem : h.removed with
    | true =>
      have hnone : recordedRow cfg h = fun _ => none := funext fun r => if_pos hrem
      rw [if_pos ⟨rfl, hi⟩, hnone, Option.map_none, Option.bind_fun_none]
    | false =>
      have hsome : recordedRow cfg h = fun r => some (writtenRow cfg h r) :=
        funext fun r => if_neg (by rw [hrem]; exact Bool.false_ne_true)
      rw [if_neg fun hc => Bool.false_ne_true hc.1, hsome, Option.map_eq_bind]
      rfl
  · rw [if_neg hi, if_neg hi, if_neg fun hc => hi hc.2]

/-- A status write keeps the job ids. -/
theorem ids_recordJobOutcome : (recordJobOutcome cfg h job_id (errStr h.result) s).2.jobs.map
    OutboxJob.id = s.jobs.map OutboxJob.id := by
  cases hdb : h.dbError with
  | true => rw [recordJobOutcome_of_failed (.inl hdb)]
  | false =>
    cases hread : s.job job_id with
    | none => rw [recordJobOutcome_of_failed (.inr hread)]
    | some read =>
      cases hres : h.result with
      | deleted =>
        rw [errStr, recordJobOutcome_success hdb hread]
        exact map_key_updateWhere fun _ => rfl
      | error err_str effect =>
        rw [errStr, recordJobOutcome_failure hdb hread]
        split_ifs
        · exact map_key_updateWhere fun _ => rfl
        · rfl

/-- The body of the loop keeps the job ids, less the one of a job that is removed. -/
theorem ids_handleJob : (handleJob cfg h job s).jobs.map OutboxJob.id =
    (if h.removed then deleteWhere (fun r => r.id = job.id) s.jobs else s.jobs).map
      OutboxJob.id := by
  have hjobs : (deletePhoto cfg job.storage_key h.result s).jobs = s.jobs := jobs_deletePhoto
  show (recordJobOutcome cfg h job.id (errStr h.result) _).2.jobs.map OutboxJob.id = _
  rw [ids_recordJobOutcome, elapse]
  split_ifs
  · show (deleteWhere _ (deletePhoto cfg job.storage_key h.result s).jobs).map OutboxJob.id = _
    rw [hjobs]
  · show (deletePhoto cfg job.storage_key h.result s).jobs.map OutboxJob.id = _
    rw [hjobs]

/-- The body of the loop keeps the job ids unique. -/
theorem keyUnique_handleJob (hunique : KeyUnique OutboxJob.id s.jobs) :
    KeyUnique OutboxJob.id (handleJob cfg h job s).jobs := by
  rw [KeyUnique, ids_handleJob]
  split_ifs
  · exact hunique.deleteWhere _
  · exact hunique

end Job

/-! ## The loop, job by job -/

/-- The jobs that the loop reaches: those before the first one at which it finds `shutdown` set. -/
def reached (handling : Uuid → Handling) (jobs : List ClaimedJob) : List ClaimedJob :=
  jobs.takeWhile fun job => !(handling job.id).shutdown

section Loop

variable {cfg : Settings} {handling : Uuid → Handling} {job : ClaimedJob} {jobs : List ClaimedJob}
  {b : Batch} {i : Uuid}

/-- The loop at a job at which it finds `shutdown` set. -/
theorem deleteJobs_of_shutdown (h : (handling job.id).shutdown = true) :
    deleteJobs cfg handling (job :: jobs) b = b := by
  rw [deleteJobs]
  exact if_pos h

/-- The loop at another job. -/
theorem deleteJobs_of_not_shutdown (h : (handling job.id).shutdown = false) :
    deleteJobs cfg handling (job :: jobs) b = deleteJobs cfg handling jobs
      ⟨handleJob cfg (handling job.id) job b.store, b.processed_jobs + 1,
        b.calls ++ [⟨job, (handling job.id).result⟩]⟩ := by
  rw [deleteJobs]
  exact if_neg (by rw [h]; exact Bool.false_ne_true)

theorem reached_of_shutdown (h : (handling job.id).shutdown = true) :
    reached handling (job :: jobs) = [] :=
  List.takeWhile_cons_of_neg (by rw [h]; exact Bool.false_ne_true)

theorem reached_of_not_shutdown (h : (handling job.id).shutdown = false) :
    reached handling (job :: jobs) = job :: reached handling jobs :=
  List.takeWhile_cons_of_pos (by rw [h]; rfl)

/-- The loop calls `delete_photo` for each job that it reaches, in order. -/
theorem calls_deleteJobs : (deleteJobs cfg handling jobs b).calls =
    b.calls ++ (reached handling jobs).map fun job => ⟨job, (handling job.id).result⟩ := by
  induction jobs generalizing b with
  | nil => exact (List.append_nil _).symm
  | cons job jobs ih =>
    cases h : (handling job.id).shutdown with
    | true =>
      rw [deleteJobs_of_shutdown h, reached_of_shutdown h, List.map_nil, List.append_nil]
    | false =>
      rw [deleteJobs_of_not_shutdown h, reached_of_not_shutdown h, ih, List.map_cons,
        List.append_assoc]
      rfl

/-- The loop counts the jobs that it reaches. -/
theorem processed_deleteJobs : (deleteJobs cfg handling jobs b).processed_jobs =
    b.processed_jobs + (reached handling jobs).length := by
  induction jobs generalizing b with
  | nil => rfl
  | cons job jobs ih =>
    cases h : (handling job.id).shutdown with
    | true => rw [deleteJobs_of_shutdown h, reached_of_shutdown h, List.length_nil, Nat.add_zero]
    | false =>
      rw [deleteJobs_of_not_shutdown h, reached_of_not_shutdown h, ih, List.length_cons]
      show b.processed_jobs + 1 + _ = _
      omega

/-- The loop changes the rows of the jobs that it reaches only, each by what it meets at that job. -/
theorem job_deleteJobs (hjobs : (jobs.map ClaimedJob.id).Nodup)
    (hunique : KeyUnique OutboxJob.id b.store.jobs) :
    (deleteJobs cfg handling jobs b).store.job i =
      if i ∈ (reached handling jobs).map ClaimedJob.id then
        (b.store.job i).bind (recordedRow cfg (handling i))
      else b.store.job i := by
  induction jobs generalizing b with
  | nil => exact (if_neg List.not_mem_nil).symm
  | cons job jobs ih =>
    rw [List.map_cons, List.nodup_cons] at hjobs
    cases h : (handling job.id).shutdown with
    | true =>
      rw [deleteJobs_of_shutdown h, reached_of_shutdown h, List.map_nil, if_neg List.not_mem_nil]
    | false =>
      rw [deleteJobs_of_not_shutdown h, reached_of_not_shutdown h,
        ih hjobs.2 (keyUnique_handleJob hunique), List.map_cons, job_handleJob hunique]
      by_cases hi : i = job.id
      · -- The rest of the loop does not come back to the job.
        have hrest : i ∉ (reached handling jobs).map ClaimedJob.id := fun hmem =>
          hjobs.1 (hi ▸ ((List.takeWhile_sublist _).map ClaimedJob.id).subset hmem)
        rw [if_neg hrest, if_pos hi, if_pos (hi ▸ List.mem_cons_self), hi]
      · have hmem : i ∈ job.id :: (reached handling jobs).map ClaimedJob.id ↔
            i ∈ (reached handling jobs).map ClaimedJob.id := by
          rw [List.mem_cons, or_iff_right hi]
        rw [if_neg hi, if_congr hmem rfl rfl]

end Loop

/-! ## The batch, job by job -/

/-- The jobs that a run claims. -/
def BatchWorld.claimed (cfg : Settings) (w : BatchWorld) (s : Store) : List OutboxJob :=
  w.jobs .delete cfg.job_batch_size s

/-- The state that the commit of the claim leaves. -/
def BatchWorld.afterClaim (cfg : Settings) (w : BatchWorld) (s : Store) : Store :=
  (s.apply cfg 0 (.tick w.now)).apply cfg 0 (.claimJobs w.now (w.claimed cfg s))

/-- The claimed jobs that the loop reaches. -/
def BatchWorld.done (cfg : Settings) (w : BatchWorld) (s : Store) : List OutboxJob :=
  (w.claimed cfg s).takeWhile fun job => !(w.handling job.id).shutdown

section Batch

variable {cfg : Settings} {w : BatchWorld} {s : Store} {job : OutboxJob} {i : Uuid}

/-- A run whose claim fails does nothing. -/
theorem runDeleteBatch_of_claimError (hclaim : w.claimError = true) :
    runDeleteBatch cfg w s = ⟨s, 0, []⟩ := by
  unfold runDeleteBatch claimJobs
  rw [if_pos hclaim]

/-- A run whose claim commits is the loop over the jobs that it claimed. -/
theorem runDeleteBatch_of_claimed (hclaim : w.claimError = false) :
    runDeleteBatch cfg w s = deleteJobs cfg w.handling
      ((w.claimed cfg s).map OutboxJob.toClaimedJob) ⟨w.afterClaim cfg s, 0, []⟩ := by
  unfold runDeleteBatch claimJobs
  rw [hclaim, if_neg Bool.false_ne_true]
  rfl

/-- A claimed job is in the table, and its claim was due. -/
theorem mem_of_claimed (hjob : job ∈ w.claimed cfg s) :
    job ∈ s.jobs ∧ job.claimable .delete w.now = true := by
  have hrow := List.mem_of_mem_filter (List.mem_of_mem_take hjob)
  exact List.mem_filter.1 ((w.order.perm _).mem_iff.1 hrow)

/-- The claimed jobs are distinct. -/
theorem nodup_claimed (hunique : KeyUnique OutboxJob.id s.jobs) :
    ((w.claimed cfg s).map OutboxJob.id).Nodup := by
  have hrows : KeyUnique OutboxJob.id
      (w.order.sort (s.jobs.filter (OutboxJob.claimable .delete w.now))) :=
    w.order.selects.keyUnique hunique
  have hsub : (w.claimed cfg s).Sublist
      (w.order.sort (s.jobs.filter (OutboxJob.claimable .delete w.now))) :=
    (List.take_sublist _ _).trans List.filter_sublist
  exact hrows.sublist (hsub.map OutboxJob.id)

/-- The rows after the claim. -/
theorem job_afterClaim : (w.afterClaim cfg s).job i = (s.job i).map fun r =>
    if r.id ∈ (w.claimed cfg s).map OutboxJob.id then r.claim cfg w.now else r :=
  Store.job_claimJobs

/-- The claim leaves each job that it returns claimed. -/
theorem job_afterClaim_of_mem (hunique : KeyUnique OutboxJob.id s.jobs)
    (hjob : job ∈ w.claimed cfg s) :
    (w.afterClaim cfg s).job job.id = some (job.claim cfg w.now) := by
  have hrow : s.job job.id = some job := row_of_mem hunique (mem_of_claimed hjob).1
  rw [job_afterClaim, hrow, Option.map_some, if_pos (List.mem_map_of_mem hjob)]

/-- The claim leaves the other jobs as they are. -/
theorem job_afterClaim_of_not_mem (hi : i ∉ (w.claimed cfg s).map OutboxJob.id) :
    (w.afterClaim cfg s).job i = s.job i := by
  rw [job_afterClaim]
  cases hrow : s.job i with
  | none => rfl
  | some r =>
    have hid : r.id = i := key_of_row hrow
    rw [Option.map_some, if_neg (hid ▸ hi)]

/-- The claim keeps the job ids. -/
theorem ids_afterClaim : (w.afterClaim cfg s).jobs.map OutboxJob.id = s.jobs.map OutboxJob.id :=
  map_key_updateWhere fun _ => rfl

/-- The claim keeps the job ids unique. -/
theorem keyUnique_afterClaim (hunique : KeyUnique OutboxJob.id s.jobs) :
    KeyUnique OutboxJob.id (w.afterClaim cfg s).jobs := by
  rwa [KeyUnique, ids_afterClaim]

/-- The loop reaches the jobs of `done`. -/
theorem reached_claimed : reached w.handling ((w.claimed cfg s).map OutboxJob.toClaimedJob) =
    (w.done cfg s).map OutboxJob.toClaimedJob :=
  List.takeWhile_map

/-- The jobs that the loop reaches are claimed. -/
theorem claimed_of_done (hjob : job ∈ w.done cfg s) : job ∈ w.claimed cfg s :=
  (List.takeWhile_sublist _).subset hjob

/-- The rows after a run whose claim commits. -/
theorem job_runDeleteBatch (hunique : KeyUnique OutboxJob.id s.jobs) (hclaim : w.claimError = false) :
    (runDeleteBatch cfg w s).store.job i = if i ∈ (w.done cfg s).map OutboxJob.id then
      ((w.afterClaim cfg s).job i).bind (recordedRow cfg (w.handling i))
    else (w.afterClaim cfg s).job i := by
  have hnodup : (((w.claimed cfg s).map OutboxJob.toClaimedJob).map ClaimedJob.id).Nodup := by
    rw [List.map_map]
    exact nodup_claimed hunique
  have hids : (reached w.handling ((w.claimed cfg s).map OutboxJob.toClaimedJob)).map
      ClaimedJob.id = (w.done cfg s).map OutboxJob.id := by
    rw [reached_claimed, List.map_map]
    rfl
  rw [runDeleteBatch_of_claimed hclaim, job_deleteJobs hnodup (keyUnique_afterClaim hunique), hids]

/-- The row of a job that the loop reaches. -/
theorem job_of_done (hunique : KeyUnique OutboxJob.id s.jobs) (hclaim : w.claimError = false)
    (hjob : job ∈ w.done cfg s) : (runDeleteBatch cfg w s).store.job job.id =
      recordedRow cfg (w.handling job.id) (job.claim cfg w.now) := by
  rw [job_runDeleteBatch hunique hclaim, if_pos (List.mem_map_of_mem hjob),
    job_afterClaim_of_mem hunique (claimed_of_done hjob), Option.bind_some]

/-- The calls of a run whose claim commits. -/
theorem calls_runDeleteBatch (hclaim : w.claimError = false) : (runDeleteBatch cfg w s).calls =
    (w.done cfg s).map fun job => ⟨job.toClaimedJob, (w.handling job.id).result⟩ := by
  rw [runDeleteBatch_of_claimed hclaim, calls_deleteJobs, reached_claimed, List.map_map]
  rfl

/-- The count of a run whose claim commits. -/
theorem processed_runDeleteBatch (hclaim : w.claimError = false) :
    (runDeleteBatch cfg w s).processed_jobs = (w.done cfg s).length := by
  rw [runDeleteBatch_of_claimed hclaim, processed_deleteJobs, reached_claimed, List.length_map,
    Nat.zero_add]

end Batch

end CraneTracker.PhotoJobs
