import CraneTracker.Pipeline.Invariant
import CraneTracker.Worker.Reaper

/-!
# The runs of a worker are runs of the pipeline

`runDeleteBatch` and `runReapCranePhotos` are functions of the state. `Pipeline/System.lean` has the same
code as steps of a process. What a function leaves is what the process leaves when it takes its steps
alone (`solo_runReapCranePhotos`, `solo_runDeleteBatch`). So the state that a run leaves is one that the
pipeline reaches, and what holds of all of these holds of it.

Other transactions may be open. Their locks are those that the worker skips, and the photos of its jobs
are not among them.
-/

namespace CraneTracker.PhotoJobs

open Interleaving Pipeline Table

/-! ## A worker by itself -/

/-- The state `c` with the shared state `db` and the worker `p` at `w`. -/
def withWorker (c : State) (p : ℕ) (db : Db) (w : Worker) : State :=
  ⟨db, Function.update c.procs p (.worker w)⟩

/-- The process `p` has no transaction open. -/
structure NoLocks (p : ℕ) (l : RowLocks) : Prop where
  crane : ∀ i, l.crane i ≠ some p
  photo : ∀ i, l.photo i ≠ some p
  job : ∀ i, l.job i ≠ some p

theorem NoLocks.release_eq {p : ℕ} {l : RowLocks} {photo job : Locks Uuid} (hl : NoLocks p l)
    (hphoto : photo.release p = l.photo) (hjob : job.release p = l.job) :
    RowLocks.release ⟨l.crane, photo, job⟩ p = l := by
  rw [RowLocks.release, Locks.release_self hl.crane, hphoto, hjob]

section Steps

variable {cfg : Settings} {c : State} {p : ℕ} {db : Db} {w : Worker} {l : RowLocks} {s : Store}
  {now : Timestamp}

theorem withWorker_self (h : c.procs p = .worker w) : withWorker c p c.shared w = c := by
  unfold withWorker
  rw [← h, Function.update_eq_self]

/-- A step after which the process is a worker still. -/
theorem solo_step {a : Action} {write : Write} {l' : RowLocks} {w' : Worker}
    (h : (Proc.worker w).step cfg p ⟨s, l⟩ a = some ⟨write, l', .worker w'⟩) :
    (system cfg).Solo p (withWorker c p ⟨s, l⟩ w) (withWorker c p ⟨s.apply cfg p write, l'⟩ w') := by
  have hproc : (withWorker c p ⟨s, l⟩ w).procs p = .worker w := Function.update_self _ _ _
  have hstep : (system cfg).step p a (withWorker c p ⟨s, l⟩ w).shared
      ((withWorker c p ⟨s, l⟩ w).procs p) = some (⟨s.apply cfg p write, l'⟩, .worker w') := by
    rw [hproc]
    show ((Proc.worker w).step cfg p ⟨s, l⟩ a).map _ = _
    rw [h]
    rfl
  have hprocs : Function.update (withWorker c p ⟨s, l⟩ w).procs p (.worker w') =
      Function.update c.procs p (.worker w') := Function.update_idem _ _ _
  have hsolo := System.Solo.step hstep
  rwa [hprocs] at hsolo

/-- A step of the worker. -/
theorem solo_worker {a : WorkerAction} {write : Write} {l' : RowLocks} {w' : Worker}
    (h : w.step cfg p ⟨s, l⟩ a = some ⟨write, l', w'⟩) :
    (system cfg).Solo p (withWorker c p ⟨s, l⟩ w) (withWorker c p ⟨s.apply cfg p write, l'⟩ w') := by
  refine solo_step (a := .worker a) ?_
  show (w.step cfg p ⟨s, l⟩ a).map (Outcome.map Proc.worker) = _
  rw [h]
  rfl

/-- The clock goes on while the worker stays where it is. -/
theorem solo_tick (h : s.clock ≤ now) : (system cfg).Solo p (withWorker c p ⟨s, l⟩ w)
    (withWorker c p ⟨s.apply cfg p (.tick now), l⟩ w) :=
  solo_step (a := .tick now) (if_pos h)

end Steps

/-! ## The two queries -/

section Queries

variable {cfg : Settings} {c : State} {p : ℕ} {l : RowLocks} {s : Store} {now : Timestamp}
  {next : List Uuid}

/-- A locking query, from where it stands to its end. Its step `a` takes a row or skips one. -/
theorem solo_scan {ρ : Type} {key : ρ → Uuid} {cond : ρ → Bool} {t : List ρ}
    (query : List Uuid → List ρ → Worker) (locks : Locks Uuid → RowLocks) (a : WorkerAction)
    (htake : ∀ {k id next rows r}, rows.length < cfg.job_batch_size →
      k.lockNext p key cond (row key t id) = some r →
      (query (id :: next) rows).step cfg p ⟨s, locks k⟩ a =
        some ⟨.none, locks (k.acquire p [id]), query next (rows ++ [r])⟩)
    (hskip : ∀ {k id next rows}, rows.length < cfg.job_batch_size →
      k.lockNext p key cond (row key t id) = none →
      (query (id :: next) rows).step cfg p ⟨s, locks k⟩ a =
        some ⟨.none, locks k, query next rows⟩)
    {k : Locks Uuid} {rows : List ρ} {x : Locks Uuid × List Uuid × List ρ}
    (hx : Locks.scan cfg.job_batch_size p key cond t next k rows = x) :
    (system cfg).Solo p (withWorker c p ⟨s, locks k⟩ (query next rows))
      (withWorker c p ⟨s, locks x.1⟩ (query x.2.1 x.2.2)) := by
  induction next generalizing k rows with
  | nil =>
    obtain rfl := hx
    exact .refl _
  | cons id next ih =>
    unfold Locks.scan at hx
    by_cases hlimit : rows.length < cfg.job_batch_size
    · rw [if_pos hlimit] at hx
      cases hnext : k.lockNext p key cond (row key t id) with
      | none =>
        rw [hnext] at hx
        exact (solo_worker (hskip hlimit hnext)).trans (ih hx)
      | some r =>
        rw [hnext] at hx
        exact (solo_worker (htake hlimit hnext)).trans (ih hx)
    · rw [if_neg hlimit] at hx
      obtain rfl := hx
      exact .refl _

/-- The locking query of `claim_jobs`. -/
theorem solo_scanJobs {jobs : List OutboxJob} {x : Locks Uuid × List Uuid × List OutboxJob}
    (hx : Locks.scan cfg.job_batch_size p OutboxJob.id (OutboxJob.claimable .delete now) s.jobs next
      l.job jobs = x) :
    (system cfg).Solo p (withWorker c p ⟨s, l⟩ (.claimScan now next jobs))
      (withWorker c p ⟨s, { l with job := x.1 }⟩ (.claimScan now x.2.1 x.2.2)) := by
  refine solo_scan (.claimScan now) (fun k => { l with job := k }) .lockNextJob ?_ ?_ hx
  · intro k id next jobs job hlimit hnext
    unfold Worker.step
    dsimp only
    rw [if_pos hlimit, Store.job, hnext]
    rfl
  · intro k id next jobs hlimit hnext
    unfold Worker.step
    dsimp only
    rw [if_pos hlimit, Store.job, hnext]

/-- The locking query of `run_reap_crane_photos`. -/
theorem solo_scanPhotos {photos : List CranePhoto} {x : Locks Uuid × List Uuid × List CranePhoto}
    (hx : Locks.scan cfg.job_batch_size p CranePhoto.id (CranePhoto.reapable cfg now) s.photos next
      l.photo photos = x) :
    (system cfg).Solo p (withWorker c p ⟨s, l⟩ (.reapScan now next photos))
      (withWorker c p ⟨s, { l with photo := x.1 }⟩ (.reapScan now x.2.1 x.2.2)) := by
  refine solo_scan (.reapScan now) (fun k => { l with photo := k }) .lockNextPhoto ?_ ?_ hx
  · intro k id next photos photo hlimit hnext
    unfold Worker.step
    dsimp only
    rw [if_pos hlimit, Store.photo, hnext]
    rfl
  · intro k id next photos hlimit hnext
    unfold Worker.step
    dsimp only
    rw [if_pos hlimit, Store.photo, hnext]

end Queries

/-! ## The reaper -/

section Reaper

variable {cfg : Settings} {c : State} {p k : ℕ} {l : RowLocks} {s s' : Store} {w : ReapWorld}
  {photos : List CranePhoto}

/-- The ids of the jobs that the loop has inserted were new, and they are distinct. -/
theorem new_of_createDeleteCraneJobs (h : createDeleteCraneJobs cfg w k photos s = some s') :
    (w.idsFrom k photos.length).Nodup ∧ ∀ i ∈ w.idsFrom k photos.length, s.job i = none := by
  induction photos generalizing k s with
  | nil => exact ⟨List.nodup_nil, nofun⟩
  | cons photo photos ih =>
    obtain ⟨s₁, hs₁, hrest⟩ := Option.bind_eq_some_iff.1 h
    unfold createDeleteCraneJob at hs₁
    split_ifs at hs₁ with hfails
    obtain rfl := Option.some.inj hs₁
    obtain ⟨hnodup, hnew⟩ := ih hrest
    have hnone : s.job (w.job_ids k) = none := by
      rw [Bool.or_eq_true, not_or] at hfails
      exact Option.not_isSome_iff_eq_none.1 hfails.2
    -- A lookup that finds nothing after the insertion is not for the id of the new job.
    have hsplit : ∀ i ∈ w.idsFrom (k + 1) photos.length, s.job i = none ∧ w.job_ids k ≠ i := by
      intro i hi
      have hi' : row OutboxJob.id
          (s.jobs ++ [createTask w.now (w.job_ids k) .delete photo.storage_key]) i = none := hnew i hi
      rw [row_append, Option.or_eq_none_iff] at hi'
      exact ⟨hi'.1, row_eq_none.1 hi'.2 _ (List.mem_singleton_self _)⟩
    show (w.job_ids k :: w.idsFrom (k + 1) photos.length).Nodup ∧
      ∀ i ∈ w.job_ids k :: w.idsFrom (k + 1) photos.length, s.job i = none
    refine ⟨List.nodup_cons.2 ⟨fun hmem => (hsplit _ hmem).2 rfl, hnodup⟩, fun i hi => ?_⟩
    rcases List.mem_cons.1 hi with rfl | hi
    · exact hnone
    · exact (hsplit i hi).1

/-- A run of `run_reap_crane_photos` takes the steps of a worker, one after the other. -/
theorem solo_runReapCranePhotos (hl : NoLocks p l)
    (hlocked : ∀ i, w.locked.contains i = (l.photo i).isSome)
    (hunique : KeyUnique CranePhoto.id s.photos) (hnow : s.clock ≤ w.now) :
    (system cfg).Solo p (withWorker c p ⟨s, l⟩ .idle) (withWorker c p
      ⟨(runReapCranePhotos cfg w s).2.apply cfg p (.tick w.now), l⟩ .idle) := by
  unfold runReapCranePhotos
  cases hrun : reapTransaction cfg w s with
  | none => exact solo_tick hnow
  | some r =>
    obtain ⟨n, s'⟩ := r
    obtain ⟨-, hloop⟩ := loop_of_reapTransaction hrun
    obtain ⟨hnodup, hnew⟩ := new_of_createDeleteCraneJobs hloop
    obtain ⟨hfree, next, hend, hscan⟩ := Locks.scan_orderBy w.order cfg.job_batch_size hl.photo hunique
      hlocked (Eq.refl (w.photos cfg s))
    have hselect : (Worker.reap w.now).step cfg p ⟨s.apply cfg p (.tick w.now), l⟩
        (.selectPhotos (w.order.sort (s.photos.filter (CranePhoto.reapable cfg w.now)))) =
          some ⟨.none, l, .reapScan w.now ((w.order.sort (s.photos.filter
            (CranePhoto.reapable cfg w.now))).map CranePhoto.id) []⟩ :=
      if_pos w.order.selects
    have hlength : (w.idsFrom 0 (w.photos cfg s).length).length = (w.photos cfg s).length := by
      rw [ReapWorld.idsFrom, List.length_map, List.length_range']
    have hcommit : (Worker.reapScan w.now next (w.photos cfg s)).step cfg p
        ⟨s.apply cfg p (.tick w.now),
          { l with photo := l.photo.acquire p ((w.photos cfg s).map CranePhoto.id) }⟩
        (.reapCommit (w.idsFrom 0 (w.photos cfg s).length)) = some
          ⟨.createDeleteCraneJobs .runReapCranePhotos w.now
            ((w.photos cfg s).zip (w.idsFrom 0 (w.photos cfg s).length)),
            RowLocks.release ⟨l.crane, l.photo.acquire p ((w.photos cfg s).map CranePhoto.id), l.job⟩ p,
            .idle⟩ := by
      refine if_pos ⟨hend, hlength, hnodup, List.all_eq_true.2 fun i hi => ?_⟩
      exact decide_eq_true (hnew i hi)
    rw [hl.release_eq (Locks.release_acquire hl.photo hfree) (Locks.release_self hl.job)] at hcommit
    have hbegin : Worker.idle.step cfg p ⟨s.apply cfg p (.tick w.now), l⟩ .beginReap =
        some ⟨.none, l, .reap w.now⟩ := rfl
    -- The clock is not in the way of the query.
    change Locks.scan _ p _ _ (s.apply cfg p (.tick w.now)).photos _ l.photo _ = _ at hscan
    have hquery : (system cfg).Solo p
        (withWorker c p ⟨s.apply cfg p (.tick w.now), l⟩
          (.reapScan w.now ((w.order.sort (s.photos.filter
            (CranePhoto.reapable cfg w.now))).map CranePhoto.id) []))
        (withWorker c p ⟨s.apply cfg p (.tick w.now),
          { l with photo := l.photo.acquire p ((w.photos cfg s).map CranePhoto.id) }⟩
          (.reapScan w.now next (w.photos cfg s))) := solo_scanPhotos hscan
    rw [createDeleteCraneJobs_eq hloop]
    exact (solo_tick hnow).trans ((solo_worker hbegin).trans ((solo_worker hselect).trans
      (hquery.trans (solo_worker hcommit))))

end Reaper

/-! ## The delete batch -/

section Batch

variable {cfg : Settings} {c : State} {p : ℕ} {l : RowLocks} {s : Store} {h : Handling}
  {job : ClaimedJob} {rest : List ClaimedJob} {read : OutboxJob}

/-- A worker whose call of `delete_photo` has ended. -/
def recording (result : DeleteResult) (job : ClaimedJob) (rest : List ClaimedJob) : Worker :=
  match result with
  | .deleted => .deleted job rest
  | .error err_str _ => .deleteFailed job err_str rest

/-- The call of `delete_photo`. -/
theorem solo_deletePhoto : (system cfg).Solo p (withWorker c p ⟨s, l⟩ (.batch (job :: rest)))
    (withWorker c p ⟨deletePhoto cfg job.storage_key h.result s, l⟩
      (recording h.result job rest)) := by
  have hnext : (Worker.batch (job :: rest)).step cfg p ⟨s, l⟩ .nextJob =
      some ⟨.none, l, .delete job rest⟩ := rfl
  refine (solo_worker hnext).trans ?_
  cases h.result with
  | deleted =>
    have hdelete : (Worker.delete job rest).step cfg p ⟨s, l⟩ (.delete .deleted) =
        some ⟨.deleteObject job.storage_key, l, .deleted job rest⟩ := rfl
    exact solo_worker hdelete
  | error err_str effect =>
    have hdelete : (Worker.delete job rest).step cfg p ⟨s, l⟩ (.delete (.error err_str effect)) =
        some ⟨if effect then .deleteObject job.storage_key else .none, l,
          .deleteFailed job err_str rest⟩ := rfl
    have hstore : deletePhoto cfg job.storage_key (.error err_str effect) s =
        s.apply cfg p (if effect then .deleteObject job.storage_key else .none) := by
      cases effect <;> rfl
    rw [hstore]
    exact solo_worker hdelete

/-- The value that `calculate_backoff` returns is one that the step can take. -/
theorem backoffInRange_calculateBackoff {attempts : ℕ} {uniform : Uniform} :
    backoffInRange cfg attempts (calculateBackoff cfg attempts uniform) = true := by
  have hmem := uniform.mem
    (min cfg.max_backoff_delay (cfg.min_backoff_delay * 2 ^ attempts) * 1000)
  unfold backoffInRange calculateBackoff
  rw [Bool.and_eq_true, decide_eq_true_eq, decide_eq_true_eq]
  exact hmem

/-- A database error in a status write takes the worker back to the loop. -/
theorem solo_dbError {w : Worker} (hl : NoLocks p l)
    (hw : w.step cfg p ⟨s, l⟩ .dbError = some ⟨.none, l.release p, .batch rest⟩) :
    (system cfg).Solo p (withWorker c p ⟨s, l⟩ w) (withWorker c p ⟨s, l⟩ (.batch rest)) := by
  have hrelease : l.release p = l :=
    hl.release_eq (Locks.release_self hl.photo) (Locks.release_self hl.job)
  rw [hrelease] at hw
  exact solo_worker hw

/-- `capture_success`, from its `SELECT` to its commit. -/
theorem solo_captureSuccess (hl : NoLocks p l) (hphoto : ∀ i, l.photo i = none)
    (hjob : l.job job.id = none) (hread : s.job job.id = some read) :
    (system cfg).Solo p (withWorker c p ⟨s, l⟩ (.deleted job rest)) (withWorker c p
      ⟨s.apply cfg p (.captureSuccess s.clock read
        ((s.photos.filter fun r => r.storage_key = read.storage_key).map CranePhoto.id)), l⟩
      (.batch rest)) := by
  have hid : read.id = job.id := key_of_row hread
  rw [← hid] at hjob hread
  have hselect : (Worker.deleted job rest).step cfg p ⟨s, l⟩ (.captureSelect 0) =
      some ⟨.none, l, .successFlush s.clock read rest⟩ := by
    unfold Worker.step
    dsimp only
    rw [← hid, hread]
  have hflush : (Worker.successFlush s.clock read rest).step cfg p ⟨s, l⟩ .captureFlush =
      some ⟨.none, l.lockJobs p [read.id], .successDelete s.clock read rest⟩ := by
    refine if_pos ?_
    rw [hread, Locks.available, hjob]
    rfl
  let photo_ids := (s.photos.filter fun r => r.storage_key = read.storage_key).map CranePhoto.id
  have hdelete : (Worker.successDelete s.clock read rest).step cfg p ⟨s, l.lockJobs p [read.id]⟩
      .deletePhotos = some ⟨.none, (l.lockJobs p [read.id]).lockPhotos p photo_ids,
        .successCommit s.clock read photo_ids rest⟩ := by
    refine if_pos (List.all_eq_true.2 fun i _ => ?_)
    show Locks.available l.photo p i = true
    rw [Locks.available, hphoto]
    rfl
  have hrelease : ((l.lockJobs p [read.id]).lockPhotos p photo_ids).release p = l :=
    hl.release_eq (Locks.release_acquire hl.photo fun i _ => hphoto i)
      (Locks.release_acquire hl.job fun i hi => by rwa [List.mem_singleton.1 hi])
  have hcommit : (Worker.successCommit s.clock read photo_ids rest).step cfg p
      ⟨s, (l.lockJobs p [read.id]).lockPhotos p photo_ids⟩ .captureCommit =
        some ⟨.captureSuccess s.clock read photo_ids, l, .batch rest⟩ := by
    conv_rhs => rw [← hrelease]
    rfl
  exact (solo_worker hselect).trans ((solo_worker hflush).trans ((solo_worker hdelete).trans
    (solo_worker hcommit)))

/-- `capture_failure`, from its `SELECT` to its commit. -/
theorem solo_captureFailure {err_str : String} (hl : NoLocks p l) (hjob : l.job job.id = none)
    (hread : s.job job.id = some read) (hfits : fitsVarchar lastErrorWidth err_str = true) :
    (system cfg).Solo p (withWorker c p ⟨s, l⟩ (.deleteFailed job err_str rest)) (withWorker c p
      ⟨s.apply cfg p (.captureFailure s.clock (calculateBackoff cfg read.attempts h.uniform) err_str
        read), l⟩ (.batch rest)) := by
  have hid : read.id = job.id := key_of_row hread
  rw [← hid] at hjob hread
  have hselect : (Worker.deleteFailed job err_str rest).step cfg p ⟨s, l⟩
      (.captureSelect (calculateBackoff cfg read.attempts h.uniform)) = some ⟨.none, l,
        .failureFlush s.clock (calculateBackoff cfg read.attempts h.uniform) err_str read rest⟩ := by
    unfold Worker.step
    dsimp only
    rw [← hid, hread]
    exact if_pos backoffInRange_calculateBackoff
  have hflush : (Worker.failureFlush s.clock (calculateBackoff cfg read.attempts h.uniform) err_str
      read rest).step cfg p ⟨s, l⟩ .captureFlush = some ⟨.none, l.lockJobs p [read.id],
        .failureCommit s.clock (calculateBackoff cfg read.attempts h.uniform) err_str read rest⟩ := by
    refine (if_pos hfits).trans (if_pos ?_)
    rw [hread, Locks.available, hjob]
    rfl
  have hrelease : (l.lockJobs p [read.id]).release p = l :=
    hl.release_eq (Locks.release_self hl.photo)
      (Locks.release_acquire hl.job fun i hi => by rwa [List.mem_singleton.1 hi])
  have hcommit : (Worker.failureCommit s.clock (calculateBackoff cfg read.attempts h.uniform) err_str
      read rest).step cfg p ⟨s, l.lockJobs p [read.id]⟩ .captureCommit =
        some ⟨.captureFailure s.clock (calculateBackoff cfg read.attempts h.uniform) err_str read, l,
          .batch rest⟩ := by
    conv_rhs => rw [← hrelease]
    rfl
  exact (solo_worker hselect).trans ((solo_worker hflush).trans (solo_worker hcommit))

/-- `_record_job_outcome`. -/
theorem solo_recordJobOutcome (hl : NoLocks p l) (hphoto : ∀ i, l.photo i = none)
    (hjob : l.job job.id = none) (hclock : s.clock = h.now) (hread : s.job job.id = some read) :
    (system cfg).Solo p (withWorker c p ⟨s, l⟩ (recording h.result job rest))
      (withWorker c p ⟨(recordJobOutcome cfg h job.id (errStr h.result) s).2, l⟩ (.batch rest)) := by
  cases hdb : h.dbError with
  | true =>
    rw [recordJobOutcome_of_failed (.inl hdb)]
    cases h.result <;> exact solo_dbError hl rfl
  | false =>
    cases h.result with
    | deleted =>
      rw [errStr, recordJobOutcome_success hdb hread, ← hclock]
      exact solo_captureSuccess hl hphoto hjob hread
    | error err_str effect =>
      rw [errStr, recordJobOutcome_failure hdb hread, ← hclock]
      split_ifs with hfits
      · exact solo_captureFailure hl hjob hread hfits
      · -- The database rejects the text.
        exact solo_dbError hl rfl

/-- `_record_job_outcome` leaves the clock as it is. -/
theorem clock_recordJobOutcome {err_str : Option String} :
    (recordJobOutcome cfg h job.id err_str s).2.clock = s.clock := by
  cases hdb : h.dbError with
  | true => rw [recordJobOutcome_of_failed (.inl hdb)]
  | false =>
    cases hread : s.job job.id with
    | none => rw [recordJobOutcome_of_failed (.inr hread)]
    | some read =>
      cases err_str with
      | none =>
        rw [recordJobOutcome_success hdb hread]
        rfl
      | some err_str =>
        rw [recordJobOutcome_failure hdb hread]
        split_ifs <;> rfl

/-- The body of the loop. -/
theorem solo_handleJob (hl : NoLocks p l) (hphoto : ∀ i, l.photo i = none)
    (hjob : l.job job.id = none) (hnow : s.clock ≤ h.now) (hrem : h.removed = false)
    (hid : job.id ∈ s.jobs.map OutboxJob.id) :
    (system cfg).Solo p (withWorker c p ⟨s, l⟩ (.batch (job :: rest)))
      (withWorker c p ⟨handleJob cfg h job s, l⟩ (.batch rest)) := by
  let s₁ := deletePhoto cfg job.storage_key h.result s
  have hclock : s₁.clock = s.clock := by
    show (deletePhoto cfg job.storage_key h.result s).clock = _
    unfold deletePhoto
    cases h.result with
    | deleted => rfl
    | error err_str effect => cases effect <;> rfl
  have helapse : elapse cfg h job.id s₁ = s₁.apply cfg p (.tick h.now) := by
    unfold elapse
    rw [hrem]
    rfl
  obtain ⟨read, hread⟩ : ∃ read, (s₁.apply cfg p (.tick h.now)).job job.id = some read := by
    have hjobs : s₁.jobs = s.jobs := jobs_deletePhoto
    exact exists_row (hjobs ▸ hid)
  show (system cfg).Solo p _ (withWorker c p
    ⟨(recordJobOutcome cfg h job.id (errStr h.result) (elapse cfg h job.id s₁)).2, l⟩ (.batch rest))
  rw [helapse]
  exact solo_deletePhoto.trans ((solo_tick (hclock ▸ hnow)).trans
    (solo_recordJobOutcome hl hphoto hjob rfl hread))

/-- The loop. -/
theorem solo_deleteJobs {handling : Uuid → Handling} {jobs : List ClaimedJob} {b : Batch}
    (hl : NoLocks p l) (hphoto : ∀ i, l.photo i = none) (hjobs : ∀ job ∈ jobs, l.job job.id = none)
    (hnow : (b.store.clock :: jobs.map fun job => (handling job.id).now).IsChain (· ≤ ·))
    (hrem : ∀ i, (handling i).removed = false)
    (hids : ∀ job ∈ jobs, job.id ∈ b.store.jobs.map OutboxJob.id) :
    (system cfg).Solo p (withWorker c p ⟨b.store, l⟩ (.batch jobs))
      (withWorker c p ⟨(deleteJobs cfg handling jobs b).store, l⟩ .idle) := by
  induction jobs generalizing b with
  | nil =>
    have hend : (Worker.batch []).step cfg p ⟨b.store, l⟩ .nextJob = some ⟨.none, l, .idle⟩ := rfl
    exact solo_worker hend
  | cons job jobs ih =>
    cases hshutdown : (handling job.id).shutdown with
    | true =>
      have hend : (Worker.batch (job :: jobs)).step cfg p ⟨b.store, l⟩ .shutdown =
          some ⟨.none, l, .idle⟩ := rfl
      rw [deleteJobs_of_shutdown hshutdown]
      exact solo_worker hend
    | false =>
      rw [List.map_cons, List.isChain_cons_cons] at hnow
      have hclock : (handleJob cfg (handling job.id) job b.store).clock = (handling job.id).now := by
        show (recordJobOutcome cfg _ job.id _ _).2.clock = _
        rw [clock_recordJobOutcome, elapse, hrem]
        rfl
      have hkeep : (handleJob cfg (handling job.id) job b.store).jobs.map OutboxJob.id =
          b.store.jobs.map OutboxJob.id := by
        rw [ids_handleJob, hrem, if_neg Bool.false_ne_true]
      rw [deleteJobs_of_not_shutdown hshutdown]
      refine (solo_handleJob hl hphoto (hjobs job List.mem_cons_self) hnow.1 (hrem _)
        (hids job List.mem_cons_self)).trans ?_
      refine ih (b := ⟨handleJob cfg (handling job.id) job b.store, _, _⟩) ?_ ?_ ?_
      · exact fun job' hjob' => hjobs job' (List.mem_cons_of_mem _ hjob')
      · rw [hclock]
        exact hnow.2
      · intro job' hjob'
        rw [hkeep]
        exact hids job' (List.mem_cons_of_mem _ hjob')

/-- `claim_jobs`, from its query to its commit. It takes rows that nobody has locked. -/
theorem solo_claimJobs {w : BatchWorld} (hl : NoLocks p l)
    (hlocked : ∀ i, w.locked.contains i = (l.job i).isSome)
    (hunique : KeyUnique OutboxJob.id s.jobs) (hnow : s.clock ≤ w.now) :
    (∀ i ∈ (w.claimed cfg s).map OutboxJob.id, l.job i = none) ∧
      (system cfg).Solo p (withWorker c p ⟨s, l⟩ .idle) (withWorker c p ⟨w.afterClaim cfg s, l⟩
        (.batch ((w.claimed cfg s).map OutboxJob.toClaimedJob))) := by
  obtain ⟨hfree, next, hend, hscan⟩ := Locks.scan_orderBy w.order cfg.job_batch_size hl.job hunique
    hlocked (Eq.refl (w.claimed cfg s))
  have hbegin : Worker.idle.step cfg p ⟨s.apply cfg p (.tick w.now), l⟩ .beginClaim =
      some ⟨.none, l, .claim w.now⟩ := rfl
  have hselect : (Worker.claim w.now).step cfg p ⟨s.apply cfg p (.tick w.now), l⟩
      (.selectJobs (w.order.sort (s.jobs.filter (OutboxJob.claimable .delete w.now)))) =
        some ⟨.none, l, .claimScan w.now ((w.order.sort (s.jobs.filter
          (OutboxJob.claimable .delete w.now))).map OutboxJob.id) []⟩ :=
    if_pos w.order.selects
  -- The clock is not in the way of the query.
  change Locks.scan _ p _ _ (s.apply cfg p (.tick w.now)).jobs _ l.job _ = _ at hscan
  have hquery : (system cfg).Solo p
      (withWorker c p ⟨s.apply cfg p (.tick w.now), l⟩
        (.claimScan w.now ((w.order.sort (s.jobs.filter
          (OutboxJob.claimable .delete w.now))).map OutboxJob.id) []))
      (withWorker c p ⟨s.apply cfg p (.tick w.now),
        { l with job := l.job.acquire p ((w.claimed cfg s).map OutboxJob.id) }⟩
        (.claimScan w.now next (w.claimed cfg s))) := solo_scanJobs hscan
  have hrelease : RowLocks.release
      ⟨l.crane, l.photo, l.job.acquire p ((w.claimed cfg s).map OutboxJob.id)⟩ p = l :=
    hl.release_eq (Locks.release_self hl.photo) (Locks.release_acquire hl.job hfree)
  have hcommit : (Worker.claimScan w.now next (w.claimed cfg s)).step cfg p
      ⟨s.apply cfg p (.tick w.now),
        { l with job := l.job.acquire p ((w.claimed cfg s).map OutboxJob.id) }⟩ .claimCommit =
      some ⟨.claimJobs w.now (w.claimed cfg s), l,
        .batch ((w.claimed cfg s).map OutboxJob.toClaimedJob)⟩ := by
    conv_rhs => rw [← hrelease]
    exact if_pos hend
  exact ⟨hfree, (solo_tick hnow).trans ((solo_worker hbegin).trans ((solo_worker hselect).trans
    (hquery.trans (solo_worker hcommit))))⟩

/-- A run of `run_delete_batch` takes the steps of a worker, one after the other. -/
theorem solo_runDeleteBatch {w : BatchWorld} (hl : NoLocks p l) (hphoto : ∀ i, l.photo i = none)
    (hlocked : ∀ i, w.locked.contains i = (l.job i).isSome)
    (hunique : KeyUnique OutboxJob.id s.jobs) (hrem : ∀ i, (w.handling i).removed = false)
    (hnow : (s.clock :: w.now :: (w.claimed cfg s).map fun job => (w.handling job.id).now).IsChain
      (· ≤ ·)) :
    (system cfg).Solo p (withWorker c p ⟨s, l⟩ .idle)
      (withWorker c p ⟨(runDeleteBatch cfg w s).store, l⟩ .idle) := by
  cases hclaim : w.claimError with
  | true =>
    rw [runDeleteBatch_of_claimError hclaim]
    exact .refl _
  | false =>
    obtain ⟨hbegun, hloop⟩ := List.isChain_cons_cons.1 hnow
    obtain ⟨hfree, hclaimed⟩ := solo_claimJobs hl hlocked hunique hbegun
    rw [runDeleteBatch_of_claimed hclaim]
    refine hclaimed.trans (solo_deleteJobs (b := ⟨w.afterClaim cfg s, 0, []⟩) hl hphoto ?_ ?_ hrem ?_)
    · intro job hjob
      obtain ⟨row, hrow, rfl⟩ := List.mem_map.1 hjob
      exact hfree row.id (List.mem_map_of_mem hrow)
    · rw [List.map_map]
      exact hloop
    · intro job hjob
      obtain ⟨row, hrow, rfl⟩ := List.mem_map.1 hjob
      rw [ids_afterClaim]
      exact List.mem_map_of_mem (mem_of_claimed hrow).1

end Batch

/-! ## Reachable states -/

section Reachable

variable {cfg : Settings} {c : State} {p : ℕ}

/-- What a process alone makes of a reachable state is reachable. -/
theorem reachable_of_solo {c' : State} (h : Reachable cfg c) (hsolo : (system cfg).Solo p c c') :
    Reachable cfg c' := by
  obtain ⟨clock, cranes, es, hrun⟩ := h
  obtain ⟨es', -, hrun'⟩ := hsolo
  exact ⟨clock, cranes, es ++ es', System.run_append.2 ⟨c, hrun, hrun'⟩⟩

/-- The pipeline reaches the state that a run of `run_delete_batch` leaves of one that it reaches. -/
theorem reachable_runDeleteBatch {w : BatchWorld} (h : Reachable cfg c)
    (hp : c.procs p = .worker .idle) (hl : NoLocks p c.shared.locks)
    (hphoto : ∀ i, c.shared.locks.photo i = none)
    (hlocked : ∀ i, w.locked.contains i = (c.shared.locks.job i).isSome)
    (hrem : ∀ i, (w.handling i).removed = false)
    (hnow : (c.shared.store.clock :: w.now :: (w.claimed cfg c.shared.store).map fun job =>
      (w.handling job.id).now).IsChain (· ≤ ·)) :
    Reachable cfg (withWorker c p
      ⟨(runDeleteBatch cfg w c.shared.store).store, c.shared.locks⟩ .idle) := by
  have hsolo : (system cfg).Solo p (withWorker c p c.shared .idle)
      (withWorker c p ⟨(runDeleteBatch cfg w c.shared.store).store, c.shared.locks⟩ .idle) :=
    solo_runDeleteBatch hl hphoto hlocked h.consistent.job_unique hrem hnow
  rw [withWorker_self hp] at hsolo
  exact reachable_of_solo h hsolo

/-- The pipeline reaches the state that a run of `run_reap_crane_photos` leaves of one that it
reaches. -/
theorem reachable_runReapCranePhotos {w : ReapWorld} (h : Reachable cfg c)
    (hp : c.procs p = .worker .idle) (hl : NoLocks p c.shared.locks)
    (hlocked : ∀ i, w.locked.contains i = (c.shared.locks.photo i).isSome)
    (hnow : c.shared.store.clock ≤ w.now) :
    Reachable cfg (withWorker c p ⟨(runReapCranePhotos cfg w c.shared.store).2.apply cfg p
      (.tick w.now), c.shared.locks⟩ .idle) := by
  have hsolo : (system cfg).Solo p (withWorker c p c.shared .idle)
      (withWorker c p ⟨(runReapCranePhotos cfg w c.shared.store).2.apply cfg p (.tick w.now),
        c.shared.locks⟩ .idle) :=
    solo_runReapCranePhotos hl hlocked h.consistent.photo_unique hnow
  rw [withWorker_self hp] at hsolo
  exact reachable_of_solo h hsolo

end Reachable

end CraneTracker.PhotoJobs
