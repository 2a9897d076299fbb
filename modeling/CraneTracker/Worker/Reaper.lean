import Mathlib.Algebra.Order.Floor.Div
import CraneTracker.Worker.Batch

/-!
# The reaper as one function

`run_reap_crane_photos` of `app/worker/photo_jobs.py` from its start to its return, on the committed
state, with `create_delete_crane_job` under it. `ReapWorld` is what a run meets: the order of its query,
the photos that others have locked, the ids of the new jobs, and the database steps that fail.

The jobs are inserted one by one in one transaction (`createDeleteCraneJobs`), and a failure at any of
them rolls back the earlier ones. Together the insertions are one write (`createDeleteCraneJobs_eq`), the
commit that `Pipeline/Store.lean` has for the reaper.
-/

namespace CraneTracker.PhotoJobs

open Pipeline Table

/-! ## The run -/

/-- The database steps of a run: the query, the flush that inserts the job `k`, and the commit. -/
inductive ReapStep
  | query
  | insert (k : ℕ)
  | commit
deriving DecidableEq, Repr

/-- What a run of `run_reap_crane_photos` meets. -/
structure ReapWorld where
  /-- When its transaction begins. -/
  now : Timestamp
  /-- The order in which its query goes through the photos. -/
  order : OrderBy CranePhoto.added_at
  /-- The photos that other transactions have locked, which it skips. -/
  locked : List Uuid
  /-- The ids that `generate_uuid7` gives the new jobs. -/
  job_ids : ℕ → Uuid
  /-- The database steps that raise `SQLAlchemyError`. -/
  fails : ReapStep → Bool

/-- The photos that the query returns. -/
def ReapWorld.photos (cfg : Settings) (w : ReapWorld) (s : Store) : List CranePhoto :=
  let rows := w.order.sort (s.photos.filter (CranePhoto.reapable cfg w.now))
  (rows.filter fun r => !w.locked.contains r.id).take cfg.job_batch_size

/-- `create_delete_crane_job`, for the photo `k`. There is no result if the flush of `create_task`
raises `SQLAlchemyError`, as it does when the id is taken. -/
def createDeleteCraneJob (cfg : Settings) (w : ReapWorld) (k : ℕ) (photo : CranePhoto) (s : Store) :
    Option Store :=
  if w.fails (.insert k) || (s.job (w.job_ids k)).isSome then none
  else
    some (s.apply cfg 0
      (.createDeleteCraneJobs .runReapCranePhotos w.now [(photo, w.job_ids k)]))

/-- The loop over the photos, from the photo `k` on. -/
def createDeleteCraneJobs (cfg : Settings) (w : ReapWorld) : ℕ → List CranePhoto → Store → Option Store
  | _, [], s => some s
  | k, photo :: photos, s =>
    (createDeleteCraneJob cfg w k photo s).bind (createDeleteCraneJobs cfg w (k + 1) photos)

/-- The transaction: the number of photos, and what it commits. There is no result if a step raises
`SQLAlchemyError`. -/
def reapTransaction (cfg : Settings) (w : ReapWorld) (s : Store) : Option (ℕ × Store) :=
  if w.fails .query then none
  else
    let photos := w.photos cfg s
    (createDeleteCraneJobs cfg w 0 photos s).bind fun s' =>
      if w.fails .commit then none else some (photos.length, s')

/-- `run_reap_crane_photos`: what it returns, and the state that it leaves. -/
def runReapCranePhotos (cfg : Settings) (w : ReapWorld) (s : Store) : ℕ × Store :=
  match reapTransaction cfg w s with
  | some r => r
  -- `session.rollback()`.
  | none => (0, s)

/-! ## One transaction -/

section Transaction

variable {cfg : Settings} {w : ReapWorld} {s s' : Store} {n k : ℕ} {photos : List CranePhoto}

/-- The ids of the jobs from the photo `k` on. -/
def ReapWorld.idsFrom (w : ReapWorld) (k n : ℕ) : List Uuid := (List.range' k n).map w.job_ids

/-- Two commits of `create_delete_crane_job` are one. -/
theorem apply_createDeleteCraneJobs_cons {now : Timestamp} {x : CranePhoto × Uuid}
    {rows : List (CranePhoto × Uuid)} :
    (s.apply cfg 0 (.createDeleteCraneJobs .runReapCranePhotos now [x])).apply cfg 0
        (.createDeleteCraneJobs .runReapCranePhotos now rows) =
      s.apply cfg 0 (.createDeleteCraneJobs .runReapCranePhotos now (x :: rows)) := by
  have hphotos : updateWhere (fun r => r.id ∈ rows.map fun y => y.1.id) markPendingDelete
      (updateWhere (fun r => r.id ∈ [x].map fun y => y.1.id) markPendingDelete s.photos) =
        updateWhere (fun r => r.id ∈ (x :: rows).map fun y => y.1.id) markPendingDelete s.photos := by
    rw [updateWhere_updateWhere (f := markPendingDelete) (fun _ => rfl) (fun _ => rfl)]
    congr 1
    funext r
    simp only [List.map_cons, List.map_nil, List.mem_cons, List.not_mem_nil, or_false, Bool.decide_or]
  have hjobs : (s.jobs ++ [x].map fun y => createTask now y.2 .delete y.1.storage_key) ++
      (rows.map fun y => createTask now y.2 .delete y.1.storage_key) =
        s.jobs ++ (x :: rows).map fun y => createTask now y.2 .delete y.1.storage_key := by
    rw [List.append_assoc, ← List.map_append]
    rfl
  exact congrArg₂ (fun photos jobs => ({ s with photos := photos, jobs := jobs } : Store)) hphotos
    hjobs

/-- The commit of no job changes nothing. -/
theorem apply_createDeleteCraneJobs_nil {now : Timestamp} :
    s.apply cfg 0 (.createDeleteCraneJobs .runReapCranePhotos now []) = s := by
  have hphotos : updateWhere (fun r => r.id ∈ ([] : List (CranePhoto × Uuid)).map fun y => y.1.id)
      markPendingDelete s.photos = s.photos := by
    unfold updateWhere
    simp
  exact congrArg₂ (fun photos jobs => ({ s with photos := photos, jobs := jobs } : Store)) hphotos
    (List.append_nil _)

/-- The loop inserts all of its jobs, in one write. -/
theorem createDeleteCraneJobs_eq (h : createDeleteCraneJobs cfg w k photos s = some s') :
    s' = s.apply cfg 0 (.createDeleteCraneJobs .runReapCranePhotos w.now
      (photos.zip (w.idsFrom k photos.length))) := by
  induction photos generalizing k s with
  | nil =>
    obtain rfl := Option.some.inj h
    exact apply_createDeleteCraneJobs_nil.symm
  | cons photo photos ih =>
    obtain ⟨s₁, hs₁, hrest⟩ := Option.bind_eq_some_iff.1 h
    unfold createDeleteCraneJob at hs₁
    split_ifs at hs₁
    obtain rfl := Option.some.inj hs₁
    rw [ih hrest, apply_createDeleteCraneJobs_cons]
    rfl

/-- An insertion has a result if and only if it does not fail and its id is new. -/
theorem createDeleteCraneJob_eq_some {photo : CranePhoto} :
    createDeleteCraneJob cfg w k photo s = some s' ↔
      (w.fails (.insert k) = false ∧ s.job (w.job_ids k) = none) ∧ s.apply cfg 0
        (.createDeleteCraneJobs .runReapCranePhotos w.now [(photo, w.job_ids k)]) = s' := by
  unfold createDeleteCraneJob
  split_ifs with h
  · refine iff_of_false (by simp) fun hnew => ?_
    rw [hnew.1.1, hnew.1.2] at h
    exact Bool.false_ne_true h
  · rw [Bool.or_eq_true, not_or, Bool.not_eq_true, Bool.not_eq_true, Option.isSome_eq_false_iff,
      Option.isNone_iff_eq_none] at h
    simp [h]

/-- The jobs after an insertion: the new one has taken its id. -/
theorem job_createDeleteCraneJob {photo : CranePhoto} {id : Uuid} :
    (s.apply cfg 0 (.createDeleteCraneJobs .runReapCranePhotos w.now [(photo, w.job_ids k)])).job id =
      none ↔ s.job id = none ∧ w.job_ids k ≠ id := by
  show row OutboxJob.id (s.jobs ++ [createTask w.now (w.job_ids k) .delete photo.storage_key]) id = none
    ↔ _
  rw [row_append, Option.or_eq_none_iff, row_eq_none (t := [_]), List.forall_mem_singleton]
  rfl

/-- The insertions of `n` jobs from the photo `k` on do not fail, and their ids are new. -/
structure ReapWorld.Inserts (w : ReapWorld) (k n : ℕ) (s : Store) : Prop where
  fails : ∀ i < n, w.fails (.insert (k + i)) = false
  nodup : (w.idsFrom k n).Nodup
  fresh : ∀ id ∈ w.idsFrom k n, s.job id = none

/-- The first insertion does not fail, and then the others do not. -/
theorem ReapWorld.inserts_succ (cfg : Settings) (photo : CranePhoto) : w.Inserts k (n + 1) s ↔
    (w.fails (.insert k) = false ∧ s.job (w.job_ids k) = none) ∧ w.Inserts (k + 1) n (s.apply cfg 0
      (.createDeleteCraneJobs .runReapCranePhotos w.now [(photo, w.job_ids k)])) := by
  have hids : w.idsFrom k (n + 1) = w.job_ids k :: w.idsFrom (k + 1) n := rfl
  constructor
  · intro h
    have hnodup := h.nodup
    have hfresh := h.fresh
    rw [hids, List.nodup_cons] at hnodup
    rw [hids, List.forall_mem_cons] at hfresh
    refine ⟨⟨h.fails 0 (Nat.succ_pos n), hfresh.1⟩, fun i hi => ?_, hnodup.2, fun id hid => ?_⟩
    · have hfails := h.fails (i + 1) (Nat.succ_lt_succ hi)
      rwa [Nat.add_right_comm, Nat.add_assoc]
    · exact job_createDeleteCraneJob.2 ⟨hfresh.2 id hid, fun heq => hnodup.1 (heq ▸ hid)⟩
  · rintro ⟨⟨hfirst, hnew⟩, h⟩
    refine ⟨fun i hi => ?_, ?_, ?_⟩
    · cases i with
      | zero => exact hfirst
      | succ i =>
        have hfails := h.fails i (Nat.lt_of_succ_lt_succ hi)
        rwa [Nat.add_right_comm, Nat.add_assoc] at hfails
    · rw [hids, List.nodup_cons]
      exact ⟨fun hmem => (job_createDeleteCraneJob.1 (h.fresh _ hmem)).2 rfl, h.nodup⟩
    · rw [hids, List.forall_mem_cons]
      exact ⟨hnew, fun id hid => (job_createDeleteCraneJob.1 (h.fresh id hid)).1⟩

/-- The loop has a result if and only if none of its insertions fails. -/
theorem createDeleteCraneJobs_isSome (cfg : Settings) :
    (∃ s', createDeleteCraneJobs cfg w k photos s = some s') ↔ w.Inserts k photos.length s := by
  induction photos generalizing k s with
  | nil => exact iff_of_true ⟨s, rfl⟩ ⟨nofun, List.nodup_nil, nofun⟩
  | cons photo photos ih =>
    rw [List.length_cons, ReapWorld.inserts_succ cfg photo, ← ih]
    constructor
    · rintro ⟨s', h⟩
      obtain ⟨s₁, hs₁, hrest⟩ := Option.bind_eq_some_iff.1 h
      obtain ⟨hfirst, rfl⟩ := createDeleteCraneJob_eq_some.1 hs₁
      exact ⟨hfirst, s', hrest⟩
    · rintro ⟨hfirst, s', hrest⟩
      exact ⟨s', Option.bind_eq_some_iff.2 ⟨_, createDeleteCraneJob_eq_some.2 ⟨hfirst, rfl⟩, hrest⟩⟩

/-- In a transaction that commits, the loop has come to its end. -/
theorem loop_of_reapTransaction (h : reapTransaction cfg w s = some (n, s')) :
    n = (w.photos cfg s).length ∧ createDeleteCraneJobs cfg w 0 (w.photos cfg s) s = some s' := by
  unfold reapTransaction at h
  split_ifs at h
  · obtain ⟨s₁, -, hcommit⟩ := Option.bind_eq_some_iff.1 h
    cases hcommit
  · obtain ⟨s₁, hs₁, hcommit⟩ := Option.bind_eq_some_iff.1 h
    obtain ⟨rfl, rfl⟩ := Prod.mk.inj (Option.some.inj hcommit)
    exact ⟨rfl, hs₁⟩

/-- What a transaction that commits has done. -/
theorem reapTransaction_eq_some (h : reapTransaction cfg w s = some (n, s')) :
    n = (w.photos cfg s).length ∧
      s' = s.apply cfg 0 (.createDeleteCraneJobs .runReapCranePhotos w.now
        ((w.photos cfg s).zip (w.idsFrom 0 (w.photos cfg s).length))) := by
  obtain ⟨hn, hs'⟩ := loop_of_reapTransaction h
  exact ⟨hn, createDeleteCraneJobs_eq hs'⟩

/-- A step that fails, of those that the transaction comes to. -/
def ReapWorld.Fails (cfg : Settings) (w : ReapWorld) (s : Store) : Prop :=
  w.fails .query = true ∨ (∃ k < (w.photos cfg s).length, w.fails (.insert k) = true) ∨
    w.fails .commit = true

/-- No step that the transaction comes to fails, and the ids of its jobs are new and distinct. -/
structure ReapWorld.Succeeds (cfg : Settings) (w : ReapWorld) (s : Store) : Prop where
  fails : ¬ w.Fails cfg s
  nodup : (w.idsFrom 0 (w.photos cfg s).length).Nodup
  fresh : ∀ id ∈ w.idsFrom 0 (w.photos cfg s).length, s.job id = none

/-- The steps that do not fail are the query, the insertions, and the commit. -/
theorem ReapWorld.succeeds_iff : w.Succeeds cfg s ↔ w.fails .query = false ∧
    w.Inserts 0 (w.photos cfg s).length s ∧ w.fails .commit = false := by
  constructor
  · intro h
    have hfails := h.fails
    rw [ReapWorld.Fails, not_or, not_or, Bool.not_eq_true, Bool.not_eq_true] at hfails
    refine ⟨hfails.1, ⟨fun i hi => ?_, h.nodup, h.fresh⟩, hfails.2.2⟩
    rw [Nat.zero_add]
    exact Bool.eq_false_of_not_eq_true fun hinsert => hfails.2.1 ⟨i, hi, hinsert⟩
  · rintro ⟨hquery, h, hcommit⟩
    refine ⟨?_, h.nodup, h.fresh⟩
    rintro (hq | ⟨i, hi, hinsert⟩ | hc)
    · exact Bool.false_ne_true (hquery.symm.trans hq)
    · have hnot := h.fails i hi
      rw [Nat.zero_add] at hnot
      exact Bool.false_ne_true (hnot.symm.trans hinsert)
    · exact Bool.false_ne_true (hcommit.symm.trans hc)

/-- The transaction has a result exactly then. -/
theorem reapTransaction_isSome : (∃ r, reapTransaction cfg w s = some r) ↔ w.Succeeds cfg s := by
  rw [ReapWorld.succeeds_iff, ← createDeleteCraneJobs_isSome cfg]
  unfold reapTransaction
  dsimp only
  constructor
  · rintro ⟨r, h⟩
    split_ifs at h with hquery hcommit
    · obtain ⟨s', -, hnone⟩ := Option.bind_eq_some_iff.1 h
      cases hnone
    · obtain ⟨s', hs', -⟩ := Option.bind_eq_some_iff.1 h
      exact ⟨Bool.eq_false_of_not_eq_true hquery, ⟨s', hs'⟩, Bool.eq_false_of_not_eq_true hcommit⟩
  · rintro ⟨hquery, ⟨s', hs'⟩, hcommit⟩
    refine ⟨((w.photos cfg s).length, s'), ?_⟩
    rw [hquery, if_neg Bool.false_ne_true, hs', Option.bind_some, hcommit, if_neg Bool.false_ne_true]

/-- The transaction has no result if one of its steps fails. -/
theorem reapTransaction_of_fails (h : w.Fails cfg s) : reapTransaction cfg w s = none := by
  cases hr : reapTransaction cfg w s with
  | none => rfl
  | some r => exact absurd h (reapTransaction_isSome.1 ⟨r, hr⟩).fails

end Transaction

/-! ## A run that succeeds -/

/-- The photos that wait for the reaper, and that nobody has locked. -/
def ReapWorld.overdue (cfg : Settings) (w : ReapWorld) (s : Store) : List CranePhoto :=
  s.photos.filter fun photo => photo.reapable cfg w.now && !w.locked.contains photo.id

/-- What a run that moves the photos `moved` and inserts the jobs `new` has done. -/
structure Reaped (cfg : Settings) (w : ReapWorld) (s s' : Store) (moved : List CranePhoto)
    (new : List OutboxJob) : Prop where
  nodup : moved.Nodup
  overdue : ∀ photo ∈ moved, photo ∈ w.overdue cfg s
  length : moved.length = min cfg.job_batch_size (w.overdue cfg s).length
  /-- No photo that is left has waited longer. -/
  longest : ∀ photo ∈ moved, ∀ other ∈ w.overdue cfg s, other ∉ moved →
    photo.added_at ≤ other.added_at
  /-- The jobs are those of the photos. -/
  keys : new.map OutboxJob.storage_key = moved.map CranePhoto.storage_key
  jobs : ∀ job ∈ new, job.status = .pending ∧ job.operation = .delete
  /-- Nothing else has changed. -/
  store : s' = { s with
    photos := s.photos.map fun photo => if photo ∈ moved then markPendingDelete photo else photo
    jobs := s.jobs ++ new }

section Succeeds

variable {cfg : Settings} {w : ReapWorld} {s s' : Store} {n : ℕ}

/-- The result of the query before `LIMIT`. -/
theorem perm_overdue : ((w.order.sort (s.photos.filter (CranePhoto.reapable cfg w.now))).filter
    fun r => !w.locked.contains r.id).Perm (w.overdue cfg s) := by
  have hperm := (w.order.perm (s.photos.filter (CranePhoto.reapable cfg w.now))).filter
    fun r => !w.locked.contains r.id
  rw [List.filter_filter] at hperm
  refine hperm.trans (List.Perm.of_eq (List.filter_congr fun photo _ => ?_))
  exact Bool.and_comm _ _

/-- The photos that the query returns are distinct rows. -/
theorem keyUnique_photos (hunique : KeyUnique CranePhoto.id s.photos) :
    KeyUnique CranePhoto.id (w.photos cfg s) := by
  have hoverdue : KeyUnique CranePhoto.id (w.overdue cfg s) :=
    hunique.sublist (List.filter_sublist.map _)
  exact ((perm_overdue.map _).nodup_iff.2 hoverdue).sublist ((List.take_sublist _ _).map _)

/-- The photos that the query returns are overdue. -/
theorem mem_overdue {photo : CranePhoto} (h : photo ∈ w.photos cfg s) : photo ∈ w.overdue cfg s :=
  perm_overdue.mem_iff.1 (List.mem_of_mem_take h)

/-- A run that succeeds moves the photos that its query returns. -/
theorem reaped (hunique : KeyUnique CranePhoto.id s.photos)
    (h : reapTransaction cfg w s = some (n, s')) : n = (w.photos cfg s).length ∧
      ∃ new, Reaped cfg w s s' (w.photos cfg s) new := by
  obtain ⟨hn, hs'⟩ := reapTransaction_eq_some h
  have hlength : (w.photos cfg s).length = (w.idsFrom 0 (w.photos cfg s).length).length := by
    rw [ReapWorld.idsFrom, List.length_map, List.length_range']
  have hfst : ((w.photos cfg s).zip (w.idsFrom 0 (w.photos cfg s).length)).map Prod.fst =
      w.photos cfg s := List.map_fst_zip hlength.le
  refine ⟨hn, ((w.photos cfg s).zip (w.idsFrom 0 (w.photos cfg s).length)).map fun x =>
    createTask w.now x.2 .delete x.1.storage_key, ?_⟩
  constructor
  · exact (keyUnique_photos hunique).of_map
  · exact fun photo hphoto => mem_overdue hphoto
  · rw [ReapWorld.photos, List.length_take, perm_overdue.length_eq]
  · intro photo hphoto other hother hnot
    have hsorted := (w.order.sorted (s.photos.filter (CranePhoto.reapable cfg w.now))).filter
      fun r => !w.locked.contains r.id
    exact le_of_mem_take hsorted hphoto (perm_overdue.mem_iff.2 hother) hnot
  · rw [List.map_map]
    conv_rhs => rw [← hfst, List.map_map]
    rfl
  · intro job hjob
    obtain ⟨x, -, rfl⟩ := List.mem_map.1 hjob
    exact ⟨rfl, rfl⟩
  · rw [hs']
    have hids : ((w.photos cfg s).zip (w.idsFrom 0 (w.photos cfg s).length)).map (fun x => x.1.id) =
        (w.photos cfg s).map CranePhoto.id := by
      conv_rhs => rw [← hfst, List.map_map]
      rfl
    refine congrArg₂ (fun photos jobs => ({ s with photos := photos, jobs := jobs } : Store)) ?_ rfl
    rw [hids]
    refine List.map_congr_left fun photo hphoto => ?_
    -- Rows of one table with one id are one row.
    have hmem : photo.id ∈ (w.photos cfg s).map CranePhoto.id ↔ photo ∈ w.photos cfg s := by
      refine ⟨fun hid => ?_, List.mem_map_of_mem⟩
      obtain ⟨other, hother, heq⟩ := List.mem_map.1 hid
      have hin : other ∈ s.photos := List.mem_of_mem_filter (mem_overdue hother)
      rwa [← List.inj_on_of_nodup_map hunique hin hphoto heq]
    simp only [decide_eq_true_eq, hmem]

end Succeeds

/-! ## Run after run -/

/-- One run after the other. -/
def runReaps (cfg : Settings) (s : Store) (ws : List ReapWorld) : Store :=
  ws.foldl (fun s w => (runReapCranePhotos cfg w s).2) s

/-- Every run succeeds. -/
def ReapsSucceed (cfg : Settings) : List ReapWorld → Store → Prop
  | [], _ => True
  | w :: ws, s => (∃ r, reapTransaction cfg w s = some r) ∧
      ReapsSucceed cfg ws (runReapCranePhotos cfg w s).2

/-- Nothing else happens during the run: it begins at `now`, and no other transaction is open. -/
structure ReapWorld.Alone (now : Timestamp) (w : ReapWorld) : Prop where
  now : w.now = now
  locked : w.locked = []

section Drain

variable {cfg : Settings} {now : Timestamp} {w : ReapWorld} {ws : List ReapWorld} {s s' : Store}
  {n : ℕ} {moved : List CranePhoto} {new : List OutboxJob}

/-- A run alone finds all photos that wait for the reaper. -/
theorem ReapWorld.Alone.overdue_eq (h : w.Alone now) :
    w.overdue cfg s = s.photos.filter (CranePhoto.reapable cfg now) := by
  refine List.filter_congr fun photo _ => ?_
  rw [h.now, h.locked]
  exact Bool.and_true _

/-- A photo that is marked for deletion does not wait for the reaper. -/
theorem reapable_markPendingDelete {photo : CranePhoto} :
    (markPendingDelete photo).reapable cfg now = false := by
  simp [CranePhoto.reapable, markPendingDelete]

/-- The photos that a run moves no longer wait, and the others wait as before. -/
theorem Reaped.overdue_next (h : Reaped cfg w s s' moved new) :
    s'.photos.filter (CranePhoto.reapable cfg now) =
      (s.photos.filter (CranePhoto.reapable cfg now)).filter fun photo => !decide (photo ∈ moved) := by
  rw [h.store]
  show (List.map _ s.photos).filter _ = _
  induction s.photos with
  | nil => rfl
  | cons photo photos ih =>
    rw [List.map_cons, List.filter_cons, ih, List.filter_cons]
    by_cases hmoved : photo ∈ moved
    · rw [if_pos hmoved, reapable_markPendingDelete, if_neg Bool.false_ne_true]
      split_ifs
      · exact (List.filter_cons_of_neg (by simpa using hmoved)).symm
      · rfl
    · rw [if_neg hmoved]
      split_ifs
      · exact (List.filter_cons_of_pos (by simpa using hmoved)).symm
      · rfl

/-- The photos that wait are those that a run alone moves and those that wait after it. -/
theorem Reaped.perm (h : Reaped cfg w s s' moved new) (hw : w.Alone now)
    (hunique : KeyUnique CranePhoto.id s.photos) :
    (moved ++ s'.photos.filter (CranePhoto.reapable cfg now)).Perm
      (s.photos.filter (CranePhoto.reapable cfg now)) := by
  have hnodup : (s.photos.filter (CranePhoto.reapable cfg now)).Nodup :=
    hunique.of_map.sublist List.filter_sublist
  have hmoved : moved.Perm
      ((s.photos.filter (CranePhoto.reapable cfg now)).filter fun photo => photo ∈ moved) := by
    refine (List.perm_ext_iff_of_nodup h.nodup (hnodup.sublist List.filter_sublist)).2 fun photo => ?_
    rw [List.mem_filter, decide_eq_true_eq, ← hw.overdue_eq]
    exact ⟨fun hphoto => ⟨h.overdue photo hphoto, hphoto⟩, And.right⟩
  rw [h.overdue_next]
  exact (hmoved.append_right _).trans (List.filter_append_perm _ _)

/-- A run keeps the photo ids. -/
theorem Reaped.keyUnique (h : Reaped cfg w s s' moved new)
    (hunique : KeyUnique CranePhoto.id s.photos) : KeyUnique CranePhoto.id s'.photos := by
  have hids : s'.photos.map CranePhoto.id = s.photos.map CranePhoto.id := by
    rw [h.store, List.map_map]
    refine List.map_congr_left fun photo _ => ?_
    show (if photo ∈ moved then markPendingDelete photo else photo).id = photo.id
    split_ifs <;> rfl
  rwa [KeyUnique, hids]

/-- What runs that succeed leave to do, and the jobs that they have inserted. -/
theorem reaps_drain (hunique : KeyUnique CranePhoto.id s.photos) (halone : ∀ w ∈ ws, w.Alone now)
    (hsucceed : ReapsSucceed cfg ws s) : ∃ new,
      (runReaps cfg s ws).jobs = s.jobs ++ new ∧
      (new.map OutboxJob.storage_key ++ ((runReaps cfg s ws).photos.filter
        (CranePhoto.reapable cfg now)).map CranePhoto.storage_key).Perm
          ((s.photos.filter (CranePhoto.reapable cfg now)).map CranePhoto.storage_key) ∧
      ((runReaps cfg s ws).photos.filter (CranePhoto.reapable cfg now)).length =
        (s.photos.filter (CranePhoto.reapable cfg now)).length - cfg.job_batch_size * ws.length ∧
      ∀ job ∈ new, job.status = .pending ∧ job.operation = .delete := by
  induction ws generalizing s with
  | nil => exact ⟨[], (List.append_nil _).symm, List.Perm.refl _, rfl, nofun⟩
  | cons w ws ih =>
    obtain ⟨⟨⟨n, s'⟩, hcommit⟩, hrest⟩ := hsucceed
    have hrun : (runReapCranePhotos cfg w s).2 = s' := by rw [runReapCranePhotos, hcommit]
    rw [hrun] at hrest
    have hw := halone w List.mem_cons_self
    obtain ⟨-, new, hreaped⟩ := reaped hunique hcommit
    obtain ⟨later, hjobs, hkeys, hlength, hlater⟩ := ih (hreaped.keyUnique hunique)
      (fun w' hw' => halone w' (List.mem_cons_of_mem _ hw')) hrest
    have hruns : runReaps cfg s (w :: ws) = runReaps cfg s' ws := by
      rw [runReaps, List.foldl_cons, hrun]
      rfl
    have hperm := hreaped.perm hw hunique
    rw [hruns]
    refine ⟨new ++ later, ?_, ?_, ?_, ?_⟩
    · rw [hjobs, hreaped.store, List.append_assoc]
    · rw [List.map_append, List.append_assoc]
      refine (hkeys.append_left _).trans ?_
      rw [hreaped.keys, ← List.map_append]
      exact hperm.map _
    · have hsum := hperm.length_eq
      have hmoved := hreaped.length
      rw [hw.overdue_eq] at hmoved
      rw [List.length_append] at hsum
      rw [hlength, List.length_cons, Nat.mul_succ]
      omega
    · intro job hjob
      rcases List.mem_append.1 hjob with hnew | hold
      · exact hreaped.jobs job hnew
      · exact hlater job hold

end Drain

/-- `run_reap_crane_photos` is all or nothing, and it drains. A run in which a step fails leaves the
state as it is. A run succeeds if and only if no step fails and the new ids are new and distinct. It then
moves the `min(JOB_BATCH_SIZE, m)` photos that have waited longest, of the `m` that wait and that nobody
has locked, inserts a job for each of them, changes nothing else, and returns their number. With the
clock at rest and no other activity, `⌈m / JOB_BATCH_SIZE⌉` runs that succeed leave no photo that waits,
and `m` jobs more. -/
theorem reaper_atomic_drains (cfg : Settings) (hbatch : 1 ≤ cfg.job_batch_size) (s : Store)
    (hunique : KeyUnique CranePhoto.id s.photos) :
    (∀ w : ReapWorld, w.Fails cfg s → runReapCranePhotos cfg w s = (0, s)) ∧
    (∀ w : ReapWorld, reapTransaction cfg w s = none → runReapCranePhotos cfg w s = (0, s)) ∧
    (∀ w : ReapWorld, (∃ r, reapTransaction cfg w s = some r) ↔ w.Succeeds cfg s) ∧
    (∀ (w : ReapWorld) (n : ℕ) (s' : Store), reapTransaction cfg w s = some (n, s') →
      runReapCranePhotos cfg w s = (n, s') ∧ n = min cfg.job_batch_size (w.overdue cfg s).length ∧
      ∃ moved new, moved.length = n ∧ Reaped cfg w s s' moved new) ∧
    ∀ (now : Timestamp) (ws : List ReapWorld), (∀ w ∈ ws, w.Alone now) → ReapsSucceed cfg ws s →
      let m := (s.photos.filter (CranePhoto.reapable cfg now)).length
      m ⌈/⌉ cfg.job_batch_size ≤ ws.length →
      (∀ photo ∈ (runReaps cfg s ws).photos, photo.reapable cfg now = false) ∧
      ∃ new, (runReaps cfg s ws).jobs = s.jobs ++ new ∧ new.length = m ∧
        (new.map OutboxJob.storage_key).Perm
          ((s.photos.filter (CranePhoto.reapable cfg now)).map CranePhoto.storage_key) ∧
        ∀ job ∈ new, job.status = .pending ∧ job.operation = .delete := by
  have hnothing (w : ReapWorld) (h : reapTransaction cfg w s = none) :
      runReapCranePhotos cfg w s = (0, s) := by rw [runReapCranePhotos, h]
  refine ⟨fun w h => hnothing w (reapTransaction_of_fails h), hnothing,
    fun w => reapTransaction_isSome, fun w n s' h => ?_, ?_⟩
  · obtain ⟨hn, new, hreaped⟩ := reaped hunique h
    refine ⟨by rw [runReapCranePhotos, h], ?_, w.photos cfg s, new, hn.symm, hreaped⟩
    rw [hn, hreaped.length]
  · intro now ws halone hsucceed m hruns
    obtain ⟨new, hjobs, hkeys, hlength, hnew⟩ := reaps_drain hunique halone hsucceed
    have hle : m ≤ cfg.job_batch_size * ws.length := (ceilDiv_le_iff_le_mul hbatch).1 hruns
    have hnil : (runReaps cfg s ws).photos.filter (CranePhoto.reapable cfg now) = [] := by
      rw [← List.length_eq_zero_iff, hlength]
      omega
    rw [hnil, List.map_nil, List.append_nil] at hkeys
    refine ⟨fun photo hphoto => ?_, new, hjobs, ?_, hkeys, hnew⟩
    · exact Bool.eq_false_iff.2 (List.filter_eq_nil_iff.1 hnil photo hphoto)
    · have hperm := hkeys.length_eq
      rwa [List.length_map, List.length_map] at hperm

/-- A photo that has waited since `0`, with the given id and key. -/
def waitingPhoto (id : Uuid) (storage_key : String) : CranePhoto where
  id := id
  crane_id := 0
  storage_key := storage_key
  original_filename := "crane.jpg"
  content_type := "image/jpeg"
  added_at := 0

/-- Three photos, and nothing else, at `5000001`. -/
def waitingPhotos : Store :=
  ⟨5000001, [], [waitingPhoto 1 "a", waitingPhoto 2 "b", waitingPhoto 3 "c"], [], [], ∅, fun _ => none⟩

/-- A run at `5000001` that meets nothing, and whose jobs have the ids from `id` on. -/
def reapAlone (id : Uuid) : ReapWorld :=
  ⟨5000001, .insertion CranePhoto.added_at, [], fun k => id + BitVec.ofNat 128 k, fun _ => false⟩

/-- Two runs with batches of two leave none of three photos that wait, and three jobs. -/
theorem reaper_atomic_drains_two :
    (∃ r, reapTransaction { job_batch_size := 2 } (reapAlone 10) waitingPhotos = some r) ∧
    ∃ new, (runReaps { job_batch_size := 2 } waitingPhotos [reapAlone 10, reapAlone 20]).jobs = [] ++ new ∧
      new.length = 3 := by
  have hunique : KeyUnique CranePhoto.id waitingPhotos.photos := by
    show List.Nodup _
    decide +kernel
  have halone : ∀ w ∈ [reapAlone 10, reapAlone 20], w.Alone 5000001 := by
    intro w hw
    rcases List.mem_pair.1 hw with rfl | rfl <;> exact ⟨rfl, rfl⟩
  have hfirst : (reapAlone 10).Succeeds { job_batch_size := 2 } waitingPhotos := by
    refine ⟨?_, by decide +kernel, fun _ _ => rfl⟩
    rintro (hquery | ⟨k, -, hinsert⟩ | hcommit)
    · cases hquery
    · cases hinsert
    · cases hcommit
  have hthree : (waitingPhotos.photos.filter
      (CranePhoto.reapable { job_batch_size := 2 } 5000001)).length = 3 := by decide +kernel
  obtain ⟨-, -, hsome, -, hdrain⟩ := reaper_atomic_drains { job_batch_size := 2 } (by decide)
    waitingPhotos hunique
  have hcommits := (hsome (reapAlone 10)).2 hfirst
  have hsucceed : ReapsSucceed { job_batch_size := 2 } [reapAlone 10, reapAlone 20] waitingPhotos :=
    ⟨hcommits, ⟨_, rfl⟩, trivial⟩
  obtain ⟨-, new, hjobs, hlength, -⟩ := hdrain 5000001 _ halone hsucceed (by decide +kernel)
  exact ⟨hcommits, new, hjobs, hlength.trans hthree⟩

end CraneTracker.PhotoJobs
