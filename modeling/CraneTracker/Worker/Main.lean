import CraneTracker.Pipeline.Locking
import CraneTracker.Worker.Outcomes
import CraneTracker.Worker.Refinement

/-!
# The worker process

The loop of `app/worker/main.py`. Until it finds `shutdown` set, the worker runs `run_delete_batch` and
`run_reap_crane_photos` turn after turn (`mainLoop`). An exception that neither of them catches ends the
turn but not the loop, and `session_scope` rolls its transaction back (`Turn.run`). A turn that has
processed nothing is followed by a wait, which only lets time pass, so the next turn begins later.

A turn is a run of the pipeline, whatever it meets (`Turn.reachable`). It leaves the published photos as
they are (`Turn.active_run`): a job has the key of none, and the reaper takes pending ones only.
-/

namespace CraneTracker.PhotoJobs

open Interleaving Pipeline Table

/-! ## The loop -/

/-- Where an exception that neither of the two runs catches comes from. -/
inductive Escape
  /-- `claim_jobs`. -/
  | claim
  /-- The status write for the job `k` of the batch. -/
  | record (k : ℕ)
  /-- The transaction of `run_reap_crane_photos`. -/
  | reap
deriving DecidableEq, Repr

/-- What a turn of the loop meets. -/
structure Turn where
  /-- `shutdown` is set when the loop tests it. -/
  shutdown : Bool
  batch : BatchWorld
  reap : ReapWorld
  /-- The exception that neither of the two runs catches. -/
  escape : Option Escape
  /-- When it is over. -/
  ended : Timestamp

/-- What a batch meets whose status write for its job `k` raises an exception that nobody catches: the
write is rolled back, and the loop goes on to no other job. -/
def BatchWorld.raisedAt (cfg : Settings) (w : BatchWorld) (s : Store) (k : ℕ) : BatchWorld :=
  { w with
    handling := fun i =>
      { w.handling i with
        shutdown := (w.handling i).shutdown || ((w.claimed cfg s).drop (k + 1)).any fun r => r.id = i
        dbError := (w.handling i).dbError || ((w.claimed cfg s).drop k).any fun r => r.id = i } }

/-- The two runs of a turn, when no exception leaves them: `processed`, and the state. -/
def Turn.runs (cfg : Settings) (t : Turn) (s : Store) : ℕ × Store :=
  let b := runDeleteBatch cfg t.batch s
  let r := runReapCranePhotos cfg t.reap b.store
  (b.processed_jobs + r.1, r.2.apply cfg 0 (.tick t.reap.now))

/-- The body of the loop: `processed`, and the state that it leaves. -/
def Turn.run (cfg : Settings) (t : Turn) (s : Store) : ℕ × Store :=
  match t.escape with
  | none => t.runs cfg s
  | some .claim => (0, s)
  | some (.record k) =>
    -- `run_delete_batch` does not return, and adds nothing to `processed`.
    if t.batch.claimError = false ∧ k < (t.batch.done cfg s).length then
      (0, (runDeleteBatch cfg (t.batch.raisedAt cfg s k) s).store)
    else t.runs cfg s
  | some .reap =>
    let b := runDeleteBatch cfg t.batch s
    (b.processed_jobs, b.store)

/-- The loop: `processed` of each turn, and the state that it leaves. -/
def mainLoop (cfg : Settings) : List Turn → Store → List ℕ × Store
  | [], s => ([], s)
  | t :: ts, s =>
    if t.shutdown then ([], s)
    else
      let r := t.run cfg s
      let rest := mainLoop cfg ts r.2
      (r.1 :: rest.1, rest.2)

/-- What a turn does. -/
inductive Turn.Step (cfg : Settings) (t : Turn) (s : Store) : ℕ × Store → Prop
  /-- `claim_jobs` raises. -/
  | raised (hescape : t.escape = some .claim) : Turn.Step cfg t s (0, s)
  /-- The status write for the job `k` raises. -/
  | interrupted (k : ℕ) (hescape : t.escape = some (.record k)) : Turn.Step cfg t s
      (0, (runDeleteBatch cfg (t.batch.raisedAt cfg s k) s).store)
  /-- The reaper raises. -/
  | batch (hescape : t.escape = some .reap) : Turn.Step cfg t s
      ((runDeleteBatch cfg t.batch s).processed_jobs, (runDeleteBatch cfg t.batch s).store)
  /-- Both runs return. -/
  | runs : Turn.Step cfg t s (t.runs cfg s)

theorem Turn.step_run (cfg : Settings) (t : Turn) (s : Store) : t.Step cfg s (t.run cfg s) := by
  unfold Turn.run
  split
  · exact .runs
  · next hescape => exact .raised hescape
  · next k hescape =>
    split_ifs
    · exact .interrupted k hescape
    · exact .runs
  · next hescape => exact .batch hescape

/-! ## What a batch leaves -/

/-- The photos that are published. -/
def activePhotos (s : Store) : List CranePhoto := s.photos.filter fun photo => photo.status = .active

/-- The photos have unique ids, and no job has the key of a published one. -/
structure Shielded (s : Store) : Prop where
  unique : KeyUnique CranePhoto.id s.photos
  key_ne : ∀ job ∈ s.jobs, ∀ photo ∈ s.photos, photo.status = .active →
    photo.storage_key ≠ job.storage_key

/-- What a batch, or a part of one, does to the tables. -/
structure Batched (s s' : Store) : Prop where
  ids : s'.jobs.map OutboxJob.id = s.jobs.map OutboxJob.id
  keys : s'.jobs.map OutboxJob.storage_key = s.jobs.map OutboxJob.storage_key
  photos : s'.photos.Sublist s.photos
  active : Shielded s → activePhotos s' = activePhotos s

section Batched

variable {cfg : Settings} {s s' s'' : Store} {h : Handling} {job : ClaimedJob} {w : BatchWorld}

theorem Batched.refl (s : Store) : Batched s s := ⟨rfl, rfl, List.Sublist.refl _, fun _ => rfl⟩

/-- A batch keeps the shield of the published photos. -/
theorem Batched.shielded (h : Batched s s') (hs : Shielded s) : Shielded s' := by
  refine ⟨hs.unique.sublist (h.photos.map _), fun job hjob photo hphoto hactive => ?_⟩
  have hkey : job.storage_key ∈ s.jobs.map OutboxJob.storage_key :=
    h.keys ▸ List.mem_map_of_mem hjob
  obtain ⟨job₀, hjob₀, hkey₀⟩ := List.mem_map.1 hkey
  rw [← hkey₀]
  exact hs.key_ne job₀ hjob₀ photo (h.photos.subset hphoto) hactive

theorem Batched.trans (h₁ : Batched s s') (h₂ : Batched s' s'') : Batched s s'' where
  ids := h₂.ids.trans h₁.ids
  keys := h₂.keys.trans h₁.keys
  photos := h₂.photos.trans h₁.photos
  active hs := (h₂.active (h₁.shielded hs)).trans (h₁.active hs)

/-- A change that keeps the photos, and the ids and keys of the jobs. -/
theorem Batched.of_photos_eq (hids : s'.jobs.map OutboxJob.id = s.jobs.map OutboxJob.id)
    (hkeys : s'.jobs.map OutboxJob.storage_key = s.jobs.map OutboxJob.storage_key)
    (hphotos : s'.photos = s.photos) : Batched s s' where
  ids := hids
  keys := hkeys
  photos := hphotos ▸ List.Sublist.refl _
  active _ := by rw [activePhotos, hphotos, activePhotos]

/-- A published photo is not one of those that `capture_success` removes. -/
theorem Shielded.active_captureSuccess {now : Timestamp} {read : OutboxJob} (hs : Shielded s)
    (hread : read ∈ s.jobs) : activePhotos (s.apply cfg 0 (.captureSuccess now read
      ((s.photos.filter fun r => r.storage_key = read.storage_key).map CranePhoto.id))) =
        activePhotos s := by
  show (deleteWhere _ s.photos).filter _ = s.photos.filter _
  rw [deleteWhere, List.filter_filter]
  refine List.filter_congr fun photo hphoto => ?_
  by_cases hactive : photo.status = .active
  · have hnot : photo.id ∉
        (s.photos.filter fun r => r.storage_key = read.storage_key).map CranePhoto.id := by
      intro hmem
      obtain ⟨r, hr, hid⟩ := List.mem_map.1 hmem
      obtain ⟨hrow, hkey⟩ := List.mem_filter.1 hr
      obtain rfl : r = photo := List.inj_on_of_nodup_map hs.unique hrow hphoto hid
      exact hs.key_ne read hread r hphoto hactive (of_decide_eq_true hkey)
    simp only [hactive, hnot, decide_true, decide_false, Bool.not_false, Bool.and_self]
  · simp only [hactive, decide_false, Bool.false_and]

/-- A status write. -/
theorem batched_recordJobOutcome {job_id : Uuid} :
    Batched s (recordJobOutcome cfg h job_id (errStr h.result) s).2 := by
  cases hdb : h.dbError with
  | true =>
    rw [recordJobOutcome_of_failed (.inl hdb)]
    exact .refl s
  | false =>
    cases hread : s.job job_id with
    | none =>
      rw [recordJobOutcome_of_failed (.inr hread)]
      exact .refl s
    | some read =>
      cases hres : h.result with
      | deleted =>
        rw [errStr, recordJobOutcome_success hdb hread]
        exact ⟨map_key_updateWhere fun _ => rfl, map_key_updateWhere fun _ => rfl,
          List.filter_sublist, fun hs => hs.active_captureSuccess (mem_of_row hread)⟩
      | error err_str effect =>
        rw [errStr, recordJobOutcome_failure hdb hread]
        split_ifs
        · exact .of_photos_eq (map_key_updateWhere fun _ => rfl) (map_key_updateWhere fun _ => rfl)
            rfl
        · exact .refl s

/-- The body of the loop of a batch. -/
theorem batched_handleJob (hrem : h.removed = false) : Batched s (handleJob cfg h job s) := by
  have hjobs : (deletePhoto cfg job.storage_key h.result s).jobs = s.jobs := jobs_deletePhoto
  have hphotos : (deletePhoto cfg job.storage_key h.result s).photos = s.photos := by
    unfold deletePhoto
    cases h.result with
    | deleted => rfl
    | error err_str effect => cases effect <;> rfl
  have helapse : elapse cfg h job.id (deletePhoto cfg job.storage_key h.result s) =
      (deletePhoto cfg job.storage_key h.result s).apply cfg 0 (.tick h.now) := by
    unfold elapse
    rw [hrem]
    rfl
  have hbefore : Batched s (elapse cfg h job.id (deletePhoto cfg job.storage_key h.result s)) := by
    rw [helapse]
    exact .of_photos_eq (congrArg (List.map OutboxJob.id) hjobs)
      (congrArg (List.map OutboxJob.storage_key) hjobs) hphotos
  exact hbefore.trans batched_recordJobOutcome

/-- The loop of a batch. -/
theorem batched_deleteJobs {handling : Uuid → Handling} (hrem : ∀ i, (handling i).removed = false)
    (jobs : List ClaimedJob) (b : Batch) : Batched b.store (deleteJobs cfg handling jobs b).store := by
  induction jobs generalizing b with
  | nil => exact .refl _
  | cons job jobs ih =>
    cases hshutdown : (handling job.id).shutdown with
    | true =>
      rw [deleteJobs_of_shutdown hshutdown]
      exact .refl _
    | false =>
      rw [deleteJobs_of_not_shutdown hshutdown]
      exact (batched_handleJob (hrem _)).trans (ih ⟨_, _, _⟩)

/-- A batch, when nobody removes jobs. -/
theorem batched_runDeleteBatch (hrem : ∀ i, (w.handling i).removed = false) :
    Batched s (runDeleteBatch cfg w s).store := by
  cases hclaim : w.claimError with
  | true =>
    rw [runDeleteBatch_of_claimError hclaim]
    exact .refl s
  | false =>
    rw [runDeleteBatch_of_claimed hclaim]
    have hclaimed : Batched s (w.afterClaim cfg s) :=
      .of_photos_eq ids_afterClaim (map_key_updateWhere fun _ => rfl) rfl
    exact hclaimed.trans (batched_deleteJobs hrem _ ⟨w.afterClaim cfg s, 0, []⟩)

end Batched

/-! ## What a turn leaves -/

/-- A job that is completed or has failed. -/
def Finished (job : OutboxJob) : Prop := job.status = .completed ∨ job.status = .failed

/-- What turns do to the tables: no photo is inserted, and pending ones may have been marked for
deletion. Finished jobs stay as they are. -/
structure Worked (s s' : Store) : Prop where
  photos : ∀ photo ∈ s'.photos, photo ∈ s.photos ∨
    ∃ photo₀ ∈ s.photos, photo₀.status = .pendingUpload ∧ photo = markPendingDelete photo₀
  jobs : ∀ job ∈ s.jobs, Finished job → job ∈ s'.jobs

/-- The reaper moves pending photos. -/
theorem Reaped.pending {cfg : Settings} {w : ReapWorld} {s s' : Store} {moved : List CranePhoto}
    {new : List OutboxJob} (h : Reaped cfg w s s' moved new) :
    ∀ photo ∈ moved, photo.status = .pendingUpload := by
  intro photo hmoved
  have hover := List.mem_filter.1 (h.overdue photo hmoved)
  rw [Bool.and_eq_true] at hover
  exact CranePhoto.status_of_reapable hover.2.1

section Worked

variable {cfg : Settings} {s s' s'' : Store} {job : OutboxJob} {w : BatchWorld}

theorem Worked.refl (s : Store) : Worked s s := ⟨fun _ h => .inl h, fun _ h _ => h⟩

theorem Worked.trans (h₁ : Worked s s') (h₂ : Worked s' s'') : Worked s s'' := by
  refine ⟨fun photo hphoto => ?_, fun job hjob hfin => h₂.jobs job (h₁.jobs job hjob hfin) hfin⟩
  rcases h₂.photos photo hphoto with hold | ⟨photo₁, hphoto₁, hpending, rfl⟩
  · exact h₁.photos photo hold
  · rcases h₁.photos photo₁ hphoto₁ with hold | ⟨photo₀, hphoto₀, hpending₀, rfl⟩
    · exact .inr ⟨photo₁, hold, hpending, rfl⟩
    · cases hpending

/-- A finished job is not claimed. -/
theorem not_claimed_of_finished (hfin : Finished job) : job ∉ w.claimed cfg s := by
  intro hmem
  have hclaimable := (OutboxJob.claimable_iff.1 (mem_of_claimed hmem).2).2
  rcases hfin with hstatus | hstatus <;> rw [hstatus] at hclaimable <;> simp at hclaimable

/-- A batch does not change a job that it does not claim. -/
theorem job_runDeleteBatch_of_not_claimed (hunique : KeyUnique OutboxJob.id s.jobs)
    (hjob : job ∈ s.jobs) (hnot : job ∉ w.claimed cfg s) :
    (runDeleteBatch cfg w s).store.job job.id = some job := by
  have hrow : s.job job.id = some job := row_of_mem hunique hjob
  cases hclaim : w.claimError with
  | true => rwa [runDeleteBatch_of_claimError hclaim]
  | false =>
    have hid : job.id ∉ (w.claimed cfg s).map OutboxJob.id := by
      intro hmem
      obtain ⟨job', hjob', heq⟩ := List.mem_map.1 hmem
      exact hnot (List.inj_on_of_nodup_map hunique (mem_of_claimed hjob').1 hjob heq ▸ hjob')
    have hdone : job.id ∉ (w.done cfg s).map OutboxJob.id := fun hmem =>
      hid (((List.takeWhile_sublist _).map _).subset hmem)
    rw [job_runDeleteBatch hunique hclaim, if_neg hdone, job_afterClaim_of_not_mem hid, hrow]

/-- What a batch does to the tables. -/
theorem worked_runDeleteBatch (hrem : ∀ i, (w.handling i).removed = false)
    (hunique : KeyUnique OutboxJob.id s.jobs) : Worked s (runDeleteBatch cfg w s).store where
  photos _ hphoto := .inl ((batched_runDeleteBatch hrem).photos.subset hphoto)
  jobs _ hjob hfin := mem_of_row
    (job_runDeleteBatch_of_not_claimed hunique hjob (not_claimed_of_finished hfin))

/-- What the reaper does to the tables. -/
theorem worked_runReapCranePhotos {w : ReapWorld} (hunique : KeyUnique CranePhoto.id s.photos) :
    Worked s (runReapCranePhotos cfg w s).2 := by
  unfold runReapCranePhotos
  cases hrun : reapTransaction cfg w s with
  | none => exact .refl s
  | some r =>
    obtain ⟨n, s'⟩ := r
    obtain ⟨-, new, hreaped⟩ := reaped hunique hrun
    show Worked s s'
    rw [hreaped.store]
    refine ⟨fun photo hphoto => ?_, fun job hjob _ => List.mem_append_left _ hjob⟩
    obtain ⟨photo₀, hphoto₀, rfl⟩ := List.mem_map.1 hphoto
    split_ifs with hmoved
    · exact .inr ⟨photo₀, hphoto₀, hreaped.pending photo₀ hmoved, rfl⟩
    · exact .inl hphoto₀

end Worked

/-! ## A turn by itself -/

/-- No other transaction is open during the turn, and nobody removes jobs. -/
structure Turn.Alone (t : Turn) : Prop where
  batch_locked : t.batch.locked = []
  reap_locked : t.reap.locked = []
  removed : ∀ i, (t.batch.handling i).removed = false

/-- The clock does not go back during the turn. -/
structure Turn.InOrder (cfg : Settings) (t : Turn) (s : Store) : Prop where
  batch : (s.clock :: t.batch.now :: (t.batch.claimed cfg s).map fun job =>
    (t.batch.handling job.id).now).IsChain (· ≤ ·)
  reap : (runDeleteBatch cfg t.batch s).store.clock ≤ t.reap.now

/-- The clock does not go back during the turns. -/
def InOrder (cfg : Settings) : List Turn → Store → Prop
  | [], _ => True
  | t :: ts, s => t.InOrder cfg s ∧ InOrder cfg ts (t.run cfg s).2

section Turn

variable {cfg : Settings} {t : Turn} {ts : List Turn} {c : State} {p : ℕ} {s : Store}

/-- A reachable state shields its published photos. -/
theorem shielded_of_reachable (h : Reachable cfg c) : Shielded c.shared.store := by
  have hs := h.consistent
  refine ⟨hs.photo_unique, fun job hjob photo hphoto hactive => ?_⟩
  exact hs.key_ne_of_status (hs.photo_of_mem hphoto) (by rw [hactive]; simp) (hs.job_of_mem hjob)

/-- A run of the reaper leaves the published photos as they are. -/
theorem active_runReapCranePhotos {w : ReapWorld} (hunique : KeyUnique CranePhoto.id s.photos) :
    activePhotos (runReapCranePhotos cfg w s).2 = activePhotos s := by
  unfold runReapCranePhotos
  cases hrun : reapTransaction cfg w s with
  | none => rfl
  | some r =>
    obtain ⟨n, s'⟩ := r
    obtain ⟨-, new, hreaped⟩ := reaped hunique hrun
    show activePhotos s' = _
    rw [hreaped.store]
    show (s.photos.map _).filter _ = s.photos.filter _
    -- A photo that is moved is pending before, and marked after.
    have hrow : ∀ photo ∈ s.photos, ((if photo ∈ w.photos cfg s then markPendingDelete photo
        else photo).status = .active ↔ photo.status = .active) ∧
        (photo.status = .active → photo ∉ w.photos cfg s) := by
      intro photo _
      by_cases hmoved : photo ∈ w.photos cfg s
      · rw [if_pos hmoved, hreaped.pending photo hmoved]
        simp [markPendingDelete]
      · rw [if_neg hmoved]
        exact ⟨Iff.rfl, fun _ => hmoved⟩
    generalize w.photos cfg s = moved at hrow
    generalize s.photos = photos at hrow
    induction photos with
    | nil => rfl
    | cons photo photos ih =>
      obtain ⟨hiff, hnot⟩ := hrow photo List.mem_cons_self
      rw [List.map_cons, List.filter_cons, List.filter_cons,
        ih fun r hr => hrow r (List.mem_cons_of_mem _ hr)]
      by_cases hactive : photo.status = .active
      · rw [if_neg (hnot hactive)]
      · rw [if_neg (by simpa using fun hc => hactive (hiff.1 hc)), if_neg (by simpa using hactive)]

/-- A turn leaves the published photos as they are. -/
theorem Turn.active_run (ht : t.Alone) (hs : Shielded s) :
    activePhotos (t.run cfg s).2 = activePhotos s := by
  have hbatch {w : BatchWorld} (hrem : ∀ i, (w.handling i).removed = false) :
      activePhotos (runDeleteBatch cfg w s).store = activePhotos s :=
    (batched_runDeleteBatch hrem).active hs
  have hstep := t.step_run cfg s
  generalize t.run cfg s = r at hstep
  cases hstep with
  | raised => rfl
  | interrupted k => exact hbatch ht.removed
  | batch => exact hbatch ht.removed
  | runs =>
    have hshielded : Shielded (runDeleteBatch cfg t.batch s).store :=
      (batched_runDeleteBatch ht.removed).shielded hs
    exact (active_runReapCranePhotos hshielded.unique).trans (hbatch ht.removed)

/-- A turn of an idle worker, while no transaction is open, is a run of the pipeline, whatever the worker
meets. -/
theorem Turn.reachable (h : Reachable cfg c) (hp : c.procs p = .worker .idle)
    (hl : c.shared.locks = .none) (ht : t.Alone) (hord : t.InOrder cfg c.shared.store) :
    Reachable cfg (withWorker c p ⟨(t.run cfg c.shared.store).2, .none⟩ .idle) := by
  have hnolocks : NoLocks p c.shared.locks := by
    rw [hl]
    exact ⟨nofun, nofun, nofun⟩
  have hbatch {w : BatchWorld} (hlocked : w.locked = []) (hrem : ∀ i, (w.handling i).removed = false)
      (hnow : (c.shared.store.clock :: w.now :: (w.claimed cfg c.shared.store).map fun job =>
        (w.handling job.id).now).IsChain (· ≤ ·)) : Reachable cfg (withWorker c p
          ⟨(runDeleteBatch cfg w c.shared.store).store, .none⟩ .idle) := by
    have hreach := reachable_runDeleteBatch (p := p) h hp hnolocks (by rw [hl]; exact fun _ => rfl)
      (by rw [hl, hlocked]; exact fun _ => rfl) hrem hnow
    rwa [hl] at hreach
  have hstep := t.step_run cfg c.shared.store
  generalize t.run cfg c.shared.store = r at hstep
  cases hstep with
  | raised =>
    have hself : withWorker c p ⟨c.shared.store, .none⟩ .idle = c := by
      rw [← hl]
      exact withWorker_self hp
    exact hself.symm ▸ h
  | interrupted k =>
    exact hbatch (w := t.batch.raisedAt cfg c.shared.store k) ht.batch_locked ht.removed hord.batch
  | batch => exact hbatch ht.batch_locked ht.removed hord.batch
  | runs =>
    have hreap := reachable_runReapCranePhotos (w := t.reap) (p := p)
      (hbatch ht.batch_locked ht.removed hord.batch) (Function.update_self _ _ _)
      ⟨nofun, nofun, nofun⟩ (by rw [ht.reap_locked]; exact fun _ => rfl) hord.reap
    have hprocs : ∀ db : Db, withWorker (withWorker c p
        ⟨(runDeleteBatch cfg t.batch c.shared.store).store, .none⟩ .idle) p db .idle =
          withWorker c p db .idle := fun db =>
      congrArg (fun procs => (⟨db, procs⟩ : State)) (Function.update_idem _ _ _)
    rw [hprocs] at hreap
    exact hreap

/-- What a turn does to the tables. -/
theorem Turn.worked_run (ht : t.Alone) (hs : s.Consistent) : Worked s (t.run cfg s).2 := by
  have hbatch {w : BatchWorld} (hrem : ∀ i, (w.handling i).removed = false) :
      Worked s (runDeleteBatch cfg w s).store := worked_runDeleteBatch hrem hs.job_unique
  have hstep := t.step_run cfg s
  generalize t.run cfg s = r at hstep
  cases hstep with
  | raised => exact .refl s
  | interrupted k => exact hbatch ht.removed
  | batch => exact hbatch ht.removed
  | runs =>
    have hphotos : (runDeleteBatch cfg t.batch s).store.photos.Sublist s.photos :=
      (batched_runDeleteBatch ht.removed).photos
    have hreap : Worked (runDeleteBatch cfg t.batch s).store
        (runReapCranePhotos cfg t.reap (runDeleteBatch cfg t.batch s).store).2 :=
      worked_runReapCranePhotos (hs.photo_unique.sublist (hphotos.map _))
    exact (hbatch ht.removed).trans ⟨hreap.photos, hreap.jobs⟩

end Turn

/-! ## All turns -/

/-- The worker `p` is between two turns, and no process has a transaction open that has locked a row. -/
structure Resting (p : ℕ) (c : State) : Prop where
  idle : c.procs p = .worker .idle
  held : ∀ q, (c.procs q).held = []

/-- The state after the turns `ts` of the worker `p`. -/
def afterTurns (cfg : Settings) (p : ℕ) (ts : List Turn) (c : State) : State :=
  withWorker c p ⟨(mainLoop cfg ts c.shared.store).2, .none⟩ .idle

section Turns

variable {cfg : Settings} {ts : List Turn} {c : State} {p : ℕ}

/-- When no process holds a row, nothing is locked. -/
theorem Resting.locks (h : Reachable cfg c) (hp : Resting p c) : c.shared.locks = .none := by
  have hnone : ∀ r, c.shared.locks.holder r = none := by
    intro r
    refine Option.eq_none_iff_forall_ne_some.2 fun q hq => ?_
    have hheld := (locked_iff h q r).1 hq
    rw [hp.held q] at hheld
    cases hheld
  have hcrane : c.shared.locks.crane = fun _ => none := funext fun i => hnone (.crane i)
  have hphoto : c.shared.locks.photo = fun _ => none := funext fun i => hnone (.photo i)
  have hjob : c.shared.locks.job = fun _ => none := funext fun i => hnone (.job i)
  calc c.shared.locks = ⟨c.shared.locks.crane, c.shared.locks.photo, c.shared.locks.job⟩ := rfl
    _ = .none := by rw [hcrane, hphoto, hjob]; rfl

/-- A worker between two turns is at rest again after the next one. -/
theorem Resting.next (hp : Resting p c) (db : Db) : Resting p (withWorker c p db .idle) := by
  refine ⟨Function.update_self _ _ _, fun q => ?_⟩
  by_cases hq : q = p
  · subst hq
    show (Function.update c.procs q (Proc.worker .idle) q).held = []
    rw [Function.update_self]
    rfl
  · show (Function.update c.procs p (Proc.worker .idle) q).held = []
    rw [Function.update_of_ne hq]
    exact hp.held q

/-- What holds after the turns of a worker. -/
theorem turns_run (h : Reachable cfg c) (hp : Resting p c) (halone : ∀ t ∈ ts, t.Alone)
    (hord : InOrder cfg ts c.shared.store) : Reachable cfg (afterTurns cfg p ts c) ∧
      activePhotos (mainLoop cfg ts c.shared.store).2 = activePhotos c.shared.store ∧
      Worked c.shared.store (mainLoop cfg ts c.shared.store).2 := by
  have hstay : Reachable cfg (withWorker c p ⟨c.shared.store, .none⟩ .idle) := by
    rw [← hp.locks h]
    exact (withWorker_self hp.idle).symm ▸ h
  induction ts generalizing c with
  | nil => exact ⟨hstay, rfl, .refl _⟩
  | cons t ts ih =>
    cases hshutdown : t.shutdown with
    | true =>
      have hstop : mainLoop cfg (t :: ts) c.shared.store = ([], c.shared.store) := by
        rw [mainLoop, if_pos hshutdown]
      rw [afterTurns, hstop]
      exact ⟨hstay, rfl, .refl _⟩
    | false =>
      have hgo : (mainLoop cfg (t :: ts) c.shared.store).2 =
          (mainLoop cfg ts (t.run cfg c.shared.store).2).2 := by
        rw [mainLoop, if_neg (by rw [hshutdown]; exact Bool.false_ne_true)]
      have ht := halone t List.mem_cons_self
      have hnext := Turn.reachable h hp.idle (hp.locks h) ht hord.1
      have hprocs : ∀ db : Db, withWorker (withWorker c p
          ⟨(t.run cfg c.shared.store).2, .none⟩ .idle) p db .idle = withWorker c p db .idle :=
        fun db => congrArg (fun procs => (⟨db, procs⟩ : State)) (Function.update_idem _ _ _)
      obtain ⟨hreach, hactive, hworked⟩ := ih hnext (hp.next _)
        (fun t' ht' => halone t' (List.mem_cons_of_mem _ ht')) hord.2 (by rwa [hprocs])
      rw [afterTurns, hprocs] at hreach
      rw [afterTurns, hgo]
      exact ⟨hreach, hactive.trans (t.active_run ht (shielded_of_reachable h)),
        (t.worked_run ht h.consistent).trans hworked⟩

/-- When nobody else acts during the turns of a worker and the clock does not go back, the state that its
loop leaves is one that the pipeline reaches, whatever the turns meet, of failing deletes, database errors,
exceptions that nobody catches, and a shutdown in the middle. The published photos are as they were, each with its object in storage. A photo that is left was there,
and if the worker has changed it then from pending to marked for deletion. A job that is completed or
has failed is as it was. -/
theorem main_loop_safe (h : Reachable cfg c) (hp : Resting p c) (halone : ∀ t ∈ ts, t.Alone)
    (hord : InOrder cfg ts c.shared.store) :
    let s := (mainLoop cfg ts c.shared.store).2
    Reachable cfg (afterTurns cfg p ts c) ∧
      activePhotos s = activePhotos c.shared.store ∧
      (∀ photo ∈ activePhotos s, photo.storage_key ∈ s.storage) ∧ Worked c.shared.store s := by
  obtain ⟨hreach, hactive, hworked⟩ := turns_run h hp halone hord
  refine ⟨hreach, hactive, fun photo hphoto => ?_, hworked⟩
  obtain ⟨hmem, hstatus⟩ := List.mem_filter.1 hphoto
  exact hreach.consistent.active_stored (hreach.consistent.photo_of_mem hmem)
    (of_decide_eq_true hstatus)

end Turns

/-- The process is an idle worker. -/
def isIdleWorker : Proc → Bool
  | .worker .idle => true
  | _ => false

theorem of_isIdleWorker {l : Proc} (h : isIdleWorker l = true) : l = .worker .idle := by
  unfold isIdleWorker at h
  split at h
  · rfl
  · cases h

/-- A worker is between two turns after a run in which nobody else is in the middle of a transaction. -/
theorem resting_of_run {cfg : Settings} {clock : Timestamp} {cranes : List Uuid}
    {es : List (Event Action)} {c : State} {p : ℕ}
    (hrun : (system cfg).run (initial clock cranes) es = some c)
    (hidle : isIdleWorker (c.procs p) = true)
    (hheld : ((es.map Event.pid).all fun q => (c.procs q).held.isEmpty) = true) : Resting p c := by
  refine ⟨of_isIdleWorker hidle, fun q => ?_⟩
  by_cases hq : q ∈ es.map Event.pid
  · exact List.isEmpty_iff.1 (List.all_eq_true.1 hheld q hq)
  · have hnot : ∀ e ∈ es, e.pid ≠ q := fun e he heq => hq (List.mem_map.2 ⟨e, he, heq⟩)
    rw [System.procs_run_of_not_mem hrun hnot]
    rfl

/-- One upload is abandoned to the job `4`, another one publishes the photo `5`, and the worker `1` is
idle. -/
def restingRun : List (Event Action) := abandonedRun ++ preuploadEvents 4 1 5 ++ publishEvents 4

/-- The delete of the job fails, and an exception that nobody catches comes in the way of recording it.
When the lease is over, the next turn deletes the object. -/
def retryTurns : List Turn :=
  [⟨false, worldOf (raises "timeout"), reapAlone 10, some (.record 0), 3⟩,
    ⟨false, { worldOf fun _ => ⟨false, .deleted, 300000003, .zero, false, false⟩ with now := 300000002 },
      { reapAlone 10 with now := 300000004 }, none, 300000005⟩]

theorem restingRun_isSome : ((system {}).run (initial 0 [1]) restingRun).isSome = true := by
  decide +kernel

/-- The state after `restingRun`. -/
def restingState : State := ((system {}).run (initial 0 [1]) restingRun).get restingRun_isSome

theorem run_restingRun : (system {}).run (initial 0 [1]) restingRun = some restingState :=
  (Option.some_get restingRun_isSome).symm

theorem resting_restingState : Resting 1 restingState :=
  resting_of_run run_restingRun (by decide +kernel) (by decide +kernel)

theorem alone_retryTurns : ∀ t ∈ retryTurns, t.Alone := by
  intro t ht
  unfold retryTurns at ht
  rcases List.mem_pair.1 ht with rfl | rfl
  · exact ⟨rfl, rfl, fun _ => rfl⟩
  · exact ⟨rfl, rfl, fun _ => rfl⟩

/-- The worker comes back to a job whose outcome it could not record, and the published photo stays. -/
theorem main_loop_safe_retry :
    (mainLoop {} retryTurns restingState.shared.store).1 = [0, 1] ∧
      (mainLoop {} retryTurns restingState.shared.store).2.jobs.map OutboxJob.status = [.completed] ∧
      activePhotos (mainLoop {} retryTurns restingState.shared.store).2 =
        [jpegPhoto 1 1 5 .active] := by
  have hord : InOrder {} retryTurns restingState.shared.store := by
    unfold retryTurns
    exact ⟨⟨by decide +kernel, by decide +kernel⟩, ⟨by decide +kernel, by decide +kernel⟩, trivial⟩
  have hactive := (main_loop_safe ⟨0, [1], _, run_restingRun⟩ resting_restingState alone_retryTurns
    hord).2.1
  have hpublished : activePhotos restingState.shared.store = [jpegPhoto 1 1 5 .active] := by
    decide +kernel
  exact ⟨by decide +kernel, by decide +kernel, hactive.trans hpublished⟩

end CraneTracker.PhotoJobs
