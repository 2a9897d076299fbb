import CraneTracker.Pipeline.Events

/-!
# Claims and leases

`claimed` are the jobs that an event returns from `claim_jobs`, and `recorded` is the job for which it
records an outcome. Between the two a job keeps its row (`job_kept`). So whoever claims a job again
waits for the lease of the last claim or for an outcome (`lease_held`), and the number of attempts is
the number of claims (`attempts_eq_count`).

A lease that has expired takes nothing from the worker that held it. The worker still records its
outcome, by an `UPDATE` that looks at nobody's claim. That is where a finished job can come back, and
the last section says exactly when.
-/

namespace CraneTracker.Pipeline

open Interleaving Table

/-- The ids of the jobs that the event `e` returns from `claim_jobs`. -/
def claimed (cfg : Settings) (c : State) (e : Event Action) : List Uuid :=
  match writeOf cfg c e with
  | .claimJobs _ jobs => jobs.map OutboxJob.id
  | _ => []

/-- The job for which the event `e` records an outcome. -/
def recorded (cfg : Settings) (c : State) (e : Event Action) : Option Uuid :=
  match writeOf cfg c e with
  | .captureFailure _ _ _ read => some read.id
  | .captureSuccess _ read _ => some read.id
  | _ => none

section Claim

variable {cfg : Settings} {c c' : State} {e : Event Action} {i : Uuid}

/-- A claimed job is one of the rows of the commit of `claim_jobs`. -/
theorem mem_claimed : i ∈ claimed cfg c e ↔
    ∃ now jobs job, writeOf cfg c e = .claimJobs now jobs ∧ job ∈ jobs ∧ job.id = i := by
  unfold claimed
  constructor
  · intro h
    split at h
    · rename_i now jobs hw
      obtain ⟨job, hjob, hid⟩ := List.mem_map.1 h
      exact ⟨now, jobs, job, hw, hjob, hid⟩
    · cases h
  · rintro ⟨now, jobs, job, hw, hjob, hid⟩
    rw [hw]
    exact List.mem_map.2 ⟨job, hjob, hid⟩

/-- A claimed job could be claimed, and its row is what `claim_jobs` makes of it. -/
theorem job_claimed (hc : (pipeline cfg).Holds c) (h : (system cfg).next c e = some c')
    (hi : i ∈ claimed cfg c e) :
    ∃ now job, c.shared.store.job i = some job ∧ job.claimable .delete now = true ∧
      now ≤ c.shared.store.clock ∧ c'.shared.store.job i = some (job.claim cfg now) := by
  obtain ⟨now, jobs, job, hw, hjob, rfl⟩ := mem_claimed.1 hi
  have hguard := guarded_writeOf hc h
  rw [hw] at hguard
  obtain ⟨hnow, -, hjobs⟩ := hguard
  obtain ⟨-, hrow, hclaimable⟩ := hjobs job hjob
  refine ⟨now, job, hrow, hclaimable, hnow, ?_⟩
  have hmem : job.id ∈ jobs.map OutboxJob.id := List.mem_map_of_mem hjob
  rw [store_next h, hw, Store.job_claimJobs, hrow, Option.map_some, if_pos hmem]

/-- A job that an event neither claims nor records an outcome for keeps its row. -/
theorem job_kept (hc : (pipeline cfg).Holds c) (h : (system cfg).next c e = some c')
    (hi : i ∉ claimed cfg c e) (hr : recorded cfg c e ≠ some i) {job : OutboxJob}
    (hjob : c.shared.store.job i = some job) : c'.shared.store.job i = some job := by
  have hstep := job_next hc h i
  rw [hjob] at hstep
  generalize hjob' : c'.shared.store.job i = r at hstep
  cases hstep with
  | same => rfl
  | claimed now jobs _ hw hmem =>
    exact absurd (mem_claimed.2 ⟨now, jobs, job, hw, hmem, key_of_row hjob⟩) hi
  | failed _ _ _ read _ hw hid => exact absurd (by rw [recorded, hw, ← hid]) hr
  | succeeded _ read _ _ hw hid => exact absurd (by rw [recorded, hw, ← hid]) hr

/-- An event does not turn the clock back. -/
theorem clock_next (hc : (pipeline cfg).Holds c) (h : (system cfg).next c e = some c') :
    c.shared.store.clock ≤ c'.shared.store.clock := by
  rw [store_next h]
  exact clock_apply (guarded_writeOf hc h)

/-- As long as no outcome is recorded for a claimed job, its row stays until its lease expires. -/
theorem lease_held {es : List (Event Action)} (hc : (pipeline cfg).Holds c) {job : OutboxJob}
    {t : Timestamp} (hjob : c.shared.store.job i = some job) (hstatus : job.status = .processing)
    (hlease : job.lease_expires_at = some t)
    (hno : ∀ c₁ e c₂, (system cfg).Passes c es c₁ e c₂ → recorded cfg c₁ e ≠ some i)
    (hv : (system cfg).Visits c es c') :
    t < c'.shared.store.clock ∨ c'.shared.store.job i = some job := by
  refine hc.visits_induction
    (J := fun c => t < c.shared.store.clock ∨ c.shared.store.job i = some job) (Or.inr hjob) ?_ hv
  intro c₁ e c₂ hpass hc₁ hor
  have hnext := hpass.next
  have hclock := clock_next hc₁ hnext
  rcases hor with hexpired | hrow
  · exact Or.inl (hexpired.trans_le hclock)
  · by_cases hi : i ∈ claimed cfg c₁ e
    -- The row is as the claim left it, so it is claimed by way of its expired lease.
    · obtain ⟨now, job', hrow', hclaimable, hnow, -⟩ := job_claimed hc₁ hnext hi
      obtain rfl : job = job' := Option.some.inj (hrow.symm.trans hrow')
      rcases (OutboxJob.claimable_iff.1 hclaimable).2 with ⟨hpending, -⟩ | ⟨-, t', ht', hlt⟩
      · exact absurd (hstatus.symm.trans hpending) (by simp)
      · obtain rfl : t = t' := Option.some.inj (hlease.symm.trans ht')
        have hexpired : t < c₂.shared.store.clock :=
          calc t < now := hlt
            _ ≤ c₁.shared.store.clock := hnow
            _ ≤ c₂.shared.store.clock := hclock
        exact Or.inl hexpired
    · exact Or.inr (job_kept hc₁ hnext hi (hno c₁ e c₂ hpass) hrow)

/-- An event adds one attempt to each job that it claims, and none to another. -/
theorem attempts_next (hc : (pipeline cfg).Holds c) (h : (system cfg).next c e = some c')
    (i : Uuid) : ((c'.shared.store.job i).map OutboxJob.attempts).getD 0 =
      ((c.shared.store.job i).map OutboxJob.attempts).getD 0 +
        if i ∈ claimed cfg c e then 1 else 0 := by
  by_cases hi : i ∈ claimed cfg c e
  · obtain ⟨now, job, hrow, -, -, hrow'⟩ := job_claimed hc h hi
    rw [if_pos hi, hrow, hrow']
    rfl
  · rw [if_neg hi, Nat.add_zero]
    have hstep := job_next hc h i
    generalize hjob : c.shared.store.job i = r at hstep
    generalize hjob' : c'.shared.store.job i = r' at hstep
    cases hstep with
    | same => rfl
    | created => rfl
    | claimed now jobs job hw hmem =>
      exact absurd (mem_claimed.2 ⟨now, jobs, job, hw, hmem, key_of_row hjob⟩) hi
    | failed => rfl
    | succeeded => rfl

/-- The attempts of a job are the claims that returned it. -/
theorem attempts_eq_count {clock : Timestamp} {cranes : List Uuid} {es : List (Event Action)}
    (h : (system cfg).run (initial clock cranes) es = some c) (i : Uuid) :
    ((c.shared.store.job i).map OutboxJob.attempts).getD 0 =
      ((system cfg).trace (claimed cfg) (initial clock cranes) es).countP (i ∈ ·) := by
  have hinit := holds_initial cfg clock cranes
  refine System.run_induction (I := fun es c =>
    ((c.shared.store.job i).map OutboxJob.attempts).getD 0 =
      ((system cfg).trace (claimed cfg) (initial clock cranes) es).countP (i ∈ ·)) rfl ?_ h
  intro es c e c' hrun hnext ih
  -- The last event adds one to both sides if it claims the job, and nothing otherwise.
  rw [System.trace_concat hrun, List.countP_append, ← ih, attempts_next (hinit.run hrun) hnext i,
    List.countP_singleton]
  simp only [decide_eq_true_eq]

end Claim

/-- Claims are exclusive and counted. Whoever claims a job after another claim of it does so when the
lease of that claim has expired, or after an outcome for the job was recorded in between. The attempts
of a job are the number of claims that returned it. -/
theorem claims_exclusive_counted (cfg : Settings) (clock : Timestamp) (cranes : List Uuid) :
    (∀ es₁ e₁ es₂ e₂ c₁ c₁' c₂ c₂' i, (system cfg).run (initial clock cranes) es₁ = some c₁ →
      (system cfg).next c₁ e₁ = some c₁' → (system cfg).run c₁' es₂ = some c₂ →
      (system cfg).next c₂ e₂ = some c₂' → i ∈ claimed cfg c₁ e₁ → i ∈ claimed cfg c₂ e₂ →
      (∃ job t, c₁'.shared.store.job i = some job ∧ job.lease_expires_at = some t ∧
        t < c₂.shared.store.clock) ∨
      ∃ c e c', (system cfg).Passes c₁' es₂ c e c' ∧ recorded cfg c e = some i) ∧
    ∀ es c, (system cfg).run (initial clock cranes) es = some c →
      ∀ job ∈ c.shared.store.jobs, job.attempts =
        ((system cfg).trace (claimed cfg) (initial clock cranes) es).countP (job.id ∈ ·) := by
  have hinit := holds_initial cfg clock cranes
  constructor
  · intro es₁ e₁ es₂ e₂ c₁ c₁' c₂ c₂' i h₁ h₁' h₂ h₂' hi₁ hi₂
    have hc₁ := hinit.run h₁
    have hc₁' := hc₁.next h₁'
    obtain ⟨now₁, job₁, -, -, -, hrow₁⟩ := job_claimed hc₁ h₁' hi₁
    by_cases hrec : ∃ c e c', (system cfg).Passes c₁' es₂ c e c' ∧ recorded cfg c e = some i
    · exact Or.inr hrec
    · left
      refine ⟨_, _, hrow₁, rfl, ?_⟩
      have hno : ∀ c e c', (system cfg).Passes c₁' es₂ c e c' → recorded cfg c e ≠ some i :=
        fun c e c' hpass heq => hrec ⟨c, e, c', hpass, heq⟩
      rcases lease_held hc₁' hrow₁ rfl rfl hno (System.Visits.last h₂) with hexpired | hrow
      · exact hexpired
      · -- The row is still as the first claim left it, so the second one found its lease expired.
        obtain ⟨now₂, job₂, hrow₂, hclaimable, hnow, -⟩ := job_claimed (hc₁'.run h₂) h₂' hi₂
        obtain rfl := Option.some.inj (hrow.symm.trans hrow₂)
        rcases (OutboxJob.claimable_iff.1 hclaimable).2 with ⟨hpending, -⟩ | ⟨-, t, ht, hlt⟩
        · cases hpending
        · obtain rfl := Option.some.inj ht
          exact hlt.trans_le hnow
  · intro es c h job hjob
    have hcount := attempts_eq_count h job.id
    rw [(hinit.run h).1.job_of_mem hjob] at hcount
    exact hcount

/-- A worker claims a job and stops, and another claims it again after the lease of 300 seconds. -/
theorem claims_exclusive_counted_reclaim :
    ∃ c, (system {}).run (initial 0 [1]) (abandonedRun ++ claimEvents 1 abandonedJob ++
      [⟨1, .worker .stop⟩, ⟨3, .tick 300000002⟩] ++ claimEvents 2 (abandonedJob.claim {} 1))
        = some c ∧
      ∀ job ∈ c.shared.store.jobs, job.attempts = ((system {}).trace (claimed {}) (initial 0 [1])
        (abandonedRun ++ claimEvents 1 abandonedJob ++ [⟨1, .worker .stop⟩, ⟨3, .tick 300000002⟩] ++
          claimEvents 2 (abandonedJob.claim {} 1))).countP (job.id ∈ ·) := by
  have hrun : ((system {}).run (initial 0 [1]) (abandonedRun ++ claimEvents 1 abandonedJob ++
      [⟨1, .worker .stop⟩, ⟨3, .tick 300000002⟩] ++
      claimEvents 2 (abandonedJob.claim {} 1))).isSome = true := by decide +kernel
  obtain ⟨c, hc⟩ := Option.isSome_iff_exists.1 hrun
  exact ⟨c, hc, (claims_exclusive_counted {} 0 [1]).2 _ c hc⟩

/-! ## Finished jobs -/

/-- The job `i` is completed. -/
def Store.Completed (s : Store) (i : Uuid) : Prop :=
  ∃ job, s.job i = some job ∧ job.status = .completed

/-- In the run `es` from `c₀`, a job that is completed is completed in every later state, and no
later `claim_jobs` returns it. -/
def StaysCompleted (cfg : Settings) (c₀ : State) (es : List (Event Action)) : Prop :=
  ∀ i es₁ es₂ es₃ c c', es = es₁ ++ es₂ ++ es₃ → (system cfg).run c₀ es₁ = some c →
    (system cfg).run c es₂ = some c' → c.shared.store.Completed i →
    c'.shared.store.Completed i ∧
      ∀ e c'', (system cfg).next c' e = some c'' → i ∉ claimed cfg c' e

/-- The event `e` commits a failure of the job `i` whose `UPDATE` writes the status. -/
def Overwrites (cfg : Settings) (c : State) (e : Event Action) (i : Uuid) : Prop :=
  ∃ now backoff err_str read, writeOf cfg c e = .captureFailure now backoff err_str read ∧
    read.id = i ∧ read.status ≠ failureStatus cfg read

section Completed

variable {cfg : Settings} {c c' : State} {e : Event Action} {i : Uuid}

/-- A completed job is not claimed. -/
theorem not_claimed_of_completed (hc : (pipeline cfg).Holds c)
    (h : (system cfg).next c e = some c') (hi : c.shared.store.Completed i) :
    i ∉ claimed cfg c e := by
  intro hclaimed
  obtain ⟨job, hjob, hstatus⟩ := hi
  obtain ⟨now, job', hjob', hclaimable, -⟩ := job_claimed hc h hclaimed
  obtain rfl : job = job' := Option.some.inj (hjob.symm.trans hjob')
  have hcond := (OutboxJob.claimable_iff.1 hclaimable).2
  rw [hstatus] at hcond
  simp at hcond

/-- An event leaves a completed job completed exactly when it does not overwrite its status. -/
theorem completed_next_iff (hc : (pipeline cfg).Holds c) (h : (system cfg).next c e = some c')
    (hi : c.shared.store.Completed i) :
    c'.shared.store.Completed i ↔ ¬ Overwrites cfg c e i := by
  have hclaimed := not_claimed_of_completed hc h hi
  obtain ⟨job, hjob, hstatus⟩ := hi
  constructor
  -- An `UPDATE` that writes the status writes one that is not `COMPLETED`.
  · rintro ⟨job', hjob', hstatus'⟩ ⟨now, backoff, err_str, read, hw, rfl, hne⟩
    have hid : job.id = read.id := key_of_row hjob
    rw [store_next h, hw, Store.job_captureFailure, hjob, Option.map_some, if_pos hid] at hjob'
    obtain rfl := Option.some.inj hjob'
    rw [captureFailure, assign, if_neg hne] at hstatus'
    exact failureStatus_ne_completed cfg read hstatus'
  · intro hno
    have hstep := job_next hc h i
    rw [hjob] at hstep
    generalize hjob' : c'.shared.store.job i = r at hstep
    cases hstep with
    | same => exact ⟨job, hjob', hstatus⟩
    | claimed now jobs _ hw hmem =>
      exact absurd (mem_claimed.2 ⟨now, jobs, job, hw, hmem, key_of_row hjob⟩) hclaimed
    -- An `UPDATE` that does not write the status leaves the row completed.
    | failed now backoff err_str read _ hw hid =>
      have heq : read.status = failureStatus cfg read := by
        by_contra hne
        exact hno ⟨now, backoff, err_str, read, hw, hid, hne⟩
      refine ⟨_, hjob', ?_⟩
      rw [captureFailure, assign, if_pos heq]
      exact hstatus
    | succeeded now read =>
      refine ⟨_, hjob', ?_⟩
      have hor : (captureSuccess now read job).status = .completed ∨
          (captureSuccess now read job).status = job.status := captureSuccess_status
      rcases hor with h | h
      · exact h
      · rwa [h]

end Completed

/-- The jobs that a worker has claimed and recorded no outcome for. -/
def Worker.inHand : Worker → List Uuid
  | .batch rest => rest.map ClaimedJob.id
  | .delete job rest => job.id :: rest.map ClaimedJob.id
  | .deleted job rest => job.id :: rest.map ClaimedJob.id
  | .deleteFailed job _ rest => job.id :: rest.map ClaimedJob.id
  | .successFlush _ read rest => read.id :: rest.map ClaimedJob.id
  | .successDelete _ read rest => read.id :: rest.map ClaimedJob.id
  | .successCommit _ read _ rest => read.id :: rest.map ClaimedJob.id
  | .failureFlush _ _ _ read rest => read.id :: rest.map ClaimedJob.id
  | .failureCommit _ _ _ read rest => read.id :: rest.map ClaimedJob.id
  | _ => []

/-- The jobs that a process has claimed and recorded no outcome for. -/
def Proc.inHand : Proc → List Uuid
  | .worker w => w.inHand
  | _ => []

/-- No job is in the hands of two workers, and the jobs in hand are `PROCESSING`. -/
structure Exclusive (c : State) : Prop where
  nodup : ∀ p, (c.procs p).inHand.Nodup
  disjoint : ∀ {p q i}, p ≠ q → i ∈ (c.procs p).inHand → i ∉ (c.procs q).inHand
  processing : ∀ {p i}, i ∈ (c.procs p).inHand →
    ∃ job, c.shared.store.job i = some job ∧ job.status = .processing

section InHand

variable {cfg : Settings} {p : ℕ} {db : Db}

/-- The jobs that are left to a worker in a status write are in its hands. -/
theorem Worker.sublist_inHand {w : Worker} {rest : List ClaimedJob} (h : w.left = some rest) :
    (rest.map ClaimedJob.id).Sublist w.inHand := by
  cases w with
  | deleted | deleteFailed | successFlush | successDelete | successCommit | failureFlush
  | failureCommit =>
    obtain rfl := Option.some.inj h
    exact List.sublist_cons_self _ _
  | idle | claim | claimScan | batch | delete | reap | reapScan => cases h

/-- A step of a worker leaves jobs in its hands, or claims the ones that it then has. -/
theorem Worker.inHand_step {w : Worker} (hw : w.Inv p db) {a : WorkerAction} {o : Outcome Worker}
    (h : w.step cfg p db a = some o) : o.proc.inHand.Sublist w.inHand ∨
      ∃ now jobs, o.write = .claimJobs now jobs ∧ o.proc.inHand = jobs.map OutboxJob.id ∧
        (jobs.map OutboxJob.id).Nodup := by
  cases Worker.step_cases h with
  | claimCommit now next jobs =>
    refine Or.inr ⟨now, jobs, rfl, ?_, hw.2.nodup_rows⟩
    rw [Worker.inHand, List.map_map]
    rfl
  | successSelect job rest backoff read hread =>
    have hid : read.id = job.id := key_of_row hread
    left
    rw [Worker.inHand, Worker.inHand, hid]
  | failureSelect job err_str rest backoff read hread =>
    have hid : read.id = job.id := key_of_row hread
    left
    rw [Worker.inHand, Worker.inHand, hid]
  | successMissing | failureMissing | successCommit | failureCommit =>
    exact Or.inl (List.sublist_cons_self _ _)
  | statusError w rest hrest => exact Or.inl (Worker.sublist_inHand hrest)
  | nextJob | delete | deleteError | successFlush | failureFlush | deletePhotos =>
    exact Or.inl (List.Sublist.refl _)
  | beginClaim | selectJobs | takeJob | skipJob | endBatch | shutdown | beginReap | selectPhotos
  | takePhoto | skipPhoto | reapCommit | queryError | stop => exact Or.inl (List.nil_sublist _)

/-- A step of a process leaves jobs in its hands, or claims the ones that it then has. -/
theorem Proc.inHand_step {l : Proc} (hl : l.Inv p db) {a : Action} {o : Outcome Proc}
    (h : l.step cfg p db a = some o) : o.proc.inHand.Sublist l.inHand ∨
      ∃ now jobs, o.write = .claimJobs now jobs ∧ o.proc.inHand = jobs.map OutboxJob.id ∧
        (jobs.map OutboxJob.id).Nodup := by
  cases Proc.step_cases h with
  | tick => exact Or.inl (List.Sublist.refl _)
  | createCrane => exact Or.inl (List.Sublist.refl _)
  | worker w a o ho => exact Worker.inHand_step hl ho
  | refuseUpload | startUpload | startAdminDelete | startReport | startWorker =>
    exact Or.inl (List.nil_sublist _)
  | upload | adminDelete | report => exact Or.inl (List.nil_sublist _)

variable {c c' : State} {e : Event Action} {i : Uuid}

/-- The jobs in the hands of the process of an event, after it. -/
theorem inHand_next (hc : (pipeline cfg).Holds c) (h : (system cfg).next c e = some c') :
    (c'.procs e.pid).inHand.Sublist (c.procs e.pid).inHand ∨
      (c'.procs e.pid).inHand = claimed cfg c e ∧ (claimed cfg c e).Nodup := by
  obtain ⟨o, ho, hproc, -⟩ := outcome_next h
  have hw : writeOf cfg c e = o.write := by
    rw [writeOf, ho]
    rfl
  rw [hproc]
  rcases Proc.inHand_step (hc.2 e.pid) ho with hsub | ⟨now, jobs, hjobs, heq, hnodup⟩
  · exact Or.inl hsub
  · right
    rw [claimed, hw, hjobs]
    exact ⟨heq, hnodup⟩

/-- The job for which an event records an outcome was in the hands of its process, before the rest. -/
theorem inHand_of_recorded (h : (system cfg).next c e = some c')
    (hr : recorded cfg c e = some i) :
    (c.procs e.pid).inHand = i :: (c'.procs e.pid).inHand := by
  have horigin := writeOf_origin h
  obtain ⟨o, ho, hproc, -⟩ := outcome_next h
  unfold recorded at hr
  split at hr
  · rename_i now backoff err_str read hw
    obtain rfl := Option.some.inj hr
    rw [hw] at horigin
    obtain ⟨rest, hl, ha⟩ := horigin
    rw [hl, ha] at ho
    cases ho
    rw [hproc, hl]
    rfl
  · rename_i now read photo_ids hw
    obtain rfl := Option.some.inj hr
    rw [hw] at horigin
    obtain ⟨rest, hl, ha⟩ := horigin
    rw [hl, ha] at ho
    cases ho
    rw [hproc, hl]
    rfl
  · cases hr

/-- Before the first request nobody has a job in hand. -/
theorem exclusive_initial (clock : Timestamp) (cranes : List Uuid) :
    Exclusive (initial clock cranes) := by
  refine ⟨fun _ => List.nodup_nil, ?_, ?_⟩
  · intro p q i _ hi
    cases hi
  · intro p i hi
    cases hi

/-- A job in hand after an event was in the same hands before it, or the event claims it. -/
theorem mem_inHand_next (hc : (pipeline cfg).Holds c) (h : (system cfg).next c e = some c') {p : ℕ}
    (hi : i ∈ (c'.procs p).inHand) :
    i ∈ (c.procs p).inHand ∨ p = e.pid ∧ i ∈ claimed cfg c e := by
  by_cases hp : p = e.pid
  · subst hp
    rcases inHand_next hc h with hsub | ⟨heq, -⟩
    · exact Or.inl (hsub.subset hi)
    · exact Or.inr ⟨rfl, heq ▸ hi⟩
  · rw [System.procs_next_of_ne h hp] at hi
    exact Or.inl hi

/-- Under exclusive hands, nobody has the job in hand for which an event has recorded an outcome. -/
theorem Exclusive.recorded_ne (hx : Exclusive c) (h : (system cfg).next c e = some c') {p : ℕ}
    (hold : i ∈ (c.procs p).inHand) (hnew : i ∈ (c'.procs p).inHand) :
    recorded cfg c e ≠ some i := by
  intro hr
  have hhand := inHand_of_recorded h hr
  by_cases hp : p = e.pid
  · subst hp
    have hnodup := hx.nodup e.pid
    rw [hhand] at hnodup
    exact (List.nodup_cons.1 hnodup).1 hnew
  · have hmem : i ∈ (c.procs e.pid).inHand := by
      rw [hhand]
      exact List.mem_cons_self
    exact hx.disjoint hp hold hmem

/-- A claim that takes no job out of the hands of another worker keeps the jobs exclusive. -/
theorem Exclusive.next (hx : Exclusive c) (hc : (pipeline cfg).Holds c)
    (h : (system cfg).next c e = some c')
    (hclaim : ∀ i ∈ claimed cfg c e, ∀ q, q ≠ e.pid → i ∉ (c.procs q).inHand) : Exclusive c' := by
  have hother : ∀ {q}, q ≠ e.pid → c'.procs q = c.procs q := System.procs_next_of_ne h
  refine ⟨fun p => ?_, ?_, ?_⟩
  · by_cases hp : p = e.pid
    · subst hp
      rcases inHand_next hc h with hsub | ⟨heq, hnodup⟩
      · exact (hx.nodup _).sublist hsub
      · rwa [heq]
    · rw [hother hp]
      exact hx.nodup p
  -- Two workers with the same job: one of them has just claimed it from the other.
  · intro p q i hpq hi hi'
    rcases mem_inHand_next hc h hi with hold | ⟨rfl, hclaimed⟩
    · rcases mem_inHand_next hc h hi' with hold' | ⟨rfl, hclaimed'⟩
      · exact hx.disjoint hpq hold hold'
      · exact hclaim i hclaimed' p hpq hold
    · rw [hother hpq.symm] at hi'
      exact hclaim i hclaimed q hpq.symm hi'
  · intro p i hi
    -- A job that has just been claimed is `PROCESSING`, and the others keep their rows.
    by_cases hclaimed : i ∈ claimed cfg c e
    · obtain ⟨now, job, -, -, -, hrow⟩ := job_claimed hc h hclaimed
      exact ⟨_, hrow, rfl⟩
    · have hold : i ∈ (c.procs p).inHand := by
        rcases mem_inHand_next hc h hi with hold | ⟨-, hmem⟩
        · exact hold
        · exact absurd hmem hclaimed
      obtain ⟨job, hjob, hstatus⟩ := hx.processing hold
      exact ⟨job, job_kept hc h hclaimed (hx.recorded_ne h hold hi) hjob, hstatus⟩

/-- Under exclusive hands no outcome overwrites a completed job. -/
theorem Exclusive.not_overwrites (hx : Exclusive c) (h : (system cfg).next c e = some c')
    (hi : c.shared.store.Completed i) : ¬ Overwrites cfg c e i := by
  rintro ⟨now, backoff, err_str, read, hw, rfl, -⟩
  have hr : recorded cfg c e = some read.id := by rw [recorded, hw]
  have hmem : read.id ∈ (c.procs e.pid).inHand := by
    rw [inHand_of_recorded h hr]
    exact List.mem_cons_self
  -- The job is in hand, so it is `PROCESSING` and not `COMPLETED`.
  obtain ⟨job, hjob, hstatus⟩ := hi
  obtain ⟨job', hjob', hstatus'⟩ := hx.processing hmem
  obtain rfl : job = job' := Option.some.inj (hjob.symm.trans hjob')
  exact absurd (hstatus.symm.trans hstatus') (by simp)

end InHand

section StaysCompleted

variable {cfg : Settings} {c₀ : State} {es : List (Event Action)}

/-- Completed jobs stay completed over a run exactly when no event overwrites one. -/
theorem staysCompleted_iff (hc₀ : (pipeline cfg).Holds c₀) : StaysCompleted cfg c₀ es ↔
    ∀ c e c' i, (system cfg).Passes c₀ es c e c' → c.shared.store.Completed i →
      ¬ Overwrites cfg c e i := by
  constructor
  · rintro hstays c e c' i ⟨es₁, es₂, rfl, hrun, hnext⟩ hi
    -- One step is a run of length one, from a state in which the job is completed.
    have hrun' : (system cfg).run c [e] = some c' := by rw [System.run, hnext]; rfl
    obtain ⟨hi', -⟩ := hstays i es₁ [e] es₂ c c' (by simp) hrun hrun' hi
    exact (completed_next_iff (hc₀.run hrun) hnext hi).1 hi'
  · rintro hno i es₁ es₂ es₃ c c' rfl hrun hrun' hi
    have hc := hc₀.run hrun
    have hi' : c'.shared.store.Completed i := by
      have hlast : (system cfg).Visits c es₂ c' := System.Visits.last hrun'
      refine hc.visits_induction (J := fun c => c.shared.store.Completed i) hi ?_ hlast
      rintro c₁ e c₂ ⟨fs, fs', rfl, hfs, hnext⟩ hc₁ hi₁
      -- A step of the middle part of the run is a step of the run.
      have hpass : (system cfg).Passes c₀ (es₁ ++ (fs ++ e :: fs') ++ es₃) c₁ e c₂ :=
        ⟨es₁ ++ fs, fs' ++ es₃, by simp, System.run_append.2 ⟨c, hrun, hfs⟩, hnext⟩
      exact (completed_next_iff hc₁ hnext hi₁).2 (hno _ _ _ i hpass hi₁)
    exact ⟨hi', fun e c'' hnext => not_claimed_of_completed (hc.run hrun') hnext hi'⟩

end StaysCompleted

/-- Completed jobs stay completed over a run exactly when no commit of `capture_failure` writes the
status of one. This is so when no claim takes a job that another worker still has in hand. -/
theorem completed_stays (cfg : Settings) (clock : Timestamp) (cranes : List Uuid)
    (es : List (Event Action)) :
    (StaysCompleted cfg (initial clock cranes) es ↔
      ∀ c e c' i, (system cfg).Passes (initial clock cranes) es c e c' →
        c.shared.store.Completed i → ¬ Overwrites cfg c e i) ∧
    ((∀ c e c', (system cfg).Passes (initial clock cranes) es c e c' →
      ∀ i ∈ claimed cfg c e, ∀ q, q ≠ e.pid → i ∉ (c.procs q).inHand) →
      StaysCompleted cfg (initial clock cranes) es) := by
  have hinit := holds_initial cfg clock cranes
  refine ⟨staysCompleted_iff hinit, fun hclaim => (staysCompleted_iff hinit).2 ?_⟩
  intro c e c' i hpass hi
  have hx : Exclusive c := hinit.visits_induction (exclusive_initial clock cranes)
    (fun c₁ e₁ c₂ hpass₁ hc₁ hx₁ => hx₁.next hc₁ hpass₁.next (hclaim c₁ e₁ c₂ hpass₁))
    hpass.visits_left
  exact hx.not_overwrites hpass.next hi

/-- The status of the job whose failure an event records. -/
def failedJobStatus (cfg : Settings) (c : State) (e : Event Action) : Option JobStatus :=
  match writeOf cfg c e with
  | .captureFailure _ _ _ read => (c.shared.store.job read.id).map OutboxJob.status
  | _ => none

/-- A job whose first delete fails, and whose second delete succeeds. -/
def retryRun : List (Event Action) :=
  abandonedRun ++ claimEvents 1 abandonedJob ++ failureEvents 1 ++ [⟨3, .tick 2⟩] ++
    claimEvents 2 (captureFailure {} 1 0 "timeout" (abandonedJob.claim {} 1)
      (abandonedJob.claim {} 1)) ++ successEvents 2

/-- The job is completed, and stays so. -/
theorem completed_stays_retry : ((system {}).run (initial 0 [1]) retryRun).map
    (fun c => (c.shared.store.job 4).map OutboxJob.status) = some (some .completed) ∧
      StaysCompleted {} (initial 0 [1]) retryRun := by
  refine ⟨by decide +kernel, (completed_stays {} 0 [1] retryRun).1.2 ?_⟩
  rintro c e c' i hpass ⟨job, hjob, hstatus⟩ ⟨now, backoff, err_str, read, hw, rfl, -⟩
  have hall : ((system {}).trace (failedJobStatus {}) (initial 0 [1]) retryRun).all
      (· ≠ some .completed) = true := by decide +kernel
  have hne := List.all_eq_true.1 hall _ hpass.mem_trace
  simp [failedJobStatus, hw, hjob, hstatus] at hne

/-- A worker is still in its storage call when its lease expires. Another worker claims the job and
finishes it. Then the call of the first one fails, and its `capture_failure` puts the job back. -/
theorem completed_job_reopened : ¬ StaysCompleted {} (initial 0 [1])
    (abandonedRun ++ claimEvents 1 abandonedJob ++ [⟨3, .tick 300000002⟩] ++
      claimEvents 2 (abandonedJob.claim {} 1) ++ successEvents 2 ++ failureEvents 1) := by
  intro hstays
  have hcompleted : ((system {}).run (initial 0 [1]) (abandonedRun ++ claimEvents 1 abandonedJob ++
      [⟨3, .tick 300000002⟩] ++ claimEvents 2 (abandonedJob.claim {} 1) ++ successEvents 2)).map
      (fun c => (c.shared.store.job 4).map OutboxJob.status) = some (some .completed) := by
    decide +kernel
  have hreopened : ((system {}).run (initial 0 [1]) (abandonedRun ++ claimEvents 1 abandonedJob ++
      [⟨3, .tick 300000002⟩] ++ claimEvents 2 (abandonedJob.claim {} 1) ++ successEvents 2 ++
      failureEvents 1)).map (fun c => (c.shared.store.job 4).map OutboxJob.status)
      = some (some .pending) := by decide +kernel
  obtain ⟨c, hc, hstatus⟩ := Option.map_eq_some_iff.1 hcompleted
  obtain ⟨c', hc', hstatus'⟩ := Option.map_eq_some_iff.1 hreopened
  obtain ⟨c₁, hc₁, hrun⟩ := System.run_append.1 hc'
  obtain rfl : c = c₁ := Option.some.inj (hc.symm.trans hc₁)
  obtain ⟨⟨job, hjob, hdone⟩, -⟩ := hstays 4 _ (failureEvents 1) [] c c' (by simp) hc hrun
    (Option.map_eq_some_iff.1 hstatus)
  rw [hjob, Option.map_some, hdone] at hstatus'
  cases hstatus'

end CraneTracker.Pipeline
