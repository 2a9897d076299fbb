import CraneTracker.Pipeline.WellFormed

/-!
# Workers that keep to their leases

A lease does not stop anybody. It is a promise that the worker will have recorded an outcome by the
time it expires, and the other workers trust it. `Timely` says of a run that the promise is kept: no
worker has a job in hand when the lease of its claim has expired. Then any number of workers is as good
as one. No job is in two hands, a row is written as it was read, and every job is well formed
(`timely_workers`).

A worker that stops takes no job with it, but it leaves one behind that counts an attempt without an
outcome. When nobody does (`Drops`), the attempts of a job are within the limit, and a failed job has
made all of them (`timely_attempts`).
-/

namespace CraneTracker.Pipeline

open Interleaving Table

/-- In the run `es` from `c₀`, the process `p` has claimed the job `i` with a lease until `t`, and has
had it in hand ever since. -/
def Holding (cfg : Settings) (c₀ : State) (es : List (Event Action)) (p : ℕ) (i : Uuid)
    (t : Timestamp) : Prop :=
  ∃ es₁ e es₂ c c' now jobs, es = es₁ ++ e :: es₂ ∧ (system cfg).run c₀ es₁ = some c ∧
    (system cfg).next c e = some c' ∧ e.pid = p ∧ writeOf cfg c e = .claimJobs now jobs ∧
    i ∈ jobs.map OutboxJob.id ∧ t = now + cfg.lock_lease_window * 1000000 ∧
    ∀ c₁, (system cfg).Visits c' es₂ c₁ → i ∈ (c₁.procs p).inHand

/-- In the run `es` from `c₀`, no worker has a job in hand when the lease of its claim has expired. -/
def Timely (cfg : Settings) (c₀ : State) (es : List (Event Action)) : Prop :=
  ∀ es₁ es₂ c p i t, es = es₁ ++ es₂ → (system cfg).run c₀ es₁ = some c →
    Holding cfg c₀ es₁ p i t → c.shared.store.clock ≤ t

/-- The step from `c` to `c'` by `e` takes a job out of the hands of its process without an outcome. -/
def Drops (cfg : Settings) (c : State) (e : Event Action) (c' : State) : Prop :=
  ∃ i ∈ (c.procs e.pid).inHand, i ∉ (c'.procs e.pid).inHand ∧ recorded cfg c e ≠ some i

/-- Every job in hand is as its claim left it, with the lease of the claim. -/
def Leased (cfg : Settings) (c₀ : State) (es : List (Event Action)) (c : State) : Prop :=
  ∀ p i, i ∈ (c.procs p).inHand → ∃ t job, Holding cfg c₀ es p i t ∧
    c.shared.store.job i = some job ∧ job.status = .processing ∧ job.lease_expires_at = some t

section Timely

variable {cfg : Settings} {c₀ c c' : State} {es : List (Event Action)} {e : Event Action} {p : ℕ}
  {i : Uuid} {t : Timestamp}

/-- The beginning of a timely run is timely. -/
theorem Timely.of_append {es' : List (Event Action)} (h : Timely cfg c₀ (es ++ es')) :
    Timely cfg c₀ es := by
  rintro es₁ es₂ c p i t rfl hrun hheld
  exact h es₁ (es₂ ++ es') c p i t (List.append_assoc _ _ _) hrun hheld

/-- A job stays held while it stays in the hands of its process. -/
theorem Holding.next (h : Holding cfg c₀ es p i t) (hrun : (system cfg).run c₀ es = some c)
    (hnext : (system cfg).next c e = some c') (hi : i ∈ (c'.procs p).inHand) :
    Holding cfg c₀ (es ++ [e]) p i t := by
  obtain ⟨es₁, e₁, es₂, c₁, c₂, now, jobs, rfl, hrun₁, hnext₁, hpid, hw, hmem, ht, hhand⟩ := h
  refine ⟨es₁, e₁, es₂ ++ [e], c₁, c₂, now, jobs, by simp, hrun₁, hnext₁, hpid, hw, hmem, ht, ?_⟩
  rintro c₃ ⟨fs, fs', hfs, hrun₃⟩
  rcases List.eq_nil_or_concat fs' with rfl | ⟨gs, x, rfl⟩
  -- The last state of the run is the one that the step leads to.
  · rw [List.append_nil] at hfs
    obtain ⟨c₄, hrun₄, hrest⟩ := System.run_append.1 hrun
    obtain rfl : c₁ = c₄ := Option.some.inj (hrun₁.symm.trans hrun₄)
    obtain ⟨c₅, hnext₅, hrun₅⟩ := System.run_cons.1 hrest
    obtain rfl : c₂ = c₅ := Option.some.inj (hnext₁.symm.trans hnext₅)
    rw [← hfs, System.run_concat] at hrun₃
    obtain ⟨c₆, hrun₆, hnext₆⟩ := hrun₃
    obtain rfl : c = c₆ := Option.some.inj (hrun₅.symm.trans hrun₆)
    obtain rfl : c' = c₃ := Option.some.inj (hnext.symm.trans hnext₆)
    exact hi
  · rw [List.concat_eq_append, ← List.append_assoc] at hfs
    obtain ⟨hes₂, -⟩ := List.append_inj' hfs rfl
    exact hhand c₃ ⟨fs, gs, hes₂, hrun₃⟩

/-- A job that has just been claimed is held. -/
theorem holding_of_claimed (hc : (pipeline cfg).Holds c) (hrun : (system cfg).run c₀ es = some c)
    (hnext : (system cfg).next c e = some c') (hclaimed : i ∈ claimed cfg c e)
    (hi : i ∈ (c'.procs e.pid).inHand) : ∃ t job, Holding cfg c₀ (es ++ [e]) e.pid i t ∧
      c'.shared.store.job i = some job ∧ job.status = .processing ∧
      job.lease_expires_at = some t := by
  obtain ⟨now, jobs, job, hw, hmem, hid⟩ := mem_claimed.1 hclaimed
  have hguard := guarded_writeOf hc hnext
  rw [hw] at hguard
  obtain ⟨-, hrow, -⟩ := hguard.2.2 job hmem
  have hids : job.id ∈ jobs.map OutboxJob.id := List.mem_map_of_mem hmem
  refine ⟨now + cfg.lock_lease_window * 1000000, job.claim cfg now, ?_, ?_, rfl, rfl⟩
  · refine ⟨es, e, [], c, c', now, jobs, rfl, hrun, hnext, rfl, hw, hid ▸ hids, rfl, ?_⟩
    rintro c₁ ⟨fs, fs', hfs, hrun₁⟩
    obtain ⟨rfl, -⟩ := List.append_eq_nil_iff.1 hfs.symm
    obtain rfl : c' = c₁ := Option.some.inj hrun₁
    exact hi
  · rw [store_next hnext, hw, Store.job_claimJobs, ← hid, hrow, Option.map_some, if_pos hids]

/-- In a timely run a claim takes no job out of the hands of another process: its lease has not
expired. -/
theorem Leased.not_in_hand (hl : Leased cfg c₀ es c) (htimely : Timely cfg c₀ es)
    (hrun : (system cfg).run c₀ es = some c) (hc : (pipeline cfg).Holds c)
    (hnext : (system cfg).next c e = some c') :
    ∀ i ∈ claimed cfg c e, ∀ q, q ≠ e.pid → i ∉ (c.procs q).inHand := by
  intro i hi q _ hmem
  obtain ⟨t, job, hheld, hrow, hstatus, hlease⟩ := hl q i hmem
  have hclock : c.shared.store.clock ≤ t :=
    htimely es [] c q i t (List.append_nil es).symm hrun hheld
  obtain ⟨now, job', hrow', hclaimable, hnow, -⟩ := job_claimed hc hnext hi
  obtain rfl : job = job' := Option.some.inj (hrow.symm.trans hrow')
  rcases (OutboxJob.claimable_iff.1 hclaimable).2 with ⟨hpending, -⟩ | ⟨-, t', ht', hlt⟩
  · exact absurd (hstatus.symm.trans hpending) (by simp)
  · obtain rfl : t = t' := Option.some.inj (hlease.symm.trans ht')
    exact absurd (hlt.trans_le (hnow.trans hclock)) (lt_irrefl t)

/-- A step that takes no job out of the hands of another process leaves the jobs in hand as their claims
left them. -/
theorem Leased.next (hl : Leased cfg c₀ es c) (hx : Exclusive c)
    (hrun : (system cfg).run c₀ es = some c) (hc : (pipeline cfg).Holds c)
    (hnext : (system cfg).next c e = some c')
    (hclaim : ∀ i ∈ claimed cfg c e, ∀ q, q ≠ e.pid → i ∉ (c.procs q).inHand) :
    Leased cfg c₀ (es ++ [e]) c' := by
  intro p i hi
  by_cases hclaimed : i ∈ claimed cfg c e
  · have hpid : p = e.pid := by
      by_contra hp
      rw [System.procs_next_of_ne hnext hp] at hi
      exact hclaim i hclaimed p hp hi
    rw [hpid] at hi ⊢
    exact holding_of_claimed hc hrun hnext hclaimed hi
  · have hold : i ∈ (c.procs p).inHand := by
      rcases mem_inHand_next hc hnext hi with hold | ⟨-, hmem⟩
      · exact hold
      · exact absurd hmem hclaimed
    obtain ⟨t, job, hheld, hrow, hstatus, hlease⟩ := hl p i hold
    exact ⟨t, job, hheld.next hrun hnext hi,
      job_kept hc hnext hclaimed (hx.recorded_ne hnext hold hi) hrow, hstatus, hlease⟩

end Timely

/-! ## Any number of workers -/

/-- What timely workers keep: the jobs are in one hand each, as their claims left them, the rows that
are about to be written are as they were read, and every job is well formed. -/
structure Kept (cfg : Settings) (c₀ : State) (es : List (Event Action)) (c : State) : Prop where
  exclusive : Exclusive c
  leased : Leased cfg c₀ es c
  undisturbed : Undisturbed c
  wellFormed : c.shared.store.WellFormed cfg

section Workers

variable {cfg : Settings} {clock : Timestamp} {cranes : List Uuid} {es : List (Event Action)}
  {c c' : State} {e : Event Action}

/-- Before the first request there is nothing to keep. -/
theorem kept_initial (cfg : Settings) (clock : Timestamp) (cranes : List Uuid) :
    Kept cfg (initial clock cranes) [] (initial clock cranes) where
  exclusive := exclusive_initial clock cranes
  leased p i hi := by cases hi
  undisturbed p read hread := by cases hread
  wellFormed := by
    constructor
    · intro i job hjob
      cases hjob
    · intro i job j photo hjob
      cases hjob

/-- A step of a timely run keeps it. -/
theorem Kept.next (hk : Kept cfg (initial clock cranes) es c) (hmax : 1 ≤ cfg.max_worker_attempts)
    (htimely : Timely cfg (initial clock cranes) es)
    (hrun : (system cfg).run (initial clock cranes) es = some c)
    (hnext : (system cfg).next c e = some c') :
    Kept cfg (initial clock cranes) (es ++ [e]) c' := by
  have hc := (holds_initial cfg clock cranes).run hrun
  have hclaim := hk.leased.not_in_hand htimely hrun hc hnext
  exact ⟨hk.exclusive.next hc hnext hclaim, hk.leased.next hk.exclusive hrun hc hnext hclaim,
    hk.undisturbed.next_of_not_in_hand hk.exclusive hc hnext hclaim,
    hk.wellFormed.next hmax hk.undisturbed hc hnext⟩

/-- A timely run keeps it. -/
theorem kept_run (hmax : 1 ≤ cfg.max_worker_attempts)
    (htimely : Timely cfg (initial clock cranes) es)
    (hrun : (system cfg).run (initial clock cranes) es = some c) :
    Kept cfg (initial clock cranes) es c := by
  refine System.run_induction (I := fun es c => Timely cfg (initial clock cranes) es →
    Kept cfg (initial clock cranes) es c) (fun _ => kept_initial cfg clock cranes) ?_ hrun htimely
  intro es c e c' hrun hnext ih htimely
  exact (ih htimely.of_append).next hmax htimely.of_append hrun hnext

end Workers

/-- Given `MAX_ATTEMPTS >= 1`, a timely run with any number of workers is as good as one with one. In
every state no job is in two hands, a row that a worker has read and is about to write is still as it
was read, every job is well formed, and no photo has the key of a completed job. A job that is completed
stays so, and nobody claims it again. -/
theorem timely_workers {cfg : Settings} (hmax : 1 ≤ cfg.max_worker_attempts) {clock : Timestamp}
    {cranes : List Uuid} {es : List (Event Action)}
    (htimely : Timely cfg (initial clock cranes) es) :
    (∀ c, (system cfg).Visits (initial clock cranes) es c →
      (∀ p q i, i ∈ (c.procs p).inHand → i ∈ (c.procs q).inHand → p = q) ∧
      (∀ p read, (c.procs p).reading = some read → c.shared.store.job read.id = some read) ∧
      ∀ job ∈ c.shared.store.jobs, job.WellFormed cfg ∧
        (job.status = .completed → ∀ photo ∈ c.shared.store.photos,
          photo.storage_key ≠ job.storage_key)) ∧
    StaysCompleted cfg (initial clock cranes) es := by
  have hinit := holds_initial cfg clock cranes
  constructor
  · rintro c ⟨es₁, es₂, rfl, hrun⟩
    have hk := kept_run hmax htimely.of_append hrun
    have hconsistent := (hinit.run hrun).1
    refine ⟨fun p q i hp hq => ?_, hk.undisturbed, fun job hjob => ?_⟩
    · by_contra hpq
      exact hk.exclusive.disjoint hpq hp hq
    · have hrow := hconsistent.job_of_mem hjob
      exact ⟨hk.wellFormed.job hrow, fun hstatus photo hphoto =>
        hk.wellFormed.removed hrow hstatus (hconsistent.photo_of_mem hphoto)⟩
  · refine (staysCompleted_iff hinit).2 ?_
    rintro c e c' i ⟨es₁, es₂, rfl, hrun, hnext⟩ hi
    exact (kept_run hmax htimely.of_append hrun).exclusive.not_overwrites hnext hi

/-- A run that is over before the first lease expires is timely. -/
theorem timely_of_clock {cfg : Settings} {c₀ : State} {es : List (Event Action)} (T : Timestamp)
    (hclock : ((system cfg).states c₀ es).all (fun c => c.shared.store.clock ≤ T) = true)
    (hclaims : ((system cfg).trace (writeOf cfg) c₀ es).all (fun w => match w with
      | .claimJobs now _ => T ≤ now + cfg.lock_lease_window * 1000000
      | _ => true) = true) : Timely cfg c₀ es := by
  rintro es₁ es₂ c p i t rfl hrun ⟨fs, e, fs', c₁, c₂, now, jobs, rfl, hrun₁, hnext, -, hw, -, rfl, -⟩
  have hpass : (system cfg).Passes c₀ (fs ++ e :: fs' ++ es₂) c₁ e c₂ :=
    ⟨fs, fs' ++ es₂, by simp, hrun₁, hnext⟩
  have hvisit : (system cfg).Visits c₀ (fs ++ e :: fs' ++ es₂) c := ⟨_, es₂, rfl, hrun⟩
  have hlease := List.all_eq_true.1 hclaims _ hpass.mem_trace
  have hover := List.all_eq_true.1 hclock _ hvisit.mem_states
  rw [hw] at hlease
  exact (of_decide_eq_true hover).trans (of_decide_eq_true hlease)

/-- `retryRun` is over long before its leases expire. -/
theorem timely_retryRun : Timely {} (initial 0 [1]) retryRun :=
  timely_of_clock 2 (by decide +kernel) (by decide +kernel)

/-- A job whose first delete fails is retried by another worker, and is well formed all the time. -/
theorem timely_workers_retry : ((system {}).run (initial 0 [1]) retryRun).map
    (fun c => (c.shared.store.job 4).map OutboxJob.status) = some (some .completed) ∧
      StaysCompleted {} (initial 0 [1]) retryRun :=
  ⟨by decide +kernel, (timely_workers (by decide) timely_retryRun).2⟩

/-! ## The retry budget -/

section Attempts

variable {cfg : Settings} {clock : Timestamp} {cranes : List Uuid} {es : List (Event Action)}
  {c c' : State} {e : Event Action} {i : Uuid}

/-- A process that claims a job has it in hand, and had nothing in hand before. -/
theorem inHand_of_claimed (h : (system cfg).next c e = some c') (hi : i ∈ claimed cfg c e) :
    i ∈ (c'.procs e.pid).inHand ∧ (c.procs e.pid).inHand = [] := by
  obtain ⟨now, jobs, job, hw, hmem, rfl⟩ := mem_claimed.1 hi
  have horigin := writeOf_origin h
  rw [hw] at horigin
  obtain ⟨next, hl, ha⟩ := horigin
  obtain ⟨o, ho, hproc, -⟩ := outcome_next h
  have hwrite : writeOf cfg c e = o.write := by
    rw [writeOf, ho]
    rfl
  rw [hl, ha] at ho
  obtain ⟨o', ho', rfl⟩ := Option.map_eq_some_iff.1 ho
  cases Worker.step_cases ho' with
  | claimCommit =>
    rw [hproc, hl]
    refine ⟨?_, rfl⟩
    show job.id ∈ (jobs.map OutboxJob.toClaimedJob).map ClaimedJob.id
    rw [List.map_map]
    exact List.mem_map_of_mem hmem

/-- A job for which an outcome is recorded is not `PROCESSING` after it. -/
theorem status_of_recorded (hu : Undisturbed c) (h : (system cfg).next c e = some c')
    (hr : recorded cfg c e = some i) {job' : OutboxJob} (hjob' : c'.shared.store.job i = some job') :
    job'.status ≠ .processing := by
  unfold recorded at hr
  split at hr
  · rename_i now backoff err_str read hw
    obtain rfl := Option.some.inj hr
    rw [store_next h, hw, Store.job_captureFailure] at hjob'
    obtain ⟨job, hjob, rfl⟩ := Option.map_eq_some_iff.1 hjob'
    obtain rfl := hu.eq_of_captureFailure h hw hjob
    have hstatus : (captureFailure cfg now backoff err_str job job).status = failureStatus cfg job :=
      assign_self _ _
    rw [if_pos rfl, hstatus, failureStatus]
    split_ifs <;> simp
  · rename_i now read photo_ids hw
    obtain rfl := Option.some.inj hr
    rw [store_next h, hw, Store.job_captureSuccess] at hjob'
    obtain ⟨job, hjob, rfl⟩ := Option.map_eq_some_iff.1 hjob'
    obtain rfl := hu.eq_of_captureSuccess h hw hjob
    have hstatus : (captureSuccess now job job).status = .completed := assign_self _ _
    rw [if_pos rfl, hstatus]
    simp
  · cases hr

/-- Every job that is `PROCESSING` is in the hands of a worker. -/
def Handed (c : State) : Prop :=
  ∀ {i job}, c.shared.store.job i = some job → job.status = .processing →
    ∃ p, i ∈ (c.procs p).inHand

/-- A step that drops no job leaves the jobs that are `PROCESSING` in hand. -/
theorem Handed.next (hh : Handed c) (hu : Undisturbed c) (hc : (pipeline cfg).Holds c)
    (h : (system cfg).next c e = some c') (hdrops : ¬ Drops cfg c e c') : Handed c' := by
  intro i job' hjob' hstatus
  have hr : recorded cfg c e ≠ some i := fun hr => status_of_recorded hu h hr hjob' hstatus
  by_cases hi : i ∈ claimed cfg c e
  · exact ⟨e.pid, (inHand_of_claimed h hi).1⟩
  · have hstep := job_next hc h i
    rw [hjob'] at hstep
    generalize hjob : c.shared.store.job i = r at hstep
    cases hstep with
    | same =>
      obtain ⟨p, hp⟩ := hh hjob hstatus
      refine ⟨p, ?_⟩
      by_cases hpid : p = e.pid
      · subst hpid
        by_contra hnot
        exact hdrops ⟨i, hp, hnot, hr⟩
      · rwa [System.procs_next_of_ne h hpid]
    | created => cases hstatus
    | claimed now jobs _ hw hmem =>
      exact absurd (mem_claimed.2 ⟨now, jobs, _, hw, hmem, key_of_row hjob⟩) hi
    | failed _ _ _ read _ hw hid => exact absurd (by rw [recorded, hw, ← hid]) hr
    | succeeded _ read _ _ hw hid => exact absurd (by rw [recorded, hw, ← hid]) hr

/-- When no job is dropped, a claim in a timely run takes pending jobs only. -/
theorem Handed.pending_of_claimed (hh : Handed c) (hk : Kept cfg (initial clock cranes) es c)
    (htimely : Timely cfg (initial clock cranes) es)
    (hrun : (system cfg).run (initial clock cranes) es = some c)
    (hnext : (system cfg).next c e = some c') (hi : i ∈ claimed cfg c e) {job : OutboxJob}
    (hjob : c.shared.store.job i = some job) : job.status = .pending := by
  have hc := (holds_initial cfg clock cranes).run hrun
  obtain ⟨now, job₁, hjob₁, hclaimable, -⟩ := job_claimed hc hnext hi
  obtain rfl : job = job₁ := Option.some.inj (hjob.symm.trans hjob₁)
  rcases (OutboxJob.claimable_iff.1 hclaimable).2 with ⟨hpending, -⟩ | ⟨hprocessing, -⟩
  · exact hpending
  -- A job that is `PROCESSING` is in hand, and the claim does not take it from there.
  · obtain ⟨p, hp⟩ := hh hjob hprocessing
    by_cases hpid : p = e.pid
    · subst hpid
      rw [(inHand_of_claimed hnext hi).2] at hp
      cases hp
    · exact absurd hp (hk.leased.not_in_hand htimely hrun hc hnext i hi p hpid)

/-- The attempts of every job are within the limit. -/
def WithinLimit (cfg : Settings) (s : Store) : Prop :=
  ∀ {i job}, s.job i = some job → job.attempts ≤ cfg.max_worker_attempts

/-- A claim of pending jobs keeps the attempts within the limit, and so does every other step. -/
theorem WithinLimit.next (hb : WithinLimit cfg c.shared.store) (hs : c.shared.store.WellFormed cfg)
    (hc : (pipeline cfg).Holds c) (h : (system cfg).next c e = some c')
    (hpending : ∀ i ∈ claimed cfg c e, ∀ job, c.shared.store.job i = some job →
      job.status = .pending) : WithinLimit cfg c'.shared.store := by
  intro i job' hjob'
  have hstep := job_next hc h i
  rw [hjob'] at hstep
  generalize hjob : c.shared.store.job i = r at hstep
  cases hstep with
  | same => exact hb hjob
  | created => exact Nat.zero_le _
  | claimed now jobs job hw hmem =>
    have hi : i ∈ claimed cfg c e := mem_claimed.2 ⟨now, jobs, job, hw, hmem, key_of_row hjob⟩
    exact ((hs.job hjob).pending (hpending i hi job hjob)).2
  | failed _ _ _ _ job => exact @hb i job hjob
  | succeeded _ _ _ job => exact @hb i job hjob

/-- A timely run that drops no job keeps every job that is `PROCESSING` in hand, and the attempts within
the limit. -/
theorem handed_run (hmax : 1 ≤ cfg.max_worker_attempts)
    (htimely : Timely cfg (initial clock cranes) es)
    (hdrops : ∀ c e c', (system cfg).Passes (initial clock cranes) es c e c' → ¬ Drops cfg c e c')
    (hrun : (system cfg).run (initial clock cranes) es = some c) :
    Handed c ∧ WithinLimit cfg c.shared.store := by
  refine System.run_induction (I := fun es c => Timely cfg (initial clock cranes) es →
    (∀ c e c', (system cfg).Passes (initial clock cranes) es c e c' → ¬ Drops cfg c e c') →
      Handed c ∧ WithinLimit cfg c.shared.store) ?_ ?_ hrun htimely hdrops
  · refine fun _ _ => ⟨?_, ?_⟩
    · intro i job hjob
      cases hjob
    · intro i job hjob
      cases hjob
  · intro es c e c' hrun hnext ih htimely hdrops
    have hc := (holds_initial cfg clock cranes).run hrun
    have hk := kept_run hmax htimely.of_append hrun
    obtain ⟨hh, hb⟩ := ih htimely.of_append fun c e c' hpass => hdrops c e c' (hpass.append _)
    refine ⟨hh.next hk.undisturbed hc hnext (hdrops c e c' (.last hrun hnext)), ?_⟩
    exact hb.next hk.wellFormed hc hnext fun i hi job hjob =>
      hh.pending_of_claimed hk htimely.of_append hrun hnext hi hjob

end Attempts

/-- Given `MAX_ATTEMPTS >= 1`, in every state of a timely run in which no worker drops a job, a job has
been claimed `MAX_ATTEMPTS` times at most, exactly that often if it has failed, and is in the hands of a
worker if it is `PROCESSING`. -/
theorem timely_attempts {cfg : Settings} (hmax : 1 ≤ cfg.max_worker_attempts) {clock : Timestamp}
    {cranes : List Uuid} {es : List (Event Action)}
    (htimely : Timely cfg (initial clock cranes) es)
    (hdrops : ∀ c e c', (system cfg).Passes (initial clock cranes) es c e c' → ¬ Drops cfg c e c')
    {c : State} (hrun : (system cfg).run (initial clock cranes) es = some c) :
    ∀ job ∈ c.shared.store.jobs,
      ((system cfg).trace (claimed cfg) (initial clock cranes) es).countP (job.id ∈ ·)
        ≤ cfg.max_worker_attempts ∧
      (job.status = .failed →
        ((system cfg).trace (claimed cfg) (initial clock cranes) es).countP (job.id ∈ ·)
          = cfg.max_worker_attempts) ∧
      (job.status = .processing → ∃ p, job.id ∈ (c.procs p).inHand) := by
  intro job hjob
  have hrow := ((holds_initial cfg clock cranes).run hrun).1.job_of_mem hjob
  have hk := kept_run hmax htimely hrun
  obtain ⟨hh, hb⟩ := handed_run hmax htimely hdrops hrun
  have hcount := attempts_eq_count hrun job.id
  rw [hrow, Option.map_some, Option.getD_some] at hcount
  rw [← hcount]
  refine ⟨hb hrow, fun hfailed => ?_, hh hrow⟩
  exact le_antisymm (hb hrow) ((hk.wellFormed.job hrow).failed hfailed).2.2

/-- Whether a step leaves the jobs of its process in its hands, or records an outcome for them. -/
def keepsHands (cfg : Settings) (c : State) (e : Event Action) : Bool :=
  match (system cfg).next c e with
  | some c' => (c.procs e.pid).inHand.all fun i =>
    (c'.procs e.pid).inHand.any (fun j => j = i) || recorded cfg c e = some i
  | none => true

/-- A job that fails at its only attempt has been claimed once. -/
theorem timely_attempts_failed :
    ∃ c, (system { max_worker_attempts := 1 }).run (initial 0 [1]) (abandonedRun ++
      claimEvents 1 abandonedJob ++ failureEvents 1) = some c ∧
      c.shared.store.jobs.map OutboxJob.status = [.failed] ∧
      ∀ job ∈ c.shared.store.jobs, job.status = .failed →
        ((system { max_worker_attempts := 1 }).trace (claimed { max_worker_attempts := 1 })
          (initial 0 [1]) (abandonedRun ++ claimEvents 1 abandonedJob ++ failureEvents 1)).countP
            (job.id ∈ ·) = 1 := by
  have hrun : ((system { max_worker_attempts := 1 }).run (initial 0 [1]) (abandonedRun ++
      claimEvents 1 abandonedJob ++ failureEvents 1)).map
      (fun c => c.shared.store.jobs.map OutboxJob.status) = some [.failed] := by decide +kernel
  have htimely : Timely { max_worker_attempts := 1 } (initial 0 [1]) (abandonedRun ++
      claimEvents 1 abandonedJob ++ failureEvents 1) :=
    timely_of_clock 2 (by decide +kernel) (by decide +kernel)
  have hall : ((system { max_worker_attempts := 1 }).trace (keepsHands { max_worker_attempts := 1 })
      (initial 0 [1]) (abandonedRun ++ claimEvents 1 abandonedJob ++ failureEvents 1)).all id
        = true := by decide +kernel
  obtain ⟨c, hc, hstatus⟩ := Option.map_eq_some_iff.1 hrun
  refine ⟨c, hc, hstatus, fun job hjob =>
    (timely_attempts (by decide) htimely (fun c e c' hpass => ?_) hc job hjob).2.1⟩
  rintro ⟨i, hi, hnot, hr⟩
  have hkeeps := List.all_eq_true.1 hall _ hpass.mem_trace
  simp only [id, keepsHands, hpass.next, List.all_eq_true] at hkeeps
  have hor := hkeeps i hi
  simp [hr, hnot] at hor

end CraneTracker.Pipeline
