import CraneTracker.Pipeline.Leases

/-!
# The retry budget

`claim_jobs` counts an attempt, and only `capture_failure` compares the count with `MAX_ATTEMPTS`. A
job that leaves a worker without an outcome comes back by its lease, and is claimed again whatever its
count. `WithinBudget` says what must hold of a step for the count to stay within the limit, and
`attempts_le` proves that it does over every run of such steps.
-/

namespace CraneTracker.Pipeline

open Interleaving Table

/-- The step from `c` by `e` respects the limit: a job that it claims from an expired lease has
attempts left, and so does a job that `capture_failure` has read with attempts left and puts back. -/
structure WithinBudget (cfg : Settings) (c : State) (e : Event Action) : Prop where
  reclaimed : ∀ {i job}, i ∈ claimed cfg c e → c.shared.store.job i = some job →
    job.status = .processing → job.attempts < cfg.max_worker_attempts
  put_back : ∀ {now backoff err_str read job},
    writeOf cfg c e = .captureFailure now backoff err_str read →
    c.shared.store.job read.id = some job → read.status ≠ .pending →
    read.attempts < cfg.max_worker_attempts → job.attempts < cfg.max_worker_attempts

/-- The attempts of a job are within the limit, and below it while the job waits to be claimed. -/
def Budgeted (cfg : Settings) (s : Store) : Prop :=
  ∀ {i job}, s.job i = some job → job.attempts ≤ cfg.max_worker_attempts ∧
    (job.status = .pending → job.attempts < cfg.max_worker_attempts)

section Budget

variable {cfg : Settings} {c c' : State} {e : Event Action}

/-- A step that respects the limit keeps the attempts within it. -/
theorem Budgeted.next (hmax : 1 ≤ cfg.max_worker_attempts) (hb : Budgeted cfg c.shared.store)
    (hc : (pipeline cfg).Holds c) (h : (system cfg).next c e = some c')
    (hw : WithinBudget cfg c e) : Budgeted cfg c'.shared.store := by
  intro i job' hjob'
  have hstep := job_next hc h i
  rw [hjob'] at hstep
  generalize hjob : c.shared.store.job i = r at hstep
  cases hstep with
  | same => exact hb hjob
  | created => exact ⟨Nat.zero_le _, fun _ => hmax⟩
  | claimed now jobs job hwrite hmem hlock hclaimable =>
    have hi : i ∈ claimed cfg c e := mem_claimed.2 ⟨now, jobs, job, hwrite, hmem, key_of_row hjob⟩
    have hlt : job.attempts < cfg.max_worker_attempts := by
      -- A pending job has attempts left. One with an expired lease has by hypothesis.
      rcases (OutboxJob.claimable_iff.1 hclaimable).2 with ⟨hpending, -⟩ | ⟨hprocessing, -⟩
      · exact (hb hjob).2 hpending
      · exact hw.reclaimed hi hjob hprocessing
    refine ⟨hlt, fun hpending => ?_⟩
    cases hpending
  | failed now backoff err_str read job hwrite hid =>
    subst hid
    obtain ⟨hle, hlt⟩ := hb hjob
    refine ⟨hle, fun hpending => ?_⟩
    -- The flush writes the status only if it differs from the one that was read.
    by_cases hread : read.status = failureStatus cfg read
    · rw [captureFailure, assign, if_pos hread] at hpending
      exact hlt hpending
    · have hfailure : failureStatus cfg read = .pending := by
        rw [captureFailure, assign, if_neg hread] at hpending
        exact hpending
      have hattempts : read.attempts < cfg.max_worker_attempts := by
        unfold failureStatus at hfailure
        split_ifs at hfailure with hattempts
        exact hattempts
      rw [hfailure] at hread
      have hbelow : job.attempts < cfg.max_worker_attempts :=
        hw.put_back hwrite hjob hread hattempts
      exact hbelow
  | succeeded now read photo_ids job =>
    obtain ⟨hle, hlt⟩ := hb hjob
    refine ⟨hle, fun hpending => ?_⟩
    have hor : (captureSuccess now read job).status = .completed ∨
        (captureSuccess now read job).status = job.status := captureSuccess_status
    rcases hor with hstatus | hstatus
    · exact absurd (hstatus.symm.trans hpending) (by simp)
    · exact hlt (hstatus.symm.trans hpending)

end Budget

/-- Given `MAX_ATTEMPTS >= 1`, in every state of a run whose steps respect the limit, every job has at
most `MAX_ATTEMPTS` attempts. -/
theorem attempts_le {cfg : Settings} (hmax : 1 ≤ cfg.max_worker_attempts) {clock : Timestamp}
    {cranes : List Uuid} {es : List (Event Action)}
    (hes : ∀ c e c', (system cfg).Passes (initial clock cranes) es c e c' → WithinBudget cfg c e)
    {c : State} (hv : (system cfg).Visits (initial clock cranes) es c) :
    ∀ job ∈ c.shared.store.jobs, job.attempts ≤ cfg.max_worker_attempts := by
  have hinit := holds_initial cfg clock cranes
  have hnone : Budgeted cfg (initial clock cranes).shared.store := by
    intro i job hjob
    cases hjob
  have hbudget : Budgeted cfg c.shared.store := hinit.visits_induction hnone
    (J := fun c => Budgeted cfg c.shared.store)
    (fun c₁ e c₂ hpass hc₁ hb₁ => hb₁.next hmax hc₁ hpass.next (hes c₁ e c₂ hpass)) hv
  have hconsistent := (hinit.visits hv).1
  intro job hjob
  exact (hbudget (hconsistent.job_of_mem hjob)).1

/-- Whether the jobs that a step claims, and the one whose failure it records, have attempts left. -/
def respectsLimit (cfg : Settings) (c : State) (e : Event Action) : Bool :=
  match writeOf cfg c e with
  | .captureFailure _ _ _ read =>
    (c.shared.store.job read.id).all fun job => job.attempts < cfg.max_worker_attempts
  | .claimJobs _ jobs => jobs.all fun job => job.attempts < cfg.max_worker_attempts
  | _ => true

/-- A step for which that holds respects the limit. -/
theorem withinBudget_of_respectsLimit {cfg : Settings} {c c' : State} {e : Event Action}
    (hc : (pipeline cfg).Holds c) (h : (system cfg).next c e = some c')
    (hlimit : respectsLimit cfg c e = true) : WithinBudget cfg c e := by
  constructor
  · intro i job hi hjob _
    obtain ⟨now, jobs, job', hw, hmem, rfl⟩ := mem_claimed.1 hi
    have hguard := guarded_writeOf hc h
    rw [hw] at hguard
    obtain ⟨-, hrow, -⟩ := hguard.2.2 job' hmem
    obtain rfl : job = job' := Option.some.inj (hjob.symm.trans hrow)
    simp only [respectsLimit, hw, List.all_eq_true] at hlimit
    exact of_decide_eq_true (hlimit job hmem)
  · intro now backoff err_str read job hw hjob _ _
    simp only [respectsLimit, hw, hjob, Option.all_some] at hlimit
    exact of_decide_eq_true hlimit

/-- A worker claims the job and is shut down before it gets to it. When the lease has expired it claims
the job again, its storage call fails, and it records the failure. -/
def reclaimedRun : List (Event Action) :=
  abandonedRun ++ [⟨1, .worker .beginClaim⟩, ⟨1, .worker (.selectJobs [abandonedJob])⟩,
    ⟨1, .worker .lockNextJob⟩, ⟨1, .worker .claimCommit⟩, ⟨1, .worker .shutdown⟩,
    ⟨3, .tick 300000002⟩] ++ claimEvents 1 (abandonedJob.claim {} 1) ++ failureEvents 1

/-- A job that is claimed twice, the second time from an expired lease, and put back by a failure. -/
theorem attempts_le_reclaimed :
    ∃ c, (system {}).run (initial 0 [1]) reclaimedRun = some c ∧
      c.shared.store.jobs.map (fun job => (job.attempts, job.status)) = [(2, .pending)] ∧
      ∀ job ∈ c.shared.store.jobs, job.attempts ≤ 5 := by
  have hrun : ((system {}).run (initial 0 [1]) reclaimedRun).map (fun c =>
      c.shared.store.jobs.map (fun job => (job.attempts, job.status))) = some [(2, .pending)] := by
    decide +kernel
  have hall : ((system {}).trace (respectsLimit {}) (initial 0 [1]) reclaimedRun).all id = true := by
    decide +kernel
  obtain ⟨c, hc, hjobs⟩ := Option.map_eq_some_iff.1 hrun
  refine ⟨c, hc, hjobs, attempts_le (by decide) (fun c e c' hpass => ?_) (System.Visits.last hc)⟩
  exact withinBudget_of_respectsLimit ((holds_initial {} 0 [1]).visits hpass.visits_left) hpass.next
    (List.all_eq_true.1 hall _ hpass.mem_trace)

/-- With `MAX_ATTEMPTS` at `1`, a worker claims a job and is shut down before it gets to it. When the
lease has expired it claims the job again, for the second attempt. -/
theorem attempts_exceed_limit : ¬ ∀ cfg : Settings, 1 ≤ cfg.max_worker_attempts →
    ∀ c, Reachable cfg c → ∀ job ∈ c.shared.store.jobs, job.attempts ≤ cfg.max_worker_attempts := by
  intro hle
  let cfg : Settings := { max_worker_attempts := 1 }
  have hrun : ((system cfg).run (initial 0 [1]) (abandonedRun ++ [⟨1, .worker .beginClaim⟩,
      ⟨1, .worker (.selectJobs [abandonedJob])⟩, ⟨1, .worker .lockNextJob⟩, ⟨1, .worker .claimCommit⟩,
      ⟨1, .worker .shutdown⟩, ⟨3, .tick 300000002⟩] ++ claimEvents 1 (abandonedJob.claim cfg 1))).map
      (fun c => c.shared.store.jobs.map OutboxJob.attempts) = some [2] := by decide +kernel
  obtain ⟨c, hc, hattempts⟩ := Option.map_eq_some_iff.1 hrun
  have htwo : 2 ∈ c.shared.store.jobs.map OutboxJob.attempts := by
    rw [hattempts]
    exact List.mem_singleton_self _
  obtain ⟨job, hjob, heq⟩ := List.mem_map.1 htwo
  have hone : job.attempts ≤ 1 := hle cfg le_rfl c ⟨0, [1], _, hc⟩ job hjob
  omega

end CraneTracker.Pipeline
