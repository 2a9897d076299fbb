import CraneTracker.Pipeline.Leases

/-!
# Well-formed jobs under one worker

The status of a job says what its other columns hold: `OutboxJob.WellFormed`. Every commit changes
several of them at once, and `capture_failure` and `capture_success` write only the columns that differ
from what they read. So a job stays well formed because the row that is written is the row that was
read (`Undisturbed`). One worker at a time gives exactly that: nobody claims a job that it has in hand,
and nobody else records an outcome for it.

A well-formed job that is not finished becomes claimable by the mere passage of time
(`OutboxJob.WellFormed.eventually_claimable`), so no job is lost.
-/

namespace CraneTracker

/-- What the status of a job says of its other columns. -/
structure OutboxJob.WellFormed (cfg : Settings) (job : OutboxJob) : Prop where
  /-- It waits, with attempts left. -/
  pending : job.status = .pending →
    job.lease_expires_at = none ∧ job.attempts < cfg.max_worker_attempts
  /-- It has been claimed. -/
  processing : job.status = .processing → job.lease_expires_at.isSome = true ∧ 1 ≤ job.attempts
  /-- It has used its attempts. -/
  failed : job.status = .failed → job.lease_expires_at = none ∧ job.last_error.isSome = true ∧
    cfg.max_worker_attempts ≤ job.attempts
  /-- It is done. -/
  completed : job.status = .completed →
    job.lease_expires_at = none ∧ job.completed_at.isSome = true

section Rows

variable {cfg : Settings} {now : Timestamp}

/-- A new job is well formed, when there is an attempt for it. -/
theorem wellFormed_createTask (hmax : 1 ≤ cfg.max_worker_attempts) (now : Timestamp) (id : Uuid)
    (storage_key : String) : (createTask now id .delete storage_key).WellFormed cfg where
  pending _ := ⟨rfl, hmax⟩
  processing h := by cases h
  failed h := by cases h
  completed h := by cases h

/-- A claimed job is well formed. -/
theorem wellFormed_claim (cfg : Settings) (now : Timestamp) (job : OutboxJob) :
    (job.claim cfg now).WellFormed cfg where
  pending h := by cases h
  processing _ := ⟨rfl, Nat.le_add_left 1 job.attempts⟩
  failed h := by cases h
  completed h := by cases h

/-- A recorded failure leaves a row that is as it was read well formed. -/
theorem wellFormed_captureFailure (cfg : Settings) (now : Timestamp) (backoff : ℤ)
    (err_str : String) (read : OutboxJob) :
    (captureFailure cfg now backoff err_str read read).WellFormed cfg := by
  -- The status that is written compares the attempts with the limit.
  have hstatus : (captureFailure cfg now backoff err_str read read).status
      = failureStatus cfg read := assign_self _ _
  have hlease : (captureFailure cfg now backoff err_str read read).lease_expires_at = none :=
    assign_self _ _
  have herror : (captureFailure cfg now backoff err_str read read).last_error = some err_str :=
    assign_self _ _
  have hattempts : (captureFailure cfg now backoff err_str read read).attempts = read.attempts :=
    rfl
  unfold failureStatus at hstatus
  constructor
  · intro h
    rw [hstatus] at h
    split_ifs at h with hlt
    exact ⟨hlease, by rwa [hattempts]⟩
  · intro h
    rw [hstatus] at h
    split_ifs at h
  · intro h
    rw [hstatus] at h
    split_ifs at h with hlt
    exact ⟨hlease, by rw [herror]; rfl, by rw [hattempts]; exact Nat.le_of_not_lt hlt⟩
  · intro h
    rw [hstatus] at h
    split_ifs at h

/-- A recorded success leaves a row that is as it was read completed and well formed. -/
theorem wellFormed_captureSuccess (cfg : Settings) (now : Timestamp) (read : OutboxJob) :
    (captureSuccess now read read).WellFormed cfg := by
  have hstatus : (captureSuccess now read read).status = .completed := assign_self _ _
  have hlease : (captureSuccess now read read).lease_expires_at = none := assign_self _ _
  refine ⟨fun h => ?_, fun h => ?_, fun h => ?_, fun _ => ⟨hlease, rfl⟩⟩
  · exact absurd (hstatus.symm.trans h) (by simp)
  · exact absurd (hstatus.symm.trans h) (by simp)
  · exact absurd (hstatus.symm.trans h) (by simp)

/-- A well-formed job that is neither completed nor failed can be claimed at all late enough
times. -/
theorem OutboxJob.WellFormed.eventually_claimable {job : OutboxJob} (h : job.WellFormed cfg)
    (hcompleted : job.status ≠ .completed) (hfailed : job.status ≠ .failed) :
    ∃ t, ∀ now, t < now → job.claimable .delete now = true := by
  have hoperation : job.operation = .delete := by cases job.operation; rfl
  cases hstatus : job.status with
  | pending =>
    exact ⟨job.available_at, fun now hnow =>
      OutboxJob.claimable_iff.2 ⟨hoperation, Or.inl ⟨hstatus, hnow⟩⟩⟩
  | processing =>
    obtain ⟨t, ht⟩ := Option.isSome_iff_exists.1 (h.processing hstatus).1
    exact ⟨t, fun now hnow =>
      OutboxJob.claimable_iff.2 ⟨hoperation, Or.inr ⟨hstatus, t, ht, hnow⟩⟩⟩
  | completed => exact absurd hstatus hcompleted
  | failed => exact absurd hstatus hfailed

end Rows

end CraneTracker

namespace CraneTracker.Pipeline

open Interleaving Table

/-! ## One worker at a time -/

/-- The process is in the middle of a run of one of the worker's two jobs. -/
def Proc.busy : Proc → Bool
  | .worker .idle => false
  | .worker _ => true
  | _ => false

/-- One worker at a time: no two processes are in the middle of a run. -/
def OneWorker (c : State) : Prop :=
  ∀ p q, (c.procs p).busy = true → (c.procs q).busy = true → p = q

/-- The row that a worker has read and is about to write. -/
def Worker.reading : Worker → Option OutboxJob
  | .successFlush _ read _ => some read
  | .successDelete _ read _ => some read
  | .successCommit _ read _ _ => some read
  | .failureFlush _ _ _ read _ => some read
  | .failureCommit _ _ _ read _ => some read
  | _ => none

/-- The row that a process has read and is about to write. -/
def Proc.reading : Proc → Option OutboxJob
  | .worker w => w.reading
  | _ => none

/-- Every row that a worker has read and is about to write is still as it was read. -/
def Undisturbed (c : State) : Prop :=
  ∀ p read, (c.procs p).reading = some read → c.shared.store.job read.id = some read

section Hands

variable {cfg : Settings} {p : ℕ} {db : Db}

/-- A process with a job in hand is in the middle of a run. -/
theorem Proc.busy_of_inHand {l : Proc} {i : Uuid} (h : i ∈ l.inHand) : l.busy = true := by
  cases l with
  | worker w =>
    cases w with
    | idle => cases h
    | _ => rfl
  | free | upload | adminDelete | report => cases h

/-- The row that a process has read is that of a job in its hands. -/
theorem Proc.mem_inHand_of_reading {l : Proc} {read : OutboxJob} (h : l.reading = some read) :
    read.id ∈ l.inHand := by
  cases l with
  | worker w =>
    cases w with
    | successFlush | successDelete | successCommit | failureFlush | failureCommit =>
      obtain rfl := Option.some.inj h
      exact List.mem_cons_self
    | _ => cases h
  | free | upload | adminDelete | report => cases h

/-- A worker gets to where it has read a row by a `SELECT` that finds the row in the table. -/
theorem Worker.reading_step {w : Worker} {a : WorkerAction} {o : Outcome Worker}
    (h : w.step cfg p db a = some o) {read : OutboxJob} (ho : o.proc.reading = some read) :
    w.reading = some read ∨ o.write = .none ∧ db.store.job read.id = some read := by
  cases Worker.step_cases h with
  | successSelect job rest backoff row hrow =>
    obtain rfl := Option.some.inj ho
    have hid : row.id = job.id := key_of_row hrow
    exact Or.inr ⟨rfl, by rwa [hid]⟩
  | failureSelect job err_str rest backoff row hrow =>
    obtain rfl := Option.some.inj ho
    have hid : row.id = job.id := key_of_row hrow
    exact Or.inr ⟨rfl, by rwa [hid]⟩
  | successFlush | failureFlush | deletePhotos => exact Or.inl ho
  | beginClaim | selectJobs | takeJob | skipJob | claimCommit | endBatch | nextJob | shutdown
  | delete | deleteError | successMissing | failureMissing | successCommit | failureCommit
  | beginReap | selectPhotos | takePhoto | skipPhoto | reapCommit | queryError | statusError
  | stop => cases ho

/-- A process gets to where it has read a row by a `SELECT` that finds the row in the table. -/
theorem Proc.reading_step {l : Proc} {a : Action} {o : Outcome Proc}
    (h : l.step cfg p db a = some o) {read : OutboxJob} (ho : o.proc.reading = some read) :
    l.reading = some read ∨ o.write = .none ∧ db.store.job read.id = some read := by
  cases Proc.step_cases h with
  | tick => exact Or.inl ho
  | createCrane => exact Or.inl ho
  | worker w a o ho' => exact Worker.reading_step ho' ho
  | refuseUpload | startUpload | startAdminDelete | startReport | startWorker => cases ho
  | upload | adminDelete | report => cases ho

variable {c c' : State} {e : Event Action}

/-- With one worker at a time, a claim takes no job out of the hands of another process. -/
theorem OneWorker.not_in_hand (hone : OneWorker c) (h : (system cfg).next c e = some c') :
    ∀ i ∈ claimed cfg c e, ∀ q, q ≠ e.pid → i ∉ (c.procs q).inHand := by
  intro i hi q hq hmem
  obtain ⟨now, jobs, job, hw, -, -⟩ := mem_claimed.1 hi
  have horigin := writeOf_origin h
  rw [hw] at horigin
  obtain ⟨next, hproc, -⟩ := horigin
  -- The process that claims is in the middle of a run, and so is the one that has the job.
  have hbusy : (c.procs e.pid).busy = true := by
    rw [hproc]
    rfl
  exact hq (hone q e.pid (Proc.busy_of_inHand hmem) hbusy)

/-- A row that has been read stays as it was read until it is written, when no claim takes a job out of
the hands of another process. -/
theorem Undisturbed.next_of_not_in_hand (hu : Undisturbed c) (hx : Exclusive c)
    (hc : (pipeline cfg).Holds c) (h : (system cfg).next c e = some c')
    (hclaim : ∀ i ∈ claimed cfg c e, ∀ q, q ≠ e.pid → i ∉ (c.procs q).inHand) :
    Undisturbed c' := by
  intro p read hread
  have hnew : read.id ∈ (c'.procs p).inHand := Proc.mem_inHand_of_reading hread
  by_cases hp : p = e.pid
  · subst hp
    obtain ⟨o, ho, hproc, -⟩ := outcome_next h
    have hw : writeOf cfg c e = o.write := by
      rw [writeOf, ho]
      rfl
    rw [hproc] at hread
    rcases Proc.reading_step ho hread with hold | ⟨hnone, hrow⟩
    · have hmem : read.id ∈ (c.procs e.pid).inHand := Proc.mem_inHand_of_reading hold
      refine job_kept hc h (fun hclaimed => ?_) (hx.recorded_ne h hmem hnew) (hu _ _ hold)
      -- A process that has read a row does not claim.
      obtain ⟨now, jobs, job, hclaim, -, -⟩ := mem_claimed.1 hclaimed
      have horigin := writeOf_origin h
      rw [hclaim] at horigin
      obtain ⟨next, hproc', -⟩ := horigin
      rw [hproc'] at hold
      cases hold
    · rw [store_next h, hw, hnone]
      exact hrow
  · rw [System.procs_next_of_ne h hp] at hread
    have hmem : read.id ∈ (c.procs p).inHand := Proc.mem_inHand_of_reading hread
    exact job_kept hc h (fun hclaimed => hclaim _ hclaimed p hp hmem)
      (hx.recorded_ne h hmem hnew) (hu p read hread)

/-- With one worker at a time, a row that has been read stays as it was read until it is written. -/
theorem Undisturbed.next (hu : Undisturbed c) (hone : OneWorker c) (hx : Exclusive c)
    (hc : (pipeline cfg).Holds c) (h : (system cfg).next c e = some c') : Undisturbed c' :=
  hu.next_of_not_in_hand hx hc h (hone.not_in_hand h)

end Hands

/-! ## The invariant -/

/-- Every job is well formed, and no photo has the key of a completed one. -/
structure Store.WellFormed (cfg : Settings) (s : Store) : Prop where
  job : ∀ {i job}, s.job i = some job → job.WellFormed cfg
  removed : ∀ {i job j photo}, s.job i = some job → job.status = .completed →
    s.photo j = some photo → photo.storage_key ≠ job.storage_key

section WellFormed

variable {cfg : Settings} {c c' : State} {e : Event Action}

/-- A row that a process has read, and has in hand, is as it was read. -/
theorem Undisturbed.eq_of_reading (hu : Undisturbed c) {p : ℕ} {read job : OutboxJob}
    (hread : (c.procs p).reading = some read) (hjob : c.shared.store.job read.id = some job) :
    job = read :=
  Option.some.inj (hjob.symm.trans (hu p read hread))

/-- The row that an event writes a failure to is the row that was read. -/
theorem Undisturbed.eq_of_captureFailure (hu : Undisturbed c)
    (h : (system cfg).next c e = some c') {now : Timestamp} {backoff : ℤ} {err_str : String}
    {read job : OutboxJob} (hw : writeOf cfg c e = .captureFailure now backoff err_str read)
    (hjob : c.shared.store.job read.id = some job) : job = read := by
  have horigin := writeOf_origin h
  rw [hw] at horigin
  obtain ⟨rest, hproc, -⟩ := horigin
  exact hu.eq_of_reading (by rw [hproc]; rfl) hjob

/-- The row that an event writes a success to is the row that was read. -/
theorem Undisturbed.eq_of_captureSuccess (hu : Undisturbed c)
    (h : (system cfg).next c e = some c') {now : Timestamp} {read job : OutboxJob}
    {photo_ids : List Uuid} (hw : writeOf cfg c e = .captureSuccess now read photo_ids)
    (hjob : c.shared.store.job read.id = some job) : job = read := by
  have horigin := writeOf_origin h
  rw [hw] at horigin
  obtain ⟨rest, hproc, -⟩ := horigin
  exact hu.eq_of_reading (by rw [hproc]; rfl) hjob

/-- A photo whose key a job has was there before the event, with the key. -/
theorem photo_of_job_key (hc : (pipeline cfg).Holds c) (h : (system cfg).next c e = some c')
    {i j : Uuid} {job : OutboxJob} {photo : CranePhoto} (hjob : c.shared.store.job i = some job)
    (hphoto : c'.shared.store.photo j = some photo) (hkey : photo.storage_key = job.storage_key) :
    ∃ r, c.shared.store.photo j = some r ∧ r.storage_key = job.storage_key := by
  have hguard := guarded_writeOf hc h
  have hstep := photo_next hc h j
  rw [hphoto] at hstep
  generalize hold : c.shared.store.photo j = r at hstep
  cases hstep with
  | same => exact ⟨photo, rfl, hkey⟩
  -- A new photo has a key that no job has.
  | inserted _ hw hid hnew =>
    rw [hw] at hguard
    obtain ⟨-, -, ⟨extension, hk⟩, -, -⟩ := hguard
    rw [hid] at hk
    have hissued := hc.1.issued_of_job_key hjob (hkey.symm.trans hk)
    rw [hnew] at hissued
    cases hissued
  | finalized r => exact ⟨r, rfl, hkey⟩
  | marked r => exact ⟨r, rfl, hkey⟩

/-- After the commit of `capture_success` no photo has the key of its job. -/
theorem removed_of_captureSuccess (hc : (pipeline cfg).Holds c)
    (h : (system cfg).next c e = some c') {now : Timestamp} {read : OutboxJob}
    {photo_ids : List Uuid} (hw : writeOf cfg c e = .captureSuccess now read photo_ids) {j : Uuid}
    {photo : CranePhoto} (hphoto : c'.shared.store.photo j = some photo) :
    photo.storage_key ≠ read.storage_key := by
  intro hkey
  have hguard := guarded_writeOf hc h
  rw [hw] at hguard
  obtain ⟨-, -, hdel⟩ := hguard
  rw [store_next h, hw, Store.photo_captureSuccess hc.1.photo_unique,
    Option.filter_eq_some_iff] at hphoto
  obtain ⟨hold, hkept⟩ := hphoto
  have hid : photo.id = j := key_of_row hold
  have hmem : photo.id ∈ photo_ids := by
    rw [hid]
    exact hdel.all hold hkey
  simp [hmem] at hkept

/-- With one worker at a time, an event leaves every job well formed. -/
theorem Store.WellFormed.next (hs : c.shared.store.WellFormed cfg)
    (hmax : 1 ≤ cfg.max_worker_attempts) (hu : Undisturbed c) (hc : (pipeline cfg).Holds c)
    (h : (system cfg).next c e = some c') : c'.shared.store.WellFormed cfg := by
  constructor
  · intro i job' hjob'
    have hstep := job_next hc h i
    rw [hjob'] at hstep
    generalize hjob : c.shared.store.job i = r at hstep
    cases hstep with
    | same => exact hs.job hjob
    | created _ now _ photo => exact wellFormed_createTask hmax now i photo.storage_key
    | claimed now _ job => exact wellFormed_claim cfg now job
    | failed now backoff err_str read job hw hid =>
      subst hid
      obtain rfl := hu.eq_of_captureFailure h hw hjob
      exact wellFormed_captureFailure cfg now backoff err_str job
    | succeeded now read photo_ids job hw hid =>
      subst hid
      obtain rfl := hu.eq_of_captureSuccess h hw hjob
      exact wellFormed_captureSuccess cfg now job
  · intro i job' j photo hjob' hstatus hphoto hkey
    have hstep := job_next hc h i
    rw [hjob'] at hstep
    generalize hjob : c.shared.store.job i = r at hstep
    cases hstep with
    | same =>
      obtain ⟨r, hold, hrkey⟩ := photo_of_job_key hc h hjob hphoto hkey
      exact hs.removed hjob hstatus hold hrkey
    | created => cases hstatus
    | claimed => cases hstatus
    | failed now backoff err_str read job hw hid =>
      subst hid
      obtain rfl := hu.eq_of_captureFailure h hw hjob
      have hfailure : (captureFailure cfg now backoff err_str job job).status
          = failureStatus cfg job := assign_self _ _
      exact failureStatus_ne_completed cfg job (hfailure.symm.trans hstatus)
    | succeeded now read photo_ids job hw hid _ hjkey =>
      exact removed_of_captureSuccess hc h hw hphoto (hkey.trans hjkey)

end WellFormed

/-- Given `MAX_ATTEMPTS >= 1`, in every state of a run with one worker at a time, every job is well
formed, no photo has the key of a completed job, and a job that is neither completed nor failed can be
claimed at all late enough times. -/
theorem jobs_well_formed {cfg : Settings} (hmax : 1 ≤ cfg.max_worker_attempts) {clock : Timestamp}
    {cranes : List Uuid} {es : List (Event Action)}
    (hone : ∀ c, (system cfg).Visits (initial clock cranes) es c → OneWorker c) {c : State}
    (hv : (system cfg).Visits (initial clock cranes) es c) :
    ∀ job ∈ c.shared.store.jobs, job.WellFormed cfg ∧
      (job.status = .completed → ∀ photo ∈ c.shared.store.photos,
        photo.storage_key ≠ job.storage_key) ∧
      (job.status ≠ .completed → job.status ≠ .failed →
        ∃ t, ∀ now, t < now → job.claimable .delete now = true) := by
  have hinit := holds_initial cfg clock cranes
  have hnone : Exclusive (initial clock cranes) ∧ Undisturbed (initial clock cranes) ∧
      (initial clock cranes).shared.store.WellFormed cfg := by
    refine ⟨exclusive_initial clock cranes, ?_, ?_, ?_⟩
    · intro p read hread
      cases hread
    · intro i job hjob
      cases hjob
    · intro i job j photo hjob
      cases hjob
  have hwell : Exclusive c ∧ Undisturbed c ∧ c.shared.store.WellFormed cfg := by
    refine hinit.visits_induction
      (J := fun c => Exclusive c ∧ Undisturbed c ∧ c.shared.store.WellFormed cfg) hnone ?_ hv
    rintro c₁ e c₂ hpass hc₁ ⟨hx, hu, hs⟩
    have hone₁ := hone c₁ hpass.visits_left
    have hnext := hpass.next
    exact ⟨hx.next hc₁ hnext (hone₁.not_in_hand hnext), hu.next hone₁ hx hc₁ hnext,
      hs.next hmax hu hc₁ hnext⟩
  obtain ⟨-, -, hs⟩ := hwell
  have hconsistent := (hinit.visits hv).1
  intro job hjob
  have hrow := hconsistent.job_of_mem hjob
  exact ⟨hs.job hrow,
    fun hstatus photo hphoto => hs.removed hrow hstatus (hconsistent.photo_of_mem hphoto),
    (hs.job hrow).eventually_claimable⟩

/-- At most one of the processes below `n` is in the middle of a run. -/
def oneWorkerBelow (n : ℕ) (c : State) : Bool :=
  (List.range n).all fun p => (List.range n).all fun q =>
    !(c.procs p).busy || !(c.procs q).busy || p = q

/-- A run of processes below `n` has one worker at a time when its states have one below `n`. -/
theorem oneWorker_of_states {cfg : Settings} {clock : Timestamp} {cranes : List Uuid}
    {es : List (Event Action)} {n : ℕ} (hpid : es.all (fun e => e.pid < n) = true)
    (hstates : ((system cfg).states (initial clock cranes) es).all (oneWorkerBelow n) = true)
    {c : State} (hv : (system cfg).Visits (initial clock cranes) es c) : OneWorker c := by
  intro p q hp hq
  have hbelow : ∀ {p}, (c.procs p).busy = true → p < n := by
    intro p hbusy
    by_contra hge
    obtain ⟨es₁, es₂, rfl, hrun⟩ := hv
    -- A process that never moves is free.
    have hne : ∀ e ∈ es₁, e.pid ≠ p := by
      intro e he heq
      have hlt := List.all_eq_true.1 hpid e (List.mem_append_left _ he)
      rw [decide_eq_true_eq, heq] at hlt
      exact hge hlt
    have hfree := System.procs_run_of_not_mem hrun hne
    rw [hfree] at hbusy
    cases hbusy
  have hone := List.all_eq_true.1 hstates c hv.mem_states
  have hpair := List.all_eq_true.1 (List.all_eq_true.1 hone p (List.mem_range.2 (hbelow hp))) q
    (List.mem_range.2 (hbelow hq))
  simpa [hp, hq] using hpair

/-- A worker claims a job and crashes. The worker that takes its place claims the job again when the
lease has expired, and finishes it. -/
theorem jobs_well_formed_restart :
    ∃ c, (system {}).run (initial 0 [1]) (abandonedRun ++ claimEvents 1 abandonedJob ++
      [⟨1, .worker .stop⟩, ⟨3, .tick 300000002⟩] ++ claimEvents 2 (abandonedJob.claim {} 1) ++
        successEvents 2) = some c ∧ c.shared.store.jobs.map OutboxJob.status = [.completed] ∧
      ∀ job ∈ c.shared.store.jobs, job.WellFormed {} ∧
        (job.status = .completed → ∀ photo ∈ c.shared.store.photos,
          photo.storage_key ≠ job.storage_key) ∧
        (job.status ≠ .completed → job.status ≠ .failed →
          ∃ t, ∀ now, t < now → job.claimable .delete now = true) := by
  have hrun : ((system {}).run (initial 0 [1]) (abandonedRun ++ claimEvents 1 abandonedJob ++
      [⟨1, .worker .stop⟩, ⟨3, .tick 300000002⟩] ++ claimEvents 2 (abandonedJob.claim {} 1) ++
        successEvents 2)).map (fun c => c.shared.store.jobs.map OutboxJob.status)
      = some [.completed] := by decide +kernel
  have hstates : ((system {}).states (initial 0 [1]) (abandonedRun ++ claimEvents 1 abandonedJob ++
      [⟨1, .worker .stop⟩, ⟨3, .tick 300000002⟩] ++ claimEvents 2 (abandonedJob.claim {} 1) ++
        successEvents 2)).all (oneWorkerBelow 4) = true := by decide +kernel
  obtain ⟨c, hc, hstatus⟩ := Option.map_eq_some_iff.1 hrun
  exact ⟨c, hc, hstatus, jobs_well_formed (by decide)
    (fun c hv => oneWorker_of_states (by decide) hstates hv) (System.Visits.last hc)⟩

end CraneTracker.Pipeline
