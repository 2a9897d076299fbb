import CraneTracker.Pipeline.Events

/-!
# Reports and their answers

A report holds the row lock of its photo from its first statement to its commit. So between the insert
that found no conflict and the commit nobody else reports the photo, and no admin deletion marks it.
`Answered` ties the committed reports to the requests that have answered `201`, and the count that the
admin sees (`get_photo_report_counts`) to the reporters who were told that they had reported.
-/

namespace CraneTracker.Pipeline

open Interleaving Table

/-- The photo that a report has locked, and the reporter. -/
def Report.target : Report → Option (Uuid × String)
  | .insert _ photo_id reporter_ip_hash => some (photo_id, reporter_ip_hash)
  | .commit _ photo_id reporter_ip_hash => some (photo_id, reporter_ip_hash)
  | _ => none

/-- The photo that a process has locked to report it, and the reporter. -/
def Proc.reportTarget : Proc → Option (Uuid × String)
  | .report r => r.target
  | _ => none

/-- The process is a report that has answered `201`. -/
def Proc.reported : Proc → Bool
  | .report (.answered answer) => answer = .ok 201
  | _ => false

section Step

variable {cfg : Settings} {p : ℕ} {db : Db} {l : Proc} {a : Action} {o : Outcome Proc}

/-- A process that has answered `201` to a report is a report with that answer. -/
theorem Proc.of_reported (h : l.reported = true) : l = .report (.answered (.ok 201)) := by
  unfold Proc.reported at h
  split at h
  · rw [decide_eq_true_eq] at h
    rw [h]
  · cases h

/-- A process gets to where it has locked the photo of a report by the locking query, which finds the
photo under the crane of the request. -/
theorem Proc.reportTarget_step (h : l.step cfg p db a = some o) {x : Uuid × String}
    (ho : o.proc.reportTarget = some x) :
    (db.store.apply cfg p o.write).photo x.1 = db.store.photo x.1 ∧
      (l.reportTarget = some x ∨ ∃ now photo, l = .report (.lock now photo.crane_id x.1 x.2) ∧
        db.store.photo x.1 = some photo) := by
  cases Proc.step_cases h with
  | tick => exact ⟨rfl, Or.inl ho⟩
  | createCrane => exact ⟨rfl, Or.inl ho⟩
  | report r a o ho' =>
    cases Report.step_cases ho' with
    | lock now photo_id reporter_ip_hash photo hrow =>
      obtain rfl := Option.some.inj ho
      exact ⟨rfl, Or.inr ⟨now, photo, rfl, hrow⟩⟩
    | insert => exact ⟨rfl, Or.inl ho⟩
    | missing | duplicate | commit | dbError | stop => cases ho
  | refuseUpload | startUpload | startAdminDelete | startReport | startWorker => cases ho
  | upload | adminDelete | worker => cases ho

/-- A process gets to where it is about to lock the photo of a report by the start of the request. -/
theorem Proc.reportLock_step (h : l.step cfg p db a = some o) {now : Timestamp}
    {crane_id photo_id : Uuid} {reporter_ip_hash : String}
    (ho : o.proc = .report (.lock now crane_id photo_id reporter_ip_hash)) :
    l = .report (.lock now crane_id photo_id reporter_ip_hash) ∨
      a = .startReport crane_id photo_id reporter_ip_hash := by
  cases Proc.step_cases h with
  | tick => exact Or.inl ho
  | createCrane => exact Or.inl ho
  | startReport =>
    cases ho
    exact Or.inr rfl
  | report r a o ho' => cases Report.step_cases ho' <;> cases ho
  | refuseUpload | startUpload | startAdminDelete | startWorker => cases ho
  | upload | adminDelete | worker => cases ho

/-- A report gets to its commit by an insert that finds no report of the reporter. -/
theorem Proc.reportCommit_step (h : l.step cfg p db a = some o) {now : Timestamp} {photo_id : Uuid}
    {reporter_ip_hash : String} (ho : o.proc = .report (.commit now photo_id reporter_ip_hash)) :
    (db.store.apply cfg p o.write).reports = db.store.reports ∧
      (l = .report (.commit now photo_id reporter_ip_hash) ∨
        ∀ r ∈ db.store.reports, r.photo_id = photo_id →
          r.reporter_ip_hash ≠ reporter_ip_hash) := by
  cases Proc.step_cases h with
  | tick => exact ⟨rfl, Or.inl ho⟩
  | createCrane => exact ⟨rfl, Or.inl ho⟩
  | report r a o ho' =>
    cases Report.step_cases ho' with
    | insert _ _ _ hnew =>
      cases ho
      exact ⟨rfl, Or.inr hnew⟩
    | missing | lock | duplicate | commit | dbError | stop => cases ho
  | refuseUpload | startUpload | startAdminDelete | startReport | startWorker => cases ho
  | upload | adminDelete | worker => cases ho

/-- A report answers `201` by its commit, and by nothing else. -/
theorem Proc.reported_step (h : l.step cfg p db a = some o)
    (ho : o.proc = .report (.answered (.ok 201))) :
    l = .report (.answered (.ok 201)) ∨ ∃ report_id now photo_id reporter_ip_hash,
      l = .report (.commit now photo_id reporter_ip_hash) ∧ a = .report (.commit report_id) ∧
        o.write = .reportCranePhoto ⟨report_id, photo_id, reporter_ip_hash, now⟩ := by
  cases Proc.step_cases h with
  | tick => exact Or.inl ho
  | createCrane => exact Or.inl ho
  | report r a o ho' =>
    cases Report.step_cases ho' with
    | commit now photo_id reporter_ip_hash report_id =>
      exact Or.inr ⟨report_id, now, photo_id, reporter_ip_hash, rfl, rfl, rfl⟩
    | missing => simp [Outcome.map, AppError.response] at ho
    | lock | duplicate | insert | dbError | stop => cases ho
  | refuseUpload | startUpload | startAdminDelete | startReport | startWorker => cases ho
  | upload | adminDelete | worker => cases ho

/-- A report that has answered does not move. -/
theorem Proc.report_answered_step {answer : Answer} (hl : l = .report (.answered answer))
    (h : l.step cfg p db a = some o) : o.proc = l ∧ ∀ crane_id photo_id reporter_ip_hash,
      a ≠ .startReport crane_id photo_id reporter_ip_hash := by
  subst hl
  cases Proc.step_cases h with
  | tick => exact ⟨rfl, by simp⟩
  | createCrane => exact ⟨rfl, by simp⟩
  | report _ a o ho' =>
    cases Report.step_cases ho' with
    | dbError _ hr => exact absurd rfl (hr answer)
    | stop _ hr => exact absurd rfl (hr answer)

/-- The start of a report finds a free process, which it takes. -/
theorem Proc.startReport_step {crane_id photo_id : Uuid} {reporter_ip_hash : String}
    (h : l.step cfg p db (.startReport crane_id photo_id reporter_ip_hash) = some o) :
    l = .free ∧ o.proc ≠ .free := by
  cases Proc.step_cases h with
  | startReport => exact ⟨rfl, by simp⟩

/-- A process that is free was free before. -/
theorem Proc.free_step (h : l.step cfg p db a = some o) (ho : o.proc = .free) : l = .free := by
  cases Proc.step_cases h with
  | tick => exact ho
  | createCrane => exact ho
  | refuseUpload | startUpload | startAdminDelete | startReport | startWorker => cases ho
  | upload | adminDelete | report | worker => cases ho

end Step

/-! ## Requests -/

/-- The request `p` of the run `es` is a report of the photo `photo_id` under the crane `crane_id` by
the reporter `reporter_ip_hash`. -/
def Requested (es : List (Event Action)) (p : ℕ) (crane_id photo_id : Uuid)
    (reporter_ip_hash : String) : Prop :=
  ⟨p, .startReport crane_id photo_id reporter_ip_hash⟩ ∈ es

/-- The local states of the reports, after the run `es`, are those of their requests. -/
structure Traced (es : List (Event Action)) (c : State) : Prop where
  free : ∀ {p crane_id i h}, c.procs p = .free → ¬ Requested es p crane_id i h
  unique : ∀ {p crane_id i h crane_id' i' h'}, Requested es p crane_id i h →
    Requested es p crane_id' i' h' → i = i' ∧ h = h'
  lock : ∀ {p now crane_id i h}, c.procs p = .report (.lock now crane_id i h) →
    Requested es p crane_id i h
  target : ∀ {p x}, (c.procs p).reportTarget = some x →
    ∃ photo, c.shared.store.photo x.1 = some photo ∧ Requested es p photo.crane_id x.1 x.2

section Traced

variable {cfg : Settings} {c c' : State} {e : Event Action} {es : List (Event Action)} {p : ℕ}
  {crane_id i : Uuid} {h : String}

/-- What was requested in a run was requested in its continuations. -/
theorem Requested.append (hr : Requested es p crane_id i h) (es' : List (Event Action)) :
    Requested (es ++ es') p crane_id i h :=
  List.mem_append_left es' hr

/-- What was requested in a run was requested before its last event, or by it. -/
theorem requested_concat : Requested (es ++ [e]) p crane_id i h ↔
    Requested es p crane_id i h ∨ e = ⟨p, .startReport crane_id i h⟩ := by
  unfold Requested
  rw [List.mem_append, List.mem_singleton, eq_comm (a := e)]

/-- A process that a request names was free before its event, and is not free after it. -/
theorem free_of_start (hn : (system cfg).next c ⟨p, .startReport crane_id i h⟩ = some c') :
    c.procs p = .free ∧ c'.procs p ≠ .free := by
  obtain ⟨o, ho, hproc, -⟩ := outcome_next hn
  have hfree := Proc.startReport_step ho
  exact ⟨hfree.1, by rw [hproc]; exact hfree.2⟩

/-- The photo that a report has locked keeps its row. -/
theorem locked_row (hc : (pipeline cfg).Holds c) (hn : (system cfg).next c e = some c')
    (hp : p ≠ e.pid) {x : Uuid × String} (hx : (c.procs p).reportTarget = some x)
    {photo : CranePhoto} (hrow : c.shared.store.photo x.1 = some photo) :
    c'.shared.store.photo x.1 = some photo := by
  have hlock : c.shared.locks.photo x.1 = some p := by
    have hinv := hc.2 p
    generalize hl : c.procs p = l at hx hinv
    cases l with
    | report r =>
      cases r with
      | insert =>
        obtain rfl := Option.some.inj hx
        exact hinv.1
      | commit =>
        obtain rfl := Option.some.inj hx
        exact hinv.1
      | lock | answered | stopped => cases hx
    | free | upload | adminDelete | worker => cases hx
  rw [store_next hn]
  exact locked_photo_apply hc.1 (guarded_writeOf hc hn) hp hlock hrow

/-- A process that is free after an event has not been named by a request. -/
theorem Traced.free_next (ht : Traced es c) (hn : (system cfg).next c e = some c')
    (hfree : c'.procs p = .free) : ¬ Requested (es ++ [e]) p crane_id i h := by
  intro hreq
  rcases requested_concat.1 hreq with hold | rfl
  · by_cases hp : p = e.pid
    · subst hp
      obtain ⟨o, ho, hproc, -⟩ := outcome_next hn
      rw [hproc] at hfree
      exact ht.free (Proc.free_step ho hfree) hold
    · rw [System.procs_next_of_ne hn hp] at hfree
      exact ht.free hfree hold
  · exact (free_of_start hn).2 hfree

/-- After an event, a process still has one request at most. -/
theorem Traced.unique_next (ht : Traced es c) (hn : (system cfg).next c e = some c')
    {crane_id' i' : Uuid} {h' : String} (hreq : Requested (es ++ [e]) p crane_id i h)
    (hreq' : Requested (es ++ [e]) p crane_id' i' h') : i = i' ∧ h = h' := by
  rcases requested_concat.1 hreq with hold | rfl
  · rcases requested_concat.1 hreq' with hold' | rfl
    · exact ht.unique hold hold'
    -- A process that is named a second time would have been free.
    · exact absurd hold (ht.free (free_of_start hn).1)
  · rcases requested_concat.1 hreq' with hold' | heq
    · exact absurd hold' (ht.free (free_of_start hn).1)
    · cases heq
      exact ⟨rfl, rfl⟩

/-- After an event, a report that is about to lock its photo is as it was requested. -/
theorem Traced.lock_next (ht : Traced es c) (hn : (system cfg).next c e = some c')
    {now : Timestamp} (hlock : c'.procs p = .report (.lock now crane_id i h)) :
    Requested (es ++ [e]) p crane_id i h := by
  by_cases hp : p = e.pid
  · subst hp
    obtain ⟨o, ho, hproc, -⟩ := outcome_next hn
    rw [hproc] at hlock
    rcases Proc.reportLock_step ho hlock with hold | hact
    · exact (ht.lock hold).append _
    · exact requested_concat.2 (Or.inr (by rw [← hact]))
  · rw [System.procs_next_of_ne hn hp] at hlock
    exact (ht.lock hlock).append _

/-- After an event, the photo that a report has locked is the one that was requested. -/
theorem Traced.target_next (ht : Traced es c) (hc : (pipeline cfg).Holds c)
    (hn : (system cfg).next c e = some c') {x : Uuid × String}
    (hx : (c'.procs p).reportTarget = some x) :
    ∃ photo, c'.shared.store.photo x.1 = some photo ∧
      Requested (es ++ [e]) p photo.crane_id x.1 x.2 := by
  by_cases hp : p = e.pid
  · subst hp
    obtain ⟨o, ho, hproc, hshared⟩ := outcome_next hn
    rw [hproc] at hx
    obtain ⟨hphoto, hor⟩ := Proc.reportTarget_step ho hx
    rw [hshared]
    rcases hor with hold | ⟨now, photo, hl, hrow⟩
    · obtain ⟨photo, hrow, hreq⟩ := ht.target hold
      exact ⟨photo, hphoto.trans hrow, hreq.append _⟩
    · exact ⟨photo, hphoto.trans hrow, (ht.lock hl).append _⟩
  · rw [System.procs_next_of_ne hn hp] at hx
    obtain ⟨photo, hrow, hreq⟩ := ht.target hx
    exact ⟨photo, locked_row hc hn hp hx hrow, hreq.append _⟩

/-- An event keeps the local states those of the requests. -/
theorem Traced.next (ht : Traced es c) (hc : (pipeline cfg).Holds c)
    (hn : (system cfg).next c e = some c') : Traced (es ++ [e]) c' where
  free hfree := ht.free_next hn hfree
  unique hreq hreq' := ht.unique_next hn hreq hreq'
  lock hlock := ht.lock_next hn hlock
  target hx := ht.target_next hc hn hx

end Traced

/-! ## Answers -/

/-- The committed reports, after the run `es`, are those of the requests that have answered `201`, as
far as their photos are still there. -/
structure Answered (es : List (Event Action)) (c : State) : Prop where
  /-- A reporter reports a photo once. -/
  unique : c.shared.store.reports.Pairwise fun r r' =>
    r.photo_id = r'.photo_id → r.reporter_ip_hash ≠ r'.reporter_ip_hash
  /-- A report that is about to be committed is the first of its reporter. -/
  first : ∀ {p now i h}, c.procs p = .report (.commit now i h) →
    ∀ r ∈ c.shared.store.reports, r.photo_id = i → r.reporter_ip_hash ≠ h
  /-- A report is that of a request that has answered `201`. -/
  sound : ∀ r ∈ c.shared.store.reports, ∃ p crane_id,
    Requested es p crane_id r.photo_id r.reporter_ip_hash ∧
      c.procs p = .report (.answered (.ok 201))
  /-- A request that has answered `201` has reported its photo. -/
  complete : ∀ {p crane_id i h}, Requested es p crane_id i h →
    c.procs p = .report (.answered (.ok 201)) → (c.shared.store.issued i).isSome = true ∧
      ∀ photo, c.shared.store.photo i = some photo →
        ∃ r ∈ c.shared.store.reports, r.photo_id = i ∧ r.reporter_ip_hash = h

section Answered

variable {cfg : Settings} {c c' : State} {e : Event Action} {es : List (Event Action)} {p : ℕ}

/-- An event leaves the reports of the photos that keep their rows, or inserts one report. -/
theorem reports_next (hc : (pipeline cfg).Holds c) (hn : (system cfg).next c e = some c') :
    (c'.shared.store.reports.Sublist c.shared.store.reports ∧
      ∀ r ∈ c.shared.store.reports, (∃ photo, c'.shared.store.photo r.photo_id = some photo) →
        r ∈ c'.shared.store.reports) ∨
    ∃ report, writeOf cfg c e = .reportCranePhoto report ∧
      c'.shared.store.reports = c.shared.store.reports ++ [report] := by
  rw [store_next hn]
  generalize writeOf cfg c e = w
  cases w with
  | reportCranePhoto report => exact Or.inr ⟨report, rfl, rfl⟩
  | captureSuccess now read photo_ids =>
    refine Or.inl ⟨List.filter_sublist, fun r hr ⟨photo, hphoto⟩ => mem_deleteWhere.2 ⟨hr, ?_⟩⟩
    -- A photo that is still there was not deleted, nor were its reports.
    rw [Store.photo_captureSuccess hc.1.photo_unique, Option.filter_eq_some_iff] at hphoto
    rw [← key_of_row hphoto.1]
    simpa using hphoto.2
  | none | tick | createCrane | preuploadCranePhoto | finalizeCranePhoto | createDeleteCraneJobs
  | claimJobs | captureFailure | putObject | deleteObject =>
    exact Or.inl ⟨List.Sublist.refl _, fun r hr _ => hr⟩

/-- A report that has answered stays as it is. -/
theorem report_answered_next (hn : (system cfg).next c e = some c') {answer : Answer}
    (hp : c.procs p = .report (.answered answer)) :
    c'.procs p = .report (.answered answer) ∧
      ∀ crane_id i h, e ≠ ⟨p, .startReport crane_id i h⟩ := by
  by_cases hpid : p = e.pid
  · subst hpid
    obtain ⟨o, ho, hproc, -⟩ := outcome_next hn
    obtain ⟨hkeep, hact⟩ := Proc.report_answered_step hp ho
    refine ⟨by rw [hproc, hkeep, hp], fun crane_id i h heq => hact crane_id i h ?_⟩
    rw [heq]
  · refine ⟨by rw [System.procs_next_of_ne hn hpid, hp], fun crane_id i h heq => hpid ?_⟩
    rw [heq]

/-- A report that has answered stays as it is over a run. -/
theorem report_answered_run {answer : Answer} (h : (system cfg).run c es = some c')
    (hp : c.procs p = .report (.answered answer)) : c'.procs p = .report (.answered answer) :=
  System.run_invariant (I := fun c => c.procs p = .report (.answered answer))
    (fun _ _ _ hp hn => (report_answered_next hn hp).1) h hp

/-- The event that inserts a report is the commit of its request, which then has answered `201`. -/
theorem of_reportCranePhoto (hn : (system cfg).next c e = some c') {report : PhotoReport}
    (hw : writeOf cfg c e = .reportCranePhoto report) :
    c.procs e.pid = .report (.commit report.added_at report.photo_id report.reporter_ip_hash) ∧
      c'.procs e.pid = .report (.answered (.ok 201)) := by
  have horigin := writeOf_origin hn
  rw [hw] at horigin
  obtain ⟨report_id, hact, hl⟩ := horigin
  obtain ⟨o, ho, hproc, -⟩ := outcome_next hn
  rw [hl, hact] at ho
  cases ho
  exact ⟨hl, hproc⟩

/-- Only one process has a photo locked to report it. -/
theorem reporter_unique (hc : (pipeline cfg).Holds c) {p q : ℕ} {now now' : Timestamp} {i : Uuid}
    {h h' : String} (hp : c.procs p = .report (.commit now i h))
    (hq : c.procs q = .report (.commit now' i h')) : p = q := by
  have hlock := hc.2 p
  have hlock' := hc.2 q
  rw [hp] at hlock
  rw [hq] at hlock'
  exact Option.some.inj (hlock.1.symm.trans hlock'.1)

/-- An event lets no reporter report a photo twice. -/
theorem Answered.unique_next (ha : Answered es c) (hc : (pipeline cfg).Holds c)
    (hn : (system cfg).next c e = some c') : c'.shared.store.reports.Pairwise fun r r' =>
      r.photo_id = r'.photo_id → r.reporter_ip_hash ≠ r'.reporter_ip_hash := by
  rcases reports_next hc hn with ⟨hsub, -⟩ | ⟨report, hw, heq⟩
  · exact ha.unique.sublist hsub
  · obtain ⟨hl, -⟩ := of_reportCranePhoto hn hw
    rw [heq, List.pairwise_append]
    refine ⟨ha.unique, List.pairwise_singleton _ _, fun r hr r' hr' => ?_⟩
    obtain rfl := List.mem_singleton.1 hr'
    exact ha.first hl r hr

/-- An event puts no other report before one that is about to be committed. -/
theorem Answered.first_next (ha : Answered es c) (hc : (pipeline cfg).Holds c)
    (hn : (system cfg).next c e = some c') {now : Timestamp} {i : Uuid} {h : String}
    (hp : c'.procs p = .report (.commit now i h)) :
    ∀ r ∈ c'.shared.store.reports, r.photo_id = i → r.reporter_ip_hash ≠ h := by
  obtain ⟨o, ho, hproc, hshared⟩ := outcome_next hn
  intro r hr hri
  by_cases hpid : p = e.pid
  · subst hpid
    rw [hproc] at hp
    obtain ⟨hsame, hor⟩ := Proc.reportCommit_step ho hp
    rw [hshared, hsame] at hr
    rcases hor with hl | hnew
    · exact ha.first hl r hr hri
    · exact hnew r hr hri
  · rw [System.procs_next_of_ne hn hpid] at hp
    rcases reports_next hc hn with ⟨hsub, -⟩ | ⟨report, hw, heq⟩
    · exact ha.first hp r (hsub.subset hr) hri
    · rw [heq, List.mem_append, List.mem_singleton] at hr
      rcases hr with hold | rfl
      · exact ha.first hp r hold hri
      -- Another report of the photo is committed: it holds the lock of the photo.
      · obtain ⟨hl, -⟩ := of_reportCranePhoto hn hw
        rw [hri] at hl
        exact absurd (reporter_unique hc hp hl) hpid

/-- After an event, a report is that of a request that has answered `201`. -/
theorem Answered.sound_next (ha : Answered es c) (ht : Traced es c) (hc : (pipeline cfg).Holds c)
    (hn : (system cfg).next c e = some c') : ∀ r ∈ c'.shared.store.reports, ∃ p crane_id,
      Requested (es ++ [e]) p crane_id r.photo_id r.reporter_ip_hash ∧
        c'.procs p = .report (.answered (.ok 201)) := by
  intro r hr
  have hold : r ∈ c.shared.store.reports → ∃ p crane_id,
      Requested (es ++ [e]) p crane_id r.photo_id r.reporter_ip_hash ∧
        c'.procs p = .report (.answered (.ok 201)) := by
    intro hmem
    obtain ⟨p, crane_id, hreq, hp⟩ := ha.sound r hmem
    exact ⟨p, crane_id, hreq.append _, (report_answered_next hn hp).1⟩
  rcases reports_next hc hn with ⟨hsub, -⟩ | ⟨report, hw, heq⟩
  · exact hold (hsub.subset hr)
  · rw [heq, List.mem_append, List.mem_singleton] at hr
    rcases hr with hmem | rfl
    · exact hold hmem
    · obtain ⟨hl, hp⟩ := of_reportCranePhoto hn hw
      obtain ⟨photo, -, hreq⟩ := ht.target (p := e.pid)
        (x := (r.photo_id, r.reporter_ip_hash)) (by rw [hl]; rfl)
      exact ⟨e.pid, photo.crane_id, hreq.append _, hp⟩

/-- The report of an answer that was given before an event is there after it, if the photo still is. -/
theorem Answered.kept_next (ha : Answered es c) (hc : (pipeline cfg).Holds c)
    (hn : (system cfg).next c e = some c') {crane_id i : Uuid} {h : String}
    (hreq : Requested es p crane_id i h) (hp : c.procs p = .report (.answered (.ok 201))) :
    (c'.shared.store.issued i).isSome = true ∧ ∀ photo, c'.shared.store.photo i = some photo →
      ∃ r ∈ c'.shared.store.reports, r.photo_id = i ∧ r.reporter_ip_hash = h := by
  have hguard := guarded_writeOf hc hn
  obtain ⟨hissued, hreport⟩ := ha.complete hreq hp
  refine ⟨?_, fun photo hphoto => ?_⟩
  · rw [store_next hn]
    exact Store.Consistent.isSome_issued_apply hguard hissued
  · have hphoto' := hphoto
    rw [store_next hn] at hphoto'
    obtain ⟨photo₀, hrow, -⟩ := old_photo_apply hc.1 hguard hissued hphoto'
    obtain ⟨r, hr, rfl, hhash⟩ := hreport photo₀ hrow
    rcases reports_next hc hn with ⟨-, hkeep⟩ | ⟨report, -, heq⟩
    · exact ⟨r, hkeep r hr ⟨photo, hphoto⟩, rfl, hhash⟩
    · exact ⟨r, by rw [heq]; exact List.mem_append_left _ hr, rfl, hhash⟩

/-- The event that gives the answer `201` inserts the report. -/
theorem Traced.report_next (ht : Traced es c) (hc : (pipeline cfg).Holds c)
    (hn : (system cfg).next c e = some c') {crane_id i : Uuid} {h : String}
    (hreq : Requested (es ++ [e]) e.pid crane_id i h)
    (hbefore : c.procs e.pid ≠ .report (.answered (.ok 201)))
    (hp : c'.procs e.pid = .report (.answered (.ok 201))) :
    (c'.shared.store.issued i).isSome = true ∧
      ∃ r ∈ c'.shared.store.reports, r.photo_id = i ∧ r.reporter_ip_hash = h := by
  obtain ⟨o, ho, hproc, hshared⟩ := outcome_next hn
  rw [hproc] at hp
  rcases Proc.reported_step ho hp with hl | ⟨report_id, now, i', h', hl, hact, hw⟩
  · exact absurd hl hbefore
  have hold : Requested es e.pid crane_id i h := by
    rcases requested_concat.1 hreq with hold | heq
    · exact hold
    · rw [heq] at hact
      cases hact
  obtain ⟨photo, hrow, hreq'⟩ := ht.target (p := e.pid) (x := (i', h')) (by rw [hl]; rfl)
  obtain ⟨rfl, rfl⟩ := ht.unique hold hreq'
  rw [hshared, hw]
  exact ⟨(hc.1.photo_key hrow).1, _, List.mem_append_right _ (List.mem_singleton_self _), rfl, rfl⟩

/-- An event keeps the reports those of the requests that have answered `201`. -/
theorem Answered.next (ha : Answered es c) (ht : Traced es c) (hc : (pipeline cfg).Holds c)
    (hn : (system cfg).next c e = some c') : Answered (es ++ [e]) c' where
  unique := ha.unique_next hc hn
  first hp := ha.first_next hc hn hp
  sound := ha.sound_next ht hc hn
  complete := by
    intro p crane_id i h hreq hp
    by_cases hbefore : c.procs p = .report (.answered (.ok 201))
    · have hold : Requested es p crane_id i h := by
        rcases requested_concat.1 hreq with hold | heq
        · exact hold
        · exact absurd heq ((report_answered_next hn hbefore).2 crane_id i h)
      exact ha.kept_next hc hn hold hbefore
    · have hpid : p = e.pid := by
        by_contra hne
        exact hbefore ((System.procs_next_of_ne hn hne).symm.trans hp)
      subst hpid
      obtain ⟨hissued, hreport⟩ := ht.report_next hc hn hreq hbefore hp
      exact ⟨hissued, fun _ _ => hreport⟩

end Answered

/-- The distinct reporters whose requests on the photo `photo_id`, among those of the run `es`, have
answered `201` by the state `c`. -/
def acceptedReporters (es : List (Event Action)) (c : State) (photo_id : Uuid) : List String :=
  (es.filterMap fun e =>
    match e.act with
    | .startReport _ i reporter_ip_hash =>
      if i = photo_id ∧ (c.procs e.pid).reported = true then some reporter_ip_hash else none
    | _ => none).dedup

/-- The reporters whose requests on a photo have answered `201`. -/
theorem mem_acceptedReporters {es : List (Event Action)} {c : State} {photo_id : Uuid} {h : String} :
    h ∈ acceptedReporters es c photo_id ↔ ∃ p crane_id, Requested es p crane_id photo_id h ∧
      c.procs p = .report (.answered (.ok 201)) := by
  unfold acceptedReporters
  rw [List.mem_dedup, List.mem_filterMap]
  constructor
  · rintro ⟨⟨p, a⟩, hmem, heq⟩
    cases a with
    | startReport crane_id i reporter_ip_hash =>
      dsimp only at heq
      split_ifs at heq with hcond
      obtain ⟨rfl, hreported⟩ := hcond
      obtain rfl := Option.some.inj heq
      exact ⟨p, crane_id, hmem, Proc.of_reported hreported⟩
    | _ => cases heq
  · rintro ⟨p, crane_id, hreq, hp⟩
    have hreported : (c.procs p).reported = true := by
      rw [hp]
      rfl
    exact ⟨_, hreq, if_pos ⟨rfl, hreported⟩⟩

section Run

variable {cfg : Settings} {clock : Timestamp} {cranes : List Uuid} {es : List (Event Action)}
  {c : State}

/-- After every run, the committed reports are those of the requests that have answered `201`. -/
theorem answered_of_run (h : (system cfg).run (initial clock cranes) es = some c) :
    Traced es c ∧ Answered es c := by
  have hinit := holds_initial cfg clock cranes
  refine System.run_induction (I := fun es c => Traced es c ∧ Answered es c) ⟨?_, ?_⟩ ?_ h
  · constructor
    · intro p crane_id i h _ hreq
      cases hreq
    · intro p crane_id i h crane_id' i' h' hreq
      cases hreq
    · intro p now crane_id i h hl
      cases hl
    · intro p x hx
      cases hx
  · constructor
    · exact List.Pairwise.nil
    · intro p now i h hl
      cases hl
    · intro r hr
      cases hr
    · intro p crane_id i h hreq
      cases hreq
  · rintro es c e c' hrun hnext ⟨ht, ha⟩
    have hc := hinit.run hrun
    exact ⟨ht.next hc hnext, ha.next ht hc hnext⟩

/-- A photo that is there has as many reports as reporters whose requests have answered `201`. -/
theorem countP_reports (h : (system cfg).run (initial clock cranes) es = some c)
    {photo : CranePhoto} (hphoto : photo ∈ c.shared.store.photos) :
    (c.shared.store.reports.countP fun r => r.photo_id = photo.id) =
      (acceptedReporters es c photo.id).length := by
  obtain ⟨-, ha⟩ := answered_of_run h
  have hrow := ((holds_initial cfg clock cranes).run h).1.photo_of_mem hphoto
  rw [List.countP_eq_length_filter, ← List.length_map PhotoReport.reporter_ip_hash]
  -- The reporters of the photo are distinct, and they are those that were told so.
  have hnodup : ((c.shared.store.reports.filter fun r => r.photo_id = photo.id).map
      PhotoReport.reporter_ip_hash).Nodup := by
    refine List.pairwise_map.2 ((ha.unique.sublist List.filter_sublist).imp_of_mem ?_)
    intro r r' hr hr' hne
    have hi : r.photo_id = photo.id := by simpa using (List.mem_filter.1 hr).2
    have hi' : r'.photo_id = photo.id := by simpa using (List.mem_filter.1 hr').2
    exact hne (hi.trans hi'.symm)
  refine ((List.perm_ext_iff_of_nodup hnodup (List.nodup_dedup _)).2 fun x => ?_).length_eq
  refine Iff.trans ?_ mem_acceptedReporters.symm
  constructor
  · intro hx
    obtain ⟨r, hr, rfl⟩ := List.mem_map.1 hx
    obtain ⟨hmem, hi⟩ := List.mem_filter.1 hr
    obtain ⟨p, crane_id, hreq, hp⟩ := ha.sound r hmem
    rw [decide_eq_true_eq] at hi
    rw [hi] at hreq
    exact ⟨p, crane_id, hreq, hp⟩
  · rintro ⟨p, crane_id, hreq, hp⟩
    obtain ⟨r, hr, hi, hhash⟩ := (ha.complete hreq hp).2 photo hrow
    exact List.mem_map.2 ⟨r, List.mem_filter.2 ⟨hr, by simpa using hi⟩, hhash⟩

/-- A report that an event commits is that of a request, for a photo that is published, under the
crane of the photo. -/
theorem published_of_new_report (hc : (pipeline cfg).Holds c) (ht : Traced es c) {e : Event Action}
    {c' : State} (hn : (system cfg).next c e = some c') {report : PhotoReport}
    (hnew : report ∈ c'.shared.store.reports) (hold : report ∉ c.shared.store.reports) :
    ∃ photo, c'.shared.store.photo report.photo_id = some photo ∧ photo.status = .active ∧
      Requested es e.pid photo.crane_id report.photo_id report.reporter_ip_hash := by
  rcases reports_next hc hn with ⟨hsub, -⟩ | ⟨r, hw, heq⟩
  · exact absurd (hsub.subset hnew) hold
  · rw [heq, List.mem_append, List.mem_singleton] at hnew
    obtain rfl := hnew.resolve_left hold
    obtain ⟨hl, -⟩ := of_reportCranePhoto hn hw
    -- The request still has the photo locked, as it found it.
    have hinv := hc.2 e.pid
    rw [hl] at hinv
    obtain ⟨-, photo, hrow, hstatus⟩ := hinv
    obtain ⟨photo', hrow', hreq⟩ := ht.target (p := e.pid)
      (x := (report.photo_id, report.reporter_ip_hash)) (by rw [hl]; rfl)
    obtain rfl : photo = photo' := Option.some.inj (hrow.symm.trans hrow')
    refine ⟨photo, ?_, hstatus, hreq⟩
    rw [store_next hn, hw]
    exact hrow

end Run

/-- Reports and their answers. After every run, the count that `get_photo_report_counts` gives for a
photo that is there is the number of distinct reporters whose requests on the photo have answered
`201`. The steps of a request that has ended otherwise have added no report. A report is committed
for a photo that is `ACTIVE`, by a request that names the photo's own crane. -/
theorem photo_reports (cfg : Settings) (clock : Timestamp) (cranes : List Uuid)
    (es : List (Event Action)) (c : State)
    (hrun : (system cfg).run (initial clock cranes) es = some c) :
    (∀ photo ∈ c.shared.store.photos, ∀ photo_ids, photo.id ∈ photo_ids →
      ((getPhotoReportCounts c.shared.store.reports photo_ids).lookup photo.id).getD 0 =
        (acceptedReporters es c photo.id).length) ∧
    (∀ c₁ e c₂ answer, (system cfg).Passes (initial clock cranes) es c₁ e c₂ →
      c.procs e.pid = .report (.answered answer) → answer ≠ .ok 201 →
      ∀ report ∈ c₂.shared.store.reports, report ∈ c₁.shared.store.reports) ∧
    ∀ c₁ e c₂, (system cfg).Passes (initial clock cranes) es c₁ e c₂ →
      ∀ report ∈ c₂.shared.store.reports, report ∉ c₁.shared.store.reports →
        ∃ photo, c₂.shared.store.photo report.photo_id = some photo ∧ photo.status = .active ∧
          Requested es e.pid photo.crane_id report.photo_id report.reporter_ip_hash := by
  have hinit := holds_initial cfg clock cranes
  refine ⟨fun photo hphoto photo_ids hmem => ?_, ?_, ?_⟩
  · rw [lookup_getPhotoReportCounts hmem]
    exact countP_reports hrun hphoto
  · rintro c₁ e c₂ answer ⟨es₁, es₂, rfl, hrun₁, hnext⟩ hp hne report hreport
    rcases reports_next (hinit.run hrun₁) hnext with ⟨hsub, -⟩ | ⟨r, hw, -⟩
    · exact hsub.subset hreport
    -- The request has answered `201` by this step, and keeps its answer.
    · obtain ⟨-, hanswered⟩ := of_reportCranePhoto hnext hw
      obtain ⟨c₃, hrun₃, hrest⟩ := System.run_append.1 hrun
      obtain rfl : c₁ = c₃ := Option.some.inj (hrun₁.symm.trans hrun₃)
      obtain ⟨c₄, hnext', hrun₄⟩ := System.run_cons.1 hrest
      obtain rfl : c₂ = c₄ := Option.some.inj (hnext.symm.trans hnext')
      rw [report_answered_run hrun₄ hanswered] at hp
      cases hp
      exact absurd rfl hne
  · rintro c₁ e c₂ ⟨es₁, es₂, rfl, hrun₁, hnext⟩ report hnew hold
    obtain ⟨photo, hrow, hstatus, hreq⟩ := published_of_new_report (hinit.run hrun₁)
      (answered_of_run hrun₁).1 hnext hnew hold
    exact ⟨photo, hrow, hstatus, hreq.append _⟩

/-- The request `p` reports the photo `photo_id` of the crane `crane_id`, and commits the report
`report_id`. -/
def reportEvents (p : ℕ) (crane_id photo_id report_id : Uuid) (reporter_ip_hash : String) :
    List (Event Action) :=
  [⟨p, .startReport crane_id photo_id reporter_ip_hash⟩, ⟨p, .report .lock⟩, ⟨p, .report .insert⟩,
    ⟨p, .report (.commit report_id)⟩]

/-- Two reporters report a photo, and one of them tries again and is refused. -/
theorem photo_reports_two :
    ∃ c, (system {}).run (initial 0 [1]) (preuploadEvents 0 1 2 ++ publishEvents 0 ++
      reportEvents 5 1 2 7 "a" ++ reportEvents 6 1 2 8 "b" ++ [⟨9, .startReport 1 2 "a"⟩,
        ⟨9, .report .lock⟩, ⟨9, .report .insert⟩]) = some c ∧
      ((getPhotoReportCounts c.shared.store.reports [2]).lookup 2).getD 0 = 2 := by
  have hrun : ((system {}).run (initial 0 [1]) (preuploadEvents 0 1 2 ++ publishEvents 0 ++
      reportEvents 5 1 2 7 "a" ++ reportEvents 6 1 2 8 "b" ++ [⟨9, .startReport 1 2 "a"⟩,
        ⟨9, .report .lock⟩, ⟨9, .report .insert⟩])).map (fun c => (c.shared.store.photos,
        (acceptedReporters (preuploadEvents 0 1 2 ++ publishEvents 0 ++
          reportEvents 5 1 2 7 "a" ++ reportEvents 6 1 2 8 "b" ++ [⟨9, .startReport 1 2 "a"⟩,
            ⟨9, .report .lock⟩, ⟨9, .report .insert⟩]) c 2).length))
      = some ([jpegPhoto 0 1 2 .active], 2) := by decide +kernel
  obtain ⟨c, hc, heq⟩ := Option.map_eq_some_iff.1 hrun
  obtain ⟨hphotos, hcount⟩ := Prod.mk.inj heq
  refine ⟨c, hc, Eq.trans ?_ hcount⟩
  exact (photo_reports {} 0 [1] _ c hc).1 (jpegPhoto 0 1 2 .active) (by simp [hphotos]) [2]
    (List.mem_singleton_self _)

end CraneTracker.Pipeline
