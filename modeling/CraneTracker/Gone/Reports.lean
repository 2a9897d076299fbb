import CraneTracker.Gone.System

/-!
# Gone reports and the status of a crane

A request holds the row lock of its crane from its first statement to its commit, so nobody else reports
the crane in between. The count that it has made is then still the count when it commits, and the flush
that it has decided on is the right one. `Db.Consistent` is the invariant of the committed rows, and
`Report.Inv` is what a request knows between its steps. `Rely` is what the others leave alone: the
crane that a request has locked, and the reports of that crane.
-/

namespace CraneTracker.Gone

open Interleaving Table

variable {K : Type} {hash_ip : String → String} {threshold : ℕ}

/-! ## The invariants -/

/-- The invariant of the committed rows. -/
structure Db.Consistent (threshold : ℕ) (db : Db K) : Prop where
  /-- The ids of cranes are unique. -/
  crane_unique : KeyUnique Crane.id db.cranes
  /-- A crane is gone when enough have reported it, and only then. -/
  gone_iff : ∀ {i crane}, db.crane i = some crane →
    (crane.status = .gone ↔ threshold ≤ goneReportCount db.reports i)
  /-- A reporter reports a crane once. -/
  report_unique : db.reports.Pairwise fun r r' =>
    r.crane_id = r'.crane_id → r.reporter_ip_hash ≠ r'.reporter_ip_hash

/-- The process `p` has the crane locked, as it was read. -/
def Db.HasLocked (db : Db K) (p : ℕ) (crane : Crane K) : Prop :=
  db.crane_locks crane.id = some p ∧ db.crane crane.id = some crane

/-- The report is the first of its reporter for its crane. -/
def Db.First (db : Db K) (report : GoneReport) : Prop :=
  ∀ r ∈ db.reports, r.crane_id = report.crane_id → r.reporter_ip_hash ≠ report.reporter_ip_hash

/-- What a request knows between its steps. -/
def Report.Inv (threshold p : ℕ) (db : Db K) : Report K → Prop
  | .insert _ crane _ => db.HasLocked p crane
  | .count _ crane report =>
    db.HasLocked p crane ∧ report.crane_id = crane.id ∧ db.First report
  | .commit _ crane report gone =>
    db.HasLocked p crane ∧ report.crane_id = crane.id ∧ db.First report ∧
      (gone = true ↔ threshold ≤ goneReportCount db.reports crane.id + 1)
  | _ => True

/-- What a step of another process does, as the process `q` sees it. -/
structure Rely (q : ℕ) (db db' : Db K) : Prop where
  /-- The locks of `q` stay. -/
  locks : Locks.Keeps q db.crane_locks db'.crane_locks
  /-- A crane that `q` has locked stays as it is. -/
  crane : ∀ {i}, db.crane_locks i = some q → db'.crane i = db.crane i
  /-- So do its reports. -/
  reports : ∀ {i}, db.crane_locks i = some q →
    (db'.reports.filter fun r => r.crane_id = i) = db.reports.filter fun r => r.crane_id = i

section Rely

variable {p q : ℕ} {db db' : Db K}

/-- A crane that a process has locked stays locked and as it was read. -/
theorem Rely.hasLocked (hr : Rely q db db') {crane : Crane K} (h : db.HasLocked q crane) :
    db'.HasLocked q crane := by
  obtain ⟨hlock, hrow⟩ := h
  exact ⟨hr.locks _ hlock, by rw [hr.crane hlock, hrow]⟩

/-- The count of a crane that a process has locked stays. -/
theorem Rely.goneReportCount (hr : Rely q db db') {i : Uuid} (hlock : db.crane_locks i = some q) :
    goneReportCount db'.reports i = goneReportCount db.reports i := by
  unfold CraneTracker.goneReportCount
  rw [List.countP_eq_length_filter, List.countP_eq_length_filter, hr.reports hlock]

/-- A report of a crane that a process has locked stays the first of its reporter. -/
theorem Rely.first (hr : Rely q db db') {report : GoneReport}
    (hlock : db.crane_locks report.crane_id = some q) (h : db.First report) : db'.First report := by
  intro r hr' hcrane
  have hmem : r ∈ db'.reports.filter fun r => r.crane_id = report.crane_id :=
    List.mem_filter.2 ⟨hr', by simpa using hcrane⟩
  rw [hr.reports hlock] at hmem
  exact h r (List.mem_filter.1 hmem).1 hcrane

/-- What a request knows survives what the others do. -/
theorem Report.Inv.stable (hr : Rely q db db') {r : Report K} (h : r.Inv threshold q db) :
    r.Inv threshold q db' := by
  cases r with
  | insert => exact hr.hasLocked h
  | count =>
    obtain ⟨hlocked, hcrane, hfirst⟩ := h
    exact ⟨hr.hasLocked hlocked, hcrane, hr.first (by rw [hcrane]; exact hlocked.1) hfirst⟩
  | commit =>
    obtain ⟨hlocked, hcrane, hfirst, hgone⟩ := h
    refine ⟨hr.hasLocked hlocked, hcrane, hr.first (by rw [hcrane]; exact hlocked.1) hfirst, ?_⟩
    rw [hr.goneReportCount hlocked.1]
    exact hgone
  | free | lock | answered | stopped => trivial

/-- A step that leaves the committed rows as they are is what the others rely on, when it takes none of
their locks. -/
theorem Rely.of_rows (hlocks : Locks.Keeps q db.crane_locks db'.crane_locks)
    (hcranes : db'.cranes = db.cranes) (hreports : db'.reports = db.reports) : Rely q db db' where
  locks := hlocks
  crane _ := by rw [Db.crane, hcranes, Db.crane]
  reports _ := by rw [hreports]

/-- The invariant of the committed rows speaks of nothing else. -/
theorem Db.Consistent.of_rows (h : db.Consistent threshold) (hcranes : db'.cranes = db.cranes)
    (hreports : db'.reports = db.reports) : db'.Consistent threshold where
  crane_unique := by rw [hcranes]; exact h.crane_unique
  gone_iff hrow := by
    rw [hreports]
    rw [Db.crane, hcranes] at hrow
    exact h.gone_iff hrow
  report_unique := by rw [hreports]; exact h.report_unique

end Rely

/-! ## The commit -/

section Commit

variable {p q : ℕ} {db : Db K} {now : Timestamp} {crane : Crane K} {report : GoneReport} {gone : Bool}

/-- A crane after a commit. -/
theorem crane_commitReport {i : Uuid} : (db.commitReport p now crane report gone).crane i =
    (db.crane i).map fun r => if gone = true ∧ r.id = crane.id then markGone now r else r := by
  unfold Db.crane Db.commitReport
  cases gone with
  | true =>
    have hid : ∀ r : Crane K, (markGone now r).id = r.id := by
      intro r
      unfold markGone
      split_ifs <;> rfl
    simp only [if_true, row_updateWhere hid, decide_eq_true_eq, true_and]
  | false => simp

/-- The count of a crane after a commit. -/
theorem goneReportCount_commitReport {i : Uuid} :
    goneReportCount (db.commitReport p now crane report gone).reports i =
      goneReportCount db.reports i + if report.crane_id = i then 1 else 0 := by
  unfold goneReportCount Db.commitReport
  simp only [List.countP_append, List.countP_singleton, decide_eq_true_eq]

/-- The ids of cranes stay unique over a commit. -/
theorem crane_unique_commitReport (h : KeyUnique Crane.id db.cranes) :
    KeyUnique Crane.id (db.commitReport p now crane report gone).cranes := by
  unfold Db.commitReport
  dsimp only
  split_ifs
  · refine h.updateWhere fun r => ?_
    unfold markGone
    split_ifs <;> rfl
  · exact h

/-- What the flush leaves of a crane. -/
theorem markGone_status (now : Timestamp) (crane : Crane K) : (markGone now crane).status = .gone := by
  unfold markGone
  split_ifs with h
  · exact h
  · rfl

/-- The commit of a request that has counted keeps the committed rows consistent. -/
theorem Db.Consistent.commitReport (h : db.Consistent threshold)
    (hr : (Report.commit now crane report gone).Inv threshold p db) :
    (db.commitReport p now crane report gone).Consistent threshold where
  crane_unique := crane_unique_commitReport h.crane_unique
  gone_iff := by
    obtain ⟨⟨-, hrow⟩, hcrane, -, hgone⟩ := hr
    intro i crane' hrow'
    rw [crane_commitReport, Option.map_eq_some_iff] at hrow'
    obtain ⟨r, hr, rfl⟩ := hrow'
    have hid : r.id = i := key_of_row hr
    rw [goneReportCount_commitReport, hcrane]
    by_cases hi : crane.id = i
    -- The crane of the report: the count that the request has made is the one after its commit.
    · subst hi
      obtain rfl : crane = r := Option.some.inj (hrow.symm.trans hr)
      rw [if_pos rfl]
      by_cases hg : gone = true
      · rw [if_pos ⟨hg, rfl⟩]
        exact ⟨fun _ => hgone.1 hg, fun _ => markGone_status now crane⟩
      · have hbelow : ¬ threshold ≤ goneReportCount db.reports crane.id + 1 :=
          fun hle => hg (hgone.2 hle)
        rw [if_neg (fun hand => hg hand.1), h.gone_iff hr]
        omega
    · have hne : ¬ (gone = true ∧ r.id = crane.id) := fun hand => hi (hand.2.symm.trans hid)
      rw [if_neg hne, if_neg hi, Nat.add_zero]
      exact h.gone_iff hr
  report_unique := by
    obtain ⟨-, -, hfirst, -⟩ := hr
    unfold Db.commitReport
    rw [List.pairwise_append]
    refine ⟨h.report_unique, List.pairwise_singleton _ _, fun r hr' r' hr'' => ?_⟩
    obtain rfl := List.mem_singleton.1 hr''
    exact hfirst r hr'

/-- The commit of a request is what the others rely on: it holds the lock of its crane. -/
theorem rely_commitReport (hq : q ≠ p)
    (hr : (Report.commit now crane report gone).Inv threshold p db) :
    Rely q db (db.commitReport p now crane report gone) := by
  obtain ⟨⟨hlock, -⟩, hcrane, -, -⟩ := hr
  have hne : ∀ {i}, db.crane_locks i = some q → crane.id ≠ i := by
    rintro i hi rfl
    rw [hlock] at hi
    exact hq (Option.some.inj hi).symm
  refine ⟨.release hq _, fun {i} hi => ?_, fun {i} hi => ?_⟩
  · rw [crane_commitReport]
    cases hrow : db.crane i with
    | none => rfl
    | some r =>
      have hid : r.id = i := key_of_row hrow
      rw [Option.map_some, if_neg]
      rintro ⟨-, heq⟩
      exact hne hi (heq.symm.trans hid)
  · have hreport : report.crane_id ≠ i := by
      rw [hcrane]
      exact hne hi
    unfold Db.commitReport
    simp [List.filter_append, hreport]

end Commit

/-! ## The steps -/

/-- What a step of a request can be. -/
inductive Report.Step (hash_ip : String → String) (threshold p : ℕ) (db : Db K) :
    Report K → Action → Db K → Report K → Prop
  | tick (r : Report K) (now : Timestamp) (hnow : db.clock ≤ now) :
      Report.Step hash_ip threshold p db r (.tick now) { db with clock := now } r
  | start (crane_id : Uuid) (client_ip : String) :
      Report.Step hash_ip threshold p db .free (.start crane_id (some client_ip)) db
        (.lock db.clock crane_id client_ip)
  | unknownHost (crane_id : Uuid) :
      Report.Step hash_ip threshold p db .free (.start crane_id none) db
        (.answered unknownHostResponse)
  | lock (now : Timestamp) (crane : Crane K) (client_ip : String)
      (hrow : db.crane crane.id = some crane)
      (hlock : db.crane_locks.available p crane.id = true) :
      Report.Step hash_ip threshold p db (.lock now crane.id client_ip) .lock
        { db with crane_locks := db.crane_locks.acquire p [crane.id] } (.insert now crane client_ip)
  | missingCrane (now : Timestamp) (crane_id : Uuid) (client_ip : String)
      (hrow : db.crane crane_id = none) :
      Report.Step hash_ip threshold p db (.lock now crane_id client_ip) .lock db
        (.answered (AppError.resourceNotFound "crane" crane_id).response)
  | duplicate (now : Timestamp) (crane : Crane K) (client_ip : String) (id : Uuid)
      (hdup : ¬ db.First ⟨id, crane.id, hash_ip client_ip, now⟩) :
      Report.Step hash_ip threshold p db (.insert now crane client_ip) (.insert id) (db.release p)
        (.answered duplicateGoneReportResponse)
  | insert (now : Timestamp) (crane : Crane K) (client_ip : String) (id : Uuid) (report : GoneReport)
      (hreport : report = ⟨id, crane.id, hash_ip client_ip, now⟩) (hfirst : db.First report)
      (hkey : db.key_locks.available p (report.crane_id, report.reporter_ip_hash) = true) :
      Report.Step hash_ip threshold p db (.insert now crane client_ip) (.insert id)
        { db with
          key_locks := db.key_locks.acquire p [(report.crane_id, report.reporter_ip_hash)] }
        (.count now crane report)
  | count (now : Timestamp) (crane : Crane K) (report : GoneReport) (gone : Bool)
      (hgone : gone = true ↔ goneReportCount (db.reports ++ [report]) crane.id ≠ 0 ∧
        threshold ≤ goneReportCount (db.reports ++ [report]) crane.id) :
      Report.Step hash_ip threshold p db (.count now crane report) .count db
        (.commit now crane report gone)
  | commit (now : Timestamp) (crane : Crane K) (report : GoneReport) (gone : Bool) :
      Report.Step hash_ip threshold p db (.commit now crane report gone) .commit
        (db.commitReport p now crane report gone) (.answered (.ok 200))
  | dbError (r : Report K) (hr : ∀ answer, r ≠ .answered answer) :
      Report.Step hash_ip threshold p db r .dbError (db.release p)
        (.answered sqlAlchemyErrorResponse)
  | stop (r : Report K) (hr : ∀ answer, r ≠ .answered answer) :
      Report.Step hash_ip threshold p db r .stop (db.release p) .stopped

/-- A request steps in one of these ways. -/
theorem Report.step_cases {p : ℕ} {db db' : Db K} {r r' : Report K} {a : Action}
    (h : r.step hash_ip threshold p a db = some (db', r')) :
    Report.Step hash_ip threshold p db r a db' r' := by
  cases a with
  | tick now =>
    simp only [Report.step] at h
    split_ifs at h with hnow
    cases h
    exact .tick _ _ hnow
  | start crane_id client_ip =>
    simp only [Report.step] at h
    split at h
    · split at h
      · cases h
        exact .start _ _
      · cases h
        exact .unknownHost _
    · cases h
  | lock =>
    simp only [Report.step] at h
    split at h
    · split at h
      · rename_i crane hrow
        split_ifs at h with hlock
        cases h
        obtain rfl := key_of_row hrow
        exact .lock _ crane _ hrow hlock
      · rename_i hrow
        cases h
        exact .missingCrane _ _ _ hrow
    · cases h
  | insert id =>
    simp only [Report.step] at h
    split at h
    · rename_i now crane client_ip
      split_ifs at h with hdup hkey
      · cases h
        obtain ⟨r, hr, hsame⟩ := List.any_eq_true.1 hdup
        obtain ⟨hcrane, hhash⟩ := Bool.and_eq_true_iff.1 hsame
        exact .duplicate _ _ _ _ fun hfirst =>
          hfirst r hr (of_decide_eq_true hcrane) (of_decide_eq_true hhash)
      · cases h
        refine .insert now crane client_ip id _ rfl (fun r hr hcrane hhash => hdup ?_) hkey
        exact List.any_eq_true.2 ⟨r, hr, by simp [hcrane, hhash]⟩
    · cases h
  | count =>
    simp only [Report.step] at h
    split at h
    · cases h
      exact .count _ _ _ _ (by simp)
    · cases h
  | commit =>
    simp only [Report.step] at h
    split at h
    · cases h
      exact .commit _ _ _ _
    · cases h
  | dbError =>
    cases r with
    | lock | insert | count | commit =>
      cases h
      exact .dbError _ (by simp)
    | free | answered | stopped => cases h
  | stop =>
    simp only [Report.step] at h
    split at h
    · cases h
    · rename_i hne
      cases h
      exact .stop _ hne

section Steps

variable {p : ℕ} {db : Db K} {r : Report K}

/-- What a step that only ends the transaction of its process leaves. -/
theorem Db.Consistent.release (hs : db.Consistent threshold) (hr : r.Inv threshold p (db.release p)) :
    (db.release p).Consistent threshold ∧ r.Inv threshold p (db.release p) ∧
      ∀ q, q ≠ p → Rely q db (db.release p) :=
  ⟨hs.of_rows rfl rfl, hr, fun _ hq => .of_rows (.release hq _) rfl rfl⟩

/-- What a step that changes nothing that is shared leaves. -/
theorem Db.Consistent.pass (hs : db.Consistent threshold) (hr : r.Inv threshold p db) :
    db.Consistent threshold ∧ r.Inv threshold p db ∧ ∀ q, q ≠ p → Rely q db db :=
  ⟨hs, hr, fun q _ => .of_rows (.refl q _) rfl rfl⟩

/-- Each step of a request keeps the committed rows consistent and what the request knows, and is what
the others rely on. -/
theorem Report.step_sound {db' : Db K} {r' : Report K} {a : Action} (hs : db.Consistent threshold)
    (hr : r.Inv threshold p db) (h : r.step hash_ip threshold p a db = some (db', r')) :
    db'.Consistent threshold ∧ r'.Inv threshold p db' ∧ ∀ q, q ≠ p → Rely q db db' := by
  cases Report.step_cases h with
  | tick r now =>
    have hsame : ∀ q, Rely q db { db with clock := now } := fun q => .of_rows (.refl q _) rfl rfl
    exact ⟨hs.of_rows rfl rfl, hr.stable (hsame p), fun q _ => hsame q⟩
  | start | unknownHost | missingCrane => exact hs.pass trivial
  | duplicate | dbError | stop => exact hs.release trivial
  | lock now crane client_ip hrow hlock =>
    have hmine : (db.crane_locks.acquire p [crane.id]) crane.id = some p :=
      Locks.acquire_of_mem (List.mem_singleton_self _)
    refine ⟨hs.of_rows rfl rfl, ⟨hmine, hrow⟩, fun q hq => .of_rows (.acquire hq ?_) rfl rfl⟩
    simpa using hlock
  | insert now crane client_ip id report hreport hfirst =>
    have hcrane : report.crane_id = crane.id := by rw [hreport]
    exact ⟨hs.of_rows rfl rfl, ⟨hr, hcrane, hfirst⟩, fun q _ => .of_rows (.refl q _) rfl rfl⟩
  | count now crane report gone hgone =>
    obtain ⟨hlocked, hcrane, hfirst⟩ := hr
    refine hs.pass ⟨hlocked, hcrane, hfirst, ?_⟩
    -- The count sees the report of the request besides the committed ones.
    have hcount : goneReportCount (db.reports ++ [report]) crane.id =
        goneReportCount db.reports crane.id + 1 := by
      unfold goneReportCount
      rw [List.countP_append, List.countP_singleton, hcrane, if_pos (by simp)]
    rw [hgone, hcount]
    simp
  | commit now crane report gone =>
    exact ⟨hs.commitReport hr, trivial, fun q hq => rely_commitReport hq hr⟩

end Steps

/-- The gone reports, as an instance of the rely-guarantee rule. -/
def goneReports (K : Type) (hash_ip : String → String) (threshold : ℕ) :
    RelyGuarantee (system K hash_ip threshold) where
  shared db := db.Consistent threshold
  proc := Report.Inv threshold
  rely := Rely
  own hs hr h := Report.step_sound hs hr h
  stable _ _ hr h := h.stable hr

/-- The invariants hold before the first request, when the cranes are active. -/
theorem goneReports_holds_initial (hthreshold : 1 ≤ threshold) {clock : Timestamp}
    {cranes : List (Crane K)} (hunique : KeyUnique Crane.id cranes)
    (hactive : ∀ crane ∈ cranes, crane.status = .active) :
    (goneReports K hash_ip threshold).Holds (initial clock cranes) := by
  refine ⟨⟨hunique, ?_, List.Pairwise.nil⟩, fun _ => trivial⟩
  intro i crane hrow
  have hstatus := hactive crane (mem_of_row hrow)
  have hzero : goneReportCount [] i = 0 := rfl
  show crane.status = .gone ↔ threshold ≤ goneReportCount [] i
  rw [hstatus, hzero]
  simp only [reduceCtorEq, false_iff]
  omega

/-! ## Answers -/

/-- The reports that an event adds to the committed ones. -/
def newReports (hash_ip : String → String) (threshold : ℕ) (c : State K) (e : Event Action) :
    List GoneReport :=
  (((system K hash_ip threshold).next c e).map fun c' =>
    c'.shared.reports.drop c.shared.reports.length).getD []

/-- The reports that the steps of the process `p` add over the run `es` from `c₀`. -/
def reportsOf (hash_ip : String → String) (threshold : ℕ) (c₀ : State K) (es : List (Event Action))
    (p : ℕ) : List GoneReport :=
  ((system K hash_ip threshold).trace
    (fun c e => if e.pid = p then newReports hash_ip threshold c e else []) c₀ es).flatten

section Answers

variable {c c' : State K} {e : Event Action} {p : ℕ}

/-- An event leaves the committed rows as they are and answers no `200`, or it is the commit of a
request, which adds its report and answers `200`. -/
theorem rows_next (h : (system K hash_ip threshold).next c e = some c') :
    (c'.shared.cranes = c.shared.cranes ∧ c'.shared.reports = c.shared.reports ∧
      (c'.procs e.pid = .answered (.ok 200) → c.procs e.pid = .answered (.ok 200))) ∨
    ∃ now crane report gone, c.procs e.pid = .commit now crane report gone ∧
      c'.procs e.pid = .answered (.ok 200) ∧
      c'.shared.reports = c.shared.reports ++ [report] := by
  obtain ⟨db', r', hstep, rfl⟩ := System.next_eq_some.1 h
  generalize c.procs e.pid = r at hstep
  generalize e.act = a at hstep
  simp only [Function.update_self]
  cases Report.step_cases hstep with
  | commit now crane report gone => exact .inr ⟨now, crane, report, gone, rfl, rfl, rfl⟩
  | tick => exact .inl ⟨rfl, rfl, id⟩
  | start | unknownHost | lock | missingCrane | duplicate | insert | count | dbError | stop =>
    exact .inl ⟨rfl, rfl, nofun⟩

/-- A request that has answered stays as it is. -/
theorem answered_next (h : (system K hash_ip threshold).next c e = some c') {answer : Answer}
    (hp : c.procs p = .answered answer) : c'.procs p = .answered answer := by
  by_cases hpid : p = e.pid
  · subst hpid
    obtain ⟨db', r', hstep, rfl⟩ := System.next_eq_some.1 h
    rw [hp] at hstep
    simp only [Function.update_self]
    generalize e.act = a at hstep
    have hcases : Report.Step hash_ip threshold e.pid c.shared (.answered answer) a db' r' :=
      Report.step_cases hstep
    cases hcases with
    | tick => rfl
    | dbError _ hr | stop _ hr => exact absurd rfl (hr answer)
  · rw [System.procs_next_of_ne h hpid, hp]

/-- What an event adds to the reports. -/
theorem newReports_eq (h : (system K hash_ip threshold).next c e = some c') :
    newReports hash_ip threshold c e = c'.shared.reports.drop c.shared.reports.length := by
  rw [newReports, h, Option.map_some, Option.getD_some]

/-- A request has added one report when it has answered `200`, and none otherwise. -/
theorem length_reportsOf {clock : Timestamp} {cranes : List (Crane K)} {es : List (Event Action)}
    (h : (system K hash_ip threshold).run (initial clock cranes) es = some c) (p : ℕ) :
    (c.procs p = .answered (.ok 200) →
      (reportsOf hash_ip threshold (initial clock cranes) es p).length = 1) ∧
    (c.procs p ≠ .answered (.ok 200) →
      reportsOf hash_ip threshold (initial clock cranes) es p = []) := by
  refine System.run_induction (I := fun es c => (c.procs p = .answered (.ok 200) →
      (reportsOf hash_ip threshold (initial clock cranes) es p).length = 1) ∧
    (c.procs p ≠ .answered (.ok 200) →
      reportsOf hash_ip threshold (initial clock cranes) es p = [])) ⟨?_, fun _ => rfl⟩ ?_ h
  · intro hp
    cases hp
  rintro es c e c' hrun hnext ⟨hone, hnone⟩
  -- The reports of the longer run are those of the run, and those of the last event if it is `p`'s.
  have hconcat : reportsOf hash_ip threshold (initial clock cranes) (es ++ [e]) p =
      reportsOf hash_ip threshold (initial clock cranes) es p ++
        if e.pid = p then newReports hash_ip threshold c e else [] := by
    unfold reportsOf
    rw [System.trace_concat hrun, List.flatten_append, List.flatten_singleton]
  rw [hconcat, newReports_eq hnext]
  by_cases hpid : e.pid = p
  · subst hpid
    rw [if_pos rfl]
    rcases rows_next hnext with ⟨-, hreports, hback⟩ | ⟨now, crane, report, gone, hl, hp, hreports⟩
    · rw [hreports, List.drop_length, List.append_nil]
      exact ⟨fun hp => hone (hback hp), fun hp => hnone fun hold => hp (answered_next hnext hold)⟩
    · have hbefore : c.procs e.pid ≠ .answered (.ok 200) := by
        rw [hl]
        simp
      rw [hreports, List.drop_left, hnone hbefore]
      exact ⟨fun _ => rfl, fun hne => absurd hp hne⟩
  · rw [if_neg hpid, List.append_nil, System.procs_next_of_ne hnext (Ne.symm hpid)]
    exact ⟨hone, hnone⟩

/-- The steps of a request that has ended otherwise than with a `200` leave the committed rows as they
are. -/
theorem rows_of_answered {c₀ c₁ c₂ : State K} {es : List (Event Action)}
    (hrun : (system K hash_ip threshold).run c₀ es = some c)
    (hpass : (system K hash_ip threshold).Passes c₀ es c₁ e c₂) {answer : Answer}
    (hp : c.procs e.pid = .answered answer) (hne : answer ≠ .ok 200) :
    c₂.shared.cranes = c₁.shared.cranes ∧ c₂.shared.reports = c₁.shared.reports := by
  rcases rows_next hpass.next with ⟨hcranes, hreports, -⟩ | ⟨_, _, _, _, -, hanswered, -⟩
  · exact ⟨hcranes, hreports⟩
  -- It would have answered `200` by this step, and kept its answer.
  · obtain ⟨es₁, es₂, rfl, hrun₁, hnext⟩ := hpass
    obtain ⟨c₃, hrun₃, hrest⟩ := System.run_append.1 hrun
    obtain rfl : c₁ = c₃ := Option.some.inj (hrun₁.symm.trans hrun₃)
    obtain ⟨c₄, hnext', hrun₄⟩ := System.run_cons.1 hrest
    obtain rfl : c₂ = c₄ := Option.some.inj (hnext.symm.trans hnext')
    have hlast := System.run_invariant (I := fun c => c.procs e.pid = .answered (.ok 200))
      (fun _ _ _ hp hn => answered_next hn hp) hrun₄ hanswered
    rw [hp] at hlast
    cases hlast
    exact absurd rfl hne

end Answers

/-- Gone reports. For a threshold of at least `1`, and cranes that are created active and without
reports, after every run: a crane is gone if and only if it has at least `threshold` reports, no crane
has two reports of the same reporter, a request that has succeeded has added exactly one report, and no
step of a request that was rejected as a duplicate has changed a crane or a report. -/
theorem gone_reports (hash_ip : String → String) {threshold : ℕ} (hthreshold : 1 ≤ threshold)
    (clock : Timestamp) {cranes : List (Crane K)} (hunique : KeyUnique Crane.id cranes)
    (hactive : ∀ crane ∈ cranes, crane.status = .active) {es : List (Event Action)} {c : State K}
    (hrun : (system K hash_ip threshold).run (initial clock cranes) es = some c) :
    (∀ crane ∈ c.shared.cranes,
      (crane.status = .gone ↔ threshold ≤ goneReportCount c.shared.reports crane.id)) ∧
    (c.shared.reports.Pairwise fun r r' =>
      r.crane_id = r'.crane_id → r.reporter_ip_hash ≠ r'.reporter_ip_hash) ∧
    (∀ p, c.procs p = .answered (.ok 200) →
      (reportsOf hash_ip threshold (initial clock cranes) es p).length = 1) ∧
    ∀ c₁ e c₂, (system K hash_ip threshold).Passes (initial clock cranes) es c₁ e c₂ →
      c.procs e.pid = .answered duplicateGoneReportResponse →
      c₂.shared.cranes = c₁.shared.cranes ∧ c₂.shared.reports = c₁.shared.reports := by
  have hinit : (goneReports K hash_ip threshold).Holds (initial clock cranes) :=
    goneReports_holds_initial hthreshold hunique hactive
  have hs : c.shared.Consistent threshold := (hinit.run hrun).1
  refine ⟨fun crane hcrane => hs.gone_iff (row_of_mem hs.crane_unique hcrane), hs.report_unique,
    fun p => (length_reportsOf hrun p).1, fun c₁ e c₂ hpass hp => ?_⟩
  exact rows_of_answered hrun hpass hp (by simp [duplicateGoneReportResponse])

/-- The request `p` reports the crane `crane_id` from `client_ip`, and commits the report `id`. -/
def reportEvents (p : ℕ) (crane_id id : Uuid) (client_ip : String) : List (Event Action) :=
  [⟨p, .start crane_id (some client_ip)⟩, ⟨p, .lock⟩, ⟨p, .insert id⟩, ⟨p, .count⟩, ⟨p, .commit⟩]

/-- A crane without reports. -/
def activeCrane (id : Uuid) : Crane ℤ := ⟨id, 0, 0, ⟨0, 0⟩, none, .active, none, none, 0, 0⟩

/-- Two reporters of a crane, with a threshold of two, and one of them again: the crane is gone. -/
theorem gone_reports_two :
    ∃ c, (system ℤ id 2).run (initial 0 [activeCrane 1]) (reportEvents 0 1 7 "a" ++
      reportEvents 1 1 8 "b" ++ [⟨2, .start 1 (some "a")⟩, ⟨2, .lock⟩, ⟨2, .insert 9⟩]) = some c ∧
      c.shared.cranes.length = 1 ∧ ∀ crane ∈ c.shared.cranes,
        (crane.status = .gone ↔ 2 ≤ goneReportCount c.shared.reports crane.id) := by
  have hrun : ((system ℤ id 2).run (initial 0 [activeCrane 1]) (reportEvents 0 1 7 "a" ++
      reportEvents 1 1 8 "b" ++ [⟨2, .start 1 (some "a")⟩, ⟨2, .lock⟩, ⟨2, .insert 9⟩])).map
      (fun c => c.shared.cranes.map Crane.status) = some [.gone] := by decide +kernel
  obtain ⟨c, hc, hstatus⟩ := Option.map_eq_some_iff.1 hrun
  have hlength : c.shared.cranes.length = 1 := by
    rw [← List.length_map Crane.status, hstatus]
    rfl
  have hunique : KeyUnique Crane.id [activeCrane 1] := List.nodup_singleton _
  have hactive : ∀ crane ∈ [activeCrane 1], crane.status = .active := by
    intro crane hcrane
    rw [List.mem_singleton.1 hcrane]
    rfl
  exact ⟨c, hc, hlength, (gone_reports id (by decide) 0 hunique hactive hc).1⟩

end CraneTracker.Gone
