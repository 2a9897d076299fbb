import CraneTracker.Creation.System

/-!
# Duplicate cranes

A crane that is committed without an override has passed the check, but only against the cranes that
were committed by then. `checked_of_step` carries that along the rest of the request. What is committed
between the check and the commit is not checked by anyone, and `duplicates_overridden_iff` proves that
the rule about duplicates holds over a run exactly when nothing near is committed in between.
-/

namespace CraneTracker.Creation

open Interleaving

variable {K : Type}

/-- Two cranes within `CRANE_DUPLICATE_DISTANCE_METERS` of each other. -/
def Near (dwithin : Point K → Point K → ℕ → Bool) (x y : Crane K) : Prop :=
  dwithin x.location y.location craneDuplicateDistanceMeters = true

/-- Of two committed cranes near each other, the later was created with an override. -/
def DuplicatesOverridden (dwithin : Point K → Point K → ℕ → Bool) (db : Db K) : Prop :=
  db.committed.Pairwise fun earlier later =>
    Near dwithin earlier.crane later.crane → later.override_duplicate_warning = true

/-- If the event `e` commits a crane without an override, then no crane near it has been committed since
its check. -/
def NoneSinceCheck (dwithin : Point K → Point K → ℕ → Bool) (c : State K) (e : Event (Action K)) :
    Prop :=
  ∀ crane request seen, e.act = .commit → c.procs e.pid = .commit crane request seen →
    request.override_duplicate_warning = false →
    ∀ x ∈ c.shared.committed.drop seen, ¬ Near dwithin x.crane crane

/-- The first `seen` committed cranes are not near the point of a request without an override. -/
def Checked (dwithin : Point K → Point K → ℕ → Bool) (db : Db K) (request : CreateCraneRequest K)
    (seen : ℕ) : Prop :=
  seen ≤ db.committed.length ∧ (request.override_duplicate_warning = false →
    ∀ x ∈ db.committed.take seen,
      dwithin x.crane.location request.point craneDuplicateDistanceMeters = false)

/-- What a request knows between its steps. -/
def Create.Inv (dwithin : Point K → Point K → ℕ → Bool) (db : Db K) : Create K → Prop
  | .geocode _ request seen => Checked dwithin db request seen
  | .insert _ request _ seen => Checked dwithin db request seen
  | .commit crane request seen => Checked dwithin db request seen ∧ crane.location = request.point
  | _ => True

section Checked

variable {dwithin : Point K → Point K → ℕ → Bool} {db db' : Db K}

/-- What a check has seen stays as it is. -/
theorem Checked.append {request : CreateCraneRequest K} {seen : ℕ}
    (h : Checked dwithin db request seen) {xs : List (Created K)}
    (hdb : db'.committed = db.committed ++ xs) : Checked dwithin db' request seen := by
  obtain ⟨hle, hfar⟩ := h
  refine ⟨?_, ?_⟩
  · rw [hdb, List.length_append]
    omega
  · rw [hdb, List.take_append_of_le_length hle]
    exact hfar

/-- What a request knows survives what is committed after. -/
theorem Create.Inv.append {r : Create K} (h : r.Inv dwithin db) {xs : List (Created K)}
    (hdb : db'.committed = db.committed ++ xs) : r.Inv dwithin db' := by
  cases r with
  | geocode => exact Checked.append h hdb
  | insert => exact Checked.append h hdb
  | commit => exact ⟨Checked.append h.1 hdb, h.2⟩
  | free | check | answered | stopped => trivial

/-- A check that finds no duplicate has seen every committed crane. -/
theorem checked_of_check {request : CreateCraneRequest K}
    (h : request.override_duplicate_warning = false →
      possibleDuplicate dwithin (db.committed.map Created.crane) request.toCraneInput = false) :
    Checked dwithin db request db.committed.length := by
  refine ⟨le_rfl, fun hoverride x hx => ?_⟩
  have hfar := h hoverride
  unfold possibleDuplicate at hfar
  rw [List.any_eq_false] at hfar
  rw [List.take_length] at hx
  simpa using hfar x.crane (List.mem_map_of_mem hx)

/-- Each step of a request adds committed cranes after the others, and keeps what it knows. -/
theorem checked_of_step {r r' : Create K} {a : Action K} (hr : r.Inv dwithin db)
    (h : r.step dwithin a db = some (db', r')) :
    (∃ xs, db'.committed = db.committed ++ xs) ∧ r'.Inv dwithin db' := by
  cases a with
  | tick now =>
    simp only [Create.step] at h
    split_ifs at h
    cases h
    exact ⟨⟨[], by simp⟩, hr.append (List.append_nil _).symm⟩
  | check =>
    simp only [Create.step] at h
    split at h
    · split_ifs at h with hoverride hdup
      · cases h
        exact ⟨⟨[], by simp⟩, trivial⟩
      · cases h
        exact ⟨⟨[], by simp⟩, checked_of_check fun _ => by simpa using hdup⟩
      · cases h
        exact ⟨⟨[], by simp⟩, checked_of_check fun hfalse => absurd hfalse hoverride⟩
    · cases h
  | geocode result =>
    simp only [Create.step] at h
    split at h
    · split at h
      · cases h
        exact ⟨⟨[], by simp⟩, hr⟩
      · cases h
        exact ⟨⟨[], by simp⟩, trivial⟩
    · cases h
  | insert id =>
    simp only [Create.step] at h
    split at h
    · cases h
      exact ⟨⟨[], by simp⟩, hr, rfl⟩
    · cases h
  | commit =>
    simp only [Create.step] at h
    split at h
    · cases h
      exact ⟨⟨_, rfl⟩, trivial⟩
    · cases h
  | start | dbError | stop =>
    simp only [Create.step] at h
    repeat' split at h
    all_goals cases h
    all_goals exact ⟨⟨[], by simp⟩, trivial⟩

end Checked

section Runs

variable {dwithin : Point K → Point K → ℕ → Bool}

/-- The requests, as an instance of the rely-guarantee rule: others only add committed cranes. -/
def creation (dwithin : Point K → Point K → ℕ → Bool) : RelyGuarantee (system dwithin) where
  shared _ := True
  proc _ := Create.Inv dwithin
  rely _ db db' := ∃ xs, db'.committed = db.committed ++ xs
  own := by
    intro p a db r db' r' _ hr h
    obtain ⟨happend, hr'⟩ := checked_of_step hr h
    exact ⟨trivial, hr', fun _ _ => happend⟩
  stable := by
    rintro q db db' r - - ⟨xs, hdb⟩ hr
    exact hr.append hdb

/-- The invariants hold before the first request. -/
theorem creation_holds_initial (clock : Timestamp) :
    (creation dwithin).Holds (initial (K := K) clock) :=
  ⟨trivial, fun _ => trivial⟩

/-- What an event adds to the committed cranes: nothing, or the crane that it commits. -/
theorem committed_next {c c' : State K} {e : Event (Action K)}
    (h : (system dwithin).next c e = some c') :
    (c'.shared.committed = c.shared.committed ∧ e.act ≠ .commit) ∨
      ∃ crane request seen, e.act = .commit ∧ c.procs e.pid = .commit crane request seen ∧
        c'.shared.committed =
          c.shared.committed ++ [⟨crane, request.override_duplicate_warning⟩] := by
  obtain ⟨db', r', hstep, rfl⟩ := System.next_eq_some.1 h
  obtain ⟨pid, a⟩ := e
  dsimp only at hstep ⊢
  cases a with
  | commit =>
    simp only [system, Create.step] at hstep
    split at hstep
    · rename_i crane request seen hproc
      cases hstep
      exact Or.inr ⟨crane, request, seen, rfl, hproc, rfl⟩
    · cases hstep
  | tick | start | check | geocode | insert | dbError | stop =>
    left
    simp only [system, Create.step] at hstep
    repeat' split at hstep
    all_goals cases hstep
    all_goals exact ⟨rfl, by simp⟩

/-- An event keeps the rule about duplicates exactly when no crane near the one that it commits has been
committed since the check. -/
theorem duplicatesOverridden_next_iff {c c' : State K} {e : Event (Action K)}
    (hc : (creation dwithin).Holds c) (h : (system dwithin).next c e = some c')
    (hd : DuplicatesOverridden dwithin c.shared) :
    DuplicatesOverridden dwithin c'.shared ↔ NoneSinceCheck dwithin c e := by
  rcases committed_next h with ⟨heq, hact⟩ | ⟨crane, request, seen, hact, hproc, heq⟩
  · unfold DuplicatesOverridden
    rw [heq]
    exact ⟨fun _ _ _ _ hact' => absurd hact' hact, fun _ => hd⟩
  · have hinv := hc.2 e.pid
    rw [hproc] at hinv
    obtain ⟨⟨-, hfar⟩, hlocation⟩ := hinv
    unfold DuplicatesOverridden at hd ⊢
    rw [heq, List.pairwise_append]
    constructor
    -- A crane near it that the check has not seen would break the rule.
    · rintro ⟨-, -, hpair⟩ crane' request' seen' - hproc' hoverride x hx hnear
      rw [hproc] at hproc'
      cases hproc'
      have htrue := hpair x (List.mem_of_mem_drop hx) _ (List.mem_singleton_self _) hnear
      rw [hoverride] at htrue
      cases htrue
    · intro hnone
      refine ⟨hd, List.pairwise_singleton _ _, fun x hx y hy hnear => ?_⟩
      obtain rfl := List.mem_singleton.1 hy
      by_contra hoverride
      have hfalse : request.override_duplicate_warning = false := by simpa using hoverride
      -- The check saw the first `seen` cranes, and the hypothesis speaks of the rest.
      rw [← List.take_append_drop seen c.shared.committed] at hx
      rcases List.mem_append.1 hx with hseen | hunseen
      · have hfar' := hfar hfalse x hseen
        rw [Near, hlocation, hfar'] at hnear
        cases hnear
      · exact hnone crane request seen hact hproc hfalse x hunseen hnear

end Runs

/-- Over a run, of two committed cranes near each other the later was always created with an override
exactly when no request without an override commits a crane near to one that was committed since its
check. -/
theorem duplicates_overridden_iff (dwithin : Point K → Point K → ℕ → Bool) (clock : Timestamp)
    (es : List (Event (Action K))) :
    (∀ c, (system dwithin).Visits (initial clock) es c → DuplicatesOverridden dwithin c.shared) ↔
      ∀ c e c', (system dwithin).Passes (initial clock) es c e c' → NoneSinceCheck dwithin c e := by
  have hinit : (creation dwithin).Holds (initial clock) := creation_holds_initial clock
  constructor
  · intro hd c e c' hpass
    have hc := hinit.visits hpass.visits_left
    exact (duplicatesOverridden_next_iff hc hpass.next (hd c hpass.visits_left)).1
      (hd c' hpass.visits)
  · intro hnone c hv
    have hempty : DuplicatesOverridden dwithin (initial clock).shared := List.Pairwise.nil
    exact hinit.visits_induction hempty (J := fun c => DuplicatesOverridden dwithin c.shared)
      (fun c₁ e c₂ hpass hc₁ hd₁ =>
        (duplicatesOverridden_next_iff hc₁ hpass.next hd₁).2 (hnone c₁ e c₂ hpass)) hv

/-- The request `p` for a crane at the point `(0, 0)`, up to its commit. -/
def createEvents (p : ℕ) (id : Uuid) : List (Event (Action ℤ)) :=
  [⟨p, .start ⟨⟨0, 0, none⟩, false⟩⟩, ⟨p, .check⟩, ⟨p, .geocode (.retrievalError "timeout 5 seconds")⟩,
    ⟨p, .insert id⟩]

/-- Two requests for the same point overlap. Both checks find nothing, and both cranes are committed. -/
theorem duplicate_without_override : ¬ ∀ dwithin : Point ℤ → Point ℤ → ℕ → Bool,
    (∀ x y d, dwithin x y d = dwithin y x d) → (∀ x d, dwithin x x d = true) →
    ∀ clock es c, (system dwithin).run (initial clock) es = some c →
      DuplicatesOverridden dwithin c.shared := by
  intro hrule
  have hrun : ((system fun x y _ => decide (x = y)).run (initial 0) (createEvents 0 1 ++
      createEvents 1 2 ++ [⟨0, .commit⟩, ⟨1, .commit⟩])).map (fun c => c.shared.committed.map fun x =>
        (x.crane.location, x.override_duplicate_warning))
      = some [(⟨0, 0⟩, false), (⟨0, 0⟩, false)] := by decide +kernel
  obtain ⟨c, hc, hcommitted⟩ := Option.map_eq_some_iff.1 hrun
  have hd := hrule _ (fun x y _ => by simp [eq_comm]) (fun x _ => by simp) 0 _ c hc
  have hpair : (c.shared.committed.map fun x =>
      (x.crane.location, x.override_duplicate_warning)).Pairwise fun x y =>
        x.1 = y.1 → y.2 = true := by
    rw [List.pairwise_map]
    exact hd.imp fun hxy hloc => hxy (by simpa [Near] using hloc)
  rw [hcommitted] at hpair
  simp at hpair

end CraneTracker.Creation
