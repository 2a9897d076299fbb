import Mathlib.Logic.Function.Basic
import Mathlib.Data.List.Chain
import Mathlib.Data.List.Induction

/-!
# Interleaved processes over a shared state

A `System` has one step function: the process `p` with local state `l`, offered the choice `a`,
either cannot move or moves the shared state and its own local state. A run is a list of events,
each naming the process that moves and its choice, so every interleaving of any number of
processes is a run. `System.run` executes one.

`RelyGuarantee` is the rule by which invariants of such a system are proved. Each process keeps an
invariant of its own about the shared state, which must survive what the others do (`stable`). What
the others do to a process `q` is the relation `rely q`, and each step of another process must be
within it (`own`). `RelyGuarantee.run` then gives every process its invariant in every state of
every run.

`Visits` and `Passes` name the states and the steps of a run. They are the form in which a
property of a whole run is stated, and `Visits.induction` proves such a property when only the steps
of that run, and not every possible step, are known to be harmless.
-/

namespace Interleaving

/-- The shared state and the local state of every process. -/
structure Config (σ π : Type*) where
  /-- The state that the processes share. -/
  shared : σ
  /-- The local states. -/
  procs : ℕ → π

/-- One event of a run: the process that moves, and the choice that it makes. -/
structure Event (α : Type*) where
  /-- The process that moves. -/
  pid : ℕ
  /-- Its choice. -/
  act : α

/-- A system of processes, by the step of one process under a choice; `none` when it cannot move. -/
structure System (σ π α : Type*) where
  /-- The step of one process. -/
  step : ℕ → α → σ → π → Option (σ × π)

variable {σ π α : Type*}

namespace System

variable (S : System σ π α)

/-- One event: the process moves the shared state and its own local state. -/
def next (c : Config σ π) (e : Event α) : Option (Config σ π) :=
  (S.step e.pid e.act c.shared (c.procs e.pid)).map
    fun r => ⟨r.1, Function.update c.procs e.pid r.2⟩

/-- A run: the events in order, `none` as soon as one cannot happen. -/
def run (c : Config σ π) : List (Event α) → Option (Config σ π)
  | [] => some c
  | e :: es => (S.next c e).bind fun c' => run c' es

/-- The states of a run, from its first to its last. -/
def states (c : Config σ π) : List (Event α) → List (Config σ π)
  | [] => [c]
  | e :: es => c :: ((S.next c e).map fun c' => states c' es).getD []

/-- What an observer of each step records along a run. -/
def trace {β : Type*} (obs : Config σ π → Event α → β) (c : Config σ π) : List (Event α) → List β
  | [] => []
  | e :: es => obs c e :: ((S.next c e).map fun c' => trace obs c' es).getD []

/-- The run `es` from `c₀` passes through the state `c`. -/
def Visits (c₀ : Config σ π) (es : List (Event α)) (c : Config σ π) : Prop :=
  ∃ es₁ es₂, es = es₁ ++ es₂ ∧ S.run c₀ es₁ = some c

/-- The run `es` from `c₀` passes from the state `c` to `c'` by the event `e`. -/
def Passes (c₀ : Config σ π) (es : List (Event α)) (c : Config σ π) (e : Event α)
    (c' : Config σ π) : Prop :=
  ∃ es₁ es₂, es = es₁ ++ e :: es₂ ∧ S.run c₀ es₁ = some c ∧ S.next c e = some c'

variable {S}

/-- An event that happens is a step of its process. -/
theorem next_eq_some {c c' : Config σ π} {e : Event α} :
    S.next c e = some c' ↔ ∃ s' l', S.step e.pid e.act c.shared (c.procs e.pid) = some (s', l') ∧
      c' = ⟨s', Function.update c.procs e.pid l'⟩ := by
  unfold next
  rw [Option.map_eq_some_iff]
  constructor
  · rintro ⟨⟨s', l'⟩, h, rfl⟩
    exact ⟨s', l', h, rfl⟩
  · rintro ⟨s', l', h, rfl⟩
    exact ⟨(s', l'), h, rfl⟩

/-- An event leaves the local states of the other processes as they are. -/
theorem procs_next_of_ne {c c' : Config σ π} {e : Event α} (h : S.next c e = some c') {q : ℕ}
    (hq : q ≠ e.pid) : c'.procs q = c.procs q := by
  obtain ⟨s', l', -, rfl⟩ := next_eq_some.1 h
  exact Function.update_of_ne hq _ _

@[simp]
theorem run_nil (c : Config σ π) : S.run c [] = some c := rfl

/-- A run of at least one event is its first event and a run from there. -/
theorem run_cons {c c' : Config σ π} {e : Event α} {es : List (Event α)} :
    S.run c (e :: es) = some c' ↔ ∃ c₁, S.next c e = some c₁ ∧ S.run c₁ es = some c' := by
  rw [run, Option.bind_eq_some_iff]

/-- Two runs in sequence. -/
theorem run_append {c c' : Config σ π} {es es' : List (Event α)} :
    S.run c (es ++ es') = some c' ↔ ∃ c₁, S.run c es = some c₁ ∧ S.run c₁ es' = some c' := by
  -- By induction on the first run, which moves its start.
  induction es generalizing c with
  | nil => simp
  | cons e es ih =>
    simp only [List.cons_append, run_cons, ih]
    constructor
    · rintro ⟨c₁, h₁, c₂, h₂, h₃⟩
      exact ⟨c₂, ⟨c₁, h₁, h₂⟩, h₃⟩
    · rintro ⟨c₂, ⟨c₁, h₁, h₂⟩, h₃⟩
      exact ⟨c₁, h₁, c₂, h₂, h₃⟩

/-- A run of at least one event, by its last event. -/
theorem run_concat {c c' : Config σ π} {es : List (Event α)} {e : Event α} :
    S.run c (es ++ [e]) = some c' ↔ ∃ c₁, S.run c es = some c₁ ∧ S.next c₁ e = some c' := by
  simp [run_append, run_cons]

/-- A process that no event of a run names keeps its local state. -/
theorem procs_run_of_not_mem {c c' : Config σ π} {es : List (Event α)} (h : S.run c es = some c')
    {q : ℕ} (hq : ∀ e ∈ es, e.pid ≠ q) : c'.procs q = c.procs q := by
  induction es generalizing c with
  | nil =>
    obtain rfl : c = c' := Option.some.inj h
    rfl
  | cons e es ih =>
    obtain ⟨c₁, h₁, h₂⟩ := run_cons.1 h
    rw [ih h₂ fun e' he' => hq e' (List.mem_cons_of_mem _ he'),
      procs_next_of_ne h₁ (hq e List.mem_cons_self).symm]

/-- The process `p` alone takes the state `c` to `c'`. -/
def Solo (S : System σ π α) (p : ℕ) (c c' : Config σ π) : Prop :=
  ∃ es, (∀ e ∈ es, e.pid = p) ∧ S.run c es = some c'

theorem Solo.refl {p : ℕ} (c : Config σ π) : S.Solo p c c := ⟨[], nofun, run_nil c⟩

/-- Two runs of one process in sequence. -/
theorem Solo.trans {p : ℕ} {c c₁ c' : Config σ π} (h₁ : S.Solo p c c₁) (h₂ : S.Solo p c₁ c') :
    S.Solo p c c' := by
  obtain ⟨es₁, hpid₁, hrun₁⟩ := h₁
  obtain ⟨es₂, hpid₂, hrun₂⟩ := h₂
  refine ⟨es₁ ++ es₂, fun e he => ?_, run_append.2 ⟨c₁, hrun₁, hrun₂⟩⟩
  exact (List.mem_append.1 he).elim (hpid₁ e) (hpid₂ e)

/-- One step of the process. -/
theorem Solo.step {p : ℕ} {a : α} {c : Config σ π} {s' : σ} {l' : π}
    (h : S.step p a c.shared (c.procs p) = some (s', l')) :
    S.Solo p c ⟨s', Function.update c.procs p l'⟩ := by
  have hnext : S.next c ⟨p, a⟩ = some ⟨s', Function.update c.procs p l'⟩ :=
    next_eq_some.2 ⟨s', l', h, rfl⟩
  exact ⟨[⟨p, a⟩], fun e he => congrArg Event.pid (List.mem_singleton.1 he),
    run_cons.2 ⟨_, hnext, run_nil _⟩⟩

/-- The invariant rule: what holds at first and survives every step holds after every run. -/
theorem run_invariant {I : Config σ π → Prop} (hstep : ∀ c e c', I c → S.next c e = some c' → I c')
    {c c' : Config σ π} {es : List (Event α)} (h : S.run c es = some c') (hc : I c) : I c' := by
  induction es generalizing c with
  | nil =>
    obtain rfl : c = c' := Option.some.inj h
    exact hc
  | cons e es ih =>
    obtain ⟨c₁, h₁, h₂⟩ := run_cons.1 h
    exact ih h₂ (hstep _ _ _ hc h₁)

/-- The last state of a run is one of its states. -/
theorem Visits.last {c₀ c : Config σ π} {es : List (Event α)} (h : S.run c₀ es = some c) :
    S.Visits c₀ es c :=
  ⟨es, [], (List.append_nil es).symm, h⟩

/-- A step of a run ends in one of its states. -/
theorem Passes.visits {c₀ c c' : Config σ π} {es : List (Event α)} {e : Event α}
    (h : S.Passes c₀ es c e c') : S.Visits c₀ es c' := by
  obtain ⟨es₁, es₂, rfl, h₁, h₂⟩ := h
  exact ⟨es₁ ++ [e], es₂, by simp, run_concat.2 ⟨c, h₁, h₂⟩⟩

/-- A step of a run starts in one of its states. -/
theorem Passes.visits_left {c₀ c c' : Config σ π} {es : List (Event α)} {e : Event α}
    (h : S.Passes c₀ es c e c') : S.Visits c₀ es c := by
  obtain ⟨es₁, es₂, rfl, h₁, -⟩ := h
  exact ⟨es₁, e :: es₂, rfl, h₁⟩

/-- The step itself. -/
theorem Passes.next {c₀ c c' : Config σ π} {es : List (Event α)} {e : Event α}
    (h : S.Passes c₀ es c e c') : S.next c e = some c' := by
  obtain ⟨-, -, -, -, h₂⟩ := h
  exact h₂

/-- A step of the beginning of a run is a step of the run. -/
theorem Passes.append {c₀ c c' : Config σ π} {es : List (Event α)} {e : Event α}
    (h : S.Passes c₀ es c e c') (es' : List (Event α)) : S.Passes c₀ (es ++ es') c e c' := by
  obtain ⟨es₁, es₂, rfl, h₁, h₂⟩ := h
  exact ⟨es₁, es₂ ++ es', by simp, h₁, h₂⟩

/-- A step of the end of a run is a step of the run. -/
theorem Passes.of_append {c₀ c₁ c c' : Config σ π} {es es' : List (Event α)} {e : Event α}
    (h₁ : S.run c₀ es = some c₁) (h : S.Passes c₁ es' c e c') : S.Passes c₀ (es ++ es') c e c' := by
  obtain ⟨es₁, es₂, rfl, h₂, h₃⟩ := h
  exact ⟨es ++ es₁, es₂, by simp, run_append.2 ⟨c₁, h₁, h₂⟩, h₃⟩

/-- The last step of a run is one of its steps. -/
theorem Passes.last {c₀ c c' : Config σ π} {es : List (Event α)} {e : Event α}
    (h : S.run c₀ es = some c) (h' : S.next c e = some c') :
    S.Passes c₀ (es ++ [e]) c e c' :=
  ⟨es, [], by simp, h, h'⟩

/-- A step of a run and one more event is a step of the run, or that event. -/
theorem Passes.concat_cases {c₀ c c' c₁ c₂ : Config σ π} {es : List (Event α)} {e e₁ : Event α}
    (h : S.run c₀ es = some c) (hnext : S.next c e = some c')
    (hpass : S.Passes c₀ (es ++ [e]) c₁ e₁ c₂) :
    S.Passes c₀ es c₁ e₁ c₂ ∨ c₁ = c ∧ e₁ = e ∧ c₂ = c' := by
  obtain ⟨es₁, es₂, heq, h₁, h₂⟩ := hpass
  rcases List.eq_nil_or_concat es₂ with rfl | ⟨es₂, e₂, rfl⟩
  · obtain ⟨rfl, he⟩ := List.append_inj' heq rfl
    obtain rfl := List.singleton_inj.1 he
    obtain rfl : c = c₁ := Option.some.inj (h.symm.trans h₁)
    exact Or.inr ⟨rfl, rfl, Option.some.inj (h₂.symm.trans hnext)⟩
  · have heq' : es ++ [e] = (es₁ ++ e₁ :: es₂) ++ [e₂] := by simpa using heq
    obtain ⟨rfl, -⟩ := List.append_inj' heq' rfl
    exact Or.inl ⟨es₁, es₂, rfl, h₁, h₂⟩

/-- What holds at first and not at the end of a run stops holding at one of its steps. -/
theorem exists_passes_of_not {P : Config σ π → Prop} {c₀ c : Config σ π} {es : List (Event α)}
    (h : S.run c₀ es = some c) (h₀ : P c₀) (hc : ¬ P c) :
    ∃ c₁ e c₂, S.Passes c₀ es c₁ e c₂ ∧ P c₁ ∧ ¬ P c₂ := by
  induction es using List.reverseRecOn generalizing c with
  | nil =>
    obtain rfl : c₀ = c := Option.some.inj h
    exact absurd h₀ hc
  | append_singleton es e ih =>
    obtain ⟨c₁, h₁, h₂⟩ := run_concat.1 h
    by_cases hP : P c₁
    · exact ⟨c₁, e, c, .last h₁ h₂, hP, hc⟩
    · obtain ⟨d, e', d', hpass, hd, hd'⟩ := ih h₁ hP
      exact ⟨d, e', d', hpass.append [e], hd, hd'⟩

/-- The invariant rule along one run: what holds at first and survives the steps of this run holds
in each of its states. -/
theorem Visits.induction {I : Config σ π → Prop} {c₀ : Config σ π} {es : List (Event α)}
    (h₀ : I c₀) (hstep : ∀ c e c', S.Passes c₀ es c e c' → I c → I c') {c : Config σ π}
    (h : S.Visits c₀ es c) : I c := by
  obtain ⟨es₁, es₂, rfl, h₁⟩ := h
  -- By induction on the part of the run up to the state, from its end.
  induction es₁ using List.reverseRecOn generalizing c es₂ with
  | nil =>
    obtain rfl : c₀ = c := Option.some.inj h₁
    exact h₀
  | append_singleton es₁ e ih =>
    obtain ⟨c₁, h₂, h₃⟩ := run_concat.1 h₁
    have hstep' : ∀ c e' c', S.Passes c₀ (es₁ ++ e :: es₂) c e' c' → I c → I c' := by
      simpa using hstep
    exact hstep c₁ e c ⟨es₁, es₂, by simp, h₂, h₃⟩ (ih (e :: es₂) h₂ hstep')

/-- The rule for a property that relates a state of the run to the steps taken so far: it holds of
the empty run, and each step extends it. -/
theorem run_induction {I : List (Event α) → Config σ π → Prop} {c₀ : Config σ π} (h₀ : I [] c₀)
    (hstep : ∀ es c e c', S.run c₀ es = some c → S.next c e = some c' → I es c → I (es ++ [e]) c')
    {es : List (Event α)} {c : Config σ π} (h : S.run c₀ es = some c) : I es c := by
  induction es using List.reverseRecOn generalizing c with
  | nil =>
    obtain rfl : c₀ = c := Option.some.inj h
    exact h₀
  | append_singleton es e ih =>
    obtain ⟨c₁, h₁, h₂⟩ := run_concat.1 h
    exact hstep es c₁ e c h₁ h₂ (ih h₁)

/-- The trace of a run and one more event. -/
theorem trace_concat {β : Type*} {obs : Config σ π → Event α → β} {c c' : Config σ π}
    {es : List (Event α)} (h : S.run c es = some c') (e : Event α) :
    S.trace obs c (es ++ [e]) = S.trace obs c es ++ [obs c' e] := by
  induction es generalizing c with
  | nil =>
    obtain rfl : c = c' := Option.some.inj h
    cases hn : S.next c e <;> simp [trace, hn]
  | cons e' es ih =>
    obtain ⟨c₁, h₁, h₂⟩ := run_cons.1 h
    simp [trace, h₁, ih h₂]

/-- What an observer records of a step of a run is in its trace. -/
theorem Passes.mem_trace {β : Type*} {obs : Config σ π → Event α → β} {c₀ c c' : Config σ π}
    {es : List (Event α)} {e : Event α} (h : S.Passes c₀ es c e c') :
    obs c e ∈ S.trace obs c₀ es := by
  obtain ⟨es₁, es₂, rfl, h₁, -⟩ := h
  induction es₁ generalizing c₀ with
  | nil =>
    obtain rfl : c₀ = c := Option.some.inj h₁
    exact List.mem_cons_self
  | cons e₁ es₁ ih =>
    obtain ⟨c₁, hn, h₁'⟩ := run_cons.1 h₁
    simp only [List.cons_append, trace, hn, Option.map_some, Option.getD_some]
    exact List.mem_cons_of_mem _ (ih h₁')

/-- A state that a run passes through is one of its states. -/
theorem Visits.mem_states {c₀ c : Config σ π} {es : List (Event α)} (h : S.Visits c₀ es c) :
    c ∈ S.states c₀ es := by
  obtain ⟨es₁, es₂, rfl, h₁⟩ := h
  induction es₁ generalizing c₀ with
  | nil =>
    obtain rfl : c₀ = c := Option.some.inj h₁
    cases es₂ <;> exact List.mem_cons_self
  | cons e₁ es₁ ih =>
    obtain ⟨c₁, hn, h₁'⟩ := run_cons.1 h₁
    simp only [List.cons_append, states, hn, Option.map_some, Option.getD_some]
    exact List.mem_cons_of_mem _ (ih h₁')

/-- The states of a run follow each other by its steps, so a relation that every step respects links
each of them to the next. -/
theorem isChain_states {R : Config σ π → Config σ π → Prop} {I : Config σ π → Prop}
    (hstep : ∀ c e c', I c → S.next c e = some c' → I c' ∧ R c c') {c : Config σ π} (hc : I c)
    (es : List (Event α)) : (S.states c es).IsChain R := by
  induction es generalizing c with
  | nil => exact List.isChain_singleton c
  | cons e es ih =>
    cases hn : S.next c e with
    | none => simp [states, hn]
    | some c' =>
      obtain ⟨hc', hR⟩ := hstep c e c' hc hn
      -- The states of the rest of the run begin with the state that the step leads to.
      have htail : (S.states c' es).head? = some c' := by cases es <;> rfl
      have hchain := ih hc'
      simp only [states, hn, Option.map_some, Option.getD_some]
      cases hs : S.states c' es with
      | nil => exact List.isChain_singleton c
      | cons x xs =>
        rw [hs] at htail hchain
        obtain rfl : x = c' := Option.some.inj htail
        exact List.isChain_cons_cons.2 ⟨hR, hchain⟩

end System

/-- The rely-guarantee rule for a system: an invariant of the shared state, an invariant of each
process, and for each process what the others may do to the shared state. -/
structure RelyGuarantee (S : System σ π α) where
  /-- The invariant of the shared state. -/
  shared : σ → Prop
  /-- The invariant of a process, about the shared state and its own local state. -/
  proc : ℕ → σ → π → Prop
  /-- What the steps of other processes may do to the shared state, as a process sees it. -/
  rely : ℕ → σ → σ → Prop
  /-- A step keeps the shared invariant and the invariant of its process, and is within what every
  other process relies on. -/
  own : ∀ {p a s l s' l'}, shared s → proc p s l → S.step p a s l = some (s', l') →
    shared s' ∧ proc p s' l' ∧ ∀ q, q ≠ p → rely q s s'
  /-- The invariant of a process survives what the others do. -/
  stable : ∀ {q s s' l}, shared s → shared s' → rely q s s' → proc q s l → proc q s' l

namespace RelyGuarantee

variable {S : System σ π α} (G : RelyGuarantee S)

/-- The invariant of a whole configuration. -/
def Holds (c : Config σ π) : Prop := G.shared c.shared ∧ ∀ p, G.proc p c.shared (c.procs p)

variable {G}

/-- The invariants survive every event. -/
theorem Holds.next {c c' : Config σ π} {e : Event α} (hc : G.Holds c)
    (h : S.next c e = some c') : G.Holds c' := by
  obtain ⟨s', l', hs, rfl⟩ := System.next_eq_some.1 h
  obtain ⟨hs', hl', hrely⟩ := G.own hc.1 (hc.2 e.pid) hs
  refine ⟨hs', fun q => ?_⟩
  by_cases hq : q = e.pid
  -- The process that moved keeps its invariant by its own step.
  · subst hq
    simpa using hl'
  -- Every other process keeps its invariant because the step is within its rely.
  · simpa [Function.update_of_ne hq] using G.stable hc.1 hs' (hrely q hq) (hc.2 q)

/-- The invariants hold after every run. -/
theorem Holds.run {c c' : Config σ π} {es : List (Event α)} (hc : G.Holds c)
    (h : S.run c es = some c') : G.Holds c' :=
  System.run_invariant (fun _ _ _ => Holds.next) h hc

/-- The invariant rule along one run, for a further property that rests on the invariants. -/
theorem Holds.visits_induction {J : Config σ π → Prop} {c₀ : Config σ π} {es : List (Event α)}
    (hc₀ : G.Holds c₀) (h₀ : J c₀)
    (hstep : ∀ c e c', S.Passes c₀ es c e c' → G.Holds c → J c → J c') {c : Config σ π}
    (h : S.Visits c₀ es c) : J c := by
  have hboth : G.Holds c ∧ J c := by
    refine System.Visits.induction (I := fun c => G.Holds c ∧ J c) ⟨hc₀, h₀⟩ ?_ h
    rintro c₁ e c₂ hpass ⟨hc₁, hJ⟩
    exact ⟨hc₁.next hpass.next, hstep c₁ e c₂ hpass hc₁ hJ⟩
  exact hboth.2

/-- The invariants hold in every state of a run. -/
theorem Holds.visits {c₀ c : Config σ π} {es : List (Event α)} (hc : G.Holds c₀)
    (h : S.Visits c₀ es c) : G.Holds c := by
  obtain ⟨es₁, -, -, h₁⟩ := h
  exact hc.run h₁

end RelyGuarantee

end Interleaving
