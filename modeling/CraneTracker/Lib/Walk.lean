import Mathlib.Logic.Basic
import Mathlib.Data.List.Basic

/-!
# Walks along a chain

A `Chain` is a row of positions. A move goes up or down to the next position and changes a state on the
way, or fails. `run` is a walk: a list of moves.

`run_of_allowed` and `spoiled_of_not_allowed` say what a walk leaves, from what single moves do. Each
position has its state, `canon`. The moves that are allowed lead from the state of a position to that of
the next one, and so does a walk of such moves. A move that is not allowed spoils the state, and no move
repairs a spoiled state, so a walk with such a move ends spoiled, or fails.
-/

namespace Walk

/-- The two directions. -/
inductive Direction
  | up
  | down
deriving DecidableEq, Repr

/-- A chain: the neighbours of a position, and what a move from a position does to a state. -/
structure Chain (ρ σ : Type*) where
  /-- The next position in a direction; `none` at the end of the chain. -/
  next : Direction → ρ → Option ρ
  /-- What the move changes; `none` if it fails. -/
  change : Direction → ρ → σ → Option σ

namespace Chain

variable {ρ σ : Type*} (C : Chain ρ σ)

/-- Where a walk ends; `none` if it leaves the chain. -/
def reached : ρ → List Direction → Option ρ
  | r, [] => some r
  | r, d :: ds => (C.next d r).bind fun r' => reached r' ds

/-- The moves of a walk, each with the position from which it goes. -/
def moves : ρ → List Direction → List (Direction × ρ)
  | _, [] => []
  | r, d :: ds => (d, r) :: ((C.next d r).map fun r' => moves r' ds).getD []

/-- The state that a walk leaves; `none` if a move fails. -/
def run : ρ → σ → List Direction → Option σ
  | _, s, [] => some s
  | r, s, d :: ds => (C.next d r).bind fun r' => (C.change d r s).bind fun s' => run r' s' ds

variable {C} {r r' r₁ : ρ} {s s' : σ} {d : Direction} {ds : List Direction}

/-- A walk along the chain is its first move and a walk from there. -/
theorem reached_cons : C.reached r (d :: ds) = some r' ↔
    ∃ r₁, C.next d r = some r₁ ∧ C.reached r₁ ds = some r' := by
  rw [reached, Option.bind_eq_some_iff]

/-- The moves of such a walk. -/
theorem moves_cons (h : C.next d r = some r₁) :
    C.moves r (d :: ds) = (d, r) :: C.moves r₁ ds := by
  rw [moves, h, Option.map_some, Option.getD_some]

/-- What such a walk leaves. -/
theorem run_cons (h : C.next d r = some r₁) :
    C.run r s (d :: ds) = (C.change d r s).bind fun s₁ => C.run r₁ s₁ ds := by
  rw [run, h, Option.bind_some]

/-- A property that every move keeps is kept by a walk. -/
theorem run_invariant {I : ρ → σ → Prop}
    (hkeeps : ∀ {d r r' s s'}, I r s → C.next d r = some r' → C.change d r s = some s' → I r' s')
    (hs : I r s) (hr : C.reached r ds = some r') (h : C.run r s ds = some s') : I r' s' := by
  induction ds generalizing r s with
  | nil =>
    obtain rfl := Option.some.inj hr
    obtain rfl := Option.some.inj h
    exact hs
  | cons d ds ih =>
    obtain ⟨r₁, hnext, hr₁⟩ := reached_cons.1 hr
    rw [run_cons hnext] at h
    obtain ⟨s₁, hchange, hrun⟩ := Option.bind_eq_some_iff.1 h
    exact ih (hkeeps hs hnext hchange) hr₁ hrun

section Canon

variable {canon : ρ → σ} {Allowed : Direction → ρ → Prop}
  (hallowed : ∀ {d r r'}, C.next d r = some r' → Allowed d r →
    C.change d r (canon r) = some (canon r'))
include hallowed

/-- A walk of allowed moves leads from the state of its first position to that of its last. -/
theorem run_of_allowed (hr : C.reached r ds = some r')
    (h : ∀ m ∈ C.moves r ds, Allowed m.1 m.2) : C.run r (canon r) ds = some (canon r') := by
  induction ds generalizing r with
  | nil =>
    obtain rfl := Option.some.inj hr
    rfl
  | cons d ds ih =>
    obtain ⟨r₁, hnext, hr₁⟩ := reached_cons.1 hr
    rw [moves_cons hnext, List.forall_mem_cons] at h
    rw [run_cons hnext, hallowed hnext h.1, Option.bind_some]
    exact ih hr₁ h.2

/-- A walk with a move that is not allowed ends spoiled, if it does not fail. -/
theorem spoiled_of_not_allowed {Spoiled : ρ → σ → Prop}
    (hspoils : ∀ {d r r' s'}, C.next d r = some r' → ¬ Allowed d r →
      C.change d r (canon r) = some s' → Spoiled r' s')
    (hkeeps : ∀ {d r r' s s'}, Spoiled r s → C.next d r = some r' → C.change d r s = some s' →
      Spoiled r' s')
    (hr : C.reached r ds = some r') (h : ¬ ∀ m ∈ C.moves r ds, Allowed m.1 m.2)
    (hrun : C.run r (canon r) ds = some s') : Spoiled r' s' := by
  induction ds generalizing r with
  | nil => exact absurd nofun h
  | cons d ds ih =>
    obtain ⟨r₁, hnext, hr₁⟩ := reached_cons.1 hr
    rw [run_cons hnext] at hrun
    obtain ⟨s₁, hchange, hrun₁⟩ := Option.bind_eq_some_iff.1 hrun
    by_cases hd : Allowed d r
    · obtain rfl := Option.some.inj ((hallowed hnext hd).symm.trans hchange)
      rw [moves_cons hnext, List.forall_mem_cons] at h
      exact ih hr₁ (fun hds => h ⟨hd, hds⟩) hrun₁
    -- From the first such move on, the state stays spoiled.
    · exact run_invariant hkeeps (hspoils hnext hd hchange) hr₁ hrun₁

end Canon

end Chain

end Walk
