import CraneTracker.Lib.Interleaving

/-!
# Linearization

A `Machine` makes labelled steps, one after the other. It says what a system of interleaved processes is
meant to do, as if nobody interfered. To show that a system does no more, name the machine's state that a
configuration stands for, and the labels that each event contributes: none for an event that the machine
does not see, and several for one that does several things at once. When each event is a run of the machine
over its labels, so is every run of the system over the labels of its events, in their order
(`System.linearized`). The label of an operation then comes between the first and the last event of its
process, so the order of the labels is one in which the operations could have happened.
-/

namespace Interleaving

/-- An abstract machine, by what a step with a label may do. -/
abbrev Machine (S L : Type*) := S → L → S → Prop

variable {S L σ π α : Type*}

/-- A run of a machine over a list of labels. -/
inductive Machine.Run (M : Machine S L) : S → List L → S → Prop
  | nil (s : S) : Run M s [] s
  | cons {s s₁ s' : S} {l : L} {ls : List L} (hstep : M s l s₁) (hrun : Run M s₁ ls s') :
      Run M s (l :: ls) s'

namespace Machine

variable {M : Machine S L} {s s₁ s' : S} {l : L} {ls ls' : List L}

/-- A run of one step. -/
theorem Run.single (h : M s l s') : Run M s [l] s' := .cons h (.nil s')

/-- Two runs in sequence. -/
theorem Run.append (h : Run M s ls s₁) (h' : Run M s₁ ls' s') : Run M s (ls ++ ls') s' := by
  induction h with
  | nil => exact h'
  | cons hstep _ ih => exact .cons hstep (ih h')

/-- The machine with labels that also name a process. -/
def tagged (M : Machine S L) : Machine S (ℕ × L) := fun s l s' => M s l.2 s'

/-- A run of one process. -/
theorem Run.tag (p : ℕ) (h : M.Run s ls s') : M.tagged.Run s (ls.map fun l => (p, l)) s' := by
  induction h with
  | nil => exact .nil _
  | cons hstep _ ih =>
    refine .cons ?_ ih
    exact hstep

/-- A run of several processes, without their names. -/
theorem Run.untag {ls : List (ℕ × L)} (h : M.tagged.Run s ls s') : M.Run s (ls.map Prod.snd) s' := by
  induction h with
  | nil => exact .nil _
  | cons hstep _ ih => exact .cons hstep ih

end Machine

namespace System

variable {Sys : System σ π α} {M : Machine S L} {labels : Config σ π → Event α → List L}
  {c₀ c c' : Config σ π} {es es' : List (Event α)}

/-- The labels of the events of a run, in order. -/
def history (Sys : System σ π α) (labels : Config σ π → Event α → List L) (c₀ : Config σ π)
    (es : List (Event α)) : List L :=
  (Sys.trace labels c₀ es).flatten

/-- The labels of a run and one more event. -/
theorem history_concat (h : Sys.run c₀ es = some c) (e : Event α) :
    Sys.history labels c₀ (es ++ [e]) = Sys.history labels c₀ es ++ labels c e := by
  unfold history
  rw [trace_concat h, List.flatten_append, List.flatten_singleton]

/-- The labels of two runs in sequence. -/
theorem history_append (h : Sys.run c₀ es = some c) :
    Sys.history labels c₀ (es ++ es') = Sys.history labels c₀ es ++ Sys.history labels c es' := by
  induction es generalizing c₀ with
  | nil =>
    obtain rfl : c₀ = c := Option.some.inj h
    rfl
  | cons e es ih =>
    obtain ⟨c₁, h₁, h₂⟩ := run_cons.1 h
    have hcons : ∀ fs, Sys.history labels c₀ (e :: fs) = labels c₀ e ++ Sys.history labels c₁ fs := by
      intro fs
      unfold history
      rw [trace, h₁, Option.map_some, Option.getD_some, List.flatten_cons]
    rw [List.cons_append, hcons, hcons, ih h₂, List.append_assoc]

/-- A system whose events are runs of a machine over their labels makes only runs of the machine. -/
theorem linearized (abs : Config σ π → S)
    (hstep : ∀ es c e c', Sys.run c₀ es = some c → Sys.next c e = some c' →
      M.Run (abs c) (labels c e) (abs c'))
    (h : Sys.run c₀ es = some c) : M.Run (abs c₀) (Sys.history labels c₀ es) (abs c) := by
  refine run_induction (I := fun es c => M.Run (abs c₀) (Sys.history labels c₀ es) (abs c))
    (.nil _) (fun es c e c' hrun hnext ih => ?_) h
  rw [history_concat hrun]
  exact ih.append (hstep es c e c' hrun hnext)

end System

end Interleaving
