import Mathlib.Data.DFinsupp.WellFounded
import CraneTracker.Lib.Interleaving

/-!
# Termination

A process of an interleaved system works when it goes on with what it has begun. When a piece of work
lowers the rank of its process, and the ranks are well founded, then finitely many processes cannot work
forever, in whatever order they do (`System.acc_works`): the others leave the local state of a process, and
so its rank, as it is. For the same reason one process cannot work forever, whatever the others do and
however many there are (`System.exists_last_work`).
-/

namespace Interleaving

variable {σ π α β : Type*}

namespace System

/-- The state changes by the work of a process. -/
def Works (S : System σ π α) (work : π → α → Prop) (c c' : Config σ π) : Prop :=
  ∃ e, S.next c e = some c' ∧ work (c.procs e.pid) e.act

variable {S : System σ π α} {work : π → α → Prop} {busy : π → Prop}

/-- A chain of work is a run. -/
theorem exists_run_of_works {c c' : Config σ π} (h : Relation.ReflTransGen (S.Works work) c c') :
    ∃ es, S.run c es = some c' := by
  induction h with
  | refl => exact ⟨[], run_nil c⟩
  | tail _ hwork ih =>
    obtain ⟨es, hrun⟩ := ih
    obtain ⟨e, hnext, -⟩ := hwork
    exact ⟨es ++ [e], run_concat.2 ⟨_, hrun, hnext⟩⟩

section Rank

variable [Preorder β] {rank : π → β}

/-- An event that is work lowers the rank of its process. -/
theorem rank_next_lt
    (hrank : ∀ p a s l s' l', S.step p a s l = some (s', l') → work l a → rank l' < rank l)
    {c c' : Config σ π} {e : Event α} (hnext : S.next c e = some c')
    (hwork : work (c.procs e.pid) e.act) : rank (c'.procs e.pid) < rank (c.procs e.pid) := by
  obtain ⟨s', l', hstep, rfl⟩ := next_eq_some.1 hnext
  show rank (Function.update c.procs e.pid l' e.pid) < rank (c.procs e.pid)
  rw [Function.update_self]
  exact hrank _ _ _ _ _ _ hstep hwork

variable [WellFoundedLT β]

/-- The work of finitely many processes comes to an end. -/
theorem acc_works (hbusy : ∀ l a, work l a → busy l)
    (hrank : ∀ p a s l s' l', S.step p a s l = some (s', l') → work l a → rank l' < rank l)
    {ps : Set ℕ} (hps : ps.Finite) (c : Config σ π) (hc : ∀ p, busy (c.procs p) → p ∈ ps) :
    Acc (fun c' c => S.Works work c c') c := by
  have hfinite : Finite ps := hps
  -- By induction on the ranks of the processes that may work.
  generalize hm : (fun p : ps => rank (c.procs p)) = m
  induction m using WellFoundedLT.induction generalizing c with
  | ind m ih =>
    refine Acc.intro c fun c' ⟨e, hnext, hwork⟩ => ?_
    have hmem : e.pid ∈ ps := hc e.pid (hbusy _ _ hwork)
    have hself := rank_next_lt hrank hnext hwork
    refine ih _ ?_ _ (fun p hp => ?_) rfl
    · rw [← hm, Pi.lt_def]
      refine ⟨fun p => ?_, ⟨e.pid, hmem⟩, hself⟩
      show rank (c'.procs p) ≤ rank (c.procs p)
      by_cases hp : (p : ℕ) = e.pid
      · rw [hp]
        exact hself.le
      · rw [procs_next_of_ne hnext hp]
    · by_cases hpid : p = e.pid
      · rw [hpid]
        exact hmem
      · refine hc p ?_
        rwa [procs_next_of_ne hnext hpid] at hp

/-- In a run without end, a process that does nothing but work, or stays as it is, works finitely often. -/
theorem exists_last_work
    (hrank : ∀ p a s l s' l', S.step p a s l = some (s', l') → work l a → rank l' < rank l)
    {f : ℕ → Config σ π} {e : ℕ → Event α} (hf : ∀ n, S.next (f n) (e n) = some (f (n + 1))) {p : ℕ}
    (hp : ∀ n, (e n).pid = p → work ((f n).procs p) (e n).act ∨ (f (n + 1)).procs p = (f n).procs p) :
    ∃ n, ∀ m ≥ n, (e m).pid = p → ¬ work ((f m).procs p) (e m).act := by
  have hlower : ∀ n, (e n).pid = p → work ((f n).procs p) (e n).act →
      rank ((f (n + 1)).procs p) < rank ((f n).procs p) := by
    rintro n rfl hwork
    exact rank_next_lt hrank (hf n) hwork
  have hanti : Antitone fun n => rank ((f n).procs p) := by
    refine antitone_nat_of_succ_le fun n => ?_
    by_cases hpid : (e n).pid = p
    · rcases hp n hpid with hwork | hkeep
      · exact (hlower n hpid hwork).le
      · rw [hkeep]
    · rw [procs_next_of_ne (hf n) (Ne.symm hpid)]
  obtain ⟨-, ⟨n, rfl⟩, hmin⟩ := wellFounded_lt.has_min (Set.range fun n => rank ((f n).procs p))
    ⟨_, 0, rfl⟩
  refine ⟨n, fun m hm hpid hwork => ?_⟩
  exact hmin _ ⟨m + 1, rfl⟩ ((hlower m hpid hwork).trans_le (hanti hm))

end Rank

end System

end Interleaving
