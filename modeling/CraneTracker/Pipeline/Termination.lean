import Mathlib.Data.Prod.Lex
import CraneTracker.Lib.Termination
import CraneTracker.Pipeline.Locking

/-!
# Every schedule ends

A request has no loop, and the loops of a worker go through the rows of one query and the jobs of one batch.
So each step of a request or of a run of a worker, also one that fails, brings its process nearer to its end
(`Proc.remaining_lt`), whatever the others have done in the meantime. As the pipeline does not deadlock, the
processes that are in progress get to their ends under every scheduler that lets one of them go on while one
can.
-/

namespace CraneTracker.Pipeline

open Interleaving

/-- How many steps an upload has left at most. -/
def Upload.remaining : Upload → ℕ
  | .lockCrane _ _ => 9
  | .count _ _ => 8
  | .insert _ _ => 7
  | .put _ => 6
  | .finalize _ => 5
  | .finalizeCommit _ => 4
  | .abandon _ _ => 3
  | .abandonFlush _ _ _ => 2
  | .abandonCommit _ _ _ => 1
  | .answered _ _ => 0
  | .stopped => 0

/-- How many steps an admin deletion has left at most. -/
def AdminDelete.remaining : AdminDelete → ℕ
  | .lock _ _ _ => 2
  | .commit _ _ => 1
  | .answered _ => 0
  | .stopped => 0

/-- How many steps a report has left at most. -/
def Report.remaining : Report → ℕ
  | .lock _ _ _ _ => 3
  | .insert _ _ _ => 2
  | .commit _ _ _ => 1
  | .answered _ => 0
  | .stopped => 0

/-- How far a worker has got: the query that it has yet to make, the rows that the query has yet to reach, and
then how many steps are left of the batch. -/
def Worker.remaining : Worker → ℕ ×ₗ ℕ
  | .idle => toLex (0, 0)
  | .claim _ => toLex (2, 0)
  | .claimScan _ next _ => toLex (1, next.length)
  | .batch rest => toLex (0, 6 * rest.length + 1)
  | .delete _ rest => toLex (0, 6 * rest.length + 6)
  | .deleted _ rest => toLex (0, 6 * rest.length + 5)
  | .deleteFailed _ _ rest => toLex (0, 6 * rest.length + 5)
  | .successFlush _ _ rest => toLex (0, 6 * rest.length + 4)
  | .failureFlush _ _ _ _ rest => toLex (0, 6 * rest.length + 4)
  | .successDelete _ _ rest => toLex (0, 6 * rest.length + 3)
  | .failureCommit _ _ _ _ rest => toLex (0, 6 * rest.length + 2)
  | .successCommit _ _ _ rest => toLex (0, 6 * rest.length + 2)
  | .reap _ => toLex (2, 0)
  | .reapScan _ next _ => toLex (1, next.length)

/-- How far a process has got. -/
def Proc.remaining : Proc → ℕ ×ₗ ℕ
  | .free => toLex (0, 0)
  | .upload u => toLex (0, u.remaining)
  | .adminDelete d => toLex (0, d.remaining)
  | .report r => toLex (0, r.remaining)
  | .worker w => w.remaining

/-- The step is one of the clock or the creation of a crane, which any process may make. -/
def Action.outside : Action → Bool
  | .tick _ => true
  | .createCrane _ => true
  | _ => false

/-- The process is in the middle of a request or of a run of the worker, and goes on with it. The step may
fail, and the process may stop. -/
def Proc.Works (l : Proc) (a : Action) : Prop := l.unfinished = true ∧ a.outside = false

section Step

variable {cfg : Settings} {p : ℕ} {db : Db}

/-- Each step of an upload brings it nearer to its end. -/
theorem Upload.remaining_lt {u : Upload} (hu : u.ended = false) {a : UploadAction} {o : Outcome Upload}
    (h : u.step p db a = some o) : o.proc.remaining < u.remaining := by
  cases Upload.step_cases h with
  | dbError u now upload hcase => rcases hcase with rfl | rfl | rfl <;> simp [Upload.remaining]
  | finalizeError u photo hcase => rcases hcase with rfl | rfl <;> simp [Upload.remaining]
  | abandonError u now photo answer hcase =>
    rcases hcase with rfl | rfl | rfl <;> simp [Upload.remaining]
  | stop u =>
    cases u with
    | answered | stopped => cases hu
    | lockCrane | count | insert | put | finalize | finalizeCommit | abandon | abandonFlush
    | abandonCommit => exact Nat.succ_pos _
  | lockCrane | missingCrane | full | count | insert | put | storageError | otherError | finalize | lost
  | finalizeCommit | abandonSelect | abandoned | abandonFlush | abandonRaised | abandonCommit =>
    simp [Upload.remaining]

/-- Each step of an admin deletion brings it nearer to its end. -/
theorem AdminDelete.remaining_lt {d : AdminDelete} (hd : (Proc.adminDelete d).unfinished = true)
    {a : AdminDeleteAction} {o : Outcome AdminDelete} (h : d.step p db a = some o) :
    o.proc.remaining < d.remaining := by
  cases AdminDelete.step_cases h with
  | lock | missing | commit => simp [AdminDelete.remaining]
  | dbError d | stop d =>
    cases d with
    | answered | stopped => cases hd
    | lock | commit => exact Nat.succ_pos _

/-- Each step of a report brings it nearer to its end. -/
theorem Report.remaining_lt {r : Report} (hr : (Proc.report r).unfinished = true) {a : ReportAction}
    {o : Outcome Report} (h : r.step p db a = some o) : o.proc.remaining < r.remaining := by
  cases Report.step_cases h with
  | missing | lock | duplicate | insert | commit => simp [Report.remaining]
  | dbError r | stop r =>
    cases r with
    | answered | stopped => cases hr
    | lock | insert | commit => exact Nat.succ_pos _

/-- A worker that is in the middle of a run has something left. -/
theorem Worker.remaining_pos {w : Worker} (hw : (Proc.worker w).unfinished = true) :
    Worker.idle.remaining < w.remaining := by
  cases w with
  | idle => cases hw
  | claim | claimScan | batch | delete | deleted | deleteFailed | successFlush | failureFlush
  | successDelete | failureCommit | successCommit | reap | reapScan =>
    simp [Worker.remaining, Prod.Lex.toLex_lt_toLex]

/-- Each step of a worker brings it nearer to the end of its run. -/
theorem Worker.remaining_lt {w : Worker} (hw : (Proc.worker w).unfinished = true) {a : WorkerAction}
    {o : Outcome Worker} (h : w.step cfg p db a = some o) : o.proc.remaining < w.remaining := by
  cases Worker.step_cases h with
  | beginClaim | beginReap => cases hw
  | endBatch | shutdown | reapCommit | queryError | stop => exact Worker.remaining_pos hw
  | statusError w rest hleft =>
    cases w with
    | idle | claim | claimScan | batch | delete | reap | reapScan => cases hleft
    | deleted | deleteFailed | successFlush | failureFlush | successDelete | failureCommit
    | successCommit =>
      obtain rfl := Option.some.inj hleft
      simp [Worker.remaining, Prod.Lex.toLex_lt_toLex]
  | nextJob job rest =>
    refine Prod.Lex.toLex_lt_toLex.2 (Or.inr ⟨rfl, ?_⟩)
    show 6 * rest.length + 6 < 6 * (rest.length + 1) + 1
    omega
  | selectJobs | takeJob | skipJob | claimCommit | delete | deleteError | successSelect | failureSelect
  | successMissing | failureMissing | successFlush | failureFlush | deletePhotos | successCommit
  | failureCommit | selectPhotos | takePhoto | skipPhoto =>
    simp [Worker.remaining, Prod.Lex.toLex_lt_toLex]

/-- Each step of a process that is in the middle of something brings it nearer to its end. -/
theorem Proc.remaining_lt {l : Proc} {a : Action} {o : Outcome Proc} (h : l.step cfg p db a = some o)
    (hwork : l.Works a) : o.proc.remaining < l.remaining := by
  obtain ⟨hbusy, hinside⟩ := hwork
  cases Proc.step_cases h with
  | tick | createCrane => cases hinside
  | refuseUpload | startUpload | startAdminDelete | startReport | startWorker => cases hbusy
  | upload u a o ho =>
    have hu : u.ended = false := by simpa [Proc.unfinished] using hbusy
    exact Prod.Lex.toLex_lt_toLex.2 (Or.inr ⟨rfl, Upload.remaining_lt hu ho⟩)
  | adminDelete d a o ho =>
    exact Prod.Lex.toLex_lt_toLex.2 (Or.inr ⟨rfl, AdminDelete.remaining_lt hbusy ho⟩)
  | report r a o ho =>
    exact Prod.Lex.toLex_lt_toLex.2 (Or.inr ⟨rfl, Report.remaining_lt hbusy ho⟩)
  | worker w a o ho => exact Worker.remaining_lt hbusy ho

end Step

section Schedule

variable {cfg : Settings} {c c' : State}

/-- Finitely many processes are in the middle of something. -/
theorem finite_unfinished (h : Reachable cfg c) : {p | (c.procs p).unfinished = true}.Finite := by
  obtain ⟨clock, cranes, es, hrun⟩ := h
  refine (es.map Event.pid).finite_toSet.subset fun p hp => ?_
  by_contra hno
  have hfree : c.procs p = .free := System.procs_run_of_not_mem hrun fun e he heq =>
    hno (List.mem_map.2 ⟨e, he, heq⟩)
  have hbusy : (c.procs p).unfinished = true := hp
  rw [hfree] at hbusy
  cases hbusy

/-- The work of a process brings it nearer to its end. -/
theorem remaining_step (p : ℕ) (a : Action) (db : Db) (l : Proc) (db' : Db) (l' : Proc)
    (hstep : (system cfg).step p a db l = some (db', l')) (hwork : l.Works a) :
    l'.remaining < l.remaining := by
  obtain ⟨o, ho, heq⟩ := Option.map_eq_some_iff.1 hstep
  obtain rfl : o.proc = l' := congrArg Prod.snd heq
  exact Proc.remaining_lt ho hwork

/-- What is done from a reachable state comes to an end. -/
theorem acc_works (h : Reachable cfg c) :
    Acc (fun c' c => (system cfg).Works Proc.Works c c') c := by
  have hbusy : ∀ l a, Proc.Works l a → l.unfinished = true := fun l a hwork => hwork.1
  exact System.acc_works hbusy remaining_step (finite_unfinished h) c fun p hp => hp

/-- A step of the clock or the creation of a crane leaves its process as it is. -/
theorem procs_next_of_outside {e : Event Action} (hn : (system cfg).next c e = some c')
    (ha : e.act.outside = true) : c'.procs e.pid = c.procs e.pid := by
  obtain ⟨o, ho, hproc, -⟩ := outcome_next hn
  rw [hproc]
  generalize e.act = a at ho ha
  generalize c.procs e.pid = l at ho ⊢
  cases Proc.step_cases ho with
  | tick | createCrane => rfl
  | refuseUpload | startUpload | startAdminDelete | startReport | startWorker => cases ha
  | upload | adminDelete | report | worker => cases ha

end Schedule

/-- Every schedule ends with everything done. From a reachable state, the requests and the workers that are
in progress do not go on forever, in whatever order their steps come, and whether they succeed or fail. One
of them alone does not either, also when new requests come without end. And where none of those that are
still in progress can go on, and there are ids left, none is: each request has been answered or has
stopped, each worker has finished its run, and no row is locked. -/
theorem schedules_end {cfg : Settings} {c : State} (h : Reachable cfg c) :
    (∀ f : ℕ → State, f 0 = c → ∃ n, ¬ (system cfg).Works Proc.Works (f n) (f (n + 1))) ∧
    (∀ (f : ℕ → State) (e : ℕ → Event Action) (p : ℕ), f 0 = c →
      (∀ n, (system cfg).next (f n) (e n) = some (f (n + 1))) →
      (∀ n, ((f n).procs p).unfinished = true) →
      ∃ n, ∀ m ≥ n, (e m).pid = p → (e m).act.outside = true) ∧
    ∀ c', Relation.ReflTransGen ((system cfg).Works Proc.Works) c c' → IdsLeft c'.shared.store →
      (∀ p, (c'.procs p).unfinished = true → ¬ CanStep cfg c' p) →
        (∀ p, (c'.procs p).unfinished = false) ∧ ∀ r, c'.shared.locks.holder r = none := by
  refine ⟨fun f hf => ?_, fun f e p hf hnext hbusy => ?_, fun c' hworks hids hstuck => ?_⟩
  · by_contra hno
    have hforever : ∀ n, (system cfg).Works Proc.Works (f n) (f (n + 1)) := fun n => by
      by_contra hn
      exact hno ⟨n, hn⟩
    exact not_acc_iff_exists_descending_chain.2 ⟨f, hf, hforever⟩ (acc_works h)
  · have hsteps : ∀ n, (e n).pid = p → Proc.Works ((f n).procs p) (e n).act ∨
        (f (n + 1)).procs p = (f n).procs p := by
      rintro n rfl
      cases hact : (e n).act.outside with
      | false => exact Or.inl ⟨hbusy n, hact⟩
      | true => exact Or.inr (procs_next_of_outside (hnext n) hact)
    obtain ⟨n, hn⟩ := System.exists_last_work remaining_step hnext hsteps
    refine ⟨n, fun m hm hpid => ?_⟩
    by_contra hact
    exact hn m hm hpid ⟨hbusy m, Bool.eq_false_of_not_eq_true hact⟩
  · obtain ⟨clock, cranes, es, hrun⟩ := h
    obtain ⟨es', hrun'⟩ := System.exists_run_of_works hworks
    have h' : Reachable cfg c' := ⟨clock, cranes, es ++ es', System.run_append.2 ⟨c, hrun, hrun'⟩⟩
    have hdone : ∀ p, (c'.procs p).unfinished = false := by
      intro p
      by_contra hbusy
      obtain ⟨q, -, hbusy', hcan⟩ := exists_canStep h' hids (Bool.eq_true_of_not_eq_false hbusy)
      exact hstuck q hbusy' hcan
    refine ⟨hdone, fun r => ?_⟩
    cases hholder : c'.shared.locks.holder r with
    | none => rfl
    | some p =>
      have hbusy := Proc.unfinished_of_held ((locked_iff h' p r).1 hholder)
      rw [hdone p] at hbusy
      cases hbusy

/-- An upload is about to publish its photo, another one has been accepted, and a worker has nothing to do.
-/
def busyEvents : List (Event Action) :=
  preuploadEvents 0 1 2 ++ [⟨0, .upload (.put .stored)⟩, ⟨0, .upload .finalize⟩,
    ⟨1, .startUpload (jpegRequest 1)⟩, ⟨2, .startWorker⟩]

/-- One of the two uploads commits, and the other fails. Then both have ended, no row is locked, and the
worker, which has finished its run, could begin another. -/
theorem schedules_end_uploads :
    ∃ c c', (system {}).run (initial 0 [1]) busyEvents = some c ∧ (c.procs 0).unfinished = true ∧
      (c.procs 1).unfinished = true ∧
      (∀ f : ℕ → State, f 0 = c → ∃ n, ¬ (system {}).Works Proc.Works (f n) (f (n + 1))) ∧
      Relation.ReflTransGen ((system {}).Works Proc.Works) c c' ∧ CanStep {} c' 2 ∧
      (∀ p, (c'.procs p).unfinished = false) ∧ ∀ r, c'.shared.locks.holder r = none := by
  have hbusy : ((system {}).run (initial 0 [1]) busyEvents).map
      (fun c => ((c.procs 0).unfinished, (c.procs 1).unfinished)) = some (true, true) := by
    decide +kernel
  have hend : ((system {}).run (initial 0 [1])
      (busyEvents ++ [⟨0, .upload .finalizeCommit⟩] ++ [⟨1, .upload .dbError⟩])).map
      (fun c => ((c.procs 0).unfinished, (c.procs 1).unfinished, (c.procs 2).unfinished,
        ((c.procs 2).step {} 2 c.shared (.worker .beginClaim)).isSome)) =
        some (false, false, false, true) := by
    decide +kernel
  have hstore : ((system {}).run (initial 0 [1])
      (busyEvents ++ [⟨0, .upload .finalizeCommit⟩] ++ [⟨1, .upload .dbError⟩])).map
      (fun c => (c.shared.store.issued 3, c.shared.store.photos.length, c.shared.store.jobs.length)) =
        some (none, 1, 0) := by
    decide +kernel
  obtain ⟨c', hc', heq⟩ := Option.map_eq_some_iff.1 hend
  rw [hc'] at hstore
  obtain ⟨hissued, hsizes⟩ := Prod.mk.inj (Option.some.inj hstore)
  obtain ⟨hphotos, hjobs⟩ := Prod.mk.inj hsizes
  simp only [Prod.mk.injEq] at heq
  obtain ⟨h₀, h₁, h₂, hidle⟩ := heq
  obtain ⟨c₁, hc₁, hfail⟩ := System.run_concat.1 hc'
  obtain ⟨c, hc, hcommit⟩ := System.run_concat.1 hc₁
  rw [hc] at hbusy
  obtain ⟨hbusy₀, hbusy₁⟩ := Prod.mk.inj (Option.some.inj hbusy)
  have hworks : Relation.ReflTransGen ((system {}).Works Proc.Works) c c' := by
    have hkeep : c₁.procs 1 = c.procs 1 := System.procs_next_of_ne hcommit (by decide)
    refine .head ⟨_, hcommit, hbusy₀, rfl⟩ (.single ⟨_, hfail, ?_, rfl⟩)
    show (c₁.procs 1).unfinished = true
    rw [hkeep]
    exact hbusy₁
  have hdone : ∀ p, (c'.procs p).unfinished = false := by
    intro p
    by_cases hp : p = 0 ∨ p = 1 ∨ p = 2
    · rcases hp with rfl | rfl | rfl
      · exact h₀
      · exact h₁
      · exact h₂
    · have hfree : c'.procs p = .free :=
        System.procs_run_of_not_mem hc' (by simp [busyEvents, preuploadEvents]; omega)
      rw [hfree]
      rfl
  obtain ⟨hends, -, hall⟩ := schedules_end ⟨0, [1], _, hc⟩
  have hids : IdsLeft c'.shared.store := .of_length hissued hphotos.le hjobs
  exact ⟨c, c', hc, hbusy₀, hbusy₁, hends, hworks, ⟨_, hidle, .inl rfl⟩,
    hall c' hworks hids fun p hp => absurd hp (by rw [hdone p]; exact Bool.false_ne_true)⟩

end CraneTracker.Pipeline
