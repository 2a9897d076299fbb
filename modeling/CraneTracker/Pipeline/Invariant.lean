import CraneTracker.Pipeline.Requests
import CraneTracker.Pipeline.Workers

/-!
# The invariants of the pipeline

The parties put together. `pipeline` is an instance of the rely-guarantee rule: each step of a process
is sound (`Proc.step_sound`), and what each process knows survives the steps of the others
(`Proc.Inv.stable`). So the committed state is consistent in every reachable state
(`Reachable.consistent`), and every event of a run applies a write that has passed its guards
(`guarded_writeOf`).
-/

namespace CraneTracker.Pipeline

open Interleaving Table

/-- What a process knows between its steps. -/
def Proc.Inv (p : ℕ) (db : Db) : Proc → Prop
  | .free => True
  | .upload u => u.Inv p db
  | .adminDelete d => d.Inv p db
  | .report r => r.Inv p db
  | .worker w => w.Inv p db

section Pipeline

variable {cfg : Settings} {p q : ℕ} {db db' : Db}

/-- A sound outcome stays sound as the outcome of the process. -/
theorem Outcome.Sound.map {π : Type} {inv : Db → π → Prop} {o : Outcome π} {f : π → Proc}
    (ho : o.Sound cfg p db inv) (hf : ∀ db l, inv db l → (f l).Inv p db) :
    (o.map f).Sound cfg p db (Proc.Inv p) :=
  ⟨ho.guarded, ho.keeps, hf _ _ ho.inv⟩

/-- What a process knows survives what the others do. -/
theorem Proc.Inv.stable (hs : db.store.Consistent) (hs' : db'.store.Consistent)
    (hr : Rely q db db') {l : Proc} (h : l.Inv q db) : l.Inv q db' := by
  cases l with
  | free => trivial
  | upload => exact Upload.Inv.stable hs hr h
  | adminDelete => exact AdminDelete.Inv.stable hr h
  | report => exact Report.Inv.stable hr h
  | worker => exact Worker.Inv.stable hs hs' hr h

/-- A write that another process could have made as well is sound, with no step of the process. -/
theorem Outcome.Sound.environment (hs : db.store.Consistent) {l : Proc} (hl : l.Inv p db)
    {w : Write} (hw : w.Guarded p db) (hw' : w.Guarded (p + 1) db)
    (happly : db.store.apply cfg (p + 1) w = db.store.apply cfg p w) :
    Outcome.Sound cfg p db (Proc.Inv p) ⟨w, db.locks, l⟩ := by
  have hne : p ≠ p + 1 := (Nat.succ_ne_self p).symm
  have hrely : Rely p db ⟨db.store.apply cfg (p + 1) w, db.locks⟩ := hw'.rely hs hne (.refl p _)
  refine ⟨hw, fun q _ => .refl q _, ?_⟩
  rw [← happly]
  exact hl.stable hs (hs.apply hw') hrely

/-- Each step of a process is sound. -/
theorem Proc.step_sound (cfg : Settings) (hs : db.store.Consistent) {l : Proc} (hl : l.Inv p db)
    {a : Action} {o : Outcome Proc} (h : l.step cfg p db a = some o) :
    o.Sound cfg p db (Proc.Inv p) := by
  cases Proc.step_cases h with
  | tick _ now hnow => exact .environment hs hl hnow hnow rfl
  | createCrane _ id => exact .environment hs hl trivial trivial rfl
  | refuseUpload | startUpload | startAdminDelete | startReport | startWorker => exact .pass trivial
  | upload u a o ho => exact (Upload.step_sound cfg hs hl ho).map fun _ _ h => h
  | adminDelete d a o ho => exact (AdminDelete.step_sound cfg hl ho).map fun _ _ h => h
  | report r a o ho => exact (Report.step_sound cfg hl ho).map fun _ _ h => h
  | worker w a o ho => exact (Worker.step_sound cfg hs hl ho).map fun _ _ h => h

/-- The pipeline, as an instance of the rely-guarantee rule. -/
def pipeline (cfg : Settings) : RelyGuarantee (system cfg) where
  shared db := db.store.Consistent
  proc := Proc.Inv
  rely := Rely
  own := by
    intro p a db l db' l' hs hl h
    obtain ⟨o, ho, heq⟩ := Option.map_eq_some_iff.1 h
    obtain ⟨rfl, rfl⟩ := Prod.mk.inj heq
    have hsound := Proc.step_sound cfg hs hl ho
    exact ⟨hs.apply hsound.guarded, hsound.inv,
      fun q hq => hsound.guarded.rely hs hq (hsound.keeps q hq)⟩
  stable hs hs' hr h := h.stable hs hs' hr

/-- The invariants hold before the first request. -/
theorem holds_initial (cfg : Settings) (clock : Timestamp) (cranes : List Uuid) :
    (pipeline cfg).Holds (initial clock cranes) := by
  refine ⟨?_, fun _ => trivial⟩
  constructor
  · exact List.nodup_nil
  · exact List.nodup_nil
  · intro i photo h
    cases h
  · intro j job h
    cases h
  · intro j job i photo h
    cases h
  · intro i photo h
    cases h
  · intro i photo h
    cases h
  · intro crane_id
    exact Nat.zero_le _

/-- The invariants hold in every reachable state. -/
theorem Reachable.holds {c : State} (h : Reachable cfg c) : (pipeline cfg).Holds c := by
  obtain ⟨clock, cranes, es, h⟩ := h
  exact (holds_initial cfg clock cranes).run h

/-- Every reachable committed state is consistent. -/
theorem Reachable.consistent {c : State} (h : Reachable cfg c) : c.shared.store.Consistent :=
  h.holds.1

/-- An event applies a guarded write. -/
theorem guarded_writeOf {c c' : State} {e : Event Action} (hc : (pipeline cfg).Holds c)
    (h : (system cfg).next c e = some c') : (writeOf cfg c e).Guarded e.pid c.shared := by
  obtain ⟨o, ho, -⟩ := next_eq_some.1 h
  rw [writeOf, ho]
  exact (Proc.step_sound cfg hc.1 (hc.2 e.pid) ho).guarded

end Pipeline

end CraneTracker.Pipeline
