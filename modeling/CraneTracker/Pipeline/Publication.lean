import CraneTracker.Pipeline.Answers

/-!
# How published photos come and go

An admin deletion that answers `204` has committed, for the crane and the photo that it was started for,
and the photo was published until then (`Deleted`). A published photo goes away in no other way
(`deleted_of_active`), it does not come back (`gone_run`), and so no two deletions of one photo are both
answered `204` (`deleted_unique`). A photo comes by the finalization of its upload (`finalized_of_active`),
and while it is there its row does not change (`eq_of_active`).
-/

namespace CraneTracker.Pipeline

open Interleaving Table

/-- The crane and the photo of an admin deletion, until it ends. -/
def AdminDelete.target : AdminDelete → Option (Uuid × Uuid)
  | .lock _ crane_id photo_id => some (crane_id, photo_id)
  | .commit _ photo => some (photo.crane_id, photo.id)
  | _ => none

/-- The crane and the photo that a process is to delete. -/
def Proc.target : Proc → Option (Uuid × Uuid)
  | .adminDelete d => d.target
  | _ => none

/-- In the run `es` from `c₀`, the process `p` has deleted the photo `i` of the crane `crane_id`, which
was published until its commit. -/
def Deleted (cfg : Settings) (c₀ : State) (es : List (Event Action)) (p : ℕ) (crane_id i : Uuid) :
    Prop :=
  ∃ c c' job_id now photo, (system cfg).Passes c₀ es c ⟨p, .adminDelete (.commit job_id)⟩ c' ∧
    c.procs p = .adminDelete (.commit now photo) ∧ photo.crane_id = crane_id ∧ photo.id = i ∧
    c.shared.store.stage i = .active ∧ c'.shared.store.stage i = .pendingDelete

/-- The photo has been marked for deletion, or removed. -/
def Stage.Gone (stage : Stage) : Prop := stage = .pendingDelete ∨ stage = .removed

section Step

variable {cfg : Settings} {p : ℕ} {db : Db}

/-- A deletion keeps its target. -/
theorem AdminDelete.target_step {d : AdminDelete} {a : AdminDeleteAction} {o : Outcome AdminDelete}
    (h : d.step p db a = some o) {x : Uuid × Uuid} (ho : o.proc.target = some x) :
    d.target = some x := by
  cases AdminDelete.step_cases h with
  | lock now photo_id photo hrow =>
    obtain rfl : photo.id = photo_id := key_of_row hrow
    exact ho
  | missing | commit | dbError | stop => cases ho

/-- A process has a target by the start of a deletion of it. -/
theorem Proc.target_step {l : Proc} {a : Action} {o : Outcome Proc}
    (h : l.step cfg p db a = some o) {x : Uuid × Uuid} (ho : o.proc.target = some x) :
    l.target = some x ∨ a = .startAdminDelete x.1 x.2 := by
  cases Proc.step_cases h with
  | tick => exact Or.inl ho
  | createCrane => exact Or.inl ho
  | startAdminDelete crane_id photo_id =>
    obtain rfl : (crane_id, photo_id) = x := Option.some.inj ho
    exact Or.inr rfl
  | adminDelete d a o ho' => exact Or.inl (AdminDelete.target_step ho' ho)
  | refuseUpload | startUpload | startReport | startWorker | upload | report | worker => cases ho

/-- A deletion answers `204` by its commit, and by nothing else. -/
theorem AdminDelete.noContent_step {d : AdminDelete} {a : AdminDeleteAction}
    {o : Outcome AdminDelete} (h : d.step p db a = some o) (ho : o.proc = .answered (.ok 204)) :
    ∃ now photo job_id, d = .commit now photo ∧ a = .commit job_id := by
  cases AdminDelete.step_cases h with
  | commit now photo job_id => exact ⟨now, photo, job_id, rfl, rfl⟩
  | lock | missing | dbError | stop => cases ho

/-- A process answers `204` to a deletion by its commit, and by nothing else. -/
theorem Proc.noContent_step {l : Proc} {a : Action} {o : Outcome Proc}
    (h : l.step cfg p db a = some o) (ho : o.proc = .adminDelete (.answered (.ok 204))) :
    l = .adminDelete (.answered (.ok 204)) ∨ ∃ now photo job_id,
      l = .adminDelete (.commit now photo) ∧ a = .adminDelete (.commit job_id) := by
  cases Proc.step_cases h with
  | tick => exact Or.inl ho
  | createCrane => exact Or.inl ho
  | adminDelete d a o ho' =>
    obtain ⟨now, photo, job_id, rfl, rfl⟩ := AdminDelete.noContent_step ho' (Proc.adminDelete.inj ho)
    exact Or.inr ⟨now, photo, job_id, rfl, rfl⟩
  | refuseUpload | startUpload | startAdminDelete | startReport | startWorker | upload | report
  | worker => cases ho

/-- A process that commits a deletion has a photo to delete. -/
theorem Proc.commit_of_step {l : Proc} {job_id : Uuid} {o : Outcome Proc}
    (h : l.step cfg p db (.adminDelete (.commit job_id)) = some o) :
    ∃ now photo, l = .adminDelete (.commit now photo) := by
  cases l with
  | adminDelete d =>
    cases d with
    | commit now photo => exact ⟨now, photo, rfl⟩
    | lock | answered | stopped => cases h
  | free | upload | report | worker => cases h

/-- What the commit of a deletion writes, and its answer. -/
theorem Proc.outcome_commit {now : Timestamp} {photo : CranePhoto} {job_id : Uuid} {o : Outcome Proc}
    (h : (Proc.adminDelete (.commit now photo)).step cfg p db (.adminDelete (.commit job_id)) = some o) :
    o.write = .createDeleteCraneJobs .deleteCranePhoto now [(photo, job_id)] ∧
      o.proc = .adminDelete (.answered (.ok 204)) := by
  obtain ⟨o', ho', rfl⟩ := Option.map_eq_some_iff.1 h
  simp only [AdminDelete.step, Option.ite_none_right_eq_some] at ho'
  obtain ⟨-, ho'⟩ := ho'
  obtain rfl := Option.some.inj ho'
  exact ⟨rfl, rfl⟩

/-- A deletion that has ended does not move. -/
theorem AdminDelete.step_answered (answer : Answer) (a : AdminDeleteAction) :
    AdminDelete.step p db (.answered answer) a = none := by
  cases a <;> rfl

end Step

/-- A photo whose row is published is published. -/
theorem Store.stage_of_active {s : Store} {i : Uuid} {photo : CranePhoto}
    (h : s.photo i = some photo) (hactive : photo.status = .active) : s.stage i = .active := by
  rw [Store.stage_of_row h, hactive]
  rfl

section Next

variable {cfg : Settings} {c c' : State} {e : Event Action} {i : Uuid} {p : ℕ}

/-- A photo that is gone stays so. -/
theorem gone_next (hc : (pipeline cfg).Holds c) (h : (system cfg).next c e = some c')
    (hi : (c.shared.store.stage i).Gone) : (c'.shared.store.stage i).Gone := by
  rcases stage_step hc h i with hsame | hstep
  · rwa [← hsame]
  · generalize c.shared.store.stage i = x at hi hstep
    generalize c'.shared.store.stage i = y at hstep ⊢
    cases hstep with
    | remove => exact Or.inr rfl
    | abandon => exact Or.inl rfl
    | delete => exact Or.inl rfl
    | preupload => rcases hi with hi | hi <;> cases hi
    | finalize => rcases hi with hi | hi <;> cases hi

/-- A photo that is gone stays so over a run. -/
theorem gone_run (hc : (pipeline cfg).Holds c) {es : List (Event Action)}
    (h : (system cfg).run c es = some c') (hi : (c.shared.store.stage i).Gone) :
    (c'.shared.store.stage i).Gone := by
  have hboth : (pipeline cfg).Holds c' ∧ (c'.shared.store.stage i).Gone := by
    refine System.run_invariant
      (I := fun c => (pipeline cfg).Holds c ∧ (c.shared.store.stage i).Gone) ?_ h ⟨hc, hi⟩
    rintro c e c' ⟨hc, hi⟩ h
    exact ⟨hc.next h, gone_next hc h hi⟩
  exact hboth.2

/-- A photo that is gone is not published. -/
theorem Stage.Gone.ne_active {stage : Stage} (h : stage.Gone) : stage ≠ .active := by
  rcases h with rfl | rfl <;> simp

/-- The commit of a deletion takes its photo, which was published, out of the published ones. -/
theorem stage_commit (hc : (pipeline cfg).Holds c) {now : Timestamp} {photo : CranePhoto}
    {job_id : Uuid} (hp : c.procs p = .adminDelete (.commit now photo))
    (h : (system cfg).next c ⟨p, .adminDelete (.commit job_id)⟩ = some c') :
    c.shared.store.stage photo.id = .active ∧ c'.shared.store.stage photo.id = .pendingDelete := by
  have hinv := hc.2 p
  rw [hp] at hinv
  obtain ⟨-, hrow, hstatus⟩ := hinv
  obtain ⟨o, ho, -, hshared⟩ := outcome_next h
  rw [hp] at ho
  have hrow' : c'.shared.store.photo photo.id = some (markPendingDelete photo) := by
    rw [hshared, (Proc.outcome_commit ho).1, Store.photo_createDeleteCraneJobs, hrow,
      Option.map_some, if_pos (by simp)]
  rw [Store.stage_of_row hrow, Store.stage_of_row hrow', hstatus]
  exact ⟨rfl, rfl⟩

/-- A published photo is taken away by the commit of a deletion of it. -/
theorem commit_of_active_next (hc : (pipeline cfg).Holds c) (h : (system cfg).next c e = some c')
    {photo : CranePhoto} (hrow : c.shared.store.photo i = some photo) (hold : photo.status = .active)
    (hnew : c'.shared.store.stage i ≠ .active) :
    ∃ now job_id, c.procs e.pid = .adminDelete (.commit now photo) ∧
      e.act = .adminDelete (.commit job_id) := by
  obtain ⟨job_id, hact⟩ := author_of_delete hc h (Store.stage_of_active hrow hold) hnew
  obtain ⟨now, photo', hproc⟩ : ∃ now photo', c.procs e.pid = .adminDelete (.commit now photo') := by
    obtain ⟨o, ho, -⟩ := outcome_next h
    rw [hact] at ho
    exact Proc.commit_of_step ho
  have hinv := hc.2 e.pid
  rw [hproc] at hinv
  obtain ⟨-, hrow', -⟩ := hinv
  -- The write marks the photo of the deletion, and no other.
  by_cases hid : photo'.id = i
  · obtain rfl : photo' = photo := by
      rw [hid, hrow] at hrow'
      exact (Option.some.inj hrow').symm
    exact ⟨now, job_id, hproc, hact⟩
  · obtain ⟨o, ho, -, hshared⟩ := outcome_next h
    rw [hproc, hact] at ho
    have hne : photo.id ≠ photo'.id := fun heq => hid (heq.symm.trans (key_of_row hrow))
    have hsame : c'.shared.store.photo i = some photo := by
      rw [hshared, (Proc.outcome_commit ho).1, Store.photo_createDeleteCraneJobs, hrow,
        Option.map_some, if_neg (by simpa using hne)]
    exact absurd (Store.stage_of_active hsame hold) hnew

end Next

section Run

variable {cfg : Settings} {c₀ c : State} {es : List (Event Action)} {p q : ℕ} {i crane_id : Uuid}

/-- What has been deleted in a run has been deleted in its continuations. -/
theorem Deleted.append (h : Deleted cfg c₀ es p crane_id i) (es' : List (Event Action)) :
    Deleted cfg c₀ (es ++ es') p crane_id i := by
  obtain ⟨c, c', job_id, now, photo, hpass, hrest⟩ := h
  exact ⟨c, c', job_id, now, photo, hpass.append es', hrest⟩

/-- What has been deleted in the end of a run has been deleted in the run. -/
theorem Deleted.of_append {es' : List (Event Action)} (h : Deleted cfg c es' p crane_id i)
    (hrun : (system cfg).run c₀ es = some c) : Deleted cfg c₀ (es ++ es') p crane_id i := by
  obtain ⟨d, d', job_id, now, photo, hpass, hrest⟩ := h
  exact ⟨d, d', job_id, now, photo, hpass.of_append hrun, hrest⟩

/-- A process has its target from an event that started the deletion. -/
theorem started_of_target (hinit : ∀ p, c₀.procs p = .free) (h : (system cfg).run c₀ es = some c) :
    ∀ p x, (c.procs p).target = some x → ⟨p, .startAdminDelete x.1 x.2⟩ ∈ es := by
  refine System.run_induction (I := fun es c => ∀ p x, (c.procs p).target = some x →
    ⟨p, .startAdminDelete x.1 x.2⟩ ∈ es) ?_ ?_ h
  · intro p x htarget
    rw [hinit p] at htarget
    cases htarget
  · rintro es c ⟨q, a⟩ c' hrun hnext ih p x htarget
    rw [List.mem_append]
    by_cases hp : p = q
    · subst hp
      obtain ⟨o, ho, hproc, -⟩ := outcome_next hnext
      rw [hproc] at htarget
      rcases Proc.target_step ho htarget with hold | rfl
      · exact Or.inl (ih _ x hold)
      · exact Or.inr (List.mem_singleton_self _)
    · rw [System.procs_next_of_ne hnext hp] at htarget
      exact Or.inl (ih p x htarget)

/-- The deletion of a photo was started for it. -/
theorem Deleted.started (hinit : ∀ p, c₀.procs p = .free) (h : Deleted cfg c₀ es p crane_id i) :
    ⟨p, .startAdminDelete crane_id i⟩ ∈ es := by
  obtain ⟨c, c', job_id, now, photo, ⟨es₁, es₂, rfl, hrun, -⟩, hproc, rfl, rfl, -⟩ := h
  have htarget : (c.procs p).target = some (photo.crane_id, photo.id) := by
    rw [hproc]
    rfl
  exact List.mem_append_left _ (started_of_target hinit hrun p _ htarget)

/-- A deletion that has answered `204` has deleted a photo. -/
theorem deleted_of_noContent (hc₀ : (pipeline cfg).Holds c₀) (hinit : ∀ p, c₀.procs p = .free)
    (h : (system cfg).run c₀ es = some c) :
    ∀ p, c.procs p = .adminDelete (.answered (.ok 204)) →
      ∃ crane_id i, Deleted cfg c₀ es p crane_id i := by
  refine System.run_induction (I := fun es c => ∀ p,
    c.procs p = .adminDelete (.answered (.ok 204)) →
      ∃ crane_id i, Deleted cfg c₀ es p crane_id i) ?_ ?_ h
  · intro p hp
    rw [hinit p] at hp
    cases hp
  · rintro es c ⟨q, a⟩ c' hrun hnext ih p hp
    by_cases hpq : p = q
    · subst hpq
      obtain ⟨o, ho, hproc, -⟩ := outcome_next hnext
      rcases Proc.noContent_step ho (hproc.symm.trans hp) with hold | ⟨now, photo, job_id, hold, hact⟩
      · obtain ⟨crane_id, i, hdel⟩ := ih p hold
        exact ⟨crane_id, i, hdel.append _⟩
      · obtain rfl : a = .adminDelete (.commit job_id) := hact
        obtain ⟨hactive, hmarked⟩ := stage_commit (hc₀.run hrun) hold hnext
        exact ⟨photo.crane_id, photo.id, c, c', job_id, now, photo, .last hrun hnext, hold, rfl, rfl,
          hactive, hmarked⟩
    · obtain ⟨crane_id, i, hdel⟩ := ih p ((System.procs_next_of_ne hnext hpq).symm.trans hp)
      exact ⟨crane_id, i, hdel.append _⟩

/-- A deletion that has answered keeps its answer. -/
theorem answered_next {c' : State} {e : Event Action} (h : (system cfg).next c e = some c')
    {answer : Answer} (hp : c.procs p = .adminDelete (.answered answer)) :
    c'.procs p = .adminDelete (.answered answer) := by
  by_cases hpid : p = e.pid
  · subst hpid
    obtain ⟨o, ho, hproc, -⟩ := outcome_next h
    rw [hp] at ho
    rw [hproc]
    generalize e.act = a at ho
    cases Proc.step_cases ho with
    | tick => rfl
    | createCrane => rfl
    | adminDelete _ a o ho' =>
      rw [AdminDelete.step_answered] at ho'
      cases ho'
  · rw [System.procs_next_of_ne h hpid, hp]

/-- What a run has deleted is gone, and its deletion has answered `204`. -/
theorem Deleted.gone (hc₀ : (pipeline cfg).Holds c₀) (hrun : (system cfg).run c₀ es = some c)
    (h : Deleted cfg c₀ es p crane_id i) : (c.shared.store.stage i).Gone ∧
      c.procs p = .adminDelete (.answered (.ok 204)) := by
  obtain ⟨d, d', job_id, now, photo, ⟨es₁, es₂, rfl, h₁, h₂⟩, hproc, -, rfl, -, hmarked⟩ := h
  obtain ⟨d₁, hd₁, hrest⟩ := System.run_append.1 hrun
  obtain rfl : d = d₁ := Option.some.inj (h₁.symm.trans hd₁)
  obtain ⟨d₂, hd₂, hrest⟩ := System.run_cons.1 hrest
  obtain rfl : d' = d₂ := Option.some.inj (h₂.symm.trans hd₂)
  refine ⟨gone_run ((hc₀.run h₁).next h₂) hrest (Or.inl hmarked), ?_⟩
  have hanswered : d'.procs p = .adminDelete (.answered (.ok 204)) := by
    obtain ⟨o, ho, hproc', -⟩ := outcome_next h₂
    rw [hproc] at ho
    exact hproc'.trans (Proc.outcome_commit ho).2
  exact System.run_invariant (I := fun c => c.procs p = .adminDelete (.answered (.ok 204)))
    (fun _ _ _ hp h => answered_next h hp) hrest hanswered

/-- A photo is deleted once. -/
theorem deleted_unique (hc₀ : (pipeline cfg).Holds c₀) (h : (system cfg).run c₀ es = some c) :
    ∀ p q i crane_id crane_id', Deleted cfg c₀ es p crane_id i → Deleted cfg c₀ es q crane_id' i →
      p = q := by
  refine System.run_induction (I := fun es _ => ∀ p q i crane_id crane_id',
    Deleted cfg c₀ es p crane_id i → Deleted cfg c₀ es q crane_id' i → p = q) ?_ ?_ h
  · rintro p q i crane_id crane_id' ⟨_, _, _, _, _, ⟨es₁, es₂, heq, -⟩, -⟩
    simp at heq
  · rintro es c e c' hrun hnext ih p q i crane_id crane_id' hp hq
    -- A deletion by an earlier step and one by the last step exclude each other.
    have hcases : ∀ {p crane_id}, Deleted cfg c₀ (es ++ [e]) p crane_id i →
        Deleted cfg c₀ es p crane_id i ∨ e.pid = p ∧ c.shared.store.stage i = .active := by
      rintro p crane_id ⟨d, d', job_id, now, photo, hpass, hproc, hcrane, hid, hactive, hmarked⟩
      rcases System.Passes.concat_cases hrun hnext hpass with hpass | ⟨rfl, rfl, rfl⟩
      · exact Or.inl ⟨d, d', job_id, now, photo, hpass, hproc, hcrane, hid, hactive, hmarked⟩
      · exact Or.inr ⟨rfl, hactive⟩
    rcases hcases hp with hp | ⟨rfl, hactive⟩
    · rcases hcases hq with hq | ⟨rfl, hactive⟩
      · exact ih p q i crane_id crane_id' hp hq
      · exact absurd hactive (hp.gone hc₀ hrun).1.ne_active
    · rcases hcases hq with hq | ⟨rfl, -⟩
      · exact absurd hactive (hq.gone hc₀ hrun).1.ne_active
      · rfl

end Run

/-! ## Over a run -/

section Rows

variable {cfg : Settings} {c c' : State} {i : Uuid} {photo photo' : CranePhoto}

/-- What an event leaves of the row of a photo: its status may change, and nothing else. -/
theorem content_next {e : Event Action} (hc : (pipeline cfg).Holds c)
    (h : (system cfg).next c e = some c') (hrow : c.shared.store.photo i = some photo)
    (hrow' : c'.shared.store.photo i = some photo') :
    photo' = { photo with status := photo'.status } := by
  have hstep := photo_next hc h i
  rw [hrow, hrow'] at hstep
  cases hstep with
  | same => rfl
  | finalized => rfl
  | marked => rfl

/-- What a run leaves of the row of a photo. -/
theorem content_run {es : List (Event Action)} (hc : (pipeline cfg).Holds c)
    (h : (system cfg).run c es = some c') (hrow : c.shared.store.photo i = some photo)
    (hrow' : c'.shared.store.photo i = some photo') :
    photo' = { photo with status := photo'.status } := by
  have hissued := (hc.1.photo_key hrow).1
  -- The id is not issued again, so a row that is not there any more does not come back.
  have hall : (pipeline cfg).Holds c' ∧ (c'.shared.store.issued i).isSome = true ∧
      ∀ r, c'.shared.store.photo i = some r → r = { photo with status := r.status } := by
    refine System.run_invariant (I := fun c => (pipeline cfg).Holds c ∧
      (c.shared.store.issued i).isSome = true ∧
        ∀ r, c.shared.store.photo i = some r → r = { photo with status := r.status }) ?_ h
      ⟨hc, hissued, fun r hr => ?_⟩
    · rintro c e c' ⟨hc, hissued, hsame⟩ hnext
      have hguard := guarded_writeOf hc hnext
      refine ⟨hc.next hnext, ?_, fun r hr => ?_⟩
      · rw [store_next hnext]
        exact Store.Consistent.isSome_issued_apply hguard hissued
      · cases hold : c.shared.store.photo i with
        | some r₀ =>
          have hcontent := content_next hc hnext hold hr
          rw [hsame r₀ hold] at hcontent
          exact hcontent
        | none =>
          have hstep := photo_next hc hnext i
          rw [hold, hr] at hstep
          cases hstep with
          | inserted _ _ _ hnew =>
            rw [hnew] at hissued
            cases hissued
    · rw [hrow] at hr
      obtain rfl := Option.some.inj hr
      rfl
  exact hall.2.2 photo' hrow'

/-- A photo that is published at both ends of a run has the same row there. -/
theorem eq_of_active {es : List (Event Action)} (hc : (pipeline cfg).Holds c)
    (h : (system cfg).run c es = some c') (hrow : c.shared.store.photo i = some photo)
    (hrow' : c'.shared.store.photo i = some photo') (hactive : photo.status = .active)
    (hactive' : photo'.status = .active) : photo' = photo := by
  have hcontent := content_run hc h hrow hrow'
  rw [hactive', ← hactive] at hcontent
  exact hcontent

end Rows

section Coming

variable {cfg : Settings} {c₀ c c' : State} {es es' : List (Event Action)} {i : Uuid}

/-- A process that commits a finalization has a photo to publish. -/
theorem Proc.finalizeCommit_of_step {p : ℕ} {db : Db} {l : Proc} {o : Outcome Proc}
    (h : l.step cfg p db (.upload .finalizeCommit) = some o) :
    ∃ photo, l = .upload (.finalizeCommit photo) := by
  cases l with
  | upload u =>
    cases u with
    | finalizeCommit photo => exact ⟨photo, rfl⟩
    | lockCrane | count | insert | put | finalize | abandon | abandonFlush | abandonCommit | answered
    | stopped => cases h
  | free | adminDelete | report | worker => cases h

/-- A published photo that is not published any more has been deleted by an admin. -/
theorem deleted_of_active (hc : (pipeline cfg).Holds c) (h : (system cfg).run c es = some c')
    {photo : CranePhoto} (hrow : c.shared.store.photo i = some photo) (hactive : photo.status = .active)
    (hnew : c'.shared.store.stage i ≠ .active) : ∃ p, Deleted cfg c es p photo.crane_id i := by
  have hstage : c.shared.store.stage i = .active := Store.stage_of_active hrow hactive
  obtain ⟨c₁, e, c₂, hpass, h₁, h₂⟩ := System.exists_passes_of_not
    (P := fun c => c.shared.store.stage i = .active) h hstage hnew
  obtain ⟨es₁, es₂, heq, hrun₁, hnext⟩ := hpass
  have hc₁ := hc.run hrun₁
  have h₁' : c₁.shared.store.stage i = CranePhotoStatus.stage .active := h₁
  obtain ⟨photo₁, hrow₁, hactive₁⟩ := Store.row_of_stage h₁'
  have hcontent := content_run hc hrun₁ hrow hrow₁
  have hcrane : photo₁.crane_id = photo.crane_id := by rw [hcontent]
  obtain ⟨now, job_id, hproc, hact⟩ := commit_of_active_next hc₁ hnext hrow₁ hactive₁ h₂
  obtain ⟨p, a⟩ := e
  obtain rfl : a = .adminDelete (.commit job_id) := hact
  have hid : photo₁.id = i := key_of_row hrow₁
  obtain ⟨hbefore, hafter⟩ := stage_commit hc₁ hproc hnext
  rw [hid] at hbefore hafter
  exact ⟨p, c₁, c₂, job_id, now, photo₁, ⟨es₁, es₂, heq, hrun₁, hnext⟩, hproc, hcrane, hid, hbefore,
    hafter⟩

/-- A photo that has become published has been finalized by its own upload. -/
theorem finalized_of_active (hc₀ : (pipeline cfg).Holds c₀) (hinit : ∀ p, c₀.procs p = .free)
    (h : (system cfg).run c₀ es = some c) (h' : (system cfg).run c es' = some c')
    (hold : c.shared.store.stage i ≠ .active) (hnew : c'.shared.store.stage i = .active) :
    ∃ p, ⟨p, .upload .finalizeCommit⟩ ∈ es' ∧ Finalized cfg c₀ (es ++ es') p i := by
  obtain ⟨c₁, e, c₂, hpass, h₁, h₂⟩ := System.exists_passes_of_not
    (P := fun c => c.shared.store.stage i ≠ .active) h' hold (not_not.2 hnew)
  obtain ⟨es₁, es₂, rfl, hrun₁, hnext⟩ := hpass
  have hrun : (system cfg).run c₀ (es ++ es₁) = some c₁ := System.run_append.2 ⟨c, h, hrun₁⟩
  obtain ⟨hact, hown, photo, hput, hid⟩ := author_of_finalize (hc₀.run hrun) hnext h₁ (not_not.1 h₂)
  obtain ⟨p, a⟩ := e
  obtain rfl : a = .upload .finalizeCommit := hact
  obtain ⟨o, ho, -⟩ := outcome_next hnext
  obtain ⟨photo', hproc⟩ := Proc.finalizeCommit_of_step ho
  have hproc' : c₁.procs p = .upload (.finalizeCommit photo') := hproc
  rw [hproc] at hput
  obtain rfl : photo' = photo := Option.some.inj hput
  refine ⟨p, List.mem_append_right _ List.mem_cons_self, ?_⟩
  have hfinal := (finalized_of_next hinit hc₀ hrun hproc' hnext).append es₂
  rw [hid] at hfinal
  simpa using hfinal

end Coming

end CraneTracker.Pipeline
