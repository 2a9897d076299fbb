import CraneTracker.Pipeline.Lifecycle

/-!
# What the answer of an upload says

An upload request answers `201` in one place, after the commit of `finalize_crane_photo`
(`Upload.answer_step`). So a `201` stands for that commit and for the put before it (`Finalized`).
And a published photo stands for a `201` of the request that inserted it (`published_answered`), so no
other end of a request leaves a published photo, then or later: nobody else publishes it, and a
request that has ended does not move.
-/

namespace CraneTracker.Pipeline

open Interleaving Table

/-- The answer that a request has given, or is on its way to give, is not that of a published
photo. -/
def Upload.GivesUp : Upload → Prop
  | .abandon _ answer => answer ≠ .ok 201
  | .abandonFlush _ _ answer => answer ≠ .ok 201
  | .abandonCommit _ _ answer => answer ≠ .ok 201
  | .answered _ answer => answer ≠ .ok 201
  | _ => True

/-- The answer that a process has given, or is on its way to give, is not that of a published
photo. -/
def Proc.GivesUp : Proc → Prop
  | .upload u => u.GivesUp
  | _ => True

/-- In the run `es` from `c₀`, the request `p` has put the object of the photo `i` in storage, and
has then committed the change of its row from `PENDING_UPLOAD` to `ACTIVE`. -/
def Finalized (cfg : Settings) (c₀ : State) (es : List (Event Action)) (p : ℕ) (i : Uuid) : Prop :=
  ∃ es₁ es₂ c c' photo, es = es₁ ++ ⟨p, .upload .finalizeCommit⟩ :: es₂ ∧
    (system cfg).run c₀ es₁ = some c ∧
    (system cfg).next c ⟨p, .upload .finalizeCommit⟩ = some c' ∧ PutSucceeded cfg c₀ es₁ p i ∧
    c.shared.store.issued i = some p ∧ c.shared.store.photo i = some photo ∧
    photo.status = .pendingUpload ∧
    c'.shared.store.photo i = some { photo with status := .active }

section Step

variable {cfg : Settings} {p : ℕ} {db : Db}

/-- No exception of the services is answered with a `201`. -/
theorem response_ne_created (e : AppError) : e.response ≠ .ok 201 := by
  cases e <;> simp [AppError.response]

/-- An upload request answers `201` by the commit of `finalize_crane_photo`, and by nothing else. -/
theorem Upload.answer_step {u : Upload} (hu : u.GivesUp) {a : UploadAction} {o : Outcome Upload}
    (h : u.step p db a = some o) :
    (∃ photo, u = .finalizeCommit photo ∧ a = .finalizeCommit ∧
      o.proc = .answered (some photo.id) (.ok 201)) ∨ o.proc.GivesUp := by
  cases Upload.step_cases h with
  | finalizeCommit => exact Or.inl ⟨_, rfl, rfl, rfl⟩
  | missingCrane | full => exact Or.inr (response_ne_created _)
  | lockCrane | count | insert | put | finalize | stop => exact Or.inr trivial
  -- The answers of the route itself.
  | storageError | otherError | lost | dbError | finalizeError => exact Or.inr nofun
  -- The answer that the request carries on its way out.
  | abandonSelect | abandoned | abandonFlush | abandonRaised | abandonCommit => exact Or.inr hu
  | abandonError u now photo answer hcase =>
    right
    rcases hcase with rfl | rfl | rfl
    · exact hu
    · exact hu
    · exact hu

/-- A process gets to an answer `201` of an upload by the commit of `finalize_crane_photo`, and by
nothing else. -/
theorem Proc.answer_step {l : Proc} (hl : l.GivesUp) {a : Action} {o : Outcome Proc}
    (h : l.step cfg p db a = some o) :
    (∃ photo, l = .upload (.finalizeCommit photo) ∧ a = .upload .finalizeCommit ∧
      o.proc = .upload (.answered (some photo.id) (.ok 201))) ∨ o.proc.GivesUp := by
  cases Proc.step_cases h with
  | tick => exact Or.inr hl
  | createCrane => exact Or.inr hl
  | refuseUpload request e => exact Or.inr (response_ne_created e)
  | upload u a o ho =>
    rcases Upload.answer_step hl ho with ⟨photo, rfl, rfl, hproc⟩ | hgives
    · exact Or.inl ⟨photo, rfl, rfl, congrArg Proc.upload hproc⟩
    · exact Or.inr hgives
  | startUpload | startAdminDelete | startReport | startWorker => exact Or.inr trivial
  | adminDelete | report | worker => exact Or.inr trivial

/-- A request that has ended does not move. -/
theorem Upload.proc_of_ended {u : Upload} (hu : u.ended = true) {a : UploadAction}
    {o : Outcome Upload} (h : u.step p db a = some o) : o.proc = u := by
  cases u with
  | answered => cases a <;> simp [Upload.step] at h
  | stopped =>
    cases a with
    | stop =>
      simp only [Upload.step] at h
      cases h
      rfl
    | _ => simp [Upload.step] at h
  | _ => cases hu

end Step

section Answer

variable {cfg : Settings} {c c' : State} {e : Event Action} {p : ℕ}

/-- A request that has ended stays as it is. -/
theorem ended_next (h : (system cfg).next c e = some c') {u : Upload}
    (hp : c.procs p = .upload u) (hu : u.ended = true) : c'.procs p = .upload u := by
  by_cases hpid : p = e.pid
  · subst hpid
    obtain ⟨o, ho, hproc, -⟩ := outcome_next h
    rw [hp] at ho
    rw [hproc]
    generalize e.act = a at ho
    cases Proc.step_cases ho with
    | tick => rfl
    | createCrane => rfl
    | upload _ a o ho' => exact congrArg Proc.upload (Upload.proc_of_ended hu ho')
  · rw [System.procs_next_of_ne h hpid, hp]

/-- A request that has ended stays as it is over a run. -/
theorem ended_run {es : List (Event Action)} (h : (system cfg).run c es = some c') {u : Upload}
    (hp : c.procs p = .upload u) (hu : u.ended = true) : c'.procs p = .upload u :=
  System.run_invariant (I := fun c => c.procs p = .upload u)
    (fun _ _ _ hp h => ended_next h hp hu) h hp

/-- The commit of `finalize_crane_photo` publishes the pending photo of its own request. -/
theorem finalized_of_next {c₀ : State} {es : List (Event Action)} (hinit : ∀ p, c₀.procs p = .free)
    (hc₀ : (pipeline cfg).Holds c₀) (hrun : (system cfg).run c₀ es = some c) {photo : CranePhoto}
    (hp : c.procs p = .upload (.finalizeCommit photo))
    (h : (system cfg).next c ⟨p, .upload .finalizeCommit⟩ = some c') :
    Finalized cfg c₀ (es ++ [⟨p, .upload .finalizeCommit⟩]) p photo.id := by
  have hput : (c.procs p).hasPut = some photo := by
    rw [hp]
    rfl
  have hinv := (hc₀.run hrun).2 p
  rw [hp] at hinv
  obtain ⟨hu, -, hrow, -⟩ := hinv
  refine ⟨es, [], c, c', photo, rfl, hrun, h, putSucceeded_of_hasPut hinit hrun p photo hput,
    hu.own, hrow, hu.pending, ?_⟩
  have hw : writeOf cfg c ⟨p, .upload .finalizeCommit⟩ = .finalizeCranePhoto photo.id := by
    simp [writeOf, hp, Proc.step, Upload.step, Outcome.map]
  rw [store_next h, hw, Store.photo_finalizeCranePhoto, hrow, Option.map_some, if_pos rfl]
  rfl

/-- What has been finalized in a run has been finalized in its continuations. -/
theorem Finalized.append {c₀ : State} {es : List (Event Action)} {i : Uuid}
    (h : Finalized cfg c₀ es p i) (es' : List (Event Action)) :
    Finalized cfg c₀ (es ++ es') p i := by
  obtain ⟨es₁, es₂, c, c', photo, rfl, hrest⟩ := h
  exact ⟨es₁, es₂ ++ es', c, c', photo, by simp, hrest⟩

/-- A request that has answered `201` has published its photo, and every other one gives up or is
still on its way. -/
theorem finalized_or_givesUp {c₀ : State} {es : List (Event Action)}
    (hinit : ∀ p, c₀.procs p = .free) (hc₀ : (pipeline cfg).Holds c₀)
    (h : (system cfg).run c₀ es = some c) : ∀ p,
    (∃ i, c.procs p = .upload (.answered (some i) (.ok 201)) ∧ Finalized cfg c₀ es p i) ∨
      (c.procs p).GivesUp := by
  refine System.run_induction (I := fun es c => ∀ p,
    (∃ i, c.procs p = .upload (.answered (some i) (.ok 201)) ∧ Finalized cfg c₀ es p i) ∨
      (c.procs p).GivesUp) ?_ ?_ h
  · intro p
    right
    rw [hinit p]
    trivial
  · rintro es c ⟨q, a⟩ c' hrun hnext ih p
    rcases ih p with ⟨i, hproc, hfinal⟩ | hgives
    · exact Or.inl ⟨i, ended_next hnext hproc rfl, hfinal.append _⟩
    · by_cases hp : p = q
      · subst hp
        obtain ⟨o, ho, hproc', -⟩ := outcome_next hnext
        rw [hproc']
        rcases Proc.answer_step hgives ho with ⟨photo, hproc, hact, hanswer⟩ | hgives'
        · obtain rfl : a = .upload .finalizeCommit := hact
          exact Or.inl ⟨photo.id, hanswer, finalized_of_next hinit hc₀ hrun hproc hnext⟩
        · exact Or.inr hgives'
      · rw [System.procs_next_of_ne hnext hp]
        exact Or.inr hgives

/-- The request that inserted a published photo has answered `201` for it. -/
def PublishedAnswered (c : State) : Prop :=
  ∀ p i photo, c.shared.store.issued i = some p → c.shared.store.photo i = some photo →
    photo.status = .active → c.procs p = .upload (.answered (some i) (.ok 201))

/-- An event that publishes a photo is the one that answers `201` for it. -/
theorem PublishedAnswered.next (hpa : PublishedAnswered c) (hc : (pipeline cfg).Holds c)
    (h : (system cfg).next c e = some c') : PublishedAnswered c' := by
  intro p i photo hissued hphoto hstatus
  have hguard := guarded_writeOf hc h
  have horigin := writeOf_origin h
  have hstep := photo_next hc h i
  rw [hphoto] at hstep
  generalize hold : c.shared.store.photo i = r at hstep
  -- A photo that was there before was issued before, to the same request.
  have hissued_old : ∀ r, c.shared.store.photo i = some r → c.shared.store.issued i = some p := by
    intro r hr
    obtain ⟨q, hq⟩ := Option.isSome_iff_exists.1 (hc.1.photo_key hr).1
    have hq' : c'.shared.store.issued i = some q := by
      rw [store_next h]
      exact issued_apply hguard hq
    rw [hq, ← hq', hissued]
  cases hstep with
  | same =>
    exact ended_next h (hpa p i photo (hissued_old _ hold) hold hstatus) rfl
  | inserted _ _ _ _ hpending => exact absurd (hstatus.symm.trans hpending) (by simp)
  | finalized r hw _ hown =>
    obtain rfl : p = e.pid := Option.some.inj ((hissued_old r hold).symm.trans hown)
    rw [hw] at horigin
    obtain ⟨photo₀, hproc, hact, hid⟩ := horigin
    obtain ⟨o, ho, hproc', -⟩ := outcome_next h
    rw [hproc, hact] at ho
    cases ho
    rw [hproc', hid]
    rfl
  | marked => exact absurd hstatus (by simp [markPendingDelete])

end Answer

/-- What the answer of an upload says. In every run, a request that has answered `201` has put the
object of its photo in storage, and has then committed the change of the photo's row from
`PENDING_UPLOAD` to `ACTIVE`. If a request has ended in any other way, then in that state and in every
later one no photo that it inserted is `ACTIVE`. -/
theorem upload_outcome (cfg : Settings) (clock : Timestamp) (cranes : List Uuid) :
    (∀ es c p photo_id, (system cfg).run (initial clock cranes) es = some c →
      c.procs p = .upload (.answered photo_id (.ok 201)) →
      ∃ i, photo_id = some i ∧ Finalized cfg (initial clock cranes) es p i) ∧
    ∀ es es' c c' p u, (system cfg).run (initial clock cranes) es = some c →
      (system cfg).run c es' = some c' → c.procs p = .upload u → u.ended = true →
      (∀ photo_id, u ≠ .answered photo_id (.ok 201)) →
      ∀ photo ∈ c'.shared.store.photos, c'.shared.store.issued photo.id = some p →
        photo.status ≠ .active := by
  have hinit := holds_initial cfg clock cranes
  constructor
  · intro es c p photo_id hrun hp
    rcases finalized_or_givesUp (fun _ => rfl) hinit hrun p with ⟨i, hproc, hfinal⟩ | hgives
    · rw [hp] at hproc
      cases hproc
      exact ⟨i, rfl, hfinal⟩
    · rw [hp] at hgives
      exact absurd rfl hgives
  · intro es es' c c' p u hrun hrun' hp hended hne photo hphoto hissued hstatus
    have hall : (system cfg).run (initial clock cranes) (es ++ es') = some c' :=
      System.run_append.2 ⟨c, hrun, hrun'⟩
    have hpa : PublishedAnswered c' := by
      refine hinit.visits_induction (J := PublishedAnswered) ?_
        (fun _ _ _ hpass hc hpa => hpa.next hc hpass.next) (System.Visits.last hall)
      intro p i photo hissued hphoto
      cases hphoto
    have hrow := (hinit.run hall).1.photo_of_mem hphoto
    have hanswered := hpa p photo.id photo hissued hrow hstatus
    rw [ended_run hrun' hp hended] at hanswered
    cases hanswered
    exact hne _ rfl

/-- The photo and the answer that an upload request has ended with. -/
def Proc.uploadAnswer : Proc → Option (Option Uuid × Answer)
  | .upload (.answered photo_id answer) => some (photo_id, answer)
  | _ => none

/-- The local state of an upload request that has ended with an answer. -/
theorem Proc.of_uploadAnswer {l : Proc} {photo_id : Option Uuid} {answer : Answer}
    (h : l.uploadAnswer = some (photo_id, answer)) : l = .upload (.answered photo_id answer) := by
  unfold Proc.uploadAnswer at h
  split at h
  · cases h
    rfl
  · cases h

/-- A PNG whose pixels decode, and whose `eXIf` chunk does not parse when it is re-encoded. -/
def badExifRequest (crane_id : Uuid) : UploadRequest where
  crane_id := crane_id
  filename := some "crane.png"
  content_type := some "image/png"
  file_size := 1
  image := ⟨.ok ("PNG", 1, 1), .ok (), .error ⟨.syntaxError, "not a TIFF file"⟩⟩

/-- The request `0` publishes its photo. The put of the request `5` raises an exception that the route
does not catch, although the object is stored, and its photo waits for the reaper. An exception of
Pillow leaves the request `6` before it has reached the database. -/
def raisedEvents : List (Event Action) :=
  preuploadEvents 0 1 2 ++ publishEvents 0 ++ preuploadEvents 5 1 3 ++
    [⟨5, .upload (.put (.otherError true))⟩, ⟨6, .startUpload (badExifRequest 1)⟩]

/-- One request publishes its photo, and two end with an exception that the route does not catch. -/
theorem upload_outcome_created_raised :
    ∃ c, (system {}).run (initial 0 [1]) raisedEvents = some c ∧
      Finalized {} (initial 0 [1]) raisedEvents 0 2 ∧
      (∀ photo ∈ c.shared.store.photos, c.shared.store.issued photo.id = some 5 →
        photo.status ≠ .active) ∧
      ∀ photo ∈ c.shared.store.photos, c.shared.store.issued photo.id = some 6 →
        photo.status ≠ .active := by
  have hrun : ((system {}).run (initial 0 [1]) raisedEvents).map
      (fun c => ((c.procs 0).uploadAnswer, (c.procs 5).uploadAnswer, (c.procs 6).uploadAnswer))
      = some (some (some 2, .ok 201), some (some 3, .raised), some (none, .raised)) := by
    decide +kernel
  obtain ⟨c, hc, hanswers⟩ := Option.map_eq_some_iff.1 hrun
  obtain ⟨hcreated, hanswers⟩ := Prod.mk.inj hanswers
  obtain ⟨hraised, hpillow⟩ := Prod.mk.inj hanswers
  obtain ⟨i, hi, hfinal⟩ :=
    (upload_outcome {} 0 [1]).1 _ c 0 _ hc (Proc.of_uploadAnswer hcreated)
  obtain rfl := Option.some.inj hi
  exact ⟨c, hc, hfinal,
    (upload_outcome {} 0 [1]).2 _ [] c c 5 _ hc rfl (Proc.of_uploadAnswer hraised) rfl
      (fun _ heq => by cases heq),
    (upload_outcome {} 0 [1]).2 _ [] c c 6 _ hc rfl (Proc.of_uploadAnswer hpillow) rfl
      (fun _ heq => by cases heq)⟩

end CraneTracker.Pipeline
