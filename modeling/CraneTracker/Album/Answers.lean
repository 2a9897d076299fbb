import CraneTracker.Album.Refinement
import CraneTracker.Pipeline.Answers

/-!
# The answers are those of the album

What each request is told, beside the operations that it has made (`DeleteTold`, `ReportTold`,
`UploadTold`). A deletion and a report make one operation each, and their answers are its replies. An upload
makes up to three, and answers `201` when it has published its photo. A request that fails with a `500`
before its commit has made none, and one that has not started or has ended makes none either. So when one
request ends before another starts, its operations come before those of the other in the run of the album.
-/

namespace CraneTracker.Pipeline

open Interleaving Table

/-- The operation is not the creation of a crane, which any process may do. -/
def ofRequest (x : Operation) : Bool :=
  match x.1 with
  | .addOwner _ => false
  | _ => true

/-- The operations of a process, apart from the creation of cranes. -/
def opsOf (p : ℕ) (h : List (ℕ × Operation)) : List Operation :=
  (h.filter fun x => x.1 = p && ofRequest x.2).map Prod.snd

/-- The operations that a step makes, apart from the creation of cranes. -/
def Proc.made (s : Store) (l : Proc) (a : Action) (w : Write) : List Operation :=
  (l.rejected s a ++ w.operations s).filter ofRequest

/-! ## What the requests are told -/

/-- The answer of a deletion, and the operations that it has made. -/
inductive DeleteTold (crane_id photo_id : Uuid) : Answer → List Operation → Prop
  | deleted : DeleteTold crane_id photo_id (.ok 204) [(.delete crane_id photo_id, .done)]
  | noPhoto : DeleteTold crane_id photo_id (AppError.resourceNotFound "photo" photo_id).response
      [(.delete crane_id photo_id, .noPhoto)]
  | failed : DeleteTold crane_id photo_id sqlAlchemyErrorResponse []

/-- The answer of a report, and the operations that it has made. -/
inductive ReportTold (crane_id photo_id : Uuid) (reporter_ip_hash : String) :
    Answer → List Operation → Prop
  | reported : ReportTold crane_id photo_id reporter_ip_hash (.ok 201)
      [(.report crane_id photo_id reporter_ip_hash, .done)]
  | noPhoto : ReportTold crane_id photo_id reporter_ip_hash
      (AppError.resourceNotFound "photo" photo_id).response
      [(.report crane_id photo_id reporter_ip_hash, .noPhoto)]
  | duplicate : ReportTold crane_id photo_id reporter_ip_hash
      (.error 409 "Photo already reported from this IP")
      [(.report crane_id photo_id reporter_ip_hash, .duplicate)]
  | failed : ReportTold crane_id photo_id reporter_ip_hash sqlAlchemyErrorResponse []

/-- The answer of an upload that abandons its photo: the storage or the race for the photo gives a `503`,
and a failed finalization its own `500`. -/
def Abandoned (answer : Answer) : Prop := (∃ detail, answer = .error 503 detail) ∨ answer = notSavedResponse

/-- The answer of an upload, with the photo that it has inserted, and the operations that it has made. -/
inductive UploadTold (request : UploadRequest) : Option Uuid → Answer → List Operation → Prop
  | invalid (e : AppError) (he : validateUpload request = .error e) :
      UploadTold request none e.response []
  | failed : UploadTold request none sqlAlchemyErrorResponse []
  | noCrane : UploadTold request none (AppError.resourceNotFound "crane" request.crane_id).response
      [(.reserve request.crane_id, .noOwner)]
  | full (count : ℕ) : UploadTold request none (AppError.photoLimitExceeded
      "A crane can have at most 3 photos" request.crane_id count).response
      [(.reserve request.crane_id, .full)]
  | created (photo_id : Uuid) : UploadTold request (some photo_id) (.ok 201)
      [(.reserve request.crane_id, .done), (.publish photo_id, .done)]
  -- The place is left to the reaper, or somebody else has freed it.
  | kept (photo_id : Uuid) (answer : Answer) (hanswer : Abandoned answer ∨ answer = .raised) :
      UploadTold request (some photo_id) answer [(.reserve request.crane_id, .done)]
  | released (photo_id : Uuid) (answer : Answer) (hanswer : Abandoned answer) :
      UploadTold request (some photo_id) answer
        [(.reserve request.crane_id, .done), (.release photo_id, .done)]

/-- The operations of a deletion are those of its state. `R` says which deletions were requested. -/
def AdminDelete.Told (R : Uuid → Uuid → Prop) (ops : List Operation) : AdminDelete → Prop
  | .lock _ crane_id photo_id => R crane_id photo_id ∧ ops = []
  | .commit _ photo => R photo.crane_id photo.id ∧ ops = []
  | .answered answer => ∃ crane_id photo_id, R crane_id photo_id ∧
    DeleteTold crane_id photo_id answer ops
  | .stopped => (∃ crane_id photo_id, R crane_id photo_id) ∧ ops = []

/-- The operations of a report are those of its state. -/
def Report.Told (R : Uuid → Uuid → String → Prop) (ops : List Operation) : Report → Prop
  | .lock _ crane_id photo_id reporter_ip_hash => R crane_id photo_id reporter_ip_hash ∧ ops = []
  | .insert _ photo_id reporter_ip_hash => (∃ crane_id, R crane_id photo_id reporter_ip_hash) ∧ ops = []
  | .commit _ photo_id reporter_ip_hash => (∃ crane_id, R crane_id photo_id reporter_ip_hash) ∧ ops = []
  | .answered answer => ∃ crane_id photo_id reporter_ip_hash, R crane_id photo_id reporter_ip_hash ∧
    ReportTold crane_id photo_id reporter_ip_hash answer ops
  | .stopped => (∃ crane_id photo_id reporter_ip_hash, R crane_id photo_id reporter_ip_hash) ∧ ops = []

/-- An upload to the crane was requested. -/
def ForCrane (R : UploadRequest → Prop) (crane_id : Uuid) : Prop :=
  ∃ request, R request ∧ request.crane_id = crane_id

/-- The operations of an upload are those of its state. -/
def Upload.Told (R : UploadRequest → Prop) (ops : List Operation) : Upload → Prop
  | .lockCrane _ prepared | .count _ prepared | .insert _ prepared =>
    ForCrane R prepared.crane_id ∧ ops = []
  | .put photo | .finalize photo | .finalizeCommit photo =>
    ForCrane R photo.crane_id ∧ ops = [(.reserve photo.crane_id, .done)]
  | .abandon photo answer | .abandonFlush _ photo answer | .abandonCommit _ photo answer =>
    (ForCrane R photo.crane_id ∧ ops = [(.reserve photo.crane_id, .done)]) ∧ Abandoned answer
  | .answered photo_id answer => ∃ request, R request ∧ UploadTold request photo_id answer ops
  | .stopped => ∃ crane_id, ForCrane R crane_id ∧ (ops = [] ∨ ops = [(.reserve crane_id, .done)])

/-- The operations of a process, after the run `es`, are those of its state. A worker frees the places of
uploads. -/
def Proc.Told (es : List (Event Action)) (p : ℕ) (ops : List Operation) : Proc → Prop
  | .free => ops = []
  | .upload u => u.Told (fun request => ⟨p, .startUpload request⟩ ∈ es) ops
  | .adminDelete d => d.Told (fun crane_id photo_id => ⟨p, .startAdminDelete crane_id photo_id⟩ ∈ es) ops
  | .report r => r.Told (Requested es p) ops
  | .worker _ => ∀ x ∈ ops, ∃ i, x = (.release i, .done)

section Party

variable {cfg : Settings} {p : ℕ} {db : Db} {ops : List Operation}

/-- A step of a deletion tells it what it has done. -/
theorem AdminDelete.told_step {R : Uuid → Uuid → Prop} {d : AdminDelete} (hd : d.Inv p db)
    (ht : d.Told R ops) {a : AdminDeleteAction} {o : Outcome AdminDelete}
    (h : d.step p db a = some o) :
    o.proc.Told R (ops ++ Proc.made db.store (.adminDelete d) (.adminDelete a) o.write) := by
  cases AdminDelete.step_cases h with
  | lock now photo_id photo hrow hstatus =>
    obtain ⟨hreq, rfl⟩ := ht
    obtain rfl : photo.id = photo_id := key_of_row hrow
    refine ⟨hreq, ?_⟩
    simp [Proc.made, Proc.rejected, Write.operations, hrow, hstatus]
  | missing now crane_id photo_id hrow =>
    obtain ⟨hreq, rfl⟩ := ht
    have hnone : ((db.store.photo photo_id).any fun r =>
        r.crane_id = crane_id && r.status = .active) = false := by
      rw [Option.any_eq_false]
      intro r hr
      simpa using hrow r hr
    refine ⟨crane_id, photo_id, hreq, ?_⟩
    have hmade : Proc.made db.store (.adminDelete (.lock now crane_id photo_id)) (.adminDelete .lock)
        .none = [(.delete crane_id photo_id, .noPhoto)] := by
      simp [Proc.made, Proc.rejected, Write.operations, hnone, ofRequest]
    rw [hmade]
    exact .noPhoto
  | commit now photo job_id =>
    obtain ⟨hreq, rfl⟩ := ht
    obtain ⟨-, hrow, hstatus⟩ := hd
    refine ⟨photo.crane_id, photo.id, hreq, ?_⟩
    have hplace : (album db.store).places photo.id = some ⟨photo.crane_id, true⟩ :=
      place_eq_some.2 ⟨photo, hrow, rfl, hstatus⟩
    have hmade : Proc.made db.store (.adminDelete (.commit now photo)) (.adminDelete (.commit job_id))
        (.createDeleteCraneJobs .deleteCranePhoto now [(photo, job_id)]) =
        [(.delete photo.crane_id photo.id, .done)] := by
      simp [Proc.made, Proc.rejected, Write.operations, hplace, Album.freeing, ofRequest]
    rw [hmade]
    exact .deleted
  | dbError d hanswered =>
    cases d with
    | lock now crane_id photo_id =>
      obtain ⟨hreq, rfl⟩ := ht
      exact ⟨crane_id, photo_id, hreq, .failed⟩
    | commit now photo =>
      obtain ⟨hreq, rfl⟩ := ht
      exact ⟨photo.crane_id, photo.id, hreq, .failed⟩
    | answered answer => exact absurd rfl (hanswered answer)
    | stopped =>
      obtain ⟨⟨crane_id, photo_id, hreq⟩, rfl⟩ := ht
      exact ⟨crane_id, photo_id, hreq, .failed⟩
  | stop d hanswered =>
    cases d with
    | lock now crane_id photo_id =>
      obtain ⟨hreq, rfl⟩ := ht
      exact ⟨⟨crane_id, photo_id, hreq⟩, rfl⟩
    | commit now photo =>
      obtain ⟨hreq, rfl⟩ := ht
      exact ⟨⟨photo.crane_id, photo.id, hreq⟩, rfl⟩
    | answered answer => exact absurd rfl (hanswered answer)
    | stopped =>
      obtain ⟨hreq, rfl⟩ := ht
      exact ⟨hreq, rfl⟩

/-- A step of a report tells it what it has done. -/
theorem Report.told_step {R : Uuid → Uuid → String → Prop} {r : Report} (hr : r.Inv p db)
    (htarget : ∀ y, r.target = some y →
      ∃ photo, db.store.photo y.1 = some photo ∧ R photo.crane_id y.1 y.2)
    (ht : r.Told R ops) {a : ReportAction} {o : Outcome Report} (h : r.step p db a = some o) :
    o.proc.Told R (ops ++ Proc.made db.store (.report r) (.report a) o.write) := by
  cases Report.step_cases h with
  | missing now crane_id photo_id reporter_ip_hash hrow =>
    obtain ⟨hreq, rfl⟩ := ht
    have hnone : ((db.store.photo photo_id).any fun r =>
        r.crane_id = crane_id && r.status = .active) = false := by
      rw [Option.any_eq_false]
      intro r hr
      simpa using hrow r hr
    refine ⟨crane_id, photo_id, reporter_ip_hash, hreq, ?_⟩
    have hmade : Proc.made db.store (.report (.lock now crane_id photo_id reporter_ip_hash))
        (.report .lock) .none = [(.report crane_id photo_id reporter_ip_hash, .noPhoto)] := by
      simp [Proc.made, Proc.rejected, Write.operations, hnone, ofRequest]
    rw [hmade]
    exact .noPhoto
  | lock now photo_id reporter_ip_hash photo hrow hstatus =>
    obtain ⟨hreq, rfl⟩ := ht
    refine ⟨⟨photo.crane_id, hreq⟩, ?_⟩
    simp [Proc.made, Proc.rejected, Write.operations, hrow, hstatus]
  | duplicate now photo_id reporter_ip_hash report hmem hphoto hhash =>
    obtain ⟨-, rfl⟩ := ht
    obtain ⟨photo, hrow, hreq⟩ := htarget _ rfl
    have hdup : (db.store.reports.any fun r =>
        r.photo_id = photo_id && r.reporter_ip_hash = reporter_ip_hash) = true :=
      List.any_eq_true.2 ⟨report, hmem, by simp [hphoto, hhash]⟩
    refine ⟨photo.crane_id, photo_id, reporter_ip_hash, hreq, ?_⟩
    have hmade : Proc.made db.store (.report (.insert now photo_id reporter_ip_hash)) (.report .insert)
        .none = [(.report photo.crane_id photo_id reporter_ip_hash, .duplicate)] := by
      unfold Proc.made Proc.rejected
      dsimp only
      rw [if_pos hdup, hrow]
      rfl
    rw [hmade]
    exact .duplicate
  | insert now photo_id reporter_ip_hash hnew =>
    obtain ⟨hreq, rfl⟩ := ht
    refine ⟨hreq, ?_⟩
    have hdup : (db.store.reports.any fun r =>
        r.photo_id = photo_id && r.reporter_ip_hash = reporter_ip_hash) = false := by
      rw [List.any_eq_false]
      intro r hr
      simpa using hnew r hr
    simp [Proc.made, Proc.rejected, Write.operations, hdup]
  | commit now photo_id reporter_ip_hash report_id =>
    obtain ⟨-, rfl⟩ := ht
    obtain ⟨photo, hrow, hreq⟩ := htarget _ rfl
    refine ⟨photo.crane_id, photo_id, reporter_ip_hash, hreq, ?_⟩
    have hmade : Proc.made db.store (.report (.commit now photo_id reporter_ip_hash))
        (.report (.commit report_id))
        (.reportCranePhoto ⟨report_id, photo_id, reporter_ip_hash, now⟩) =
        [(.report photo.crane_id photo_id reporter_ip_hash, .done)] := by
      unfold Proc.made Write.operations
      dsimp only
      rw [hrow]
      rfl
    rw [hmade]
    exact .reported
  | dbError r hanswered =>
    cases r with
    | lock now crane_id photo_id reporter_ip_hash =>
      obtain ⟨hreq, rfl⟩ := ht
      exact ⟨crane_id, photo_id, reporter_ip_hash, hreq, .failed⟩
    | insert now photo_id reporter_ip_hash | commit now photo_id reporter_ip_hash =>
      obtain ⟨⟨crane_id, hreq⟩, rfl⟩ := ht
      exact ⟨crane_id, photo_id, reporter_ip_hash, hreq, .failed⟩
    | answered answer => exact absurd rfl (hanswered answer)
    | stopped =>
      obtain ⟨⟨crane_id, photo_id, reporter_ip_hash, hreq⟩, rfl⟩ := ht
      exact ⟨crane_id, photo_id, reporter_ip_hash, hreq, .failed⟩
  | stop r hanswered =>
    cases r with
    | lock now crane_id photo_id reporter_ip_hash =>
      obtain ⟨hreq, rfl⟩ := ht
      exact ⟨⟨crane_id, photo_id, reporter_ip_hash, hreq⟩, rfl⟩
    | insert now photo_id reporter_ip_hash | commit now photo_id reporter_ip_hash =>
      obtain ⟨⟨crane_id, hreq⟩, rfl⟩ := ht
      exact ⟨⟨crane_id, photo_id, reporter_ip_hash, hreq⟩, rfl⟩
    | answered answer => exact absurd rfl (hanswered answer)
    | stopped =>
      obtain ⟨hreq, rfl⟩ := ht
      exact ⟨hreq, rfl⟩

/-- A step of an upload tells it what it has done. -/
theorem Upload.told_step {R : UploadRequest → Prop} {u : Upload} (hu : u.Inv p db) (ht : u.Told R ops)
    {a : UploadAction} {o : Outcome Upload} (h : u.step p db a = some o) :
    o.proc.Told R (ops ++ Proc.made db.store (.upload u) (.upload a) o.write) := by
  cases Upload.step_cases h with
  | lockCrane now prepared hcrane =>
    obtain ⟨hreq, rfl⟩ := ht
    refine ⟨hreq, ?_⟩
    simp [Proc.made, Proc.rejected, Write.operations, hcrane]
  | missingCrane now prepared hcrane =>
    obtain ⟨⟨request, hreq, heq⟩, rfl⟩ := ht
    refine ⟨request, hreq, ?_⟩
    have hmade : Proc.made db.store (.upload (.lockCrane now prepared)) (.upload .lockCrane) .none =
        [(.reserve request.crane_id, .noOwner)] := by
      simp [Proc.made, Proc.rejected, Write.operations, hcrane, ofRequest, heq]
    rw [hmade, ← heq]
    exact .noCrane
  | full now prepared e he =>
    obtain ⟨⟨request, hreq, heq⟩, rfl⟩ := ht
    refine ⟨request, hreq, ?_⟩
    unfold ensureCranePhotoCapacity at he
    dsimp only at he
    split_ifs at he with hfull
    obtain rfl := Except.error.inj he
    have hmade : Proc.made db.store (.upload (.count now prepared)) (.upload .count) .none =
        [(.reserve request.crane_id, .full)] := by
      simp [Proc.made, Proc.rejected, Write.operations, not_lt.2 hfull, ofRequest, heq]
    rw [hmade, ← heq]
    exact .full _
  | count now prepared hok =>
    obtain ⟨hreq, rfl⟩ := ht
    refine ⟨hreq, ?_⟩
    simp [Proc.made, Proc.rejected, Write.operations, ensureCranePhotoCapacity_eq_ok.1 hok]
  | insert =>
    obtain ⟨hreq, rfl⟩ := ht
    exact ⟨hreq, rfl⟩
  | put =>
    obtain ⟨hreq, rfl⟩ := ht
    exact ⟨hreq, rfl⟩
  | storageError photo message effect =>
    obtain ⟨hreq, rfl⟩ := ht
    refine ⟨⟨hreq, ?_⟩, Or.inl ⟨_, rfl⟩⟩
    cases effect <;> rfl
  | otherError photo effect =>
    obtain ⟨⟨request, hreq, heq⟩, rfl⟩ := ht
    refine ⟨request, hreq, ?_⟩
    rw [← heq]
    cases effect <;> exact .kept _ _ (Or.inr rfl)
  | finalize =>
    obtain ⟨hreq, rfl⟩ := ht
    exact ⟨hreq, rfl⟩
  | lost =>
    obtain ⟨hreq, rfl⟩ := ht
    exact ⟨⟨hreq, rfl⟩, Or.inl ⟨_, rfl⟩⟩
  | finalizeCommit photo =>
    obtain ⟨⟨request, hreq, heq⟩, rfl⟩ := ht
    refine ⟨request, hreq, ?_⟩
    rw [← heq]
    exact .created _
  | abandonSelect photo read answer hrow hstatus =>
    obtain ⟨⟨hreq, rfl⟩, hanswer⟩ := ht
    obtain rfl : read = photo := Unpublished.eq_of_pending hu hrow hstatus
    exact ⟨⟨hreq, rfl⟩, hanswer⟩
  | abandonFlush =>
    obtain ⟨⟨hreq, rfl⟩, hanswer⟩ := ht
    exact ⟨⟨hreq, rfl⟩, hanswer⟩
  | abandoned photo answer | abandonRaised now photo answer =>
    obtain ⟨⟨⟨request, hreq, heq⟩, rfl⟩, hanswer⟩ := ht
    refine ⟨request, hreq, ?_⟩
    rw [← heq]
    exact .kept _ _ (Or.inl hanswer)
  | abandonCommit now photo answer job_id =>
    obtain ⟨⟨⟨request, hreq, heq⟩, rfl⟩, hanswer⟩ := ht
    obtain ⟨hun, -, r, hrow⟩ := hu
    refine ⟨request, hreq, ?_⟩
    rw [← heq]
    have hmade : Proc.made db.store (.upload (.abandonCommit now photo answer))
        (.upload (.abandonCommit job_id))
        (.createDeleteCraneJobs .abandonCranePhotoUpload now [(photo, job_id)]) =
        ((((album db.store).places photo.id).map (Album.freeing photo.id)).toList.filter ofRequest) := by
      show List.filter ofRequest ([] ++ List.filterMap
        (fun i => ((album db.store).places i).map (Album.freeing i)) [photo.id]) = _
      rw [List.nil_append, List.filterMap_cons]
      cases (album db.store).places photo.id <;> rfl
    rw [hmade]
    -- The photo is as it was inserted, or has been marked.
    rcases hun.row hrow with rfl | rfl
    · have hplace : (album db.store).places r.id = some ⟨r.crane_id, false⟩ :=
        place_eq_some.2 ⟨r, hrow, rfl, hun.pending⟩
      rw [hplace]
      exact .released _ _ hanswer
    · have hplace : (album db.store).places photo.id = none := by
        show (db.store.photo photo.id).bind placeOf = none
        rw [hrow]
        rfl
      rw [hplace]
      exact .kept _ _ (Or.inl hanswer)
  | dbError u now prepared hcase =>
    have hreq : ForCrane R prepared.crane_id ∧ ops = [] := by
      rcases hcase with rfl | rfl | rfl <;> exact ht
    obtain ⟨⟨request, hreq, -⟩, rfl⟩ := hreq
    refine ⟨request, hreq, ?_⟩
    rcases hcase with rfl | rfl | rfl <;> exact .failed
  | finalizeError u photo hcase =>
    rcases hcase with rfl | rfl <;>
    · obtain ⟨hreq, rfl⟩ := ht
      exact ⟨⟨hreq, rfl⟩, Or.inr rfl⟩
  | abandonError u now photo answer hcase =>
    have htold : (ForCrane R photo.crane_id ∧ ops = [(.reserve photo.crane_id, .done)]) ∧
        Abandoned answer := by
      rcases hcase with rfl | rfl | rfl <;> exact ht
    obtain ⟨⟨⟨request, hreq, heq⟩, rfl⟩, hanswer⟩ := htold
    refine ⟨request, hreq, ?_⟩
    rw [← heq]
    rcases hcase with rfl | rfl | rfl <;> exact .kept _ _ (Or.inl hanswer)
  | stop u hanswered =>
    cases u with
    | lockCrane | count | insert =>
      obtain ⟨hreq, rfl⟩ := ht
      exact ⟨_, hreq, Or.inl rfl⟩
    | put | finalize | finalizeCommit =>
      obtain ⟨hreq, rfl⟩ := ht
      exact ⟨_, hreq, Or.inr rfl⟩
    | abandon | abandonFlush | abandonCommit =>
      obtain ⟨⟨hreq, rfl⟩, -⟩ := ht
      exact ⟨_, hreq, Or.inr rfl⟩
    | answered photo_id answer => exact absurd rfl (hanswered photo_id answer)
    | stopped =>
      obtain ⟨crane_id, hreq, hops⟩ := ht
      refine ⟨crane_id, hreq, ?_⟩
      rcases hops with rfl | rfl <;> simp [Proc.made, Proc.rejected, Write.operations]

/-- A worker frees the places of uploads. -/
theorem made_worker {w : Worker} {a : WorkerAction} {o : Outcome Worker}
    (h : w.step cfg p db a = some o) (hguard : o.write.Guarded p db) :
    ∀ x ∈ Proc.made db.store (.worker w) (.worker a) o.write, ∃ i, x = (.release i, .done) := by
  cases Worker.step_cases h with
  | reapCommit now next photos job_ids =>
    intro x hx
    obtain ⟨-, -, hrows⟩ := hguard
    obtain ⟨i, hi, heq⟩ := List.mem_filterMap.1 (List.mem_filter.1 hx).1
    obtain ⟨row, hrow, rfl⟩ := List.mem_map.1 hi
    obtain ⟨-, -, photo, hphoto, -, hmarks⟩ := hrows row hrow
    have hplace : (album db.store).places row.1.id = some ⟨photo.crane_id, false⟩ :=
      place_eq_some.2 ⟨photo, hphoto, rfl, hmarks⟩
    rw [hplace] at heq
    exact ⟨_, (Option.some.inj heq).symm⟩
  | deleteError job rest err_str effect => cases effect <;> exact nofun
  | beginClaim | selectJobs | takeJob | skipJob | claimCommit | endBatch | nextJob | shutdown | delete
  | successSelect | failureSelect | successMissing | failureMissing | successFlush | failureFlush
  | deletePhotos | successCommit | failureCommit | beginReap | selectPhotos | takePhoto | skipPhoto
  | queryError | statusError | stop => exact nofun

end Party

/-! ## Runs -/

section Run

variable {cfg : Settings} {c c' : State} {e : Event Action} {es es' : List (Event Action)} {p q : ℕ}

/-- The operations of a process in two parts of a run. -/
theorem opsOf_append (h h' : List (ℕ × Operation)) : opsOf p (h ++ h') = opsOf p h ++ opsOf p h' := by
  unfold opsOf
  rw [List.filter_append, List.map_append]

/-- An event makes the operations of its process. -/
theorem opsOf_operations : opsOf e.pid (operations cfg c e) =
    Proc.made c.shared.store (c.procs e.pid) e.act (writeOf cfg c e) := by
  unfold opsOf operations Proc.made
  rw [List.filter_map, List.map_map]
  have hsame : (Prod.snd ∘ fun x : Operation => (e.pid, x)) = id := rfl
  rw [hsame, List.map_id]
  refine List.filter_congr fun x _ => ?_
  simp

/-- An event makes no operation of another process. -/
theorem opsOf_operations_of_ne (hp : p ≠ e.pid) : opsOf p (operations cfg c e) = [] := by
  unfold opsOf operations
  rw [List.map_eq_nil_iff, List.filter_eq_nil_iff]
  intro x hx
  obtain ⟨y, -, rfl⟩ := List.mem_map.1 hx
  simp [Ne.symm hp]

/-- What was requested in a run was requested in its continuations. -/
theorem Proc.Told.append {ops : List Operation} {l : Proc} (h : l.Told es p ops)
    (es' : List (Event Action)) : l.Told (es ++ es') p ops := by
  have hmem : ∀ {a : Action}, ⟨p, a⟩ ∈ es → ⟨p, a⟩ ∈ es ++ es' := List.mem_append_left es'
  cases l with
  | free => exact h
  | worker => exact h
  | adminDelete d =>
    cases d with
    | lock | commit => exact h.imp_left hmem
    | answered =>
      obtain ⟨crane_id, photo_id, hreq, hrest⟩ := h
      exact ⟨crane_id, photo_id, hmem hreq, hrest⟩
    | stopped =>
      obtain ⟨⟨crane_id, photo_id, hreq⟩, hrest⟩ := h
      exact ⟨⟨crane_id, photo_id, hmem hreq⟩, hrest⟩
  | report r =>
    cases r with
    | lock => exact h.imp_left hmem
    | insert | commit =>
      obtain ⟨⟨crane_id, hreq⟩, hrest⟩ := h
      exact ⟨⟨crane_id, hmem hreq⟩, hrest⟩
    | answered =>
      obtain ⟨crane_id, photo_id, reporter_ip_hash, hreq, hrest⟩ := h
      exact ⟨crane_id, photo_id, reporter_ip_hash, hmem hreq, hrest⟩
    | stopped =>
      obtain ⟨⟨crane_id, photo_id, reporter_ip_hash, hreq⟩, hrest⟩ := h
      exact ⟨⟨crane_id, photo_id, reporter_ip_hash, hmem hreq⟩, hrest⟩
  | upload u =>
    have hcrane : ∀ {x}, ForCrane (fun request => ⟨p, .startUpload request⟩ ∈ es) x →
        ForCrane (fun request => ⟨p, .startUpload request⟩ ∈ es ++ es') x := by
      rintro x ⟨request, hreq, heq⟩
      exact ⟨request, hmem hreq, heq⟩
    cases u with
    | lockCrane | count | insert | put | finalize | finalizeCommit => exact h.imp_left hcrane
    | abandon | abandonFlush | abandonCommit => exact h.imp_left fun h => h.imp_left hcrane
    | answered =>
      obtain ⟨request, hreq, hrest⟩ := h
      exact ⟨request, hmem hreq, hrest⟩
    | stopped =>
      obtain ⟨crane_id, hreq, hrest⟩ := h
      exact ⟨crane_id, hcrane hreq, hrest⟩

/-- A step that is not one of a request makes no operation of one. -/
theorem made_eq_nil {cfg : Settings} {p : ℕ} {db : Db} {l : Proc} {a : Action} {o : Outcome Proc}
    (h : l.step cfg p db a = some o)
    (ha : (∃ now, a = .tick now) ∨ (∃ id, a = .createCrane id) ∨ l = .free) :
    Proc.made db.store l a o.write = [] := by
  have hrejected : Proc.rejected db.store l a = [] := by
    rcases ha with htick | hcrane | rfl
    · exact rejected_eq_nil db.store l (Or.inl htick)
    · exact rejected_eq_nil db.store l (Or.inr hcrane)
    · rfl
  unfold Proc.made
  rw [hrejected, List.nil_append]
  cases Proc.step_cases h with
  | tick | createCrane | refuseUpload | startUpload | startAdminDelete | startReport | startWorker => rfl
  | upload | adminDelete | report | worker => rcases ha with ⟨now, ha⟩ | ⟨id, ha⟩ | ha <;> cases ha

/-- The checks of an upload leave its crane as it is. -/
theorem crane_of_validateUpload {request : UploadRequest} {prepared : PreparedUpload}
    (h : validateUpload request = .ok prepared) : prepared.crane_id = request.crane_id := by
  unfold validateUpload at h
  dsimp only at h
  split_ifs at h
  split at h
  · cases h
  · obtain rfl := Except.ok.inj h
    rfl

/-- An event keeps the operations those of the states. -/
theorem told_next (hc : (pipeline cfg).Holds c) (ht : Traced es c)
    (hn : (system cfg).next c e = some c') {ops : List Operation} (hp : (c.procs p).Told es p ops) :
    (c'.procs p).Told (es ++ [e]) p (ops ++ opsOf p (operations cfg c e)) := by
  by_cases hpid : p = e.pid
  · subst hpid
    obtain ⟨o, ho, hproc, -⟩ := outcome_next hn
    have hguard := guarded_writeOf hc hn
    have hw : writeOf cfg c e = o.write := by
      unfold writeOf
      rw [ho]
      rfl
    have hinv := hc.2 e.pid
    have htarget := @Traced.target _ _ ht e.pid
    rw [hw] at hguard
    rw [opsOf_operations, hproc, hw]
    have hact : ⟨e.pid, e.act⟩ ∈ es ++ [e] := List.mem_append_right _ (List.mem_singleton_self _)
    have hold := hp.append [e]
    generalize e.act = a at ho hact ⊢
    generalize c.procs e.pid = l at ho hinv htarget hold ⊢
    cases Proc.step_cases ho with
    | tick _ now =>
      rw [made_eq_nil ho (Or.inl ⟨now, rfl⟩), List.append_nil]
      exact hold
    | createCrane _ id =>
      rw [made_eq_nil ho (Or.inr (Or.inl ⟨id, rfl⟩)), List.append_nil]
      exact hold
    | refuseUpload request e he =>
      obtain rfl : ops = [] := hold
      exact ⟨request, hact, .invalid e he⟩
    | startUpload request prepared hok =>
      obtain rfl : ops = [] := hold
      exact ⟨⟨request, hact, (crane_of_validateUpload hok).symm⟩, rfl⟩
    | startAdminDelete =>
      obtain rfl : ops = [] := hold
      exact ⟨hact, rfl⟩
    | startReport =>
      obtain rfl : ops = [] := hold
      exact ⟨hact, rfl⟩
    | startWorker =>
      obtain rfl : ops = [] := hold
      exact nofun
    | upload u a o ho' => exact Upload.told_step hinv hold ho'
    | adminDelete d a o ho' => exact AdminDelete.told_step hinv hold ho'
    | report r a o ho' =>
      refine Report.told_step hinv (fun y hy => ?_) hold ho'
      obtain ⟨photo, hrow, hreq⟩ := htarget hy
      exact ⟨photo, hrow, hreq.append [e]⟩
    | worker w a o ho' =>
      intro x hx
      rcases List.mem_append.1 hx with hx | hx
      · exact hold x hx
      · exact made_worker ho' hguard x hx
  · rw [opsOf_operations_of_ne hpid, List.append_nil, System.procs_next_of_ne hn hpid]
    exact hp.append [e]

/-- In every state of a run, the operations of a process are those of its state. -/
theorem told_run {clock : Timestamp} {cranes : List Uuid}
    (h : (system cfg).run (initial clock cranes) es = some c) : ∀ p, (c.procs p).Told es p
      (opsOf p ((system cfg).history (operations cfg) (initial clock cranes) es)) := by
  refine System.run_induction (I := fun es c => ∀ p, (c.procs p).Told es p
    (opsOf p ((system cfg).history (operations cfg) (initial clock cranes) es)))
    (fun _ => rfl) (fun es c e c' hrun hn ih p => ?_) h
  rw [System.history_concat hrun, opsOf_append]
  exact told_next ((holds_initial cfg clock cranes).run hrun) (answered_of_run hrun).1 hn (ih p)

/-- The process is a request that has ended. -/
def Proc.ended : Proc → Bool
  | .upload u => u.ended
  | .adminDelete (.answered _) => true
  | .adminDelete .stopped => true
  | .report (.answered _) => true
  | .report .stopped => true
  | _ => false

/-- The event of a request that has ended does not move it, and makes no operation. -/
theorem Proc.step_of_ended {db : Db} {l : Proc} (hl : l.ended = true) {a : Action} {o : Outcome Proc}
    (h : l.step cfg p db a = some o) : o.proc = l ∧ Proc.made db.store l a o.write = [] := by
  cases Proc.step_cases h with
  | tick _ now => exact ⟨rfl, made_eq_nil h (Or.inl ⟨now, rfl⟩)⟩
  | createCrane _ id => exact ⟨rfl, made_eq_nil h (Or.inr (Or.inl ⟨id, rfl⟩))⟩
  | refuseUpload | startUpload | startAdminDelete | startReport | startWorker | worker => cases hl
  | upload u a o ho =>
    refine ⟨congrArg Proc.upload (Upload.proc_of_ended hl ho), ?_⟩
    cases Upload.step_cases ho with
    | stop => cases u <;> rfl
    | dbError u now prepared hu => rcases hu with rfl | rfl | rfl <;> cases hl
    | finalizeError u photo hu => rcases hu with rfl | rfl <;> cases hl
    | abandonError u now photo answer hu => rcases hu with rfl | rfl | rfl <;> cases hl
    | lockCrane | missingCrane | full | count | insert | put | storageError | otherError | finalize | lost
    | finalizeCommit | abandonSelect | abandoned | abandonFlush | abandonRaised | abandonCommit => cases hl
  | adminDelete d a o ho =>
    cases d with
    | lock | commit => cases hl
    | answered => cases a <;> simp [AdminDelete.step] at ho
    | stopped =>
      cases a with
      | stop =>
        obtain rfl := Option.some.inj ho
        exact ⟨rfl, rfl⟩
      | lock | commit | dbError => simp [AdminDelete.step] at ho
  | report r a o ho =>
    cases r with
    | lock | insert | commit => cases hl
    | answered => cases a <;> simp [Report.step] at ho
    | stopped =>
      cases a with
      | stop =>
        obtain rfl := Option.some.inj ho
        exact ⟨rfl, rfl⟩
      | lock | insert | commit | dbError => simp [Report.step] at ho

/-- A request that has ended makes no operation any more. -/
theorem opsOf_of_ended (h : (system cfg).run c es = some c') (hp : (c.procs p).ended = true) :
    opsOf p ((system cfg).history (operations cfg) c es) = [] := by
  have hall : (c'.procs p).ended = true ∧
      opsOf p ((system cfg).history (operations cfg) c es) = [] := by
    refine System.run_induction (I := fun es c' => (c'.procs p).ended = true ∧
      opsOf p ((system cfg).history (operations cfg) c es) = []) ⟨hp, rfl⟩
      (fun es c₁ e c₂ hrun hn ih => ?_) h
    obtain ⟨hended, hnil⟩ := ih
    rw [System.history_concat hrun, opsOf_append, hnil, List.nil_append]
    by_cases hpid : p = e.pid
    · subst hpid
      obtain ⟨o, ho, hproc, -⟩ := outcome_next hn
      have hw : writeOf cfg c₁ e = o.write := by
        unfold writeOf
        rw [ho]
        rfl
      obtain ⟨hsame, hmade⟩ := Proc.step_of_ended hended ho
      rw [opsOf_operations, hproc, hsame, hw]
      exact ⟨hended, hmade⟩
    · rw [System.procs_next_of_ne hn hpid]
      exact ⟨hended, opsOf_operations_of_ne hpid⟩
  exact hall.2

end Run

/-- The requests are told what the album has done. In every run, the operations that a request has made are
those that its answer tells, with the arguments of the request: one for a deletion and for a report, with
the reply that the answer stands for, and none when it failed. An upload that is told `201` has reserved a
place of its crane and published its photo there. One that is told that its photo has been abandoned, or
whose storage call has raised, has reserved a place and published nothing, and any other one has not even
reserved a place. When a request has ended before another one starts, its operations come first. -/
theorem album_answers (cfg : Settings) (clock : Timestamp) (cranes : List Uuid)
    (es : List (Event Action)) (c : State)
    (hrun : (system cfg).run (initial clock cranes) es = some c) :
    (∀ p answer, c.procs p = .adminDelete (.answered answer) → ∃ crane_id photo_id,
      ⟨p, .startAdminDelete crane_id photo_id⟩ ∈ es ∧ DeleteTold crane_id photo_id answer
        (opsOf p ((system cfg).history (operations cfg) (initial clock cranes) es))) ∧
    (∀ p answer, c.procs p = .report (.answered answer) → ∃ crane_id photo_id reporter_ip_hash,
      ⟨p, .startReport crane_id photo_id reporter_ip_hash⟩ ∈ es ∧
        ReportTold crane_id photo_id reporter_ip_hash answer
          (opsOf p ((system cfg).history (operations cfg) (initial clock cranes) es))) ∧
    (∀ p photo_id answer, c.procs p = .upload (.answered photo_id answer) → ∃ request,
      ⟨p, .startUpload request⟩ ∈ es ∧ UploadTold request photo_id answer
        (opsOf p ((system cfg).history (operations cfg) (initial clock cranes) es))) ∧
    ∀ es₁ es₂ c₁ p q, es = es₁ ++ es₂ → (system cfg).run (initial clock cranes) es₁ = some c₁ →
      (c₁.procs p).ended = true → c₁.procs q = .free →
      ∃ h₁ h₂, (system cfg).history (operations cfg) (initial clock cranes) es = h₁ ++ h₂ ∧
        opsOf p h₂ = [] ∧ opsOf q h₁ = [] := by
  have htold := told_run hrun
  refine ⟨fun p answer hp => ?_, fun p answer hp => ?_, fun p photo_id answer hp => ?_, ?_⟩
  · have hp' := htold p
    rw [hp] at hp'
    exact hp'
  · have hp' := htold p
    rw [hp] at hp'
    exact hp'
  · have hp' := htold p
    rw [hp] at hp'
    exact hp'
  · rintro es₁ es₂ c₁ p q rfl hrun₁ hended hfree
    obtain ⟨c₂, hrun₁', hrun₂⟩ := System.run_append.1 hrun
    obtain rfl : c₁ = c₂ := Option.some.inj (hrun₁.symm.trans hrun₁')
    refine ⟨_, _, System.history_append hrun₁, opsOf_of_ended hrun₂ hended, ?_⟩
    have hq := told_run hrun₁ q
    rw [hfree] at hq
    exact hq

/-- The upload is told that it has published the photo, and the report that ended before the deletion began
comes before it. -/
theorem album_answers_published :
    ∃ c, (system {}).run (initial 0 [1]) (reportedEvents ++ deletedEvents) = some c ∧
      (∃ request, ⟨0, .startUpload request⟩ ∈ reportedEvents ++ deletedEvents ∧
        UploadTold request (some 2) (.ok 201) (opsOf 0 ((system {}).history (operations {})
          (initial 0 [1]) (reportedEvents ++ deletedEvents)))) ∧
      ∃ h₁ h₂, (system {}).history (operations {}) (initial 0 [1]) (reportedEvents ++ deletedEvents) =
        h₁ ++ h₂ ∧ opsOf 1 h₂ = [] ∧ opsOf 2 h₁ = [] := by
  have hrun : ((system {}).run (initial 0 [1]) (reportedEvents ++ deletedEvents)).map
      (fun c => (c.procs 0).uploadAnswer) = some (some (some 2, .ok 201)) := by decide +kernel
  have hrun₁ : ((system {}).run (initial 0 [1]) reportedEvents).map (fun c => (c.procs 1).ended) =
      some true := by decide +kernel
  obtain ⟨c, hc, hanswer⟩ := Option.map_eq_some_iff.1 hrun
  obtain ⟨c₁, hc₁, hended⟩ := Option.map_eq_some_iff.1 hrun₁
  have hfree : c₁.procs 2 = .free := System.procs_run_of_not_mem hc₁ (by decide +kernel)
  have h := album_answers {} 0 [1] (reportedEvents ++ deletedEvents) c hc
  exact ⟨c, hc, h.2.2.1 0 _ _ (Proc.of_uploadAnswer hanswer),
    h.2.2.2 reportedEvents deletedEvents c₁ 1 2 rfl hc₁ hended hfree⟩

end CraneTracker.Pipeline
