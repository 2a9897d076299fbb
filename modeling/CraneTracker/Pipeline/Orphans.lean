import CraneTracker.Pipeline.Events

/-!
# Orphaned objects

Nothing bounds the time that a put takes. While it runs the reaper may mark the photo, and a worker may
delete the object that is not there yet and remove the row. When the put takes effect after that, its
request finds no row to finalize and none to abandon, and nothing else knows the key.

`PutInTime` says when a put is safe, and `object_has_row` proves that over a run of such steps every
object has a row.
-/

namespace CraneTracker.Pipeline

open Interleaving Table

/-- If the event `e` puts an object in storage, then the row of its photo is still there, and no worker
has deleted the object and not yet committed the outcome. -/
def PutInTime (cfg : Settings) (c : State) (e : Event Action) : Prop :=
  ∀ object_key, writeOf cfg c e = .putObject object_key →
    (∃ photo ∈ c.shared.store.photos, photo.storage_key = object_key) ∧
      ∀ q, (c.procs q).hasDeleted ≠ some object_key

/-- Every object has a row, and no worker has deleted it and not yet committed the outcome. -/
def NoOrphans (c : State) : Prop :=
  ∀ object_key ∈ c.shared.store.storage,
    (∃ i photo, c.shared.store.photo i = some photo ∧ photo.storage_key = object_key) ∧
      ∀ q, (c.procs q).hasDeleted ≠ some object_key

section Orphans

variable {cfg : Settings} {c c' : State} {e : Event Action}

/-- An object in storage after a write was there before, or the write puts it there. -/
theorem mem_storage_apply {p : ℕ} {s : Store} {w : Write} {object_key : String}
    (h : object_key ∈ (s.apply cfg p w).storage) :
    object_key ∈ s.storage ∨ w = .putObject object_key := by
  cases w with
  | putObject key =>
    rcases Finset.mem_insert.1 h with rfl | hold
    · exact Or.inr rfl
    · exact Or.inl hold
  | deleteObject => exact Or.inl (Finset.mem_of_mem_erase h)
  | none | tick | createCrane | preuploadCranePhoto | finalizeCranePhoto | createDeleteCraneJobs
  | claimJobs | captureFailure | captureSuccess | reportCranePhoto => exact Or.inl h

/-- A photo keeps its row, with its key, unless its process has deleted the object. -/
theorem row_next (hc : (pipeline cfg).Holds c) (h : (system cfg).next c e = some c') {i : Uuid}
    {photo : CranePhoto} (hrow : c.shared.store.photo i = some photo)
    (hdel : (c.procs e.pid).hasDeleted ≠ some photo.storage_key) :
    ∃ photo', c'.shared.store.photo i = some photo' ∧
      photo'.storage_key = photo.storage_key := by
  have horigin := writeOf_origin h
  have hstep := photo_next hc h i
  rw [hrow] at hstep
  generalize hrow' : c'.shared.store.photo i = r at hstep
  cases hstep with
  | same => exact ⟨photo, rfl, rfl⟩
  | finalized => exact ⟨_, rfl, rfl⟩
  | marked => exact ⟨_, rfl, rfl⟩
  | removed _ now read photo_ids hw _ hkey =>
    rw [hw] at horigin
    obtain ⟨rest, hproc, -⟩ := horigin
    refine absurd ?_ hdel
    rw [hproc, hkey]
    rfl

/-- A worker gets to where its object is deleted with the object absent. -/
theorem hasDeleted_next (hc : (pipeline cfg).Holds c) (h : (system cfg).next c e = some c')
    {q : ℕ} {object_key : String} (hdel : (c'.procs q).hasDeleted = some object_key) :
    (c.procs q).hasDeleted = some object_key ∨ object_key ∉ c'.shared.store.storage := by
  by_cases hq : q = e.pid
  · subst hq
    obtain ⟨o, ho, hproc, hshared⟩ := outcome_next h
    rw [hproc] at hdel
    rcases Proc.hasDeleted_step (hc.2 e.pid) ho hdel with hold | ⟨job, rest, hl, ha, hkey⟩
    · exact Or.inl hold
    -- The call that returned has just erased the object.
    · right
      rw [hl, ha] at ho
      cases ho
      rw [hshared, ← hkey]
      exact Finset.notMem_erase _ _
  · rw [System.procs_next_of_ne h hq] at hdel
    exact Or.inl hdel

/-- A step whose put is in time leaves no orphans. -/
theorem NoOrphans.next (hn : NoOrphans c) (hc : (pipeline cfg).Holds c)
    (h : (system cfg).next c e = some c') (hput : PutInTime cfg c e) : NoOrphans c' := by
  intro object_key hmem
  -- The object was there before, or the step puts it there in time.
  have hbefore : (∃ i photo, c.shared.store.photo i = some photo ∧
      photo.storage_key = object_key) ∧ ∀ q, (c.procs q).hasDeleted ≠ some object_key := by
    have hmem' := hmem
    rw [store_next h] at hmem'
    rcases mem_storage_apply hmem' with hold | hw
    · exact hn object_key hold
    · obtain ⟨⟨photo, hphoto, hkey⟩, hdel⟩ := hput object_key hw
      exact ⟨⟨photo.id, photo, hc.1.photo_of_mem hphoto, hkey⟩, hdel⟩
  obtain ⟨⟨i, photo, hrow, rfl⟩, hdel⟩ := hbefore
  refine ⟨?_, fun q hq => ?_⟩
  · obtain ⟨photo', hrow', hkey'⟩ := row_next hc h hrow (hdel e.pid)
    exact ⟨i, photo', hrow', hkey'⟩
  · rcases hasDeleted_next hc h hq with hold | habsent
    · exact hdel q hold
    · exact habsent hmem

end Orphans

/-- In every state of a run whose puts are in time, the key of every object is that of a row. -/
theorem object_has_row {cfg : Settings} {clock : Timestamp} {cranes : List Uuid}
    {es : List (Event Action)}
    (hes : ∀ c e c', (system cfg).Passes (initial clock cranes) es c e c' → PutInTime cfg c e)
    {c : State} (hv : (system cfg).Visits (initial clock cranes) es c) :
    ∀ object_key ∈ c.shared.store.storage,
      ∃ photo ∈ c.shared.store.photos, photo.storage_key = object_key := by
  have hinit := holds_initial cfg clock cranes
  have hnone : NoOrphans (initial clock cranes) :=
    fun object_key hmem => absurd hmem (Finset.notMem_empty _)
  have horphans : NoOrphans c := hinit.visits_induction hnone
    (fun c₁ e c₂ hpass hc₁ hn₁ => hn₁.next hc₁ hpass.next (hes c₁ e c₂ hpass)) hv
  intro object_key hmem
  obtain ⟨⟨i, photo, hrow, hkey⟩, -⟩ := horphans object_key hmem
  exact ⟨photo, mem_of_row hrow, hkey⟩

/-- Whether the photo of a put still has its row. -/
def putFindsRow (cfg : Settings) (c : State) (e : Event Action) : Bool :=
  match writeOf cfg c e with
  | .putObject object_key => c.shared.store.photos.any fun photo => photo.storage_key = object_key
  | _ => true

/-- An upload whose put takes effect before anyone marks the photo. -/
theorem object_has_row_upload :
    ∃ c, (system {}).run (initial 0 [1]) (preuploadEvents 0 1 2 ++ publishEvents 0) = some c ∧
      ∃ photo ∈ c.shared.store.photos, photo.storage_key = createStorageKey 1 2 ".jpg" := by
  have hrun : ((system {}).run (initial 0 [1]) (preuploadEvents 0 1 2 ++ publishEvents 0)).map
      (fun c => decide (createStorageKey 1 2 ".jpg" ∈ c.shared.store.storage)) = some true := by
    decide +kernel
  have hall : ((system {}).trace (putFindsRow {}) (initial 0 [1])
      (preuploadEvents 0 1 2 ++ publishEvents 0)).all id = true := by decide +kernel
  obtain ⟨c, hc, hmem⟩ := Option.map_eq_some_iff.1 hrun
  have hlast : (system {}).Visits (initial 0 [1]) (preuploadEvents 0 1 2 ++ publishEvents 0) c :=
    System.Visits.last hc
  refine ⟨c, hc, object_has_row (fun c e c' hpass object_key hw => ?_) hlast _
    (of_decide_eq_true hmem)⟩
  have hrow := List.all_eq_true.1 hall _ hpass.mem_trace
  simp only [id, putFindsRow, hw, List.any_eq_true, decide_eq_true_eq] at hrow
  refine ⟨hrow, fun q hdel => ?_⟩
  -- Nobody but the request has moved, and the request is at its put.
  obtain ⟨es₁, es₂, hes, hrun₁, hnext⟩ := hpass
  have hpid : ∀ e ∈ es₁, e.pid = 0 := by
    have hpids : ∀ e ∈ preuploadEvents 0 1 2 ++ publishEvents 0, e.pid = 0 := by
      simp [preuploadEvents, publishEvents]
    intro e he
    exact hpids e (hes ▸ List.mem_append_left _ he)
  by_cases hq : q = 0
  · subst hq
    have horigin := writeOf_origin hnext
    rw [hw] at horigin
    obtain ⟨photo, result, hproc, -⟩ := horigin
    have hzero : e.pid = 0 := by
      by_contra hne
      rw [System.procs_run_of_not_mem hrun₁ fun e' he' => by rw [hpid e' he']; exact Ne.symm hne]
        at hproc
      cases hproc
    rw [hzero] at hproc
    rw [hproc] at hdel
    cases hdel
  · rw [System.procs_run_of_not_mem hrun₁ fun e' he' => by rw [hpid e' he']; exact Ne.symm hq]
      at hdel
    cases hdel

/-- An upload request that has not ended. -/
def Proc.inFlight : Proc → Bool
  | .upload u => !u.ended
  | _ => false

/-- No upload request is in flight. -/
def NoneInFlight (c : State) : Prop := ∀ p, (c.procs p).inFlight = false

/-- A slow put. The reaper marks the photo, a worker deletes the object that is not there and removes
the row, and then the put takes effect. Its request finds neither a row to finalize nor one to
abandon. -/
theorem orphaned_object : ¬ ∀ cfg c, Reachable cfg c → NoneInFlight c →
    ∀ object_key ∈ c.shared.store.storage,
      ∃ photo ∈ c.shared.store.photos, photo.storage_key = object_key := by
  intro hrow
  let es : List (Event Action) := preuploadEvents 0 1 2 ++ [⟨1, .startWorker⟩, ⟨1, .tick 5000001⟩] ++
    reapEvents 1 (jpegPhoto 0 1 2 .pendingUpload) 4 ++ [⟨1, .tick 5000002⟩] ++
    claimEvents 1 (createTask 5000001 4 .delete (createStorageKey 1 2 ".jpg")) ++ successEvents 1 ++
    [⟨0, .upload (.put .stored)⟩, ⟨0, .upload .finalize⟩, ⟨0, .upload .abandonSelect⟩]
  have hrun : ((system {}).run (initial 0 [1]) es).map (fun c =>
      (c.shared.store.photos, decide (createStorageKey 1 2 ".jpg" ∈ c.shared.store.storage),
        (c.procs 0).inFlight, (c.procs 1).inFlight)) = some ([], true, false, false) := by
    decide +kernel
  obtain ⟨c, hc, hfinal⟩ := Option.map_eq_some_iff.1 hrun
  simp only [Prod.mk.injEq, decide_eq_true_eq] at hfinal
  obtain ⟨hphotos, hstored, hrequest, hworker⟩ := hfinal
  have hflight : NoneInFlight c := by
    intro p
    by_cases h0 : p = 0
    · rw [h0, hrequest]
    by_cases h1 : p = 1
    · rw [h1, hworker]
    -- Every other process has yet to start.
    have hpids : (es.map Event.pid).all (fun q => q = 0 ∨ q = 1) = true := by decide
    have hne : ∀ e ∈ es, e.pid ≠ p := by
      intro e he
      have hpid := List.all_eq_true.1 hpids _ (List.mem_map_of_mem he)
      simp only [decide_eq_true_eq] at hpid
      omega
    rw [System.procs_run_of_not_mem hc hne]
    rfl
  obtain ⟨photo, hphoto, -⟩ := hrow {} c ⟨0, [1], es, hc⟩ hflight _ hstored
  rw [hphotos] at hphoto
  cases hphoto

end CraneTracker.Pipeline
