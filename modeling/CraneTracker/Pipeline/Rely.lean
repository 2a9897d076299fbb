import CraneTracker.Pipeline.Consistent

/-!
# What a process may rely on

`Rely q` is what a step of another process does, as the process `q` sees it: the locks of `q` stay,
and so do the rows that it has locked, the jobs, and the objects whose key has no job. The photo that
`q` inserted is at most marked for deletion or removed, without any lock, since nobody else publishes
it. `Write.Guarded.rely` proves this of every guarded write.

`Outcome.Sound` is what each step of a party must do in return: pass the guards of its write, take no
lock of another process, and keep the invariant of its own process. `Pipeline/Requests.lean` and
`Pipeline/Workers.lean` prove it of their parties.
-/

namespace CraneTracker.Pipeline

open Interleaving Table

/-! ## What the others do -/

/-- What a step of another process does, as the process `q` sees it. -/
structure Rely (q : ℕ) (db db' : Db) : Prop where
  /-- The locks of `q` stay. -/
  locks : RowLocks.Keeps q db.locks db'.locks
  /-- The clock does not go back. -/
  clock : db.store.clock ≤ db'.store.clock
  /-- An id that was issued stays with its request. -/
  issued : ∀ {i r}, db.store.issued i = some r → db'.store.issued i = some r
  /-- The count of a crane that `q` has locked does not grow. -/
  capacity : ∀ {crane_id}, db.locks.crane crane_id = some q →
    activePhotoCount db'.store.photos crane_id ≤ activePhotoCount db.store.photos crane_id
  /-- A photo that `q` has locked stays as it is. -/
  locked_photo : ∀ {i photo}, db.locks.photo i = some q → db.store.photo i = some photo →
    db'.store.photo i = some photo
  /-- The photo that `q` inserted stays as it is, is marked, or is removed. -/
  own_photo : ∀ {i photo}, db.store.issued i = some q → db'.store.photo i = some photo →
    db.store.photo i = some photo ∨
      ∃ r, db.store.photo i = some r ∧ photo = markPendingDelete r
  /-- A photo whose id was issued before was there before, with its key. -/
  old_photo : ∀ {i photo}, (db.store.issued i).isSome = true → db'.store.photo i = some photo →
    ∃ r, db.store.photo i = some r ∧ photo.storage_key = r.storage_key
  /-- A job that `q` has locked stays as it is. -/
  locked_job : ∀ {i job}, db.locks.job i = some q → db.store.job i = some job →
    db'.store.job i = some job
  /-- Jobs stay, with their keys. -/
  job : ∀ {i object_key}, db.store.HasJob i object_key → db'.store.HasJob i object_key
  /-- An object stays in storage unless a job has its key. -/
  storage : ∀ {object_key}, object_key ∈ db.store.storage → object_key ∈ db'.store.storage ∨
    ∃ job ∈ db.store.jobs, job.storage_key = object_key

section Rely

variable {cfg : Settings} {p q : ℕ} {db : Db} {w : Write}

/-- A lock that `q` holds is not held by another process. -/
theorem ne_holder {κ : Type} {l : Locks κ} {k : κ} (hq : q ≠ p) (h : l k = some q) :
    l k ≠ some p := by
  rw [h]
  simpa using hq

/-- The photos of a process are marked or removed by others, and nothing else. -/
theorem own_photo_apply (hs : db.store.Consistent) (hw : w.Guarded p db) (hq : q ≠ p) {i : Uuid}
    {photo : CranePhoto} (hown : db.store.issued i = some q)
    (h : (db.store.apply cfg p w).photo i = some photo) :
    db.store.photo i = some photo ∨
      ∃ r, db.store.photo i = some r ∧ photo = markPendingDelete r := by
  have hstep := photo_apply cfg hs.photo_unique hw i
  rw [h] at hstep
  generalize hi : db.store.photo i = r at hstep
  cases hstep with
  | same => exact Or.inl rfl
  | inserted _ _ _ hnew =>
    rw [hnew] at hown
    exact absurd hown (by simp)
  -- Only the request that inserted a photo publishes it.
  | finalized _ _ _ hown' => exact absurd hown' (ne_holder hq hown)
  | marked photo => exact Or.inr ⟨photo, rfl, rfl⟩

/-- A photo row after a guarded write whose id was issued before was there before. -/
theorem old_photo_apply (hs : db.store.Consistent) (hw : w.Guarded p db) {i : Uuid}
    {photo : CranePhoto} (hissued : (db.store.issued i).isSome = true)
    (h : (db.store.apply cfg p w).photo i = some photo) :
    ∃ r, db.store.photo i = some r ∧ photo.storage_key = r.storage_key := by
  have hstep := photo_apply cfg hs.photo_unique hw i
  rw [h] at hstep
  generalize hi : db.store.photo i = r at hstep
  cases hstep with
  | same => exact ⟨photo, rfl, rfl⟩
  | inserted _ _ _ hnew =>
    rw [hnew] at hissued
    exact absurd hissued (by simp)
  | finalized photo => exact ⟨photo, rfl, rfl⟩
  | marked photo => exact ⟨photo, rfl, rfl⟩

/-- A guarded write does not change a photo that another process has locked. -/
theorem locked_photo_apply (hs : db.store.Consistent) (hw : w.Guarded p db) (hq : q ≠ p)
    {i : Uuid} {photo : CranePhoto} (hlock : db.locks.photo i = some q)
    (h : db.store.photo i = some photo) :
    (db.store.apply cfg p w).photo i = some photo := by
  have hstep := photo_apply cfg hs.photo_unique hw i
  rw [h] at hstep
  generalize hi : (db.store.apply cfg p w).photo i = r at hstep
  cases hstep with
  | same => rfl
  -- Every other change is made under the lock of the row, which `q` holds.
  | finalized _ _ hlock' => exact absurd hlock' (ne_holder hq hlock)
  | marked _ _ _ _ _ _ hlock' => exact absurd hlock' (ne_holder hq hlock)
  | removed _ _ _ _ _ hlock' => exact absurd hlock' (ne_holder hq hlock)

/-- A guarded write does not change a job that another process has locked. -/
theorem locked_job_apply (hw : w.Guarded p db) (hq : q ≠ p) {i : Uuid} {job : OutboxJob}
    (hlock : db.locks.job i = some q) (h : db.store.job i = some job) :
    (db.store.apply cfg p w).job i = some job := by
  have hstep := job_apply cfg hw i
  rw [h] at hstep
  generalize hi : (db.store.apply cfg p w).job i = r at hstep
  cases hstep with
  | same => rfl
  | claimed _ _ _ _ _ hlock' => exact absurd hlock' (ne_holder hq hlock)
  | failed _ _ _ _ _ _ _ hlock' => exact absurd hlock' (ne_holder hq hlock)
  | succeeded _ _ _ _ _ _ hlock' => exact absurd hlock' (ne_holder hq hlock)

/-- A job stays through a guarded write, with its key. -/
theorem hasJob_apply (cfg : Settings) (hw : w.Guarded p db) {i : Uuid} {object_key : String}
    (h : db.store.HasJob i object_key) : (db.store.apply cfg p w).HasJob i object_key := by
  obtain ⟨job, hjob, hkey⟩ := h
  obtain ⟨job', hjob', hkey', -⟩ := Store.Consistent.job_survives cfg hw hjob
  exact ⟨job', hjob', hkey'.trans hkey⟩

/-- A guarded write, with a change of locks that takes none of `q`, is what `q` relies on. -/
theorem Write.Guarded.rely (hs : db.store.Consistent) (hw : w.Guarded p db) (hq : q ≠ p)
    {locks : RowLocks} (hlocks : RowLocks.Keeps q db.locks locks) :
    Rely q db ⟨db.store.apply cfg p w, locks⟩ where
  locks := hlocks
  clock := clock_apply hw
  issued := issued_apply hw
  capacity hlock := by
    rcases Store.Consistent.activePhotoCount_apply cfg hs hw _ with h | ⟨hlock', -⟩
    · exact h
    · exact absurd hlock' (ne_holder hq hlock)
  locked_photo := locked_photo_apply hs hw hq
  own_photo := own_photo_apply hs hw hq
  old_photo := old_photo_apply hs hw
  locked_job := locked_job_apply hw hq
  job := hasJob_apply cfg hw
  storage := storage_apply cfg hw

end Rely

/-- A step of the process `p` passes the guards of its write, takes no lock of another process, and
keeps the invariant of `p`. -/
structure Outcome.Sound {π : Type} (cfg : Settings) (p : ℕ) (db : Db) (inv : Db → π → Prop)
    (o : Outcome π) : Prop where
  guarded : o.write.Guarded p db
  keeps : ∀ q, q ≠ p → RowLocks.Keeps q db.locks o.locks
  inv : inv ⟨db.store.apply cfg p o.write, o.locks⟩ o.proc

section Sound

variable {cfg : Settings} {p : ℕ} {db : Db}

/-- An outcome that writes nothing and ends the transaction is sound. -/
theorem Outcome.Sound.release {π : Type} {inv : Db → π → Prop} {proc : π}
    (h : inv ⟨db.store, db.locks.release p⟩ proc) :
    Outcome.Sound cfg p db inv ⟨.none, db.locks.release p, proc⟩ :=
  ⟨trivial, fun _ hq => .release hq _, h⟩

/-- An outcome that writes nothing and keeps the locks is sound. -/
theorem Outcome.Sound.pass {π : Type} {inv : Db → π → Prop} {proc : π} (h : inv db proc) :
    Outcome.Sound cfg p db inv ⟨.none, db.locks, proc⟩ :=
  ⟨trivial, fun q _ => .refl q _, h⟩

end Sound

end CraneTracker.Pipeline
