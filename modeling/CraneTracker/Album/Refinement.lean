import CraneTracker.Album.Spec
import CraneTracker.Pipeline.Reports

/-!
# The pipeline makes an album

The committed state, as the album that it stands for (`album`): a crane is an owner, a photo that is
pending or published takes a place, and a report counts while its photo is published. Each event makes the
operations that its write makes, or, when it turns a request away, the operation that is refused
(`operations`). `run_operations` shows that it is a run of the album over them, whatever the other
processes have done since the request began, and `album_refinement` that a run of the pipeline is one.
-/

namespace CraneTracker.Pipeline

open Interleaving Table

/-! ## The abstraction -/

/-- The place that a photo takes. -/
def placeOf (photo : CranePhoto) : Option (Album.Place Uuid) :=
  match photo.status with
  | .active => some ⟨photo.crane_id, true⟩
  | .pendingUpload => some ⟨photo.crane_id, false⟩
  | .pendingDelete => none

/-- The album that the committed state stands for. -/
def album (s : Store) : Album.State Uuid Uuid String where
  owners := {x | s.hasCrane x = true}
  places i := (s.photo i).bind placeOf
  reports := {x | (∃ photo, s.photo x.1 = some photo ∧ photo.status = .active) ∧
    ∃ r ∈ s.reports, r.photo_id = x.1 ∧ r.reporter_ip_hash = x.2}
  used := {i | (s.issued i).isSome = true}

/-- An operation of the album, and its reply. -/
abbrev Operation := Album.Op Uuid Uuid String × Album.Reply

/-- The operations that a write makes. -/
def Write.operations (s : Store) : Write → List Operation
  | .createCrane id => [(.addOwner id, .done)]
  | .preuploadCranePhoto photo => [(.reserve photo.crane_id, .done)]
  | .finalizeCranePhoto photo_id => [(.publish photo_id, .done)]
  -- A photo that is marked a second time has no place any more.
  | .createDeleteCraneJobs _ _ rows => (rows.map fun x => x.1.id).filterMap fun i =>
    ((album s).places i).map (Album.freeing i)
  | .reportCranePhoto report => ((s.photo report.photo_id).map fun photo =>
    (.report photo.crane_id report.photo_id report.reporter_ip_hash, .done)).toList
  | _ => []

/-- The operation that is refused to a process by a step. -/
def Proc.rejected (s : Store) : Proc → Action → List Operation
  | .upload (.lockCrane _ prepared), .upload .lockCrane =>
    if s.hasCrane prepared.crane_id then [] else [(.reserve prepared.crane_id, .noOwner)]
  | .upload (.count _ prepared), .upload .count =>
    if activePhotoCount s.photos prepared.crane_id < maxPhotosPerCrane then []
    else [(.reserve prepared.crane_id, .full)]
  | .adminDelete (.lock _ crane_id photo_id), .adminDelete .lock =>
    if (s.photo photo_id).any fun r => r.crane_id = crane_id && r.status = .active then []
    else [(.delete crane_id photo_id, .noPhoto)]
  | .report (.lock _ crane_id photo_id reporter_ip_hash), .report .lock =>
    if (s.photo photo_id).any fun r => r.crane_id = crane_id && r.status = .active then []
    else [(.report crane_id photo_id reporter_ip_hash, .noPhoto)]
  | .report (.insert _ photo_id reporter_ip_hash), .report .insert =>
    if s.reports.any fun r => r.photo_id = photo_id && r.reporter_ip_hash = reporter_ip_hash then
      ((s.photo photo_id).map fun photo =>
        (.report photo.crane_id photo_id reporter_ip_hash, .duplicate)).toList
    else []
  | _, _ => []

/-- The operations that an event makes, with the process that makes them. -/
def operations (cfg : Settings) (c : State) (e : Event Action) : List (ℕ × Operation) :=
  (Proc.rejected c.shared.store (c.procs e.pid) e.act ++
    (writeOf cfg c e).operations c.shared.store).map fun x => (e.pid, x)

/-- The album with three places for each owner. -/
abbrev albumMachine : Machine (Album.State Uuid Uuid String) Operation :=
  Album.machine Uuid Uuid String maxPhotosPerCrane

section Abstraction

variable {cfg : Settings} {p : ℕ} {s s' : Store} {i x : Uuid} {photo : CranePhoto}

/-- A place is that of a pending or of a published photo. -/
theorem place_eq_some {place : Album.Place Uuid} : (album s).places i = some place ↔
    ∃ photo, s.photo i = some photo ∧ photo.crane_id = place.owner ∧
      photo.status = if place.published then .active else .pendingUpload := by
  show (s.photo i).bind placeOf = some place ↔ _
  rw [Option.bind_eq_some_iff]
  refine exists_congr fun photo => and_congr_right fun _ => ?_
  obtain ⟨owner, published⟩ := place
  unfold placeOf
  cases photo.status <;> cases published <;> simp

/-- A photo is published in the album when it is published under its crane. -/
theorem published_iff : (album s).Published x i ↔
    ∃ photo, s.photo i = some photo ∧ photo.crane_id = x ∧ photo.status = .active := place_eq_some

/-- The places that a crane has taken are those that `ensure_crane_photo_capacity` counts. -/
theorem taken_album (hs : s.Consistent) : (album s).taken x = activePhotoCount s.photos x := by
  have hset : {i | ∃ place, (album s).places i = some place ∧ place.owner = x} =
      ↑((s.photos.filter (CranePhoto.countsFor x)).map CranePhoto.id).toFinset := by
    ext i
    rw [Finset.mem_coe, List.mem_toFinset, List.mem_map, Set.mem_ofPred_eq]
    constructor
    · rintro ⟨place, hplace, rfl⟩
      obtain ⟨photo, hrow, hcrane, hstatus⟩ := place_eq_some.1 hplace
      refine ⟨photo, List.mem_filter.2 ⟨mem_of_row hrow, ?_⟩, key_of_row hrow⟩
      unfold CranePhoto.countsFor
      rw [hstatus, hcrane]
      cases place.published <;> simp
    · rintro ⟨photo, hphoto, rfl⟩
      obtain ⟨hmem, hcounts⟩ := List.mem_filter.1 hphoto
      unfold CranePhoto.countsFor at hcounts
      simp only [Bool.and_eq_true, Bool.or_eq_true, decide_eq_true_eq] at hcounts
      refine ⟨⟨x, decide (photo.status = .active)⟩, place_eq_some.2
        ⟨photo, hs.photo_of_mem hmem, hcounts.1, ?_⟩, rfl⟩
      rcases hcounts.2 with hstatus | hstatus <;> simp [hstatus]
  have hnodup : ((s.photos.filter (CranePhoto.countsFor x)).map CranePhoto.id).Nodup :=
    hs.photo_unique.sublist (List.filter_sublist.map CranePhoto.id)
  rw [Album.State.taken, hset, Set.ncard_coe_finset, List.toFinset_card_of_nodup hnodup, List.length_map,
    activePhotoCount, List.countP_eq_length_filter]

/-- The album is that of the cranes, of the places, of the reports of the published photos, and of the ids
that have been issued. -/
theorem album_ext {a : Album.State Uuid Uuid String}
    (howners : ∀ x, s.hasCrane x = true ↔ x ∈ a.owners)
    (hplaces : ∀ i, (s.photo i).bind placeOf = a.places i)
    (hreports : ∀ i h, ((∃ photo, s.photo i = some photo ∧ photo.status = .active) ∧
      ∃ r ∈ s.reports, r.photo_id = i ∧ r.reporter_ip_hash = h) ↔ (i, h) ∈ a.reports)
    (hused : ∀ i, (s.issued i).isSome = true ↔ i ∈ a.used) : album s = a :=
  Album.State.ext (Set.ext howners) (funext hplaces) (Set.ext fun x => hreports x.1 x.2)
    (Set.ext hused)

/-- A report of the album is one of a photo that has a place. -/
theorem place_of_report {y : Uuid × String} (h : y ∈ (album s).reports) :
    (album s).places y.1 ≠ none := by
  obtain ⟨⟨photo, hrow, hstatus⟩, -⟩ := h
  have hplace : (album s).places y.1 = some ⟨photo.crane_id, true⟩ :=
    place_eq_some.2 ⟨photo, hrow, rfl, hstatus⟩
  rw [hplace]
  exact Option.some_ne_none _

end Abstraction

/-! ## The steps -/

/-- What the album needs besides `pipeline`: an upload that is under way has a crane, and no pending photo
has been reported. -/
structure Known (c : State) : Prop where
  crane : ∀ {p now prepared}, c.procs p = .upload (.count now prepared) ∨
    c.procs p = .upload (.insert now prepared) → c.shared.store.hasCrane prepared.crane_id = true
  issued : ∀ r ∈ c.shared.store.reports, (c.shared.store.issued r.photo_id).isSome = true
  reported : ∀ r ∈ c.shared.store.reports, ∀ photo, c.shared.store.photo r.photo_id = some photo →
    photo.status ≠ .pendingUpload

section Known

variable {cfg : Settings} {c c' : State} {e : Event Action}

/-- Cranes stay. -/
theorem hasCrane_apply {p : ℕ} {s : Store} {w : Write} {x : Uuid} (h : s.hasCrane x = true) :
    (s.apply cfg p w).hasCrane x = true := by
  cases w with
  | createCrane id =>
    unfold Store.hasCrane at h ⊢
    rw [decide_eq_true_eq] at h ⊢
    exact List.mem_append_left _ h
  | none | tick | preuploadCranePhoto | finalizeCranePhoto | createDeleteCraneJobs | claimJobs
  | captureFailure | captureSuccess | reportCranePhoto | putObject | deleteObject => exact h

/-- An upload counts the photos of a crane that it has found, and inserts one into it. -/
theorem Proc.crane_step {p : ℕ} {db : Db} {l : Proc} {a : Action} {o : Outcome Proc}
    (h : l.step cfg p db a = some o) {now : Timestamp} {prepared : PreparedUpload}
    (ho : o.proc = .upload (.count now prepared) ∨ o.proc = .upload (.insert now prepared)) :
    db.store.hasCrane prepared.crane_id = true ∨ l = .upload (.count now prepared) ∨
      l = .upload (.insert now prepared) := by
  cases Proc.step_cases h with
  | tick => exact Or.inr ho
  | createCrane => exact Or.inr ho
  | upload u a o ho' =>
    cases Upload.step_cases ho' with
    | lockCrane now' prepared' hcrane =>
      rcases ho with ho | ho
      · cases ho
        exact Or.inl hcrane
      · cases ho
    | count =>
      rcases ho with ho | ho
      · cases ho
      · cases ho
        exact Or.inr (Or.inl rfl)
    | missingCrane | full | insert | put | storageError | otherError | finalize | lost | finalizeCommit
    | abandonSelect | abandoned | abandonFlush | abandonRaised | abandonCommit | dbError | finalizeError
    | abandonError | stop => rcases ho with ho | ho <;> cases ho
  | refuseUpload | startUpload | startAdminDelete | startReport | startWorker | adminDelete | report
  | worker => rcases ho with ho | ho <;> cases ho

/-- The reports that an event leaves are old ones, or one of a published photo. -/
theorem report_cases (hc : (pipeline cfg).Holds c) (hn : (system cfg).next c e = some c')
    {r : PhotoReport} (hr : r ∈ c'.shared.store.reports) : r ∈ c.shared.store.reports ∨
      ∃ photo, c'.shared.store.photo r.photo_id = some photo ∧ photo.status = .active := by
  rcases reports_next hc hn with ⟨hsub, -⟩ | ⟨report, hw, heq⟩
  · exact Or.inl (hsub.subset hr)
  · rw [heq, List.mem_append, List.mem_singleton] at hr
    refine hr.imp_right ?_
    rintro rfl
    have hinv := hc.2 e.pid
    rw [(of_reportCranePhoto hn hw).1] at hinv
    obtain ⟨-, photo, hrow, hstatus⟩ := hinv
    refine ⟨photo, ?_, hstatus⟩
    rw [store_next hn, hw]
    exact hrow

/-- An event keeps what the album needs. -/
theorem Known.next (hk : Known c) (hc : (pipeline cfg).Holds c)
    (hn : (system cfg).next c e = some c') : Known c' where
  crane := by
    intro p now prepared hp
    rw [store_next hn]
    by_cases hpid : p = e.pid
    · subst hpid
      obtain ⟨o, ho, hproc, -⟩ := outcome_next hn
      rw [hproc] at hp
      rcases Proc.crane_step ho hp with hcrane | hold
      · exact hasCrane_apply hcrane
      · exact hasCrane_apply (hk.crane hold)
    · rw [System.procs_next_of_ne hn hpid] at hp
      exact hasCrane_apply (hk.crane hp)
  issued r hr := by
    rcases report_cases hc hn hr with hold | ⟨photo, hrow, -⟩
    · rw [store_next hn]
      exact Store.Consistent.isSome_issued_apply (guarded_writeOf hc hn) (hk.issued r hold)
    · exact ((hc.next hn).1.photo_key hrow).1
  reported r hr photo hrow := by
    rcases report_cases hc hn hr with hold | ⟨photo', hrow', hstatus⟩
    · have hstep := photo_next hc hn r.photo_id
      rw [hrow] at hstep
      generalize hbefore : c.shared.store.photo r.photo_id = before at hstep
      cases hstep with
      | same => exact hk.reported r hold photo hbefore
      | inserted _ _ _ hnew =>
        have hissued := hk.issued r hold
        rw [hnew] at hissued
        cases hissued
      | finalized => simp [finalizeCranePhoto]
      | marked => simp [markPendingDelete]
    · rw [hrow] at hrow'
      rw [Option.some.inj hrow', hstatus]
      simp

/-- What the album needs holds in every state of a run. -/
theorem known_run {clock : Timestamp} {cranes : List Uuid} {es : List (Event Action)}
    (h : (system cfg).run (initial clock cranes) es = some c) : Known c := by
  have hinit := holds_initial cfg clock cranes
  refine hinit.visits_induction (J := Known) ?_ (fun _ _ _ hpass hc hk => hk.next hc hpass.next)
    (System.Visits.last h)
  constructor
  · intro p now prepared hp
    rcases hp with hp | hp <;> cases hp
  · intro r hr
    cases hr
  · intro r hr
    cases hr

end Known

section Apply

variable {cfg : Settings} {p : ℕ} {db : Db} {i : Uuid}

/-- A photo that is inserted reserves a place. -/
theorem step_preuploadCranePhoto {photo : CranePhoto} (hs : db.store.Consistent)
    (hw : (Write.preuploadCranePhoto photo).Guarded p db)
    (hcrane : db.store.hasCrane photo.crane_id = true) :
    albumMachine (album db.store) (.reserve photo.crane_id, .done)
      (album (db.store.apply cfg p (.preuploadCranePhoto photo))) := by
  obtain ⟨hnew, hstatus, -, -, hroom⟩ := hw
  have hnone : db.store.photo photo.id = none := by
    cases hrow : db.store.photo photo.id with
    | none => rfl
    | some r =>
      have hissued := (hs.photo_key hrow).1
      rw [hnew] at hissued
      cases hissued
  have halbum : album (db.store.apply cfg p (.preuploadCranePhoto photo)) =
      (album db.store).put photo.id ⟨photo.crane_id, false⟩ := by
    refine album_ext (fun _ => Iff.rfl) (fun j => ?_) (fun j h => ?_) fun j => ?_
    · rw [Store.photo_preuploadCranePhoto]
      show _ = Function.update (album db.store).places photo.id _ j
      by_cases hj : photo.id = j
      · subst hj
        rw [hnone, Option.none_or, if_pos rfl, Option.bind_some, Function.update_self, placeOf, hstatus]
      · rw [if_neg hj, Option.or_none, Function.update_of_ne (Ne.symm hj)]
        rfl
    · rw [Store.photo_preuploadCranePhoto]
      refine and_congr_left fun _ => exists_congr fun r => ?_
      by_cases hj : photo.id = j
      · subst hj
        rw [hnone, Option.none_or, if_pos rfl]
        refine iff_of_false ?_ (by simp)
        rintro ⟨heq, hactive⟩
        obtain rfl := Option.some.inj heq
        rw [hstatus] at hactive
        cases hactive
      · rw [if_neg hj, Option.or_none]
    · show (if j = photo.id then some p else db.store.issued j).isSome = true ↔
        j = photo.id ∨ (db.store.issued j).isSome = true
      split_ifs with hj <;> simp [hj]
  rw [halbum]
  refine .reserve _ _ _ hcrane ?_ ?_
  · rw [taken_album hs]
    exact hroom
  · show ¬ (db.store.issued photo.id).isSome = true
    rw [hnew]
    exact Bool.false_ne_true

/-- A photo that is finalized is published. -/
theorem step_finalizeCranePhoto (hw : (Write.finalizeCranePhoto i).Guarded p db)
    (hreported : ∀ r ∈ db.store.reports, ∀ photo, db.store.photo r.photo_id = some photo →
      photo.status ≠ .pendingUpload) :
    albumMachine (album db.store) (.publish i, .done)
      (album (db.store.apply cfg p (.finalizeCranePhoto i))) := by
  obtain ⟨-, hown, photo, hrow, hstatus, -⟩ := hw
  have hrows : ∀ j, (db.store.photo j).map (fun r => if r.id = i then finalizeCranePhoto r else r) =
      if j = i then (db.store.photo j).map finalizeCranePhoto else db.store.photo j :=
    fun j => map_row_ite
  have halbum : album (db.store.apply cfg p (.finalizeCranePhoto i)) =
      (album db.store).put i ⟨photo.crane_id, true⟩ := by
    refine album_ext (fun _ => Iff.rfl) (fun j => ?_) (fun j h => ?_) fun j => ?_
    · rw [Store.photo_finalizeCranePhoto, hrows]
      show _ = Function.update (album db.store).places i _ j
      split_ifs with hj
      · subst hj
        rw [hrow, Option.map_some, Option.bind_some, Function.update_self]
        rfl
      · rw [Function.update_of_ne hj]
        rfl
    · rw [Store.photo_finalizeCranePhoto, hrows]
      split_ifs with hj
      · subst hj
        -- Nobody has reported the photo while it was pending.
        refine iff_of_false ?_ ?_
        · rintro ⟨-, r, hr, rfl, -⟩
          exact hreported r hr photo hrow hstatus
        · rintro ⟨⟨r, hr, hactive⟩, -⟩
          rw [hrow] at hr
          rw [← Option.some.inj hr, hstatus] at hactive
          cases hactive
      · rfl
    · refine ⟨Or.inr, ?_⟩
      rintro (rfl | hissued)
      · show (db.store.issued j).isSome = true
        rw [hown]
        rfl
      · exact hissued
  rw [halbum]
  exact .publish _ _ _ (place_eq_some.2 ⟨photo, hrow, rfl, hstatus⟩)

/-- Photos that are marked for deletion free their places. -/
theorem run_createDeleteCraneJobs {deleter : Deleter} {now : Timestamp}
    {rows : List (CranePhoto × Uuid)}
    (hw : (Write.createDeleteCraneJobs deleter now rows).Guarded p db) :
    albumMachine.Run (album db.store)
      ((Write.createDeleteCraneJobs deleter now rows).operations db.store)
      (album (db.store.apply cfg p (.createDeleteCraneJobs deleter now rows))) := by
  obtain ⟨-, hnodup, -⟩ := hw
  have halbum : album (db.store.apply cfg p (.createDeleteCraneJobs deleter now rows)) =
      (album db.store).removeAll (rows.map fun x => x.1.id) := by
    have hrow : ∀ j, (db.store.photo j).map (fun r =>
        if r.id ∈ rows.map fun x => x.1.id then markPendingDelete r else r) =
          if j ∈ rows.map fun x => x.1.id then (db.store.photo j).map markPendingDelete
          else db.store.photo j := by
      intro j
      cases hj : db.store.photo j with
      | none => simp
      | some r =>
        obtain rfl : r.id = j := key_of_row hj
        rw [Option.map_some, Option.map_some]
        split_ifs <;> rfl
    refine album_ext (fun _ => Iff.rfl) (fun j => ?_) (fun j h => ?_) fun _ => Iff.rfl
    · rw [Store.photo_createDeleteCraneJobs, hrow]
      show _ = if j ∈ rows.map fun x => x.1.id then none else (db.store.photo j).bind placeOf
      split_ifs
      · cases db.store.photo j <;> rfl
      · rfl
    · rw [Store.photo_createDeleteCraneJobs, hrow]
      show _ ↔ (_ ∧ _) ∧ j ∉ rows.map fun x => x.1.id
      split_ifs with hj
      · refine iff_of_false ?_ fun h => h.2 hj
        rintro ⟨⟨r, hr, hactive⟩, -⟩
        obtain ⟨r', -, rfl⟩ := Option.map_eq_some_iff.1 hr
        cases hactive
      · exact (and_iff_left hj).symm
  rw [halbum]
  exact Album.run_removeAll hnodup fun _ hx => place_of_report hx

/-- The photos that a worker removes are no part of the album any more. -/
theorem album_captureSuccess {now : Timestamp} {read : OutboxJob} {photo_ids : List Uuid}
    (hs : db.store.Consistent) (hw : (Write.captureSuccess now read photo_ids).Guarded p db) :
    album (db.store.apply cfg p (.captureSuccess now read photo_ids)) = album db.store := by
  obtain ⟨-, ⟨job, hjob, hkey⟩, hdel⟩ := hw
  have hmarked : ∀ {j r}, j ∈ photo_ids → db.store.photo j = some r → r.status = .pendingDelete := by
    intro j r hj hr
    obtain ⟨photo, hrow, hphoto⟩ := hdel.found hj
    rw [hr] at hrow
    obtain rfl := Option.some.inj hrow
    exact hs.job_photo hjob hr (hphoto.trans hkey.symm)
  have hrow : ∀ j, (db.store.photo j).filter (fun r => !decide (r.id ∈ photo_ids)) =
      if j ∈ photo_ids then none else db.store.photo j := by
    intro j
    cases hj : db.store.photo j with
    | none => simp
    | some r =>
      obtain rfl : r.id = j := key_of_row hj
      rw [Option.filter_some]
      by_cases hmem : r.id ∈ photo_ids <;> simp [hmem]
  refine album_ext (fun _ => Iff.rfl) (fun j => ?_) (fun j h => ?_) fun _ => Iff.rfl
  · rw [Store.photo_captureSuccess hs.photo_unique, hrow]
    show _ = (db.store.photo j).bind placeOf
    split_ifs with hj
    · cases hr : db.store.photo j with
      | none => rfl
      | some r => rw [Option.bind_some, placeOf, hmarked hj hr, Option.bind_none]
    · rfl
  · rw [Store.photo_captureSuccess hs.photo_unique, hrow]
    show _ ↔ (∃ photo, db.store.photo j = some photo ∧ photo.status = .active) ∧
      ∃ r ∈ db.store.reports, r.photo_id = j ∧ r.reporter_ip_hash = h
    split_ifs with hj
    · refine iff_of_false (fun h => ?_) ?_
      · obtain ⟨⟨r, hr, -⟩, -⟩ := h
        cases hr
      · rintro ⟨⟨r, hr, hactive⟩, -⟩
        rw [hmarked hj hr] at hactive
        cases hactive
    -- The reports of the other photos stay.
    · refine and_congr_right fun _ => ⟨?_, ?_⟩
      · rintro ⟨r, hr, hrest⟩
        exact ⟨r, (mem_deleteWhere.1 hr).1, hrest⟩
      · rintro ⟨r, hr, rfl, hhash⟩
        exact ⟨r, mem_deleteWhere.2 ⟨hr, by simpa using hj⟩, rfl, hhash⟩

/-- A report of a published photo is one of the album. -/
theorem step_reportCranePhoto {report : PhotoReport} {photo : CranePhoto}
    (hrow : db.store.photo report.photo_id = some photo) (hstatus : photo.status = .active)
    (hnew : ∀ r ∈ db.store.reports, r.photo_id = report.photo_id →
      r.reporter_ip_hash ≠ report.reporter_ip_hash) :
    albumMachine (album db.store)
      (.report photo.crane_id report.photo_id report.reporter_ip_hash, .done)
      (album (db.store.apply cfg p (.reportCranePhoto report))) := by
  have halbum : album (db.store.apply cfg p (.reportCranePhoto report)) =
      { album db.store with
        reports := insert (report.photo_id, report.reporter_ip_hash) (album db.store).reports } := by
    refine album_ext (fun _ => Iff.rfl) (fun _ => rfl) (fun j h => ?_) fun _ => Iff.rfl
    rw [Set.mem_insert_iff]
    constructor
    · rintro ⟨hactive, r, hr, rfl, rfl⟩
      rcases List.mem_append.1 hr with hold | hnew
      · exact Or.inr ⟨hactive, r, hold, rfl, rfl⟩
      · rw [List.mem_singleton.1 hnew]
        exact Or.inl rfl
    · rintro (heq | ⟨hactive, r, hr, hrest⟩)
      · obtain ⟨rfl, rfl⟩ := Prod.mk.inj heq
        exact ⟨⟨photo, hrow, hstatus⟩, report, List.mem_append_right _ (List.mem_singleton_self _), rfl, rfl⟩
      · exact ⟨hactive, r, List.mem_append_left _ hr, hrest⟩
  rw [halbum]
  refine .report _ _ _ _ (published_iff.2 ⟨photo, hrow, rfl, hstatus⟩) ?_
  rintro ⟨-, r, hr, hphoto, hhash⟩
  exact hnew r hr hphoto hhash

end Apply

/-! ## The events -/

section Event

variable {cfg : Settings}

/-- The clock and the creation of a crane turn nobody away. -/
theorem rejected_eq_nil (s : Store) (l : Proc) {a : Action}
    (ha : (∃ now, a = .tick now) ∨ ∃ id, a = .createCrane id) : Proc.rejected s l a = [] := by
  cases l with
  | upload u => rcases ha with ⟨now, rfl⟩ | ⟨id, rfl⟩ <;> cases u <;> rfl
  | adminDelete d => rcases ha with ⟨now, rfl⟩ | ⟨id, rfl⟩ <;> cases d <;> rfl
  | report r => rcases ha with ⟨now, rfl⟩ | ⟨id, rfl⟩ <;> cases r <;> rfl
  | free | worker => rfl

/-- A step that refuses nothing is a run of the album without operations. -/
theorem run_of_rejected_eq_nil {db : Db} {l : Proc} {a : Action}
    (hnil : Proc.rejected db.store l a = []) :
    albumMachine.Run (album db.store) (Proc.rejected db.store l a) (album db.store) := by
  rw [hnil]
  exact .nil _

/-- The check of a photo that the locking queries make is that of the album. -/
theorem published_iff_any {s : Store} {crane_id photo_id : Uuid} :
    (album s).Published crane_id photo_id ↔
      ((s.photo photo_id).any fun r => r.crane_id = crane_id && r.status = .active) = true := by
  rw [published_iff, Option.any_eq_true]
  simp only [Bool.and_eq_true, decide_eq_true_eq]

section Rejected

variable {p : ℕ} {db : Db}

/-- A step that turns an upload away is a step of the album that refuses it a place. -/
theorem Upload.run_rejected (hs : db.store.Consistent) {u : Upload} {a : UploadAction}
    {o : Outcome Upload} (h : u.step p db a = some o) :
    albumMachine.Run (album db.store) (Proc.rejected db.store (.upload u) (.upload a))
      (album db.store) ∧
      (Proc.rejected db.store (.upload u) (.upload a) = [] ∨ o.write = .none) := by
  cases Upload.step_cases h with
  | lockCrane now prepared | missingCrane now prepared =>
    refine ⟨?_, Or.inr rfl⟩
    unfold Proc.rejected
    dsimp only
    by_cases hfound : db.store.hasCrane prepared.crane_id = true
    · rw [if_pos hfound]
      exact .nil _
    · rw [if_neg hfound]
      exact .single (.noOwner _ _ hfound)
  | count | full =>
    refine ⟨?_, Or.inr rfl⟩
    unfold Proc.rejected
    dsimp only
    split_ifs with hroom
    · exact .nil _
    · refine .single (.full _ _ ?_)
      rw [taken_album hs]
      exact not_lt.1 hroom
  | dbError u now prepared hu =>
    have hnil : Proc.rejected db.store (.upload u) (.upload .dbError) = [] := by
      rcases hu with rfl | rfl | rfl <;> rfl
    exact ⟨run_of_rejected_eq_nil hnil, Or.inl hnil⟩
  | stop u =>
    have hnil : Proc.rejected db.store (.upload u) (.upload .stop) = [] := by cases u <;> rfl
    exact ⟨run_of_rejected_eq_nil hnil, Or.inl hnil⟩
  | finalizeError u photo hu =>
    have hnil : Proc.rejected db.store (.upload u) (.upload .dbError) = [] := by
      rcases hu with rfl | rfl <;> rfl
    exact ⟨run_of_rejected_eq_nil hnil, Or.inl hnil⟩
  | abandonError u now photo answer hu =>
    have hnil : Proc.rejected db.store (.upload u) (.upload .dbError) = [] := by
      rcases hu with rfl | rfl | rfl <;> rfl
    exact ⟨run_of_rejected_eq_nil hnil, Or.inl hnil⟩
  | insert | put | storageError | otherError | finalize | lost | finalizeCommit | abandonSelect
  | abandoned | abandonFlush | abandonRaised | abandonCommit => exact ⟨.nil _, Or.inl rfl⟩

/-- A step that turns a deletion away is a step of the album that refuses it. -/
theorem AdminDelete.run_rejected {d : AdminDelete} {a : AdminDeleteAction} {o : Outcome AdminDelete}
    (h : d.step p db a = some o) :
    albumMachine.Run (album db.store) (Proc.rejected db.store (.adminDelete d) (.adminDelete a))
      (album db.store) ∧
      (Proc.rejected db.store (.adminDelete d) (.adminDelete a) = [] ∨ o.write = .none) := by
  cases AdminDelete.step_cases h with
  | lock | missing =>
    refine ⟨?_, Or.inr rfl⟩
    unfold Proc.rejected
    dsimp only
    split_ifs with hfound
    · exact .nil _
    · exact .single (.notDeleted _ _ _ fun hpub => hfound (published_iff_any.1 hpub))
  | commit => exact ⟨.nil _, Or.inl rfl⟩
  | dbError d =>
    have hnil : Proc.rejected db.store (.adminDelete d) (.adminDelete .dbError) = [] := by
      cases d <;> rfl
    exact ⟨run_of_rejected_eq_nil hnil, Or.inl hnil⟩
  | stop d =>
    have hnil : Proc.rejected db.store (.adminDelete d) (.adminDelete .stop) = [] := by
      cases d <;> rfl
    exact ⟨run_of_rejected_eq_nil hnil, Or.inl hnil⟩

/-- A step that turns a report away is a step of the album that refuses it. -/
theorem Report.run_rejected {r : Report} (hr : r.Inv p db) {a : ReportAction} {o : Outcome Report}
    (h : r.step p db a = some o) :
    albumMachine.Run (album db.store) (Proc.rejected db.store (.report r) (.report a))
      (album db.store) ∧
      (Proc.rejected db.store (.report r) (.report a) = [] ∨ o.write = .none) := by
  cases Report.step_cases h with
  | lock | missing =>
    refine ⟨?_, Or.inr rfl⟩
    unfold Proc.rejected
    dsimp only
    split_ifs with hfound
    · exact .nil _
    · exact .single (.notReported _ _ _ _ fun hpub => hfound (published_iff_any.1 hpub))
  | insert now photo_id reporter_ip_hash | duplicate now photo_id reporter_ip_hash =>
    refine ⟨?_, Or.inr rfl⟩
    obtain ⟨-, photo, hrow, hstatus⟩ := hr
    unfold Proc.rejected
    dsimp only
    split_ifs with hdup
    · obtain ⟨r, hr, hcond⟩ := List.any_eq_true.1 hdup
      rw [Bool.and_eq_true, decide_eq_true_eq, decide_eq_true_eq] at hcond
      rw [hrow, Option.map_some, Option.toList_some]
      exact .single (.duplicate _ _ _ _ (published_iff.2 ⟨photo, hrow, rfl, hstatus⟩)
        ⟨⟨photo, hrow, hstatus⟩, r, hr, hcond⟩)
    · exact .nil _
  | commit => exact ⟨.nil _, Or.inl rfl⟩
  | dbError r =>
    have hnil : Proc.rejected db.store (.report r) (.report .dbError) = [] := by cases r <;> rfl
    exact ⟨run_of_rejected_eq_nil hnil, Or.inl hnil⟩
  | stop r =>
    have hnil : Proc.rejected db.store (.report r) (.report .stop) = [] := by cases r <;> rfl
    exact ⟨run_of_rejected_eq_nil hnil, Or.inl hnil⟩

/-- A step that turns a process away is a step of the album that refuses the operation, and writes
nothing. -/
theorem run_rejected (hs : db.store.Consistent) {l : Proc} (hl : l.Inv p db)
    {a : Action} {o : Outcome Proc} (h : l.step cfg p db a = some o) :
    albumMachine.Run (album db.store) (Proc.rejected db.store l a) (album db.store) ∧
      (Proc.rejected db.store l a = [] ∨ o.write = .none) := by
  cases Proc.step_cases h with
  | upload u a o ho => exact Upload.run_rejected hs ho
  | adminDelete d a o ho => exact AdminDelete.run_rejected ho
  | report r a o ho => exact Report.run_rejected hl ho
  | tick l now =>
    have hnil := rejected_eq_nil db.store l (Or.inl ⟨now, rfl⟩)
    exact ⟨run_of_rejected_eq_nil hnil, Or.inl hnil⟩
  | createCrane l id =>
    have hnil := rejected_eq_nil db.store l (Or.inr ⟨id, rfl⟩)
    exact ⟨run_of_rejected_eq_nil hnil, Or.inl hnil⟩
  | refuseUpload | startUpload | startAdminDelete | startReport | startWorker | worker =>
    exact ⟨.nil _, Or.inl rfl⟩

end Rejected

variable {c c' : State} {e : Event Action} {es : List (Event Action)}

/-- The write of an event makes its operations. -/
theorem run_writeOf (hc : (pipeline cfg).Holds c) (hk : Known c) (ha : Answered es c)
    (hn : (system cfg).next c e = some c') :
    albumMachine.Run (album c.shared.store) ((writeOf cfg c e).operations c.shared.store)
      (album c'.shared.store) := by
  have hguard := guarded_writeOf hc hn
  have horigin := writeOf_origin hn
  have hstore := store_next hn
  generalize hw : writeOf cfg c e = w at hguard horigin hstore ⊢
  rw [hstore]
  cases w with
  | createCrane id =>
    refine .single ?_
    have halbum : album (c.shared.store.apply cfg e.pid (.createCrane id)) =
        { album c.shared.store with owners := insert id (album c.shared.store).owners } := by
      refine album_ext (fun x => ?_) (fun _ => rfl) (fun _ _ => Iff.rfl) fun _ => Iff.rfl
      show decide (x ∈ c.shared.store.cranes ++ [id]) = true ↔
        x = id ∨ decide (x ∈ c.shared.store.cranes) = true
      rw [decide_eq_true_eq, decide_eq_true_eq, List.mem_append, List.mem_singleton, or_comm]
    rw [halbum]
    exact .addOwner _ _
  | preuploadCranePhoto photo =>
    obtain ⟨now, prepared, photo_id, hl, -, rfl⟩ := horigin
    exact .single (step_preuploadCranePhoto hc.1 hguard (hk.crane (Or.inr hl)))
  | finalizeCranePhoto photo_id => exact .single (step_finalizeCranePhoto hguard hk.reported)
  | createDeleteCraneJobs deleter now rows => exact run_createDeleteCraneJobs hguard
  | captureSuccess now read photo_ids =>
    rw [album_captureSuccess hc.1 hguard]
    exact .nil _
  | reportCranePhoto report =>
    obtain ⟨report_id, -, hl⟩ := horigin
    have hinv := hc.2 e.pid
    rw [hl] at hinv
    obtain ⟨-, photo, hrow, hstatus⟩ := hinv
    show albumMachine.Run _ ((c.shared.store.photo report.photo_id).map _).toList _
    rw [hrow, Option.map_some, Option.toList_some]
    exact .single (step_reportCranePhoto hrow hstatus (ha.first hl))
  | none | tick | claimJobs | captureFailure | putObject | deleteObject => exact .nil _

/-- An event is a run of the album over its operations. -/
theorem run_operations (hc : (pipeline cfg).Holds c) (hk : Known c) (ha : Answered es c)
    (hn : (system cfg).next c e = some c') :
    albumMachine.tagged.Run (album c.shared.store) (operations cfg c e) (album c'.shared.store) := by
  obtain ⟨o, ho, -⟩ := outcome_next hn
  obtain ⟨hrejected, -⟩ := run_rejected hc.1 (hc.2 e.pid) ho
  exact (hrejected.append (run_writeOf hc hk ha hn)).tag e.pid

end Event

/-- The pipeline refines the album. Whatever the requests, the admins, the reporters, the workers, the
database and the storage do, in any order and with any stop in the middle, the operations that the events of
a run make, one after the other, are a run of the album, from the empty one to the one that the committed
state stands for. So no photo is published twice. -/
theorem album_refinement (cfg : Settings) (clock : Timestamp) (cranes : List Uuid)
    (es : List (Event Action)) (c : State)
    (hrun : (system cfg).run (initial clock cranes) es = some c) :
    albumMachine.tagged.Run ⟨{x | x ∈ cranes}, fun _ => none, ∅, ∅⟩
      ((system cfg).history (operations cfg) (initial clock cranes) es) (album c.shared.store) ∧
    ∀ i, (((system cfg).history (operations cfg) (initial clock cranes) es).map Prod.snd).count
      (.publish i, .done) ≤ 1 := by
  have hempty : album (initial clock cranes).shared.store =
      ⟨{x | x ∈ cranes}, fun _ => none, ∅, ∅⟩ := by
    refine album_ext (fun x => decide_eq_true_iff) (fun _ => rfl) (fun i h => ?_) fun i => ?_
    · refine iff_of_false ?_ (Set.notMem_empty _)
      rintro ⟨-, r, hr, -⟩
      cases hr
    · exact iff_of_false Bool.false_ne_true (Set.notMem_empty _)
  have hsteps : albumMachine.tagged.Run (album (initial clock cranes).shared.store)
      ((system cfg).history (operations cfg) (initial clock cranes) es) (album c.shared.store) := by
    refine System.linearized (fun c => album c.shared.store) (fun es c e c' hrun hnext => ?_) hrun
    exact run_operations ((holds_initial cfg clock cranes).run hrun) (known_run hrun)
      (answered_of_run hrun).2 hnext
  rw [← hempty]
  exact ⟨hsteps, fun i => Album.count_publish_le hsteps.untag i⟩

/-- A photo is published and reported. -/
def reportedEvents : List (Event Action) :=
  preuploadEvents 0 1 2 ++ publishEvents 0 ++ reportEvents 1 1 2 3 "a"

/-- The photo is deleted while a second reporter is on the way to it, who does not find it any more. -/
def deletedEvents : List (Event Action) :=
  [⟨2, .startAdminDelete 1 2⟩, ⟨2, .adminDelete .lock⟩, ⟨4, .startReport 1 2 "b"⟩,
    ⟨2, .adminDelete (.commit 5)⟩, ⟨4, .report .lock⟩]

/-- The operations of the three requests and of the upload. -/
theorem album_refinement_deleted :
    ∃ c, (system {}).run (initial 0 [1]) (reportedEvents ++ deletedEvents) = some c ∧
      albumMachine.tagged.Run ⟨{x | x ∈ [1]}, fun _ => none, ∅, ∅⟩
        [(0, .reserve 1, .done), (0, .publish 2, .done), (1, .report 1 2 "a", .done),
          (2, .delete 1 2, .done), (4, .report 1 2 "b", .noPhoto)] (album c.shared.store) := by
  have hsome : ((system {}).run (initial 0 [1]) (reportedEvents ++ deletedEvents)).isSome = true := by
    decide +kernel
  obtain ⟨c, hc⟩ := Option.isSome_iff_exists.1 hsome
  have hhistory : (system {}).history (operations {}) (initial 0 [1]) (reportedEvents ++ deletedEvents) =
      [(0, .reserve 1, .done), (0, .publish 2, .done), (1, .report 1 2 "a", .done),
        (2, .delete 1 2, .done), (4, .report 1 2 "b", .noPhoto)] := by decide +kernel
  refine ⟨c, hc, ?_⟩
  rw [← hhistory]
  exact (album_refinement {} 0 [1] _ c hc).1

end CraneTracker.Pipeline
