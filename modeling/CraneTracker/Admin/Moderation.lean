import CraneTracker.Admin.Paging
import CraneTracker.Pipeline.Publication
import CraneTracker.Pipeline.Reports

/-!
# The admin page over a run

An admin pages through the photos, or through the reported ones, while the pipeline runs. `Browses` puts
the requests of the client on a run: the pipeline goes on before each of the two queries of a request, and
after the last one. `moderation_traversal` says what the admin sees in the end. Every item is a photo that
was published when its page was read, with the number of its reporters. A photo that was waiting at the
beginning is seen once, unless an admin has deleted it meanwhile.
-/

namespace CraneTracker.Moderation

open Interleaving Pipeline Table
open Admin (AdminPhotoResponse PhotoListResponse Snapshots listed listedIds photoList receivedIds
  serializeCranePhoto)

/-- The requests of a client during the run `es` from `c` to `c'`. Each reads the photos at a state of the
run, and the counts at a later one. -/
inductive Browses (cfg : Settings) : State → List (Event Action) → List Snapshots → State → Prop
  | stop {c c' : State} {es : List (Event Action)} (h : (system cfg).run c es = some c') :
      Browses cfg c es [] c'
  | request {c c₁ c₂ c' : State} {es₁ es₂ es : List (Event Action)} {requests : List Snapshots}
      (h₁ : (system cfg).run c es₁ = some c₁) (h₂ : (system cfg).run c₁ es₂ = some c₂)
      (rest : Browses cfg c₂ es requests c') :
      Browses cfg c (es₁ ++ (es₂ ++ es)) (⟨c₁.shared.store, c₂.shared.store⟩ :: requests) c'

section Browses

variable {cfg : Settings} {c c' : State} {es : List (Event Action)} {requests : List Snapshots}

/-- The pipeline runs. -/
theorem Browses.run (h : Browses cfg c es requests c') : (system cfg).run c es = some c' := by
  induction h with
  | stop h => exact h
  | request h₁ h₂ _ ih => exact System.run_append.2 ⟨_, h₁, System.run_append.2 ⟨_, h₂, ih⟩⟩

/-- A request meets two states of the run. -/
theorem Browses.exists_states (h : Browses cfg c es requests c') {s : Snapshots} (hs : s ∈ requests) :
    ∃ es₁ es₂ es₃ c₁ c₂, es = es₁ ++ (es₂ ++ es₃) ∧ (system cfg).run c es₁ = some c₁ ∧
      (system cfg).run c₁ es₂ = some c₂ ∧ (system cfg).run c₂ es₃ = some c' ∧
      s = ⟨c₁.shared.store, c₂.shared.store⟩ := by
  induction h with
  | stop => exact absurd hs List.not_mem_nil
  | @request c c₁ c₂ c' es₁ es₂ es requests h₁ h₂ rest ih =>
    rcases List.mem_cons.1 hs with rfl | hs
    · exact ⟨es₁, es₂, es, c₁, c₂, rfl, h₁, h₂, rest.run, rfl⟩
    · obtain ⟨es₃, es₄, es₅, c₃, c₄, rfl, h₃, h₄, h₅, hsnap⟩ := ih hs
      refine ⟨es₁ ++ (es₂ ++ es₃), es₄, es₅, c₃, c₄, by simp, ?_, h₄, h₅, hsnap⟩
      exact System.run_append.2 ⟨c₁, h₁, System.run_append.2 ⟨c₂, h₂, h₃⟩⟩

end Browses

/-! ## The reports of a photo -/

section Reports

variable {cfg : Settings} {clock : Timestamp} {cranes : List Uuid} {c c' : State}
  {es es' : List (Event Action)}

/-- The reporters of a photo only become more. -/
theorem acceptedReporters_subset (h : (system cfg).run c es' = some c') (i : Uuid) :
    acceptedReporters es c i ⊆ acceptedReporters (es ++ es') c' i := by
  intro x hx
  obtain ⟨p, crane_id, hreq, hp⟩ := mem_acceptedReporters.1 hx
  exact mem_acceptedReporters.2 ⟨p, crane_id, hreq.append es', report_answered_run h hp⟩

/-- The number of the reporters of a photo does not go down over a run. -/
theorem length_acceptedReporters_le (h : (system cfg).run c es' = some c') (i : Uuid) :
    (acceptedReporters es c i).length ≤ (acceptedReporters (es ++ es') c' i).length := by
  have hnodup : (acceptedReporters es c i).Nodup := List.nodup_dedup _
  exact (hnodup.subperm (acceptedReporters_subset h i)).length_le

/-- An event keeps the photo of each report that is left. -/
theorem report_row_next {e : Event Action} (hc : (pipeline cfg).Holds c) (ht : Traced es c)
    (hn : (system cfg).next c e = some c')
    (hrows : ∀ r ∈ c.shared.store.reports, (c.shared.store.photo r.photo_id).isSome = true) :
    ∀ r ∈ c'.shared.store.reports, (c'.shared.store.photo r.photo_id).isSome = true := by
  intro r hr
  by_cases hold : r ∈ c.shared.store.reports
  · obtain ⟨photo, hrow⟩ := Option.isSome_iff_exists.1 (hrows r hold)
    have hstep := photo_next hc hn r.photo_id
    generalize hnew : c'.shared.store.photo r.photo_id = row at hstep
    rw [hrow] at hstep
    cases hstep with
    | same => rfl
    | finalized => rfl
    | marked => rfl
    | removed _ now read photo_ids hw =>
      -- The commit that removes the photo removes its reports.
      rw [store_next hn, hw] at hr hnew
      rw [Store.photo_captureSuccess hc.1.photo_unique, hrow, Option.filter_some] at hnew
      have hkept : r.photo_id ∉ photo_ids := by simpa using (mem_deleteWhere.1 hr).2
      rw [if_pos (by simpa [key_of_row hrow] using hkept)] at hnew
      cases hnew
  · obtain ⟨photo, hrow, -⟩ := published_of_new_report hc ht hn hr hold
    rw [hrow]
    rfl

/-- After every run, the photo of a report is there. -/
theorem report_row (h : (system cfg).run (initial clock cranes) es = some c) :
    ∀ r ∈ c.shared.store.reports, (c.shared.store.photo r.photo_id).isSome = true := by
  refine System.run_induction (I := fun _ c => ∀ r ∈ c.shared.store.reports,
    (c.shared.store.photo r.photo_id).isSome = true) ?_ ?_ h
  · intro r hr
    cases hr
  · rintro es c e c' hrun hnext hrows
    have hc := (holds_initial cfg clock cranes).run hrun
    exact report_row_next hc (answered_of_run hrun).1 hnext hrows

/-- The reports of a photo are those of its reporters, as long as the photo is there. -/
theorem countP_reports_eq (h : (system cfg).run (initial clock cranes) es = some c) (i : Uuid) :
    (c.shared.store.reports.countP fun r => r.photo_id = i) =
      if (c.shared.store.photo i).isSome = true then (acceptedReporters es c i).length else 0 := by
  split_ifs with hrow
  · obtain ⟨photo, hphoto⟩ := Option.isSome_iff_exists.1 hrow
    have hcount := countP_reports h (mem_of_row hphoto)
    rwa [show photo.id = i from key_of_row hphoto] at hcount
  · refine List.countP_eq_zero.2 fun r hr heq => hrow ?_
    rw [decide_eq_true_eq] at heq
    rw [← heq]
    exact report_row h r hr

/-- The photos that the page lists are the published ones, and with `reported_only` those that have a
reporter. -/
theorem listed_iff (h : (system cfg).run (initial clock cranes) es = some c) {photo : CranePhoto}
    (hphoto : photo ∈ c.shared.store.photos) (reported_only : Bool) :
    listed c.shared.store reported_only photo = true ↔ photo.status = .active ∧
      (reported_only = true → acceptedReporters es c photo.id ≠ []) := by
  have hany : (c.shared.store.reports.any fun report => report.photo_id = photo.id) = true ↔
      acceptedReporters es c photo.id ≠ [] := by
    rw [← List.length_pos_iff, ← countP_reports h hphoto, List.countP_pos_iff, List.any_eq_true]
  rw [listed, Bool.and_eq_true, decide_eq_true_eq, Bool.or_eq_true, hany]
  cases reported_only with
  | true => simp
  | false => simp

end Reports

/-! ## The items of a traversal -/

section Items

variable {url : Option String} {limit : ℕ} {reported_only : Bool} {cursor : Option Uuid}
  {requests : List Snapshots}

/-- A page is the response to one of the requests. -/
theorem exists_photoList {page : PhotoListResponse}
    (h : page ∈ Admin.traverse url limit reported_only cursor requests) :
    ∃ s ∈ requests, ∃ cursor', page = photoList url s cursor' limit reported_only := by
  induction requests generalizing cursor with
  | nil => exact absurd h List.not_mem_nil
  | cons s requests ih =>
    rw [Admin.traverse] at h
    split_ifs at h with hend
    · exact ⟨s, List.mem_cons_self, cursor, List.mem_singleton.1 h⟩
    · rcases List.mem_cons.1 h with hpage | hrest
      · exact ⟨s, List.mem_cons_self, cursor, hpage⟩
      · obtain ⟨s', hs', hpage⟩ := ih hrest
        exact ⟨s', List.mem_cons_of_mem _ hs', hpage⟩

/-- An item of a page is a photo that the query has found, with the number of its reports. -/
theorem exists_photo_of_mem {s : Snapshots} {item : AdminPhotoResponse}
    (h : item ∈ (photoList url s cursor limit reported_only).photos) :
    ∃ photo ∈ s.photos.photos, listed s.photos reported_only photo = true ∧
      item = serializeCranePhoto url photo
        (s.counts.reports.countP fun r => r.photo_id = photo.id) := by
  obtain ⟨photo, hphoto, rfl⟩ := List.mem_map.1 h
  obtain ⟨hphotos, hlisted⟩ := Admin.mem_of_mem_getCranePhotos (List.mem_of_mem_take hphoto)
  refine ⟨photo, hphotos, hlisted, ?_⟩
  rw [lookup_getPhotoReportCounts (List.mem_map_of_mem hphoto)]

/-- The ids that a client receives are those of its items. -/
theorem receivedIds_eq (pages : List PhotoListResponse) :
    receivedIds pages = (pages.flatMap PhotoListResponse.photos).map AdminPhotoResponse.id := by
  rw [receivedIds, List.map_flatMap]

/-- An item that a client receives is one of a response to one of its requests. -/
theorem exists_request_of_mem {item : AdminPhotoResponse}
    (h : item ∈ (Admin.traverse url limit reported_only cursor requests).flatMap
      PhotoListResponse.photos) :
    ∃ s ∈ requests, ∃ photo ∈ s.photos.photos, listed s.photos reported_only photo = true ∧
      item = serializeCranePhoto url photo
        (s.counts.reports.countP fun r => r.photo_id = photo.id) := by
  obtain ⟨page, hpage, hitem⟩ := List.mem_flatMap.1 h
  obtain ⟨s, hs, cursor', rfl⟩ := exists_photoList hpage
  exact ⟨s, hs, exists_photo_of_mem hitem⟩

end Items

/-! ## The result -/

/-- During the run `es`, which follows the run `es₀` from `c₀`, a request read the photo of the item. It was
published then, and if only the reported ones were asked for it had a reporter. The count was read later:
it is the number of the reporters at that time, and zero if the photo was not there any more. -/
def Shown (cfg : Settings) (url : Option String) (reported_only : Bool) (c₀ : State)
    (es₀ es : List (Event Action)) (item : AdminPhotoResponse) : Prop :=
  ∃ es₁ es₂ es₃ c₁ c₂ photo, es = es₁ ++ (es₂ ++ es₃) ∧
    (system cfg).run c₀ (es₀ ++ es₁) = some c₁ ∧ (system cfg).run c₁ es₂ = some c₂ ∧
    c₁.shared.store.photo photo.id = some photo ∧ photo.status = .active ∧
    (reported_only = true → acceptedReporters (es₀ ++ es₁) c₁ photo.id ≠ []) ∧
    item = serializeCranePhoto url photo (if (c₂.shared.store.photo photo.id).isSome = true then
      (acceptedReporters (es₀ ++ es₁ ++ es₂) c₂ photo.id).length else 0)

section Moderation

variable {cfg : Settings} {clock : Timestamp} {cranes : List Uuid} {c c' : State}
  {es₀ es : List (Event Action)} {url : Option String} {limit : ℕ} {reported_only : Bool}
  {requests : List Snapshots}

/-- A published photo that no admin deletes in a run is there after it, as it was. -/
theorem row_of_not_deleted (hc : (pipeline cfg).Holds c) (h : (system cfg).run c es = some c')
    {photo : CranePhoto} (hrow : c.shared.store.photo photo.id = some photo)
    (hactive : photo.status = .active) (hnot : ∀ p, ¬ Deleted cfg c es p photo.crane_id photo.id) :
    c'.shared.store.photo photo.id = some photo := by
  have hstage : c'.shared.store.stage photo.id = CranePhotoStatus.stage .active := by
    by_contra hne
    obtain ⟨p, hdel⟩ := deleted_of_active hc h hrow hactive hne
    exact hnot p hdel
  obtain ⟨photo', hrow', hactive'⟩ := Store.row_of_stage hstage
  rwa [eq_of_active hc h hrow hrow' hactive hactive'] at hrow'

/-- What the client receives was shown. -/
theorem shown_of_mem (hrun : (system cfg).run (initial clock cranes) es₀ = some c)
    (hbrowse : Browses cfg c es requests c') {item : AdminPhotoResponse}
    (h : item ∈ (Admin.traverse url limit reported_only none requests).flatMap
      PhotoListResponse.photos) :
    Shown cfg url reported_only (initial clock cranes) es₀ es item := by
  obtain ⟨s, hs, photo, hphoto, hlisted, rfl⟩ := exists_request_of_mem h
  obtain ⟨es₁, es₂, es₃, c₁, c₂, heq, h₁, h₂, -, rfl⟩ := hbrowse.exists_states hs
  have hrun₁ : (system cfg).run (initial clock cranes) (es₀ ++ es₁) = some c₁ :=
    System.run_append.2 ⟨c, hrun, h₁⟩
  have hrun₂ : (system cfg).run (initial clock cranes) (es₀ ++ es₁ ++ es₂) = some c₂ :=
    System.run_append.2 ⟨c₁, hrun₁, h₂⟩
  obtain ⟨hactive, hreported⟩ := (listed_iff hrun₁ hphoto reported_only).1 hlisted
  have hrow := ((holds_initial cfg clock cranes).run hrun₁).1.photo_of_mem hphoto
  refine ⟨es₁, es₂, es₃, c₁, c₂, photo, heq, hrun₁, h₂, hrow, hactive, hreported, ?_⟩
  rw [← countP_reports_eq hrun₂]

/-- A photo that was deleted before the first request is not received. -/
theorem not_mem_of_deleted (hrun : (system cfg).run (initial clock cranes) es₀ = some c)
    (hbrowse : Browses cfg c es requests c') {p : ℕ} {crane_id i : Uuid}
    (hdel : Deleted cfg (initial clock cranes) es₀ p crane_id i) :
    i ∉ receivedIds (Admin.traverse url limit reported_only none requests) := by
  intro hmem
  rw [receivedIds_eq, List.mem_map] at hmem
  obtain ⟨item, hitem, rfl⟩ := hmem
  obtain ⟨es₁, es₂, es₃, c₁, c₂, photo, -, hrun₁, -, hrow, hactive, -, rfl⟩ :=
    shown_of_mem hrun hbrowse hitem
  have hinit := holds_initial cfg clock cranes
  obtain ⟨d, hd, hrest⟩ := System.run_append.1 hrun₁
  obtain rfl : c = d := Option.some.inj (hrun.symm.trans hd)
  have hgone := gone_run (hinit.run hrun) hrest (hdel.gone hinit hrun).1
  exact hgone.ne_active (Store.stage_of_active hrow hactive)

/-- The tables that the requests meet have unique ids. -/
theorem Browses.photo_unique (hc : (pipeline cfg).Holds c) (hbrowse : Browses cfg c es requests c') :
    ∀ s ∈ requests, KeyUnique CranePhoto.id s.photos.photos := by
  intro s hs
  obtain ⟨es₁, es₂, es₃, c₁, c₂, -, h₁, -, -, rfl⟩ := hbrowse.exists_states hs
  exact (hc.run h₁).1.photo_unique

/-- A photo that was waiting before the first request, and that no admin deletes, is listed at each
request. -/
theorem mem_listedIds (hrun : (system cfg).run (initial clock cranes) es₀ = some c)
    (hbrowse : Browses cfg c es requests c') {photo : CranePhoto}
    (hphoto : photo ∈ c.shared.store.photos) (hactive : photo.status = .active)
    (hreported : reported_only = true → acceptedReporters es₀ c photo.id ≠ [])
    (hnot : ∀ p, ¬ Deleted cfg c es p photo.crane_id photo.id) :
    ∀ s ∈ requests, photo.id ∈ listedIds s.photos reported_only := by
  intro s hs
  obtain ⟨es₁, es₂, es₃, c₁, c₂, rfl, h₁, -, -, rfl⟩ := hbrowse.exists_states hs
  have hc := (holds_initial cfg clock cranes).run hrun
  have hrow₁ := row_of_not_deleted hc h₁ (hc.1.photo_of_mem hphoto) hactive
    fun p hdel => hnot p (hdel.append _)
  have hphoto₁ := mem_of_row hrow₁
  refine List.mem_map_of_mem (List.mem_filter.2 ⟨hphoto₁, ?_⟩)
  refine (listed_iff (System.run_append.2 ⟨c, hrun, h₁⟩) hphoto₁ reported_only).2
    ⟨hactive, fun htrue hnil => hreported htrue ?_⟩
  -- Its reporters are still there.
  exact List.eq_nil_iff_forall_not_mem.2 fun x hx =>
    List.not_mem_nil (hnil ▸ acceptedReporters_subset h₁ photo.id hx)

/-- What was shown of a photo that was published before the first request, and that no admin deletes. -/
theorem Shown.eq_serialize (hrun : (system cfg).run (initial clock cranes) es₀ = some c)
    (hrun' : (system cfg).run c es = some c') {photo : CranePhoto}
    (hphoto : photo ∈ c.shared.store.photos) (hactive : photo.status = .active)
    (hnot : ∀ p, ¬ Deleted cfg c es p photo.crane_id photo.id) {item : AdminPhotoResponse}
    (h : Shown cfg url reported_only (initial clock cranes) es₀ es item) (hid : item.id = photo.id) :
    ∃ n, (acceptedReporters es₀ c photo.id).length ≤ n ∧
      n ≤ (acceptedReporters (es₀ ++ es) c' photo.id).length ∧
      item = serializeCranePhoto url photo n := by
  obtain ⟨es₁, es₂, es₃, c₁, c₂, photo₁, rfl, hrun₁, h₂, hrow₁, -, -, rfl⟩ := h
  have hc := (holds_initial cfg clock cranes).run hrun
  obtain ⟨d, hd, h₁⟩ := System.run_append.1 hrun₁
  obtain rfl : c = d := Option.some.inj (hrun.symm.trans hd)
  obtain ⟨d₁, hd₁, h₂'⟩ := System.run_append.1 hrun'
  obtain rfl : c₁ = d₁ := Option.some.inj (h₁.symm.trans hd₁)
  obtain ⟨d₂, hd₂, h₃⟩ := System.run_append.1 h₂'
  obtain rfl : c₂ = d₂ := Option.some.inj (h₂.symm.trans hd₂)
  have hrow := hc.1.photo_of_mem hphoto
  -- The row is the same at both queries.
  have hsame : c₁.shared.store.photo photo.id = some photo :=
    row_of_not_deleted hc h₁ hrow hactive fun p hdel => hnot p (hdel.append _)
  have hthere : c₂.shared.store.photo photo.id = some photo :=
    row_of_not_deleted hc (System.run_append.2 ⟨c₁, h₁, h₂⟩) hrow hactive fun p hdel =>
      hnot p (by simpa using hdel.append es₃)
  have hid₁ : photo₁.id = photo.id := hid
  rw [hid₁, hsame] at hrow₁
  obtain rfl := Option.some.inj hrow₁
  rw [if_pos (by rw [hthere]; rfl)]
  refine ⟨_, ?_, ?_, rfl⟩
  · calc (acceptedReporters es₀ c photo.id).length
        ≤ (acceptedReporters (es₀ ++ es₁) c₁ photo.id).length := length_acceptedReporters_le h₁ _
      _ ≤ (acceptedReporters (es₀ ++ es₁ ++ es₂) c₂ photo.id).length :=
          length_acceptedReporters_le h₂ _
  · have hle : (acceptedReporters (es₀ ++ es₁ ++ es₂) c₂ photo.id).length ≤
        (acceptedReporters (es₀ ++ es₁ ++ es₂ ++ es₃) c' photo.id).length :=
      length_acceptedReporters_le h₃ _
    simpa using hle

/-- The admin page over a run. Each item that a client receives was shown at its request. A photo that a
deletion has removed before the first request is not received. When the client reaches the end, each
photo that was published before the first request, and reported if only the reported ones were asked for,
has been received exactly once, as it was inserted and with a number of reporters between those at the
beginning and those at the end, or else an admin has deleted it during the run. -/
theorem moderation_traversal {cfg : Settings} {clock : Timestamp} {cranes : List Uuid}
    {es₀ es : List (Event Action)} {c c' : State}
    (hrun : (system cfg).run (initial clock cranes) es₀ = some c) {requests : List Snapshots}
    (hbrowse : Browses cfg c es requests c') (url : Option String) {limit : ℕ} (hlimit : 1 ≤ limit)
    (reported_only : Bool) :
    let pages := Admin.traverse url limit reported_only none requests
    (∀ item ∈ pages.flatMap PhotoListResponse.photos,
      Shown cfg url reported_only (initial clock cranes) es₀ es item) ∧
    (∀ p crane_id i, Deleted cfg (initial clock cranes) es₀ p crane_id i → i ∉ receivedIds pages) ∧
    ((∃ page ∈ pages, page.end = true) → ∀ photo ∈ c.shared.store.photos, photo.status = .active →
      (reported_only = true → acceptedReporters es₀ c photo.id ≠ []) →
        (∃ p, Deleted cfg c es p photo.crane_id photo.id) ∨
        ∃ n, (acceptedReporters es₀ c photo.id).length ≤ n ∧
          n ≤ (acceptedReporters (es₀ ++ es) c' photo.id).length ∧
          (pages.flatMap PhotoListResponse.photos).filter (fun item => item.id = photo.id) =
            [serializeCranePhoto url photo n]) := by
  intro pages
  refine ⟨fun item hitem => shown_of_mem hrun hbrowse hitem,
    fun p crane_id i hdel => not_mem_of_deleted hrun hbrowse hdel, ?_⟩
  intro hend photo hphoto hactive hreported
  by_cases hdel : ∃ p, Deleted cfg c es p photo.crane_id photo.id
  · exact Or.inl hdel
  have hnot := not_exists.1 hdel
  have hunique := hbrowse.photo_unique ((holds_initial cfg clock cranes).run hrun)
  have hlisted := mem_listedIds hrun hbrowse hphoto hactive hreported hnot
  have hmem : photo.id ∈ receivedIds pages :=
    Admin.mem_receivedIds hlimit hunique hend fun s hs => hlisted s (List.mem_of_mem_take hs)
  rw [receivedIds_eq, List.mem_map] at hmem
  obtain ⟨item, hitem, hid⟩ := hmem
  obtain ⟨n, hle, hle', rfl⟩ := (shown_of_mem hrun hbrowse hitem).eq_serialize hrun hbrowse.run hphoto
    hactive hnot hid
  refine Or.inr ⟨n, hle, hle', List.perm_singleton.1 ?_⟩
  -- The ids are distinct, so no other item has the id of the photo.
  have hids : ((pages.flatMap PhotoListResponse.photos).map AdminPhotoResponse.id).Nodup := by
    rw [← receivedIds_eq]
    exact Admin.nodup_receivedIds hlimit hunique
  have hnodup := (List.Nodup.of_map _ hids).filter fun item => decide (item.id = photo.id)
  refine (List.perm_ext_iff_of_nodup hnodup (List.nodup_singleton _)).2 fun x => ?_
  rw [List.mem_filter, decide_eq_true_eq, List.mem_singleton]
  constructor
  · rintro ⟨hx, hxid⟩
    exact List.inj_on_of_nodup_map hids hx hitem hxid
  · rintro rfl
    exact ⟨hitem, rfl⟩

end Moderation

/-- A photo is published, and reported once. -/
def onceReported : List (Event Action) :=
  preuploadEvents 0 1 2 ++ publishEvents 0 ++ reportEvents 5 1 2 7 "a"

/-- The photo is reported again between the two queries of a request. It is received once, with one
reporter or with two. -/
theorem moderation_traversal_reported : ∃ c c', (system {}).run (initial 0 [1]) onceReported = some c ∧
    (system {}).run c (reportEvents 6 1 2 8 "b") = some c' ∧ ∃ n, 1 ≤ n ∧ n ≤ 2 ∧
      ((Admin.traverse none 1 true none [⟨c.shared.store, c'.shared.store⟩]).flatMap
        PhotoListResponse.photos).filter (fun item => item.id = 2) =
          [serializeCranePhoto none (jpegPhoto 0 1 2 .active) n] := by
  have hrun : ((system {}).run (initial 0 [1]) onceReported).bind (fun c =>
      ((system {}).run c (reportEvents 6 1 2 8 "b")).map fun c' => (c.shared.store.photos,
        (acceptedReporters onceReported c 2).length,
        (acceptedReporters (onceReported ++ reportEvents 6 1 2 8 "b") c' 2).length,
        (Admin.traverse none 1 true none [⟨c.shared.store, c'.shared.store⟩]).any
          PhotoListResponse.end))
      = some ([jpegPhoto 0 1 2 .active], 1, 2, true) := by
    decide +kernel
  obtain ⟨c, hc, hnext⟩ := Option.bind_eq_some_iff.1 hrun
  obtain ⟨c', hc', heq⟩ := Option.map_eq_some_iff.1 hnext
  obtain ⟨hphotos, heq⟩ := Prod.mk.inj heq
  obtain ⟨hone, heq⟩ := Prod.mk.inj heq
  obtain ⟨htwo, hend⟩ := Prod.mk.inj heq
  have hbrowse : Browses {} c ([] ++ (reportEvents 6 1 2 8 "b" ++ []))
      [⟨c.shared.store, c'.shared.store⟩] c' := .request rfl hc' (.stop rfl)
  refine ⟨c, c', hc, hc', ?_⟩
  have hreported : acceptedReporters onceReported c 2 ≠ [] := by
    rw [← List.length_pos_iff, hone]
    exact Nat.one_pos
  obtain ⟨-, -, hwaiting⟩ := moderation_traversal hc hbrowse none le_rfl true
  rcases hwaiting (List.any_eq_true.1 hend) (jpegPhoto 0 1 2 .active) (by simp [hphotos]) rfl
    (fun _ => hreported) with ⟨p, d, d', job_id, now, photo, hpass, -⟩ | ⟨n, hle, hle', hitems⟩
  -- Nobody deletes in this run.
  · obtain ⟨es₁, es₂, hes, -⟩ := hpass
    have hmem : (⟨p, .adminDelete (.commit job_id)⟩ : Event Action) ∈
        [] ++ (reportEvents 6 1 2 8 "b" ++ []) := by
      rw [hes]
      exact List.mem_append_right _ List.mem_cons_self
    simp [reportEvents] at hmem
  · refine ⟨n, hone ▸ hle, ?_, hitems⟩
    rw [List.nil_append, List.append_nil] at hle'
    exact htwo ▸ hle'

end CraneTracker.Moderation
