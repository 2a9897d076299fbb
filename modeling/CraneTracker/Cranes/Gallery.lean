import CraneTracker.Cranes.Listing
import CraneTracker.Cranes.PublicUrl
import CraneTracker.Pipeline.Publication

/-!
# The photos that a crane shows, over a run

The route `get_crane` shows the published photos of a crane. This module follows them along the runs of the
pipeline. A photo is shown with what it was inserted with, whenever it is shown (`content_run`). So between
two requests the list changes by the photos that come and go, and nothing else: `gallery_history` says that
each photo that comes was finalized by its own upload, and each that goes was deleted by an admin and does
not come back, while the others stay as they are and in the same order.
-/

namespace CraneTracker.Cranes

open Interleaving Pipeline Table

/-! ## The order -/

/-- The order in which the photos of a crane are shown. -/
def shownBefore (a b : CranePhotoResponse) : Prop :=
  a.added_at < b.added_at ∨ a.added_at = b.added_at ∧ a.id ≤ b.id

instance : Std.Total recordsBefore where
  total a b := by
    rcases lt_trichotomy a.added_at b.added_at with h | h | h
    · exact Or.inl (Or.inl h)
    · rcases le_total a.id.toNat b.id.toNat with hid | hid
      · exact Or.inl (Or.inr ⟨h, hid⟩)
      · exact Or.inr (Or.inr ⟨h.symm, hid⟩)
    · exact Or.inr (Or.inl h)

instance : IsTrans CranePhoto recordsBefore where
  trans a b c := by
    rintro (hab | ⟨hab, hab'⟩) (hbc | ⟨hbc, hbc'⟩)
    · exact Or.inl (hab.trans hbc)
    · exact Or.inl (hbc ▸ hab)
    · exact Or.inl (hab ▸ hbc)
    · exact Or.inr ⟨hab.trans hbc, BitVec.le_trans hab' hbc'⟩

/-- Two photos that are shown before each other have the same id. -/
theorem id_eq_of_shownBefore {a b : CranePhotoResponse} (hab : shownBefore a b)
    (hba : shownBefore b a) : a.id = b.id := by
  rcases hab with hab | ⟨hab, hid⟩
  · rcases hba with hba | ⟨hba, -⟩
    · exact absurd hba (lt_asymm hab)
    · exact absurd hab (by rw [hba]; exact lt_irrefl _)
  · rcases hba with hba | ⟨-, hid'⟩
    · exact absurd hba (by rw [hab]; exact lt_irrefl _)
    · exact BitVec.le_antisymm hid hid'

/-! ## The photos that are shown -/

section Shown

variable {K : Type} {base : Option String} {t : Tables K} {s : Store} {crane_id : Uuid}
  {detail : CraneDetail K}

/-- What the route shows of the photos. -/
theorem photo_items_eq (h : craneDetail base t crane_id = .ok detail) :
    detail.photo_items =
      (photoRecords (·.status = .active) t.photos crane_id).map (serializeCranePhoto base) := by
  unfold craneDetail getCrane at h
  cases hrow : row Crane.id t.cranes crane_id with
  | none =>
    rw [hrow] at h
    cases h
  | some crane =>
    rw [hrow] at h
    obtain rfl : crane.id = crane_id := key_of_row hrow
    obtain rfl := Except.ok.inj h
    rfl

/-- A photo is shown when it is published. -/
theorem mem_photo_items (hs : s.Consistent) (ht : t.photos = s.photos)
    (h : craneDetail base t crane_id = .ok detail) {item : CranePhotoResponse} :
    item ∈ detail.photo_items ↔ ∃ photo, s.photo photo.id = some photo ∧ photo.crane_id = crane_id ∧
      photo.status = .active ∧ serializeCranePhoto base photo = item := by
  rw [photo_items_eq h, List.mem_map, ht]
  refine exists_congr fun photo => ?_
  rw [(perm_photoRecords _ _ _).mem_iff, List.mem_filter, Bool.and_eq_true, decide_eq_true_eq,
    decide_eq_true_eq]
  constructor
  · rintro ⟨⟨hmem, hcrane, hstatus⟩, hitem⟩
    exact ⟨hs.photo_of_mem hmem, hcrane, hstatus, hitem⟩
  · rintro ⟨hrow, hcrane, hstatus, hitem⟩
    exact ⟨⟨mem_of_row hrow, hcrane, hstatus⟩, hitem⟩

/-- The photos are shown in their order. -/
theorem pairwise_photo_items (h : craneDetail base t crane_id = .ok detail) :
    detail.photo_items.Pairwise shownBefore := by
  rw [photo_items_eq h, List.pairwise_map]
  exact List.pairwise_insertionSort recordsBefore _

/-- No photo is shown twice. -/
theorem nodup_photo_items (hs : s.Consistent) (ht : t.photos = s.photos)
    (h : craneDetail base t crane_id = .ok detail) :
    (detail.photo_items.map CranePhotoResponse.id).Nodup := by
  rw [photo_items_eq h, List.map_map, ht]
  have hids : ((photoRecords (·.status = .active) s.photos crane_id).map CranePhoto.id).Nodup := by
    refine ((perm_photoRecords _ _ _).map CranePhoto.id).nodup_iff.2 ?_
    exact hs.photo_unique.sublist (List.filter_sublist.map CranePhoto.id)
  exact hids

/-- No more photos are shown than a crane may have. -/
theorem length_photo_items (hs : s.Consistent) (ht : t.photos = s.photos)
    (h : craneDetail base t crane_id = .ok detail) :
    detail.photo_items.length ≤ maxPhotosPerCrane := by
  rw [photo_items_eq h, List.length_map, (perm_photoRecords _ _ _).length_eq, ht,
    ← List.countP_eq_length_filter]
  refine le_trans (List.countP_mono_left fun photo _ hp => ?_) (hs.capacity crane_id)
  rw [Bool.and_eq_true, decide_eq_true_eq, decide_eq_true_eq] at hp
  unfold CranePhoto.countsFor
  simp [hp.1, hp.2]

/-- What a list of shown photos is in the state `s`: at most three photos, in order, each with an object in
storage at a URL of its own. -/
structure Shows (public_base_url : String) (s : Store) (items : List CranePhotoResponse) : Prop where
  limit : items.length ≤ maxPhotosPerCrane
  order : items.Pairwise shownBefore
  ids : (items.map CranePhotoResponse.id).Nodup
  urls : (items.map CranePhotoResponse.url).Nodup
  stored : ∀ item ∈ items, ∃ object_key ∈ s.storage,
    item.url = some (publicRoot public_base_url ++ Admin.quote object_key)

/-- What the route shows. -/
theorem shows_photo_items {public_base_url : String} (hbase : public_base_url ≠ "")
    (hs : s.Consistent) (ht : t.photos = s.photos)
    (h : craneDetail (some public_base_url) t crane_id = .ok detail) :
    Shows public_base_url s detail.photo_items where
  limit := length_photo_items hs ht h
  order := pairwise_photo_items h
  ids := nodup_photo_items hs ht h
  urls := by
    have hids := nodup_photo_items hs ht h
    refine List.Nodup.map_on (fun item hitem item' hitem' heq => ?_) (List.Nodup.of_map _ hids)
    obtain ⟨photo, hrow, -, -, rfl⟩ := (mem_photo_items hs ht h).1 hitem
    obtain ⟨photo', hrow', -, -, rfl⟩ := (mem_photo_items hs ht h).1 hitem'
    -- The same URL is the same key, and that is the same photo.
    have hkey := getPublicUrl_injective hbase heq
    rw [hs.id_eq_of_key hrow hrow' hkey, hrow'] at hrow
    rw [Option.some.inj hrow]
  stored item hitem := by
    obtain ⟨photo, hrow, -, hstatus, rfl⟩ := (mem_photo_items hs ht h).1 hitem
    exact ⟨photo.storage_key, hs.active_stored hrow hstatus, getPublicUrl_eq hbase _⟩

end Shown

/-! ## Over a run -/

section History

variable {K : Type} {cfg : Settings} {c c' : State} {es : List (Event Action)} {base : Option String}
  {t t' : Tables K} {crane_id : Uuid} {detail detail' : CraneDetail K} {item : CranePhotoResponse}

/-- The photo of an item that is shown is published. -/
theorem stage_of_mem (hc : (pipeline cfg).Holds c) (ht : t.photos = c.shared.store.photos)
    (h : craneDetail base t crane_id = .ok detail) (hitem : item ∈ detail.photo_items) :
    c.shared.store.stage item.id = .active := by
  obtain ⟨photo, hrow, -, hactive, rfl⟩ := (mem_photo_items hc.1 ht h).1 hitem
  exact Store.stage_of_active hrow hactive

/-- While its photo is published, an item is shown as it was. -/
theorem mem_after (hc : (pipeline cfg).Holds c) (hrun : (system cfg).run c es = some c')
    (ht : t.photos = c.shared.store.photos) (ht' : t'.photos = c'.shared.store.photos)
    (h : craneDetail base t crane_id = .ok detail) (h' : craneDetail base t' crane_id = .ok detail')
    (hitem : item ∈ detail.photo_items) (hstage : c'.shared.store.stage item.id = .active) :
    item ∈ detail'.photo_items := by
  obtain ⟨photo, hrow, hcrane, hactive, rfl⟩ := (mem_photo_items hc.1 ht h).1 hitem
  have hstage' : c'.shared.store.stage photo.id = CranePhotoStatus.stage .active := hstage
  obtain ⟨photo', hrow', hactive'⟩ := Store.row_of_stage hstage'
  obtain rfl := eq_of_active hc hrun hrow hrow' hactive hactive'
  exact (mem_photo_items (hc.run hrun).1 ht' h').2 ⟨photo', hrow', hcrane, hactive, rfl⟩

/-- An item is shown as it already was while its photo was published. -/
theorem mem_before (hc : (pipeline cfg).Holds c) (hrun : (system cfg).run c es = some c')
    (ht : t.photos = c.shared.store.photos) (ht' : t'.photos = c'.shared.store.photos)
    (h : craneDetail base t crane_id = .ok detail) (h' : craneDetail base t' crane_id = .ok detail')
    (hitem : item ∈ detail'.photo_items) (hstage : c.shared.store.stage item.id = .active) :
    item ∈ detail.photo_items := by
  obtain ⟨photo', hrow', hcrane, hactive', rfl⟩ := (mem_photo_items (hc.run hrun).1 ht' h').1 hitem
  have hstage' : c.shared.store.stage photo'.id = CranePhotoStatus.stage .active := hstage
  obtain ⟨photo, hrow, hactive⟩ := Store.row_of_stage hstage'
  obtain rfl := eq_of_active hc hrun hrow hrow' hactive hactive'
  exact (mem_photo_items hc.1 ht h).2 ⟨photo', hrow, hcrane, hactive', rfl⟩

/-- The items that two lists share stand in the same order. -/
theorem filter_shared {items items' : List CranePhotoResponse} (horder : items.Pairwise shownBefore)
    (horder' : items'.Pairwise shownBefore) (hids : (items.map CranePhotoResponse.id).Nodup)
    (hids' : (items'.map CranePhotoResponse.id).Nodup) :
    items.filter (· ∈ items') = items'.filter (· ∈ items) := by
  have hmem : ∀ x, x ∈ items.filter (· ∈ items') ↔ x ∈ items'.filter (· ∈ items) := by
    intro x
    simp only [List.mem_filter, decide_eq_true_eq, and_comm]
  have hperm : (items.filter (· ∈ items')).Perm (items'.filter (· ∈ items)) :=
    (List.perm_ext_iff_of_nodup ((List.Nodup.of_map _ hids).filter _)
      ((List.Nodup.of_map _ hids').filter _)).2 hmem
  refine hperm.eq_of_pairwise (fun x y hx hy hxy hyx => ?_) (horder.filter _) (horder'.filter _)
  have hy' := of_decide_eq_true (List.mem_filter.1 hy).2
  exact List.inj_on_of_nodup_map hids (List.mem_filter.1 hx).1 hy' (id_eq_of_shownBefore hxy hyx)

end History

/-- The photos that the route of a crane shows, at two points of a run. They are at most three, in order, and
each has its object in storage at a URL of its own. What is shown both times is shown unchanged and in the
same order. An item that is not shown any more was deleted in between, by an admin deletion of this photo
of this crane that has answered `204`, and is never shown again. An item that has come was finalized in
between by its own upload. -/
theorem gallery_history {K : Type} {cfg : Settings} {clock : Timestamp} {cranes : List Uuid}
    {es es' : List (Event Action)} {c c' : State}
    (hrun : (system cfg).run (initial clock cranes) es = some c)
    (hrun' : (system cfg).run c es' = some c') {public_base_url : String} (hbase : public_base_url ≠ "")
    {t t' : Tables K} (ht : t.photos = c.shared.store.photos) (ht' : t'.photos = c'.shared.store.photos)
    {crane_id : Uuid} {detail detail' : CraneDetail K}
    (h : craneDetail (some public_base_url) t crane_id = .ok detail)
    (h' : craneDetail (some public_base_url) t' crane_id = .ok detail') :
    Shows public_base_url c.shared.store detail.photo_items ∧
    detail.photo_items.filter (· ∈ detail'.photo_items) =
      detail'.photo_items.filter (· ∈ detail.photo_items) ∧
    (∀ item ∈ detail.photo_items, item ∉ detail'.photo_items →
      (∃ p, Deleted cfg c es' p crane_id item.id ∧
        c'.procs p = .adminDelete (.answered (.ok 204))) ∧
      ∀ es'' c'', (system cfg).run c' es'' = some c'' → ∀ photo ∈ c''.shared.store.photos,
        photo.id = item.id → photo.status ≠ .active) ∧
    ∀ item ∈ detail'.photo_items, item ∉ detail.photo_items →
      ∃ p, ⟨p, .upload .finalizeCommit⟩ ∈ es' ∧
        Finalized cfg (initial clock cranes) (es ++ es') p item.id := by
  have hinit := holds_initial cfg clock cranes
  have hc := hinit.run hrun
  have hc' := hc.run hrun'
  refine ⟨shows_photo_items hbase hc.1 ht h, ?_, fun item hitem hnot => ?_, fun item hitem hnot => ?_⟩
  · exact filter_shared (pairwise_photo_items h) (pairwise_photo_items h')
      (nodup_photo_items hc.1 ht h) (nodup_photo_items hc'.1 ht' h')
  · have hleft : c'.shared.store.stage item.id ≠ .active := fun hstage =>
      hnot (mem_after hc hrun' ht ht' h h' hitem hstage)
    obtain ⟨photo, hrow, rfl, hactive, rfl⟩ := (mem_photo_items hc.1 ht h).1 hitem
    obtain ⟨p, hdel⟩ := deleted_of_active hc hrun' hrow hactive hleft
    obtain ⟨hgone, hanswered⟩ := hdel.gone hc hrun'
    refine ⟨⟨p, hdel, hanswered⟩, fun es'' c'' hrun'' photo' hphoto' hid hactive' => ?_⟩
    -- What is gone stays gone.
    have hgone' := gone_run hc' hrun'' hgone
    have hrow' := (hc'.run hrun'').1.photo_of_mem hphoto'
    rw [hid] at hrow'
    exact hgone'.ne_active (Store.stage_of_active hrow' hactive')
  · have hbefore : c.shared.store.stage item.id ≠ .active := fun hstage =>
      hnot (mem_before hc hrun' ht ht' h h' hitem hstage)
    exact finalized_of_active hinit (fun _ => rfl) hrun hrun' hbefore (stage_of_mem hc' ht' h' hitem)

/-- The tables of a site with the crane 1. -/
def oneCrane (photos : List CranePhoto) : Tables ℤ where
  cranes := [⟨1, 0, 0, ⟨0, 0⟩, none, .active, none, none, 0, 0⟩]
  photos := photos
  crane_unique := List.nodup_singleton _

/-- Two photos of the crane 1 are published. -/
def twoPublished : List (Event Action) :=
  preuploadEvents 0 1 2 ++ publishEvents 0 ++ (preuploadEvents 1 1 3 ++ publishEvents 1)

/-- An admin deletes the first of them, and another photo is published. -/
def oneReplaced : List (Event Action) :=
  [⟨2, .startAdminDelete 1 2⟩, ⟨2, .adminDelete .lock⟩, ⟨2, .adminDelete (.commit 4)⟩] ++
    (preuploadEvents 3 1 5 ++ publishEvents 3)

/-- The first photo goes by its deletion, and the new one comes by its finalization. -/
theorem gallery_history_replaced : ∃ c c', (system {}).run (initial 0 [1]) twoPublished = some c ∧
    (system {}).run c oneReplaced = some c' ∧ (∃ p, Deleted {} c oneReplaced p 1 2) ∧
      ∃ p, Finalized {} (initial 0 [1]) (twoPublished ++ oneReplaced) p 5 := by
  have hrun : ((system {}).run (initial 0 [1]) twoPublished).bind (fun c =>
      ((system {}).run c oneReplaced).map fun c' => (c.shared.store.photos, c'.shared.store.photos))
      = some ([jpegPhoto 0 1 2 .active, jpegPhoto 0 1 3 .active],
        [jpegPhoto 0 1 2 .pendingDelete, jpegPhoto 0 1 3 .active, jpegPhoto 0 1 5 .active]) := by
    decide +kernel
  obtain ⟨c, hc, hnext⟩ := Option.bind_eq_some_iff.1 hrun
  obtain ⟨c', hc', hphotos⟩ := Option.map_eq_some_iff.1 hnext
  obtain ⟨hold, hnew⟩ := Prod.mk.inj hphotos
  have hcons : c.shared.store.Consistent := ((holds_initial {} 0 [1]).run hc).1
  have hcons' : c'.shared.store.Consistent := (((holds_initial {} 0 [1]).run hc).run hc').1
  obtain ⟨detail, h, -⟩ := craneDetail_of_mem (some "https://photos.example")
    (s := oneCrane c.shared.store.photos) List.mem_cons_self
  obtain ⟨detail', h', -⟩ := craneDetail_of_mem (some "https://photos.example")
    (s := oneCrane c'.shared.store.photos) List.mem_cons_self
  obtain ⟨-, -, hgone, hcome⟩ := gallery_history hc hc' (by decide) rfl rfl h h'
  -- An item is shown when its photo is among the published ones.
  have hshown : ∀ {s : Store} {d : CraneDetail ℤ}, s.Consistent →
      craneDetail (some "https://photos.example") (oneCrane s.photos) 1 = .ok d → ∀ photo,
        serializeCranePhoto (some "https://photos.example") photo ∈ d.photo_items ↔ ∃ r ∈ s.photos,
          r.crane_id = 1 ∧ r.status = .active ∧ serializeCranePhoto (some "https://photos.example") r =
            serializeCranePhoto (some "https://photos.example") photo := by
    intro s d hs hd photo
    rw [mem_photo_items hs rfl hd]
    refine exists_congr fun r => ?_
    exact ⟨fun ⟨hrow, hrest⟩ => ⟨mem_of_row hrow, hrest⟩, fun ⟨hmem, hrest⟩ => ⟨hs.photo_of_mem hmem, hrest⟩⟩
  refine ⟨c, c', hc, hc', ?_, ?_⟩
  · obtain ⟨⟨p, hdel, -⟩, -⟩ := hgone (serializeCranePhoto _ (jpegPhoto 0 1 2 .active))
      ((hshown hcons h _).2 (by rw [hold]; exact ⟨_, List.mem_cons_self, rfl, rfl, rfl⟩))
      (by rw [hshown hcons' h', hnew]; decide)
    exact ⟨p, hdel⟩
  · obtain ⟨p, -, hfinal⟩ := hcome (serializeCranePhoto _ (jpegPhoto 0 1 5 .active))
      ((hshown hcons' h' _).2 (by
        rw [hnew]
        exact ⟨jpegPhoto 0 1 5 .active, by simp, rfl, rfl, rfl⟩))
      (by rw [hshown hcons h, hold]; decide)
    exact ⟨p, hfinal⟩

end CraneTracker.Cranes
