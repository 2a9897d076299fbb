import Mathlib.Data.List.DropRight
import Mathlib.Order.Basic
import CraneTracker.Lib.Keyset
import CraneTracker.Pipeline.Store

/-!
# The admin photo list

`GET /cranes/photos`, the photo list of the admin page (`app/routes/crane.py`), with the query of
`app/services/photo.py` under it, and a client that pages through it. The store may change between two
requests, and between the two queries of a request, each of which reads its own snapshot.

The query is a keyset query on the photo id (`Lib/Keyset.lean`), and the client's traversal is the
library's on the photos that pass the filter (`traverse_ids`). `crane_photos_paging` is the result.
-/

namespace CraneTracker.Admin

open Pipeline Table

/-! ## The query -/

/-- The order of the database on `uuid` columns. -/
local instance : LinearOrder Uuid where
  le a b := a ≤ b
  lt a b := a < b
  le_refl := BitVec.le_refl
  le_trans _ _ _ := BitVec.le_trans
  lt_iff_le_not_ge a b := by
    rw [BitVec.not_le]
    exact ⟨fun h => ⟨BitVec.le_of_lt h, h⟩, fun h => h.2⟩
  le_antisymm _ _ := BitVec.le_antisymm
  le_total := BitVec.le_total
  toDecidableLE a b := inferInstanceAs (Decidable (a ≤ b))
  toDecidableLT a b := inferInstanceAs (Decidable (a < b))
  toDecidableEq := inferInstance

/-- The filter of `get_crane_photos`: the photo is active, and it has a report if `reported_only`. -/
def listed (s : Store) (reported_only : Bool) (photo : CranePhoto) : Bool :=
  photo.status = .active &&
    (!reported_only || s.reports.any fun report => report.photo_id = photo.id)

/-- `get_crane_photos` of the service: `ORDER BY id DESC LIMIT limit + 1`, below `photo_id` if there
is one. -/
def getCranePhotos (s : Store) (photo_id : Option Uuid) (limit : ℕ) (reported_only : Bool) :
    List CranePhoto :=
  Keyset.query CranePhoto.id photo_id (limit + 1) (s.photos.filter (listed s reported_only))

/-- A photo that the query returns is in the table, and passes the filter. -/
theorem mem_of_mem_getCranePhotos {s : Store} {photo_id : Option Uuid} {limit : ℕ}
    {reported_only : Bool} {photo : CranePhoto}
    (h : photo ∈ getCranePhotos s photo_id limit reported_only) :
    photo ∈ s.photos ∧ listed s reported_only photo = true := by
  have hmem := Keyset.mem_listing.1 (List.mem_of_mem_take h)
  exact List.mem_filter.1 hmem.1

/-! ## The response -/

/-- `quote(object_key, safe="/")`: letters, digits, and a few marks stay, and the bytes of every other
character are escaped. -/
def quote (object_key : String) : String :=
  String.ofList (object_key.toList.flatMap fun c =>
    if c.isAlphanum || ['_', '.', '-', '~', '/'].contains c then [c]
    else (String.utf8EncodeChar c).flatMap fun b =>
      '%' :: (hexDigits 2 b.toNat).map Char.toUpper)

/-- `get_public_url`. -/
def getPublicUrl (r2_public_base_url : Option String) (object_key : String) : Option String :=
  match r2_public_base_url with
  | none => none
  | some public_base_url =>
    if public_base_url = "" then none
    else some (String.ofList (public_base_url.toList.rdropWhile (· = '/')) ++ "/" ++ quote object_key)

/-- `AdminPhotoResponse`. -/
structure AdminPhotoResponse where
  id : Uuid
  crane_id : Uuid
  url : Option String
  original_filename : String
  content_type : String
  added_at : Timestamp
  report_count : ℕ
deriving DecidableEq, Repr

/-- `serialize_crane_photo`, and the report count. -/
def serializeCranePhoto (r2_public_base_url : Option String) (photo : CranePhoto) (report_count : ℕ) :
    AdminPhotoResponse where
  id := photo.id
  crane_id := photo.crane_id
  url := getPublicUrl r2_public_base_url photo.storage_key
  original_filename := photo.original_filename
  content_type := photo.content_type
  added_at := photo.added_at
  report_count := report_count

/-- `PhotoListResponse`. -/
structure PhotoListResponse where
  photos : List AdminPhotoResponse
  «end» : Bool
deriving DecidableEq, Repr

/-- What one request meets: the store at its query of the photos, and at its query of the counts. -/
structure Snapshots where
  photos : Store
  counts : Store

/-- `get_crane_photos` of the route. -/
def photoList (r2_public_base_url : Option String) (s : Snapshots) (cursor : Option Uuid) (limit : ℕ)
    (reported_only : Bool) : PhotoListResponse :=
  let photos := getCranePhotos s.photos cursor limit reported_only
  let report_counts :=
    getPhotoReportCounts s.counts.reports ((photos.take limit).map CranePhoto.id)
  { photos := (photos.take limit).map fun photo =>
      serializeCranePhoto r2_public_base_url photo ((report_counts.lookup photo.id).getD 0)
    «end» := if photos.length > limit then false else true }

/-! ## The client -/

/-- The id of the last photo of a page. -/
def PhotoListResponse.cursor (page : PhotoListResponse) : Option Uuid :=
  page.photos.getLast?.map AdminPhotoResponse.id

/-- A client that passes the id of the last photo of each page as the next cursor, until `end` is true.
The list is what its requests meet. -/
def traverse (r2_public_base_url : Option String) (limit : ℕ) (reported_only : Bool) :
    Option Uuid → List Snapshots → List PhotoListResponse
  | _, [] => []
  | cursor, s :: requests =>
    let page := photoList r2_public_base_url s cursor limit reported_only
    if page.end then [page]
    else page :: traverse r2_public_base_url limit reported_only page.cursor requests

/-- The ids of the photos that a client receives, in order. -/
def receivedIds (pages : List PhotoListResponse) : List Uuid :=
  pages.flatMap fun page => page.photos.map AdminPhotoResponse.id

section Traverse

variable {url : Option String} {limit : ℕ} {reported_only : Bool} {cursor : Option Uuid}
  {s : Snapshots} {requests : List Snapshots}

/-- The photos that pass the filter, at the requests. -/
def tables (reported_only : Bool) (requests : List Snapshots) : List (List CranePhoto) :=
  requests.map fun s => s.photos.photos.filter (listed s.photos reported_only)

/-- The ids of a page, and whether it is the last one. -/
def PhotoListResponse.ids (page : PhotoListResponse) : List Uuid × Bool :=
  (page.photos.map AdminPhotoResponse.id, page.end)

/-- The ids of a page of the library, and whether it is the last one. -/
def pageIds (p : Keyset.Page CranePhoto) : List Uuid × Bool := (p.rows.map CranePhoto.id, p.last)

variable (url limit reported_only cursor s) in
/-- The route returns a page of the library. -/
theorem ids_photoList : (photoList url s cursor limit reported_only).ids =
    pageIds (Keyset.page CranePhoto.id limit cursor
      (s.photos.photos.filter (listed s.photos reported_only))) := by
  unfold PhotoListResponse.ids pageIds photoList Keyset.page getCranePhotos
  dsimp only
  rw [List.map_map]
  congr 1
  split_ifs with h
  · rw [decide_eq_true h, Bool.not_true]
  · rw [decide_eq_false h, Bool.not_false]

variable (url limit reported_only cursor requests) in
/-- The client's traversal is that of the library. -/
theorem traverse_ids : (traverse url limit reported_only cursor requests).map PhotoListResponse.ids =
    (Keyset.traverse CranePhoto.id limit cursor (tables reported_only requests)).map pageIds := by
  induction requests generalizing cursor with
  | nil => rfl
  | cons s requests ih =>
    have hpage := ids_photoList url limit reported_only cursor s
    have hend : (photoList url s cursor limit reported_only).end = (Keyset.page CranePhoto.id limit
        cursor (s.photos.photos.filter (listed s.photos reported_only))).last :=
      congrArg Prod.snd hpage
    -- The cursor is the last of the ids.
    have hcursor : (photoList url s cursor limit reported_only).cursor = (Keyset.page CranePhoto.id
        limit cursor (s.photos.photos.filter (listed s.photos reported_only))).cursor
          CranePhoto.id := by
      unfold PhotoListResponse.cursor Keyset.Page.cursor
      rw [← List.getLast?_map, ← List.getLast?_map]
      exact congrArg List.getLast? (congrArg Prod.fst hpage)
    rw [tables, List.map_cons, traverse, hend, hcursor]
    cases hlast : (Keyset.page CranePhoto.id limit cursor
        (s.photos.photos.filter (listed s.photos reported_only))).last with
    | true =>
      rw [Keyset.traverse_of_last hlast, if_pos rfl, List.map_singleton, List.map_singleton, hpage]
    | false =>
      rw [Keyset.traverse_of_not_last hlast, if_neg Bool.false_ne_true, List.map_cons, List.map_cons,
        hpage, ih]
      rfl

/-- The client receives the ids of the rows that the library's traversal receives. -/
theorem receivedIds_traverse : receivedIds (traverse url limit reported_only cursor requests) =
    (Keyset.received (Keyset.traverse CranePhoto.id limit cursor
      (tables reported_only requests))).map CranePhoto.id := by
  have hids := congrArg (List.flatMap Prod.fst) (traverse_ids url limit reported_only cursor requests)
  rw [List.flatMap_map, List.flatMap_map] at hids
  rw [Keyset.received, List.map_flatMap]
  exact hids

/-- The two traversals reach the end together. -/
theorem exists_end_iff : (∃ page ∈ traverse url limit reported_only cursor requests, page.end = true) ↔
    ∃ p ∈ Keyset.traverse CranePhoto.id limit cursor (tables reported_only requests),
      p.last = true := by
  have hany := congrArg (fun l => l.any Prod.snd) (traverse_ids url limit reported_only cursor requests)
  simp only [List.any_map] at hany
  rw [← List.any_eq_true, ← List.any_eq_true]
  exact Bool.eq_iff_iff.1 hany

/-- The tables of the requests have unique ids. -/
theorem keyUnique_tables (h : ∀ s ∈ requests, KeyUnique CranePhoto.id s.photos.photos) :
    ∀ t ∈ tables reported_only requests, KeyUnique CranePhoto.id t := by
  intro t ht
  obtain ⟨s, hs, rfl⟩ := List.mem_map.1 ht
  exact (h s hs).sublist ((List.filter_sublist).map CranePhoto.id)

/-- A page of the client has the ids of a page of the library. -/
theorem exists_page {page : PhotoListResponse}
    (h : page ∈ traverse url limit reported_only cursor requests) :
    ∃ p ∈ Keyset.traverse CranePhoto.id limit cursor (tables reported_only requests),
      pageIds p = page.ids := by
  have hids := traverse_ids url limit reported_only cursor requests
  have hmem := List.mem_map_of_mem (f := PhotoListResponse.ids) h
  rw [hids] at hmem
  exact List.mem_map.1 hmem

/-- The ids that the client receives are strictly descending. -/
theorem pairwise_receivedIds (hlimit : 1 ≤ limit)
    (hunique : ∀ s ∈ requests, KeyUnique CranePhoto.id s.photos.photos) :
    (receivedIds (traverse url limit reported_only cursor requests)).Pairwise (· > ·) := by
  rw [receivedIds_traverse, List.pairwise_map]
  exact Keyset.pairwise_traverse cursor hlimit (keyUnique_tables hunique)

/-- The client receives no id twice. -/
theorem nodup_receivedIds (hlimit : 1 ≤ limit)
    (hunique : ∀ s ∈ requests, KeyUnique CranePhoto.id s.photos.photos) :
    (receivedIds (traverse url limit reported_only cursor requests)).Nodup :=
  (pairwise_receivedIds hlimit hunique).imp fun h => ne_of_gt h

/-- A page that is not the end has photos. -/
theorem photos_ne_nil (hlimit : 1 ≤ limit) {page : PhotoListResponse}
    (hpage : page ∈ traverse url limit reported_only cursor requests) (hend : page.end = false) :
    page.photos ≠ [] := by
  intro hempty
  obtain ⟨p, hp, hids⟩ := exists_page hpage
  have hlast : p.last = false := (congrArg Prod.snd hids).trans hend
  have hrows : p.rows.map CranePhoto.id = page.photos.map AdminPhotoResponse.id :=
    congrArg Prod.fst hids
  rw [hempty, List.map_nil, List.map_eq_nil_iff] at hrows
  exact Keyset.rows_ne_nil hlimit hp hlast hrows

end Traverse

/-! ## The result -/

/-- The ids of the photos that pass the filter. -/
def listedIds (s : Store) (reported_only : Bool) : List Uuid :=
  (s.photos.filter (listed s reported_only)).map CranePhoto.id

/-- A traversal that reaches the end has received what passed the filter at each request. -/
theorem mem_receivedIds {url : Option String} {limit : ℕ} (hlimit : 1 ≤ limit) {reported_only : Bool}
    {requests : List Snapshots} (hunique : ∀ s ∈ requests, KeyUnique CranePhoto.id s.photos.photos)
    (hend : ∃ page ∈ traverse url limit reported_only none requests, page.end = true) {id : Uuid}
    (hid : ∀ s ∈ requests.take (traverse url limit reported_only none requests).length,
      id ∈ listedIds s.photos reported_only) :
    id ∈ receivedIds (traverse url limit reported_only none requests) := by
  have hlength : (traverse url limit reported_only none requests).length =
      (Keyset.traverse CranePhoto.id limit none (tables reported_only requests)).length := by
    have hmap := congrArg List.length (traverse_ids url limit reported_only none requests)
    rwa [List.length_map, List.length_map] at hmap
  rw [receivedIds_traverse, List.mem_map]
  refine Keyset.mem_traverse_of_mem hlimit (keyUnique_tables hunique) (exists_end_iff.1 hend) ?_ rfl
  intro t ht
  rw [← hlength, tables, ← List.map_take] at ht
  obtain ⟨s, hs, rfl⟩ := List.mem_map.1 ht
  exact List.mem_map.1 (hid s hs)

/-- Paging through the admin photo list. Whatever happens to the store between the requests, the ids
that the client receives are strictly descending, only the last page may be empty, and a traversal
that reaches the end has received exactly once each photo that passed the filter at each request. When
the store does not change, the traversal ends, and it receives the photos that pass the filter. -/
theorem crane_photos_paging (url : Option String) (limit : ℕ) (hlimit : 1 ≤ limit)
    (reported_only : Bool) :
    (∀ requests : List Snapshots, (∀ s ∈ requests, KeyUnique CranePhoto.id s.photos.photos) →
      let pages := traverse url limit reported_only none requests
      (receivedIds pages).Pairwise (· > ·) ∧
        (∀ page ∈ pages, page.end = false → page.photos ≠ []) ∧
        ((∃ page ∈ pages, page.end = true) → ∀ id,
          (∀ s ∈ requests.take pages.length, id ∈ listedIds s.photos reported_only) →
            (receivedIds pages).count id = 1)) ∧
    ∀ s : Store, KeyUnique CranePhoto.id s.photos →
      ∀ n, (listedIds s reported_only).length < n →
        let pages := traverse url limit reported_only none (List.replicate n ⟨s, s⟩)
        (∃ page ∈ pages, page.end = true) ∧
          (receivedIds pages).Perm (listedIds s reported_only) := by
  constructor
  · intro requests hunique pages
    have hdesc : (receivedIds pages).Pairwise (· > ·) := pairwise_receivedIds hlimit hunique
    refine ⟨hdesc, fun page hpage hend => photos_ne_nil hlimit hpage hend, fun hend id hid => ?_⟩
    have hmem : id ∈ receivedIds pages := mem_receivedIds hlimit hunique hend hid
    exact List.count_eq_one_of_mem (hdesc.imp fun h => ne_of_gt h) hmem
  · intro s hunique n hn pages
    have htable : KeyUnique CranePhoto.id (s.photos.filter (listed s reported_only)) :=
      hunique.sublist ((List.filter_sublist).map CranePhoto.id)
    have hn' : (s.photos.filter (listed s reported_only)).length < n := by
      rwa [listedIds, List.length_map] at hn
    have htables : tables reported_only (List.replicate n ⟨s, s⟩) =
        List.replicate n (s.photos.filter (listed s reported_only)) := List.map_replicate
    constructor
    · rw [exists_end_iff, htables]
      exact Keyset.exists_last hlimit htable (lt_of_le_of_lt (List.length_filter_le _ _) hn')
    · rw [receivedIds_traverse, htables]
      exact (Keyset.traverse_replicate hlimit htable hn').map CranePhoto.id

/-- A request that meets a store with active photos of the given ids. -/
def activePhotos (ids : List Uuid) : Snapshots :=
  let photos := ids.map fun id => ⟨id, 1, "key", "name", "image/png", 0, .active⟩
  let s : Store := ⟨0, [1], photos, [], [], ∅, fun _ => none⟩
  ⟨s, s⟩

/-- Between the two requests of a client one photo goes and another comes. It receives the one that
stays once. -/
theorem crane_photos_paging_changing :
    (receivedIds (traverse none 1 false none
      [activePhotos [1, 2, 3], activePhotos [1, 4]])).count 1 = 1 := by
  have hunique : ∀ s ∈ [activePhotos [1, 2, 3], activePhotos [1, 4]],
      KeyUnique CranePhoto.id s.photos.photos := by
    intro s hs
    rcases List.mem_pair.1 hs with rfl | rfl
    · show List.Nodup _
      decide +kernel
    · show List.Nodup _
      decide +kernel
  refine ((crane_photos_paging none 1 le_rfl false).1 _ hunique).2.2 ?_ 1 ?_
  · decide +kernel
  · decide +kernel

end CraneTracker.Admin
