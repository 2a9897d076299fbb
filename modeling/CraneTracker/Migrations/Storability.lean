import CraneTracker.Migrations.Versions
import CraneTracker.Schemas
import CraneTracker.Services.Photo

/-!
# What is accepted can be stored

The rows of `create_crane` and `preupload_crane_photo` against the tables of `models/base.py` and those
of the migrated database, which state the same limits (`takes_crane`, `takes_cranePhoto`).

Every accepted upload fits. An accepted crane fits if and only if its project name has at most 255
characters, which the request schema does not ask for (`storability`).
-/

namespace CraneTracker

open Ddl Migrations

variable {K : Type}

/-! ## The tables of the models -/

/-- `Crane.__table__`. -/
def Crane.table : Table where
  name := "crane"
  columns := [
    { name := "id", type := .uuid },
    { name := "lat", type := .float },
    { name := "lng", type := .float },
    { name := "location", type := .external "postgis" },
    { name := "project_name", type := .string (some 255), nullable := true },
    { name := "status", type := .text },
    { name := "city", type := .text, nullable := true },
    { name := "neighborhood", type := .text, nullable := true },
    { name := "added_at", type := .dateTime },
    { name := "updated_at", type := .dateTime }]
  constraints := [
    .primaryKey ["id"],
    .range "ck_crane_lat_range" "lat" (-90) 90,
    .range "ck_crane_lng_range" "lng" (-180) 180]

/-- `CranePhoto.__table__`. -/
def CranePhoto.table : Table where
  name := "crane_photo"
  columns := [
    { name := "id", type := .uuid },
    { name := "crane_id", type := .uuid },
    { name := "storage_key", type := .string (some 1024) },
    { name := "original_filename", type := .string (some 255) },
    { name := "content_type", type := .string (some 100) },
    { name := "added_at", type := .dateTime },
    { name := "status"
      type := .enum "crane_photo_status" ["active", "pending_upload", "pending_delete"] }]
  constraints := [
    .primaryKey ["id"],
    .foreignKey "crane_id" "crane" "id",
    .unique ["storage_key"]]

section Takes

variable [IntCast K] [LE K] {row : String → Value K}

/-- The migrated tables. -/
theorem tables_head : (schema head).tables = [craneTable, goneReportTable, cranePhotoTable,
    outboxJobTable, adminUserTable, adminTokenTable, photoReportTable] :=
  rfl

/-- The migrated database takes the rows that its table takes. -/
theorem takes_head {t : Table} (ht : t ∈ (schema head).tables) :
    (schema head).Takes t.name row ↔ t.Admits row := by
  have hnames : ((schema head).tables.map Table.name).Nodup := by
    rw [tables_head]
    decide
  exact Catalog.takes_iff hnames ht

/-- The migrated table `crane` takes the rows that the model's table takes. -/
theorem takes_crane : (schema head).Takes "crane" row ↔ Crane.table.Admits row := by
  have hmem : craneTable ∈ (schema head).tables := by simp [tables_head]
  refine (takes_head hmem).trans ?_
  rw [Table.admits_iff, Table.admits_iff]
  simp [craneTable, Crane.table, Constraint.Admits]

/-- The migrated table `crane_photo` takes the rows that the model's table takes. -/
theorem takes_cranePhoto :
    (schema head).Takes "crane_photo" row ↔ CranePhoto.table.Admits row := by
  have hmem : cranePhotoTable ∈ (schema head).tables := by simp [tables_head]
  refine (takes_head hmem).trans ?_
  rw [Table.admits_iff, Table.admits_iff]
  simp [cranePhotoTable, CranePhoto.table, Constraint.Admits]

end Takes

/-! ## Rows -/

/-- The value of a `str | None`. -/
def textOrNull : Option String → Value K
  | none => .null
  | some s => .text s

/-- The values of `CraneStatus`. -/
def CraneStatus.value : CraneStatus → String
  | .active => "active"
  | .gone => "gone"

/-- The values of `CranePhotoStatus`. -/
def CranePhotoStatus.value : CranePhotoStatus → String
  | .active => "active"
  | .pendingUpload => "pending_upload"
  | .pendingDelete => "pending_delete"

/-- A row of `crane`, by column. -/
def Crane.row (crane : Crane K) (column : String) : Value K :=
  match column with
  | "lat" => .number crane.lat
  | "lng" => .number crane.lng
  | "project_name" => textOrNull crane.project_name
  | "status" => .text crane.status.value
  | "city" => textOrNull crane.city
  | "neighborhood" => textOrNull crane.neighborhood
  | _ => .other

/-- A row of `crane_photo`, by column. -/
def CranePhoto.row (photo : CranePhoto) (column : String) : Value K :=
  match column with
  | "storage_key" => .text photo.storage_key
  | "original_filename" => .text photo.original_filename
  | "content_type" => .text photo.content_type
  | "status" => .text photo.status.value
  | _ => .other

@[simp]
theorem admits_textOrNull_string {name : String} {length : ℕ} {s : Option String} :
    Column.Admits (K := K) ⟨name, .string (some length), true⟩ (textOrNull s) ↔
      ∀ text ∈ s, text.length ≤ length := by
  cases s <;> simp [textOrNull]

@[simp]
theorem admits_textOrNull_text {name : String} {s : Option String} :
    Column.Admits (K := K) ⟨name, .text, true⟩ (textOrNull s) ↔ True := by
  cases s <;> simp [textOrNull]

variable [Ring K] [LinearOrder K]

/-- What the table `crane` asks of a row. -/
theorem Crane.admits_row {crane : Crane K} : Crane.table.Admits crane.row ↔
    (∀ name ∈ crane.project_name, name.length ≤ 255) ∧
      (-90 ≤ crane.lat ∧ crane.lat ≤ 90) ∧ (-180 ≤ crane.lng ∧ crane.lng ≤ 180) := by
  rw [Table.admits_iff]
  simp [Crane.table, Constraint.Admits, Crane.row]

/-- What the table `crane_photo` asks of a row. -/
theorem CranePhoto.admits_row {photo : CranePhoto} :
    CranePhoto.table.Admits (photo.row : String → Value K) ↔ photo.storage_key.length ≤ 1024 ∧
      photo.original_filename.length ≤ 255 ∧ photo.content_type.length ≤ 100 := by
  rw [Table.admits_iff]
  simp [CranePhoto.table, Constraint.Admits, CranePhoto.row]
  cases photo.status <;> simp [CranePhotoStatus.value]

/-! ## What passes the checks -/

/-- An image is stored in one of the formats. -/
theorem prepareImage_eq_ok {image : ImageFile} {content_type stored_content_type extension : String}
    (h : prepareImage image content_type = .ok (stored_content_type, extension)) :
    ∃ f ∈ imageFormats, f.2.output_content_type = stored_content_type ∧ f.2.extension = extension := by
  unfold prepareImage at h
  split at h
  · cases h
  · split_ifs at h
    split at h
    · cases h
    · split at h
      · cases h
      · rename_i config hconfig
        split_ifs at h
        split at h
        · cases h
        · split_ifs at h
          cases h
          obtain ⟨l, l', hformats, -⟩ := List.lookup_eq_some_iff.1 hconfig
          exact ⟨_, hformats ▸ List.mem_append_right l List.mem_cons_self, rfl, rfl⟩

/-- The content types and extensions of the formats are short. -/
theorem length_imageFormats : ∀ f ∈ imageFormats,
    f.2.output_content_type.length ≤ 100 ∧ f.2.extension.length ≤ 5 := by
  decide

/-- An upload that passes has a file name, a content type, and an extension that are not too long. -/
theorem length_of_validateUpload {r : UploadRequest} {upload : PreparedUpload}
    (h : validateUpload r = .ok upload) : upload.filename.length ≤ 255 ∧
      upload.content_type.length ≤ 100 ∧ upload.extension.length ≤ 5 := by
  unfold validateUpload at h
  dsimp only at h
  split_ifs at h with _ hfilename
  split at h
  · cases h
  · rename_i himage
    cases h
    obtain ⟨f, hf, rfl, rfl⟩ := prepareImage_eq_ok himage
    exact ⟨not_lt.1 hfilename, length_imageFormats f hf⟩

/-- A storage key is as long as its ids and its extension make it. -/
theorem length_createStorageKey (crane_id photo_id : Uuid) (extension : String) :
    (createStorageKey crane_id photo_id extension).length = 87 + extension.length := by
  have hcrane := crane_id.length_str
  have hphoto := photo_id.length_str
  rw [String.length_toList] at hcrane hphoto
  have hcranes : "cranes/".length = 7 := by decide
  have hphotos : "/photos/".length = 8 := by decide
  simp only [createStorageKey, String.length_append, hcrane, hphoto, hcranes, hphotos]

/-! ## Storability -/

/-- The row of an accepted crane fits if and only if its project name does. -/
theorem takes_createCraneRow (now : Timestamp) (id : Uuid) {input : CraneInput K}
    (geocode_data : GeocodeData) (h : input.validate = true) :
    (schema head).Takes "crane" (createCraneRow now id input geocode_data).row ↔
      ∀ name ∈ input.project_name, name.length ≤ 255 := by
  rw [takes_crane, Crane.admits_row]
  simp only [CraneInput.validate, Bool.and_eq_true, decide_eq_true_eq] at h
  exact ⟨fun hrow => hrow.1, fun hname => ⟨hname, h.1, h.2⟩⟩

variable (K) in
/-- The row of an accepted upload fits. -/
theorem takes_preuploadCranePhoto (now : Timestamp) (photo_id : Uuid) {r : UploadRequest}
    {upload : PreparedUpload} (h : validateUpload r = .ok upload) : (schema head).Takes "crane_photo"
      ((preuploadCranePhoto now upload photo_id).row : String → Value K) := by
  obtain ⟨hfilename, hcontent, hextension⟩ := length_of_validateUpload h
  have hkey := length_createStorageKey upload.crane_id photo_id upload.extension
  rw [takes_cranePhoto, CranePhoto.admits_row]
  exact ⟨by rw [preuploadCranePhoto, hkey]; omega, hfilename, hcontent⟩

/-- The rows of accepted requests fit the tables, but for the project name of a crane. -/
theorem storability (now : Timestamp) :
    (∀ (request : CreateCraneRequest K) (id : Uuid) (geocode_data : GeocodeData),
      request.validate = true →
        ((schema head).Takes "crane" (createCraneRow now id request.toCraneInput geocode_data).row ↔
          ∀ name ∈ request.project_name, name.length ≤ 255)) ∧
    ∀ (r : UploadRequest) (upload : PreparedUpload) (photo_id : Uuid), validateUpload r = .ok upload →
      (schema head).Takes "crane_photo"
        ((preuploadCranePhoto now upload photo_id).row : String → Value K) :=
  ⟨fun _ id geocode_data h => takes_createCraneRow now id geocode_data h,
    fun _ _ photo_id h => takes_preuploadCranePhoto K now photo_id h⟩

/-- A crane with a project name of five characters, and a photo. -/
theorem storability_accepted :
    (schema head).Takes "crane"
      (createCraneRow 0 1 { lat := 52, lng := 13, project_name := some "Tower" } ⟨none, none⟩ :
        Crane ℤ).row ∧
    (schema head).Takes "crane_photo"
      ((preuploadCranePhoto 0 ⟨1, "photo", "image/png", ".png"⟩ 2).row : String → Value ℤ) :=
  ⟨((storability 0).1 (⟨⟨52, 13, some "Tower"⟩, false⟩ : CreateCraneRequest ℤ) 1 ⟨none, none⟩
      rfl).2 (by intro name hname; cases hname; decide),
    (storability 0).2 ⟨1, none, some "image/png", 100, ⟨.ok ("PNG", 640, 480), .ok (), .ok 90⟩⟩ _ 2
      (by decide)⟩

/-- A project name of 256 characters passes the schema, and does not fit the column. -/
theorem long_project_name :
    let request : CreateCraneRequest ℤ :=
      { lat := 52, lng := 13, project_name := some (String.ofList (List.replicate 256 'x')) }
    request.validate = true ∧ ¬ (schema head).Takes "crane"
      (createCraneRow 0 1 request.toCraneInput ⟨none, none⟩).row := by
  intro request
  have hvalid : request.validate = true := rfl
  refine ⟨hvalid, fun htakes => ?_⟩
  have hlength := (takes_createCraneRow 0 1 ⟨none, none⟩ hvalid).1 htakes _ rfl
  rw [String.length_ofList, List.length_replicate] at hlength
  omega

end CraneTracker
