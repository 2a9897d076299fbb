import Mathlib.Data.List.Dedup
import Mathlib.Tactic.NormNum
import Mathlib.Tactic.IntervalCases
import CraneTracker.Models
import CraneTracker.Lib.Table

/-!
# The photo service, statement by statement

`app/services/photo.py` and `app/services/job.py`: the checks that an upload passes before it touches
the database, the storage key, the capacity count, and what the writes of the service do to a row.
`Pipeline/System.lean` puts them in the order in which the routes and the worker run them.

Pillow is not part of the repository. `ImageFile` records what it makes of the uploaded bytes, and
`prepareImage` is `prepare_image` over that record.

`createStorageKey_inj` is what the rest of the development needs of the key's text: the ids in it have
a fixed length, so the key determines them.
-/

namespace CraneTracker

/-! ## Validation -/

/-- `MAX_PHOTO_SIZE_BYTES`. -/
def maxPhotoSizeBytes : ℕ := 10 * 1024 * 1024

/-- `MAX_PHOTO_PIXELS`. -/
def maxPhotoPixels : ℕ := 16000000

/-- `MAX_PHOTO_LONG_EDGE_PIXELS`. -/
def maxPhotoLongEdgePixels : ℕ := 4096

/-- `MAX_PHOTOS_PER_CRANE`. -/
def maxPhotosPerCrane : ℕ := 3

/-- An entry of `IMAGE_FORMATS`: the declared content types that it admits, and the content type and
extension under which the re-encoded image is stored. -/
structure FormatConfig where
  content_types : List String
  output_content_type : String
  extension : String

/-- `IMAGE_FORMATS`. -/
def imageFormats : List (String × FormatConfig) :=
  [("HEIF", ⟨["image/heic", "image/heif"], "image/jpeg", ".jpg"⟩),
   ("JPEG", ⟨["image/jpeg"], "image/jpeg", ".jpg"⟩),
   ("PNG", ⟨["image/png"], "image/png", ".png"⟩),
   ("WEBP", ⟨["image/webp"], "image/webp", ".webp"⟩)]

/-- `ALLOWED_PHOTO_TYPES`. -/
def allowedPhotoTypes : List String := imageFormats.flatMap fun f => f.2.content_types

/-- The classes of exceptions that the `except` clauses of `prepare_image` tell apart. `other` stands
for every class that is below none of the others. -/
inductive ImageException
  | decompressionBombError
  | decompressionBombWarning
  | osError
  | syntaxError
  | unidentifiedImageError
  | valueError
  | other
deriving DecidableEq, Repr

/-- The class itself and the classes above it. -/
def ImageException.bases : ImageException → List ImageException
  | .unidentifiedImageError => [.unidentifiedImageError, .osError]
  | e => [e]

/-- An exception of Pillow: its class, and its `str`. -/
structure ImageError where
  exception : ImageException
  message : String
deriving DecidableEq, Repr

/-- The `except` clause of `prepare_image` around opening and verifying the image. -/
def caughtOnOpen : List ImageException :=
  [.decompressionBombError, .decompressionBombWarning, .osError, .syntaxError,
    .unidentifiedImageError, .valueError]

/-- The `except` clause of `prepare_image` around re-encoding the image. It has no `SyntaxError`. -/
def caughtOnProcess : List ImageException :=
  [.decompressionBombError, .decompressionBombWarning, .osError, .valueError]

/-- What an exception of Pillow leaves an `except` clause as. The clause raises an `InvalidPhotoError`
with its own message for the classes that it names, and lets the others pass. -/
def ImageError.throughExcept (e : ImageError) (clause : List ImageException) (message : String) :
    AppError :=
  if e.exception.bases.any clause.contains then .invalidPhoto message else .pillow e.message

/-- What Pillow makes of an uploaded file. -/
structure ImageFile where
  /-- The format name, width, and height, when the file opens. -/
  opened : Except ImageError (String × ℕ × ℕ)
  /-- The result of `verify`. -/
  verified : Except ImageError Unit
  /-- The size of the re-encoded image, when re-encoding succeeds. -/
  encoded : Except ImageError ℕ

/-- `prepare_image`: the content type and the extension of the re-encoded image. -/
def prepareImage (image : ImageFile) (content_type : String) : Except AppError (String × String) :=
  match image.opened with
  | .error e => .error (e.throughExcept caughtOnOpen "File is not a valid image")
  | .ok (image_format, width, height) =>
    if max width height > maxPhotoLongEdgePixels then
      .error (.photoTooLarge "Photo longest edge must be 4,096 pixels or fewer")
    else if width * height > maxPhotoPixels then
      .error (.photoTooLarge "Photo must contain 16,000,000 pixels or fewer")
    else
      -- The size is known from the header, before the image is verified.
      match image.verified with
      | .error e => .error (e.throughExcept caughtOnOpen "File is not a valid image")
      | .ok _ =>
        -- The declared content type must be one of the format that was found.
        match imageFormats.lookup image_format with
        | none =>
          .error (.unsupportedPhotoType "Photo contents do not match the declared content type")
        | some config =>
          if content_type ∉ config.content_types then
            .error (.unsupportedPhotoType "Photo contents do not match the declared content type")
          else
            match image.encoded with
            | .error e =>
              .error (e.throughExcept caughtOnProcess "File could not be safely processed")
            | .ok size =>
              if size > maxPhotoSizeBytes then
                .error (.photoTooLarge "Processed photo must be 10 MB or smaller")
              else
                .ok (config.output_content_type, config.extension)

/-- An upload request as `upload_crane_photo` receives it. -/
structure UploadRequest where
  crane_id : Uuid
  filename : Option String
  content_type : Option String
  file_size : ℕ
  image : ImageFile

/-- Python's `value or default` on an optional string. -/
def orDefault (value : Option String) (default : String) : String :=
  match value with
  | none => default
  | some s => if s = "" then default else s

/-- What an accepted upload inserts, apart from the ids and the time. -/
structure PreparedUpload where
  crane_id : Uuid
  filename : String
  content_type : String
  extension : String
deriving DecidableEq, Repr

/-- The checks of `preupload_crane_photo` that come before the database. -/
def validateUpload (r : UploadRequest) : Except AppError PreparedUpload :=
  let filename := orDefault r.filename "photo"
  let content_type := orDefault r.content_type "application/octet-stream"
  if content_type ∉ allowedPhotoTypes then
    .error (.unsupportedPhotoType ("Unsupported photo content type: " ++ content_type))
  else if filename.length > 255 then
    .error (.invalidPhoto "Photo filename must be 255 characters or fewer")
  else if r.file_size = 0 then
    .error (.invalidPhoto "Photo must not be empty")
  else if r.file_size > maxPhotoSizeBytes then
    .error (.photoTooLarge "Photo must be 10 MB or smaller")
  else
    match prepareImage r.image content_type with
    | .error e => .error e
    | .ok (stored_content_type, extension) =>
      .ok ⟨r.crane_id, filename, stored_content_type, extension⟩

/-- The two `except` clauses of `prepare_image` differ in `SyntaxError` only. The first turns it into an
`InvalidPhotoError`, and the second lets it pass. -/
theorem caughtOnOpen_ne_caughtOnProcess (e : ImageException) :
    e.bases.any caughtOnOpen.contains ≠ e.bases.any caughtOnProcess.contains ↔ e = .syntaxError := by
  cases e <;> decide

/-- An error of the validation: an `InvalidPhotoError`, or an exception of Pillow that got past the
`except` clauses. -/
def AppError.OfValidation (e : AppError) : Prop :=
  (∃ status ∈ [413, 415, 422], e.response = .error status e.str) ∨ ∃ message, e = .pillow message

theorem AppError.ofValidation_invalidPhoto (message : String) :
    (AppError.invalidPhoto message).OfValidation :=
  Or.inl ⟨422, by simp, rfl⟩

theorem AppError.ofValidation_photoTooLarge (message : String) :
    (AppError.photoTooLarge message).OfValidation :=
  Or.inl ⟨413, by simp, rfl⟩

theorem AppError.ofValidation_unsupportedPhotoType (message : String) :
    (AppError.unsupportedPhotoType message).OfValidation :=
  Or.inl ⟨415, by simp, rfl⟩

/-- What leaves an `except` clause of `prepare_image` is an error of the validation. -/
theorem ImageError.ofValidation_throughExcept (e : ImageError) (clause : List ImageException)
    (message : String) : (e.throughExcept clause message).OfValidation := by
  unfold ImageError.throughExcept
  split_ifs
  · exact AppError.ofValidation_invalidPhoto message
  · exact Or.inr ⟨_, rfl⟩

/-- `prepare_image` raises nothing but errors of the validation. -/
theorem ofValidation_of_prepareImage {image : ImageFile} {content_type : String} {e : AppError}
    (h : prepareImage image content_type = .error e) : e.OfValidation := by
  unfold prepareImage at h
  -- One case for each of the ways out, in the order of the source.
  repeat' split at h
  all_goals cases h
  all_goals first
    | exact ImageError.ofValidation_throughExcept _ _ _
    | exact AppError.ofValidation_photoTooLarge _
    | exact AppError.ofValidation_unsupportedPhotoType _

/-- The checks before the database raise nothing but errors of the validation. -/
theorem ofValidation_of_validateUpload {r : UploadRequest} {e : AppError}
    (h : validateUpload r = .error e) : e.OfValidation := by
  unfold validateUpload at h
  dsimp only at h
  repeat' split at h
  all_goals cases h
  all_goals first
    | exact AppError.ofValidation_unsupportedPhotoType _
    | exact AppError.ofValidation_invalidPhoto _
    | exact AppError.ofValidation_photoTooLarge _
    | exact ofValidation_of_prepareImage (by assumption)

/-! ## The storage key -/

/-- `create_storage_key`. -/
def createStorageKey (crane_id photo_id : Uuid) (extension : String) : String :=
  "cranes/" ++ crane_id.str ++ "/photos/" ++ photo_id.str ++ extension

/-- Distinct values below `16` have distinct digits. -/
theorem hexDigit_inj {m n : ℕ} (hm : m < 16) (hn : n < 16) (h : hexDigit m = hexDigit n) :
    m = n := by
  have hall : ∀ a < 16, ∀ b < 16, hexDigit a = hexDigit b → a = b := by decide
  exact hall m hm n hn h

@[simp]
theorem length_hexDigits (w n : ℕ) : (hexDigits w n).length = w := by
  induction w generalizing n with
  | zero => rfl
  | succ w ih => simp [hexDigits, ih]

/-- `w` hexadecimal digits determine a number modulo `16^w`. -/
theorem hexDigits_inj {w m n : ℕ} (h : hexDigits w m = hexDigits w n) :
    m % 16 ^ w = n % 16 ^ w := by
  induction w generalizing m n with
  | zero => simp [Nat.mod_one]
  | succ w ih =>
    -- The last digit is the remainder, and the others are the quotient.
    obtain ⟨hhigh, hlow⟩ := List.append_inj h (by simp)
    have hhigh' := ih hhigh
    have hlow' : m % 16 = n % 16 :=
      hexDigit_inj (Nat.mod_lt _ (by norm_num)) (Nat.mod_lt _ (by norm_num)) (by simpa using hlow)
    rw [pow_succ', Nat.mod_mul, Nat.mod_mul, hhigh', hlow']

/-- The text of a UUID has 36 characters. -/
theorem Uuid.length_str (u : Uuid) : u.str.toList.length = 36 := by
  simp [Uuid.str]

/-- The text of a UUID determines it. -/
theorem Uuid.str_inj {u v : Uuid} (h : u.str = v.str) : u = v := by
  have hlist := congrArg String.toList h
  simp only [Uuid.str, String.toList_ofList] at hlist
  -- The groups have fixed lengths, so equal texts have equal groups.
  obtain ⟨h₁, hlist⟩ := List.append_inj hlist (by simp)
  obtain ⟨h₂, hlist⟩ := List.append_inj (List.cons.inj hlist).2 (by simp)
  obtain ⟨h₃, hlist⟩ := List.append_inj (List.cons.inj hlist).2 (by simp)
  obtain ⟨h₄, hlist⟩ := List.append_inj (List.cons.inj hlist).2 (by simp)
  have h₅ := hexDigits_inj (List.cons.inj hlist).2
  replace h₁ := hexDigits_inj h₁
  replace h₂ := hexDigits_inj h₂
  replace h₃ := hexDigits_inj h₃
  replace h₄ := hexDigits_inj h₄
  have hu := u.isLt
  have hv := v.isLt
  -- The five groups are the 128 bits, from the top.
  apply BitVec.eq_of_toNat_eq
  norm_num at *
  omega

/-- A storage key determines its crane, its photo, and its extension. -/
theorem createStorageKey_inj {crane_id crane_id' photo_id photo_id' : Uuid}
    {extension extension' : String}
    (h : createStorageKey crane_id photo_id extension
      = createStorageKey crane_id' photo_id' extension') :
    crane_id = crane_id' ∧ photo_id = photo_id' ∧ extension = extension' := by
  have hlist := congrArg String.toList h
  simp only [createStorageKey, String.toList_append, List.append_assoc] at hlist
  -- The two ids have 36 characters each, and the rest is the extension.
  obtain ⟨-, hlist⟩ := List.append_inj hlist rfl
  obtain ⟨hcrane, hlist⟩ := List.append_inj hlist (by simp [Uuid.length_str])
  obtain ⟨-, hlist⟩ := List.append_inj hlist rfl
  obtain ⟨hphoto, hext⟩ := List.append_inj hlist (by simp [Uuid.length_str])
  exact ⟨Uuid.str_inj (String.ext hcrane), Uuid.str_inj (String.ext hphoto), String.ext hext⟩

/-! ## Reads and writes of the service -/

/-- A photo that `ensure_crane_photo_capacity` counts for a crane. -/
def CranePhoto.countsFor (crane_id : Uuid) (photo : CranePhoto) : Bool :=
  photo.crane_id = crane_id && (photo.status = .active || photo.status = .pendingUpload)

/-- The count of `ensure_crane_photo_capacity`. -/
def activePhotoCount (photos : List CranePhoto) (crane_id : Uuid) : ℕ :=
  photos.countP (CranePhoto.countsFor crane_id)

/-- The comparison of `ensure_crane_photo_capacity`. -/
def ensureCranePhotoCapacity (photos : List CranePhoto) (crane_id : Uuid) : Except AppError Unit :=
  let active_photo_count := activePhotoCount photos crane_id
  if active_photo_count ≥ maxPhotosPerCrane then
    .error (.photoLimitExceeded "A crane can have at most 3 photos" crane_id active_photo_count)
  else
    .ok ()

/-- The check passes exactly below the limit. -/
theorem ensureCranePhotoCapacity_eq_ok {photos : List CranePhoto} {crane_id : Uuid} {u : Unit} :
    ensureCranePhotoCapacity photos crane_id = .ok u ↔
      activePhotoCount photos crane_id < maxPhotosPerCrane := by
  unfold ensureCranePhotoCapacity
  dsimp only
  split_ifs with h
  · simp only [false_iff]
    omega
  · simp only [true_iff]
    omega

/-- The row that `preupload_crane_photo` inserts in a transaction that began at `now`. -/
def preuploadCranePhoto (now : Timestamp) (upload : PreparedUpload) (photo_id : Uuid) :
    CranePhoto where
  id := photo_id
  crane_id := upload.crane_id
  storage_key := createStorageKey upload.crane_id photo_id upload.extension
  original_filename := upload.filename
  content_type := upload.content_type
  added_at := now

/-- What the `UPDATE` of `finalize_crane_photo` sets. -/
def finalizeCranePhoto (photo : CranePhoto) : CranePhoto := { photo with status := .active }

/-- What `create_delete_crane_job` sets on the photo. -/
def markPendingDelete (photo : CranePhoto) : CranePhoto := { photo with status := .pendingDelete }

/-- The row that `create_task` inserts in a transaction that began at `now`. -/
def createTask (now : Timestamp) (id : Uuid) (operation : JobOperation) (storage_key : String) :
    OutboxJob where
  id := id
  operation := operation
  storage_key := storage_key
  available_at := now
  created_at := now

/-! ## Reports -/

/-- `get_photo_report_counts`: the number of reports of each of the photos that has any. The query
groups the reports of the photos by photo, and the result is a `dict`. -/
def getPhotoReportCounts (reports : List PhotoReport) (photo_ids : List Uuid) : List (Uuid × ℕ) :=
  if photo_ids = [] then []
  else
    let rows := reports.filter fun r => photo_ids.contains r.photo_id
    (rows.map PhotoReport.photo_id).dedup.map fun i => (i, rows.countP fun r => r.photo_id = i)

/-- The `get` of the `dict`, with `0` for a photo that is absent: the number of its reports. -/
theorem lookup_getPhotoReportCounts {reports : List PhotoReport} {photo_ids : List Uuid} {i : Uuid}
    (hi : i ∈ photo_ids) : ((getPhotoReportCounts reports photo_ids).lookup i).getD 0 =
      reports.countP fun r => r.photo_id = i := by
  have hne : photo_ids ≠ [] := List.ne_nil_of_mem hi
  unfold getPhotoReportCounts
  rw [if_neg hne]
  dsimp only
  -- The reports of the photo are among those that the query selects.
  have hcount : (reports.filter fun r => photo_ids.contains r.photo_id).countP
      (fun r => r.photo_id = i) = reports.countP fun r => r.photo_id = i := by
    rw [List.countP_filter]
    refine List.countP_congr fun r _ => ?_
    simp only [Bool.and_eq_true, decide_eq_true_eq, List.contains_iff_mem]
    constructor
    · exact fun h => h.1
    · rintro rfl
      exact ⟨rfl, hi⟩
  by_cases hmem : i ∈ (reports.filter fun r => photo_ids.contains r.photo_id).map
      PhotoReport.photo_id
  · rw [List.lookup_graph _ (List.mem_dedup.2 hmem), Option.getD_some, hcount]
  · have hnone : ∀ r ∈ reports.filter fun r => photo_ids.contains r.photo_id, r.photo_id ≠ i :=
      fun r hr heq => hmem (List.mem_map.2 ⟨r, hr, heq⟩)
    rw [List.lookup_eq_none_iff.2, Option.getD_none, ← hcount]
    · exact (List.countP_eq_zero.2 fun r hr => by simpa using hnone r hr).symm
    · intro x hx
      obtain ⟨j, hj, rfl⟩ := List.mem_map.1 hx
      have hij : i ≠ j := by
        rintro rfl
        exact hmem (List.mem_dedup.1 hj)
      simpa using hij

end CraneTracker
