import Mathlib.Algebra.Group.Nat.Defs
import Mathlib.Data.Int.Notation

/-!
# The data model

The rows of `app/models/base.py`, the worker settings of `app/core/config.py`, and the exceptions of
`app/core/exceptions.py` that the photo pipeline raises. Field names are the source's.

Timestamps are integers, in microseconds, the resolution of the database's timestamps. A setting
given in milliseconds or seconds is converted where the source converts it. `random.uniform` draws a
real number of milliseconds, which `timedelta` rounds to microseconds, so a backoff is an integer
here too.
-/

namespace CraneTracker

/-! ## Identifiers -/

/-- A `uuid.UUID`. -/
abbrev Uuid := BitVec 128

/-- A database timestamp, in microseconds. -/
abbrev Timestamp := ℤ

/-- The lower-case hexadecimal digit of a number below `16`. -/
def hexDigit (n : ℕ) : Char := if n < 10 then Char.ofNat (48 + n) else Char.ofNat (87 + n)

/-- The `w` low hexadecimal digits of a number, most significant first. -/
def hexDigits : ℕ → ℕ → List Char
  | 0, _ => []
  | w + 1, n => hexDigits w (n / 16) ++ [hexDigit (n % 16)]

/-- `str` of a UUID: its 32 hexadecimal digits in groups of 8, 4, 4, 4, and 12. -/
def Uuid.str (u : Uuid) : String :=
  String.ofList (hexDigits 8 (u.toNat / 16 ^ 24) ++ '-' :: (hexDigits 4 (u.toNat / 16 ^ 20) ++
    '-' :: (hexDigits 4 (u.toNat / 16 ^ 16) ++ '-' :: (hexDigits 4 (u.toNat / 16 ^ 12) ++
      '-' :: hexDigits 12 u.toNat))))

/-! ## Photos -/

/-- `CranePhotoStatus`. -/
inductive CranePhotoStatus
  | active
  | pendingUpload
  | pendingDelete
deriving DecidableEq, Repr

/-- A row of `crane_photo`. -/
structure CranePhoto where
  id : Uuid
  crane_id : Uuid
  storage_key : String
  original_filename : String
  content_type : String
  added_at : Timestamp
  status : CranePhotoStatus := .pendingUpload
deriving DecidableEq, Repr

/-- A row of `photo_report`. -/
structure PhotoReport where
  id : Uuid
  photo_id : Uuid
  reporter_ip_hash : String
  added_at : Timestamp
deriving DecidableEq, Repr

/-! ## Jobs -/

/-- `JobOperation`. -/
inductive JobOperation
  | delete
deriving DecidableEq, Repr

/-- `JobStatus`. -/
inductive JobStatus
  | pending
  | processing
  | completed
  | failed
deriving DecidableEq, Repr

/-- A row of `outbox_job`. -/
structure OutboxJob where
  id : Uuid
  operation : JobOperation
  storage_key : String
  status : JobStatus := .pending
  /-- Starts at `0` and increments up. -/
  attempts : ℕ := 0
  /-- Controls the backoff on errors. -/
  available_at : Timestamp
  lease_expires_at : Option Timestamp := none
  last_error : Option String := none
  created_at : Timestamp
  completed_at : Option Timestamp := none
deriving DecidableEq, Repr

/-- The width of `last_error`, a `VARCHAR(1024)`. The database rejects a longer value. -/
def lastErrorWidth : ℕ := 1024

/-- The width of `original_filename`, a `VARCHAR(255)`. -/
def originalFilenameWidth : ℕ := 255

/-- The database takes the text into a `VARCHAR(width)` column. It rejects a longer text, and a text
with a NUL character. -/
def fitsVarchar (width : ℕ) (text : String) : Bool :=
  text.length ≤ width && !text.toList.contains '\x00'

/-! ## Settings -/

/-- The settings that the photo worker reads. -/
structure Settings where
  job_batch_size : ℕ := 5
  max_worker_attempts : ℕ := 5
  /-- Milliseconds. -/
  min_backoff_delay : ℤ := 1000
  /-- Milliseconds. -/
  max_backoff_delay : ℤ := 60000
  /-- Milliseconds. -/
  photo_reaper_delay : ℤ := 5000
  /-- Seconds. -/
  lock_lease_window : ℤ := 300
deriving DecidableEq, Repr

/-! ## Exceptions -/

/-- The exceptions that the photo services raise to the routes. `pillow` is one of Pillow's that no
`except` clause of the services names. -/
inductive AppError
  | resourceNotFound (resource : String) (identifier : Uuid)
  | invalidPhoto (message : String)
  | photoTooLarge (message : String)
  | unsupportedPhotoType (message : String)
  | photoLimitExceeded (message : String) (crane_id : Uuid) (active_photo_count : ℕ)
  | photoStorage (message : String)
  | photoUploadRace
  | pillow (message : String)
deriving DecidableEq, Repr

/-- `str` of an exception. -/
def AppError.str : AppError → String
  | .resourceNotFound resource identifier =>
    "Resource (" ++ resource ++ ") not found for " ++ identifier.str
  | .invalidPhoto message => message
  | .photoTooLarge message => message
  | .unsupportedPhotoType message => message
  | .photoLimitExceeded message _ _ => message
  | .photoStorage message => message
  | .photoUploadRace => "Race error during photo upload. Try again."
  | .pillow message => message

/-- What a request ends with: a response, or an exception that no handler of the application
catches. -/
inductive Answer
  | ok (status : ℕ)
  | error (status : ℕ) (detail : String)
  | raised
deriving DecidableEq, Repr

/-- The response that the application's exception handlers give for an exception that leaves a
route. The last three have no handler. The route of the upload catches two of them itself, a
`PhotoStorageError` and a `PhotoUploadRaceError`. -/
def AppError.response (e : AppError) : Answer :=
  match e with
  | .resourceNotFound _ _ => .error 404 e.str
  | .invalidPhoto _ => .error 422 e.str
  | .photoTooLarge _ => .error 413 e.str
  | .unsupportedPhotoType _ => .error 415 e.str
  | .photoLimitExceeded _ _ _ => .error 409 e.str
  | .photoStorage _ => .raised
  | .photoUploadRace => .raised
  | .pillow _ => .raised

/-- `sql_alchemy_error_handler`. -/
def sqlAlchemyErrorResponse : Answer := .error 500 "Internal Server Error"

end CraneTracker
