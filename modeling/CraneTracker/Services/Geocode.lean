import Mathlib.Algebra.Order.Ring.Rat
import CraneTracker.Schemas

/-!
# The geocode service

`app/services/geocode.py`, from the outcome of the HTTP call, and the rest of `create_crane` over it, up to
the row that it inserts and reads back. The body of a response is an arbitrary JSON value: nothing checks
it, and a field of the address goes into the crane as it stands, with the type that it has.

`create_crane` catches only a `GeocodeRetrievalError`. `geocode_never_blocks` says for which outcomes that
is enough: unless a value that must be an object is none, or the field that names the city or the
neighborhood is no string, or a string that the flush cannot store.

What the driver and the database make of a value of another type is not part of the repository. It is the
parameter `convert`, and nothing depends on it.
-/

namespace CraneTracker

/-! ## Strings -/

/-- A Python string: code points, among them surrogates that stand alone. -/
abbrev PyStr := List (Fin 0x110000)

/-- The code point of a character. -/
def codePoint (c : Char) : Fin 0x110000 :=
  ⟨c.toNat, by
    have hvalid : c.toNat < 0xd800 ∨ 0xdfff < c.toNat ∧ c.toNat < 0x110000 := c.valid
    omega⟩

namespace PyStr

/-- The string of a text. -/
def ofText (text : String) : PyStr := text.toList.map codePoint

/-- A surrogate, which has no encoding in UTF-8. -/
def isSurrogate (c : Fin 0x110000) : Bool := 0xd800 ≤ c.val && c.val ≤ 0xdfff

/-- The text that a `TEXT` column takes the string for. The driver cannot encode a surrogate, and the
database rejects a NUL character. -/
def text? (s : PyStr) : Option String :=
  if s.any isSurrogate || s.contains 0 then none
  else some (String.ofList (s.map fun c => Char.ofNat c.val))

end PyStr

/-! ## JSON -/

/-- A decoded JSON value. The decoder reads `NaN`, `Infinity`, and `-Infinity` too. -/
inductive Json
  | null
  | bool (b : Bool)
  | int (n : ℤ)
  | float (x : ℚ)
  | infinity (negative : Bool)
  | nan
  | str (s : PyStr)
  | arr (items : List Json)
  | obj (members : List (PyStr × Json))

namespace Json

/-- The truth value that Python gives it. -/
def truthy : Json → Bool
  | null => false
  | bool b => b
  | int n => n ≠ 0
  | float x => x ≠ 0
  | infinity _ => true
  | nan => true
  | str s => !s.isEmpty
  | arr items => !items.isEmpty
  | obj members => !members.isEmpty

/-- `dict.get`. -/
def member (members : List (PyStr × Json)) (field : String) : Json :=
  (members.lookup (PyStr.ofText field)).getD null

/-- A string that a `TEXT` column takes. -/
def Storable (value : Json) : Prop := ∃ s text, value = str s ∧ s.text? = some text

/-- `None`, or a string that a `TEXT` column takes. -/
def StorableOrNull (value : Json) : Prop := value = null ∨ value.Storable

/-- The value of the first of the fields whose value is truthy. -/
def FirstTruthy (members : List (PyStr × Json)) (fields : List String) (value : Json) : Prop :=
  ∃ before field after, fields = before ++ field :: after ∧
    (∀ f ∈ before, (member members f).truthy = false) ∧ member members field = value ∧
      value.truthy = true

end Json

/-! ## The HTTP call -/

/-- A `requests.RequestException`, by the first `except` clause that it meets. -/
inductive RequestException
  | timeout
  | connectionError
  /-- An `HTTPError`, with the status of its response, if it has one. -/
  | httpError (response : Option ℕ)
  /-- Any other one, with its text. -/
  | other (message : String)

/-- The outcome of `requests.get`: it raises, or it returns a response with a status and a body. The body
is a JSON value, or is not JSON. -/
inductive HttpOutcome
  | raised (e : RequestException)
  | response (status : ℕ) (body : Option Json)

/-- The status is that of an error. A response with such a status is falsy. -/
def errorStatus (status : ℕ) : Bool := 400 ≤ status && status < 600

/-- `Response.raise_for_status`. -/
def raiseForStatus (status : ℕ) : Option RequestException :=
  if errorStatus status then some (.httpError (some status)) else none

/-- `TIMEOUT_SECONDS`. -/
def timeoutSeconds : ℕ := 5

/-- The text of the `GeocodeRetrievalError` that takes the place of the exception. -/
def RequestException.reason : RequestException → String
  | .timeout => "timeout " ++ toString timeoutSeconds ++ " seconds"
  | .connectionError => "connection error"
  | .httpError response =>
    "bad status " ++ match response with
      | some status => if errorStatus status then "unknown" else toString status
      | none => "unknown"
  | .other message => "request error " ++ message

/-! ## `reverse_geocode` -/

/-- What `reverse_geocode` raises: a `GeocodeRetrievalError`, or the `AttributeError` of a value that has
no `get`. -/
inductive GeocodeError
  | retrieval (message : String)
  | attributeError

/-- `value.get(field)`. -/
def Json.get : Json → String → Except GeocodeError Json
  | .obj members, field => .ok (Json.member members field)
  | _, _ => .error .attributeError

/-- The loop of `extract_neighborhood` and `extract_city`. -/
def extractField (address : Json) : List String → Except GeocodeError Json
  | [] => .ok .null
  | field :: fields => do
    let value ← address.get field
    if value.truthy then .ok value else extractField address fields

/-- The fields that name a neighborhood. -/
def neighborhoodFields : List String :=
  ["neighbourhood", "quarter", "suburb", "city_district", "borough", "district"]

/-- The fields that name a city. -/
def cityFields : List String := ["city", "town", "village", "municipality"]

/-- `extract_neighborhood`. -/
def extractNeighborhood (address : Json) : Except GeocodeError Json :=
  extractField address neighborhoodFields

/-- `extract_city`. -/
def extractCity (address : Json) : Except GeocodeError Json := extractField address cityFields

/-- The fields of a `GeocodeData` as they are set: of any type. -/
structure GeocodeValues where
  city : Json
  neighborhood : Json

/-- `reverse_geocode`. -/
def reverseGeocode : HttpOutcome → Except GeocodeError GeocodeValues
  | .raised e => .error (.retrieval e.reason)
  | .response status body =>
    match raiseForStatus status, body with
    | some e, _ => .error (.retrieval e.reason)
    | none, none => .error (.retrieval "JSON parse")
    | none, some value => do
      let address ← value.get "address"
      if address.truthy then
        let city ← extractCity address
        let neighborhood ← extractNeighborhood address
        .ok ⟨city, neighborhood⟩
      else
        .ok ⟨.null, .null⟩

/-! ## `create_crane` -/

variable {K : Type} [Ring K] [LinearOrder K]

/-- The crane that `create_crane` builds. -/
structure BuiltCrane (K : Type) extends CraneInput K where
  status : CraneStatus
  city : Json
  neighborhood : Json
  location : Point K

/-- What `create_crane` raises. The flush raises for a row that the table rejects, and for a value that
cannot be sent. -/
inductive CreateCraneError
  | duplicateCrane
  | attributeError
  | flushError

/-- The width of `project_name`, a `VARCHAR(255)`. -/
def projectNameWidth : ℕ := 255

/-- A value in a nullable `TEXT` column. There is no result if the flush raises. -/
def Json.column? (convert : Json → Option String) : Json → Option (Option String)
  | null => some none
  | str s => s.text?.map some
  | value => (convert value).map some

/-- `session.flush()` in a transaction that began at `now`: the row that it inserts. There is no result if
it raises. -/
def BuiltCrane.flush (convert : Json → Option String) (now : Timestamp) (id : Uuid)
    (crane : BuiltCrane K) : Option (Crane K) :=
  -- The `CHECK` constraints have the limits of the schema.
  if crane.toCraneInput.validate && crane.project_name.all (fitsVarchar projectNameWidth) then do
    let city ← crane.city.column? convert
    let neighborhood ← crane.neighborhood.column? convert
    some { crane with id, city, neighborhood, added_at := now, updated_at := now }
  else none

/-- What `create_crane` has done: the crane that it built, and the row that `session.refresh` reads into it
after the flush. -/
structure CreatedCrane (K : Type) where
  built : BuiltCrane K
  row : Crane K

/-- The `Crane(...)` of `create_crane`. -/
def buildCrane (input : CraneInput K) (geocode_data : GeocodeValues) : BuiltCrane K :=
  { input with
    status := .active
    city := geocode_data.city
    neighborhood := geocode_data.neighborhood
    location := input.point }

/-- `session.add`, `session.flush`, and `session.refresh`. -/
def insertCrane (convert : Json → Option String) (now : Timestamp) (id : Uuid) (crane : BuiltCrane K) :
    Except CreateCraneError (CreatedCrane K) :=
  match crane.flush convert now id with
  | some row => .ok ⟨crane, row⟩
  | none => .error .flushError

/-- `create_crane`. -/
def createCrane (dwithin : Point K → Point K → ℕ → Bool) (convert : Json → Option String)
    (now : Timestamp) (id : Uuid) (cranes : List (Crane K)) (input : CraneInput K)
    (override_duplicate_warning : Bool) (outcome : HttpOutcome) :
    Except CreateCraneError (CreatedCrane K) :=
  if override_duplicate_warning = false ∧ possibleDuplicate dwithin cranes input then
    .error .duplicateCrane
  else
    match reverseGeocode outcome with
    | .ok geocode_data => insertCrane convert now id (buildCrane input geocode_data)
    | .error (.retrieval _) => insertCrane convert now id (buildCrane input ⟨.null, .null⟩)
    | .error .attributeError => .error .attributeError

/-! ## The values of an address -/

variable {members : List (PyStr × Json)} {fields : List String} {address value : Json}

/-- The first truthy value, as a search. -/
theorem firstTruthy_iff : Json.FirstTruthy members fields value ↔
    fields.findSome? (fun field => if (Json.member members field).truthy then
      some (Json.member members field) else none) = some value := by
  rw [List.findSome?_eq_some_iff, Json.FirstTruthy]
  constructor
  · rintro ⟨l, field, l', hfields, hbefore, rfl, htruthy⟩
    exact ⟨l, field, l', hfields, by rw [if_pos htruthy], fun f hf => by simp [hbefore f hf]⟩
  · rintro ⟨l, field, l', hfields, hfield, hbefore⟩
    split_ifs at hfield with htruthy
    obtain rfl := Option.some.inj hfield
    exact ⟨l, field, l', hfields, fun f hf => by simpa using hbefore f hf, rfl, htruthy⟩

/-- The loop returns the first truthy value of an address, and `None` if there is none. -/
theorem extractField_obj : extractField (.obj members) fields =
    .ok ((fields.findSome? fun field => if (Json.member members field).truthy then
      some (Json.member members field) else none).getD .null) := by
  induction fields with
  | nil => rfl
  | cons field fields ih =>
    rw [extractField, List.findSome?_cons]
    change (if (Json.member members field).truthy then Except.ok (Json.member members field) else _) = _
    split_ifs with htruthy
    · rfl
    · exact ih

/-- What the loop returns can be stored if and only if the first truthy value, if any, can. -/
theorem storableOrNull_extractField (h : extractField (.obj members) fields = .ok value) :
    value.StorableOrNull ↔ ∀ v, Json.FirstTruthy members fields v → v.Storable := by
  rw [extractField_obj] at h
  obtain rfl := Except.ok.inj h
  simp only [firstTruthy_iff]
  cases hfirst : fields.findSome? fun field => if (Json.member members field).truthy then
      some (Json.member members field) else none with
  | none => simp [Json.StorableOrNull]
  | some v =>
    -- A truthy value is not `None`.
    have hne : v ≠ .null := by
      rintro rfl
      obtain ⟨-, -, -, -, -, -, htruthy⟩ := firstTruthy_iff.2 hfirst
      cases htruthy
    simp [Json.StorableOrNull, hne]

/-! ## Well-shaped outcomes -/

/-- Nothing is wrong with an address that is falsy, or an object in which the first truthy value that
names the city and the first one that names the neighborhood, if any, are strings that a column takes. -/
def Json.AddressWellShaped (address : Json) : Prop :=
  address.truthy = false ∨ ∃ members, address = .obj members ∧
    (∀ v, FirstTruthy members cityFields v → v.Storable) ∧
      ∀ v, FirstTruthy members neighborhoodFields v → v.Storable

/-- Nothing is wrong with an exception, an error status, a body that is not JSON, or an object with a
well-shaped address. -/
def HttpOutcome.WellShaped : HttpOutcome → Prop
  | .raised _ => True
  | .response status body => errorStatus status = true ∨ body = none ∨
      ∃ members, body = some (.obj members) ∧ (Json.member members "address").AddressWellShaped

/-- The call returned what can be stored, or raised what `create_crane` catches. -/
def Handled : Except GeocodeError GeocodeValues → Prop
  | .ok values => values.city.StorableOrNull ∧ values.neighborhood.StorableOrNull
  | .error (.retrieval _) => True
  | .error .attributeError => False

/-- The two loops over an address. -/
theorem handled_extract (h : address.truthy = true) :
    Handled (do
      let city ← extractCity address
      let neighborhood ← extractNeighborhood address
      .ok ⟨city, neighborhood⟩) ↔ address.AddressWellShaped := by
  have hshape : address.AddressWellShaped ↔ ∃ members, address = .obj members ∧
      (∀ v, Json.FirstTruthy members cityFields v → v.Storable) ∧
        ∀ v, Json.FirstTruthy members neighborhoodFields v → v.Storable := by
    simp [Json.AddressWellShaped, h]
  rw [hshape]
  cases address with
  | obj members =>
    obtain ⟨city, hcity⟩ : ∃ city, extractCity (.obj members) = .ok city := ⟨_, extractField_obj⟩
    obtain ⟨neighborhood, hneighborhood⟩ :
        ∃ neighborhood, extractNeighborhood (.obj members) = .ok neighborhood :=
      ⟨_, extractField_obj⟩
    rw [hcity, hneighborhood]
    change city.StorableOrNull ∧ neighborhood.StorableOrNull ↔ _
    rw [storableOrNull_extractField hcity, storableOrNull_extractField hneighborhood]
    simp
  | null | bool | int | float | infinity | nan | str | arr =>
    exact ⟨False.elim, by rintro ⟨_, ⟨⟩, -⟩⟩

/-- The outcome of a body that is an object. -/
theorem handled_members {status : ℕ} (h : errorStatus status = false) :
    Handled (reverseGeocode (.response status (some (.obj members)))) ↔
      (Json.member members "address").AddressWellShaped := by
  have hvalue : reverseGeocode (.response status (some (.obj members))) =
      if (Json.member members "address").truthy then do
        let city ← extractCity (Json.member members "address")
        let neighborhood ← extractNeighborhood (Json.member members "address")
        .ok ⟨city, neighborhood⟩
      else .ok ⟨.null, .null⟩ := by
    simp only [reverseGeocode, raiseForStatus, h, Bool.false_eq_true, if_false]
    rfl
  rw [hvalue]
  split_ifs with htruthy
  · exact handled_extract htruthy
  · exact ⟨fun _ => .inl (by simpa using htruthy), fun _ => ⟨.inl rfl, .inl rfl⟩⟩

/-- `reverse_geocode` returns what can be stored or raises what `create_crane` catches exactly for the
well-shaped outcomes. -/
theorem handled_reverseGeocode {outcome : HttpOutcome} :
    Handled (reverseGeocode outcome) ↔ outcome.WellShaped := by
  cases outcome with
  | raised e => exact Iff.rfl
  | response status body =>
    cases hstatus : errorStatus status with
    | true => simp [reverseGeocode, raiseForStatus, HttpOutcome.WellShaped, Handled, hstatus]
    | false =>
      rw [HttpOutcome.WellShaped]
      cases body with
      | none => simp [reverseGeocode, raiseForStatus, Handled, hstatus]
      | some value =>
        cases value with
        | obj members => simp [handled_members hstatus, hstatus]
        | null | bool | int | float | infinity | nan | str | arr =>
          simp [reverseGeocode, raiseForStatus, Handled, hstatus, Json.get, bind, Except.bind]

/-! ## Creation -/

variable {dwithin : Point K → Point K → ℕ → Bool} {convert : Json → Option String} {now : Timestamp}
  {id : Uuid} {cranes : List (Crane K)} {input : CraneInput K} {override_duplicate_warning : Bool}
  {outcome : HttpOutcome}

/-- What can be stored is stored as the same text whatever becomes of other values. -/
theorem column_of_storableOrNull (h : value.StorableOrNull) :
    ∃ text, ∀ convert, value.column? convert = some text := by
  rcases h with rfl | ⟨s, text, rfl, htext⟩
  · exact ⟨none, fun _ => rfl⟩
  · refine ⟨some text, fun _ => ?_⟩
    rw [Json.column?, htext, Option.map_some]

/-- The name of the project fits its column. -/
def CraneInput.NameFits (input : CraneInput K) : Prop :=
  ∀ name ∈ input.project_name, fitsVarchar projectNameWidth name = true

/-- A crane is inserted as it was built, with the row of its flush. -/
theorem insertCrane_eq_ok {crane : BuiltCrane K} {created : CreatedCrane K} :
    insertCrane convert now id crane = .ok created ↔
      created.built = crane ∧ crane.flush convert now id = some created.row := by
  unfold insertCrane
  cases crane.flush convert now id with
  | none => simp
  | some row =>
    constructor
    · rintro ⟨⟩
      exact ⟨rfl, rfl⟩
    · rintro ⟨rfl, hrow⟩
      rw [Option.some.inj hrow]

omit [Ring K] [LinearOrder K] in
/-- The duplicate check passes. -/
theorem not_duplicate (h : override_duplicate_warning = true ∨
    possibleDuplicate dwithin cranes input = false) :
    ¬ (override_duplicate_warning = false ∧ possibleDuplicate dwithin cranes input = true) := by
  rintro ⟨hoverride, hduplicate⟩
  rw [hoverride, hduplicate] at h
  simp at h

/-- How `reverse_geocode` ends; `none` if it sets a field to what is neither `None` nor a text that can be
stored. -/
def HttpOutcome.result? (outcome : HttpOutcome) : Option GeocodeResult :=
  match reverseGeocode outcome with
  | .ok values => do
    let city ← values.city.column? fun _ => none
    let neighborhood ← values.neighborhood.column? fun _ => none
    some (.data ⟨city, neighborhood⟩)
  | .error (.retrieval message) => some (.retrievalError message)
  | .error .attributeError => some .otherError

/-- The row of a crane whose texts can be stored. -/
theorem insertCrane_row (hvalid : input.validate = true) (hname : input.NameFits)
    {geocode_data : GeocodeValues} {data : GeocodeData}
    (hcity : geocode_data.city.column? convert = some data.city)
    (hneighborhood : geocode_data.neighborhood.column? convert = some data.neighborhood) :
    insertCrane convert now id (buildCrane input geocode_data) =
      .ok ⟨buildCrane input geocode_data, createCraneRow now id input data⟩ := by
  have hfits : input.project_name.all (fitsVarchar projectNameWidth) = true :=
    (Option.all_eq_true _ _).2 hname
  refine insertCrane_eq_ok.2 ⟨rfl, ?_⟩
  unfold BuiltCrane.flush buildCrane
  dsimp only
  rw [hvalid, hfits, hcity, hneighborhood]
  rfl

/-- For a well-shaped outcome, `create_crane` inserts the row that it makes of what `reverse_geocode`
ends with. -/
theorem createCrane_row (hvalid : input.validate = true) (hname : input.NameFits)
    (h : override_duplicate_warning = true ∨ possibleDuplicate dwithin cranes input = false)
    (hshape : outcome.WellShaped) : ∃ built result data,
      createCrane dwithin convert now id cranes input override_duplicate_warning outcome =
        .ok ⟨built, createCraneRow now id input data⟩ ∧
          outcome.result? = some result ∧ result.orNone = some data := by
  have hhandled := handled_reverseGeocode.2 hshape
  rw [createCrane, if_neg (not_duplicate h), HttpOutcome.result?]
  revert hhandled
  cases reverseGeocode outcome with
  | ok values =>
    rintro ⟨hcity, hneighborhood⟩
    obtain ⟨city, hcity⟩ := column_of_storableOrNull hcity
    obtain ⟨neighborhood, hneighborhood⟩ := column_of_storableOrNull hneighborhood
    refine ⟨_, .data ⟨city, neighborhood⟩, ⟨city, neighborhood⟩,
      insertCrane_row hvalid hname (hcity convert) (hneighborhood convert), ?_, rfl⟩
    dsimp only
    rw [hcity, hneighborhood]
    rfl
  | error e =>
    cases e with
    | retrieval message =>
      exact fun _ => ⟨_, .retrievalError message, ⟨none, none⟩,
        insertCrane_row hvalid hname rfl rfl, rfl, rfl⟩
    | attributeError => exact False.elim

end CraneTracker
