import CraneTracker.Admin.Paging
import CraneTracker.Lib.Percent

/-!
# The public URL of an object

`get_public_url` of `app/services/storage.py` puts the object key, as `quote` writes it, behind the public
domain of the bucket. The server reads the path back, so a URL names the object of one key, and no other
key has it (`public_url_names_key`). The keys of photos need no escapes.
-/

namespace CraneTracker.Cranes

open Admin

/-- The characters that `quote` leaves as they are. -/
def quoteSafe (c : Char) : Bool := c.isAlphanum || ['_', '.', '-', '~', '/'].contains c

/-- The public domain, as the URLs begin with it. -/
def publicRoot (public_base_url : String) : String :=
  String.ofList (public_base_url.toList.rdropWhile (· = '/')) ++ "/"

/-- `quote` is the library's encoding. -/
theorem quote_eq (object_key : String) :
    quote object_key = String.ofList (Percent.encode quoteSafe object_key.toList) := by
  have hescape : ∀ b : UInt8, '%' :: (hexDigits 2 b.toNat).map Char.toUpper = Percent.escape b := by
    have hall : ∀ n < 256, '%' :: (hexDigits 2 n).map Char.toUpper =
        ['%', (Nat.digitChar (n / 16)).toUpper, (Nat.digitChar (n % 16)).toUpper] := by
      decide +kernel
    exact fun b => hall b.toNat b.toNat_lt
  unfold quote Percent.encode Percent.encodeChar quoteSafe
  simp only [hescape]

theorem quoteSafe_percent : quoteSafe '%' = false := by decide

/-- The public URL of a key, when there is a public domain. -/
theorem getPublicUrl_eq {public_base_url : String} (h : public_base_url ≠ "") (object_key : String) :
    getPublicUrl (some public_base_url) object_key =
      some (publicRoot public_base_url ++ quote object_key) := if_neg h

/-- The digits of an id are safe. -/
theorem quoteSafe_hexDigits (w n : ℕ) : ∀ c ∈ hexDigits w n, quoteSafe c = true := by
  have hdigit : ∀ m < 16, quoteSafe (hexDigit m) = true := by decide
  induction w generalizing n with
  | zero => exact nofun
  | succ w ih =>
    intro c hc
    rw [hexDigits] at hc
    rcases List.mem_append.1 hc with hold | hnew
    · exact ih _ c hold
    · rw [List.mem_singleton.1 hnew]
      exact hdigit _ (Nat.mod_lt n (by decide))

/-- The text of an id is safe. -/
theorem quoteSafe_str (id : Uuid) : ∀ c ∈ id.str.toList, quoteSafe c = true := by
  have hdash : quoteSafe '-' = true := by decide
  intro c hc
  unfold Uuid.str at hc
  rw [String.toList_ofList] at hc
  simp only [List.mem_append, List.mem_cons] at hc
  rcases hc with h | rfl | h | rfl | h | rfl | h | rfl | h
  · exact quoteSafe_hexDigits _ _ c h
  · exact hdash
  · exact quoteSafe_hexDigits _ _ c h
  · exact hdash
  · exact quoteSafe_hexDigits _ _ c h
  · exact hdash
  · exact quoteSafe_hexDigits _ _ c h
  · exact hdash
  · exact quoteSafe_hexDigits _ _ c h

/-- The key of a photo is quoted as it is. -/
theorem quote_createStorageKey (crane_id photo_id : Uuid) {extension : String}
    (h : ∀ c ∈ extension.toList, quoteSafe c = true) :
    quote (createStorageKey crane_id photo_id extension) =
      createStorageKey crane_id photo_id extension := by
  have hbefore : "cranes/".toList.all quoteSafe = true := by decide
  have hbetween : "/photos/".toList.all quoteSafe = true := by decide
  rw [quote_eq, Percent.encode_of_safe, String.ofList_toList]
  intro c hc
  unfold createStorageKey at hc
  simp only [String.toList_append, List.mem_append] at hc
  rcases hc with (((hc | hc) | hc) | hc) | hc
  · exact List.all_eq_true.1 hbefore c hc
  · exact quoteSafe_str crane_id c hc
  · exact List.all_eq_true.1 hbetween c hc
  · exact quoteSafe_str photo_id c hc
  · exact h c hc

/-- Two keys have the same public URL only if they are the same. -/
theorem getPublicUrl_injective {public_base_url : String} (h : public_base_url ≠ "")
    {object_key object_key' : String} (heq : getPublicUrl (some public_base_url) object_key =
      getPublicUrl (some public_base_url) object_key') : object_key = object_key' := by
  rw [getPublicUrl_eq h, getPublicUrl_eq h] at heq
  have htext := congrArg String.toList (Option.some.inj heq)
  rw [String.toList_append, String.toList_append, List.append_cancel_left_eq, quote_eq, quote_eq,
    String.toList_ofList, String.toList_ofList] at htext
  exact Percent.encode_injective quoteSafe_percent htext

/-- With a public domain, the URL of a key is the domain and a path, one after the other, of unreserved
characters, slashes and escapes, which reads back as the key and which no other key has. The path of a
photo's object is its key, whatever format the photo has. -/
theorem public_url_names_key (public_base_url : String) (h : public_base_url ≠ "") :
    (∀ object_key, ∃ path,
      getPublicUrl (some public_base_url) object_key = some (publicRoot public_base_url ++ path) ∧
      Percent.decode path.toList = object_key.toList.flatMap String.utf8EncodeChar ∧
      Percent.Written quoteSafe path.toList ∧
      (∀ c ∈ path.toList, c.isAlphanum = true ∨ c ∈ ['_', '.', '-', '~', '/', '%']) ∧
      ∀ object_key', getPublicUrl (some public_base_url) object_key' =
        getPublicUrl (some public_base_url) object_key → object_key' = object_key) ∧
    ∀ format ∈ imageFormats, ∀ crane_id photo_id,
      getPublicUrl (some public_base_url) (createStorageKey crane_id photo_id format.2.extension) =
        some (publicRoot public_base_url ++
          createStorageKey crane_id photo_id format.2.extension) := by
  constructor
  · intro object_key
    refine ⟨quote object_key, getPublicUrl_eq h object_key, ?_, ?_, ?_,
      fun object_key' heq => getPublicUrl_injective h heq⟩
    · rw [quote_eq, String.toList_ofList, Percent.decode_encode quoteSafe_percent]
    · rw [quote_eq, String.toList_ofList]
      exact Percent.written_encode _
    · rw [quote_eq, String.toList_ofList]
      refine Percent.forall_mem_encode (fun c hc => ?_) (Or.inr (by decide)) ?_ _
      · rcases Bool.or_eq_true_iff.1 hc with halnum | hmark
        · exact Or.inl halnum
        · refine Or.inr ?_
          rw [List.contains_iff_mem] at hmark
          have hsub : ['_', '.', '-', '~', '/'] ⊆ ['_', '.', '-', '~', '/', '%'] := by decide
          exact hsub hmark
      · decide
  · intro format hformat crane_id photo_id
    have hsafe : imageFormats.all (fun f => f.2.extension.toList.all quoteSafe) = true := by decide
    have hextension := List.all_eq_true.1 (List.all_eq_true.1 hsafe format hformat)
    rw [getPublicUrl_eq h, quote_createStorageKey crane_id photo_id hextension]

/-- A key with a space and a letter outside ASCII is read back from its URL. -/
theorem public_url_names_key_escaped :
    getPublicUrl (some "https://photos.example/") "a é" =
      some "https://photos.example/a%20%C3%A9" ∧
    ∃ path, getPublicUrl (some "https://photos.example/") "a é" =
        some (publicRoot "https://photos.example/" ++ path) ∧
      Percent.decode path.toList = [97, 32, 195, 169] ∧ Percent.Written quoteSafe path.toList := by
  refine ⟨by decide +kernel, ?_⟩
  obtain ⟨path, hurl, hdecode, hwritten, -⟩ :=
    (public_url_names_key "https://photos.example/" (by decide)).1 "a é"
  exact ⟨path, hurl, hdecode.trans (by decide +kernel), hwritten⟩

end CraneTracker.Cranes
