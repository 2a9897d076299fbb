import CraneTracker.Lib.Hex

/-!
# Percent-encoded text

`encode` writes a text so that it may stand in a URL: the characters that are safe stay, and each byte of
any other one is written as `%` and two hexadecimal digits, in upper case. `decode` reads such a text back
as bytes. It reads both cases, and a `%` that does not begin an escape stands for itself. `decode_encode`
is the round trip, and `encode_injective` says that no two texts are written alike.
-/

namespace Percent

/-- The digits of a byte in upper case, after a `%`. -/
def escape (b : UInt8) : List Char :=
  ['%', (Nat.digitChar (b.toNat / 16)).toUpper, (Nat.digitChar (b.toNat % 16)).toUpper]

/-- How a character is written. -/
def encodeChar (safe : Char → Bool) (c : Char) : List Char :=
  if safe c then [c] else (String.utf8EncodeChar c).flatMap escape

/-- How a text is written. -/
def encode (safe : Char → Bool) (text : List Char) : List Char := text.flatMap (encodeChar safe)

/-- The text is made of safe characters and of escapes. -/
inductive Written (safe : Char → Bool) : List Char → Prop
  | nil : Written safe []
  | char (c : Char) (cs : List Char) (hc : safe c = true) (h : Written safe cs) : Written safe (c :: cs)
  | escape (b : UInt8) (cs : List Char) (h : Written safe cs) : Written safe (escape b ++ cs)

/-- The bytes of a text that has been written with escapes. -/
def decode : List Char → List UInt8
  | [] => []
  | [c] => String.utf8EncodeChar c
  | [c, d] => String.utf8EncodeChar c ++ String.utf8EncodeChar d
  | c :: d :: e :: cs =>
    if c = '%' then
      match Hex.byteValue d e with
      | some b => b :: decode cs
      | none => String.utf8EncodeChar c ++ decode (d :: e :: cs)
    else String.utf8EncodeChar c ++ decode (d :: e :: cs)

/-- A digit in upper case has its value. -/
theorem digitValue_toUpper {n : ℕ} (h : n < 16) :
    Hex.digitValue (Nat.digitChar n).toUpper = some n := by
  have hall : ∀ m < 16, Hex.digitValue (Nat.digitChar m).toUpper = some m := by decide
  exact hall n h

/-- An escape is read as its byte. -/
theorem decode_escape (b : UInt8) (cs : List Char) : decode (escape b ++ cs) = b :: decode cs := by
  obtain ⟨hhigh, hlow⟩ := Hex.digits_lt b
  have hsum : 16 * (b.toNat / 16) + b.toNat % 16 = b.toNat := by omega
  have hvalue : Hex.byteValue (Nat.digitChar (b.toNat / 16)).toUpper
      (Nat.digitChar (b.toNat % 16)).toUpper = some b := by
    rw [Hex.byteValue, digitValue_toUpper hhigh, digitValue_toUpper hlow]
    dsimp only
    rw [hsum, UInt8.ofNat_toNat]
  show decode ('%' :: _ :: _ :: cs) = _
  rw [decode, if_pos rfl, hvalue]

/-- Escapes are read as their bytes. -/
theorem decode_flatMap_escape (bytes : List UInt8) (cs : List Char) :
    decode (bytes.flatMap escape ++ cs) = bytes ++ decode cs := by
  induction bytes with
  | nil => rfl
  | cons b bytes ih =>
    rw [List.flatMap_cons, List.append_assoc, decode_escape, ih]
    rfl

/-- A character that is not a `%` stands for itself. -/
theorem decode_cons {c : Char} (h : c ≠ '%') (cs : List Char) :
    decode (c :: cs) = String.utf8EncodeChar c ++ decode cs := by
  match cs with
  | [] => rw [decode, decode, List.append_nil]
  | [d] => rw [decode, decode]
  | d :: e :: cs => rw [decode, if_neg h]

variable {safe : Char → Bool}

/-- A text that has been written with escapes is read as its bytes. -/
theorem decode_encode (hsafe : safe '%' = false) (text : List Char) :
    decode (encode safe text) = text.flatMap String.utf8EncodeChar := by
  induction text with
  | nil => rfl
  | cons c text ih =>
    have hcons : encode safe (c :: text) = encodeChar safe c ++ encode safe text := List.flatMap_cons
    rw [hcons, List.flatMap_cons, ← ih, encodeChar]
    split_ifs with hc
    · have hne : c ≠ '%' := by
        rintro rfl
        rw [hsafe] at hc
        cases hc
      exact decode_cons hne _
    · exact decode_flatMap_escape _ _

/-- Escapes before a written text. -/
theorem Written.flatMap_escape {cs : List Char} (h : Written safe cs) (bytes : List UInt8) :
    Written safe (bytes.flatMap Percent.escape ++ cs) := by
  induction bytes with
  | nil => exact h
  | cons b bytes ih =>
    rw [List.flatMap_cons, List.append_assoc]
    exact .escape b _ ih

/-- What is written is made of safe characters and of escapes. -/
theorem written_encode (text : List Char) : Written safe (encode safe text) := by
  induction text with
  | nil => exact .nil
  | cons c text ih =>
    have hcons : encode safe (c :: text) = encodeChar safe c ++ encode safe text := List.flatMap_cons
    rw [hcons, encodeChar]
    split_ifs with hc
    · exact .char c _ hc ih
    · exact ih.flatMap_escape _

/-- The bytes of a text say which text it is. -/
theorem utf8_injective {s s' : String}
    (h : s.toList.flatMap String.utf8EncodeChar = s'.toList.flatMap String.utf8EncodeChar) :
    s = s' := by
  have hbytes : s.toList.utf8Encode = s'.toList.utf8Encode := congrArg List.toByteArray h
  rw [String.utf8Encode_toList, String.utf8Encode_toList] at hbytes
  exact String.toByteArray_inj.1 hbytes

/-- No two texts are written alike. -/
theorem encode_injective (hsafe : safe '%' = false) {s s' : String}
    (h : encode safe s.toList = encode safe s'.toList) : s = s' := by
  have hdecode := congrArg decode h
  rw [decode_encode hsafe, decode_encode hsafe] at hdecode
  exact utf8_injective hdecode

/-- A text of safe characters is written as it is. -/
theorem encode_of_safe {text : List Char} (h : ∀ c ∈ text, safe c = true) :
    encode safe text = text := by
  induction text with
  | nil => rfl
  | cons c text ih =>
    have hcons : encode safe (c :: text) = encodeChar safe c ++ encode safe text := List.flatMap_cons
    rw [hcons, encodeChar, if_pos (h c List.mem_cons_self),
      ih fun d hd => h d (List.mem_cons_of_mem c hd)]
    rfl

/-- What holds of the safe characters, of `%`, and of the digits holds of what is written. -/
theorem forall_mem_encode {P : Char → Prop} (hsafe : ∀ c, safe c = true → P c) (hpercent : P '%')
    (hdigit : ∀ n < 16, P (Nat.digitChar n).toUpper) (text : List Char) :
    ∀ c ∈ encode safe text, P c := by
  intro c hc
  obtain ⟨d, -, hd⟩ := List.mem_flatMap.1 hc
  unfold encodeChar at hd
  split_ifs at hd with hs
  · rw [List.mem_singleton.1 hd]
    exact hsafe d hs
  · obtain ⟨b, -, hb⟩ := List.mem_flatMap.1 hd
    unfold escape at hb
    simp only [List.mem_cons, List.not_mem_nil, or_false] at hb
    obtain ⟨hhigh, hlow⟩ := Hex.digits_lt b
    rcases hb with rfl | rfl | rfl
    · exact hpercent
    · exact hdigit _ hhigh
    · exact hdigit _ hlow

end Percent
