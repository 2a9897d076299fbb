import Mathlib.Data.List.Basic

/-!
# Hexadecimal text

`encode` writes bytes as hexadecimal digits, two to a byte, in lower case. `decode` reads such a text,
in either case and with whitespace between the bytes, or rejects it. `decode_encode` is the round trip.
`forall_mem_encode` is for facts about the characters of a text.
-/

namespace Hex

/-- The two digits of a byte, high half first. -/
def byteDigits (b : UInt8) : List Char :=
  [Nat.digitChar (b.toNat / 16), Nat.digitChar (b.toNat % 16)]

/-- The digits of bytes. -/
def encode (bytes : List UInt8) : List Char := bytes.flatMap byteDigits

/-- The value of a digit. -/
def digitValue (c : Char) : Option ℕ :=
  if '0' ≤ c ∧ c ≤ '9' then some (c.toNat - 48)
  else if 'a' ≤ c ∧ c ≤ 'f' then some (c.toNat - 87)
  else if 'A' ≤ c ∧ c ≤ 'F' then some (c.toNat - 55)
  else none

/-- ASCII whitespace. -/
def isSpace (c : Char) : Bool := c = ' ' || ('\t' ≤ c && c ≤ '\r')

/-- The byte with two given digits. -/
def byteValue (high low : Char) : Option UInt8 :=
  match digitValue high, digitValue low with
  | some h, some l => some (UInt8.ofNat (16 * h + l))
  | _, _ => none

/-- The bytes of a text: pairs of digits, with whitespace between the pairs. -/
def decode : List Char → Option (List UInt8)
  | [] => some []
  | [c] => if isSpace c then some [] else none
  | c :: d :: cs =>
    if isSpace c then decode (d :: cs)
    else
      match byteValue c d with
      | none => none
      | some b => (decode cs).map (List.cons b)

/-- A digit has its value. -/
theorem digitValue_digitChar {n : ℕ} (h : n < 16) : digitValue (Nat.digitChar n) = some n := by
  have hall : ∀ m < 16, digitValue (Nat.digitChar m) = some m := by decide
  exact hall n h

/-- A digit is not whitespace. -/
theorem isSpace_digitChar {n : ℕ} (h : n < 16) : isSpace (Nat.digitChar n) = false := by
  have hall : ∀ m < 16, isSpace (Nat.digitChar m) = false := by decide
  exact hall n h

/-- The digits of a byte are below `16`. -/
theorem digits_lt (b : UInt8) : b.toNat / 16 < 16 ∧ b.toNat % 16 < 16 := by
  have hb := b.toNat_lt
  constructor <;> omega

/-- The digits of a byte give it back. -/
theorem byteValue_byteDigits (b : UInt8) :
    byteValue (Nat.digitChar (b.toNat / 16)) (Nat.digitChar (b.toNat % 16)) = some b := by
  obtain ⟨hhigh, hlow⟩ := digits_lt b
  have hsum : 16 * (b.toNat / 16) + b.toNat % 16 = b.toNat := by omega
  rw [byteValue, digitValue_digitChar hhigh, digitValue_digitChar hlow]
  dsimp only
  rw [hsum, UInt8.ofNat_toNat]

/-- The text of bytes is read as the bytes. -/
theorem decode_encode (bytes : List UInt8) : decode (encode bytes) = some bytes := by
  induction bytes with
  | nil => rfl
  | cons b bytes ih =>
    have hcons : encode (b :: bytes) = Nat.digitChar (b.toNat / 16) ::
        Nat.digitChar (b.toNat % 16) :: encode bytes := rfl
    rw [hcons, decode, isSpace_digitChar (digits_lt b).1, if_neg Bool.false_ne_true,
      byteValue_byteDigits]
    dsimp only
    rw [ih, Option.map_some]

/-- Bytes with the same text are the same. -/
theorem encode_injective : Function.Injective encode := by
  intro bytes bytes' h
  have hsome : some bytes = some bytes' := by rw [← decode_encode bytes, h, decode_encode]
  exact Option.some.inj hsome

/-- What holds of the digits holds of the characters of a text. -/
theorem forall_mem_encode {P : Char → Prop} (h : ∀ n < 16, P (Nat.digitChar n))
    (bytes : List UInt8) : ∀ c ∈ encode bytes, P c := by
  intro c hc
  obtain ⟨b, -, hdigit⟩ := List.mem_flatMap.1 hc
  rcases List.mem_pair.1 hdigit with rfl | rfl
  · exact h _ (digits_lt b).1
  · exact h _ (digits_lt b).2

end Hex
