import CraneTracker.Lib.Hex
import CraneTracker.Services.Auth

/-!
# Stored passwords

`hash_password` and `verify_password` of `app/services/auth.py`, down to the text that is stored: the
name of the algorithm, the salt, and the digest, with `$` between them. `Services/Auth.lean` takes the
digest as a parameter. Here it is made of its parts: the bytes of the password, the bytes of the salt,
and `hashlib.scrypt`, which is the only parameter.

A text that `hash_password` has not written may have any shape. What its parts raise is a `ValueError`
or a `TypeError`, so `verify_password` always returns (`password_storage`).
-/

namespace CraneTracker.Passwords

/-- A `bytes` value. -/
abbrev Bytes := List UInt8

/-- The exceptions that the body of `verify_password` may raise. -/
inductive Exception
  | valueError
  | typeError
  | other
deriving DecidableEq, Repr

/-- `password.encode()`. -/
def encode (password : String) : Bytes := password.toByteArray.data.toList

/-- `bytes.hex`. -/
def hex (bytes : Bytes) : String := String.ofList (Hex.encode bytes)

/-- `bytes.fromhex`. -/
def fromhex (text : String) : Except Exception Bytes :=
  match Hex.decode text.toList with
  | some bytes => .ok bytes
  | none => .error .valueError

/-- `hmac.compare_digest` on two strings. -/
def compareDigest (a b : String) : Except Exception Bool :=
  if a.toList.all (fun c => c.toNat < 128) && b.toList.all (fun c => c.toNat < 128) then .ok (a = b)
  else .error .typeError

/-- `str.split` on a character. -/
def split (separator : Char) (text : String) : List String :=
  (text.toList.splitOn separator).map String.ofList

/-- `a, b, c = fields`. -/
def unpack (fields : List String) : Except Exception (String × String × String) :=
  match fields with
  | [a, b, c] => .ok (a, b, c)
  | _ => .error .valueError

/-- `_password_digest`. -/
def passwordDigest (scrypt : Bytes → Bytes → Bytes) (password salt : String) :
    Except Exception String :=
  match fromhex salt with
  | .error e => .error e
  | .ok salt_bytes => .ok (hex (scrypt (encode password) salt_bytes))

/-- `hash_password`, when `secrets.token_hex(16)` draws the bytes `token`. -/
def hashPassword (scrypt : Bytes → Bytes → Bytes) (token : Bytes) (password : String) :
    Except Exception String :=
  let salt := hex token
  match passwordDigest scrypt password salt with
  | .error e => .error e
  | .ok digest => .ok ("scrypt$" ++ salt ++ "$" ++ digest)

/-- The body of the `try` of `verify_password`. -/
def checkPassword (scrypt : Bytes → Bytes → Bytes) (password stored : String) :
    Except Exception Bool :=
  match unpack (split '$' stored) with
  | .error e => .error e
  | .ok (algorithm, salt, expected) =>
    if algorithm ≠ "scrypt" then .ok false
    else
      match passwordDigest scrypt password salt with
      | .error e => .error e
      | .ok actual => compareDigest actual expected

/-- `verify_password`. -/
def verifyPassword (scrypt : Bytes → Bytes → Bytes) (password stored : String) :
    Except Exception Bool :=
  match checkPassword scrypt password stored with
  | .ok valid => .ok valid
  | .error .valueError => .ok false
  | .error .typeError => .ok false
  | .error e => .error e

/-! ## The parts -/

section Parts

/-- The bytes of a password determine it. -/
theorem encode_injective : Function.Injective encode := by
  intro p q h
  have hdata : p.toByteArray.data = q.toByteArray.data := Array.ext' h
  exact String.toByteArray_inj.1 (ByteArray.ext hdata)

/-- The text of bytes determines them. -/
theorem hex_injective : Function.Injective hex :=
  fun _ _ h => Hex.encode_injective (String.ofList_injective h)

/-- The text of bytes is read as the bytes. -/
@[simp]
theorem fromhex_hex (bytes : Bytes) : fromhex (hex bytes) = .ok bytes := by
  rw [fromhex, hex, String.toList_ofList, Hex.decode_encode]

/-- The text of bytes is ASCII. -/
theorem hex_ascii (bytes : Bytes) : (hex bytes).toList.all (fun c => c.toNat < 128) = true := by
  have hdigit : ∀ n < 16, (decide ((Nat.digitChar n).toNat < 128)) = true := by decide
  rw [hex, String.toList_ofList, List.all_eq_true]
  exact Hex.forall_mem_encode hdigit bytes

/-- The text of bytes has no separator in it. -/
theorem not_mem_hex (bytes : Bytes) : '$' ∉ (hex bytes).toList := by
  have hdigit : ∀ n < 16, Nat.digitChar n ≠ '$' := by decide
  have hne : ∀ c ∈ Hex.encode bytes, c ≠ '$' := Hex.forall_mem_encode hdigit bytes
  rw [hex, String.toList_ofList]
  exact fun hmem => hne '$' hmem rfl

/-- The fields of a stored hash. -/
theorem split_stored (token digest : Bytes) :
    split '$' ("scrypt$" ++ hex token ++ "$" ++ hex digest) = ["scrypt", hex token, hex digest] := by
  have hlist : ("scrypt$" ++ hex token ++ "$" ++ hex digest).toList =
      "scrypt".toList ++ '$' :: ((hex token).toList ++ '$' :: (hex digest).toList) := by
    simp
  have hname : '$' ∉ "scrypt".toList := by decide
  rw [split, hlist, List.splitOn_append_cons_self_of_not_mem hname,
    List.splitOn_append_cons_self_of_not_mem (not_mem_hex token),
    List.splitOn_eq_singleton (not_mem_hex digest)]
  simp

/-- A comparison with the text of bytes is true for that text only. -/
theorem compareDigest_hex (bytes : Bytes) (expected : String) :
    compareDigest (hex bytes) expected = .ok true ↔ expected = hex bytes := by
  unfold compareDigest
  rw [hex_ascii, Bool.true_and]
  split_ifs with h
  · simp [eq_comm]
  · refine iff_of_false nofun ?_
    rintro rfl
    exact h (hex_ascii bytes)

/-- Three fields are unpacked, and no other number of them. -/
theorem unpack_eq_ok {fields : List String} {a b c : String} :
    unpack fields = .ok (a, b, c) ↔ fields = [a, b, c] := by
  constructor
  · intro h
    unfold unpack at h
    split at h
    · cases h
      rfl
    · cases h
  · rintro rfl
    rfl

/-- What does not unpack, decode, or compare raises an exception that is caught. -/
inductive Exception.Caught : Exception → Prop
  | valueError : Caught .valueError
  | typeError : Caught .typeError

/-- The unpacking raises a `ValueError`. -/
theorem caught_of_unpack {fields : List String} {e : Exception} (h : unpack fields = .error e) :
    e.Caught := by
  unfold unpack at h
  split at h
  · cases h
  · cases h
    exact .valueError

/-- So does the digest. -/
theorem caught_of_passwordDigest {scrypt : Bytes → Bytes → Bytes} {password salt : String}
    {e : Exception} (h : passwordDigest scrypt password salt = .error e) : e.Caught := by
  unfold passwordDigest fromhex at h
  cases hdecode : Hex.decode salt.toList with
  | none =>
    rw [hdecode] at h
    cases h
    exact .valueError
  | some bytes =>
    rw [hdecode] at h
    cases h

/-- The comparison raises a `TypeError`. -/
theorem caught_of_compareDigest {a b : String} {e : Exception} (h : compareDigest a b = .error e) :
    e.Caught := by
  unfold compareDigest at h
  split_ifs at h
  cases h
  exact .typeError

end Parts

/-! ## The result -/

section Verify

variable {scrypt : Bytes → Bytes → Bytes} {password stored : String}

/-- What `hash_password` stores. -/
theorem hashPassword_eq (token : Bytes) :
    hashPassword scrypt token password =
      .ok ("scrypt$" ++ hex token ++ "$" ++ hex (scrypt (encode password) token)) := by
  unfold hashPassword passwordDigest
  dsimp only
  rw [fromhex_hex]

/-- The check of three fields, of which the first names the algorithm. -/
theorem checkPassword_of_split {salt expected : String}
    (h : split '$' stored = ["scrypt", salt, expected]) :
    checkPassword scrypt password stored =
      match passwordDigest scrypt password salt with
      | .error e => .error e
      | .ok actual => compareDigest actual expected := by
  unfold checkPassword
  rw [h]
  rfl

/-- What the body raises is caught. -/
theorem caught_of_checkPassword {e : Exception} (h : checkPassword scrypt password stored = .error e) :
    e.Caught := by
  unfold checkPassword at h
  split at h
  · rename_i hunpack
    cases h
    exact caught_of_unpack hunpack
  · split_ifs at h with halgorithm
    split at h
    · rename_i hdigest
      cases h
      exact caught_of_passwordDigest hdigest
    · exact caught_of_compareDigest h

/-- `verify_password` returns what its body returns, and `False` if the body raises. -/
theorem verifyPassword_eq : verifyPassword scrypt password stored =
    .ok ((checkPassword scrypt password stored).toOption.getD false) := by
  unfold verifyPassword
  cases hcheck : checkPassword scrypt password stored with
  | ok valid => rfl
  | error e => cases caught_of_checkPassword hcheck <;> rfl

/-- A text that passes has three fields: the name of the algorithm, a salt, and the digest of the
password under it. -/
theorem fields_of_verifyPassword (h : verifyPassword scrypt password stored = .ok true) :
    ∃ salt salt_bytes,
      split '$' stored = ["scrypt", salt, hex (scrypt (encode password) salt_bytes)] ∧
        fromhex salt = .ok salt_bytes := by
  have hcheck : checkPassword scrypt password stored = .ok true := by
    rw [verifyPassword_eq] at h
    cases hcheck : checkPassword scrypt password stored with
    | ok valid =>
      rw [hcheck] at h
      exact congrArg Except.ok (Except.ok.inj h)
    | error e =>
      rw [hcheck] at h
      cases h
  unfold checkPassword at hcheck
  split at hcheck
  · cases hcheck
  · rename_i algorithm salt expected hunpack
    split_ifs at hcheck with halgorithm
    · cases hcheck
    · unfold passwordDigest at hcheck
      cases hsalt : fromhex salt with
      | error e =>
        rw [hsalt] at hcheck
        cases hcheck
      | ok salt_bytes =>
        rw [hsalt] at hcheck
        have hexpected : expected = hex (scrypt (encode password) salt_bytes) :=
          (compareDigest_hex _ _).1 hcheck
        refine ⟨salt, salt_bytes, ?_, hsalt⟩
        rw [unpack_eq_ok.1 hunpack, not_not.1 halgorithm, hexpected]

/-- A hash of the password `q` passes for the passwords with the same digest. -/
theorem verifyPassword_stored {q : String} {token : Bytes} :
    verifyPassword scrypt password
        ("scrypt$" ++ hex token ++ "$" ++ hex (scrypt (encode q) token)) =
      .ok (decide (scrypt (encode password) token = scrypt (encode q) token)) := by
  rw [verifyPassword_eq, checkPassword_of_split (split_stored token _), passwordDigest, fromhex_hex]
  dsimp only
  rw [compareDigest, hex_ascii, hex_ascii, Bool.and_true, if_pos rfl]
  simp only [hex_injective.eq_iff]
  rfl

end Verify

/-- The storage of passwords. A hash of the password `q` passes for exactly the passwords that have its
digest under its salt, which is `q` alone if no two passwords have the same digest. For every text in
the place of a hash `verify_password` returns, and it returns true only if the text has three fields:
`scrypt`, a salt in hexadecimal, and the digest of the password under the salt. -/
theorem password_storage (scrypt : Bytes → Bytes → Bytes) (p : String) :
    (∀ (q : String) (token : Bytes), ∃ stored valid, hashPassword scrypt token q = .ok stored ∧
      verifyPassword scrypt p stored = .ok valid ∧
      (valid = true ↔ scrypt (encode p) token = scrypt (encode q) token) ∧
      (Function.Injective (fun password => scrypt password token) → (valid = true ↔ p = q))) ∧
    ∀ stored : String, ∃ valid, verifyPassword scrypt p stored = .ok valid ∧
      (valid = true → ∃ salt salt_bytes,
        split '$' stored = ["scrypt", salt, hex (scrypt (encode p) salt_bytes)] ∧
          fromhex salt = .ok salt_bytes) := by
  constructor
  · intro q token
    have hiff := decide_eq_true_iff (p := scrypt (encode p) token = scrypt (encode q) token)
    refine ⟨_, _, hashPassword_eq token, verifyPassword_stored, hiff, fun hinjective => ?_⟩
    exact hiff.trans (hinjective.eq_iff.trans encode_injective.eq_iff)
  · intro stored
    refine ⟨_, verifyPassword_eq, fun hvalid => fields_of_verifyPassword ?_⟩
    rw [verifyPassword_eq, hvalid]

/-! ## Sign-in -/

section SignIn

variable {scrypt : Bytes → Bytes → Bytes} {H : Hashes}
  (hdigest : ∀ password salt,
    H.password_digest password salt = (passwordDigest scrypt password salt).toOption)
include hdigest

/-- The check of a sign-in is this one, when its digest is. -/
theorem verifyPassword_hashes {password stored : String} :
    CraneTracker.verifyPassword H password stored = true ↔
      verifyPassword scrypt password stored = .ok true := by
  constructor
  · intro h
    unfold CraneTracker.verifyPassword at h
    split at h
    · rename_i algorithm salt expected hfields
      split_ifs at h with halgorithm
      rw [hdigest, Option.any_eq_true] at h
      obtain ⟨actual, hactual, hequal⟩ := h
      obtain rfl : actual = expected := of_decide_eq_true hequal
      have hfields' : split '$' stored = ["scrypt", salt, actual] := by
        rw [split, hfields, not_not.1 halgorithm]
      -- The digest is the text of bytes, so the comparison does not raise.
      cases hsalt : fromhex salt with
      | error e =>
        rw [passwordDigest, hsalt] at hactual
        cases hactual
      | ok salt_bytes =>
        rw [passwordDigest, hsalt] at hactual
        obtain rfl := Option.some.inj hactual
        have hequal' := (compareDigest_hex (scrypt (encode password) salt_bytes) _).2 rfl
        rw [verifyPassword_eq, checkPassword_of_split hfields', passwordDigest, hsalt]
        dsimp only
        rw [hequal']
        rfl
    · cases h
  · intro h
    obtain ⟨salt, salt_bytes, hfields, hsalt⟩ := fields_of_verifyPassword h
    have hsome : (passwordDigest scrypt password salt).toOption =
        some (hex (scrypt (encode password) salt_bytes)) := by
      rw [passwordDigest, hsalt]
      rfl
    unfold CraneTracker.verifyPassword
    rw [show (stored.toList.splitOn '$').map String.ofList = _ from hfields]
    dsimp only
    rw [if_neg (not_not.2 rfl), hdigest, hsome, Option.any_some]
    exact decide_eq_true rfl

/-- An active account whose password was set to `q` is signed in with exactly the passwords that have
the digest of `q`. -/
theorem isSome_signIn_iff {now : Timestamp} {username p q token : String} {salt : Bytes}
    {s : AuthStore} {user : AdminUser}
    (huser : s.users.find? (fun user => user.username = username) = some user)
    (hactive : user.is_active = true)
    (hstored : hashPassword scrypt salt q = .ok user.password_hash) :
    (signIn H now username p token s).isSome = true ↔
      scrypt (encode p) salt = scrypt (encode q) salt := by
  have hvalid : CraneTracker.verifyPassword H p user.password_hash = true ↔
      scrypt (encode p) salt = scrypt (encode q) salt := by
    rw [hashPassword_eq] at hstored
    rw [verifyPassword_hashes hdigest, ← Except.ok.inj hstored, verifyPassword_stored,
      Except.ok.injEq, decide_eq_true_iff]
  unfold signIn
  rw [huser]
  dsimp only [Option.map_some, Option.getD_some]
  rw [← hvalid]
  split_ifs with hrefused
  · rcases hrefused with hfalse | hinactive
    · simp [hfalse]
    · rw [hactive] at hinactive
      cases hinactive
  · rw [not_or, Bool.not_eq_false] at hrefused
    simp [hrefused.1]

end SignIn

end CraneTracker.Passwords
