import CraneTracker.Lib.Table
import CraneTracker.Models

/-!
# The admin accounts and their sessions

`app/services/auth.py`, the guard `require_admin` of `app/core/dependencies.py`, and the routes of
`app/routes/auth.py`. `hashlib` is not part of the repository, so `scrypt` and SHA-256 are parameters
(`Hashes`), and so is the token that `secrets.token_urlsafe` returns to a `sign_in`.
-/

namespace CraneTracker

open Table

/-- A row of `admin_user`. -/
structure AdminUser where
  id : Uuid
  username : String
  password_hash : String
  is_active : Bool := true
deriving DecidableEq, Repr

/-- A row of `admin_token`. -/
structure AdminToken where
  token_hash : String
  user_id : Uuid
  expires_at : Timestamp
deriving DecidableEq, Repr

/-- The functions of `hashlib` that the service uses, and the values that the process has. -/
structure Hashes where
  /-- `token_hash`: the SHA-256 of a token. -/
  token_hash : String → String
  /-- `_password_digest` of a password and a salt, unless it raises a `ValueError` or a
  `TypeError`. -/
  password_digest : String → String → Option String
  /-- `DUMMY_PASSWORD_HASH`. -/
  dummy_password_hash : String
  /-- The setting `admin_token_ttl_seconds`. -/
  admin_token_ttl_seconds : ℤ

/-- `verify_password`. -/
def verifyPassword (H : Hashes) (password stored : String) : Bool :=
  match (stored.toList.splitOn '$').map String.ofList with
  | [algorithm, salt, expected] =>
    if algorithm ≠ "scrypt" then false
    else (H.password_digest password salt).any fun actual => actual = expected
  | _ => false

/-- The committed rows that the sessions use. -/
structure AuthStore where
  users : List AdminUser
  tokens : List AdminToken

/-- `sign_in` at the time `now`: the user who is signed in, and the rows after it. `token` is the
token that it issues. -/
def signIn (H : Hashes) (now : Timestamp) (username password token : String) (s : AuthStore) :
    Option (AdminUser × AuthStore) :=
  let user := s.users.find? fun user => user.username = username
  -- An unknown name costs the same check.
  let valid := verifyPassword H password ((user.map AdminUser.password_hash).getD
    H.dummy_password_hash)
  match user with
  | none => none
  | some user =>
    if valid = false ∨ user.is_active = false then none
    else
      let tokens := deleteWhere (fun t => t.expires_at ≤ now) s.tokens
      let expires_at := now + H.admin_token_ttl_seconds * 1000000
      some (user, { s with tokens := tokens ++ [⟨H.token_hash token, user.id, expires_at⟩] })

/-- `get_admin` at the time `now`: the first row of the join. -/
def getAdmin (H : Hashes) (now : Timestamp) (token : String) (s : AuthStore) : Option AdminUser :=
  s.tokens.findSome? fun t =>
    if t.token_hash = H.token_hash token ∧ now < t.expires_at then
      s.users.find? fun user => user.id = t.user_id && user.is_active
    else none

/-- `sign_out`. -/
def signOut (H : Hashes) (token : String) (s : AuthStore) : AuthStore :=
  { s with tokens := deleteWhere (fun t => t.token_hash = H.token_hash token) s.tokens }

/-- `require_admin`, for the credentials of a request. -/
def requireAdmin (H : Hashes) (now : Timestamp) (credentials : Option String) (s : AuthStore) :
    Except Answer AdminUser :=
  match credentials.bind fun token => getAdmin H now token s with
  | some user => .ok user
  | none => .error (.error 401 "Valid admin token required")

/-- The activation or the deactivation of an account. -/
def setActive (user_id : Uuid) (is_active : Bool) (s : AuthStore) : AuthStore :=
  { s with
    users := updateWhere (fun user => user.id = user_id) (fun user => { user with is_active }) s.users }

/-- The route `login`: its answer, the user who is signed in, and the rows after its commit. -/
def login (H : Hashes) (now : Timestamp) (username password token : String) (s : AuthStore) :
    Answer × Option AdminUser × AuthStore :=
  match signIn H now username password token s with
  | none => (.error 401 "Invalid username or password", none, s)
  | some (user, s') => (.ok 200, some user, s')

/-- The route `logout`: its answer, and the rows after its commit. -/
def logout (H : Hashes) (now : Timestamp) (credentials : Option String) (s : AuthStore) :
    Answer × AuthStore :=
  match requireAdmin H now credentials s with
  | .error answer => (answer, s)
  | .ok _ =>
    match credentials with
    | some token => (.ok 204, signOut H token s)
    -- The guard refuses a request without credentials.
    | none => (.raised, s)

section Rows

variable {H : Hashes} {now : Timestamp} {token : String} {s s' : AuthStore} {user : AdminUser}

/-- What a sign-in that succeeds does: the user is there and active, and the expired tokens make way
for the new one. -/
theorem signIn_eq_some {username password : String}
    (h : signIn H now username password token s = some (user, s')) :
    user ∈ s.users ∧ user.is_active = true ∧ s'.users = s.users ∧
      s'.tokens = deleteWhere (fun t => t.expires_at ≤ now) s.tokens ++
        [⟨H.token_hash token, user.id, now + H.admin_token_ttl_seconds * 1000000⟩] := by
  unfold signIn at h
  dsimp only at h
  split at h
  · cases h
  · rename_i found hfound
    split_ifs at h with hrefused
    cases h
    rw [not_or] at hrefused
    exact ⟨List.mem_of_find?_eq_some hfound, by simpa using hrefused.2, rfl, rfl⟩

/-- A row that `get_admin` accepts is that of its token, which has not expired, and names an active
user. -/
theorem exists_of_getAdmin (h : getAdmin H now token s = some user) :
    user ∈ s.users ∧ user.is_active = true ∧ ∃ t ∈ s.tokens,
      t.token_hash = H.token_hash token ∧ t.user_id = user.id ∧ now < t.expires_at := by
  unfold getAdmin at h
  obtain ⟨t, ht, hfound⟩ := List.exists_of_findSome?_eq_some h
  split_ifs at hfound with hcond
  have hprop := List.find?_some hfound
  rw [Bool.and_eq_true, decide_eq_true_eq] at hprop
  exact ⟨List.mem_of_find?_eq_some hfound, hprop.2, t, ht, hcond.1, hprop.1.symm, hcond.2⟩

/-- `get_admin` returns the active user of a token that has not expired, when each token has one row
and each user has one. -/
theorem getAdmin_eq_some (htokens : KeyUnique AdminToken.token_hash s.tokens)
    (husers : KeyUnique AdminUser.id s.users) :
    getAdmin H now token s = some user ↔ user ∈ s.users ∧ user.is_active = true ∧ ∃ t ∈ s.tokens,
      t.token_hash = H.token_hash token ∧ t.user_id = user.id ∧ now < t.expires_at := by
  refine ⟨exists_of_getAdmin, ?_⟩
  rintro ⟨huser, hactive, t, ht, hhash, hid, hnow⟩
  cases hadmin : getAdmin H now token s with
  -- The join has the row of the token and the user, so the query returns something.
  | none =>
    unfold getAdmin at hadmin
    rw [List.findSome?_eq_none_iff] at hadmin
    have hnone := hadmin t ht
    rw [if_pos ⟨hhash, hnow⟩, List.find?_eq_none] at hnone
    exact absurd (by simp [hid, hactive]) (hnone user huser)
  -- What it returns is the user of the one row of the token.
  | some user' =>
    obtain ⟨huser', -, t', ht', hhash', hid', -⟩ := exists_of_getAdmin hadmin
    obtain rfl : t = t' := List.inj_on_of_nodup_map htokens ht ht' (hhash.trans hhash'.symm)
    rw [List.inj_on_of_nodup_map husers huser huser' (hid.symm.trans hid')]

end Rows

end CraneTracker
