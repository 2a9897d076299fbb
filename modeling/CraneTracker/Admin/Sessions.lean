import Mathlib.Algebra.Order.Ring.Int
import CraneTracker.Services.Auth

/-!
# Admin sessions

What the token table is for: a token stands for its user from the `sign_in` that issued it until its
`sign_out`, for `admin_token_ttl_seconds` at most. `history` are the sign-ins and the sign-outs of a
run, and `Standing` reads off them which tokens stand. `Refines` ties the table to the history. The
table may have lost a token that the history still has, by the purge of a `sign_in`, but only one that
has expired, and the clock does not go back.
-/

namespace CraneTracker.Admin

open Table

/-- The clock, and the committed rows. -/
structure State where
  clock : Timestamp
  store : AuthStore

/-- What happens to the sessions: a request, a call of the service, a change of an account, or the
passage of `d` microseconds. `token` is the one that a `sign_in` issues if it succeeds. -/
inductive Action
  | advance (d : ℕ)
  | login (username password token : String)
  | logout (credentials : Option String)
  | signOut (token : String)
  | setActive (user_id : Uuid) (is_active : Bool)

/-- One action, which commits. -/
def step (H : Hashes) (s : State) : Action → State
  | .advance d => { s with clock := s.clock + d }
  | .login username password token =>
    { s with store := (login H s.clock username password token s.store).2.2 }
  | .logout credentials => { s with store := (logout H s.clock credentials s.store).2 }
  | .signOut token => { s with store := signOut H token s.store }
  | .setActive user_id is_active => { s with store := setActive user_id is_active s.store }

/-- A run of actions. -/
def run (H : Hashes) (s : State) (es : List Action) : State := es.foldl (step H) s

/-- Before the first sign-in. -/
def initial (clock : Timestamp) (users : List AdminUser) : State := ⟨clock, ⟨users, []⟩⟩

/-! ## The history -/

/-- A successful `sign_in`, or a `sign_out`. -/
inductive Effect
  | signedIn (token : String) (user_id : Uuid) (t : Timestamp)
  | signedOut (token : String)
deriving DecidableEq, Repr

/-- The token that an effect issues. -/
def Effect.issued : Effect → Option String
  | .signedIn token _ _ => some token
  | .signedOut _ => none

/-- The sign-in or the sign-out that an action makes. -/
def effect (H : Hashes) (s : State) : Action → Option Effect
  | .login username password token =>
    (login H s.clock username password token s.store).2.1.map fun user =>
      .signedIn token user.id s.clock
  | .logout (some token) =>
    if (logout H s.clock (some token) s.store).1 = .ok 204 then some (.signedOut token) else none
  | .signOut token => some (.signedOut token)
  | _ => none

/-- The sign-ins and the sign-outs of a run, in order. -/
def history (H : Hashes) (s : State) : List Action → List Effect
  | [] => []
  | a :: es => (effect H s a).toList ++ history H (step H s a) es

/-- In the history `h`, the token was issued to the user at the time `t`, and no `sign_out` of it has
happened since. -/
def Standing (h : List Effect) (token : String) (user_id : Uuid) (t : Timestamp) : Prop :=
  ∃ h₁ h₂, h = h₁ ++ .signedIn token user_id t :: h₂ ∧ .signedOut token ∉ h₂

section Standing

variable {h : List Effect} {token : String} {user_id : Uuid} {t : Timestamp}

/-- A token stands after one more effect when it stood and is not signed out, or when it is issued. -/
theorem standing_concat {x : Effect} : Standing (h ++ [x]) token user_id t ↔
    (Standing h token user_id t ∧ x ≠ .signedOut token) ∨ x = .signedIn token user_id t := by
  constructor
  · rintro ⟨h₁, h₂, heq, hout⟩
    rcases List.eq_nil_or_concat h₂ with rfl | ⟨h₂', y, rfl⟩
    · right
      obtain ⟨-, hx⟩ := List.append_inj' heq rfl
      exact List.singleton_inj.1 hx
    · left
      have heq' : h ++ [x] = (h₁ ++ .signedIn token user_id t :: h₂') ++ [y] := by simpa using heq
      obtain ⟨hh, hy⟩ := List.append_inj' heq' rfl
      obtain rfl := List.singleton_inj.1 hy
      rw [List.concat_eq_append, List.mem_append, List.mem_singleton, not_or] at hout
      exact ⟨⟨h₁, h₂', hh, hout.1⟩, Ne.symm hout.2⟩
  · rintro (⟨⟨h₁, h₂, rfl, hout⟩, hx⟩ | rfl)
    · refine ⟨h₁, h₂ ++ [x], by simp, ?_⟩
      rw [List.mem_append, List.mem_singleton, not_or]
      exact ⟨hout, Ne.symm hx⟩
    · exact ⟨h, [], rfl, List.not_mem_nil⟩

end Standing

/-- The lifetime of a token, in microseconds. -/
def ttl (H : Hashes) : ℤ := H.admin_token_ttl_seconds * 1000000

/-- The tables are those of the history `h`, as far as the tokens that have not expired go. -/
structure Refines (H : Hashes) (h : List Effect) (s : State) : Prop where
  /-- The ids of users are unique. -/
  users : KeyUnique AdminUser.id s.store.users
  /-- A token has one row. -/
  tokens : KeyUnique AdminToken.token_hash s.store.tokens
  /-- A row is that of a token that was issued. -/
  issued : ∀ t ∈ s.store.tokens, ∃ token ∈ h.filterMap Effect.issued,
    t.token_hash = H.token_hash token
  /-- A token that has not expired has a row exactly when it stands. -/
  standing : ∀ token user_id expires_at, s.clock < expires_at →
    ((⟨H.token_hash token, user_id, expires_at⟩ : AdminToken) ∈ s.store.tokens ↔
      ∃ t, expires_at = t + ttl H ∧ Standing h token user_id t)

section Refines

variable {H : Hashes} {h : List Effect} {s : State}

/-- A change of an account leaves the tokens as they are. -/
theorem Refines.setActive (hr : Refines H h s) (user_id : Uuid) (is_active : Bool) :
    Refines H h { s with store := setActive user_id is_active s.store } where
  users := hr.users.updateWhere fun _ => rfl
  tokens := hr.tokens
  issued := hr.issued
  standing := hr.standing

/-- The passage of time leaves fewer tokens that have not expired. -/
theorem Refines.advance (hr : Refines H h s) (d : ℕ) :
    Refines H h { s with clock := s.clock + d } where
  users := hr.users
  tokens := hr.tokens
  issued := hr.issued
  standing token user_id expires_at hnow := by
    have hbefore : s.clock < expires_at :=
      calc s.clock ≤ s.clock + d := Int.le_add_of_nonneg_right (Int.natCast_nonneg d)
        _ < expires_at := hnow
    exact hr.standing token user_id expires_at hbefore

/-- A `sign_out` removes the row of its token, and of no other. -/
theorem Refines.signOut (hhash : Function.Injective H.token_hash) (hr : Refines H h s)
    (token : String) :
    Refines H (h ++ [.signedOut token]) { s with store := signOut H token s.store } where
  users := hr.users
  tokens := hr.tokens.deleteWhere _
  issued t ht := by
    obtain ⟨token', hmem, heq⟩ := hr.issued t (mem_deleteWhere.1 ht).1
    rw [List.filterMap_append]
    exact ⟨token', List.mem_append_left _ hmem, heq⟩
  standing token' user_id expires_at hnow := by
    have hstanding := hr.standing token' user_id expires_at hnow
    have hne : H.token_hash token' ≠ H.token_hash token ↔ token' ≠ token :=
      hhash.ne_iff
    simp only [CraneTracker.signOut, mem_deleteWhere, decide_eq_false_iff_not, hstanding,
      standing_concat]
    constructor
    · rintro ⟨⟨t, hexp, hs⟩, hdiff⟩
      refine ⟨t, hexp, Or.inl ⟨hs, fun heq => hne.1 hdiff ?_⟩⟩
      cases heq
      rfl
    · rintro ⟨t, hexp, ⟨hs, hout⟩ | heq⟩
      · exact ⟨⟨t, hexp, hs⟩, hne.2 fun heq => hout (by rw [heq])⟩
      · cases heq

/-- A `sign_in` adds the row of its fresh token, and takes away only rows that have expired. -/
theorem Refines.signIn (hhash : Function.Injective H.token_hash) (hr : Refines H h s)
    {username password token : String} {user : AdminUser} {store : AuthStore}
    (hin : signIn H s.clock username password token s.store = some (user, store))
    (hfresh : token ∉ h.filterMap Effect.issued) :
    Refines H (h ++ [.signedIn token user.id s.clock]) { s with store := store } := by
  obtain ⟨-, -, husers, htokens⟩ := signIn_eq_some hin
  constructor
  · show KeyUnique AdminUser.id store.users
    rw [husers]
    exact hr.users
  · show KeyUnique AdminToken.token_hash store.tokens
    rw [htokens]
    refine (hr.tokens.deleteWhere _).append (List.nodup_singleton _) fun t ht t' ht' heq => ?_
    obtain rfl := List.mem_singleton.1 ht'
    -- The token of an older row was issued before, and the new one was not.
    obtain ⟨token', hmem, hold⟩ := hr.issued t (mem_deleteWhere.1 ht).1
    obtain rfl : token' = token := hhash (hold.symm.trans heq)
    exact hfresh hmem
  · show ∀ t ∈ store.tokens, _
    rw [htokens, List.filterMap_append]
    intro t ht
    rcases List.mem_append.1 ht with hold | hnew
    · obtain ⟨token', hmem, heq⟩ := hr.issued t (mem_deleteWhere.1 hold).1
      exact ⟨token', List.mem_append_left _ hmem, heq⟩
    · obtain rfl := List.mem_singleton.1 hnew
      exact ⟨token, List.mem_append_right _ (List.mem_singleton_self _), rfl⟩
  · intro token' user_id expires_at hnow
    show _ ∈ store.tokens ↔ _
    have hlt : ¬ expires_at ≤ s.clock := not_le.2 hnow
    have hstanding := hr.standing token' user_id expires_at hnow
    rw [htokens, List.mem_append, List.mem_singleton, mem_deleteWhere]
    simp only [decide_eq_false_iff_not, hlt, not_false_eq_true, and_true, hstanding,
      standing_concat, AdminToken.mk.injEq]
    constructor
    · rintro (⟨t, hexp, hs⟩ | ⟨heq, rfl, rfl⟩)
      · exact ⟨t, hexp, Or.inl ⟨hs, by simp⟩⟩
      · obtain rfl := hhash heq
        exact ⟨s.clock, rfl, Or.inr rfl⟩
    · rintro ⟨t, hexp, ⟨hs, -⟩ | heq⟩
      · exact Or.inl ⟨t, hexp, hs⟩
      · cases heq
        exact Or.inr ⟨rfl, rfl, hexp⟩

/-- A login adds the token of its `sign_in`, or changes nothing. -/
theorem Refines.login (hhash : Function.Injective H.token_hash) (hr : Refines H h s)
    {username password token : String}
    (hfresh : ((h ++ (effect H s (.login username password token)).toList).filterMap
      Effect.issued).Nodup) :
    Refines H (h ++ (effect H s (.login username password token)).toList)
      (step H s (.login username password token)) := by
  cases hin : CraneTracker.signIn H s.clock username password token s.store with
  | none =>
    have heffect : effect H s (.login username password token) = none := by
      simp [effect, CraneTracker.login, hin]
    have hstep : Admin.step H s (.login username password token) = s := by
      simp [Admin.step, CraneTracker.login, hin]
    rw [heffect, hstep, Option.toList_none, List.append_nil]
    exact hr
  | some r =>
    obtain ⟨user, store⟩ := r
    have heffect : effect H s (.login username password token) =
        some (.signedIn token user.id s.clock) := by
      simp [effect, CraneTracker.login, hin]
    have hstep : Admin.step H s (.login username password token) = { s with store := store } := by
      simp [Admin.step, CraneTracker.login, hin]
    rw [heffect, Option.toList_some, List.filterMap_append] at hfresh
    rw [heffect, hstep, Option.toList_some]
    refine hr.signIn hhash hin fun hmem => ?_
    exact List.disjoint_of_nodup_append hfresh hmem (List.mem_singleton_self token)

/-- A request that `require_admin` refuses is not answered `204`. -/
theorem requireAdmin_ne {now : Timestamp} {credentials : Option String} {store : AuthStore}
    {answer : Answer} (h : requireAdmin H now credentials store = .error answer) :
    answer ≠ .ok 204 := by
  unfold requireAdmin at h
  split at h <;> cases h
  simp

/-- A logout removes the row of its token, or changes nothing. -/
theorem Refines.logout (hhash : Function.Injective H.token_hash) (hr : Refines H h s)
    (token : String) :
    Refines H (h ++ (effect H s (.logout (some token))).toList)
      (step H s (.logout (some token))) := by
  cases hadmin : requireAdmin H s.clock (some token) s.store with
  | error answer =>
    have heffect : effect H s (.logout (some token)) = none := by
      simp [effect, CraneTracker.logout, hadmin, requireAdmin_ne hadmin]
    have hstep : Admin.step H s (.logout (some token)) = s := by
      simp [Admin.step, CraneTracker.logout, hadmin]
    rw [heffect, hstep, Option.toList_none, List.append_nil]
    exact hr
  | ok user =>
    have heffect : effect H s (.logout (some token)) = some (.signedOut token) := by
      simp [effect, CraneTracker.logout, hadmin]
    have hstep : Admin.step H s (.logout (some token)) =
        { s with store := CraneTracker.signOut H token s.store } := by
      simp [Admin.step, CraneTracker.logout, hadmin]
    rw [heffect, hstep, Option.toList_some]
    exact hr.signOut hhash token

/-- Each action keeps the tables those of the history. -/
theorem Refines.step (hhash : Function.Injective H.token_hash) (hr : Refines H h s) (a : Action)
    (hfresh : ((h ++ (effect H s a).toList).filterMap Effect.issued).Nodup) :
    Refines H (h ++ (effect H s a).toList) (step H s a) := by
  cases a with
  | advance d =>
    have heffect : effect H s (.advance d) = none := rfl
    rw [heffect, Option.toList_none, List.append_nil]
    exact hr.advance d
  | setActive user_id is_active =>
    have heffect : effect H s (.setActive user_id is_active) = none := rfl
    rw [heffect, Option.toList_none, List.append_nil]
    exact hr.setActive user_id is_active
  | signOut token => exact hr.signOut hhash token
  | login username password token => exact hr.login hhash hfresh
  | logout credentials =>
    cases credentials with
    | none => simpa [effect, Admin.step, CraneTracker.logout, requireAdmin] using hr
    | some token => exact hr.logout hhash token

/-- Every run keeps the tables those of the history. -/
theorem Refines.run (hhash : Function.Injective H.token_hash) (hr : Refines H h s)
    (es : List Action) (hfresh : ((h ++ history H s es).filterMap Effect.issued).Nodup) :
    Refines H (h ++ history H s es) (run H s es) := by
  induction es generalizing h s with
  | nil => simpa [history, Admin.run] using hr
  | cons a es ih =>
    rw [history, ← List.append_assoc] at hfresh ⊢
    have hprefix : ((h ++ (effect H s a).toList).filterMap Effect.issued).Nodup := by
      rw [List.filterMap_append] at hfresh
      exact (List.nodup_append.1 hfresh).1
    exact ih (hr.step hhash a hprefix) hfresh

end Refines

/-! ## The answer of `get_admin` -/

/-- An action on another token than `token`: a sign-in that would issue it, or its sign-out. -/
def Action.OfOther (token : String) : Action → Prop
  | .login _ _ token' => token' ≠ token
  | .logout (some token') => token' ≠ token
  | .signOut token' => token' ≠ token
  | _ => False

section Answer

variable {H : Hashes} {s : State} {token token' : String}

/-- The purge of a `sign_in`, and the token that it adds, do not change the answer for another
token. -/
theorem getAdmin_signIn (hhash : Function.Injective H.token_hash) (hne : token' ≠ token)
    {username password : String} {user : AdminUser} {store : AuthStore}
    (hin : signIn H s.clock username password token' s.store = some (user, store)) :
    getAdmin H s.clock token store = getAdmin H s.clock token s.store := by
  obtain ⟨-, -, husers, htokens⟩ := signIn_eq_some hin
  unfold getAdmin
  rw [htokens, husers, List.findSome?_append, findSome?_deleteWhere]
  · have hother : H.token_hash token' ≠ H.token_hash token := hhash.ne hne
    simp [hother]
  -- What the purge removes has expired.
  · intro t _ hexpired
    have hle : t.expires_at ≤ s.clock := by simpa using hexpired
    rw [if_neg fun hand => absurd hand.2 (not_lt.2 hle)]

/-- The `sign_out` of a token does not change the answer for another token. -/
theorem getAdmin_signOut (hhash : Function.Injective H.token_hash) (hne : token' ≠ token) :
    getAdmin H s.clock token (signOut H token' s.store) = getAdmin H s.clock token s.store := by
  unfold getAdmin signOut
  refine findSome?_deleteWhere fun t _ hhash' => ?_
  have heq : t.token_hash = H.token_hash token' := by simpa using hhash'
  rw [if_neg fun hand => hhash.ne hne (heq.symm.trans hand.1)]

/-- An action on another token does not change the answer for a token. -/
theorem getAdmin_step_of_other (hhash : Function.Injective H.token_hash) {a : Action}
    (ha : a.OfOther token) :
    getAdmin H (step H s a).clock token (step H s a).store =
      getAdmin H s.clock token s.store := by
  cases a with
  | login username password token' =>
    have hne : token' ≠ token := ha
    show getAdmin H s.clock token (login H s.clock username password token' s.store).2.2 = _
    unfold login
    split
    · rfl
    · rename_i user store hin
      exact getAdmin_signIn hhash hne hin
  | logout credentials =>
    cases credentials with
    | none => cases ha
    | some token' =>
      have hne : token' ≠ token := ha
      show getAdmin H s.clock token (logout H s.clock (some token') s.store).2 = _
      unfold logout
      split
      · rfl
      · exact getAdmin_signOut hhash hne
  | signOut token' =>
    have hne : token' ≠ token := ha
    show getAdmin H s.clock token (signOut H token' s.store) = _
    exact getAdmin_signOut hhash hne
  | advance | setActive => cases ha

end Answer

/-- Admin sessions. Let issued tokens be fresh, and let SHA-256 not collide. After every run,
`get_admin` of a token returns a user if and only if the user is active and the token was issued by a
successful `sign_in` of the user, less than `admin_token_ttl_seconds` ago, and has not been signed out
since. No action on another token changes the answer. -/
theorem getAdmin_iff (H : Hashes) (hhash : Function.Injective H.token_hash) (clock : Timestamp)
    {users : List AdminUser} (husers : KeyUnique AdminUser.id users) {es : List Action}
    (hfresh : ((history H (initial clock users) es).filterMap Effect.issued).Nodup)
    (token : String) :
    (∀ user, getAdmin H (run H (initial clock users) es).clock token
        (run H (initial clock users) es).store = some user ↔
      user ∈ (run H (initial clock users) es).store.users ∧ user.is_active = true ∧
        ∃ t, Standing (history H (initial clock users) es) token user.id t ∧
          (run H (initial clock users) es).clock < t + H.admin_token_ttl_seconds * 1000000) ∧
    ∀ a : Action, a.OfOther token →
      getAdmin H (step H (run H (initial clock users) es) a).clock token
          (step H (run H (initial clock users) es) a).store =
        getAdmin H (run H (initial clock users) es).clock token
          (run H (initial clock users) es).store := by
  have hinit : Refines H [] (initial clock users) := by
    refine ⟨husers, List.nodup_nil, fun t ht => absurd ht List.not_mem_nil, ?_⟩
    intro token user_id expires_at _
    constructor
    · intro ht
      cases ht
    · rintro ⟨t, -, h₁, h₂, heq, -⟩
      simp at heq
  have hr : Refines H (history H (initial clock users) es) (run H (initial clock users) es) :=
    hinit.run hhash es hfresh
  refine ⟨fun user => ?_, fun a ha => getAdmin_step_of_other hhash ha⟩
  rw [getAdmin_eq_some hr.tokens hr.users]
  refine and_congr_right fun _ => and_congr_right fun _ => ?_
  constructor
  · rintro ⟨⟨token_hash, user_id, expires_at⟩, hmem, rfl, rfl, hnow⟩
    obtain ⟨t, rfl, hs⟩ := (hr.standing token user.id expires_at hnow).1 hmem
    exact ⟨t, hs, hnow⟩
  · rintro ⟨t, hs, hnow⟩
    exact ⟨_, (hr.standing token user.id _ hnow).2 ⟨t, rfl, hs⟩, rfl, rfl, hnow⟩

/-- Hashes that do nothing, with sessions of an hour. -/
def plainHashes : Hashes := ⟨id, fun password _ => some password, "", 3600⟩

/-- A user whose password is `pw`. -/
def reviewer : AdminUser := ⟨1, "reviewer", "scrypt$00$pw", true⟩

/-- Two sessions of one user, of which one is signed out, half an hour later. -/
def twoSessions : List Action :=
  [.login "reviewer" "pw" "a", .login "reviewer" "wrong" "b", .login "reviewer" "pw" "c",
    .logout (some "a"), .advance 1800000000]

/-- The other session stands. -/
theorem getAdmin_iff_twoSessions :
    reviewer ∈ (run plainHashes (initial 0 [reviewer]) twoSessions).store.users ∧
      reviewer.is_active = true ∧
        ∃ t, Standing (history plainHashes (initial 0 [reviewer]) twoSessions) "c" 1 t ∧
          (run plainHashes (initial 0 [reviewer]) twoSessions).clock < t + 3600 * 1000000 := by
  have hunique : KeyUnique AdminUser.id [reviewer] := List.nodup_singleton _
  refine ((getAdmin_iff plainHashes Function.injective_id 0 hunique ?_ "c").1 reviewer).1 ?_
  · decide +kernel
  · decide +kernel

end CraneTracker.Admin
