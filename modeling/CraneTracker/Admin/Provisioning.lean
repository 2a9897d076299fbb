import Mathlib.Data.List.DropRight
import CraneTracker.Admin.Passwords
import CraneTracker.Admin.Sessions
import CraneTracker.Lib.Interleaving

/-!
# The provisioning of admins

The command `app/admin.py`, any number of times and at the same time as the sessions. A run of it reads a
name and a password, looks for an account with the name, and inserts one. Nothing is locked between the
two, so two runs may both find nothing. The unique constraint on the name then decides: the second commit
raises, and the run creates nothing. So the accounts are those of the runs that have committed one, one
each (`Accounts`), and what the command accepts the route `login` accepts too.
-/

namespace CraneTracker.Provisioning

open Interleaving Table Passwords

/-- The characters that `str.strip` removes. -/
def isSpace (c : Char) : Bool :=
  let n := c.toNat
  (0x09 ≤ n && n ≤ 0x0d) || (0x1c ≤ n && n ≤ 0x20) || n = 0x85 || n = 0xa0 || n = 0x1680 ||
    (0x2000 ≤ n && n ≤ 0x200a) || n = 0x2028 || n = 0x2029 || n = 0x202f || n = 0x205f || n = 0x3000

/-- `str.strip`. -/
def strip (text : String) : String :=
  String.ofList ((text.toList.dropWhile isSpace).rdropWhile isSpace)

/-- What `main` reads: the name and the password, unless `parser.error` refuses them. -/
def readInput (argument password confirmation : String) : Except String (String × String) :=
  let username := strip argument
  if username = "" ∨ username.length > 255 then .error "Username must contain 1 to 255 characters"
  else if ¬ (15 ≤ password.length ∧ password.length ≤ 1024) then
    .error "Password must contain 15 to 1024 characters"
  else if password ≠ confirmation then .error "Passwords do not match"
  else .ok (username, password)

/-- The bounds of `LoginRequest`. -/
def loginRequestValid (username password : String) : Bool :=
  1 ≤ username.length && username.length ≤ 255 && 1 ≤ password.length && password.length ≤ 1024

/-- The local state of a run of the command, by the statement that it runs next. -/
inductive Provision
  | free
  /-- The query for an account with the name. -/
  | select (username password : String)
  /-- `hash_password`, the insert, and the commit. -/
  | commit (username password : String)
  /-- The account is committed, and the run says so. -/
  | created (username password : String)
  /-- `parser.error`. -/
  | refused (message : String)
  | raised
  | stopped
deriving DecidableEq, Repr

/-- The steps of the command, and of the sessions. -/
inductive Action
  | session (a : Admin.Action)
  | start (argument password confirmation : String)
  | select
  | commit (id : Uuid) (salt : Bytes)
  | dbError
  | stop

/-- The functions of `hashlib` that the sessions use, by `scrypt` and SHA-256. -/
def hashes (scrypt : Bytes → Bytes → Bytes) (token_hash : String → String)
    (dummy_password_hash : String) (admin_token_ttl_seconds : ℤ) : Hashes where
  token_hash := token_hash
  password_digest password salt := (passwordDigest scrypt password salt).toOption
  dummy_password_hash := dummy_password_hash
  admin_token_ttl_seconds := admin_token_ttl_seconds

/-- The steps of `main`. -/
def Provision.step (scrypt : Bytes → Bytes → Bytes) (H : Hashes) (a : Action) (s : Admin.State)
    (l : Provision) : Option (Admin.State × Provision) :=
  match a with
  | .session a => some (Admin.step H s a, l)
  | .start argument password confirmation =>
    match l with
    | .free =>
      match readInput argument password confirmation with
      | .error message => some (s, .refused message)
      | .ok (username, password) => some (s, .select username password)
    | _ => none
  | .select =>
    match l with
    | .select username password =>
      if s.store.users.any fun user => user.username = username then
        some (s, .refused "Username already exists")
      else some (s, .commit username password)
    | _ => none
  | .commit id salt =>
    match l with
    | .commit username password =>
      -- `generate_uuid7` never repeats an id.
      if s.store.users.any fun user => user.id = id then none
      else
        match hashPassword scrypt salt password with
        | .error _ => some (s, .raised)
        | .ok password_hash =>
          -- The unique constraint on the name.
          if s.store.users.any fun user => user.username = username then some (s, .raised)
          else
            let user : AdminUser := ⟨id, username, password_hash, true⟩
            some ({ s with store := { s.store with users := s.store.users ++ [user] } },
              .created username password)
    | _ => none
  | .dbError =>
    match l with
    | .select _ _ | .commit _ _ => some (s, .raised)
    | _ => none
  | .stop =>
    match l with
    | .select _ _ | .commit _ _ => some (s, .stopped)
    | _ => none

/-- The command and the sessions. -/
def system (scrypt : Bytes → Bytes → Bytes) (H : Hashes) : System Admin.State Provision Action where
  step _ := Provision.step scrypt H

/-- A state of the system. -/
abbrev State := Config Admin.State Provision

/-- Before the first account. -/
def initial (clock : Timestamp) : State := ⟨Admin.initial clock [], fun _ => .free⟩

/-! ## The input -/

section Input

variable {argument password confirmation username : String}

/-- A name that was stripped has nothing to strip. -/
theorem strip_strip (text : String) : strip (strip text) = strip text := by
  have hprefix := List.rdropWhile_prefix isSpace (l := text.toList.dropWhile isSpace)
  have hleft : ((text.toList.dropWhile isSpace).rdropWhile isSpace).dropWhile isSpace =
      (text.toList.dropWhile isSpace).rdropWhile isSpace := by
    generalize hcs : (text.toList.dropWhile isSpace).rdropWhile isSpace = cs at hprefix ⊢
    cases cs with
    | nil => rfl
    | cons c cs =>
      -- The first character is the first that is no whitespace.
      have hhead : (text.toList.dropWhile isSpace).head? = some c := by
        obtain ⟨rest, heq⟩ := hprefix
        rw [← heq]
        rfl
      have hspace := List.head?_dropWhile_not isSpace text.toList
      rw [hhead] at hspace
      exact List.dropWhile_cons_of_neg (by rw [hspace]; exact Bool.false_ne_true)
  unfold strip
  rw [String.toList_ofList, hleft, List.rdropWhile_idempotent]

/-- What an account has been created with: a name without surrounding whitespace, and a password, within the
bounds of the command. -/
structure Accepted (username password : String) : Prop where
  stripped : strip username = username
  name_pos : 1 ≤ username.length
  name_le : username.length ≤ 255
  password_ge : 15 ≤ password.length
  password_le : password.length ≤ 1024

/-- What `main` has read is within its bounds. -/
theorem accepted_of_readInput (h : readInput argument password confirmation = .ok (username, password)) :
    Accepted username password := by
  unfold readInput at h
  dsimp only at h
  split_ifs at h with hname hpassword hconfirmation
  obtain ⟨rfl, -⟩ := Prod.mk.inj (Except.ok.inj h)
  rw [not_or] at hname
  refine ⟨strip_strip argument, ?_, by omega, hpassword.1, hpassword.2⟩
  rw [Nat.one_le_iff_ne_zero, Ne, String.length_eq_zero_iff]
  exact hname.1

/-- The password that `main` reads is the one that was typed. -/
theorem password_of_readInput {password' : String}
    (h : readInput argument password confirmation = .ok (username, password')) : password' = password := by
  unfold readInput at h
  dsimp only at h
  split_ifs at h
  exact (Prod.mk.inj (Except.ok.inj h)).2.symm

/-- The route `login` does not refuse the name and the password of an account. -/
theorem Accepted.loginRequestValid (h : Accepted username password) :
    loginRequestValid username password = true := by
  obtain ⟨-, hpos, hle, hge, hle'⟩ := h
  simp only [Provisioning.loginRequestValid, Bool.and_eq_true, decide_eq_true_eq]
  omega

end Input

/-! ## The steps -/

/-- The name and the password that a run of the command has read. -/
def Provision.input : Provision → Option (String × String)
  | .select username password => some (username, password)
  | .commit username password => some (username, password)
  | .created username password => some (username, password)
  | _ => none

/-- What a step of the command can be. -/
inductive Provision.Step (scrypt : Bytes → Bytes → Bytes) (H : Hashes) (s : Admin.State) :
    Provision → Action → Admin.State × Provision → Prop
  | session (l : Provision) (a : Admin.Action) :
      Provision.Step scrypt H s l (.session a) (Admin.step H s a, l)
  | refuse (argument password confirmation message : String)
      (hinput : readInput argument password confirmation = .error message) :
      Provision.Step scrypt H s .free (.start argument password confirmation) (s, .refused message)
  | start (argument password confirmation username : String)
      (hinput : readInput argument password confirmation = .ok (username, password)) :
      Provision.Step scrypt H s .free (.start argument password confirmation)
        (s, .select username password)
  | taken (username password : String) :
      Provision.Step scrypt H s (.select username password) .select
        (s, .refused "Username already exists")
  | select (username password : String) :
      Provision.Step scrypt H s (.select username password) .select (s, .commit username password)
  | conflict (username password : String) (id : Uuid) (salt : Bytes) :
      Provision.Step scrypt H s (.commit username password) (.commit id salt) (s, .raised)
  | commit (username password password_hash : String) (id : Uuid) (salt : Bytes)
      (hhash : hashPassword scrypt salt password = .ok password_hash)
      (hid : ∀ user ∈ s.store.users, user.id ≠ id)
      (hname : ∀ user ∈ s.store.users, user.username ≠ username) :
      Provision.Step scrypt H s (.commit username password) (.commit id salt)
        ({ s with store := { s.store with users := s.store.users ++
          [⟨id, username, password_hash, true⟩] } }, .created username password)
  | dbError (l : Provision) (hl : ∀ username password, l ≠ .created username password) :
      Provision.Step scrypt H s l .dbError (s, .raised)
  | stop (l : Provision) (hl : ∀ username password, l ≠ .created username password) :
      Provision.Step scrypt H s l .stop (s, .stopped)

section Step

variable {scrypt : Bytes → Bytes → Bytes} {H : Hashes} {s : Admin.State} {l : Provision} {a : Action}

/-- The command steps in one of these ways. -/
theorem Provision.step_cases {r : Admin.State × Provision} (h : l.step scrypt H a s = some r) :
    Provision.Step scrypt H s l a r := by
  unfold Provision.step at h
  cases a with
  | session a =>
    obtain rfl := Option.some.inj h
    exact .session l a
  | start argument password confirmation =>
    dsimp only at h
    split at h
    · split at h
      · rename_i message hinput
        obtain rfl := Option.some.inj h
        exact .refuse _ _ _ message hinput
      · rename_i username password' hinput
        obtain rfl := password_of_readInput hinput
        obtain rfl := Option.some.inj h
        exact .start _ _ _ username hinput
    · cases h
  | select =>
    dsimp only at h
    split at h
    · split_ifs at h
      · obtain rfl := Option.some.inj h
        exact .taken _ _
      · obtain rfl := Option.some.inj h
        exact .select _ _
    · cases h
  | commit id salt =>
    dsimp only at h
    split at h
    · rw [hashPassword_eq] at h
      split_ifs at h with hid hname
      · obtain rfl := Option.some.inj h
        exact .conflict _ _ _ _
      · obtain rfl := Option.some.inj h
        rw [List.any_eq_true] at hid hname
        refine .commit _ _ _ _ _ (hashPassword_eq salt) (fun user huser heq => ?_)
          fun user huser heq => ?_
        · exact hid ⟨user, huser, decide_eq_true heq⟩
        · exact hname ⟨user, huser, decide_eq_true heq⟩
    · cases h
  | dbError =>
    dsimp only at h
    split at h
    · obtain rfl := Option.some.inj h
      exact .dbError _ nofun
    · obtain rfl := Option.some.inj h
      exact .dbError _ nofun
    · cases h
  | stop =>
    dsimp only at h
    split at h
    · obtain rfl := Option.some.inj h
      exact .stop _ nofun
    · obtain rfl := Option.some.inj h
      exact .stop _ nofun
    · cases h

/-- The accounts after an action of the sessions are those before it, apart from who is active. -/
theorem users_session (a : Admin.Action) : ∃ f : AdminUser → AdminUser,
    (Admin.step H s a).store.users = s.store.users.map f ∧ ∀ user, (f user).id = user.id ∧
      (f user).username = user.username ∧ (f user).password_hash = user.password_hash := by
  have hkeep : ∀ {users : List AdminUser}, users = s.store.users → ∃ f : AdminUser → AdminUser,
      users = s.store.users.map f ∧ ∀ user, (f user).id = user.id ∧
        (f user).username = user.username ∧ (f user).password_hash = user.password_hash := by
    rintro users rfl
    exact ⟨id, (List.map_id _).symm, fun _ => ⟨rfl, rfl, rfl⟩⟩
  cases a with
  | advance => exact hkeep rfl
  | signOut => exact hkeep rfl
  | login username password token =>
    refine hkeep ?_
    show (login H s.clock username password token s.store).2.2.users = _
    unfold login
    split
    · rfl
    · rename_i user store hsignIn
      exact (signIn_eq_some hsignIn).2.2.1
  | logout credentials =>
    refine hkeep ?_
    show (logout H s.clock credentials s.store).2.users = _
    unfold logout
    split
    · rfl
    · split <;> rfl
  | setActive user_id is_active =>
    refine ⟨fun user => if user.id = user_id then { user with is_active } else user, ?_, fun user => ?_⟩
    · show (updateWhere _ _ s.store.users) = _
      unfold updateWhere
      simp only [decide_eq_true_eq]
    · dsimp only
      split_ifs
      · exact ⟨rfl, rfl, rfl⟩
      · exact ⟨rfl, rfl, rfl⟩

/-- A run has read what it had read before the step, or what was typed into it. -/
theorem Provision.input_step {s' : Admin.State} {l' : Provision} (h : l.step scrypt H a s = some (s', l'))
    {username password : String} (hl' : l'.input = some (username, password)) :
    l.input = some (username, password) ∨ ∃ argument confirmation,
      a = .start argument password confirmation ∧
        readInput argument password confirmation = .ok (username, password) := by
  cases Provision.step_cases h with
  | session => exact Or.inl hl'
  | start argument password' confirmation username' hinput =>
    obtain ⟨rfl, rfl⟩ := Prod.mk.inj (Option.some.inj hl')
    exact Or.inr ⟨argument, confirmation, rfl, hinput⟩
  | select => exact Or.inl hl'
  | commit => exact Or.inl hl'
  | refuse | taken | conflict | dbError | stop => cases hl'

/-- A step creates an account with a new name, or leaves the accounts as they are, apart from who is active,
and the run as it is, as far as creating one goes. -/
theorem Provision.created_step {s' : Admin.State} {l' : Provision}
    (h : l.step scrypt H a s = some (s', l')) :
    (∃ user password salt, l = .commit user.username password ∧ l' = .created user.username password ∧
      hashPassword scrypt salt password = .ok user.password_hash ∧
      s'.store.users = s.store.users ++ [user] ∧ ∀ r ∈ s.store.users, r.id ≠ user.id ∧
        r.username ≠ user.username) ∨
    (∃ f : AdminUser → AdminUser, s'.store.users = s.store.users.map f ∧ ∀ user, (f user).id = user.id ∧
      (f user).username = user.username ∧ (f user).password_hash = user.password_hash) ∧
      ∀ username password, l' = .created username password ↔ l = .created username password := by
  have hsame : ∃ f : AdminUser → AdminUser, s.store.users = s.store.users.map f ∧
      ∀ user, (f user).id = user.id ∧ (f user).username = user.username ∧
        (f user).password_hash = user.password_hash :=
    ⟨id, (List.map_id _).symm, fun _ => ⟨rfl, rfl, rfl⟩⟩
  cases Provision.step_cases h with
  | session l a => exact Or.inr ⟨users_session a, fun _ _ => Iff.rfl⟩
  | commit username password password_hash id salt hhash hid hname =>
    exact Or.inl ⟨⟨id, username, password_hash, true⟩, password, salt, rfl, rfl, hhash, rfl,
      fun r hr => ⟨hid r hr, hname r hr⟩⟩
  | dbError l hl | stop l hl =>
    exact Or.inr ⟨hsame, fun username password => iff_of_false nofun (hl username password)⟩
  | refuse | start | taken | select | conflict =>
    exact Or.inr ⟨hsame, fun _ _ => iff_of_false nofun nofun⟩

end Step

/-! ## The accounts -/

/-- In the run `es`, the name and the password were typed into the command `p`. -/
def Typed (es : List (Event Action)) (p : ℕ) (username password : String) : Prop :=
  ∃ argument confirmation, ⟨p, .start argument password confirmation⟩ ∈ es ∧
    readInput argument password confirmation = .ok (username, password)

/-- After the run `es`, the accounts are those of the runs of the command that have created one. -/
structure Accounts (scrypt : Bytes → Bytes → Bytes) (es : List (Event Action)) (c : State) : Prop where
  ids : KeyUnique AdminUser.id c.shared.store.users
  names : KeyUnique AdminUser.username c.shared.store.users
  typed : ∀ {p username password}, (c.procs p).input = some (username, password) →
    Typed es p username password
  sound : ∀ user ∈ c.shared.store.users, ∃ p password, c.procs p = .created user.username password
  complete : ∀ {p username password}, c.procs p = .created username password →
    ∃ user ∈ c.shared.store.users, user.username = username ∧
      ∃ salt, hashPassword scrypt salt password = .ok user.password_hash
  one : ∀ {p q username password password'}, c.procs p = .created username password →
    c.procs q = .created username password' → p = q

section Accounts

variable {scrypt : Bytes → Bytes → Bytes} {H : Hashes} {c c' : State} {e : Event Action}
  {es : List (Event Action)}

/-- What was typed in a run was typed in its continuations. -/
theorem Typed.append {p : ℕ} {username password : String} (h : Typed es p username password)
    (es' : List (Event Action)) : Typed (es ++ es') p username password := by
  obtain ⟨argument, confirmation, hmem, hinput⟩ := h
  exact ⟨argument, confirmation, List.mem_append_left es' hmem, hinput⟩

/-- An event is a step of its process. -/
theorem step_next (hn : (system scrypt H).next c e = some c') :
    (c.procs e.pid).step scrypt H e.act c.shared = some (c'.shared, c'.procs e.pid) := by
  obtain ⟨s', l', hstep, rfl⟩ := System.next_eq_some.1 hn
  show _ = some (s', Function.update c.procs e.pid l' e.pid)
  rw [Function.update_self]
  exact hstep

/-- After an event, what a run has read was typed into it. -/
theorem Accounts.typed_next (ha : Accounts scrypt es c) (hn : (system scrypt H).next c e = some c') {p : ℕ}
    {username password : String} (hp : (c'.procs p).input = some (username, password)) :
    Typed (es ++ [e]) p username password := by
  by_cases hpid : p = e.pid
  · subst hpid
    rcases Provision.input_step (step_next hn) hp with hold | ⟨argument, confirmation, hact, hinput⟩
    · exact (ha.typed hold).append [e]
    · refine ⟨argument, confirmation, List.mem_append_right _ ?_, hinput⟩
      rw [List.mem_singleton, ← hact]
  · rw [System.procs_next_of_ne hn hpid] at hp
    exact (ha.typed hp).append [e]

/-- The commit of a run keeps the accounts those of the runs of the command. -/
theorem Accounts.next_of_commit (ha : Accounts scrypt es c) (hn : (system scrypt H).next c e = some c')
    {user : AdminUser} {password : String} {salt : Bytes}
    (hcommit : c.procs e.pid = .commit user.username password)
    (hproc : c'.procs e.pid = .created user.username password)
    (hhash : hashPassword scrypt salt password = .ok user.password_hash)
    (husers : c'.shared.store.users = c.shared.store.users ++ [user])
    (hnew : ∀ r ∈ c.shared.store.users, r.id ≠ user.id ∧ r.username ≠ user.username) :
    Accounts scrypt (es ++ [e]) c' := by
  -- Another run with the same name would have an account.
  have hother : ∀ {p username password'}, p ≠ e.pid → c'.procs p = .created username password' →
      c.procs p = .created username password' ∧ username ≠ user.username := by
    intro p username password' hpid hp
    rw [System.procs_next_of_ne hn hpid] at hp
    obtain ⟨r, hr, hname, -⟩ := ha.complete hp
    exact ⟨hp, hname ▸ (hnew r hr).2⟩
  refine ⟨?_, ?_, ha.typed_next hn, fun r hr => ?_, fun {p username password'} hp => ?_,
    fun {p q username password₁ password₂} hp hq => ?_⟩
  · rw [husers]
    refine ha.ids.append (List.nodup_singleton _) fun r hr r' hr' => ?_
    obtain rfl := List.mem_singleton.1 hr'
    exact (hnew r hr).1
  · rw [husers]
    refine ha.names.append (List.nodup_singleton _) fun r hr r' hr' => ?_
    obtain rfl := List.mem_singleton.1 hr'
    exact (hnew r hr).2
  · rw [husers, List.mem_append, List.mem_singleton] at hr
    rcases hr with hold | rfl
    · obtain ⟨p, password', hp⟩ := ha.sound r hold
      have hpid : p ≠ e.pid := by
        rintro rfl
        rw [hcommit] at hp
        cases hp
      exact ⟨p, password', by rw [System.procs_next_of_ne hn hpid]; exact hp⟩
    · exact ⟨e.pid, password, hproc⟩
  · by_cases hpid : p = e.pid
    · subst hpid
      rw [hproc] at hp
      cases hp
      exact ⟨user, by rw [husers]; simp, rfl, salt, hhash⟩
    · obtain ⟨r, hr, hrest⟩ := ha.complete (hother hpid hp).1
      exact ⟨r, by rw [husers]; exact List.mem_append_left _ hr, hrest⟩
  · by_cases hpid : p = e.pid
    · by_cases hqid : q = e.pid
      · rw [hpid, hqid]
      · rw [hpid, hproc] at hp
        cases hp
        exact absurd rfl (hother hqid hq).2
    · by_cases hqid : q = e.pid
      · rw [hqid, hproc] at hq
        cases hq
        exact absurd rfl (hother hpid hp).2
      · exact ha.one (hother hpid hp).1 (hother hqid hq).1

/-- An event that changes only who is active keeps the accounts those of the runs of the command. -/
theorem Accounts.next_of_map (ha : Accounts scrypt es c) (hn : (system scrypt H).next c e = some c')
    {f : AdminUser → AdminUser} (husers : c'.shared.store.users = c.shared.store.users.map f)
    (hf : ∀ user, (f user).id = user.id ∧ (f user).username = user.username ∧
      (f user).password_hash = user.password_hash)
    (hcreated : ∀ username password, c'.procs e.pid = .created username password ↔
      c.procs e.pid = .created username password) : Accounts scrypt (es ++ [e]) c' := by
  have hcreated' : ∀ p username password, c'.procs p = .created username password ↔
      c.procs p = .created username password := by
    intro p username password
    by_cases hpid : p = e.pid
    · rw [hpid]
      exact hcreated username password
    · rw [System.procs_next_of_ne hn hpid]
  refine ⟨?_, ?_, ha.typed_next hn, fun r hr => ?_, fun {p username password} hp => ?_,
    fun hp hq => ha.one ((hcreated' _ _ _).1 hp) ((hcreated' _ _ _).1 hq)⟩
  · have hids : AdminUser.id ∘ f = AdminUser.id := funext fun user => (hf user).1
    rw [KeyUnique, husers, List.map_map, hids]
    exact ha.ids
  · have hnames : AdminUser.username ∘ f = AdminUser.username := funext fun user => (hf user).2.1
    rw [KeyUnique, husers, List.map_map, hnames]
    exact ha.names
  · rw [husers] at hr
    obtain ⟨user, huser, rfl⟩ := List.mem_map.1 hr
    obtain ⟨p, password, hp⟩ := ha.sound user huser
    refine ⟨p, password, (hcreated' p _ _).2 ?_⟩
    rw [(hf user).2.1]
    exact hp
  · obtain ⟨user, huser, hname, salt, hhash⟩ := ha.complete ((hcreated' _ _ _).1 hp)
    refine ⟨f user, ?_, (hf user).2.1.trans hname, salt, ?_⟩
    · rw [husers]
      exact List.mem_map_of_mem huser
    · rw [(hf user).2.2]
      exact hhash

/-- An event keeps the accounts those of the runs of the command. -/
theorem Accounts.next (ha : Accounts scrypt es c) (hn : (system scrypt H).next c e = some c') :
    Accounts scrypt (es ++ [e]) c' := by
  rcases Provision.created_step (step_next hn) with
    ⟨user, password, salt, hcommit, hproc, hhash, husers, hnew⟩ | ⟨⟨f, husers, hf⟩, hcreated⟩
  · exact ha.next_of_commit hn hcommit hproc hhash husers hnew
  · exact ha.next_of_map hn husers hf hcreated

/-- In every state of a run, the accounts are those of the runs of the command. -/
theorem accounts_run {clock : Timestamp} (h : (system scrypt H).run (initial clock) es = some c) :
    Accounts scrypt es c := by
  refine System.run_induction (I := Accounts scrypt) ?_ (fun es c e c' _ hn ha => ha.next hn) h
  exact ⟨List.nodup_nil, List.nodup_nil, nofun, nofun, nofun, nofun⟩

end Accounts

/-- Provisioned accounts. However many runs of the command and sessions there are at the same time, no two
accounts have the same name, and each account was created by one run, with the name and the password that
were typed into it. Each run that has committed has its account, no two of them have the same name, the route
`login` takes its name and its password, and as long as the account is active it answers `200` to exactly
the passwords that have the digest of that one. -/
theorem provisioned_accounts (scrypt : Bytes → Bytes → Bytes) (token_hash : String → String)
    (dummy_password_hash : String) (ttl : ℤ) (clock : Timestamp) (es : List (Event Action)) (c : State)
    (hrun : (system scrypt (hashes scrypt token_hash dummy_password_hash ttl)).run (initial clock) es =
      some c) :
    KeyUnique AdminUser.username c.shared.store.users ∧
    (∀ user ∈ c.shared.store.users, ∃ p password, c.procs p = .created user.username password ∧
      ∀ q password', c.procs q = .created user.username password' → q = p) ∧
    ∀ p username password, c.procs p = .created username password →
      Typed es p username password ∧ strip username = username ∧
      loginRequestValid username password = true ∧
      ∃ user ∈ c.shared.store.users, user.username = username ∧
        ∃ salt, hashPassword scrypt salt password = .ok user.password_hash ∧
          (user.is_active = true → ∀ attempt token,
            ((login (hashes scrypt token_hash dummy_password_hash ttl) c.shared.clock username attempt token
              c.shared.store).1 = .ok 200 ↔ scrypt (encode attempt) salt = scrypt (encode password) salt)) := by
  have ha := accounts_run hrun
  refine ⟨ha.names, fun user huser => ?_, fun p username password hp => ?_⟩
  · obtain ⟨p, password, hp⟩ := ha.sound user huser
    exact ⟨p, password, hp, fun q password' hq => ha.one hq hp⟩
  · have htyped : Typed es p username password := ha.typed (by rw [hp]; rfl)
    obtain ⟨user, huser, rfl, salt, hhash⟩ := ha.complete hp
    have haccepted : Accepted user.username password := by
      obtain ⟨argument, confirmation, -, hinput⟩ := htyped
      exact accepted_of_readInput hinput
    refine ⟨htyped, haccepted.stripped, haccepted.loginRequestValid, user, huser, rfl, salt, hhash, ?_⟩
    intro hactive attempt token
    have hfind : c.shared.store.users.find? (fun r => r.username = user.username) = some user :=
      (row_eq_some ha.names).2 ⟨huser, rfl⟩
    have hsignIn : (signIn (hashes scrypt token_hash dummy_password_hash ttl) c.shared.clock user.username
        attempt token c.shared.store).isSome = true ↔
          scrypt (encode attempt) salt = scrypt (encode password) salt :=
      isSome_signIn_iff (fun _ _ => rfl) hfind hactive hhash
    rw [← hsignIn]
    unfold login
    cases signIn _ c.shared.clock user.username attempt token c.shared.store with
    | none => simp
    | some r => simp

/-- Two runs with the same name at the same time. Both find no account, and the second one raises. -/
theorem provisioned_accounts_twice :
    ∃ c, (system (fun password salt => password ++ salt) (hashes (fun password salt => password ++ salt)
      id "" 3600)).run (initial 0) [⟨0, .start " admin " "correct horse battery" "correct horse battery"⟩,
        ⟨1, .start "admin" "another password" "another password"⟩, ⟨0, .select⟩, ⟨1, .select⟩,
        ⟨0, .commit 1 [7]⟩, ⟨1, .commit 2 [8]⟩] = some c ∧ c.procs 1 = .raised ∧
      KeyUnique AdminUser.username c.shared.store.users ∧
      ∃ user ∈ c.shared.store.users, user.username = "admin" := by
  have hrun : ((system (fun password salt => password ++ salt) (hashes (fun password salt =>
      password ++ salt) id "" 3600)).run (initial 0)
      [⟨0, .start " admin " "correct horse battery" "correct horse battery"⟩,
        ⟨1, .start "admin" "another password" "another password"⟩, ⟨0, .select⟩, ⟨1, .select⟩,
        ⟨0, .commit 1 [7]⟩, ⟨1, .commit 2 [8]⟩]).map (fun c => (c.procs 0, c.procs 1)) =
      some (.created "admin" "correct horse battery", .raised) := by decide +kernel
  obtain ⟨c, hc, heq⟩ := Option.map_eq_some_iff.1 hrun
  obtain ⟨hcreated, hraised⟩ := Prod.mk.inj heq
  have h := provisioned_accounts (fun password salt => password ++ salt) id "" 3600 0 _ c hc
  obtain ⟨-, -, -, user, huser, hname, -⟩ := h.2.2 0 _ _ hcreated
  exact ⟨c, hc, hraised, h.1, user, huser, hname⟩

end CraneTracker.Provisioning
