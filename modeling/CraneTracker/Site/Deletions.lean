import CraneTracker.Admin.Sessions
import CraneTracker.Pipeline.Publication

/-!
# Deletions and the admins behind them

The photo pipeline and the admin sessions, put together by the route `delete_crane_photo`. Its guard
`require_admin` decides on the credentials of the request, and only then does the deletion begin, so a token
may expire or be signed out while the deletion is under way. The two parts have clocks of their own: a token
expires by the server's, and the rows of the pipeline have the database's.

A run of the site is a run of each of its parts (`run_sessions`, `run_pipeline`), and every deletion of the
second was let in by the first (`admitted_of_started`). `deletion_authorized` concludes that nobody but an
admin takes a published photo away.
-/

namespace CraneTracker.Site

open Interleaving Pipeline Table

/-- The admin sessions, and the photo pipeline. -/
structure State where
  sessions : Admin.State
  pipeline : Pipeline.State

/-- What happens to the site. -/
inductive Action
  /-- Something that concerns the sessions alone. -/
  | session (a : Admin.Action)
  /-- A step of the pipeline other than the start of a deletion. -/
  | pipeline (e : Event Pipeline.Action)
  /-- The guard of `delete_crane_photo`, for a request of the process `p`. -/
  | deleteCranePhoto (p : ℕ) (credentials : Option String) (crane_id photo_id : Uuid)

/-- A deletion begins behind its guard, and nowhere else. -/
def startsDeletion : Pipeline.Action → Bool
  | .startAdminDelete _ _ => true
  | _ => false

variable (H : Hashes) (cfg : Settings)

/-- The step of the pipeline that an action makes. -/
def event (s : State) : Action → Option (Event Pipeline.Action)
  | .session _ => none
  | .pipeline e => some e
  | .deleteCranePhoto p credentials crane_id photo_id =>
    match requireAdmin H s.sessions.clock credentials s.sessions.store with
    | .ok _ => some ⟨p, .startAdminDelete crane_id photo_id⟩
    | .error _ => none

/-- One action; `none` when it cannot happen. -/
def step (s : State) (a : Action) : Option State :=
  match a with
  | .session a => some { s with sessions := Admin.step H s.sessions a }
  | .pipeline e =>
    if startsDeletion e.act then none
    else ((system cfg).next s.pipeline e).map fun c => { s with pipeline := c }
  | .deleteCranePhoto p credentials crane_id photo_id =>
    match requireAdmin H s.sessions.clock credentials s.sessions.store with
    | .ok _ => ((system cfg).next s.pipeline ⟨p, .startAdminDelete crane_id photo_id⟩).map
        fun c => { s with pipeline := c }
    -- The request is answered `401`, and nothing else happens.
    | .error _ => some s

/-- A run of the site. -/
def run (s : State) : List Action → Option State
  | [] => some s
  | a :: es => (step H cfg s a).bind fun s' => run s' es

/-- The steps of the pipeline that a run makes. -/
def events (s : State) : List Action → List (Event Pipeline.Action)
  | [] => []
  | a :: es => (event H s a).toList ++ ((step H cfg s a).map fun s' => events s' es).getD []

/-- What a run does to the sessions. -/
def sessionActions : List Action → List Admin.Action
  | [] => []
  | .session a :: es => a :: sessionActions es
  | _ :: es => sessionActions es

/-- Before the first request. -/
def initial (server_clock clock : Timestamp) (users : List AdminUser) (cranes : List Uuid) : State where
  sessions := Admin.initial server_clock users
  pipeline := Pipeline.initial clock cranes

section Run

variable {H : Hashes} {cfg : Settings} {s s' : State} {es es' : List Action}

/-- A run of at least one action is its first action and a run from there. -/
theorem run_cons {a : Action} : run H cfg s (a :: es) = some s' ↔
    ∃ s₁, step H cfg s a = some s₁ ∧ run H cfg s₁ es = some s' := by
  rw [run, Option.bind_eq_some_iff]

/-- Two runs in sequence. -/
theorem run_append : run H cfg s (es ++ es') = some s' ↔
    ∃ s₁, run H cfg s es = some s₁ ∧ run H cfg s₁ es' = some s' := by
  induction es generalizing s with
  | nil => simp [run]
  | cons a es ih =>
    simp only [List.cons_append, run_cons, ih]
    constructor
    · rintro ⟨s₁, h₁, s₂, h₂, h₃⟩
      exact ⟨s₂, ⟨s₁, h₁, h₂⟩, h₃⟩
    · rintro ⟨s₂, ⟨s₁, h₁, h₂⟩, h₃⟩
      exact ⟨s₁, h₁, s₂, h₂, h₃⟩

/-- A run of at least one action makes the steps of its first action and of the rest. -/
theorem events_cons {a : Action} {s₁ : State} (h : step H cfg s a = some s₁) :
    events H cfg s (a :: es) = (event H s a).toList ++ events H cfg s₁ es := by
  rw [events, h]
  rfl

/-- The steps that two runs in sequence make. -/
theorem events_append {s₁ : State} (h : run H cfg s es = some s₁) :
    events H cfg s (es ++ es') = events H cfg s es ++ events H cfg s₁ es' := by
  induction es generalizing s with
  | nil =>
    obtain rfl : s = s₁ := Option.some.inj h
    rfl
  | cons a es ih =>
    obtain ⟨s₂, h₁, h₂⟩ := run_cons.1 h
    rw [List.cons_append, events_cons h₁, events_cons h₁, ih h₂, List.append_assoc]

/-- What two runs in sequence do to the sessions. -/
theorem sessionActions_append :
    sessionActions (es ++ es') = sessionActions es ++ sessionActions es' := by
  induction es with
  | nil => rfl
  | cons a es ih => cases a <;> simp [sessionActions, ih]

/-- What an action does to the pipeline. -/
theorem step_pipeline {a : Action} (h : step H cfg s a = some s') :
    (system cfg).run s.pipeline (event H s a).toList = some s'.pipeline := by
  cases a with
  | session a =>
    obtain rfl := Option.some.inj h
    rfl
  | pipeline e =>
    simp only [step, Option.ite_none_left_eq_some, Option.map_eq_some_iff] at h
    obtain ⟨-, c, hnext, rfl⟩ := h
    exact System.run_cons.2 ⟨c, hnext, rfl⟩
  | deleteCranePhoto p credentials crane_id photo_id =>
    simp only [step] at h
    simp only [event]
    split at h
    · obtain ⟨c, hnext, rfl⟩ := Option.map_eq_some_iff.1 h
      exact System.run_cons.2 ⟨c, hnext, rfl⟩
    · obtain rfl := Option.some.inj h
      rfl

/-- What an action does to the sessions. -/
theorem step_sessions {a : Action} (h : step H cfg s a = some s') :
    s'.sessions = Admin.run H s.sessions (sessionActions [a]) := by
  cases a with
  | session a =>
    obtain rfl := Option.some.inj h
    rfl
  | pipeline e =>
    simp only [step, Option.ite_none_left_eq_some, Option.map_eq_some_iff] at h
    obtain ⟨-, c, -, rfl⟩ := h
    rfl
  | deleteCranePhoto p credentials crane_id photo_id =>
    simp only [step] at h
    split at h
    · obtain ⟨c, -, rfl⟩ := Option.map_eq_some_iff.1 h
      rfl
    · obtain rfl := Option.some.inj h
      rfl

/-- A run of the site is a run of the pipeline. -/
theorem run_pipeline (h : run H cfg s es = some s') :
    (system cfg).run s.pipeline (events H cfg s es) = some s'.pipeline := by
  induction es generalizing s with
  | nil =>
    obtain rfl : s = s' := Option.some.inj h
    rfl
  | cons a es ih =>
    obtain ⟨s₁, h₁, h₂⟩ := run_cons.1 h
    rw [events_cons h₁]
    exact System.run_append.2 ⟨s₁.pipeline, step_pipeline h₁, ih h₂⟩

/-- A run of the site is a run of the sessions. -/
theorem run_sessions (h : run H cfg s es = some s') :
    s'.sessions = Admin.run H s.sessions (sessionActions es) := by
  induction es generalizing s with
  | nil =>
    obtain rfl : s = s' := Option.some.inj h
    rfl
  | cons a es ih =>
    obtain ⟨s₁, h₁, h₂⟩ := run_cons.1 h
    have hcons : sessionActions ([a] ++ es) = sessionActions [a] ++ sessionActions es :=
      sessionActions_append
    rw [List.singleton_append] at hcons
    rw [ih h₂, step_sessions h₁, hcons, Admin.run, Admin.run, Admin.run, List.foldl_append]

/-- In the run `es` from `s`, the guard has let the process `p` delete the photo. -/
def Admitted (H : Hashes) (cfg : Settings) (s : State) (es : List Action) (p : ℕ)
    (crane_id photo_id : Uuid) (credentials : Option String) (es₁ : List Action) (s₁ : State)
    (user : AdminUser) : Prop :=
  (∃ es₂, es = es₁ ++ .deleteCranePhoto p credentials crane_id photo_id :: es₂) ∧
    run H cfg s es₁ = some s₁ ∧
      requireAdmin H s₁.sessions.clock credentials s₁.sessions.store = .ok user

/-- A deletion that has been started was let in by the guard. -/
theorem admitted_of_started {p : ℕ} {crane_id photo_id : Uuid} (h : run H cfg s es = some s')
    (hmem : ⟨p, .startAdminDelete crane_id photo_id⟩ ∈ events H cfg s es) :
    ∃ credentials es₁ s₁ user,
      Admitted H cfg s es p crane_id photo_id credentials es₁ s₁ user := by
  induction es generalizing s with
  | nil => cases hmem
  | cons a es ih =>
    obtain ⟨s₁, h₁, h₂⟩ := run_cons.1 h
    rw [events_cons h₁, List.mem_append] at hmem
    rcases hmem with hnow | hlater
    · rw [Option.mem_toList] at hnow
      cases a with
      | session a => cases hnow
      | pipeline e =>
        obtain rfl : e = ⟨p, .startAdminDelete crane_id photo_id⟩ := Option.some.inj hnow
        simp [step, startsDeletion] at h₁
      | deleteCranePhoto q credentials crane_id' photo_id' =>
        simp only [event] at hnow
        split at hnow
        · rename_i user huser
          cases hnow
          exact ⟨credentials, [], s, user, ⟨es, rfl⟩, rfl, huser⟩
        · cases hnow
    · obtain ⟨credentials, es₁, s₂, user, ⟨es₂, rfl⟩, hrun, huser⟩ := ih h₂ hlater
      exact ⟨credentials, a :: es₁, s₂, user, ⟨es₂, rfl⟩, run_cons.2 ⟨s₁, h₁, hrun⟩, huser⟩

end Run

/-! ## The sessions -/

section Sessions

variable {H : Hashes} {cfg : Settings}

/-- What two runs of the sessions in sequence leave in the history. -/
theorem history_append (s : Admin.State) (es es' : List Admin.Action) :
    Admin.history H s (es ++ es') = Admin.history H s es ++ Admin.history H (Admin.run H s es) es' := by
  induction es generalizing s with
  | nil => rfl
  | cons a es ih => simp [Admin.history, Admin.run, ih]

/-- Before the first sign-in the tables are those of the empty history. -/
theorem refines_initial (clock : Timestamp) {users : List AdminUser}
    (husers : KeyUnique AdminUser.id users) : Admin.Refines H [] (Admin.initial clock users) where
  users := husers
  tokens := List.nodup_nil
  issued _ ht := absurd ht List.not_mem_nil
  standing token user_id expires_at _ := by
    refine iff_of_false List.not_mem_nil ?_
    rintro ⟨t, -, h₁, h₂, heq, -⟩
    simp at heq

/-- In the run `es` from `s`, the process `p` has asked for the deletion of the photo with a token that
stood: an active user had been signed in with it for less than `admin_token_ttl_seconds`, and it had not
been signed out. -/
def Authorized (H : Hashes) (cfg : Settings) (s : State) (es : List Action) (p : ℕ)
    (crane_id photo_id : Uuid) : Prop :=
  ∃ es₁ es₂ s₁ token user t, es = es₁ ++ .deleteCranePhoto p (some token) crane_id photo_id :: es₂ ∧
    run H cfg s es₁ = some s₁ ∧ user ∈ s₁.sessions.store.users ∧ user.is_active = true ∧
    Admin.Standing (Admin.history H s.sessions (sessionActions es₁)) token user.id t ∧
    s₁.sessions.clock < t + H.admin_token_ttl_seconds * 1000000

variable {server_clock clock : Timestamp} {users : List AdminUser} {cranes : List Uuid}
  {es es₁ : List Action} {s₁ : State} {p : ℕ} {crane_id photo_id : Uuid} {credentials : Option String}
  {user : AdminUser}

/-- Whom the guard lets in has a token that stands. -/
theorem authorized_of_admitted (hhash : Function.Injective H.token_hash)
    (husers : KeyUnique AdminUser.id users)
    (hfresh : ((Admin.history H (Admin.initial server_clock users) (sessionActions es)).filterMap
      Admin.Effect.issued).Nodup)
    (h : Admitted H cfg (initial server_clock clock users cranes) es p crane_id photo_id credentials es₁ s₁
      user) : Authorized H cfg (initial server_clock clock users cranes) es p crane_id photo_id := by
  obtain ⟨⟨es₂, rfl⟩, hrun, hadmin⟩ := h
  -- The tokens of the part of the run before the request are fresh too.
  rw [sessionActions_append, history_append, List.filterMap_append] at hfresh
  have hprefix := (List.nodup_append.1 hfresh).1
  have hr : Admin.Refines H (Admin.history H (Admin.initial server_clock users) (sessionActions es₁))
      s₁.sessions := by
    rw [run_sessions hrun]
    exact (refines_initial server_clock husers).run hhash _ hprefix
  cases credentials with
  | none => cases hadmin
  | some token =>
    have hget : getAdmin H s₁.sessions.clock token s₁.sessions.store = some user := by
      unfold requireAdmin at hadmin
      rw [Option.bind_some] at hadmin
      split at hadmin
      · rename_i found hfound
        rw [hfound, Except.ok.inj hadmin]
      · cases hadmin
    obtain ⟨huser, hactive, ⟨token_hash, user_id, expires_at⟩, hmem, rfl, rfl, hnow⟩ :=
      exists_of_getAdmin hget
    obtain ⟨t, rfl, hstanding⟩ := (hr.standing token user.id expires_at hnow).1 hmem
    exact ⟨es₁, es₂, s₁, token, user, t, rfl, hrun, huser, hactive, hstanding, hnow⟩

end Sessions

/-- Let issued tokens be fresh, and let SHA-256 not collide. In every run of the site, a deletion that has
answered `204` was asked for with a token that stood, and has taken a published photo away for good. A photo
that was published at some point of the run, and is not at its end, was taken away by such a deletion, for
this photo of this crane. No two deletions have taken the same photo away. -/
theorem deletion_authorized (H : Hashes) (cfg : Settings) (hhash : Function.Injective H.token_hash)
    {server_clock clock : Timestamp} {users : List AdminUser} (husers : KeyUnique AdminUser.id users)
    {cranes : List Uuid} {es : List Action} {s : State}
    (hrun : run H cfg (initial server_clock clock users cranes) es = some s)
    (hfresh : ((Admin.history H (Admin.initial server_clock users) (sessionActions es)).filterMap
      Admin.Effect.issued).Nodup) :
    (∀ p, s.pipeline.procs p = .adminDelete (.answered (.ok 204)) → ∃ crane_id i,
      Authorized H cfg (initial server_clock clock users cranes) es p crane_id i ∧
      Deleted cfg (Pipeline.initial clock cranes)
        (events H cfg (initial server_clock clock users cranes) es) p crane_id i ∧
      (s.pipeline.shared.store.stage i).Gone) ∧
    (∀ es₁ es₂ s₁, es = es₁ ++ es₂ → run H cfg (initial server_clock clock users cranes) es₁ = some s₁ →
      ∀ photo ∈ s₁.pipeline.shared.store.photos, photo.status = .active →
        (∀ photo' ∈ s.pipeline.shared.store.photos, photo'.id = photo.id → photo'.status ≠ .active) →
        ∃ p, s.pipeline.procs p = .adminDelete (.answered (.ok 204)) ∧
          Authorized H cfg (initial server_clock clock users cranes) es p photo.crane_id photo.id) ∧
    ∀ p q i crane_id crane_id', Deleted cfg (Pipeline.initial clock cranes)
        (events H cfg (initial server_clock clock users cranes) es) p crane_id i →
      Deleted cfg (Pipeline.initial clock cranes)
        (events H cfg (initial server_clock clock users cranes) es) q crane_id' i → p = q := by
  have hinit := holds_initial cfg clock cranes
  have hpipe := run_pipeline hrun
  have hauth : ∀ {p crane_id i}, Deleted cfg (Pipeline.initial clock cranes)
      (events H cfg (initial server_clock clock users cranes) es) p crane_id i →
      Authorized H cfg (initial server_clock clock users cranes) es p crane_id i := by
    intro p crane_id i hdel
    obtain ⟨credentials, es₁, s₁, user, hadmitted⟩ :=
      admitted_of_started hrun (hdel.started fun _ => rfl)
    exact authorized_of_admitted hhash husers hfresh hadmitted
  refine ⟨fun p hp => ?_, ?_, deleted_unique hinit hpipe⟩
  · obtain ⟨crane_id, i, hdel⟩ := deleted_of_noContent hinit (fun _ => rfl) hpipe p hp
    exact ⟨crane_id, i, hauth hdel, hdel, (hdel.gone hinit hpipe).1⟩
  · rintro es₁ es₂ s₁ rfl hrun₁ photo hphoto hactive hgone
    obtain ⟨s₂, hrun₂, hrest⟩ := run_append.1 hrun
    obtain rfl : s₁ = s₂ := Option.some.inj (hrun₁.symm.trans hrun₂)
    have hpipe₁ := run_pipeline hrun₁
    have hc₁ := hinit.run hpipe₁
    have hleft : s.pipeline.shared.store.stage photo.id ≠ .active := by
      intro hstage
      have hstage' : s.pipeline.shared.store.stage photo.id = CranePhotoStatus.stage .active := hstage
      obtain ⟨photo', hrow', hactive'⟩ := Store.row_of_stage hstage'
      exact hgone photo' (mem_of_row hrow') (key_of_row hrow') hactive'
    obtain ⟨p, hdel⟩ :=
      deleted_of_active hc₁ (run_pipeline hrest) (hc₁.1.photo_of_mem hphoto) hactive hleft
    have hanswered := (hdel.gone hc₁ (run_pipeline hrest)).2
    refine ⟨p, hanswered, hauth ?_⟩
    rw [events_append hrun₁]
    exact hdel.of_append hpipe₁

/-- A photo of the crane 1 is published, and the reviewer signs in. -/
def publishedPhoto : List Action :=
  (preuploadEvents 0 1 2 ++ publishEvents 0).map .pipeline ++
    [.session (.login "reviewer" "pw" "a")]

/-- A deletion is refused, another is let in, and the reviewer signs out before it commits. -/
def signedOutDeletion : List Action :=
  [.deleteCranePhoto 1 (some "b") 1 2, .deleteCranePhoto 2 (some "a") 1 2,
    .session (.logout (some "a")), .pipeline ⟨2, .adminDelete .lock⟩,
    .pipeline ⟨2, .adminDelete (.commit 4)⟩]

/-- The deletion that took the photo away was asked for with a token that stood then. -/
theorem deletion_authorized_signedOut :
    ∃ s, run Admin.plainHashes {} (initial 0 0 [Admin.reviewer] [1])
        (publishedPhoto ++ signedOutDeletion) = some s ∧
      ∃ p, s.pipeline.procs p = .adminDelete (.answered (.ok 204)) ∧
        Authorized Admin.plainHashes {} (initial 0 0 [Admin.reviewer] [1])
          (publishedPhoto ++ signedOutDeletion) p 1 2 := by
  have hruns : (run Admin.plainHashes {} (initial 0 0 [Admin.reviewer] [1]) publishedPhoto).bind
      (fun s₁ => (run Admin.plainHashes {} s₁ signedOutDeletion).map fun s =>
        (s₁.pipeline.shared.store.photos, s.pipeline.shared.store.photos))
      = some ([jpegPhoto 0 1 2 .active], [jpegPhoto 0 1 2 .pendingDelete]) := by decide +kernel
  obtain ⟨s₁, hrun₁, hrest⟩ := Option.bind_eq_some_iff.1 hruns
  obtain ⟨s, hrun₂, hphotos⟩ := Option.map_eq_some_iff.1 hrest
  obtain ⟨hold, hnew⟩ := Prod.mk.inj hphotos
  have hrun := run_append.2 ⟨s₁, hrun₁, hrun₂⟩
  have husers : KeyUnique AdminUser.id [Admin.reviewer] := List.nodup_singleton _
  have hleft := (deletion_authorized Admin.plainHashes {} Function.injective_id husers hrun
    (by decide +kernel)).2.1 publishedPhoto signedOutDeletion s₁ rfl hrun₁
    (jpegPhoto 0 1 2 .active) (by simp [hold]) rfl
  refine ⟨s, hrun, hleft ?_⟩
  intro photo hphoto _
  rw [hnew, List.mem_singleton] at hphoto
  rw [hphoto]
  decide

end CraneTracker.Site
