import CraneTracker.Lib.Ddl
import CraneTracker.Lib.Walk

/-!
# The migrations

The revisions of `alembic/versions`, with the statements of their `upgrade` and `downgrade`, and walks
along their chain. Server defaults, the time zone of a timestamp, the `ondelete` of a foreign key, and
the method of an index are left out: no statement fails for them. So are Alembic's own table, and what
PostGIS brings besides its type.

A downgrade that drops a table leaves the enum types of its columns, and then the revision cannot be
upgraded to again. `migration_walk` says that nothing else goes wrong: a walk from the empty database
comes to the objects of the revision that it reaches if and only if it never downgrades from a revision
that creates an enum type.
-/

namespace CraneTracker.Migrations

open Ddl Walk

/-! ## The revisions -/

/-- A revision. -/
inductive Version
  /-- `a9220af8ab24`. -/
  | addExtensions
  /-- `69af4f84e5fc`. -/
  | initialCraneTable
  /-- `ef1668582c31`. -/
  | addingGonereportTable
  /-- `42da8c9cd521`. -/
  | addCranePhotoTable
  /-- `89fe23b2ed7d`. -/
  | createOutboxjobTable
  /-- `c781932ae015`. -/
  | addAdminAccounts
  /-- `d891a34b70f2`. -/
  | addPhotoReports
deriving DecidableEq, Repr

/-- The table `crane`. -/
def craneTable : Table where
  name := "crane"
  columns := [
    { name := "id", type := .uuid },
    { name := "lat", type := .float },
    { name := "lng", type := .float },
    { name := "location", type := .external "postgis" },
    { name := "project_name", type := .string (some 255), nullable := true },
    { name := "status", type := .text },
    { name := "city", type := .text, nullable := true },
    { name := "neighborhood", type := .text, nullable := true },
    { name := "added_at", type := .dateTime },
    { name := "updated_at", type := .dateTime }]
  constraints := [
    .range "ck_crane_lat_range" "lat" (-90) 90,
    .range "ck_crane_lng_range" "lng" (-180) 180,
    .primaryKey ["id"]]

/-- The table `gone_report`. -/
def goneReportTable : Table where
  name := "gone_report"
  columns := [
    { name := "id", type := .uuid },
    { name := "crane_id", type := .uuid },
    { name := "reporter_ip_hash", type := .string none },
    { name := "added_at", type := .dateTime }]
  constraints := [
    .foreignKey "crane_id" "crane" "id",
    .primaryKey ["id"],
    .unique ["crane_id", "reporter_ip_hash"] (some "crane_reporter")]

/-- The table `crane_photo`. -/
def cranePhotoTable : Table where
  name := "crane_photo"
  columns := [
    { name := "id", type := .uuid },
    { name := "crane_id", type := .uuid },
    { name := "storage_key", type := .string (some 1024) },
    { name := "original_filename", type := .string (some 255) },
    { name := "content_type", type := .string (some 100) },
    { name := "added_at", type := .dateTime },
    { name := "status"
      type := .enum "crane_photo_status" ["active", "pending_upload", "pending_delete"] }]
  constraints := [
    .foreignKey "crane_id" "crane" "id",
    .primaryKey ["id"],
    .unique ["storage_key"]]

/-- The table `outbox_job`. -/
def outboxJobTable : Table where
  name := "outbox_job"
  columns := [
    { name := "id", type := .uuid },
    { name := "operation", type := .enum "job_operation" ["delete"] },
    { name := "storage_key", type := .string (some 1024) },
    { name := "status"
      type := .enum "job_status" ["pending", "processing", "completed", "failed"] },
    { name := "attempts", type := .integer },
    { name := "available_at", type := .dateTime },
    { name := "lease_expires_at", type := .dateTime, nullable := true },
    { name := "last_error", type := .string (some 1024), nullable := true },
    { name := "created_at", type := .dateTime },
    { name := "completed_at", type := .dateTime, nullable := true }]
  constraints := [.primaryKey ["id"]]

/-- The table `admin_user`. -/
def adminUserTable : Table where
  name := "admin_user"
  columns := [
    { name := "id", type := .uuid },
    { name := "username", type := .string (some 255) },
    { name := "password_hash", type := .string (some 255) },
    { name := "is_active", type := .boolean }]
  constraints := [
    .primaryKey ["id"],
    .unique ["username"]]

/-- The table `admin_token`. -/
def adminTokenTable : Table where
  name := "admin_token"
  columns := [
    { name := "token_hash", type := .string (some 64) },
    { name := "user_id", type := .uuid },
    { name := "expires_at", type := .dateTime }]
  constraints := [
    .primaryKey ["token_hash"],
    .foreignKey "user_id" "admin_user" "id"]

/-- The table `photo_report`. -/
def photoReportTable : Table where
  name := "photo_report"
  columns := [
    { name := "id", type := .uuid },
    { name := "photo_id", type := .uuid },
    { name := "reporter_ip_hash", type := .string (some 64) },
    { name := "added_at", type := .dateTime }]
  constraints := [
    .primaryKey ["id"],
    .foreignKey "photo_id" "crane_photo" "id",
    .unique ["photo_id", "reporter_ip_hash"] (some "photo_reporter")]

namespace Version

/-- `down_revision`. -/
def down_revision : Version → Option Version
  | .addExtensions => none
  | .initialCraneTable => some .addExtensions
  | .addingGonereportTable => some .initialCraneTable
  | .addCranePhotoTable => some .addingGonereportTable
  | .createOutboxjobTable => some .addCranePhotoTable
  | .addAdminAccounts => some .createOutboxjobTable
  | .addPhotoReports => some .addAdminAccounts

/-- `upgrade`. -/
def upgrade : Version → List Statement
  | .addExtensions => [.createExtensionIfNotExists "postgis"]
  | .initialCraneTable => [
    .createTable craneTable,
    .createIndex "idx_cranes_location" "crane" ["location"]]
  | .addingGonereportTable => [.createTable goneReportTable]
  | .addCranePhotoTable => [
    .createTable cranePhotoTable,
    .createIndex "ix_crane_photo_crane_id" "crane_photo" ["crane_id"]]
  | .createOutboxjobTable => [.createTable outboxJobTable]
  | .addAdminAccounts => [
    .createTable adminUserTable,
    .createTable adminTokenTable,
    .createIndex "ix_admin_token_user_id" "admin_token" ["user_id"],
    .createIndex "ix_admin_token_expires_at" "admin_token" ["expires_at"]]
  | .addPhotoReports => [
    .createTable photoReportTable,
    .createIndex "ix_photo_report_photo_id" "photo_report" ["photo_id"]]

/-- `downgrade`. -/
def downgrade : Version → List Statement
  | .addExtensions => [.dropExtensionIfExists "postgis"]
  | .initialCraneTable => [.dropIndex "idx_cranes_location", .dropTable "crane"]
  | .addingGonereportTable => [.dropTable "gone_report"]
  | .addCranePhotoTable => [.dropIndex "ix_crane_photo_crane_id", .dropTable "crane_photo"]
  | .createOutboxjobTable => [.dropTable "outbox_job"]
  | .addAdminAccounts => [.dropTable "admin_token", .dropTable "admin_user"]
  | .addPhotoReports => [.dropTable "photo_report"]

/-- The files of `alembic/versions`. -/
def all : List Version :=
  [.addCranePhotoTable, .initialCraneTable, .createOutboxjobTable, .addExtensions, .addAdminAccounts,
    .addPhotoReports, .addingGonereportTable]

/-- The enum types that the upgrade creates. -/
def enumTypes (v : Version) : List String := v.upgrade.flatMap Statement.enumTypes

/-- The revision follows in the chain. -/
def next (r : Option Version) : Option Version := all.find? fun v => v.down_revision = r

end Version

/-- The chain of the revisions. Its positions are the revision of the database, `none` before the first
one; a move is `alembic upgrade +1` or `alembic downgrade -1`. -/
def chain : Chain (Option Version) Catalog where
  next
    | .up, r => (Version.next r).map some
    | .down, r => r.map Version.down_revision
  change
    | .up, r, c => (Version.next r).bind fun v => c.executeAll v.upgrade
    | .down, r, c => r.bind fun v => c.executeAll v.downgrade

/-- How many revisions lie below. -/
def depth : Option Version → ℕ
  | none => 0
  | some .addExtensions => 1
  | some .initialCraneTable => 2
  | some .addingGonereportTable => 3
  | some .addCranePhotoTable => 4
  | some .createOutboxjobTable => 5
  | some .addAdminAccounts => 6
  | some .addPhotoReports => 7

/-- The catalog of a revision: what its upgrades leave of an empty database. -/
def schema (r : Option Version) : Catalog :=
  (chain.run none {} (List.replicate (depth r) .up)).getD {}

/-- The last revision. -/
def head : Option Version := some .addPhotoReports

/-- A move that takes back all that it should: not a downgrade from a revision that creates an enum
type. -/
def Clean : Direction → Option Version → Prop
  | .down, some v => v.enumTypes = []
  | _, _ => True

instance : ∀ (d : Direction) (r : Option Version), Decidable (Clean d r)
  | .down, some v => inferInstanceAs (Decidable (v.enumTypes = []))
  | .down, none => .isTrue trivial
  | .up, _ => .isTrue trivial

/-- The downgrades that are not clean. -/
theorem clean_down_iff {v : Version} :
    Clean .down (some v) ↔ v ≠ .addCranePhotoTable ∧ v ≠ .createOutboxjobTable := by
  cases v <;> simp [Clean] <;> decide

/-! ## What one move does -/

variable {d : Direction} {r r' : Option Version} {v : Version} {c c' : Catalog}

/-- The next revision stands on the one before. -/
theorem down_revision_of_next (h : Version.next r = some v) : v.down_revision = r := by
  simpa using List.find?_some h

/-- An upgrade leads one revision up. -/
theorem depth_of_next (h : Version.next r = some v) : depth (some v) = depth r + 1 := by
  rw [← down_revision_of_next h]
  cases v <;> rfl

/-- A downgrade leads one revision down. -/
theorem depth_down_revision (v : Version) : depth v.down_revision + 1 = depth (some v) := by
  cases v <;> rfl

/-- At one depth there is one revision. -/
theorem depth_injective : Function.Injective depth := by
  intro r r' h
  rcases r with _ | v <;> rcases r' with _ | v'
  · rfl
  · cases v' <;> cases h
  · cases v <;> cases h
  · cases v <;> cases v' <;> first | rfl | cases h

/-- The upgrade to a revision comes to its catalog. -/
theorem upgrade_schema (v : Version) :
    (schema v.down_revision).executeAll v.upgrade = some (schema (some v)) := by
  cases v <;> rfl

/-- A clean downgrade comes to the catalog of the revision before. -/
theorem downgrade_schema (h : Clean .down (some v)) :
    (schema (some v)).executeAll v.downgrade = some (schema v.down_revision) := by
  cases v with
  | addCranePhotoTable => cases h
  | createOutboxjobTable => cases h
  | addExtensions => rfl
  | initialCraneTable => rfl
  | addingGonereportTable => rfl
  | addAdminAccounts => rfl
  | addPhotoReports => rfl

/-- A downgrade leaves the enum types. -/
theorem types_of_downgrade (h : c.executeAll v.downgrade = some c') : c.types ⊆ c'.types :=
  (Catalog.addsTypes_of_executeAll h).subset

/-- The catalog of a revision has the enum types of the earlier ones. -/
theorem types_schema_subset (h : depth r ≤ depth r') : (schema r).types ⊆ (schema r').types := by
  induction hn : depth r' generalizing r' with
  | zero =>
    rw [depth_injective (by omega : depth r = depth r')]
    exact List.Subset.refl _
  | succ n ih =>
    rcases h.eq_or_lt with heq | hlt
    · rw [depth_injective heq]
      exact List.Subset.refl _
    · obtain _ | v := r'
      · simp [depth] at hn
      · have hdepth := depth_down_revision v
        have hbelow : (schema r).types ⊆ (schema v.down_revision).types := ih (by omega) (by omega)
        exact List.Subset.trans hbelow (Catalog.addsTypes_of_executeAll (upgrade_schema v)).subset

/-- It has no enum type of a later one. -/
theorem notMem_types_schema (h : depth r < depth (some v)) {name : String}
    (hname : name ∈ v.enumTypes) : name ∉ (schema r).types := by
  have hdepth := depth_down_revision v
  intro hmem
  exact (Catalog.addsTypes_of_executeAll (upgrade_schema v)).notMem name hname
    (types_schema_subset (by omega) hmem)

/-! ## Walks -/

/-- The catalog has an enum type of a revision that is not applied. -/
def Spoiled (r : Option Version) (c : Catalog) : Prop :=
  ∃ v : Version, depth r < depth (some v) ∧ ∃ name ∈ v.enumTypes, name ∈ c.types

/-- Clean moves lead from the catalog of a revision to that of the next. -/
theorem change_schema (hnext : chain.next d r = some r') (h : Clean d r) :
    chain.change d r (schema r) = some (schema r') := by
  cases d with
  | up =>
    obtain ⟨v, hv, rfl⟩ := Option.map_eq_some_iff.1 hnext
    obtain rfl := down_revision_of_next hv
    change (Version.next v.down_revision).bind _ = _
    rw [hv, Option.bind_some, upgrade_schema]
  | down =>
    obtain ⟨v, rfl, rfl⟩ := Option.map_eq_some_iff.1 hnext
    exact downgrade_schema h

/-- A downgrade that is not clean leaves an enum type of the revision from which it goes. -/
theorem spoiled_of_not_clean (hnext : chain.next d r = some r') (h : ¬ Clean d r)
    (hchange : chain.change d r (schema r) = some c') : Spoiled r' c' := by
  cases d with
  | up => exact absurd trivial h
  | down =>
    obtain ⟨v, rfl, rfl⟩ := Option.map_eq_some_iff.1 hnext
    obtain ⟨name, hname⟩ := List.exists_mem_of_ne_nil _ h
    have hdepth := depth_down_revision v
    exact ⟨v, by omega, name, hname, types_of_downgrade hchange
      ((Catalog.addsTypes_of_executeAll (upgrade_schema v)).subset_new hname)⟩

/-- Such a type stays, and the upgrade that would create it fails. -/
theorem spoiled_keeps (h : Spoiled r c) (hnext : chain.next d r = some r')
    (hchange : chain.change d r c = some c') : Spoiled r' c' := by
  obtain ⟨v, hdepth, name, hname, hmem⟩ := h
  cases d with
  | up =>
    obtain ⟨w, hw, rfl⟩ := Option.map_eq_some_iff.1 hnext
    change (Version.next r).bind _ = _ at hchange
    rw [hw, Option.bind_some] at hchange
    have hadds := Catalog.addsTypes_of_executeAll hchange
    have hdepth_w := depth_of_next hw
    have hne : some w ≠ some v := by
      rintro ⟨⟩
      exact hadds.notMem name hname hmem
    have hdepth_ne := depth_injective.ne hne
    exact ⟨v, by omega, name, hname, hadds.subset hmem⟩
  | down =>
    obtain ⟨w, rfl, rfl⟩ := Option.map_eq_some_iff.1 hnext
    have hdepth_w := depth_down_revision w
    exact ⟨v, by omega, name, hname, types_of_downgrade hchange hmem⟩

/-- A spoiled catalog has other objects than that of the revision. -/
theorem objects_ne_of_spoiled (h : Spoiled r c) : c.objects ≠ (schema r).objects := by
  obtain ⟨v, hdepth, name, hname, hmem⟩ := h
  intro heq
  have hobject := Catalog.type_mem_objects.2 hmem
  rw [heq] at hobject
  exact notMem_types_schema hdepth hname (Catalog.type_mem_objects.1 hobject)

/-- A walk from the empty database succeeds, and comes to the objects of the revision that it reaches, if
and only if its moves are clean. -/
theorem migration_walk {ds : List Direction} (h : chain.reached none ds = some r) :
    (∃ c, chain.run none {} ds = some c ∧ c.objects = (schema r).objects) ↔
      ∀ m ∈ chain.moves none ds, Clean m.1 m.2 := by
  constructor
  · rintro ⟨c, hrun, hobjects⟩
    by_contra hclean
    exact objects_ne_of_spoiled
      (Chain.spoiled_of_not_allowed (C := chain) change_schema spoiled_of_not_clean spoiled_keeps h
        hclean hrun) hobjects
  · intro hclean
    exact ⟨schema r, Chain.run_of_allowed (C := chain) change_schema h hclean, rfl⟩

/-- Down to the empty database and up to the first table. -/
theorem migration_walk_crane :
    ∃ c, chain.run none {} [.up, .up, .down, .down, .up, .up] = some c ∧
      c.objects = (schema (some .initialCraneTable)).objects :=
  (migration_walk (r := some .initialCraneTable) rfl).2 (by decide)

/-- A downgrade from `42da8c9cd521` and the upgrade back: `crane_photo_status` is there already. -/
theorem migration_walk_fails :
    chain.reached none [.up, .up, .up, .up, .down, .up] = some (some .addCranePhotoTable) ∧
      chain.run none {} [.up, .up, .up, .up, .down, .up] = none ∧
        ¬ ∃ objects : Option Version → Finset Object, ∀ ds r, chain.reached none ds = some r →
          ∃ c, chain.run none {} ds = some c ∧ c.objects = objects r := by
  have hreached :
      chain.reached none [.up, .up, .up, .up, .down, .up] = some (some .addCranePhotoTable) := rfl
  have hrun : chain.run none {} [.up, .up, .up, .up, .down, .up] = none := rfl
  refine ⟨hreached, hrun, ?_⟩
  rintro ⟨objects, h⟩
  obtain ⟨c, hc, -⟩ := h _ _ hreached
  rw [hrun] at hc
  cases hc

end CraneTracker.Migrations
