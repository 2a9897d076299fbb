import Mathlib.Data.Int.Cast.Defs
import Mathlib.Data.Finset.Dedup
import Mathlib.Data.List.Basic
import Mathlib.Tactic.MkIffOfInductiveProp

/-!
# Tables, and the statements that create and drop them

What a table definition says of a row (`Table.Admits`), and what the statements of a migration do to a
catalog: the extensions, enum types, tables, and indexes of a database. A statement fails when an object
that it creates is there already, when an object that it needs is not there, or when another table needs
the object that it drops.

Creating a table creates more than the table: the types of its enum columns, and the indexes behind its
primary key and its unique constraints. Dropping it drops its indexes. It leaves the types
(`addsTypes_of_execute`).
-/

namespace Ddl

/-! ## Definitions -/

/-- The type of a column. -/
inductive ColumnType
  | uuid
  | float
  | integer
  | boolean
  | dateTime
  | text
  /-- `VARCHAR(length)`, or `VARCHAR` if there is no length. -/
  | string (length : Option ℕ)
  /-- An enum type, with its values. -/
  | enum (name : String) (values : List String)
  /-- A type that an extension brings. -/
  | external (extension : String)
deriving DecidableEq, Repr

/-- A column. -/
structure Column where
  name : String
  type : ColumnType
  nullable : Bool := false
deriving DecidableEq, Repr

/-- A constraint of a table. A unique constraint may be left without a name. -/
inductive Constraint
  | primaryKey (columns : List String)
  | unique (columns : List String) (name : Option String := none)
  | foreignKey (column : String) (table : String) (target : String)
  /-- `column >= low AND column <= high`. -/
  | range (name : String) (column : String) (low high : ℤ)
deriving DecidableEq, Repr

/-- A table. -/
structure Table where
  name : String
  columns : List Column
  constraints : List Constraint := []
deriving DecidableEq, Repr

/-- An index. -/
structure Index where
  name : String
  table : String
  columns : List String
  /-- It stands behind a constraint. -/
  implicit : Bool := false
deriving DecidableEq, Repr

/-- The columns that a constraint speaks of. -/
def Constraint.columns : Constraint → List String
  | .primaryKey columns => columns
  | .unique columns _ => columns
  | .foreignKey column _ _ => [column]
  | .range _ column _ _ => [column]

/-- The index that stands behind a constraint, under the name that the database chooses if the
constraint has none. -/
def Constraint.index? (table : String) : Constraint → Option Index
  | .primaryKey columns => some ⟨table ++ "_pkey", table, columns, true⟩
  | .unique columns name =>
    some ⟨name.getD (table ++ "_" ++ "_".intercalate columns ++ "_key"), table, columns, true⟩
  | .foreignKey _ _ _ => none
  | .range _ _ _ _ => none

namespace Table

variable (t : Table)

/-- The names of the columns. -/
def columnNames : List String := t.columns.map Column.name

/-- The enum types of the columns. -/
def enumTypes : List String := t.columns.filterMap fun column =>
  match column.type with
  | .enum name _ => some name
  | _ => none

/-- The extensions that the columns need. -/
def extensions : List String := t.columns.filterMap fun column =>
  match column.type with
  | .external extension => some extension
  | _ => none

/-- The indexes behind the constraints. -/
def implicitIndexes : List Index := t.constraints.filterMap (·.index? t.name)

/-- The table and the column that each foreign key needs. -/
def references : List (String × String) := t.constraints.filterMap fun
  | .foreignKey _ table target => some (table, target)
  | _ => none

/-- Every constraint speaks of columns that the table has. -/
def constraintsDefined : Bool := t.constraints.all fun c => c.columns.all (· ∈ t.columnNames)

end Table

/-! ## Rows -/

/-- A value of a row. -/
inductive Value (K : Type*)
  | null
  | text (s : String)
  | number (x : K)
  /-- A value of a type that has no limits. -/
  | other

variable {K : Type*}

/-- The column takes the value. -/
def Column.Admits (column : Column) (value : Value K) : Prop :=
  match value, column.type with
  | .null, _ => column.nullable
  | .text s, .string (some length) => s.length ≤ length
  | .text s, .enum _ values => s ∈ values
  | _, _ => True

@[simp]
theorem Column.admits_text_string {name s : String} {length : ℕ} {nullable : Bool} :
    Column.Admits (K := K) ⟨name, .string (some length), nullable⟩ (.text s) ↔ s.length ≤ length :=
  Iff.rfl

@[simp]
theorem Column.admits_text_text {name s : String} {nullable : Bool} :
    Column.Admits (K := K) ⟨name, .text, nullable⟩ (.text s) ↔ True :=
  Iff.rfl

@[simp]
theorem Column.admits_text_enum {name type s : String} {values : List String} {nullable : Bool} :
    Column.Admits (K := K) ⟨name, .enum type values, nullable⟩ (.text s) ↔ s ∈ values :=
  Iff.rfl

@[simp]
theorem Column.admits_null {column : Column} :
    Column.Admits (K := K) column .null ↔ column.nullable = true :=
  Iff.rfl

@[simp]
theorem Column.admits_number {column : Column} {x : K} : column.Admits (.number x) ↔ True :=
  Iff.rfl

@[simp]
theorem Column.admits_other {column : Column} : Column.Admits (K := K) column .other ↔ True :=
  Iff.rfl

variable [IntCast K] [LE K]

/-- The constraint takes the row. -/
def Constraint.Admits (row : String → Value K) : Constraint → Prop
  | .range _ column low high =>
    match row column with
    | .number x => low ≤ x ∧ x ≤ high
    | _ => True
  | _ => True

/-- The table takes the row, as far as the data of the row decide it: its values fit their columns, and
lie in the ranges of the constraints. Keys are between rows, and are left out. -/
@[mk_iff]
structure Table.Admits (t : Table) (row : String → Value K) : Prop where
  columns : ∀ column ∈ t.columns, column.Admits (row column.name)
  constraints : ∀ constraint ∈ t.constraints, constraint.Admits row

/-! ## Catalogs -/

/-- What a database holds, besides rows. -/
structure Catalog where
  extensions : List String := []
  types : List String := []
  tables : List Table := []
  indexes : List Index := []
deriving DecidableEq, Repr

/-- An object of a catalog. -/
inductive Object
  | extension (name : String)
  | type (name : String)
  | table (t : Table)
  | index (i : Index)
deriving DecidableEq, Repr

/-- A statement of a migration. -/
inductive Statement
  | createExtensionIfNotExists (name : String)
  | dropExtensionIfExists (name : String)
  | createTable (t : Table)
  | dropTable (name : String)
  | createIndex (name table : String) (columns : List String)
  | dropIndex (name : String)
deriving DecidableEq, Repr

/-- The enum types that a statement creates. -/
def Statement.enumTypes : Statement → List String
  | .createTable t => t.enumTypes
  | _ => []

namespace Catalog

/-- The set of objects. -/
def objects (c : Catalog) : Finset Object :=
  (c.extensions.map Object.extension ++ c.types.map Object.type ++ c.tables.map Object.table ++
    c.indexes.map Object.index).toFinset

/-- The names of the tables and indexes, which share one name space. -/
def relations (c : Catalog) : List String := c.tables.map Table.name ++ c.indexes.map Index.name

/-- The catalog has the table, with a key that is the column. -/
def hasKey (c : Catalog) (table column : String) : Bool :=
  c.indexes.any fun i => i.implicit && i.table = table && i.columns = [column]

/-- `CREATE TYPE`. -/
def createType (c : Catalog) (name : String) : Option Catalog :=
  if name ∈ c.types then none else some { c with types := c.types ++ [name] }

/-- `CREATE INDEX`, and the index behind a constraint. -/
def createIndex (c : Catalog) (i : Index) : Option Catalog :=
  if i.name ∈ c.relations then none else
    if c.tables.any (fun t => t.name = i.table && i.columns.all (· ∈ t.columnNames)) then
      some { c with indexes := c.indexes ++ [i] }
    else none

/-- `CREATE TABLE`, with its types before it and its indexes after it. -/
def createTable (c : Catalog) (t : Table) : Option Catalog := do
  let c ← t.enumTypes.foldlM createType c
  if t.name ∈ c.relations then none else
    if t.extensions.all (· ∈ c.extensions) && t.references.all (fun r => c.hasKey r.1 r.2) &&
        t.constraintsDefined then
      t.implicitIndexes.foldlM createIndex { c with tables := c.tables ++ [t] }
    else none

/-- `DROP TABLE`. -/
def dropTable (c : Catalog) (name : String) : Option Catalog :=
  if c.tables.all (·.name ≠ name) then none else
    if c.tables.any (fun t => t.name ≠ name && t.references.any (·.1 = name)) then none else
      some { c with
        tables := c.tables.filter (·.name ≠ name)
        indexes := c.indexes.filter (·.table ≠ name) }

/-- `DROP INDEX`. -/
def dropIndex (c : Catalog) (name : String) : Option Catalog :=
  if c.indexes.any (fun i => i.name = name && !i.implicit) then
    some { c with indexes := c.indexes.filter (·.name ≠ name) }
  else none

/-- What a statement leaves; `none` if it fails. -/
def execute (c : Catalog) : Statement → Option Catalog
  | .createExtensionIfNotExists name =>
    if name ∈ c.extensions then some c else some { c with extensions := c.extensions ++ [name] }
  | .dropExtensionIfExists name =>
    if c.tables.any (fun t => name ∈ t.extensions) then none else
      some { c with extensions := c.extensions.filter (· ≠ name) }
  | .createTable t => c.createTable t
  | .dropTable name => c.dropTable name
  | .createIndex name table columns => c.createIndex { name, table, columns }
  | .dropIndex name => c.dropIndex name

/-- What the statements of a migration leave, one after the other. -/
def executeAll (c : Catalog) (statements : List Statement) : Option Catalog :=
  statements.foldlM execute c

/-- The database takes the row into the table. -/
def Takes (c : Catalog) (table : String) (row : String → Value K) : Prop :=
  ∃ t ∈ c.tables, t.name = table ∧ t.Admits row

/-- Where names are unique, it is for the table of that name to take the row. -/
theorem takes_iff {c : Catalog} (h : (c.tables.map Table.name).Nodup) {t : Table} (ht : t ∈ c.tables)
    {row : String → Value K} : c.Takes t.name row ↔ t.Admits row := by
  constructor
  · rintro ⟨t', ht', hname, hrow⟩
    rwa [List.inj_on_of_nodup_map h ht' ht hname] at hrow
  · exact fun hrow => ⟨t, ht, rfl, hrow⟩

/-! ## Enum types -/

variable {c c' c'' : Catalog} {names names' : List String}

/-- A change that adds enum types, which were not there, and keeps all that were. -/
structure AddsTypes (c c' : Catalog) (names : List String) : Prop where
  types_eq : c'.types = c.types ++ names
  notMem : ∀ name ∈ names, name ∉ c.types

namespace AddsTypes

/-- A change that leaves the types alone. -/
theorem of_types_eq (h : c'.types = c.types) : AddsTypes c c' [] :=
  ⟨h.trans (List.append_nil _).symm, by simp⟩

/-- Two changes, one after the other. -/
theorem trans (h : AddsTypes c c' names) (h' : AddsTypes c' c'' names') :
    AddsTypes c c'' (names ++ names') where
  types_eq := by rw [h'.types_eq, h.types_eq, List.append_assoc]
  notMem := by
    intro name hname
    rcases List.mem_append.1 hname with hname | hname
    · exact h.notMem name hname
    · have hc' := h'.notMem name hname
      rw [h.types_eq] at hc'
      exact fun hc => hc' (List.mem_append_left _ hc)

/-- What was there stays. -/
theorem subset (h : AddsTypes c c' names) : c.types ⊆ c'.types := by
  rw [h.types_eq]
  exact List.subset_append_left ..

/-- What is added is there. -/
theorem subset_new (h : AddsTypes c c' names) : names ⊆ c'.types := by
  rw [h.types_eq]
  exact List.subset_append_right ..

/-- A row of changes, from what each of them adds. -/
theorem foldlM {α : Type*} {f : Catalog → α → Option Catalog} {g : α → List String}
    (hf : ∀ {c a c'}, f c a = some c' → AddsTypes c c' (g a)) {as : List α}
    (h : as.foldlM f c = some c') : AddsTypes c c' (as.flatMap g) := by
  induction as generalizing c with
  | nil =>
    obtain rfl := Option.some.inj h
    exact of_types_eq rfl
  | cons a as ih =>
    rw [List.foldlM_cons] at h
    obtain ⟨c₁, ha, has⟩ := Option.bind_eq_some_iff.1 h
    rw [List.flatMap_cons]
    exact (hf ha).trans (ih has)

end AddsTypes

/-- `CREATE TYPE` adds its type. -/
theorem addsTypes_of_createType {name : String} (h : c.createType name = some c') :
    AddsTypes c c' [name] := by
  rw [createType] at h
  split_ifs at h with hname
  obtain rfl := Option.some.inj h
  exact ⟨rfl, by simpa using hname⟩

/-- `CREATE INDEX` adds no type. -/
theorem addsTypes_of_createIndex {i : Index} (h : c.createIndex i = some c') : AddsTypes c c' [] := by
  rw [createIndex] at h
  split_ifs at h
  obtain rfl := Option.some.inj h
  exact .of_types_eq rfl

/-- `CREATE TABLE` adds the types of its enum columns. -/
theorem addsTypes_of_createTable {t : Table} (h : c.createTable t = some c') :
    AddsTypes c c' t.enumTypes := by
  obtain ⟨c₁, htypes, h⟩ := Option.bind_eq_some_iff.1 h
  have hadds := AddsTypes.foldlM (f := createType) addsTypes_of_createType htypes
  rw [List.flatMap_singleton'] at hadds
  split_ifs at h
  have hindexes := AddsTypes.foldlM (f := createIndex) addsTypes_of_createIndex h
  rw [List.flatMap_eq_nil_iff.2 fun _ _ => rfl] at hindexes
  have htable : AddsTypes c₁ { c₁ with tables := c₁.tables ++ [t] } [] := .of_types_eq rfl
  simpa using (hadds.trans htable).trans hindexes

/-- A statement adds the enum types that it creates. No statement drops one. -/
theorem addsTypes_of_execute {statement : Statement} (h : c.execute statement = some c') :
    AddsTypes c c' statement.enumTypes := by
  cases statement with
  | createExtensionIfNotExists name =>
    rw [execute] at h
    split_ifs at h
    all_goals
      obtain rfl := Option.some.inj h
      exact .of_types_eq rfl
  | dropExtensionIfExists name =>
    rw [execute] at h
    split_ifs at h
    obtain rfl := Option.some.inj h
    exact .of_types_eq rfl
  | createTable t => exact addsTypes_of_createTable h
  | dropTable name =>
    rw [execute, dropTable] at h
    split_ifs at h
    obtain rfl := Option.some.inj h
    exact .of_types_eq rfl
  | createIndex name table columns => exact addsTypes_of_createIndex h
  | dropIndex name =>
    rw [execute, dropIndex] at h
    split_ifs at h
    obtain rfl := Option.some.inj h
    exact .of_types_eq rfl

/-- A migration adds the enum types that its statements create, and fails if one is there already. -/
theorem addsTypes_of_executeAll {statements : List Statement}
    (h : c.executeAll statements = some c') :
    AddsTypes c c' (statements.flatMap Statement.enumTypes) :=
  AddsTypes.foldlM (f := execute) addsTypes_of_execute h

/-- An enum type is an object of the catalog. -/
theorem type_mem_objects {name : String} : Object.type name ∈ c.objects ↔ name ∈ c.types := by
  simp [objects]

end Catalog

end Ddl
