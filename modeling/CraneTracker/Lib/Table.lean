import Mathlib.Algebra.GroupWithZero.Nat
import Mathlib.Algebra.Order.BigOperators.Group.List
import Mathlib.Algebra.Order.Group.Nat
import Mathlib.Data.List.Nodup
import Mathlib.Data.List.Perm.Basic
import Mathlib.Data.List.Sort

/-!
# Tables and row locks

A table is the list of its rows. `row` looks a row up by its key, `updateWhere` and `deleteWhere`
are the two writes by predicate, and an insertion is an append. `KeyUnique` is the primary key
constraint. Under it a row is in the table exactly when the lookup of its key finds it, and the
three writes act on lookups row by row.

`Selects` is a `SELECT ... WHERE ... ORDER BY` as a relation: the rows that satisfy the condition,
in an order that the sort column does not contradict. Rows with equal sort columns may come in
either order. `OrderBy` is an order that a database may choose for every result.

`Locks` gives each row the process whose transaction holds its lock. A process acquires only rows
that no other process holds, and releases all of its rows together, as a transaction does at commit
or rollback. So what a process holds stays held whatever the others do (`Keeps`).

`Scan` is what a process knows in the middle of a `SELECT ... FOR UPDATE SKIP LOCKED`, which goes
through its rows one by one. `scan` is the whole query when nothing comes between its rows.
-/

/-! ## Tables -/

namespace Table

variable {ρ κ τ : Type*}

/-- The row with the key `k`. -/
def row [DecidableEq κ] (key : ρ → κ) (t : List ρ) (k : κ) : Option ρ :=
  t.find? fun r => key r = k

/-- `UPDATE ... SET f WHERE p`. -/
def updateWhere (p : ρ → Bool) (f : ρ → ρ) (t : List ρ) : List ρ :=
  t.map fun r => if p r then f r else r

/-- `DELETE ... WHERE p`. -/
def deleteWhere (p : ρ → Bool) (t : List ρ) : List ρ :=
  t.filter fun r => !p r

/-- The primary key constraint. -/
def KeyUnique (key : ρ → κ) (t : List ρ) : Prop := (t.map key).Nodup

/-- `SELECT ... WHERE p ORDER BY col`: the rows of `t` that satisfy `p`, in an order that `col`
does not contradict. -/
def Selects [LE τ] (p : ρ → Bool) (col : ρ → τ) (t rows : List ρ) : Prop :=
  rows.Perm (t.filter p) ∧ rows.Pairwise fun a b => col a ≤ col b

instance [DecidableEq ρ] [LE τ] [DecidableLE τ] (p : ρ → Bool) (col : ρ → τ) (t rows : List ρ) :
    Decidable (Selects p col t rows) :=
  inferInstanceAs (Decidable (_ ∧ _))

/-- `ORDER BY col`, as a database may carry it out: it puts the rows of a result in an order that `col`
does not contradict. -/
structure OrderBy [LE τ] (col : ρ → τ) where
  sort : List ρ → List ρ
  perm : ∀ rows, (sort rows).Perm rows
  sorted : ∀ rows, (sort rows).Pairwise fun a b => col a ≤ col b

/-- A sorted result is a `SELECT ... WHERE ... ORDER BY`. -/
theorem OrderBy.selects [LE τ] {col : ρ → τ} (order : OrderBy col) {p : ρ → Bool} {t : List ρ} :
    Selects p col t (order.sort (t.filter p)) :=
  ⟨order.perm _, order.sorted _⟩

/-- A query with a `LIMIT` of at least one row that returns nothing finds nothing, when it skips
nothing. -/
theorem OrderBy.filter_eq_nil [LE τ] {col : ρ → τ} (order : OrderBy col) {p q : ρ → Bool} {t : List ρ}
    {n : ℕ} (hn : 1 ≤ n) (hq : ∀ r, q r = true)
    (h : ((order.sort (t.filter p)).filter q).take n = []) : t.filter p = [] := by
  rw [List.filter_eq_self.2 fun r _ => hq r] at h
  have hsort : order.sort (t.filter p) = [] := by
    rcases List.take_eq_nil_iff.1 h with hzero | hnil
    · omega
    · exact hnil
  have hperm := order.perm (t.filter p)
  rw [hsort] at hperm
  exact hperm.symm.eq_nil

/-- Insertion sort: rows with equal sort columns come in the order of the table. -/
def OrderBy.insertion [LinearOrder τ] (col : ρ → τ) : OrderBy col where
  sort := List.insertionSort fun a b => col a ≤ col b
  perm := List.perm_insertionSort _
  sorted rows := by
    have htotal : Std.Total fun a b : ρ => col a ≤ col b := ⟨fun a b => le_total (col a) (col b)⟩
    have htrans : IsTrans ρ fun a b : ρ => col a ≤ col b := ⟨fun a b c hab hbc => hab.trans hbc⟩
    exact List.pairwise_insertionSort _ rows

/-- The rows that a deletion leaves. -/
theorem mem_deleteWhere {p : ρ → Bool} {t : List ρ} {r : ρ} :
    r ∈ deleteWhere p t ↔ r ∈ t ∧ p r = false := by
  simp [deleteWhere]

/-- A query that finds nothing in the rows that a deletion takes finds the same without them. -/
theorem findSome?_deleteWhere {p : ρ → Bool} {f : ρ → Option τ} {t : List ρ}
    (h : ∀ r ∈ t, p r = true → f r = none) : (deleteWhere p t).findSome? f = t.findSome? f := by
  induction t with
  | nil => rfl
  | cons r t ih =>
    have ht := ih fun r' hr' => h r' (List.mem_cons_of_mem _ hr')
    unfold deleteWhere at ht ⊢
    by_cases hp : p r = true
    · rw [List.filter_cons_of_neg (by simpa using hp), ht, List.findSome?_cons,
        h r List.mem_cons_self hp]
    · rw [List.filter_cons_of_pos (by simpa using hp), List.findSome?_cons, List.findSome?_cons, ht]

section Row

variable [DecidableEq κ] {key : ρ → κ} {t u : List ρ} {k : κ} {r : ρ}

/-- A row that a lookup finds is in the table. -/
theorem mem_of_row (h : row key t k = some r) : r ∈ t :=
  List.mem_of_find?_eq_some h

/-- A row that a lookup finds has the key that was looked up. -/
theorem key_of_row (h : row key t k = some r) : key r = k := by
  simpa using List.find?_some h

/-- A lookup finds nothing when no row has the key. -/
theorem row_eq_none : row key t k = none ↔ ∀ r ∈ t, key r ≠ k := by
  simp [row]

/-- A row of a table with unique keys is what the lookup of its key finds. -/
theorem row_of_mem (h : KeyUnique key t) (hr : r ∈ t) : row key t (key r) = some r := by
  cases hrow : row key t (key r) with
  | none => exact absurd rfl (row_eq_none.1 hrow r hr)
  | some r' =>
    rw [List.inj_on_of_nodup_map h (mem_of_row hrow) hr (key_of_row hrow)]

/-- A lookup finds a row when some row has the key. -/
theorem exists_row (h : k ∈ t.map key) : ∃ r, row key t k = some r := by
  cases hrow : row key t k with
  | none =>
    obtain ⟨r, hr, hk⟩ := List.mem_map.1 h
    exact absurd hk (row_eq_none.1 hrow r hr)
  | some r => exact ⟨r, rfl⟩

/-- Under unique keys, a lookup finds exactly the row of the table that has the key. -/
theorem row_eq_some (h : KeyUnique key t) : row key t k = some r ↔ r ∈ t ∧ key r = k := by
  constructor
  · exact fun hrow => ⟨mem_of_row hrow, key_of_row hrow⟩
  · rintro ⟨hr, rfl⟩
    exact row_of_mem h hr

/-- A lookup after an insertion. -/
theorem row_append : row key (t ++ u) k = (row key t k).or (row key u k) := by
  simp [row, List.find?_append]

/-- A lookup after an update that keeps keys. -/
theorem row_updateWhere {p : ρ → Bool} {f : ρ → ρ} (hf : ∀ r, key (f r) = key r) :
    row key (updateWhere p f t) k = (row key t k).map fun r => if p r then f r else r := by
  unfold row updateWhere
  rw [List.find?_map]
  congr 2
  funext r
  by_cases hp : p r <;> simp [hp, hf]

/-- A lookup after a deletion. -/
theorem row_deleteWhere (h : KeyUnique key t) {p : ρ → Bool} :
    row key (deleteWhere p t) k = (row key t k).filter fun r => !p r := by
  -- What is left has unique keys, so a lookup finds exactly the row that is there.
  have hsub : KeyUnique key (deleteWhere p t) := h.sublist ((List.filter_sublist).map key)
  ext r
  rw [row_eq_some hsub, Option.filter_eq_some_iff, row_eq_some h, mem_deleteWhere,
    Bool.not_eq_true']
  constructor
  · rintro ⟨⟨hr, hp⟩, hk⟩
    exact ⟨⟨hr, hk⟩, hp⟩
  · rintro ⟨⟨hr, hk⟩, hp⟩
    exact ⟨⟨hr, hp⟩, hk⟩

/-- What an update of the rows that satisfy `P` does to a lookup: nothing, or the update of the row that
it finds. -/
theorem map_row_cases (R : Option ρ → Option ρ → Prop) {P : ρ → Prop} [DecidablePred P] {f : ρ → ρ}
    (same : ∀ r, R r r) (update : ∀ r, row key t k = some r → P r → R (some r) (some (f r))) :
    R (row key t k) ((row key t k).map fun r => if P r then f r else r) := by
  cases hrow : row key t k with
  | none => exact same none
  | some r =>
    rw [Option.map_some]
    by_cases hp : P r
    · rw [if_pos hp]
      exact update r hrow hp
    · rw [if_neg hp]
      exact same (some r)

/-- What an update of the row with the key `k'` does to a lookup of the key `k`. -/
theorem map_row_ite {f : ρ → ρ} {k' : κ} :
    ((row key t k).map fun r => if key r = k' then f r else r) =
      if k = k' then (row key t k).map f else row key t k := by
  cases hrow : row key t k with
  | none => rw [Option.map_none, Option.map_none, ite_self]
  | some r => rw [Option.map_some, Option.map_some, key_of_row hrow, apply_ite some]

end Row

/-- Two updates that make the same change are one. -/
theorem updateWhere_updateWhere {p q : ρ → Bool} {f : ρ → ρ} {t : List ρ}
    (hq : ∀ r, q (f r) = q r) (hf : ∀ r, f (f r) = f r) :
    updateWhere q f (updateWhere p f t) = updateWhere (fun r => p r || q r) f t := by
  unfold updateWhere
  rw [List.map_map]
  refine List.map_congr_left fun r _ => ?_
  cases hp : p r <;> simp [hp, hq, hf]

/-- An update that keeps keys keeps the list of the keys. -/
theorem map_key_updateWhere {key : ρ → κ} {t : List ρ} {p : ρ → Bool} {f : ρ → ρ}
    (hf : ∀ r, key (f r) = key r) : (updateWhere p f t).map key = t.map key := by
  rw [updateWhere, List.map_map]
  refine List.map_congr_left fun r _ => ?_
  by_cases hp : p r <;> simp [hp, hf]

/-- An update that keeps keys keeps them unique. -/
theorem KeyUnique.updateWhere {key : ρ → κ} {t : List ρ} (h : KeyUnique key t) {p : ρ → Bool}
    {f : ρ → ρ} (hf : ∀ r, key (f r) = key r) : KeyUnique key (updateWhere p f t) := by
  rwa [KeyUnique, map_key_updateWhere hf]

/-- A deletion keeps keys unique. -/
theorem KeyUnique.deleteWhere {key : ρ → κ} {t : List ρ} (h : KeyUnique key t) (p : ρ → Bool) :
    KeyUnique key (deleteWhere p t) :=
  h.sublist ((List.filter_sublist).map key)

/-- Inserting rows with new and distinct keys keeps keys unique. -/
theorem KeyUnique.append {key : ρ → κ} {t u : List ρ} (h : KeyUnique key t)
    (hu : KeyUnique key u) (hd : ∀ r ∈ t, ∀ r' ∈ u, key r ≠ key r') : KeyUnique key (t ++ u) := by
  rw [KeyUnique, List.map_append, List.nodup_append]
  refine ⟨h, hu, ?_⟩
  intro k hk k' hk'
  obtain ⟨r, hr, rfl⟩ := List.mem_map.1 hk
  obtain ⟨r', hr', rfl⟩ := List.mem_map.1 hk'
  exact hd r hr r' hr'

/-- A table with the keys of another one is what the lookups of those keys find. -/
theorem map_some_eq [DecidableEq κ] {key : ρ → κ} {t t' : List ρ} (h : KeyUnique key t')
    (hkeys : t'.map key = t.map key) : t'.map some = t.map fun r => row key t' (key r) := by
  have hrow : t'.map some = (t'.map key).map (row key t') := by
    rw [List.map_map]
    exact List.map_congr_left fun r hr => (row_of_mem h hr).symm
  rw [hrow, hkeys, List.map_map]
  rfl

/-- A sum over a table with the keys of another one, by the lookups of those keys. -/
theorem sum_map_row [DecidableEq κ] {key : ρ → κ} {t t' : List ρ} (h : KeyUnique key t')
    (hkeys : t'.map key = t.map key) (f : ρ → ℕ) :
    (t'.map f).sum = (t.map fun r => (row key t' (key r)).elim 0 f).sum := by
  have hrows := congrArg (List.map fun r : Option ρ => r.elim 0 f) (map_some_eq h hkeys)
  rw [List.map_map, List.map_map] at hrows
  exact congrArg List.sum hrows

/-- A sum over a table that is lower by `k` at some of its rows is lower by that much for each. -/
theorem sum_map_add_mul_le {f g : ρ → ℕ} {k : ℕ} {t rows : List ρ} (hnodup : rows.Nodup)
    (hsub : rows ⊆ t) (hle : ∀ r ∈ t, g r ≤ f r) (hlt : ∀ r ∈ rows, g r + k ≤ f r) :
    (t.map g).sum + rows.length * k ≤ (t.map f).sum := by
  -- The rows, and the others.
  obtain ⟨rows', hperm', hsublist⟩ := List.subperm_of_subset hnodup hsub
  obtain ⟨rest, hperm⟩ := hsublist.exists_perm_append
  have hsplit : t.Perm (rows ++ rest) := hperm.trans (hperm'.append_right rest)
  have hrest : (rest.map g).sum ≤ (rest.map f).sum :=
    List.sum_le_sum fun r hr => hle r (hsplit.mem_iff.2 (List.mem_append_right rows hr))
  have hrows : (rows.map g).sum + rows.length * k ≤ (rows.map f).sum := by
    clear hperm' hperm hsplit hsub hle hnodup
    induction rows with
    | nil => simp
    | cons r rows ih =>
      have hr := hlt r List.mem_cons_self
      have htail := ih fun r' hr' => hlt r' (List.mem_cons_of_mem r hr')
      rw [List.map_cons, List.sum_cons, List.length_cons, Nat.succ_mul, List.map_cons, List.sum_cons]
      omega
  have hg := (hsplit.map g).sum_eq
  have hf := (hsplit.map f).sum_eq
  rw [List.map_append, List.sum_append] at hg hf
  omega

/-- The rows that a query returns have unique keys. -/
theorem Selects.keyUnique [LE τ] {key : ρ → κ} {p : ρ → Bool} {col : ρ → τ} {t rows : List ρ}
    (h : Selects p col t rows) (ht : KeyUnique key t) : KeyUnique key rows := by
  have hfilter : KeyUnique key (t.filter p) := ht.sublist ((List.filter_sublist).map key)
  exact (h.1.map key).nodup_iff.2 hfilter

/-- In a result sorted by `col`, no row behind the limit comes before one within it. -/
theorem le_of_mem_take [LE τ] {col : ρ → τ} {rows : List ρ} (h : rows.Pairwise fun a b => col a ≤ col b)
    {limit : ℕ} {a b : ρ} (ha : a ∈ rows.take limit) (hb : b ∈ rows) (hnot : b ∉ rows.take limit) :
    col a ≤ col b := by
  rw [← List.take_append_drop limit rows, List.mem_append] at hb
  rw [← List.take_append_drop limit rows, List.pairwise_append] at h
  exact h.2.2 a ha b (hb.resolve_left hnot)

/-- An update that makes no further row satisfy `q` does not raise the number that do. -/
theorem countP_updateWhere_le {p q : ρ → Bool} {f : ρ → ρ} {t : List ρ}
    (hf : ∀ r ∈ t, p r → q (f r) → q r) : (updateWhere p f t).countP q ≤ t.countP q := by
  rw [updateWhere, List.countP_map]
  refine List.countP_mono_left fun r hr hq => ?_
  by_cases hp : p r
  · exact hf r hr hp (by simpa [hp] using hq)
  · simpa [hp] using hq

/-- A deletion does not raise the number of rows that satisfy a condition. -/
theorem countP_deleteWhere_le {p q : ρ → Bool} {t : List ρ} :
    (deleteWhere p t).countP q ≤ t.countP q :=
  List.Sublist.countP_le List.filter_sublist

end Table

/-! ## Row locks -/

/-- The row locks of a table: for each key, the process whose transaction holds it. -/
abbrev Locks (κ : Type*) := κ → Option ℕ

namespace Locks

variable {κ ρ : Type*}

/-- The process `p` can take the lock of `k`: nobody else holds it. -/
def available (l : Locks κ) (p : ℕ) (k : κ) : Bool := l k = none || l k = some p

/-- The process `p` takes the locks of `ks`. -/
def acquire [DecidableEq κ] (l : Locks κ) (p : ℕ) (ks : List κ) : Locks κ :=
  fun k => if k ∈ ks then some p else l k

/-- The end of the transaction of `p`: all its locks are released. -/
def release (l : Locks κ) (p : ℕ) : Locks κ := fun k => (l k).filter fun q => q ≠ p

/-- The row that `FOR UPDATE SKIP LOCKED` takes next: the current version `r` of the next row of
its result, unless another transaction holds the row, or its current version no longer satisfies the
condition. -/
def lockNext (l : Locks κ) (p : ℕ) (key : ρ → κ) (cond : ρ → Bool) (r : Option ρ) : Option ρ :=
  r.filter fun r => l.available p (key r) && cond r

/-- What the process `q` holds in `l` it holds in `l'`. -/
def Keeps (q : ℕ) (l l' : Locks κ) : Prop := ∀ k, l k = some q → l' k = some q

/-- The process that takes locks holds them. -/
theorem acquire_of_mem [DecidableEq κ] {l : Locks κ} {p : ℕ} {ks : List κ} {k : κ} (h : k ∈ ks) :
    l.acquire p ks k = some p :=
  if_pos h

/-- Locks that are taken one after the other are taken together. -/
theorem acquire_acquire [DecidableEq κ] {l : Locks κ} {p : ℕ} {ks ks' : List κ} :
    (l.acquire p ks).acquire p ks' = l.acquire p (ks ++ ks') := by
  funext k
  unfold acquire
  by_cases hk' : k ∈ ks'
  · rw [if_pos hk', if_pos (List.mem_append_right _ hk')]
  · rw [if_neg hk']
    simp only [List.mem_append, hk', or_false]

/-- Taking no lock changes nothing. -/
theorem acquire_nil [DecidableEq κ] {l : Locks κ} {p : ℕ} : l.acquire p [] = l :=
  funext fun _ => if_neg List.not_mem_nil

/-- A process that holds nothing has nothing to release. -/
theorem release_self {l : Locks κ} {p : ℕ} (hl : ∀ k, l k ≠ some p) : l.release p = l := by
  funext k
  unfold release
  cases hlk : l k with
  | none => rfl
  | some q =>
    have hq : q ≠ p := fun hq => hl k (hlk.trans (congrArg some hq))
    rw [Option.filter_some, if_pos (by simpa using hq)]

/-- A process that held nothing and took free rows leaves the locks as they were. -/
theorem release_acquire [DecidableEq κ] {l : Locks κ} {p : ℕ} {ks : List κ} (hl : ∀ k, l k ≠ some p)
    (hks : ∀ k ∈ ks, l k = none) : (l.acquire p ks).release p = l := by
  funext k
  by_cases hk : k ∈ ks
  · rw [release, acquire_of_mem hk, hks k hk]
    simp
  · have hkeep : (l.acquire p ks).release p k = l.release p k := by
      rw [release, release, acquire, if_neg hk]
    rw [hkeep, release_self hl]

/-- A process that takes locks keeps those that it had. -/
theorem acquire_of_held [DecidableEq κ] {l : Locks κ} {p : ℕ} {ks : List κ} {k : κ} (h : l k = some p) :
    l.acquire p ks k = some p := by
  unfold acquire
  split_ifs
  · rfl
  · exact h

theorem Keeps.refl (q : ℕ) (l : Locks κ) : Keeps q l l := fun _ h => h

/-- Taking available locks takes none from another process. -/
theorem Keeps.acquire [DecidableEq κ] {p q : ℕ} (hq : q ≠ p) {l : Locks κ} {ks : List κ}
    (h : ∀ k ∈ ks, l.available p k = true) : Keeps q l (l.acquire p ks) := by
  intro k hk
  -- A lock that `q` holds was not available to `p`.
  have hmem : k ∉ ks := by
    intro hmem
    have := h k hmem
    rw [available, hk] at this
    simp [hq] at this
  rw [Locks.acquire, if_neg hmem, hk]

/-- Releasing locks releases none of another process. -/
theorem Keeps.release {p q : ℕ} (hq : q ≠ p) (l : Locks κ) : Keeps q l (l.release p) := by
  intro k hk
  rw [Locks.release, hk, Option.filter_some, if_pos (by simpa using hq)]

/-- The row that a locking query takes is the current version, is available, and satisfies the
condition. -/
theorem lockNext_eq_some {l : Locks κ} {p : ℕ} {key : ρ → κ} {cond : ρ → Bool} {r : Option ρ}
    {r' : ρ} : l.lockNext p key cond r = some r' ↔
      r = some r' ∧ l.available p (key r') = true ∧ cond r' = true := by
  rw [lockNext, Option.filter_eq_some_iff, Bool.and_eq_true]

/-! ## Locking queries -/

section WholeScan

open Table

variable {l : Locks κ} {p limit : ℕ} {key : ρ → κ} {cond : ρ → Bool} {t rest taken : List ρ}

/-- A `SELECT ... FOR UPDATE SKIP LOCKED LIMIT limit` without a pause, from the keys that it has yet to
reach and the rows that it has taken: the locks after it, the keys that it does not come to, and its
rows. -/
def scan [DecidableEq κ] (limit p : ℕ) (key : ρ → κ) (cond : ρ → Bool) (t : List ρ) :
    List κ → Locks κ → List ρ → Locks κ × List κ × List ρ
  | [], l, rows => (l, [], rows)
  | k :: next, l, rows =>
    if rows.length < limit then
      match l.lockNext p key cond (row key t k) with
      | some r => scan limit p key cond t next (l.acquire p [k]) (rows ++ [r])
      | none => scan limit p key cond t next l rows
    else (l, k :: next, rows)

/-- The rows that a scan takes of its snapshot `rest`, after `taken`: the first ones that nobody has
locked, up to the limit. -/
def scanned (limit : ℕ) (l : Locks κ) (key : ρ → κ) (rest taken : List ρ) : List ρ :=
  taken ++ (rest.filter fun r => l (key r) = none).take (limit - taken.length)

/-- A row that nobody has locked is taken. -/
theorem scanned_cons_of_free {r : ρ} (hr : l (key r) = none) (hlimit : taken.length < limit) :
    scanned limit l key (r :: rest) taken = scanned limit l key rest (taken ++ [r]) := by
  obtain ⟨n, hn⟩ : ∃ n, limit - taken.length = n + 1 := ⟨limit - taken.length - 1, by omega⟩
  have hn' : limit - (taken ++ [r]).length = n := by
    rw [List.length_append, List.length_singleton]
    omega
  rw [scanned, scanned, List.filter_cons_of_pos (by simpa using hr), hn, hn', List.take_succ_cons,
    List.append_assoc, List.singleton_append]

/-- A row that somebody has locked is skipped. -/
theorem scanned_cons_of_locked {r : ρ} (hr : l (key r) ≠ none) :
    scanned limit l key (r :: rest) taken = scanned limit l key rest taken := by
  rw [scanned, scanned, List.filter_cons_of_neg (by simpa using hr)]

/-- What a scan without a pause finds. The process held no lock before the query. -/
theorem scan_eq [DecidableEq κ] (hl : ∀ k, l k ≠ some p) (ht : KeyUnique key t)
    (hrest : ∀ r ∈ rest, r ∈ t ∧ cond r = true) (hnodup : (rest.map key).Nodup)
    (hnew : ∀ r ∈ rest, key r ∉ taken.map key) :
    ∃ next, (next = [] ∨ limit ≤ (scanned limit l key rest taken).length) ∧
      scan limit p key cond t (rest.map key) (l.acquire p (taken.map key)) taken =
        (l.acquire p ((scanned limit l key rest taken).map key), next,
          scanned limit l key rest taken) := by
  induction rest generalizing taken with
  | nil =>
    have hnil : scanned limit l key [] taken = taken := by
      rw [scanned, List.filter_nil, List.take_nil, List.append_nil]
    rw [hnil]
    exact ⟨[], .inl rfl, rfl⟩
  | cons r rest ih =>
    rw [List.map_cons, List.nodup_cons] at hnodup
    have hrest' : ∀ r' ∈ rest, r' ∈ t ∧ cond r' = true := fun r' hr' =>
      hrest r' (List.mem_cons_of_mem _ hr')
    have hnew' : ∀ r' ∈ rest, key r' ∉ taken.map key := fun r' hr' =>
      hnew r' (List.mem_cons_of_mem _ hr')
    by_cases hlimit : taken.length < limit
    · obtain ⟨hmem, hcond⟩ := hrest r List.mem_cons_self
      have hlock : (l.acquire p (taken.map key)) (key r) = l (key r) :=
        if_neg (hnew r List.mem_cons_self)
      rw [List.map_cons, scan, if_pos hlimit, row_of_mem ht hmem]
      by_cases hfree : l (key r) = none
      · have hnext : (l.acquire p (taken.map key)).lockNext p key cond (some r) = some r := by
          refine lockNext_eq_some.2 ⟨rfl, ?_, hcond⟩
          rw [available, hlock, hfree]
          rfl
        have hkeys : (l.acquire p (taken.map key)).acquire p [key r] =
            l.acquire p ((taken ++ [r]).map key) := by
          rw [acquire_acquire, List.map_append, List.map_singleton]
        rw [hnext, scanned_cons_of_free hfree hlimit]
        dsimp only
        rw [hkeys]
        refine ih hrest' hnodup.2 fun r' hr' hmem' => ?_
        rw [List.map_append, List.mem_append, List.map_singleton, List.mem_singleton] at hmem'
        rcases hmem' with hold | heq
        · exact hnew' r' hr' hold
        · exact hnodup.1 (heq ▸ List.mem_map_of_mem hr')
      · have hnext : (l.acquire p (taken.map key)).lockNext p key cond (some r) = none := by
          refine Option.eq_none_iff_forall_ne_some.2 fun r' hr' => ?_
          obtain ⟨heq, havailable, -⟩ := lockNext_eq_some.1 hr'
          obtain rfl := Option.some.inj heq
          rw [available, hlock, Bool.or_eq_true, decide_eq_true_eq, decide_eq_true_eq] at havailable
          exact havailable.elim hfree (hl _)
        rw [hnext, scanned_cons_of_locked hfree]
        exact ih hrest' hnodup.2 hnew'
    · -- The query has all the rows that it may return.
      have htaken : scanned limit l key (r :: rest) taken = taken := by
        rw [scanned, Nat.sub_eq_zero_of_le (by omega), List.take_zero, List.append_nil]
      rw [List.map_cons, scan, if_neg hlimit, htaken]
      exact ⟨key r :: rest.map key, .inr (by omega), rfl⟩

/-- A query without a pause takes the first rows of its result that nobody has locked, up to the
limit. -/
theorem scan_orderBy [DecidableEq κ] {τ : Type*} [LE τ] {col : ρ → τ} (order : OrderBy col) (limit : ℕ)
    (hl : ∀ k, l k ≠ some p) (ht : KeyUnique key t) {locked : List κ}
    (hlocked : ∀ k, locked.contains k = (l k).isSome) {rows : List ρ}
    (hrows : rows = ((order.sort (t.filter cond)).filter fun r => !locked.contains (key r)).take limit) :
    (∀ k ∈ rows.map key, l k = none) ∧
      ∃ next, (next = [] ∨ limit ≤ rows.length) ∧
        scan limit p key cond t ((order.sort (t.filter cond)).map key) l [] =
          (l.acquire p (rows.map key), next, rows) := by
  have hfree : rows =
      ((order.sort (t.filter cond)).filter fun r => l (key r) = none).take limit := by
    refine hrows.trans (congrArg (List.take limit) (List.filter_congr fun r _ => ?_))
    rw [hlocked]
    cases l (key r) <;> rfl
  have hscanned : scanned limit l key (order.sort (t.filter cond)) [] = rows := by
    rw [scanned, hfree, List.nil_append, List.length_nil, Nat.sub_zero]
  have hresult : ∀ r ∈ order.sort (t.filter cond), r ∈ t ∧ cond r = true := fun r hr =>
    List.mem_filter.1 ((order.perm _).mem_iff.1 hr)
  have hscan : ∃ next,
      (next = [] ∨ limit ≤ (scanned limit l key (order.sort (t.filter cond)) []).length) ∧
      scan limit p key cond t ((order.sort (t.filter cond)).map key) (l.acquire p (List.map key [])) [] =
        (l.acquire p ((scanned limit l key (order.sort (t.filter cond)) []).map key), next,
          scanned limit l key (order.sort (t.filter cond)) []) :=
    scan_eq hl ht hresult (order.selects.keyUnique ht) fun r _ => List.not_mem_nil
  rw [List.map_nil, acquire_nil, hscanned] at hscan
  refine ⟨fun k hk => ?_, hscan⟩
  obtain ⟨r, hr, rfl⟩ := List.mem_map.1 hk
  rw [hfree] at hr
  exact of_decide_eq_true (List.mem_filter.1 (List.mem_of_mem_take hr)).2

end WholeScan

section Scan

open Table

variable [DecidableEq κ] {l l' : Locks κ} {p : ℕ} {key : ρ → κ} {t t' : List ρ} {sat : ρ → Prop}
  {next : List κ} {rows : List ρ} {k : κ} {r : ρ}

/-- A locking query of the process `p` on the table `t`, which has taken `rows` and has yet to reach
the keys `next`. -/
structure Scan (l : Locks κ) (p : ℕ) (key : ρ → κ) (t : List ρ) (sat : ρ → Prop) (next : List κ)
    (rows : List ρ) : Prop where
  /-- It goes through distinct rows. -/
  nodup : (rows.map key ++ next).Nodup
  /-- What it has taken is locked. -/
  locked : ∀ {r}, r ∈ rows → l (key r) = some p
  /-- What it has taken is the current version. -/
  current : ∀ {r}, r ∈ rows → row key t (key r) = some r
  /-- What it has taken satisfies the condition. -/
  satisfied : ∀ {r}, r ∈ rows → sat r

/-- A query begins with the rows of its snapshot. -/
theorem Scan.start {τ : Type*} [LE τ] {q : ρ → Bool} {col : ρ → τ} (h : Selects q col t rows)
    (ht : KeyUnique key t) : Scan l p key t sat (rows.map key) [] where
  nodup := h.keyUnique ht
  locked hr := absurd hr List.not_mem_nil
  current hr := absurd hr List.not_mem_nil
  satisfied hr := absurd hr List.not_mem_nil

/-- The rows that a query has taken are distinct. -/
theorem Scan.nodup_rows (h : Scan l p key t sat next rows) : (rows.map key).Nodup :=
  (List.nodup_append.1 h.nodup).1

/-- A query may pass over a row. -/
theorem Scan.skip (h : Scan l p key t sat (k :: next) rows) : Scan l p key t sat next rows where
  nodup := h.nodup.sublist (List.Sublist.append_left (List.sublist_cons_self _ _) _)
  locked := h.locked
  current := h.current
  satisfied := h.satisfied

/-- The row that a locking query takes next was available. -/
theorem available_of_lockNext {q : ρ → Bool} (hr : l.lockNext p key q (row key t k) = some r) :
    l.available p k = true := by
  obtain ⟨hrow, hlock, -⟩ := lockNext_eq_some.1 hr
  rwa [key_of_row hrow] at hlock

/-- A query that takes a row has it locked, current, and satisfying the condition. -/
theorem Scan.take (h : Scan l p key t sat (k :: next) rows) {q : ρ → Bool}
    (hr : l.lockNext p key q (row key t k) = some r) (hq : q r = true → sat r) :
    Scan (l.acquire p [k]) p key t sat next (rows ++ [r]) := by
  obtain ⟨hrow, -, hcond⟩ := lockNext_eq_some.1 hr
  have hk : key r = k := key_of_row hrow
  subst hk
  constructor
  · have hnodup := h.nodup
    rw [List.map_append, List.append_assoc]
    exact hnodup
  · intro r' hr'
    rcases List.mem_append.1 hr' with hold | hnew
    · exact acquire_of_held (h.locked hold)
    · obtain rfl := List.mem_singleton.1 hnew
      exact acquire_of_mem (List.mem_singleton_self _)
  · intro r' hr'
    rcases List.mem_append.1 hr' with hold | hnew
    · exact h.current hold
    · obtain rfl := List.mem_singleton.1 hnew
      exact hrow
  · intro r' hr'
    rcases List.mem_append.1 hr' with hold | hnew
    · exact h.satisfied hold
    · obtain rfl := List.mem_singleton.1 hnew
      exact hq hcond

/-- A query in progress survives what keeps its locks and the rows under them. -/
theorem Scan.stable (h : Scan l p key t sat next rows) (hl : Keeps p l l')
    (hrow : ∀ {k r}, l k = some p → row key t k = some r → row key t' k = some r) :
    Scan l' p key t' sat next rows where
  nodup := h.nodup
  locked hr := hl _ (h.locked hr)
  current hr := hrow (h.locked hr) (h.current hr)
  satisfied := h.satisfied

end Scan

end Locks
