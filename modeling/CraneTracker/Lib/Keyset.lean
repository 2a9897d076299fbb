import Mathlib.Data.List.Sort
import CraneTracker.Lib.Table

/-!
# Keyset paging

A client reads a table page by page, in descending order of a key, while others change the table.
`query` is `SELECT ... WHERE key < cursor ORDER BY key DESC LIMIT n`. A page asks for one row more than
it returns, and it is the last page when that row is not there (`page`). The client takes the key of
the last row of a page as the next cursor, until the last page (`traverse`). Each request may meet a
different table.

What a traversal receives is in strictly descending order of the key (`pairwise_traverse`), and a
traversal that reaches its last page has received each key that was there at each of its requests
(`mem_traverse_of_mem`). On a table that does not change it ends, and receives the table
(`traverse_replicate`).
-/

namespace Keyset

open Table

variable {ρ κ : Type*} [LinearOrder κ]

/-! ## Queries and pages -/

/-- The condition `key < cursor`. Without a cursor there is none. -/
def after (key : ρ → κ) (cursor : Option κ) (r : ρ) : Bool := cursor.all fun k => key r < k

/-- `SELECT ... WHERE key < cursor ORDER BY key DESC`. -/
def listing (key : ρ → κ) (cursor : Option κ) (t : List ρ) : List ρ :=
  (t.filter (after key cursor)).insertionSort fun a b => key b ≤ key a

/-- `SELECT ... WHERE key < cursor ORDER BY key DESC LIMIT n`. -/
def query (key : ρ → κ) (cursor : Option κ) (n : ℕ) (t : List ρ) : List ρ :=
  (listing key cursor t).take n

/-- What one request returns: its rows, and whether they are the last ones. -/
structure Page (ρ : Type*) where
  rows : List ρ
  last : Bool
deriving DecidableEq, Repr

/-- One request. -/
def page (key : ρ → κ) (limit : ℕ) (cursor : Option κ) (t : List ρ) : Page ρ :=
  let rows := query key cursor (limit + 1) t
  ⟨rows.take limit, !decide (limit < rows.length)⟩

/-- The cursor that follows a page: the key of its last row. -/
def Page.cursor (key : ρ → κ) (p : Page ρ) : Option κ := p.rows.getLast?.map key

/-- A client that starts at `cursor` and goes on until the last page. The tables are those that its
requests meet. -/
def traverse (key : ρ → κ) (limit : ℕ) : Option κ → List (List ρ) → List (Page ρ)
  | _, [] => []
  | cursor, t :: ts =>
    let p := page key limit cursor t
    if p.last then [p] else p :: traverse key limit (p.cursor key) ts

/-- The rows that a traversal receives. -/
def received (pages : List (Page ρ)) : List ρ := pages.flatMap Page.rows

section Page

variable {key : ρ → κ} {limit : ℕ} {cursor : Option κ} {t : List ρ} {r : ρ}

/-- What is below a row that comes after the cursor comes after the cursor. -/
theorem after_of_lt {l : ρ} (hl : after key cursor l = true) (h : key r < key l) :
    after key cursor r = true := by
  rw [after, Option.all_eq_true] at hl ⊢
  intro k hk
  exact decide_eq_true (h.trans (of_decide_eq_true (hl k hk)))

theorem mem_listing : r ∈ listing key cursor t ↔ r ∈ t ∧ after key cursor r = true := by
  rw [listing, List.mem_insertionSort, List.mem_filter]

variable (cursor) in
/-- On a table with unique keys, a listing is strictly descending. -/
theorem pairwise_listing (ht : KeyUnique key t) :
    (listing key cursor t).Pairwise fun a b => key b < key a := by
  have hle : (listing key cursor t).Pairwise fun a b => key b ≤ key a := by
    have htotal : Std.Total fun a b : ρ => key b ≤ key a := ⟨fun a b => le_total (key b) (key a)⟩
    have htrans : IsTrans ρ fun a b : ρ => key b ≤ key a := ⟨fun a b c hab hbc => hbc.trans hab⟩
    exact List.pairwise_insertionSort _ _
  have hne : (listing key cursor t).Pairwise fun a b => key a ≠ key b := by
    have hunique : ((t.filter (after key cursor)).map key).Nodup :=
      ht.sublist ((List.filter_sublist).map key)
    have hperm : (listing key cursor t).Perm (t.filter (after key cursor)) :=
      List.perm_insertionSort _ _
    exact List.pairwise_map.1 ((hperm.map key).nodup_iff.2 hunique)
  exact (hle.and hne).imp fun h => lt_of_le_of_ne h.1 (Ne.symm h.2)

theorem rows_page : (page key limit cursor t).rows = (listing key cursor t).take limit := by
  show ((listing key cursor t).take (limit + 1)).take limit = _
  rw [List.take_take, Nat.min_eq_left (Nat.le_succ limit)]

/-- A page is the last one exactly when the whole listing fits. -/
theorem last_page :
    (page key limit cursor t).last = true ↔ (listing key cursor t).length ≤ limit := by
  show (!decide (limit < ((listing key cursor t).take (limit + 1)).length)) = true ↔ _
  rw [Bool.not_eq_true', decide_eq_false_iff_not, List.length_take]
  omega

/-- The last page has the whole listing. -/
theorem rows_of_last (h : (page key limit cursor t).last = true) :
    (page key limit cursor t).rows = listing key cursor t := by
  rw [rows_page, List.take_of_length_le (last_page.1 h)]

/-- A page that is not the last one is full. -/
theorem length_rows_of_not_last (h : (page key limit cursor t).last = false) :
    (page key limit cursor t).rows.length = limit := by
  have hlt : limit < (listing key cursor t).length := by
    rw [← not_le, ← last_page, h]
    exact Bool.false_ne_true
  rw [rows_page, List.length_take, Nat.min_eq_left hlt.le]

theorem mem_of_mem_rows (h : r ∈ (page key limit cursor t).rows) :
    r ∈ t ∧ after key cursor r = true := by
  rw [rows_page] at h
  exact mem_listing.1 (List.mem_of_mem_take h)

variable (limit cursor) in
/-- The rows of a page are strictly descending. -/
theorem pairwise_rows (ht : KeyUnique key t) :
    (page key limit cursor t).rows.Pairwise fun a b => key b < key a := by
  rw [rows_page]
  exact (pairwise_listing cursor ht).sublist (List.take_sublist _ _)

variable (key limit cursor t) in
/-- A page that is not the last one has a last row, whose key is the next cursor. The rows of the page
are not below it, and the rest of the listing is. -/
theorem exists_cursor (hlimit : 1 ≤ limit) (ht : KeyUnique key t)
    (h : (page key limit cursor t).last = false) :
    ∃ l ∈ (page key limit cursor t).rows, (page key limit cursor t).cursor key = some (key l) ∧
      (∀ r ∈ (page key limit cursor t).rows, key l ≤ key r) ∧
      ∀ r ∈ t, after key cursor r = true → r ∉ (page key limit cursor t).rows → key r < key l := by
  have hlength := length_rows_of_not_last h
  have hne : (page key limit cursor t).rows ≠ [] := by
    rw [← List.length_pos_iff, hlength]
    exact hlimit
  have hlast : (page key limit cursor t).rows.getLast hne ∈ (page key limit cursor t).rows :=
    List.getLast_mem hne
  refine ⟨_, hlast, ?_, ?_, ?_⟩
  · rw [Page.cursor, List.getLast?_eq_some_getLast hne, Option.map_some]
  · intro r hr
    -- The page is its rows before the last one, and the last one.
    rw [← List.dropLast_append_getLast hne] at hr
    have hdesc := pairwise_rows limit cursor ht
    rw [← List.dropLast_append_getLast hne, List.pairwise_append] at hdesc
    rcases List.mem_append.1 hr with hinit | hr
    · exact (hdesc.2.2 r hinit _ (List.mem_singleton_self _)).le
    · rw [List.mem_singleton.1 hr]
  · intro r hr hafter hnot
    have hdesc := pairwise_listing cursor ht
    have hmem := mem_listing.2 ⟨hr, hafter⟩
    rw [← List.take_append_drop limit (listing key cursor t)] at hdesc hmem
    rw [← rows_page] at hdesc hmem
    rcases List.mem_append.1 hmem with hrows | hrest
    · exact absurd hrows hnot
    · exact (List.pairwise_append.1 hdesc).2.2 _ hlast r hrest

end Page

/-! ## Traversals -/

section Traverse

variable {key : ρ → κ} {limit : ℕ} {cursor : Option κ} {t : List ρ} {ts : List (List ρ)}

/-- A request that meets the last page ends the traversal. -/
theorem traverse_of_last (h : (page key limit cursor t).last = true) :
    traverse key limit cursor (t :: ts) = [page key limit cursor t] := by
  show (if (page key limit cursor t).last = true then _ else _) = _
  rw [if_pos h]

/-- Another request is followed by the traversal from its cursor. -/
theorem traverse_of_not_last (h : (page key limit cursor t).last = false) :
    traverse key limit cursor (t :: ts) =
      page key limit cursor t :: traverse key limit ((page key limit cursor t).cursor key) ts := by
  show (if (page key limit cursor t).last = true then _ else _) = _
  rw [if_neg (by rw [h]; exact Bool.false_ne_true)]

/-- A row that a traversal receives was in the table of some request, after the first cursor. -/
theorem mem_of_mem_received (hlimit : 1 ≤ limit) (hts : ∀ t ∈ ts, KeyUnique key t) {r : ρ}
    (hr : r ∈ received (traverse key limit cursor ts)) :
    (∃ t ∈ ts, r ∈ t) ∧ after key cursor r = true := by
  induction ts generalizing cursor with
  | nil => exact absurd hr List.not_mem_nil
  | cons t ts ih =>
    cases hlast : (page key limit cursor t).last with
    | true =>
      rw [traverse_of_last hlast, received, List.flatMap_singleton] at hr
      obtain ⟨hmem, hafter⟩ := mem_of_mem_rows hr
      exact ⟨⟨t, List.mem_cons_self, hmem⟩, hafter⟩
    | false =>
      rw [traverse_of_not_last hlast, received, List.flatMap_cons, List.mem_append] at hr
      rcases hr with hpage | hrest
      · obtain ⟨hmem, hafter⟩ := mem_of_mem_rows hpage
        exact ⟨⟨t, List.mem_cons_self, hmem⟩, hafter⟩
      · obtain ⟨⟨t', ht', hmem⟩, hafter⟩ := ih (fun t' ht' => hts t' (List.mem_cons_of_mem _ ht')) hrest
        refine ⟨⟨t', List.mem_cons_of_mem _ ht', hmem⟩, ?_⟩
        -- What comes after the cursor of a page comes after the cursor of its request.
        obtain ⟨l, hl, hcursor, -⟩ :=
          exists_cursor key limit cursor t hlimit (hts t List.mem_cons_self) hlast
        have hbelow : key r < key l := by
          rw [hcursor] at hafter
          exact of_decide_eq_true hafter
        exact after_of_lt (mem_of_mem_rows hl).2 hbelow

variable (cursor) in
/-- What a traversal receives is strictly descending. -/
theorem pairwise_traverse (hlimit : 1 ≤ limit) (hts : ∀ t ∈ ts, KeyUnique key t) :
    (received (traverse key limit cursor ts)).Pairwise fun a b => key b < key a := by
  induction ts generalizing cursor with
  | nil => exact List.Pairwise.nil
  | cons t ts ih =>
    have ht := hts t List.mem_cons_self
    have hts' : ∀ t ∈ ts, KeyUnique key t := fun t' ht' => hts t' (List.mem_cons_of_mem _ ht')
    cases hlast : (page key limit cursor t).last with
    | true =>
      rw [traverse_of_last hlast, received, List.flatMap_singleton]
      exact pairwise_rows limit cursor ht
    | false =>
      obtain ⟨l, -, hcursor, hle, -⟩ := exists_cursor key limit cursor t hlimit ht hlast
      rw [traverse_of_not_last hlast, received, List.flatMap_cons, List.pairwise_append]
      refine ⟨pairwise_rows limit cursor ht, ih _ hts', ?_⟩
      intro a ha b hb
      have hafter := (mem_of_mem_received hlimit hts' hb).2
      have hbelow : key b < key l := by
        rw [hcursor] at hafter
        exact of_decide_eq_true hafter
      exact hbelow.trans_le (hle a ha)

/-- A page that is not the last one is not empty. -/
theorem rows_ne_nil (hlimit : 1 ≤ limit) {p : Page ρ} (hp : p ∈ traverse key limit cursor ts)
    (h : p.last = false) : p.rows ≠ [] := by
  induction ts generalizing cursor with
  | nil => exact absurd hp List.not_mem_nil
  | cons t ts ih =>
    have hfull (hpage : p = page key limit cursor t) : p.rows ≠ [] := by
      rw [← List.length_pos_iff, hpage, length_rows_of_not_last (hpage ▸ h)]
      exact hlimit
    cases hlast : (page key limit cursor t).last with
    | true =>
      rw [traverse_of_last hlast, List.mem_singleton] at hp
      exact hfull hp
    | false =>
      rw [traverse_of_not_last hlast, List.mem_cons] at hp
      exact hp.elim hfull ih

/-- A traversal that reaches its last page receives every key, after the first cursor, that was in
the table at each of its requests. -/
theorem mem_traverse_of_mem (hlimit : 1 ≤ limit) (hts : ∀ t ∈ ts, KeyUnique key t) {k : κ}
    (hended : ∃ p ∈ traverse key limit cursor ts, p.last = true)
    (hk : ∀ t ∈ ts.take (traverse key limit cursor ts).length, ∃ r ∈ t, key r = k)
    (hcursor : cursor.all fun c => k < c) :
    ∃ r ∈ received (traverse key limit cursor ts), key r = k := by
  induction ts generalizing cursor with
  | nil =>
    obtain ⟨p, hp, -⟩ := hended
    exact absurd hp List.not_mem_nil
  | cons t ts ih =>
    have ht := hts t List.mem_cons_self
    cases hlast : (page key limit cursor t).last with
    | true =>
      rw [traverse_of_last hlast] at hk ⊢
      obtain ⟨r, hr, rfl⟩ := hk t List.mem_cons_self
      rw [received, List.flatMap_singleton, rows_of_last hlast]
      exact ⟨r, mem_listing.2 ⟨hr, hcursor⟩, rfl⟩
    | false =>
      rw [traverse_of_not_last hlast] at hk hended ⊢
      rw [List.length_cons, List.take_succ_cons] at hk
      obtain ⟨r, hr, rfl⟩ := hk t List.mem_cons_self
      obtain ⟨l, -, hnext, -, hrest⟩ := exists_cursor key limit cursor t hlimit ht hlast
      rw [received, List.flatMap_cons]
      by_cases hpage : r ∈ (page key limit cursor t).rows
      · exact ⟨r, List.mem_append_left _ hpage, rfl⟩
      · -- The row is below the page, and the rest of the traversal finds it.
        have hbelow : key r < key l := hrest r hr hcursor hpage
        have hended' : ∃ p ∈ traverse key limit ((page key limit cursor t).cursor key) ts,
            p.last = true := by
          obtain ⟨p, hp, hplast⟩ := hended
          rcases List.mem_cons.1 hp with rfl | hp
          · rw [hlast] at hplast
            exact absurd hplast Bool.false_ne_true
          · exact ⟨p, hp, hplast⟩
        obtain ⟨r', hr', hkey⟩ := ih (fun t' ht' => hts t' (List.mem_cons_of_mem _ ht')) hended'
          (fun t' ht' => hk t' (List.mem_cons_of_mem _ ht')) (by rw [hnext]; exact decide_eq_true hbelow)
        exact ⟨r', List.mem_append_right _ hr', hkey⟩

/-- On a table that does not change, a traversal reaches its last page within as many requests as the
table has rows after the cursor, and one more. -/
theorem exists_last (hlimit : 1 ≤ limit) (ht : KeyUnique key t) {n : ℕ}
    (hn : (t.filter (after key cursor)).length < n) :
    ∃ p ∈ traverse key limit cursor (List.replicate n t), p.last = true := by
  induction n generalizing cursor with
  | zero => omega
  | succ n ih =>
    rw [List.replicate_succ]
    cases hlast : (page key limit cursor t).last with
    | true =>
      rw [traverse_of_last hlast]
      exact ⟨_, List.mem_singleton_self _, hlast⟩
    | false =>
      obtain ⟨l, hl, hnext, -⟩ := exists_cursor key limit cursor t hlimit ht hlast
      obtain ⟨hlt, hafter⟩ := mem_of_mem_rows hl
      -- The rows after the next cursor are among those after this one, and `l` is not.
      have hsub : (t.filter (after key (some (key l)))).Sublist (t.filter (after key cursor)) := by
        refine List.monotone_filter_right t fun r hr => ?_
        exact after_of_lt hafter (of_decide_eq_true hr)
      have hne : t.filter (after key (some (key l))) ≠ t.filter (after key cursor) := by
        intro heq
        have hmem : l ∈ t.filter (after key (some (key l))) := by
          rw [heq]
          exact List.mem_filter.2 ⟨hlt, hafter⟩
        simpa [after] using (List.mem_filter.1 hmem).2
      have hlength : (t.filter (after key (some (key l)))).length <
          (t.filter (after key cursor)).length :=
        lt_of_le_of_ne hsub.length_le fun h => hne (hsub.eq_of_length h)
      rw [traverse_of_not_last hlast, hnext]
      obtain ⟨p, hp, hplast⟩ := @ih (some (key l)) (by omega)
      exact ⟨p, List.mem_cons_of_mem _ hp, hplast⟩

/-- On a table that does not change, a traversal receives the table. -/
theorem traverse_replicate (hlimit : 1 ≤ limit) (ht : KeyUnique key t) {n : ℕ} (hn : t.length < n) :
    (received (traverse key limit none (List.replicate n t))).Perm t := by
  have hts : ∀ u ∈ List.replicate n t, KeyUnique key u := fun u hu => List.eq_of_mem_replicate hu ▸ ht
  have hdesc := pairwise_traverse none hlimit hts
  have hnodup : (received (traverse key limit none (List.replicate n t))).Nodup :=
    hdesc.imp fun h heq => h.ne (congrArg key heq).symm
  have hmem {r : ρ} (hr : r ∈ received (traverse key limit none (List.replicate n t))) : r ∈ t := by
    obtain ⟨⟨u, hu, hru⟩, -⟩ := mem_of_mem_received hlimit hts hr
    rwa [List.eq_of_mem_replicate hu] at hru
  have hended : ∃ p ∈ traverse key limit none (List.replicate n t), p.last = true := by
    refine exists_last hlimit ht (lt_of_le_of_lt ?_ hn)
    exact List.length_filter_le _ _
  refine (List.perm_ext_iff_of_nodup hnodup (List.Nodup.of_map key ht)).2 fun r => ⟨hmem, ?_⟩
  intro hr
  obtain ⟨r', hr', hkey⟩ := mem_traverse_of_mem hlimit hts hended
    (fun u hu => ⟨r, List.eq_of_mem_replicate (List.mem_of_mem_take hu) ▸ hr, rfl⟩) rfl
  rwa [List.inj_on_of_nodup_map ht (hmem hr') hr hkey] at hr'

end Traverse

end Keyset
