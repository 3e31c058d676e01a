import Hooktrace.Keyset
import Hooktrace.Transition
import Mathlib.Data.List.Perm.Subperm

/-!
Walks over the pages of a keyset listing, while the table changes. No change takes a row away or
moves it to another owner, time or key, so that the place of the last row that was listed stays
the cursor for whatever follows: the pages descend, and a row that is there and kept at every
fetch is on one of them. The table may change between the two queries of a fetch as well.
-/
namespace Hooktrace.PagedWalk

open Table Keyset Transition

variable {R E K T : Type*} (c : Columns R E K T)

def place (r : R) : E × T × K := (c.owner r, c.time r, c.key r)

def Grows (t t' : List R) : Prop := t.map (place c) ⊆ t'.map (place c)

inductive Position (K T : Type*) where
  | next (beforeId : Option K)
  | resolved (cursor : Option (T × K))
  | finished
  deriving DecidableEq

structure State (R K T : Type*) where
  table : List R
  pages : List (List R)
  position : Position K T

inductive Action (R : Type*) where
  | change (t : List R)
  /-- The query for the cursor. -/
  | resolve
  /-- The query for the page. -/
  | select

/-- `items[-1].id if len(items) == limit else None`. -/
def nextBeforeId (limit : ℕ) (items : List R) : Option K :=
  if items.length = limit then items.getLast?.map c.key else none

def listed (limit : ℕ) (s : State R K T) (items : List R) : State R K T where
  table := s.table
  pages := s.pages ++ [items]
  position := match nextBeforeId c limit items with
    | some id => .next (some id)
    | none => .finished

def start (t : List R) : State R K T := ⟨t, [], .next none⟩

def State.rows (s : State R K T) : List R := s.pages.flatten

/-- Where a row stands in the listing; later rows have lesser stamps. -/
def stamp (r : R) : T ×ₗ K := toLex (c.time r, c.key r)

section Places

variable {c} {limit : ℕ} {s : State R K T}

theorem stamp_eq_of_place {r r' : R} (h : place c r = place c r') : stamp c r = stamp c r' := by
  obtain ⟨-, hrest⟩ := Prod.mk.inj h
  obtain ⟨htime, hkey⟩ := Prod.mk.inj hrest
  simp [stamp, htime, hkey]

theorem key_eq_of_place {r r' : R} (h : place c r = place c r') : c.key r = c.key r' :=
  (Prod.mk.inj (Prod.mk.inj h).2).2

theorem rows_listed (items : List R) : (listed c limit s items).rows = s.rows ++ items := by
  simp [State.rows, listed]

theorem nextBeforeId_eq_some {items : List R} {id : K} (h : nextBeforeId c limit items = some id) :
    items.length = limit ∧ ∃ l, items.getLast? = some l ∧ c.key l = id := by
  unfold nextBeforeId at h
  split at h
  · rename_i hfull
    exact ⟨hfull, Option.map_eq_some_iff.mp h⟩
  · simp at h

theorem listed_position (limit : ℕ) (s : State R K T) (items : List R) :
    ((listed c limit s items).position = .finished ∧ nextBeforeId c limit items = none) ∨
      ∃ l, items.length = limit ∧ items.getLast? = some l ∧
        (listed c limit s items).rows.getLast? = some l ∧
        (listed c limit s items).position = .next (some (c.key l)) := by
  cases hnext : nextBeforeId c limit items with
  | none => exact Or.inl ⟨by simp [listed, hnext], rfl⟩
  | some id =>
    obtain ⟨hfull, l, hl, rfl⟩ := nextBeforeId_eq_some hnext
    refine Or.inr ⟨l, hfull, hl, ?_, by simp [listed, hnext]⟩
    rw [rows_listed, List.getLast?_append, hl, Option.some_or]

end Places

section Changes

variable {c} {t t' : List R}

theorem grows_insert [DecidableEq K] {r : R} (h : Table.insert c.key r t = some t') :
    Grows c t t' := by
  unfold Table.insert at h
  split at h
  · simp at h
  · obtain rfl := Option.some.inj h
    rw [Grows, List.map_append]
    exact List.subset_append_left _ _

theorem grows_apply {u : Update R} (h : ∀ r, place c (u.onRow r) = place c r) (t : List R) :
    Grows c t (u.apply t) := by
  have hplaces : (u.apply t).map (place c) = t.map (place c) := by
    rw [Update.apply, List.map_map]
    exact List.map_congr_left fun r _ => h r
  rw [Grows, hplaces]
  exact List.Subset.refl _

end Changes

variable [LinearOrder K] [LinearOrder T]

def Descending (rows : List R) : Prop := rows.Pairwise fun r r' => stamp c r' < stamp c r

section Order

variable {c} {rows items : List R}

theorem after_iff {l r : R} :
    after c (some (c.time l, c.key l)) r = true ↔ stamp c r < stamp c l := by
  simp [after, stamp, Prod.Lex.toLex_lt_toLex]

/-- What comes after a row comes after whatever the row came after. -/
theorem after_of_lt {cursor : Option (T × K)} {l r : R} (h : stamp c r < stamp c l)
    (hl : after c cursor l = true) : after c cursor r = true := by
  cases cursor with
  | none => rfl
  | some at_ =>
    have hplace (r : R) : after c (some at_) r = true ↔ stamp c r < toLex at_ := by
      simp [after, stamp, Prod.Lex.toLex_lt_toLex]
    exact (hplace r).mpr (h.trans ((hplace l).mp hl))

theorem descending_mergeSort {rows : List R} (h : UniqueKeys c.key rows) :
    Descending c (rows.mergeSort (newestFirst c)) := by
  have hkeys : (rows.mergeSort (newestFirst c)).Pairwise fun r r' => c.key r ≠ c.key r' :=
    List.pairwise_map.mp (((List.mergeSort_perm _ _).map c.key).nodup_iff.mpr h)
  refine ((pairwise_newestFirst rows).and hkeys).imp ?_
  intro r r' hboth
  refine lt_of_le_of_ne (newestFirst_eq_true.mp hboth.1) fun hsame => hboth.2 ?_
  exact (Prod.mk.inj (toLex.injective hsame)).2.symm

theorem Descending.last_le (h : Descending c rows) {l : R}
    (hl : rows.getLast? = some l) {r : R} (hr : r ∈ rows) : stamp c l ≤ stamp c r := by
  obtain ⟨before, rfl⟩ := List.getLast?_eq_some_iff.mp hl
  rcases List.mem_append.mp hr with hbefore | hlast
  · exact ((List.pairwise_append.mp h).2.2 r hbefore l (by simp)).le
  · rw [List.mem_singleton.mp hlast]

theorem Descending.append (h : Descending c rows)
    (hitems : Descending c items)
    (hafter : ∀ l, rows.getLast? = some l → ∀ r ∈ items, stamp c r < stamp c l) :
    Descending c (rows ++ items) := by
  refine List.pairwise_append.mpr ⟨h, hitems, ?_⟩
  intro r hr r' hr'
  cases hl : rows.getLast? with
  | none => simp [List.getLast?_eq_none_iff.mp hl] at hr
  | some l => exact (hafter l hl r' hr').trans_le (h.last_le hl hr)

/-- A descending list has no row twice, in whatever version. -/
theorem Descending.nodup_keys (h : Descending c rows)
    (hplaces : ∀ r ∈ rows, ∀ r' ∈ rows, c.key r = c.key r' → stamp c r = stamp c r') :
    (rows.map c.key).Nodup := by
  rw [List.Nodup, List.pairwise_map]
  refine List.Pairwise.imp_of_mem ?_ h
  intro r r' hr hr' hlt hsame
  exact hlt.ne' (hplaces r hr r' hr' hsame)

end Order

/-- The cursor that the rows listed so far leave. -/
def lastPlace (s : State R K T) : Option (T × K) :=
  s.rows.getLast?.map fun r => (c.time r, c.key r)

structure Walked (owner : E) (s : State R K T) : Prop where
  unique : UniqueKeys c.key s.table
  descending : Descending c s.rows
  placed : ∀ r ∈ s.rows, c.owner r = owner ∧ place c r ∈ s.table.map (place c)
  next : ∀ beforeId, s.position = .next beforeId → beforeId = s.rows.getLast?.map c.key
  resolved : ∀ cursor, s.position = .resolved cursor → cursor = lastPlace c s

/-- The changes keep every row in its place. -/
structure Growing (changes : List R → List R → Prop) : Prop where
  grows : ∀ t t', changes t t' → Grows c t t'
  unique : ∀ t t', changes t t' → UniqueKeys c.key t → UniqueKeys c.key t'

def Covered (k : K) (s : State R K T) : Prop :=
  k ∈ s.rows.map c.key ∨ s.position ≠ .finished ∧
    (s.rows = [] ∨ ∃ r ∈ s.table, c.key r = k ∧ after c (lastPlace c s) r = true)

section Walked

variable {c} {owner : E} {limit : ℕ} {s : State R K T} {t : List R}

theorem walked_start (h : UniqueKeys c.key t) : Walked c owner (start t : State R K T) := by
  refine ⟨h, ?_, ?_, ?_, ?_⟩ <;> simp [start, State.rows, Descending]

/-- The row of the table that a listed row is a version of. -/
theorem Walked.exists_row (h : Walked c owner s) {r : R} (hr : r ∈ s.rows) :
    ∃ r' ∈ s.table, place c r' = place c r := List.mem_map.mp (h.placed r hr).2

/-- The cursor of the last row is found, whatever its version is now. -/
theorem Walked.cursor_eq (h : Walked c owner s) :
    cursor c (s.rows.getLast?.map c.key) s.table = lastPlace c s := by
  unfold lastPlace
  cases hl : s.rows.getLast? with
  | none => rfl
  | some l =>
    obtain ⟨r, hr, hplace⟩ := h.exists_row (List.mem_of_getLast? hl)
    have hkey := key_eq_of_place hplace
    have htime : c.time r = c.time l := (Prod.mk.inj (Prod.mk.inj hplace).2).1
    have hfind : find c.key (c.key l) s.table = some r := hkey ▸ find_of_mem h.unique hr
    simp [cursor, hfind, hkey, htime]

theorem Covered.change {changes : List R → List R → Prop} {k : K} (h : Covered c k s)
    (hchanges : Growing c changes) (hchange : changes s.table t) :
    Covered c k { s with table := t } := by
  rcases h with hlisted | ⟨hopen, hempty | ⟨r, hr, hkey, hafter⟩⟩
  · exact Or.inl hlisted
  · exact Or.inr ⟨hopen, Or.inl hempty⟩
  · obtain ⟨r', hr', hplace⟩ := List.mem_map.mp
      (hchanges.grows _ _ hchange (List.mem_map_of_mem hr))
    refine Or.inr ⟨hopen, Or.inr ⟨r', hr', (key_eq_of_place hplace).trans hkey, ?_⟩⟩
    obtain ⟨-, hrest⟩ := Prod.mk.inj hplace
    obtain ⟨htime, hkey'⟩ := Prod.mk.inj hrest
    have hsame : after c (lastPlace c s) r' = after c (lastPlace c s) r := by
      simp [after, htime, hkey']
    exact hsame.trans hafter

/-- No row is listed twice, in whatever version. -/
theorem Walked.nodup (h : Walked c owner s) : (s.rows.map c.key).Nodup := by
  refine h.descending.nodup_keys fun r hr r' hr' hkey => ?_
  obtain ⟨row, hrow, hplace⟩ := h.exists_row hr
  obtain ⟨row', hrow', hplace'⟩ := h.exists_row hr'
  have hsame : c.key row = c.key row' :=
    (key_eq_of_place hplace).trans (hkey.trans (key_eq_of_place hplace').symm)
  obtain rfl := h.unique.eq hrow hrow' hsame
  exact stamp_eq_of_place (hplace.symm.trans hplace')

end Walked

variable [DecidableEq E]

theorem limitRows_natCast {limit : ℕ} (h : (limit : ℤ) < bigintBound) :
    limitRows (limit : ℤ) = some limit := by
  rcases limitRows_cases limit with ⟨-, hneg | hlarge⟩ | ⟨hrows, -⟩
  · exact absurd hneg (Int.not_lt.mpr (Int.natCast_nonneg limit))
  · exact absurd h (Int.not_lt.mpr hlarge)
  · rw [hrows, Int.toNat_natCast]

variable {c} in
/-- A listing that the server takes is its two queries. -/
theorem query_eq_page {limit : ℤ} {n : ℕ} (h : limitRows limit = some n) (owner : E)
    (keep : R → Bool) (beforeId : Option K) (t : List R) :
    query c owner (some keep) limit beforeId t =
      some (page c owner keep n (cursor c beforeId t) t) := by
  simp only [query, h]
  rfl

/-- The walk for one owner, filter and page size, over tables that change in the given way. -/
inductive Step (changes : List R → List R → Prop) (owner : E) (keep : R → Bool) (limit : ℕ) :
    State R K T → Action R → State R K T → Prop
  | change {s : State R K T} {t : List R} (h : changes s.table t) :
      Step changes owner keep limit s (.change t) { s with table := t }
  | resolve {s : State R K T} {beforeId : Option K} (h : s.position = .next beforeId) :
      Step changes owner keep limit s .resolve
        { s with position := .resolved (cursor c beforeId s.table) }
  | select {s : State R K T} {cursor : Option (T × K)} (h : s.position = .resolved cursor) :
      Step changes owner keep limit s .select
        (listed c limit s (page c owner keep limit cursor s.table))

section Pages

variable {c} {owner : E} {keep : R → Bool} {limit : ℕ} {t : List R} {cursor : Option (T × K)}

theorem mem_page {r : R}
    (h : r ∈ page c owner keep limit cursor t) : r ∈ t ∧ selected c owner keep cursor r = true :=
  List.mem_filter.mp ((List.mergeSort_perm _ _).mem_iff.mp (List.mem_of_mem_take h))

/-- Rows in the order of the listing are not sorted again. -/
theorem page_of_sorted (h : (t.filter (selected c owner keep cursor)).Pairwise
    fun r r' => newestFirst c r r' = true) : page c owner keep limit cursor t =
      (t.filter (selected c owner keep cursor)).take limit := by
  rw [page, List.mergeSort_of_pairwise h]

theorem descending_page (h : UniqueKeys c.key t) :
    Descending c (page c owner keep limit cursor t) :=
  List.Pairwise.take (descending_mergeSort ((List.filter_sublist.map c.key).nodup h))

/-- A selected row that is not on the page comes after it, and the page is full. -/
theorem of_not_mem_page (h : UniqueKeys c.key t) {r : R} (hr : r ∈ t)
    (hselected : selected c owner keep cursor r = true)
    (hnot : r ∉ page c owner keep limit cursor t) :
    (page c owner keep limit cursor t).length = limit ∧
      ∀ r' ∈ page c owner keep limit cursor t, stamp c r < stamp c r' := by
  have hsorted : Descending c ((t.filter (selected c owner keep cursor)).mergeSort
      (newestFirst c)) := descending_mergeSort ((List.filter_sublist.map c.key).nodup h)
  have hmem : r ∈ (t.filter (selected c owner keep cursor)).mergeSort (newestFirst c) :=
    (List.mergeSort_perm _ _).mem_iff.mpr (List.mem_filter.mpr ⟨hr, hselected⟩)
  unfold page at hnot ⊢
  generalize (t.filter (selected c owner keep cursor)).mergeSort (newestFirst c) = rows at *
  rw [← List.take_append_drop limit rows] at hsorted hmem
  have hdropped : r ∈ rows.drop limit := (List.mem_append.mp hmem).resolve_left hnot
  refine ⟨?_, ?_⟩
  · have hlong := List.length_pos_of_mem hdropped
    rw [List.length_drop] at hlong
    rw [List.length_take]
    omega
  · intro r' hr'
    exact (List.pairwise_append.mp hsorted).2.2 r' hr' r hdropped

end Pages

section Steps

variable {c} {changes : List R → List R → Prop} {owner : E} {keep : R → Bool} {limit : ℕ}
variable {s u : State R K T} {a : Action R}

theorem run_fetch (beforeId : Option K) (items : List R) (hposition : s.position = .next beforeId)
    (hitems : page c owner keep limit (cursor c beforeId s.table) s.table = items) :
    Run (Step c changes owner keep limit) s
      [⟨{ s with position := .resolved (cursor c beforeId s.table) }, .select,
          listed c limit { s with position := .resolved (cursor c beforeId s.table) } items⟩,
        ⟨s, .resolve, { s with position := .resolved (cursor c beforeId s.table) }⟩]
      (listed c limit { s with position := .resolved (cursor c beforeId s.table) } items) := by
  subst hitems
  exact .move (.single (.resolve hposition)) (.select rfl)

theorem page_after {l : R} (hl : s.rows.getLast? = some l) {r : R}
    (hr : r ∈ page c owner keep limit (lastPlace c s) s.table) : stamp c r < stamp c l := by
  have hselected := (selected_eq_true.mp (mem_page hr).2).2.2
  rw [lastPlace, hl, Option.map_some] at hselected
  exact after_iff.mp hselected

theorem Walked.keeps (hchanges : Growing c changes) (h : Walked c owner s)
    (hstep : Step c changes owner keep limit s a u) : Walked c owner u := by
  cases hstep with
  | change hchange =>
    refine ⟨hchanges.unique _ _ hchange h.unique, h.descending, ?_, h.next, h.resolved⟩
    intro r hr
    exact ⟨(h.placed r hr).1, hchanges.grows _ _ hchange (h.placed r hr).2⟩
  | resolve hposition =>
    refine ⟨h.unique, h.descending, h.placed, by simp, ?_⟩
    intro cursor hcursor
    rw [← Position.resolved.inj hcursor, h.next _ hposition]
    exact h.cursor_eq
  | select hposition =>
    rw [h.resolved _ hposition]
    refine ⟨h.unique, ?_, ?_, ?_, ?_⟩
    · rw [rows_listed]
      exact h.descending.append (descending_page h.unique) fun _ hl _ hr => page_after hl hr
    · intro r hr
      rw [rows_listed, List.mem_append] at hr
      rcases hr with hold | hnew
      · exact h.placed r hold
      · obtain ⟨hmem, hselected⟩ := mem_page hnew
        exact ⟨(selected_eq_true.mp hselected).1, List.mem_map_of_mem hmem⟩
    · intro beforeId hnext
      rcases listed_position limit s
        (page c owner keep limit (lastPlace c s) s.table) with ⟨hfinished, -⟩ | hlast
      · rw [hfinished] at hnext
        cases hnext
      · obtain ⟨l, -, -, hl, hposition⟩ := hlast
        rw [hl]
        exact (Position.next.inj (hposition.symm.trans hnext)).symm
    · intro cursor hcursor
      rcases listed_position limit s
        (page c owner keep limit (lastPlace c s) s.table) with ⟨hfinished, -⟩ | hlast
      · rw [hfinished] at hcursor
        cases hcursor
      · obtain ⟨l, -, -, -, hposition⟩ := hlast
        rw [hposition] at hcursor
        cases hcursor

end Steps

/-- The row with the key is there, is the owner's and is kept. -/
def Shown (owner : E) (keep : R → Bool) (k : K) (t : List R) : Prop :=
  ∃ r ∈ t, c.key r = k ∧ c.owner r = owner ∧ keep r = true

def Action.isSelect : Action R → Bool
  | .select => true
  | _ => false

def fetches (ms : History (State R K T) (Action R)) : ℕ := ms.countP fun m => m.act.isSelect

def remaining (owner : E) (s : State R K T) : ℕ :=
  s.table.countP fun r => c.owner r = owner ∧ after c (lastPlace c s) r = true

def pagesLeft (owner : E) (s : State R K T) : ℕ :=
  match s.position with
  | .finished => 0
  | _ => 1 + remaining c owner s

def Inserts (m : Move (State R K T) (Action R)) : Prop :=
  ∃ t, m.act = .change t ∧ ¬ t.map (place c) ⊆ m.pre.table.map (place c)

section Runs

variable {c} {changes : List R → List R → Prop} {owner : E} {keep : R → Bool} {limit : ℕ}
variable {s u : State R K T} {a : Action R} {t : List R} {k : K}

theorem Covered.select (hlimit : 1 ≤ limit) (h : Covered c k s) (hwalked : Walked c owner s)
    (hshown : Shown c owner keep k s.table) : Covered c k
      (listed c limit s (page c owner keep limit (lastPlace c s) s.table)) := by
  generalize hitems : page c owner keep limit (lastPlace c s) s.table = items
  obtain ⟨r, hr, hkey, howner, hkeep⟩ := hshown
  by_cases hlisted : k ∈ s.rows.map c.key
  · refine Or.inl ?_
    rw [rows_listed, List.map_append]
    exact List.mem_append_left _ hlisted
  have hafter : after c (lastPlace c s) r = true := by
    rcases h.resolve_left hlisted with ⟨-, hempty | ⟨r', hr', hkey', hafter⟩⟩
    · simp [lastPlace, hempty, after]
    · obtain rfl := hwalked.unique.eq hr' hr (hkey'.trans hkey.symm)
      exact hafter
  by_cases hmem : r ∈ items
  · refine Or.inl ?_
    rw [rows_listed, List.map_append]
    exact List.mem_append_right _ (hkey ▸ List.mem_map_of_mem hmem)
  · -- the row comes after the last of a full page
    have hselected : selected c owner keep (lastPlace c s) r = true :=
      selected_eq_true.mpr ⟨howner, hkeep, hafter⟩
    rw [← hitems] at hmem
    obtain ⟨hfull, hbefore⟩ := of_not_mem_page hwalked.unique hr hselected hmem
    rw [hitems] at hfull hbefore
    rcases listed_position (c := c) limit s items with ⟨-, hnone⟩ | ⟨l, -, hl, hlast, hposition⟩
    · have hnonempty : items ≠ [] := by
        intro hnil
        simp [hnil] at hfull
        omega
      simp [nextBeforeId, hfull, hnonempty] at hnone
    · refine Or.inr ⟨by simp [hposition], Or.inr ⟨r, hr, hkey, ?_⟩⟩
      rw [lastPlace, hlast, Option.map_some]
      exact after_iff.mpr (hbefore l (List.mem_of_getLast? hl))

theorem Covered.keeps (hlimit : 1 ≤ limit) (hchanges : Growing c changes)
    (h : Covered c k s) (hwalked : Walked c owner s)
    (hshown : a = .select → Shown c owner keep k s.table)
    (hstep : Step c changes owner keep limit s a u) : Covered c k u := by
  cases hstep with
  | change hchange => exact h.change hchanges hchange
  | resolve hposition => exact h.imp id fun hcovered => ⟨by simp, hcovered.2⟩
  | select hposition =>
    rw [hwalked.resolved _ hposition]
    exact h.select hlimit hwalked (hshown rfl)

theorem run_walked {ms : History (State R K T) (Action R)} (hchanges : Growing c changes)
    (ht : UniqueKeys c.key t) (h : Run (Step c changes owner keep limit) (start t) ms s) :
    Walked c owner s :=
  h.invariant (walked_start ht) fun _ _ _ hwalked hstep => hwalked.keeps hchanges hstep

/-- A row that is there and kept at every fetch is listed once the walk is finished. -/
theorem mem_of_finished {ms : History (State R K T) (Action R)} (hlimit : 1 ≤ limit)
    (hchanges : Growing c changes) (ht : UniqueKeys c.key t)
    (h : Run (Step c changes owner keep limit) (start t) ms s)
    (hshown : ∀ m ∈ ms, m.act = .select → Shown c owner keep k m.pre.table)
    (hfinished : s.position = .finished) : k ∈ s.rows.map c.key := by
  have hguard := always_iff_forall_mem.mpr hshown
  have hcovered := (h.guarded (J := fun _ s => Walked c owner s ∧ Covered c k s)
    (P := fun _ _ => True)
    ⟨walked_start ht, Or.inr ⟨by simp [start], Or.inl rfl⟩⟩
    (fun past x a y hinv hguard hstep => ⟨trivial, hinv.1.keeps hchanges hstep,
      hinv.2.keeps hlimit hchanges hinv.1 hguard hstep⟩) hguard).2.2
  rcases hcovered with hlisted | ⟨hopen, -⟩
  · exact hlisted
  · exact absurd hfinished hopen

/-- Rows that are in the same places are as many. -/
theorem remaining_change (hunique : UniqueKeys c.key t)
    (hsub : t.map (place c) ⊆ s.table.map (place c)) :
    remaining c owner { s with table := t } ≤ remaining c owner s := by
  have hcolumns (rows : List R) :
      (rows.countP fun r => c.owner r = owner ∧ after c (lastPlace c s) r = true) =
        (rows.map (place c)).countP fun x => x.1 = owner ∧
          after ⟨Prod.fst, fun x => x.2.2, fun x => x.2.1⟩ (lastPlace c s) x = true := by
    rw [List.countP_map]
    rfl
  have hnodup : (t.map (place c)).Nodup := by
    have hkeys : ((t.map (place c)).map fun x => x.2.2).Nodup := by
      rw [List.map_map]
      exact hunique
    exact hkeys.of_map
  have hlast : lastPlace c { s with table := t } = lastPlace c s := rfl
  unfold remaining
  rw [hlast, hcolumns, hcolumns]
  exact (hnodup.subperm hsub).countP_le _

/-- A full page is taken off the rows that remain. -/
theorem remaining_listed (h : Walked c owner s) {l : R}
    (hl : (page c owner keep limit (lastPlace c s) s.table).getLast? = some l)
    (hlast : (listed c limit s (page c owner keep limit (lastPlace c s) s.table)).rows.getLast? =
      some l) :
    remaining c owner (listed c limit s (page c owner keep limit (lastPlace c s) s.table)) +
        (page c owner keep limit (lastPlace c s) s.table).length ≤ remaining c owner s := by
  have hdescending : Descending c (page c owner keep limit (lastPlace c s) s.table) :=
    descending_page h.unique
  have hmem : ∀ r ∈ page c owner keep limit (lastPlace c s) s.table,
      r ∈ s.table ∧ selected c owner keep (lastPlace c s) r = true := fun _ => mem_page
  generalize page c owner keep limit (lastPlace c s) s.table = items at *
  have hplace : lastPlace c (listed c limit s items) = some (c.time l, c.key l) := by
    rw [lastPlace, hlast, Option.map_some]
  have hselected : after c (lastPlace c s) l = true :=
    (selected_eq_true.mp (hmem l (List.mem_of_getLast? hl)).2).2.2
  -- what comes after the last of the page, and the page itself
  have hnodup : (s.table.filter (fun r => c.owner r = owner ∧
      after c (some (c.time l, c.key l)) r = true) ++ items).Nodup := by
    refine List.nodup_append.mpr ⟨h.unique.of_map.filter _, ?_, ?_⟩
    · exact hdescending.imp fun hlt heq => (heq ▸ hlt).false
    · intro r hr r' hr' heq
      subst heq
      have hafter := (of_decide_eq_true (List.mem_filter.mp hr).2).2
      exact (after_iff.mp hafter).not_ge (hdescending.last_le hl hr')
  have hsub : s.table.filter (fun r => c.owner r = owner ∧
      after c (some (c.time l, c.key l)) r = true) ++ items ⊆
        s.table.filter (fun r => c.owner r = owner ∧ after c (lastPlace c s) r = true) := by
    intro r hr
    rcases List.mem_append.mp hr with hlater | hitem
    · obtain ⟨hrow, hlater⟩ := List.mem_filter.mp hlater
      obtain ⟨howner, hafter⟩ := of_decide_eq_true hlater
      have hbefore := after_of_lt (after_iff.mp hafter) hselected
      exact List.mem_filter.mpr ⟨hrow, decide_eq_true ⟨howner, hbefore⟩⟩
    · obtain ⟨hrow, hitem⟩ := hmem r hitem
      obtain ⟨howner, -, hafter⟩ := selected_eq_true.mp hitem
      exact List.mem_filter.mpr ⟨hrow, decide_eq_true ⟨howner, hafter⟩⟩
  have hlength := (hnodup.subperm hsub).length_le
  rw [List.length_append] at hlength
  rw [remaining, remaining, hplace, List.countP_eq_length_filter, List.countP_eq_length_filter]
  exact hlength

theorem pagesLeft_of_open (h : s.position ≠ .finished) :
    pagesLeft c owner s = 1 + remaining c owner s := by
  unfold pagesLeft
  split
  · rename_i hfinished
    exact absurd hfinished h
  · rfl

/-- Without insertions, each page takes one of those that are left. -/
theorem pagesLeft_step (hlimit : 1 ≤ limit) (hchanges : Growing c changes)
    (h : Walked c owner s) (hstep : Step c changes owner keep limit s a u)
    (hinserts : ¬ Inserts c ⟨s, a, u⟩) :
    fetches [⟨s, a, u⟩] + pagesLeft c owner u ≤ pagesLeft c owner s := by
  cases hstep with
  | @change t hchange =>
    have hsub : t.map (place c) ⊆ s.table.map (place c) := by
      by_contra hnew
      exact hinserts ⟨t, rfl, hnew⟩
    have hremaining : remaining c owner { s with table := t } ≤ remaining c owner s :=
      remaining_change (hchanges.unique _ _ hchange h.unique) hsub
    by_cases hfinished : s.position = .finished
    · simp [pagesLeft, hfinished, fetches, Action.isSelect]
    · have hleft : pagesLeft c owner { s with table := t } =
          1 + remaining c owner { s with table := t } := pagesLeft_of_open hfinished
      rw [pagesLeft_of_open hfinished, hleft]
      simpa [fetches, Action.isSelect] using hremaining
  | @resolve beforeId hposition =>
    have hsame : remaining c owner
        { s with position := .resolved (cursor c beforeId s.table) } = remaining c owner s := rfl
    rw [pagesLeft_of_open (by simp), pagesLeft_of_open (by simp [hposition]), hsame]
    simp [fetches, Action.isSelect]
  | select hposition =>
    have hopen : s.position ≠ .finished := by simp [hposition]
    rw [pagesLeft_of_open hopen, h.resolved _ hposition]
    rcases listed_position (c := c) limit s
      (page c owner keep limit (lastPlace c s) s.table) with ⟨hfinished, -⟩ | hnext
    · simp [pagesLeft, hfinished, fetches, Action.isSelect]
    · obtain ⟨l, hfull, hl, hlast, hnext⟩ := hnext
      have hremaining := remaining_listed h hl hlast
      rw [pagesLeft_of_open (by simp [hnext])]
      simp only [fetches, List.countP_singleton, Action.isSelect, if_true]
      omega

theorem fetches_le {ms : History (State R K T) (Action R)} (hlimit : 1 ≤ limit)
    (hchanges : Growing c changes) (hwalked : Walked c owner s)
    (h : Run (Step c changes owner keep limit) s ms u) (hinserts : ∀ m ∈ ms, ¬ Inserts c m) :
    fetches ms + pagesLeft c owner u ≤ pagesLeft c owner s := by
  refine (h.guarded (J := fun past y => Walked c owner y ∧
    fetches past + pagesLeft c owner y ≤ pagesLeft c owner s) (P := fun _ _ => True)
    ⟨hwalked, by simp [fetches]⟩ ?_ (always_iff_forall_mem.mpr hinserts)).2.2
  intro past x a y hinv hguard hstep
  refine ⟨trivial, hinv.1.keeps hchanges hstep, ?_⟩
  have hleft := pagesLeft_step hlimit hchanges hinv.1 hstep hguard
  have hcount : fetches (⟨x, a, y⟩ :: past) = fetches [⟨x, a, y⟩] + fetches past := by
    rw [fetches, ← List.singleton_append, List.countP_append]
    rfl
  have hpast := hinv.2
  omega

end Runs

/-- What a client can rely on who follows the cursors. -/
structure Complete (changes : List R → List R → Prop) (owner : E) (keep : R → Bool)
    (limit : ℕ) : Prop where
  /-- Newest first over all pages, and no row twice. -/
  descending : ∀ t ms (s : State R K T), UniqueKeys c.key t →
    Run (Step c changes owner keep limit) (start t) ms s →
      Descending c s.rows ∧ (s.rows.map c.key).Nodup
  /-- A row that is there and kept whenever a page is fetched is on one of them. -/
  once : ∀ t ms (s : State R K T) k, UniqueKeys c.key t →
    Run (Step c changes owner keep limit) (start t) ms s → s.position = .finished →
      (∀ m ∈ ms, m.act = .select → Shown c owner keep k m.pre.table) →
        (s.rows.map c.key).count k = 1
  /-- Where nothing is inserted any more, the pages run out, and the walk is never stuck. -/
  ends : ∀ t ms (s : State R K T) ms' s', UniqueKeys c.key t →
    Run (Step c changes owner keep limit) (start t) ms s →
      Run (Step c changes owner keep limit) s ms' s' → (∀ m ∈ ms', ¬ Inserts c m) →
        fetches ms' ≤ 1 + s.table.length ∧
          (s'.position = .finished ∨
            ∃ a u, (a = .resolve ∨ a = .select) ∧ Step c changes owner keep limit s' a u)

theorem pagesLeft_le (owner : E) (s : State R K T) :
    pagesLeft c owner s ≤ 1 + s.table.length := by
  have hcount : remaining c owner s ≤ s.table.length := List.countP_le_length
  unfold pagesLeft
  split <;> omega

/-- Growing tables are listed completely, whatever is in the way. -/
theorem complete {changes : List R → List R → Prop} (hchanges : Growing c changes) (owner : E)
    (keep : R → Bool) {limit : ℕ} (hlimit : 1 ≤ limit) :
    Complete c changes owner keep limit where
  descending t ms s ht hrun := by
    have hwalked := run_walked hchanges ht hrun
    exact ⟨hwalked.descending, hwalked.nodup⟩
  once t ms s k ht hrun hfinished hshown :=
    List.count_eq_one_of_mem (run_walked hchanges ht hrun).nodup
      (mem_of_finished hlimit hchanges ht hrun hshown hfinished)
  ends t ms s ms' s' ht hrun hmore hinserts := by
    have hfetches := fetches_le hlimit hchanges (run_walked hchanges ht hrun) hmore hinserts
    have hleft := pagesLeft_le c owner s
    refine ⟨by omega, ?_⟩
    cases hposition : s'.position with
    | next beforeId => exact Or.inr ⟨_, _, Or.inl rfl, .resolve hposition⟩
    | resolved cursor => exact Or.inr ⟨_, _, Or.inr rfl, .select hposition⟩
    | finished => exact Or.inl rfl

end Hooktrace.PagedWalk
