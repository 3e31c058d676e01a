import Hooktrace.Table
import Mathlib.Data.Prod.Lex

/-!
Keyset pagination. A page lists the rows of one owner that a filter keeps, newest first
with the primary key to break ties, and starts after the row that a cursor names. The
cursor is resolved by a query of its own: here by the key alone, whoever owns the row. Two
tables with the same rows of the owner give the same page for every cursor but one that
names no row of the owner (`list_determined_iff`).
-/
namespace Hooktrace.Keyset

open Table

structure Columns (R E K T : Type*) where
  owner : R → E
  key : R → K
  time : R → T

variable {R E K T : Type*} (c : Columns R E K T)

section Cursor

variable [DecidableEq K]

/-- `SELECT time, key WHERE key = before_id`. -/
def cursor (beforeId : Option K) (t : List R) : Option (T × K) :=
  beforeId.bind fun id => (find c.key id t).map fun r => (c.time r, c.key r)

/-- The tables hold the same rows of the owner. -/
def SameRows (owner : E) (t t' : List R) : Prop :=
  ∀ r, c.owner r = owner → (r ∈ t ↔ r ∈ t')

/-- A cursor among the owner's rows is the same in both tables. -/
theorem cursor_congr_of_owned {c : Columns R E K T} {owner : E} {t t' : List R} {id : K} {r : R}
    (ht : UniqueKeys c.key t) (ht' : UniqueKeys c.key t') (hsame : SameRows c owner t t')
    (hr : r ∈ t) (howner : c.owner r = owner) (hkey : c.key r = id) :
    cursor c (some id) t = cursor c (some id) t' := by
  subst hkey
  have hfind := find_of_mem ht hr
  have hfind' := find_of_mem ht' ((hsame r howner).mp hr)
  simp [cursor, hfind, hfind']

end Cursor

theorem exists_older [LinearOrder T] [NoMinOrder T] [Nonempty T] (t : List R) :
    ∃ ts, ∀ r ∈ t, ts < c.time r := by
  induction t with
  | nil => exact ⟨Classical.arbitrary T, by simp⟩
  | cons r t ih =>
    obtain ⟨ts, hts⟩ := ih
    obtain ⟨ts', hlt⟩ := exists_lt (min ts (c.time r))
    refine ⟨ts', ?_⟩
    intro r' hr'
    rcases List.mem_cons.mp hr' with rfl | htail
    · exact hlt.trans_le (min_le_right _ _)
    · exact (hlt.trans_le (min_le_left _ _)).trans (hts r' htail)

variable [LinearOrder K] [LinearOrder T]

/-- `ORDER BY time DESC, key DESC`. -/
def newestFirst (r r' : R) : Bool :=
  c.time r' < c.time r ∨ (c.time r' = c.time r ∧ c.key r' ≤ c.key r)

/-- `time < ts OR (time = ts AND key < id)`; every row where there is no cursor. -/
def after (cursor : Option (T × K)) (r : R) : Bool :=
  match cursor with
  | none => true
  | some (ts, id) => c.time r < ts ∨ (c.time r = ts ∧ c.key r < id)

section Order

variable {c} {t t' : List R}

theorem newestFirst_eq_true {r r' : R} : newestFirst c r r' = true ↔
    toLex (c.time r', c.key r') ≤ toLex (c.time r, c.key r) := by
  simp [newestFirst, Prod.Lex.toLex_le_toLex]

theorem pairwise_newestFirst (rows : List R) :
    (rows.mergeSort (newestFirst c)).Pairwise fun r r' => newestFirst c r r' = true := by
  refine List.pairwise_mergeSort ?_ ?_ rows
  · intro r₁ r₂ r₃ h₁₂ h₂₃
    rw [newestFirst_eq_true] at h₁₂ h₂₃ ⊢
    exact le_trans h₂₃ h₁₂
  · intro r₁ r₂
    rw [Bool.or_eq_true, newestFirst_eq_true, newestFirst_eq_true]
    exact le_total _ _

/-- The order of the rows in the table does not show: the key decides every tie. -/
theorem mergeSort_eq_of_perm {rows rows' : List R} (hunique : UniqueKeys c.key rows)
    (hperm : rows.Perm rows') :
    rows.mergeSort (newestFirst c) = rows'.mergeSort (newestFirst c) := by
  have hsorted : (rows.mergeSort (newestFirst c)).Perm (rows'.mergeSort (newestFirst c)) :=
    (List.mergeSort_perm _ _).trans (hperm.trans (List.mergeSort_perm _ _).symm)
  refine hsorted.eq_of_pairwise ?_ (pairwise_newestFirst rows) (pairwise_newestFirst rows')
  intro r r' hr hr' hle hge
  rw [newestFirst_eq_true] at hle hge
  have hplace := toLex.injective (le_antisymm hge hle)
  exact hunique.eq ((List.mergeSort_perm _ _).mem_iff.mp hr)
    (hperm.mem_iff.mpr ((List.mergeSort_perm _ _).mem_iff.mp hr')) (Prod.mk.inj hplace).2

end Order

variable [DecidableEq E]

/-- The WHERE clause of the page query. -/
def selected (owner : E) (keep : R → Bool) (cursor : Option (T × K)) (r : R) : Bool :=
  c.owner r = owner ∧ keep r ∧ after c cursor r

def page (owner : E) (keep : R → Bool) (limit : ℕ) (cursor : Option (T × K)) (t : List R) :
    List R :=
  ((t.filter (selected c owner keep cursor)).mergeSort (newestFirst c)).take limit

/-- The two queries of a listing. -/
def list (owner : E) (keep : R → Bool) (limit : ℕ) (beforeId : Option K) (t : List R) : List R :=
  page c owner keep limit (cursor c beforeId t) t

section Lemmas

variable {c} {owner : E} {keep : R → Bool} {limit : ℕ} {t t' : List R}

theorem selected_eq_true {cursor : Option (T × K)} {r : R} :
    selected c owner keep cursor r = true ↔
      c.owner r = owner ∧ keep r = true ∧ after c cursor r = true := by
  simp [selected]

/-- A page shows nothing but the owner's rows and the cursor. -/
theorem page_congr {cursor : Option (T × K)} (ht : UniqueKeys c.key t)
    (ht' : UniqueKeys c.key t') (hsame : SameRows c owner t t') :
    page c owner keep limit cursor t = page c owner keep limit cursor t' := by
  have hperm : (t.filter (selected c owner keep cursor)).Perm
      (t'.filter (selected c owner keep cursor)) := by
    refine (List.perm_ext_iff_of_nodup (ht.of_map.filter _) (ht'.of_map.filter _)).mpr ?_
    intro r
    rw [List.mem_filter, List.mem_filter, selected_eq_true]
    constructor
    · intro hr
      exact ⟨(hsame r hr.2.1).mp hr.1, hr.2⟩
    · intro hr
      exact ⟨(hsame r hr.2.1).mpr hr.1, hr.2⟩
  unfold page
  rw [mergeSort_eq_of_perm ((List.filter_sublist.map c.key).nodup ht) hperm]

theorem page_eq_nil_iff {cursor : Option (T × K)} : page c owner keep limit cursor t = [] ↔
    limit = 0 ∨ ∀ r ∈ t, selected c owner keep cursor r = false := by
  rw [page, List.take_eq_nil_iff, ← List.length_eq_zero_iff (l := List.mergeSort _ _),
    List.length_mergeSort, List.length_eq_zero_iff, List.filter_eq_nil_iff]
  simp

/-- A key that names no row of the owner can be given to a row of somebody else that is older
than all of the owner's rows. -/
theorem exists_decoy [NoMinOrder T] [Nonempty T] (keep : R → Bool) {id : K}
    (hrow : ∀ ts id, ∃ r, c.owner r ≠ owner ∧ c.key r = id ∧ c.time r = ts)
    (ht : UniqueKeys c.key t) (hforeign : ∀ r ∈ t, c.owner r = owner → c.key r ≠ id) :
    ∃ t', UniqueKeys c.key t' ∧ SameRows c owner t t' ∧
      ∀ r ∈ t', selected c owner keep (cursor c (some id) t') r = false := by
  obtain ⟨ts, hts⟩ := exists_older (c := c) t
  obtain ⟨decoy, howner, hkey, htime⟩ := hrow ts id
  refine ⟨decoy :: t.filter (fun r => c.owner r = owner), ?_, ?_, ?_⟩
  · simp only [UniqueKeys, List.map_cons, List.nodup_cons]
    refine ⟨?_, (List.filter_sublist.map c.key).nodup ht⟩
    intro hmem
    obtain ⟨r, hr, hsame⟩ := List.mem_map.mp hmem
    obtain ⟨hr, hmine⟩ := List.mem_filter.mp hr
    exact hforeign r hr (by simpa using hmine) (hsame.trans hkey)
  · intro r hmine
    have hne : r ≠ decoy := by
      intro h
      exact howner (h ▸ hmine)
    simp [hne, hmine]
  · intro r hr
    have hcursor : cursor c (some id) (decoy :: t.filter fun r => c.owner r = owner) =
        some (ts, id) := by simp [cursor, find, hkey, htime]
    rw [hcursor]
    rcases List.mem_cons.mp hr with rfl | hmine
    · simp [selected, howner]
    · have hlater := hts r (List.mem_filter.mp hmine).1
      have hnot : after c (some (ts, id)) r = false := by
        simp [after, hlater.le, hlater.ne']
      simp [selected, hnot]

/-- The owner's rows determine the listing exactly where the cursor names one of them, or
nothing could be listed anyway. -/
theorem list_determined_iff [NoMinOrder T] [Nonempty T] {beforeId : Option K}
    (hrow : ∀ ts id, ∃ r, c.owner r ≠ owner ∧ c.key r = id ∧ c.time r = ts)
    (ht : UniqueKeys c.key t) :
    (∀ t', UniqueKeys c.key t' → SameRows c owner t t' →
      list c owner keep limit beforeId t' = list c owner keep limit beforeId t) ↔
    (∀ id, beforeId = some id → ∃ r ∈ t, c.owner r = owner ∧ c.key r = id) ∨ limit = 0 ∨
      ∀ r ∈ t, c.owner r = owner → keep r = false := by
  constructor
  · intro hall
    by_contra hnot
    push Not at hnot
    obtain ⟨⟨id, rfl, hforeign⟩, hlimit, r, hr, howner, hkeep⟩ := hnot
    have hforeign' : ∀ r ∈ t, c.owner r = owner → c.key r ≠ id := hforeign
    -- with the owner's rows alone the key is unknown, and the page is not empty
    have hmine := hall (t.filter fun r => c.owner r = owner)
      ((List.filter_sublist.map c.key).nodup ht) (by intro r hmine; simp [hmine])
    have hunknown : cursor c (some id) (t.filter fun r => c.owner r = owner) = none := by
      have hnone : find c.key id (t.filter fun r => c.owner r = owner) = none := by
        rw [find, List.find?_eq_none]
        intro r' hr'
        have hr' := List.mem_filter.mp hr'
        simpa using hforeign' r' hr'.1 (by simpa using hr'.2)
      simp [cursor, hnone]
    obtain ⟨t', ht', hsame, hempty⟩ := exists_decoy keep hrow ht hforeign'
    have hdecoy := hall t' ht' hsame
    rw [list, page_eq_nil_iff.mpr (Or.inr hempty)] at hdecoy
    rw [← hdecoy, list, hunknown, page_eq_nil_iff] at hmine
    rcases hmine with hzero | hnone
    · exact hlimit hzero
    · have hselected : selected c owner keep none r = true :=
        selected_eq_true.mpr ⟨howner, by simpa using hkeep, rfl⟩
      have hmem : r ∈ t.filter fun r => c.owner r = owner := by simp [hr, howner]
      simp [hnone r hmem] at hselected
  · intro hcond t' ht' hsame
    rcases hcond with hcursor | hlimit | hnone
    · have hsameCursor : cursor c beforeId t = cursor c beforeId t' := by
        cases beforeId with
        | none => rfl
        | some id =>
          obtain ⟨r, hr, howner, hkey⟩ := hcursor id rfl
          exact cursor_congr_of_owned ht ht' hsame hr howner hkey
      rw [list, list, hsameCursor]
      exact (page_congr ht ht' hsame).symm
    · rw [list, list, page_eq_nil_iff.mpr (Or.inl hlimit), page_eq_nil_iff.mpr (Or.inl hlimit)]
    · have hempty : ∀ cursor, ∀ r ∈ t, selected c owner keep cursor r = false := by
        intro cursor r hr
        by_cases howner : c.owner r = owner
        · simp [selected, hnone r hr howner]
        · simp [selected, howner]
      have hempty' : ∀ cursor, ∀ r ∈ t', selected c owner keep cursor r = false := by
        intro cursor r hr
        by_cases howner : c.owner r = owner
        · exact hempty cursor r ((hsame r howner).mpr hr)
        · simp [selected, howner]
      rw [list, list, page_eq_nil_iff.mpr (Or.inr (hempty _)),
        page_eq_nil_iff.mpr (Or.inr (hempty' _))]

end Lemmas

/-- Where bigints end, `2 ^ 63`. -/
def bigintBound : ℤ := 0x8000000000000000

/-- The rows that a LIMIT admits: it takes a bigint that is not negative. -/
def limitRows (limit : ℤ) : Option ℕ :=
  if 0 ≤ limit ∧ limit < bigintBound then some limit.toNat else none

/-- A listing with a filter and a limit that the server may reject. -/
def query (owner : E) (keep : Option (R → Bool)) (limit : ℤ) (beforeId : Option K) (t : List R) :
    Option (List R) :=
  match keep, limitRows limit with
  | some keep, some limit => some (list c owner keep limit beforeId t)
  | _, _ => none

/-- The cursor names a row of the owner, or nothing could be listed anyway. -/
def CursorHarmless (owner : E) (keep : Option (R → Bool)) (limit : ℤ) (beforeId : Option K)
    (t : List R) : Prop :=
  (∀ id, beforeId = some id → ∃ r ∈ t, c.owner r = owner ∧ c.key r = id) ∨
    limit ≤ 0 ∨ bigintBound ≤ limit ∨
    ∀ p, keep = some p → ∀ r ∈ t, c.owner r = owner → p r = false

theorem limitRows_cases (limit : ℤ) :
    (limitRows limit = none ∧ (limit < 0 ∨ bigintBound ≤ limit)) ∨
      (limitRows limit = some limit.toNat ∧ 0 ≤ limit ∧ limit < bigintBound) := by
  unfold limitRows
  split
  · rename_i hlimit
    exact Or.inr ⟨rfl, hlimit⟩
  · exact Or.inl ⟨rfl, by omega⟩

variable {c} in
theorem query_determined_iff [NoMinOrder T] [Nonempty T] {owner : E} {keep : Option (R → Bool)}
    {limit : ℤ} {beforeId : Option K} {t : List R}
    (hrow : ∀ ts id, ∃ r, c.owner r ≠ owner ∧ c.key r = id ∧ c.time r = ts)
    (ht : UniqueKeys c.key t) :
    (∀ t', UniqueKeys c.key t' → SameRows c owner t t' →
      query c owner keep limit beforeId t' = query c owner keep limit beforeId t) ↔
    CursorHarmless c owner keep limit beforeId t := by
  cases keep with
  | none => simp [query, CursorHarmless]
  | some keep =>
    rcases limitRows_cases limit with ⟨hnone, hlimit⟩ | ⟨hsome, hpos, hlt⟩
    · have hrejected : limit ≤ 0 ∨ bigintBound ≤ limit := hlimit.imp_left le_of_lt
      simp only [query, hnone, CursorHarmless, implies_true, true_iff]
      rcases hrejected with hneg | hlarge
      · exact Or.inr (Or.inl hneg)
      · exact Or.inr (Or.inr (Or.inl hlarge))
    · have hzero : limit.toNat = 0 ↔ limit ≤ 0 := Int.toNat_eq_zero
      have hnotLarge : ¬ bigintBound ≤ limit := not_le.mpr hlt
      simp only [query, hsome, Option.some.injEq, CursorHarmless, hnotLarge, false_or]
      rw [list_determined_iff hrow ht, hzero]
      simp

end Hooktrace.Keyset
