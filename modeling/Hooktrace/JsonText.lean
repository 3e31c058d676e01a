import Hooktrace.Json

/-!
What a JSON text says. `Reads s value rest` follows the grammar: a value is read off the front
of a text, a number as far as its characters go. There is no bound on nesting or digits, no
constant besides the three of the grammar, and a text says one value at most (`Says.unique`).
-/
namespace Hooktrace.JsonText

open Json

def Digits (s : List Char) : Prop := s ≠ [] ∧ ∀ c ∈ s, isDigit c = true

/-- `-? int frac? exp?`. -/
inductive Number : List Char → Prop
  | mk {sign int fraction exponent : List Char} : sign = [] ∨ sign = ['-'] → Digits int →
      (int.head? = some '0' → int = ['0']) →
      (fraction = [] ∨ ∃ digits, Digits digits ∧ fraction = '.' :: digits) →
      (exponent = [] ∨ ∃ e sign digits, (e = 'e' ∨ e = 'E') ∧
        (sign = [] ∨ sign = ['+'] ∨ sign = ['-']) ∧ Digits digits ∧
        exponent = e :: sign ++ digits) →
      Number (sign ++ int ++ fraction ++ exponent)

def isNumberChar (c : Char) : Bool :=
  isDigit c ∨ c = '+' ∨ c = '-' ∨ c = '.' ∨ c = 'e' ∨ c = 'E'

mutual

inductive Reads : List Char → Value → List Char → Prop
  | literalNull {rest : List Char} : Reads ('n' :: 'u' :: 'l' :: 'l' :: rest) .null rest
  | literalTrue {rest : List Char} : Reads ('t' :: 'r' :: 'u' :: 'e' :: rest) (.bool true) rest
  | literalFalse {rest : List Char} :
      Reads ('f' :: 'a' :: 'l' :: 's' :: 'e' :: rest) (.bool false) rest
  | number {s : List Char} : Number (s.takeWhile isNumberChar) →
      Reads s (.number (s.takeWhile isNumberChar)) (s.dropWhile isNumberChar)
  | string {s rest : List Char} {text : PyStr} : scanString s = some (text, rest) →
      Reads ('"' :: s) (.string text) rest
  | emptyArray {s rest : List Char} : skipSpace s = ']' :: rest →
      Reads ('[' :: s) (.array []) rest
  | array {s rest : List Char} {items : List Value} : ReadsItems (skipSpace s) items rest →
      Reads ('[' :: s) (.array items) rest
  | emptyObject {s rest : List Char} : skipSpace s = '}' :: rest →
      Reads ('{' :: s) (.object []) rest
  | object {s rest : List Char} {members : List (PyStr × Value)} :
      ReadsMembers (skipSpace s) members rest → Reads ('{' :: s) (.object members) rest

inductive ReadsItems : List Char → List Value → List Char → Prop
  | last {s t rest : List Char} {value : Value} : Reads s value t →
      skipSpace t = ']' :: rest → ReadsItems s [value] rest
  | cons {s t more rest : List Char} {value : Value} {items : List Value} : Reads s value t →
      skipSpace t = ',' :: more → ReadsItems (skipSpace more) items rest →
      ReadsItems s (value :: items) rest

inductive ReadsMembers : List Char → List (PyStr × Value) → List Char → Prop
  | last {s t u v rest : List Char} {key : PyStr} {value : Value} :
      scanString s = some (key, t) → skipSpace t = ':' :: u → Reads (skipSpace u) value v →
      skipSpace v = '}' :: rest → ReadsMembers ('"' :: s) [(key, value)] rest
  | cons {s t u v more rest : List Char} {key : PyStr} {value : Value}
      {members : List (PyStr × Value)} :
      scanString s = some (key, t) → skipSpace t = ':' :: u → Reads (skipSpace u) value v →
      skipSpace v = ',' :: more → ReadsMembers (skipSpace more) members rest →
      ReadsMembers ('"' :: s) ((key, value) :: members) rest

end

/-- The text is one value between white space. -/
def Says (s : List Char) (value : Value) : Prop :=
  ∃ rest, Reads (skipSpace s) value rest ∧ skipSpace rest = []

theorem Number.head {s : List Char} (h : Number s) :
    ∃ c t, s = c :: t ∧ (isDigit c = true ∨ c = '-') := by
  obtain ⟨hsign, hint, -, -, -⟩ := h
  rename_i sign int fraction exponent
  obtain ⟨c, digits, rfl⟩ := List.exists_cons_of_ne_nil hint.1
  rcases hsign with rfl | rfl
  · exact ⟨c, _, rfl, Or.inl (hint.2 c List.mem_cons_self)⟩
  · exact ⟨'-', _, rfl, Or.inr rfl⟩

theorem head_of_number {c : Char} {s : List Char}
    (h : Number ((c :: s).takeWhile isNumberChar)) : isDigit c = true ∨ c = '-' := by
  obtain ⟨c', t, heq, hhead⟩ := h.head
  rw [List.takeWhile_cons] at heq
  split at heq
  · obtain ⟨rfl, -⟩ := List.cons.inj heq
    exact hhead
  · simp at heq

theorem isDigit_bounds {c : Char} (h : isDigit c = true) : 0x30 ≤ c.toNat ∧ c.toNat ≤ 0x39 := by
  simpa [isDigit, Char.le_def, UInt32.le_iff_toNat_le] using h

/-- No value begins with white space or a closing bracket. -/
theorem Reads.head_ne {s rest : List Char} {value : Value} (h : Reads s value rest) :
    ∃ c t, s = c :: t ∧ Json.isSpace c = false ∧ c ≠ ']' ∧ c ≠ '}' := by
  cases h with
  | number hnumber =>
    cases s with
    | nil =>
      obtain ⟨c, t, heq, -⟩ := hnumber.head
      simp at heq
    | cons c s =>
      refine ⟨c, s, rfl, ?_⟩
      rcases head_of_number hnumber with hdigit | rfl
      · have hbounds := isDigit_bounds hdigit
        refine ⟨?_, ?_, ?_⟩
        · rw [Json.isSpace, decide_eq_false_iff_not]
          intro hspace
          rcases hspace with rfl | rfl | rfl | rfl <;> exact absurd hbounds (by decide)
        · intro hc
          subst hc
          exact absurd hbounds (by decide)
        · intro hc
          subst hc
          exact absurd hbounds (by decide)
      · decide
  | _ => exact ⟨_, _, rfl, by decide, by decide, by decide⟩

theorem Reads.skipSpace_eq {s rest : List Char} {value : Value} (h : Reads s value rest) :
    skipSpace s = s := by
  obtain ⟨c, t, rfl, hspace, -⟩ := h.head_ne
  simp [skipSpace, hspace]

def Agrees (s : List Char) (value : Value) (rest : List Char) : Prop :=
  ∀ value' rest', Reads s value' rest' → value = value' ∧ rest = rest'

def AgreesItems (s : List Char) (items : List Value) (rest : List Char) : Prop :=
  ∀ items' rest', ReadsItems s items' rest' → items = items' ∧ rest = rest'

def AgreesMembers (s : List Char) (members : List (PyStr × Value)) (rest : List Char) : Prop :=
  ∀ members' rest', ReadsMembers s members' rest' → members = members' ∧ rest = rest'

theorem agrees_number {s : List Char} (h : Number (s.takeWhile isNumberChar)) :
    Agrees s (.number (s.takeWhile isNumberChar)) (s.dropWhile isNumberChar) := by
  intro value' rest' h'
  cases h' with
  | number => exact ⟨rfl, rfl⟩
  | _ => exact absurd (head_of_number h) (by decide)

theorem not_reads_close {c : Char} (h : c = ']' ∨ c = '}') {s rest : List Char} {value : Value} :
    ¬ Reads (c :: s) value rest := by
  intro hreads
  obtain ⟨c', t, heq, -, hbracket, hbrace⟩ := hreads.head_ne
  obtain ⟨rfl, -⟩ := List.cons.inj heq
  rcases h with rfl | rfl
  · exact hbracket rfl
  · exact hbrace rfl

mutual

theorem Reads.agrees {s rest : List Char} {value : Value} (h : Reads s value rest) :
    Agrees s value rest := by
  cases h with
  | number hnumber => exact agrees_number hnumber
  | literalNull =>
    intro value' rest' h'
    cases h' with
    | literalNull => exact ⟨rfl, rfl⟩
    | number hnumber => exact absurd (head_of_number hnumber) (by decide)
  | literalTrue =>
    intro value' rest' h'
    cases h' with
    | literalTrue => exact ⟨rfl, rfl⟩
    | number hnumber => exact absurd (head_of_number hnumber) (by decide)
  | literalFalse =>
    intro value' rest' h'
    cases h' with
    | literalFalse => exact ⟨rfl, rfl⟩
    | number hnumber => exact absurd (head_of_number hnumber) (by decide)
  | string hscan =>
    intro value' rest' h'
    cases h' with
    | string hscan' =>
      obtain ⟨rfl, rfl⟩ := Prod.mk.inj (Option.some.inj (hscan.symm.trans hscan'))
      exact ⟨rfl, rfl⟩
    | number hnumber => exact absurd (head_of_number hnumber) (by decide)
  | emptyArray hclose =>
    intro value' rest' h'
    cases h' with
    | emptyArray hclose' => exact ⟨rfl, (List.cons.inj (hclose.symm.trans hclose')).2⟩
    | array hitems =>
      rw [hclose] at hitems
      cases hitems with
      | last hvalue => exact absurd hvalue (not_reads_close (Or.inl rfl))
      | cons hvalue => exact absurd hvalue (not_reads_close (Or.inl rfl))
    | number hnumber => exact absurd (head_of_number hnumber) (by decide)
  | array hitems =>
    intro value' rest' h'
    cases h' with
    | emptyArray hclose =>
      rw [hclose] at hitems
      cases hitems with
      | last hvalue => exact absurd hvalue (not_reads_close (Or.inl rfl))
      | cons hvalue => exact absurd hvalue (not_reads_close (Or.inl rfl))
    | array hitems' =>
      obtain ⟨rfl, rfl⟩ := hitems.agrees _ _ hitems'
      exact ⟨rfl, rfl⟩
    | number hnumber => exact absurd (head_of_number hnumber) (by decide)
  | emptyObject hclose =>
    intro value' rest' h'
    cases h' with
    | emptyObject hclose' => exact ⟨rfl, (List.cons.inj (hclose.symm.trans hclose')).2⟩
    | object hmembers =>
      rw [hclose] at hmembers
      cases hmembers
    | number hnumber => exact absurd (head_of_number hnumber) (by decide)
  | object hmembers =>
    intro value' rest' h'
    cases h' with
    | emptyObject hclose =>
      rw [hclose] at hmembers
      cases hmembers
    | object hmembers' =>
      obtain ⟨rfl, rfl⟩ := hmembers.agrees _ _ hmembers'
      exact ⟨rfl, rfl⟩
    | number hnumber => exact absurd (head_of_number hnumber) (by decide)

theorem ReadsItems.agrees {s rest : List Char} {items : List Value}
    (h : ReadsItems s items rest) : AgreesItems s items rest := by
  cases h with
  | last hvalue hclose =>
    intro items' rest' h'
    cases h' with
    | last hvalue' hclose' =>
      obtain ⟨rfl, rfl⟩ := hvalue.agrees _ _ hvalue'
      exact ⟨rfl, (List.cons.inj (hclose.symm.trans hclose')).2⟩
    | cons hvalue' hcomma =>
      obtain ⟨rfl, rfl⟩ := hvalue.agrees _ _ hvalue'
      exact absurd (List.cons.inj (hclose.symm.trans hcomma)).1 (by decide)
  | cons hvalue hcomma hitems =>
    intro items' rest' h'
    cases h' with
    | last hvalue' hclose =>
      obtain ⟨rfl, rfl⟩ := hvalue.agrees _ _ hvalue'
      exact absurd (List.cons.inj (hclose.symm.trans hcomma)).1 (by decide)
    | cons hvalue' hcomma' hitems' =>
      obtain ⟨rfl, rfl⟩ := hvalue.agrees _ _ hvalue'
      obtain ⟨-, rfl⟩ := List.cons.inj (hcomma.symm.trans hcomma')
      obtain ⟨rfl, rfl⟩ := hitems.agrees _ _ hitems'
      exact ⟨rfl, rfl⟩

theorem ReadsMembers.agrees {s rest : List Char} {members : List (PyStr × Value)}
    (h : ReadsMembers s members rest) : AgreesMembers s members rest := by
  cases h with
  | last hkey hcolon hvalue hclose =>
    intro members' rest' h'
    cases h' with
    | last hkey' hcolon' hvalue' hclose' =>
      obtain ⟨rfl, rfl⟩ := Prod.mk.inj (Option.some.inj (hkey.symm.trans hkey'))
      obtain ⟨-, rfl⟩ := List.cons.inj (hcolon.symm.trans hcolon')
      obtain ⟨rfl, rfl⟩ := hvalue.agrees _ _ hvalue'
      exact ⟨rfl, (List.cons.inj (hclose.symm.trans hclose')).2⟩
    | cons hkey' hcolon' hvalue' hcomma =>
      obtain ⟨rfl, rfl⟩ := Prod.mk.inj (Option.some.inj (hkey.symm.trans hkey'))
      obtain ⟨-, rfl⟩ := List.cons.inj (hcolon.symm.trans hcolon')
      obtain ⟨rfl, rfl⟩ := hvalue.agrees _ _ hvalue'
      exact absurd (List.cons.inj (hclose.symm.trans hcomma)).1 (by decide)
  | cons hkey hcolon hvalue hcomma hmembers =>
    intro members' rest' h'
    cases h' with
    | last hkey' hcolon' hvalue' hclose =>
      obtain ⟨rfl, rfl⟩ := Prod.mk.inj (Option.some.inj (hkey.symm.trans hkey'))
      obtain ⟨-, rfl⟩ := List.cons.inj (hcolon.symm.trans hcolon')
      obtain ⟨rfl, rfl⟩ := hvalue.agrees _ _ hvalue'
      exact absurd (List.cons.inj (hclose.symm.trans hcomma)).1 (by decide)
    | cons hkey' hcolon' hvalue' hcomma' hmembers' =>
      obtain ⟨rfl, rfl⟩ := Prod.mk.inj (Option.some.inj (hkey.symm.trans hkey'))
      obtain ⟨-, rfl⟩ := List.cons.inj (hcolon.symm.trans hcolon')
      obtain ⟨rfl, rfl⟩ := hvalue.agrees _ _ hvalue'
      obtain ⟨-, rfl⟩ := List.cons.inj (hcomma.symm.trans hcomma')
      obtain ⟨rfl, rfl⟩ := hmembers.agrees _ _ hmembers'
      exact ⟨rfl, rfl⟩

end

/-- A text says one value at most. -/
theorem Says.unique {s : List Char} {value value' : Value} (h : Says s value)
    (h' : Says s value') : value = value' := by
  obtain ⟨_, hreads, -⟩ := h
  obtain ⟨_, hreads', -⟩ := h'
  exact (hreads.agrees _ _ hreads').1

end Hooktrace.JsonText
