import Mathlib.Data.List.Basic

/-!
The header fields of an HTTP/1.1 message on the wire, and how a recipient reads them. Whatever
is read is well formed, and what is well formed is read back, with the content behind it
untouched (`readHead_render_iff`).
-/
namespace Hooktrace.HttpHead

abbrev Field := List UInt8 × List UInt8

/-- A letter, a digit or one of ``!#$%&'*+-.^_`|~``. -/
def isTokenByte (b : UInt8) : Bool :=
  (48 ≤ b ∧ b ≤ 57) ∨ (65 ≤ b ∧ b ≤ 90) ∨ (97 ≤ b ∧ b ≤ 122) ∨
    b ∈ [33, 35, 36, 37, 38, 39, 42, 43, 45, 46, 94, 95, 96, 124, 126]

def Token (name : List UInt8) : Prop := name ≠ [] ∧ ∀ b ∈ name, isTokenByte b = true

/-- No CR, LF or NUL. -/
def FieldValue (value : List UInt8) : Prop := ∀ b ∈ value, b ≠ 13 ∧ b ≠ 10 ∧ b ≠ 0

structure WellFormed (f : Field) : Prop where
  name : Token f.1
  value : FieldValue f.2

def renderField (f : Field) : List UInt8 := f.1 ++ 58 :: 32 :: (f.2 ++ [13, 10])

/-- The fields and the empty line that ends them. -/
def render (fields : List Field) : List UInt8 := fields.flatMap renderField ++ [13, 10]

inductive Reading where
  | name (read : List UInt8)
  | colon (name : List UInt8)
  | value (name read : List UInt8)
  | valueEnd (name value : List UInt8)
  | emptyLine

/-- Read byte by byte, up to the empty line. -/
def readHead : List Field → Reading → List UInt8 → Option (List Field × List UInt8)
  | _, _, [] => none
  | fields, .name read, b :: rest =>
    if b = 13 ∧ read = [] then readHead fields .emptyLine rest
    else if b = 58 ∧ read ≠ [] then readHead fields (.colon read) rest
    else if isTokenByte b then readHead fields (.name (read ++ [b])) rest
    else none
  | fields, .colon name, b :: rest =>
    if b = 32 then readHead fields (.value name []) rest else none
  | fields, .value name read, b :: rest =>
    if b = 13 then readHead fields (.valueEnd name read) rest
    else if b = 10 ∨ b = 0 then none
    else readHead fields (.value name (read ++ [b])) rest
  | fields, .valueEnd name value, b :: rest =>
    if b = 10 then readHead (fields ++ [(name, value)]) (.name []) rest else none
  | fields, .emptyLine, b :: rest => if b = 10 then some (fields, rest) else none

def Sound : Reading → Prop
  | .name read => ∀ b ∈ read, isTokenByte b = true
  | .colon name => Token name
  | .value name read => Token name ∧ FieldValue read
  | .valueEnd name value => Token name ∧ FieldValue value
  | .emptyLine => True

section Render

variable {fields more : List Field} {name value read rest body : List UInt8} {f : Field}

theorem isTokenByte_ne {b : UInt8} (h : isTokenByte b = true) : b ≠ 13 ∧ b ≠ 58 := by
  constructor <;> intro hb <;> subst hb <;> exact absurd h (by decide)

theorem readHead_name (h : ∀ b ∈ name, isTokenByte b = true) :
    readHead fields (.name read) (name ++ rest) = readHead fields (.name (read ++ name)) rest := by
  induction name generalizing read with
  | nil => simp
  | cons b name ih =>
    obtain ⟨hb, hname⟩ := List.forall_mem_cons.mp h
    obtain ⟨hcr, hcolon⟩ := isTokenByte_ne hb
    simp [readHead, hcr, hcolon, hb, ih hname]

theorem readHead_value (h : FieldValue value) :
    readHead fields (.value name read) (value ++ rest) =
      readHead fields (.value name (read ++ value)) rest := by
  induction value generalizing read with
  | nil => simp
  | cons b value ih =>
    obtain ⟨⟨hcr, hlf, hnul⟩, hvalue⟩ := List.forall_mem_cons.mp h
    simp [readHead, hcr, hlf, hnul, ih hvalue]

theorem readHead_field (h : WellFormed f) :
    readHead fields (.name []) (renderField f ++ rest) =
      readHead (fields ++ [f]) (.name []) rest := by
  obtain ⟨⟨hne, hname⟩, hvalue⟩ := h
  have hcolon : readHead fields (.name f.1) (58 :: 32 :: (f.2 ++ 13 :: 10 :: rest)) =
      readHead fields (.value f.1 []) (f.2 ++ 13 :: 10 :: rest) := by
    simp [readHead, hne]
  have hend : readHead fields (.value f.1 f.2) (13 :: 10 :: rest) =
      readHead (fields ++ [f]) (.name []) rest := by
    simp [readHead]
  simp only [renderField, List.append_assoc, List.cons_append, List.nil_append]
  rw [readHead_name hname, List.nil_append, hcolon, readHead_value hvalue, List.nil_append, hend]

theorem readHead_fields (h : ∀ f ∈ more, WellFormed f) :
    readHead fields (.name []) (render more ++ body) = some (fields ++ more, body) := by
  induction more generalizing fields with
  | nil => simp [render, readHead]
  | cons f more ih =>
    obtain ⟨hf, hmore⟩ := List.forall_mem_cons.mp h
    have hrender : render (f :: more) ++ body = renderField f ++ (render more ++ body) := by
      simp [render]
    rw [hrender, readHead_field hf, ih hmore, List.append_assoc]
    rfl

end Render

theorem FieldValue.concat {value : List UInt8} {b : UInt8} (h : FieldValue value)
    (hb : b ≠ 13 ∧ b ≠ 10 ∧ b ≠ 0) : FieldValue (value ++ [b]) :=
  List.forall_mem_append.mpr ⟨h, List.forall_mem_singleton.mpr hb⟩

/-- Nothing else is ever read. -/
theorem wellFormed_of_readHead {bytes body : List UInt8} {fields result : List Field}
    {reading : Reading} (hfields : ∀ f ∈ fields, WellFormed f) (hsound : Sound reading)
    (h : readHead fields reading bytes = some (result, body)) : ∀ f ∈ result, WellFormed f := by
  induction bytes generalizing fields reading with
  | nil => simp [readHead] at h
  | cons b bytes ih =>
    cases reading with
    | name read =>
      simp only [readHead] at h
      split at h
      · exact ih hfields (show Sound .emptyLine from trivial) h
      · split at h
        · rename_i hcolon
          exact ih hfields (show Sound (.colon read) from ⟨hcolon.2, hsound⟩) h
        · split at h
          · rename_i htoken
            have hread : Sound (.name (read ++ [b])) :=
              List.forall_mem_append.mpr ⟨hsound, List.forall_mem_singleton.mpr htoken⟩
            exact ih hfields hread h
          · simp at h
    | colon name =>
      simp only [readHead] at h
      split at h
      · have hname : Sound (.value name []) := ⟨hsound, by simp [FieldValue]⟩
        exact ih hfields hname h
      · simp at h
    | value name read =>
      simp only [readHead] at h
      split at h
      · exact ih hfields (show Sound (.valueEnd name read) from hsound) h
      · split at h
        · simp at h
        · rename_i hcr hother
          have hread : Sound (.value name (read ++ [b])) :=
            ⟨hsound.1, hsound.2.concat ⟨hcr, not_or.mp hother⟩⟩
          exact ih hfields hread h
    | valueEnd name value =>
      simp only [readHead] at h
      split at h
      · have hmore : ∀ f ∈ fields ++ [(name, value)], WellFormed f :=
          List.forall_mem_append.mpr
            ⟨hfields, List.forall_mem_singleton.mpr ⟨hsound.1, hsound.2⟩⟩
        exact ih hmore (show Sound (.name []) by simp [Sound]) h
      · simp at h
    | emptyLine =>
      simp only [readHead] at h
      split at h
      · obtain ⟨rfl, -⟩ := Prod.mk.inj (Option.some.inj h)
        exact hfields
      · simp at h

/-- A recipient reads the fields and the content that were sent exactly where every field is
well formed. -/
theorem readHead_render_iff {fields : List Field} {body : List UInt8} :
    readHead [] (.name []) (render fields ++ body) = some (fields, body) ↔
      ∀ f ∈ fields, WellFormed f :=
  ⟨wellFormed_of_readHead (by simp) (by simp [Sound]), fun h => readHead_fields h⟩

end Hooktrace.HttpHead
