import Hooktrace.PyText

/-!
Server-sent events, as a browser reads them: lines end at CR LF, LF or CR, a line is a field, a
comment or blank, and a blank line dispatches what the fields before it have gathered.
-/
namespace Hooktrace.EventStream

structure Event where
  type : List Char
  data : List Char
  lastEventId : List Char
  deriving DecidableEq

/-- The buffers of the reader, the reconnection time if the stream has set one, and the events
that were dispatched. -/
structure State where
  data : List Char
  eventType : List Char
  lastEventId : List Char
  retry : Option ℕ
  events : List Event
  deriving DecidableEq

def initial : State := ⟨[], [], [], none, []⟩

/-- The lines that have ended, of a line that has begun and what follows. -/
def linesFrom : List Char → List Char → List (List Char)
  | _, [] => []
  | line, '\r' :: '\n' :: s => line :: linesFrom [] s
  | line, c :: s =>
    if c = '\r' ∨ c = '\n' then line :: linesFrom [] s else linesFrom (line ++ [c]) s

def isDigit (c : Char) : Bool := '0' ≤ c ∧ c ≤ '9'

/-- A field; other names are ignored. -/
def field (s : State) (name value : List Char) : State :=
  if name = "event".toList then { s with eventType := value }
  else if name = "data".toList then { s with data := s.data ++ value ++ ['\n'] }
  else if name = "id".toList then if nul ∈ value then s else { s with lastEventId := value }
  else if name = "retry".toList ∧ value ≠ [] ∧ value.all isDigit then
    { s with retry := some (value.foldl (fun n c => 10 * n + (c.toNat - '0'.toNat)) 0) }
  else s

/-- Without data nothing is dispatched. -/
def dispatch (s : State) : State :=
  if s.data = [] then { s with eventType := [] }
  else { s with
    data := []
    eventType := []
    events := s.events ++ [{
      type := if s.eventType = [] then "message".toList else s.eventType
      data := if s.data.getLast? = some '\n' then s.data.dropLast else s.data
      lastEventId := s.lastEventId }] }

/-- One blank behind the colon is not part of the value. -/
def dropSpace : List Char → List Char
  | ' ' :: value => value
  | value => value

def readLine (s : State) (line : List Char) : State :=
  if line = [] then dispatch s
  else match cut ':' line with
    | ([], some _) => s
    | (name, some value) => field s name (dropSpace value)
    | (name, none) => field s name []

/-- What has been read of a stream; a byte order mark in front is dropped. -/
def readStream (stream : List Char) : State :=
  let text := if stream.head? = some '\uFEFF' then stream.tail else stream
  (linesFrom [] text).foldl readLine initial

section Lines

variable {line rest : List Char}

/-- Neither CR nor LF. -/
def Unbroken (line : List Char) : Prop := '\r' ∉ line ∧ '\n' ∉ line

theorem linesFrom_append (h : Unbroken line) (begun : List Char) :
    linesFrom begun (line ++ '\n' :: rest) = (begun ++ line) :: linesFrom [] rest := by
  induction line generalizing begun with
  | nil => simp [linesFrom]
  | cons c line ih =>
    obtain ⟨hcr, hcrs⟩ := List.ne_and_not_mem_of_not_mem_cons h.1
    obtain ⟨hlf, hlfs⟩ := List.ne_and_not_mem_of_not_mem_cons h.2
    rw [List.cons_append, linesFrom]
    · rw [if_neg (by simp [hcr.symm, hlf.symm]), ih ⟨hcrs, hlfs⟩]
      simp
    · rintro s rfl -
      exact hcr rfl

/-- Lines that end with LF are the lines of the text. -/
theorem linesFrom_lines {lines : List (List Char)} (h : ∀ line ∈ lines, Unbroken line) :
    linesFrom [] (lines.flatMap (· ++ ['\n']) ++ rest) = lines ++ linesFrom [] rest := by
  induction lines with
  | nil => rfl
  | cons line lines ih =>
    obtain ⟨hline, hlines⟩ := List.forall_mem_cons.mp h
    rw [List.flatMap_cons, List.append_assoc, List.append_assoc, List.singleton_append,
      linesFrom_append hline, ih hlines]
    rfl

end Lines

section Fields

variable {s : State}

theorem readLine_field {name : List Char} (hname : name ≠ []) (hcolon : ':' ∉ name)
    (value : List Char) : readLine s (name ++ ':' :: ' ' :: value) = field s name value := by
  obtain ⟨c, name, rfl⟩ := List.exists_cons_of_ne_nil hname
  rw [readLine, if_neg (by simp), cut_append hcolon]
  rfl

theorem readLine_event (value : List Char) :
    readLine s ("event: ".toList ++ value) = { s with eventType := value } :=
  @readLine_field s "event".toList (by decide) (by decide) value

theorem readLine_data (value : List Char) :
    readLine s ("data: ".toList ++ value) = { s with data := s.data ++ value ++ ['\n'] } :=
  @readLine_field s "data".toList (by decide) (by decide) value

theorem readLine_comment (text : List Char) : readLine s (':' :: text) = s := by
  have hcut : cut ':' (':' :: text) = ([], some text) := cut_append List.not_mem_nil text
  rw [readLine, if_neg (by simp), hcut]

theorem readLine_blank {data : List Char} (htype : s.eventType ≠ [])
    (hdata : s.data = data ++ ['\n']) : readLine s [] = { s with
      data := []
      eventType := []
      events := s.events ++ [⟨s.eventType, data, s.lastEventId⟩] } := by
  have hne : s.data ≠ [] := by simp [hdata]
  rw [readLine, if_pos rfl, dispatch, if_neg hne, if_neg htype]
  simp [hdata]

theorem readLine_data_lines (lines : List (List Char)) :
    (lines.map ("data: ".toList ++ ·)).foldl readLine s =
      { s with data := s.data ++ lines.flatMap (· ++ ['\n']) } := by
  induction lines generalizing s with
  | nil => simp
  | cons line lines ih =>
    rw [List.map_cons, List.foldl_cons, readLine_data, ih]
    simp

end Fields

end Hooktrace.EventStream
