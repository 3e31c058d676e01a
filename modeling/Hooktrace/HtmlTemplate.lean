import Hooktrace.HtmlText

/-!
Templates whose values stand in quoted attributes and in front of end tags, and are escaped there.
Whatever the values are, what is written is read as the tags of the template, with the values in
their places (`run_write`), and lines may be joined in it before or after (`joinLines_write`).
-/
namespace Hooktrace.HtmlTemplate

open HtmlText

/-- What stands between the quotes: a value with a fixed text before and behind it. -/
structure Value where
  before : List Char
  shown : List Char
  behind : List Char

structure Attribute where
  space : List Char
  name : List Char
  quote : Char
  value : Value

inductive Node where
  | openTag (name : List Char) (attributes : List Attribute)
  /-- A value, and the end tag behind it. -/
  | closing (shown : List Char) (name : List Char)
  | literal (s : List Char)
  /-- A reference by number. -/
  | numeric (digits : List Char)

def Value.write (v : Value) : List Char := v.before ++ escape v.shown ++ v.behind

def Value.text (v : Value) : List Char := v.before ++ v.shown ++ v.behind

def Attribute.write (a : Attribute) : List Char :=
  a.space ++ a.name ++ '=' :: a.quote :: (a.value.write ++ [a.quote])

def Node.write : Node → List Char
  | .openTag name attributes => '<' :: name ++ attributes.flatMap Attribute.write ++ ['>']
  | .closing shown name => escape shown ++ '<' :: '/' :: name ++ ['>']
  | .literal s => s
  | .numeric digits => '&' :: '#' :: digits ++ [';']

def write (nodes : List Node) : List Char := nodes.flatMap Node.write

section Reading

def Attribute.event (a : Attribute) : Event := .attribute a.name (a.value.text.map kept)

def Node.events : Node → List Event
  | .openTag name attributes => .startTag name :: attributes.map Attribute.event ++ [.tagDone]
  | .closing shown name => shown.map .char ++ [.endTag name, .tagDone]
  | .literal s => s.map .char
  | .numeric digits => [.char (numbered (number 10 digits))]

def events (nodes : List Node) : List Event := nodes.flatMap Node.events

/-- What may be written as it is. -/
def Literal (c : Char) : Prop := Stays c ∧ c ≠ '&' ∧ c ≠ '<'

instance decidableLiteral : DecidablePred Literal :=
  fun c => inferInstanceAs (Decidable (Stays c ∧ c ≠ '&' ∧ c ≠ '<'))

def NameChar (c : Char) : Prop := c.isLower = true ∨ c = '-'

instance decidableNameChar : DecidablePred NameChar :=
  fun c => inferInstanceAs (Decidable (c.isLower = true ∨ c = '-'))

structure Value.WellFormed (quote : Char) (v : Value) : Prop where
  before : ∀ c ∈ v.before, Literal c ∧ c ≠ quote
  behind : ∀ c ∈ v.behind, Literal c ∧ c ≠ quote
  head : v.behind.head? ≠ some '\n'

structure Attribute.WellFormed (a : Attribute) : Prop where
  space : a.space ≠ [] ∧ ∀ c ∈ a.space, c = '\n' ∨ c = ' '
  name : a.name ≠ [] ∧ ∀ c ∈ a.name, NameChar c
  quote : IsQuote a.quote
  value : a.value.WellFormed a.quote

def TagName (name : List Char) : Prop := name ≠ [] ∧ ∀ c ∈ name, c.isLower = true

instance decidableTagName : DecidablePred TagName :=
  fun name => inferInstanceAs (Decidable (name ≠ [] ∧ ∀ c ∈ name, c.isLower = true))

def Node.WellFormed : Node → Prop
  | .openTag name attributes => TagName name ∧ ∀ a ∈ attributes, a.WellFormed
  | .closing _ name => TagName name
  | .literal s => ∀ c ∈ s, Literal c
  | .numeric digits => digits ≠ [] ∧ ∀ c ∈ digits, c.isDigit = true

theorem isLower_bounds {c : Char} (h : c.isLower = true) : 97 ≤ c.toNat ∧ c.toNat ≤ 122 := by
  have hvalues : (decide (c.val ≥ 'a'.val) && decide (c.val ≤ 'z'.val)) = true := h
  simpa [UInt32.le_iff_toNat_le] using hvalues

theorem NameChar.spec {c : Char} (h : NameChar c) :
    isSpace c = false ∧ c ≠ '/' ∧ c ≠ '>' ∧ c ≠ '=' ∧ kept c.toLower = c := by
  rcases h with hlower | rfl
  · obtain ⟨hlow, hhigh⟩ := isLower_bounds hlower
    have hne : ∀ d : Char, (d.toNat < 97 ∨ 122 < d.toNat) → c ≠ d := by
      rintro d hd rfl
      omega
    have hlower : c.toLower = c := by
      refine dif_neg ?_
      rintro ⟨-, hZ⟩
      have : c.toNat ≤ 90 := hZ
      omega
    refine ⟨?_, hne _ (by decide), hne _ (by decide), hne _ (by decide), ?_⟩
    · simp only [isSpace, decide_eq_false_iff_not, not_or]
      exact ⟨hne _ (by decide), hne _ (by decide), hne _ (by decide), hne _ (by decide)⟩
    · rw [hlower, kept, if_neg (hne _ (by decide))]
  · decide

variable {entities : Entities}

theorem run_spaces {spaces : List Char} (h : ∀ c ∈ spaces, c = '\n' ∨ c = ' ') :
    run entities .beforeAttributeName spaces = some (.beforeAttributeName, []) := by
  induction spaces with
  | nil => rfl
  | cons c spaces ih =>
    obtain ⟨hc, hspaces⟩ := List.forall_mem_cons.mp h
    refine run_cons ?_ (ih hspaces)
    rcases hc with rfl | rfl <;> rfl

theorem run_attributeName (read : List Char) {name : List Char} (h : ∀ c ∈ name, NameChar c) :
    run entities (.attributeName read) name = some (.attributeName (read ++ name), []) := by
  induction name generalizing read with
  | nil => simp [run]
  | cons c name ih =>
    obtain ⟨hc, hname⟩ := List.forall_mem_cons.mp h
    obtain ⟨hspace, hslash, hclose, hequals, hkept⟩ := hc.spec
    have hstep : step entities (.attributeName read) c =
        some (.attributeName (read ++ [c]), []) := by
      simp [step, plain, hspace, hslash, hclose, hequals, hkept]
    have hrest := run_cons hstep (ih (read ++ [c]) hname)
    simpa using hrest

theorem run_tagName (closing : Bool) (read : List Char) {name : List Char}
    (h : ∀ c ∈ name, NameChar c) :
    run entities (.tagName closing read) name = some (.tagName closing (read ++ name), []) := by
  induction name generalizing read with
  | nil => simp [run]
  | cons c name ih =>
    obtain ⟨hc, hname⟩ := List.forall_mem_cons.mp h
    obtain ⟨hspace, hslash, hclose, -, hkept⟩ := hc.spec
    have hstep : step entities (.tagName closing read) c =
        some (.tagName closing (read ++ [c]), []) := by
      simp [step, plain, hspace, hslash, hclose, hkept]
    have hrest := run_cons hstep (ih (read ++ [c]) hname)
    simpa using hrest

theorem run_value (hentities : Resolves entities) {quote : Char} (hquote : IsQuote quote)
    {v : Value} (h : v.WellFormed quote) (name : List Char) :
    run entities (.attributeValue quote name []) v.write =
      some (.attributeValue quote name (v.text.map kept), []) := by
  have hbefore : run entities (.attributeValue quote name []) v.before =
      some (.attributeValue quote name ([] ++ v.before.map kept), []) :=
    run_raw_value v.before name [] fun c hc => ⟨(h.before c hc).2, (h.before c hc).1.2.1⟩
  have hshown := run_escape_value hentities hquote v.shown name ([] ++ v.before.map kept)
  have hbehind : run entities
      (.attributeValue quote name ([] ++ v.before.map kept ++ v.shown.map kept)) v.behind =
      some (.attributeValue quote name
        ([] ++ v.before.map kept ++ v.shown.map kept ++ v.behind.map kept), []) :=
    run_raw_value v.behind name _ fun c hc => ⟨(h.behind c hc).2, (h.behind c hc).1.2.1⟩
  have hall := run_trans (run_trans hbefore hshown) hbehind
  simpa [Value.write, Value.text] using hall

theorem run_attribute (hentities : Resolves entities) {a : Attribute} (h : a.WellFormed) :
    run entities .beforeAttributeName (a.name ++ '=' :: a.quote :: (a.value.write ++ [a.quote])) =
      some (.afterAttributeValue, [a.event]) := by
  obtain ⟨first, name, hname⟩ := List.exists_cons_of_ne_nil h.name.1
  have hchars := h.name.2
  rw [hname] at hchars
  obtain ⟨hfirst, hrest⟩ := List.forall_mem_cons.mp hchars
  obtain ⟨hspace, hslash, hclose, -, hkept⟩ := hfirst.spec
  have hstart : step entities .beforeAttributeName first = some (.attributeName [first], []) := by
    simp [step, plain, beforeName, hspace, hslash, hclose, hkept]
  have hnamed : run entities .beforeAttributeName a.name = some (.attributeName a.name, []) := by
    rw [hname]
    exact run_cons hstart (run_attributeName [first] hrest)
  have hequals : step entities (.attributeName a.name) '=' =
      some (.beforeAttributeValue a.name, []) := rfl
  have hopen : step entities (.beforeAttributeValue a.name) a.quote =
      some (.attributeValue a.quote a.name [], []) := by
    rcases h.quote with hquote | hquote <;> rw [hquote] <;> rfl
  have hclosing : run entities (.attributeValue a.quote a.name (a.value.text.map kept))
      [a.quote] = some (.afterAttributeValue, [a.event]) := by
    rw [run_singleton]
    simp only [step, plain, if_true]
    rfl
  have hvalue := run_trans (run_value hentities h.quote h.value a.name) hclosing
  exact run_trans hnamed (run_cons hequals (run_cons hopen hvalue))

/-- A mode in which white space leads to the next attribute. -/
def Spaced (mode : Mode) (before : List Event) : Prop :=
  ∀ entities c, c = '\n' ∨ c = ' ' → step entities mode c = some (.beforeAttributeName, before)

theorem run_write_attribute (hentities : Resolves entities) {mode : Mode} {before : List Event}
    (hmode : Spaced mode before) {a : Attribute} (h : a.WellFormed) :
    run entities mode a.write = some (.afterAttributeValue, before ++ [a.event]) := by
  obtain ⟨first, spaces, hspace⟩ := List.exists_cons_of_ne_nil h.space.1
  have hspaces := h.space.2
  rw [hspace] at hspaces
  obtain ⟨hfirst, hmore⟩ := List.forall_mem_cons.mp hspaces
  have hstart : run entities mode [first] = some (.beforeAttributeName, before) := by
    rw [run_singleton, hmode entities first hfirst]
  have hattribute := run_trans (run_spaces hmore) (run_attribute hentities h)
  have hall := run_trans hstart hattribute
  simpa [Attribute.write, hspace] using hall

theorem run_attributes (hentities : Resolves entities) {attributes : List Attribute}
    (h : ∀ a ∈ attributes, a.WellFormed) :
    run entities .afterAttributeValue (attributes.flatMap Attribute.write) =
      some (.afterAttributeValue, attributes.map Attribute.event) := by
  induction attributes with
  | nil => rfl
  | cons a attributes ih =>
    obtain ⟨ha, hattributes⟩ := List.forall_mem_cons.mp h
    have hspaced : Spaced .afterAttributeValue [] := by
      rintro entities c (rfl | rfl) <;> rfl
    exact run_trans (run_write_attribute hentities hspaced ha) (ih hattributes)

theorem TagName.nameChars {name : List Char} (h : TagName name) : ∀ c ∈ name, NameChar c :=
  fun c hc => Or.inl (h.2 c hc)

theorem run_name {mode : Mode} {closing : Bool}
    (hmode : ∀ c : Char, c.isAlpha = true → c ≠ '/' →
      step entities mode c = some (.tagName closing [c.toLower], []))
    {name : List Char} (h : TagName name) :
    run entities mode name = some (.tagName closing name, []) := by
  obtain ⟨first, rest, rfl⟩ := List.exists_cons_of_ne_nil h.1
  obtain ⟨hfirst, hrest⟩ := List.forall_mem_cons.mp h.nameChars
  obtain ⟨-, hslash, -, -, hkept⟩ := hfirst.spec
  have halpha : first.isAlpha = true := by
    show (first.isUpper || first.isLower) = true
    rw [h.2 first List.mem_cons_self, Bool.or_true]
  have hlower : first.toLower = first := by
    by_contra hne
    unfold kept at hkept
    split at hkept
    · subst hkept
      exact absurd hfirst (by decide)
    · exact hne hkept
  have hstart := hmode first halpha hslash
  rw [hlower] at hstart
  exact run_cons hstart (run_tagName closing [first] hrest)

theorem run_openTag (hentities : Resolves entities) {name : List Char} (hname : TagName name)
    {attributes : List Attribute} (h : ∀ a ∈ attributes, a.WellFormed) :
    run entities .data (Node.openTag name attributes).write =
      some (.data, (Node.openTag name attributes).events) := by
  have hopen : run entities .data ('<' :: name) = some (.tagName false name, []) := by
    refine run_cons (Eq.refl (some (Mode.tagOpen, []))) (run_name ?_ hname)
    intro c hc hslash
    simp [step, plain, hc, hslash]
  cases attributes with
  | nil =>
    have hend : run entities (.tagName false name) ['>'] =
        some (.data, [.startTag name, .tagDone]) := rfl
    have hall := run_trans hopen hend
    simpa [Node.write, Node.events] using hall
  | cons a attributes =>
    obtain ⟨ha, hattributes⟩ := List.forall_mem_cons.mp h
    have hspaced : Spaced (.tagName false name) [.startTag name] := by
      rintro entities c (rfl | rfl) <;> rfl
    have hend : run entities .afterAttributeValue ['>'] = some (.data, [.tagDone]) := rfl
    have hfirst := run_trans hopen (run_write_attribute hentities hspaced ha)
    have hall := run_trans (run_trans hfirst (run_attributes hentities hattributes)) hend
    simpa [Node.write, Node.events] using hall

theorem run_closing (hentities : Resolves entities) (shown : List Char) {name : List Char}
    (hname : TagName name) : run entities .data (Node.closing shown name).write =
      some (.data, (Node.closing shown name).events) := by
  have hopen : run entities .data ('<' :: '/' :: name) = some (.tagName true name, []) := by
    refine run_cons (Eq.refl (some (Mode.tagOpen, [])))
      (run_cons (Eq.refl (some (Mode.endTagOpen, []))) (run_name ?_ hname))
    intro c hc _
    simp [step, plain, hc]
  have hend : run entities (.tagName true name) ['>'] =
      some (.data, [.endTag name, .tagDone]) := rfl
  have hall := run_trans (run_trans (run_escape_data hentities shown) hopen) hend
  simpa [Node.write, Node.events] using hall

theorem run_literal {s : List Char} (h : ∀ c ∈ s, Literal c) :
    run entities .data s = some (.data, s.map .char) := by
  induction s with
  | nil => rfl
  | cons c s ih =>
    obtain ⟨⟨-, hamp, hlt⟩, hs⟩ := List.forall_mem_cons.mp h
    have hstep : run entities .data [c] = some (.data, [.char c]) := by
      rw [run_singleton]
      simp only [step, plain, if_neg hlt, if_neg hamp]
    exact run_trans hstep (ih hs)

theorem run_node (hentities : Resolves entities) {node : Node} (h : node.WellFormed) :
    run entities .data node.write = some (.data, node.events) := by
  cases node with
  | openTag name attributes => exact run_openTag hentities h.1 h.2
  | closing shown name => exact run_closing hentities shown h
  | literal s => exact run_literal h
  | numeric digits => exact run_decimal rfl h

/-- What is written of a template is read as its tags, with the values in their places. -/
theorem run_write (hentities : Resolves entities) {nodes : List Node}
    (h : ∀ node ∈ nodes, node.WellFormed) :
    run entities .data (write nodes) = some (.data, events nodes) := by
  induction nodes with
  | nil => rfl
  | cons node nodes ih =>
    obtain ⟨hnode, hnodes⟩ := List.forall_mem_cons.mp h
    exact run_trans (run_node hentities hnode) (ih hnodes)

end Reading

section Lines

variable (isEnd : Char → Bool)

def Value.join (v : Value) : Value := { v with shown := joinLines isEnd v.shown }

def Attribute.join (a : Attribute) : Attribute := { a with value := a.value.join isEnd }

def Node.join : Node → Node
  | .openTag name attributes => .openTag name (attributes.map (Attribute.join isEnd))
  | .closing shown name => .closing (joinLines isEnd shown) name
  | node => node

variable {isEnd}

theorem Node.WellFormed.join {node : Node} (h : node.WellFormed) : (node.join isEnd).WellFormed := by
  cases node with
  | openTag name attributes =>
    refine ⟨h.1, List.forall_mem_map.mpr fun a ha => ?_⟩
    have hattribute := h.2 a ha
    exact ⟨hattribute.space, hattribute.name, hattribute.quote, hattribute.value.before,
      hattribute.value.behind, hattribute.value.head⟩
  | _ => exact h

theorem NameChar.stays {c : Char} (h : NameChar c) : Stays c := by
  rcases h with hlower | rfl
  · have hbounds := isLower_bounds hlower
    unfold Stays Printable
    omega
  · decide

theorem joinLines_value (hend : EndsLines isEnd) {quote : Char} (hquote : IsQuote quote) {v : Value}
    (h : v.WellFormed quote) (rest : List Char) :
    joinLines isEnd (v.write ++ quote :: rest) =
      (v.join isEnd).write ++ joinLines isEnd (quote :: rest) := by
  have hstays : ∀ c ∈ v.before, Stays c := fun c hc => (h.before c hc).1.1
  have hstays' : ∀ c ∈ v.behind, Stays c := fun c hc => (h.behind c hc).1.1
  have hhead : (v.behind ++ quote :: rest).head? ≠ some '\n' := by
    cases hbehind : v.behind with
    | nil => rcases hquote with rfl | rfl <;> simp
    | cons c s =>
      have hne := h.head
      rw [hbehind] at hne
      exact hne
  rw [Value.write, List.append_assoc, List.append_assoc, joinLines_append_stays hend hstays,
    joinLines_append _ hhead, joinLines_escape hend, joinLines_append_stays hend hstays']
  simp [Value.write, Value.join]

theorem joinLines_attribute (hend : EndsLines isEnd) {a : Attribute} (h : a.WellFormed)
    (rest : List Char) : joinLines isEnd (a.write ++ rest) =
      (a.join isEnd).write ++ joinLines isEnd rest := by
  have hspace : ∀ c ∈ a.space, Stays c := by
    intro c hc
    rcases h.space.2 c hc with rfl | rfl <;> decide
  have hname : ∀ c ∈ a.name, Stays c := fun c hc => (h.name.2 c hc).stays
  have hquote : Stays a.quote := by
    rcases h.quote with hquote | hquote <;> rw [hquote] <;> decide
  have hvalue := joinLines_value hend h.quote h.value rest
  have hwrite : a.write ++ rest =
      a.space ++ (a.name ++ '=' :: a.quote :: (a.value.write ++ a.quote :: rest)) := by
    simp [Attribute.write]
  rw [hwrite, joinLines_append_stays hend hspace, joinLines_append_stays hend hname,
    joinLines_stays hend (by decide), joinLines_stays hend hquote, hvalue,
    joinLines_stays hend hquote]
  simp [Attribute.write, Attribute.join]

theorem joinLines_attributes (hend : EndsLines isEnd) {attributes : List Attribute}
    (h : ∀ a ∈ attributes, a.WellFormed) (rest : List Char) :
    joinLines isEnd (attributes.flatMap Attribute.write ++ rest) =
      (attributes.map (Attribute.join isEnd)).flatMap Attribute.write ++ joinLines isEnd rest := by
  induction attributes with
  | nil => rfl
  | cons a attributes ih =>
    obtain ⟨ha, hattributes⟩ := List.forall_mem_cons.mp h
    rw [List.flatMap_cons, List.append_assoc, joinLines_attribute hend ha, ih hattributes,
      List.map_cons, List.flatMap_cons, List.append_assoc]

theorem joinLines_node (hend : EndsLines isEnd) {node : Node} (h : node.WellFormed)
    (rest : List Char) : joinLines isEnd (node.write ++ rest) =
      (node.join isEnd).write ++ joinLines isEnd rest := by
  have hstays : ∀ c, c = '<' ∨ c = '/' ∨ c = '>' → Stays c := by
    rintro c (rfl | rfl | rfl) <;> decide
  cases node with
  | openTag name attributes =>
    have hname : ∀ c ∈ '<' :: name, Stays c :=
      List.forall_mem_cons.mpr ⟨hstays _ (by simp), fun c hc => (h.1.nameChars c hc).stays⟩
    have hwrite : (Node.openTag name attributes).write ++ rest =
        ('<' :: name) ++ (attributes.flatMap Attribute.write ++ '>' :: rest) := by
      simp [Node.write]
    rw [hwrite, joinLines_append_stays hend hname, joinLines_attributes hend h.2,
      joinLines_stays hend (hstays _ (by simp))]
    simp [Node.write, Node.join]
  | closing shown name =>
    have hname : ∀ c ∈ '<' :: '/' :: name ++ ['>'], Stays c := by
      intro c hc
      simp only [List.cons_append, List.mem_cons, List.mem_append, List.not_mem_nil, or_false] at hc
      rcases hc with hc | hc | hc | hc
      · exact hstays c (Or.inl hc)
      · exact hstays c (Or.inr (Or.inl hc))
      · exact (TagName.nameChars h c hc).stays
      · exact hstays c (Or.inr (Or.inr hc))
    have hwrite : (Node.closing shown name).write ++ rest =
        escape shown ++ ('<' :: '/' :: name ++ ['>'] ++ rest) := by
      simp [Node.write]
    rw [hwrite, joinLines_append _ (by simp), joinLines_append_stays hend hname,
      joinLines_escape hend]
    simp [Node.write, Node.join]
  | literal s => exact joinLines_append_stays hend (fun c hc => (h c hc).1) rest
  | numeric digits =>
    have hdigits : ∀ c ∈ '&' :: '#' :: digits ++ [';'], Stays c := by
      intro c hc
      simp only [List.cons_append, List.mem_cons, List.mem_append, List.not_mem_nil, or_false] at hc
      rcases hc with rfl | rfl | hc | rfl
      · decide
      · decide
      · have hdigit := h.2 c hc
        have hbounds : 48 ≤ c.toNat ∧ c.toNat ≤ 57 := by
          simpa [Char.isDigit, UInt32.le_iff_toNat_le] using hdigit
        unfold Stays Printable
        omega
      · decide
    exact joinLines_append_stays hend hdigits rest

/-- Lines may be joined in what is written, or in the values. -/
theorem joinLines_write (hend : EndsLines isEnd) {nodes : List Node}
    (h : ∀ node ∈ nodes, node.WellFormed) :
    joinLines isEnd (write nodes) = write (nodes.map (Node.join isEnd)) := by
  induction nodes with
  | nil => rfl
  | cons node nodes ih =>
    obtain ⟨hnode, hnodes⟩ := List.forall_mem_cons.mp h
    have hrest := joinLines_node hend hnode (write nodes)
    rw [ih hnodes] at hrest
    exact hrest

end Lines

/-- What a browser reads of a template that came to it with its lines joined. -/
theorem run_joined {entities : Entities} {isEnd : Char → Bool} (hentities : Resolves entities)
    (hend : EndsLines isEnd) {nodes : List Node} (h : ∀ node ∈ nodes, node.WellFormed) :
    run entities .data (joinLines isEnd (write nodes)) =
      some (.data, events (nodes.map (Node.join isEnd))) := by
  rw [joinLines_write hend h]
  exact run_write hentities (List.forall_mem_map.mpr fun node hnode => (h node hnode).join)

end Hooktrace.HtmlTemplate
