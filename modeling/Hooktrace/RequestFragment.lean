import Hooktrace.ExportRequests
import Hooktrace.HtmlsafeJson
import Hooktrace.SseFrame

/-!
The row of a captured request, as the viewer, its search and the stream render it from one
template. Whatever was captured, a browser reads the tags of the template and no others
(`read_fragment`): what was captured is the value of an attribute, or text in front of an end tag.
-/
namespace Hooktrace.RequestFragment

open HtmlTemplate HtmlText HtmlsafeJson
open JsonDumps (dumps)

def signatureStatusColors : List (String × String) :=
  [("valid", "emerald"), ("invalid", "rose"), ("missing", "amber"), ("no_provider", "slate")]

def integrationColors : List (String × String) :=
  [("stripe", "violet"), ("github", "zinc"), ("shopify", "green"), ("twilio", "red"),
    ("mailgun", "sky"), ("discord", "indigo"), ("slack", "yellow"), ("zapier", "orange"),
    ("n8n", "pink")]

structure Request where
  id : String
  method : String
  path : String
  bodySize : ℕ
  receivedAt : String
  headers : Headers
  bodyPreview : Option String
  signatureStatus : Option String
  detectedIntegration : Option String
  detectedEventType : Option String

/-- The row of a table; a stored event type is a text of characters. -/
def Request.ofRow (r : CapturedRequest) (eventType : Option String) : Request where
  id := r.id.str
  method := r.method
  path := r.path
  bodySize := r.bodySize
  receivedAt := ExportRequests.isoformat r.receivedAt
  headers := r.headers
  bodyPreview := r.bodyPreview
  signatureStatus := r.signatureStatus
  detectedIntegration := r.detectedIntegration
  detectedEventType := eventType

/-- The headers in the order of their names, as `tojson` has them. -/
def sortedHeaders (headers : Headers) : List (String × String) :=
  headers.items.mergeSort fun h h' => h.1 ≤ h'.1

def headersValue (headers : Headers) : JsonDumps.PyValue :=
  .dict ((sortedHeaders headers).map fun h => (h.1, .str h.2))

section Template

def fixed (s : String) : Value := ⟨s.toList, [], []⟩

/-- `{{ s }}`. -/
def shown (s : String) : Value := ⟨[], s.toList, []⟩

/-- `{{ v | tojson }}`, which is not escaped again. -/
def tojson (v : JsonDumps.PyValue) : Value := ⟨htmlsafe (dumps v), [], []⟩

def attr (space name : String) (quote : Char) (value : Value) : Attribute :=
  ⟨space.toList, name.toList, quote, value⟩

def bodySizeText (req : Request) : String := toString (req.bodySize : ℤ)

def openRow (hookUrl : String) (req : Request) : Node :=
  .openTag "li".toList
    [attr " " "class" '"' (fixed
        "border border-slate-700 rounded px-4 py-2 font-mono text-sm flex items-center gap-2"),
      attr "\n    " "data-request-id" '"' (shown req.id),
      attr "\n    " "data-method" '"' (shown req.method),
      -- `{{ hook_url }}{{ req.path }}`
      attr "\n    " "data-url" '"' (shown (hookUrl ++ req.path)),
      attr "\n    " "data-headers" '\'' (tojson (headersValue req.headers)),
      attr "\n    " "data-body" '\'' (match req.bodyPreview with
        | some body => tojson (.str body)
        | none => shown "null"),
      attr "\n    " "data-body-size" '"' (shown (bodySizeText req))]

def button (className label : String) (sign : String) : List Node :=
  [.openTag "button".toList
      [attr " " "type" '"' (fixed "button"), attr " " "class" '"' (fixed className),
        attr " " "aria-label" '"' (fixed label), attr "\n          " "title" '"' (fixed label)],
    .literal "\n    ".toList, .numeric sign.toList, .literal "\n  ".toList,
    .closing [] "button".toList, .literal "\n  ".toList]

def span (className : Value) (text : String) : List Node :=
  [.openTag "span".toList [attr " " "class" '"' className],
    .closing text.toList "span".toList, .literal "\n  ".toList]

/-- `text-{{ color }}`, and the rest of the class. -/
def badge (colors : List (String × String)) (key default rest text : String) : List Node :=
  span ⟨"text-".toList, ((colors.lookup key).getD default).toList, rest.toList⟩ text

/-- A text that is neither None nor empty. -/
def truthy (text : Option String) : Option String := text.filter (· ≠ "")

/-- The lines of an `if`; without them the line of its end goes on. -/
def whenShown (text : Option String) (nodes : String → List Node) : List Node :=
  match truthy text with
  | some text => .literal "\n  ".toList :: nodes text
  | none => []

/-- Within the `if` of the integration. -/
def integrationBadges (eventType : Option String) (integration : String) : List Node :=
  .literal "\n  ".toList ::
    badge integrationColors integration "gray" "-400 text-xs" integration ++
    whenShown eventType (fun eventType =>
      badge integrationColors integration "gray" "-300 text-xs" eventType) ++
    [.literal "\n  ".toList]

/-- `request_fragment.html`. -/
def template (hookUrl : String) (req : Request) : List Node :=
  [openRow hookUrl req, .literal "\n  ".toList] ++
    button "copy-curl-btn text-slate-400 hover:text-emerald-400" "Copy as curl" "128203" ++
    button "replay-btn text-slate-400 hover:text-amber-400" "Replay to URL" "8631" ++
    span (fixed "inline-block w-16 font-bold text-emerald-400") req.method ++
    span (fixed "text-slate-300") req.path ++
    span (fixed "text-slate-500 text-xs ml-2") req.receivedAt ++
    span (fixed "text-slate-500 text-xs ml-2") ("(" ++ bodySizeText req ++ " bytes)") ++
    whenShown req.signatureStatus (fun status =>
      .literal "\n  ".toList ::
        badge signatureStatusColors status "slate" "-400 text-xs" status) ++
    .literal "\n  ".toList ::
    whenShown req.detectedIntegration (integrationBadges req.detectedEventType) ++
    [.literal "\n".toList, .closing [] "li".toList]

/-- What the template is rendered to. -/
def fragment (hookUrl : String) (req : Request) : List Char := write (template hookUrl req)

end Template

section WellFormed

theorem forall_mem_toList {p : Char → Prop} [DecidablePred p] {s : String} {l : List Char}
    (hs : s = String.ofList l) (h : l.all (fun c => decide (p c)) = true) :
    ∀ c ∈ s.toList, p c := by
  subst hs
  rw [String.toList_ofList]
  exact forall_mem_of_all h

theorem wellFormed_fixed {s : String} {quote : Char}
    (h : ∀ c ∈ s.toList, Literal c ∧ c ≠ quote) : (fixed s).WellFormed quote :=
  ⟨h, by simp [fixed], by simp [fixed]⟩

theorem wellFormed_shown (s : String) (quote : Char) : (shown s).WellFormed quote :=
  ⟨by simp [shown], by simp [shown], by simp [shown]⟩

theorem wellFormed_tojson (v : JsonDumps.PyValue) : (tojson v).WellFormed '\'' :=
  ⟨literal_htmlsafe v, by simp [tojson], by simp [tojson]⟩

theorem wellFormed_attr {space name : String} {quote : Char} {value : Value}
    (hspace : space ≠ "" ∧ ∀ c ∈ space.toList, c = '\n' ∨ c = ' ')
    (hname : name ≠ "" ∧ ∀ c ∈ name.toList, NameChar c) (hquote : IsQuote quote)
    (hvalue : value.WellFormed quote) : (attr space name quote value).WellFormed :=
  ⟨⟨by simpa [attr] using hspace.1, hspace.2⟩, ⟨by simpa [attr] using hname.1, hname.2⟩,
    hquote, hvalue⟩

theorem blank : (" " ≠ "" ∧ ∀ c ∈ " ".toList, c = '\n' ∨ c = ' ') ∧
    ("\n    " ≠ "" ∧ ∀ c ∈ "\n    ".toList, c = '\n' ∨ c = ' ') ∧
    ("\n          " ≠ "" ∧ ∀ c ∈ "\n          ".toList, c = '\n' ∨ c = ' ') :=
  ⟨⟨by decide, forall_mem_toList rfl (by decide)⟩, ⟨by decide, forall_mem_toList rfl (by decide)⟩,
    ⟨by decide, forall_mem_toList rfl (by decide)⟩⟩

theorem wellFormed_literal {s : String} (h : ∀ c ∈ s.toList, Literal c) :
    (Node.literal s.toList).WellFormed := h

theorem wellFormed_openRow (hookUrl : String) (req : Request) :
    (openRow hookUrl req).WellFormed := by
  obtain ⟨hblank, hline, -⟩ := blank
  have hdouble : IsQuote '"' := Or.inl rfl
  have hsingle : IsQuote '\'' := Or.inr rfl
  have hbody : (match req.bodyPreview with
      | some body => tojson (.str body)
      | none => shown "null").WellFormed '\'' := by
    cases req.bodyPreview with
    | none => exact wellFormed_shown _ _
    | some body => exact wellFormed_tojson _
  refine ⟨⟨by decide, forall_mem_toList rfl (by decide)⟩, ?_⟩
  simp only [List.forall_mem_cons, List.not_mem_nil, false_implies, implies_true, and_true]
  refine ⟨wellFormed_attr hblank ⟨by decide, forall_mem_toList rfl (by decide)⟩ hdouble
      (wellFormed_fixed (forall_mem_toList rfl (by decide))),
    wellFormed_attr hline ⟨by decide, forall_mem_toList rfl (by decide)⟩ hdouble
      (wellFormed_shown _ _),
    wellFormed_attr hline ⟨by decide, forall_mem_toList rfl (by decide)⟩ hdouble
      (wellFormed_shown _ _),
    wellFormed_attr hline ⟨by decide, forall_mem_toList rfl (by decide)⟩ hdouble
      (wellFormed_shown _ _),
    wellFormed_attr hline ⟨by decide, forall_mem_toList rfl (by decide)⟩ hsingle
      (wellFormed_tojson _),
    wellFormed_attr hline ⟨by decide, forall_mem_toList rfl (by decide)⟩ hsingle hbody,
    wellFormed_attr hline ⟨by decide, forall_mem_toList rfl (by decide)⟩ hdouble
      (wellFormed_shown _ _)⟩

theorem wellFormed_newline : (Node.literal "\n  ".toList).WellFormed :=
  wellFormed_literal (forall_mem_toList rfl (by decide))

theorem wellFormed_button {className label sign : String}
    (hclass : (fixed className).WellFormed '"') (hlabel : (fixed label).WellFormed '"')
    (hsign : sign ≠ "" ∧ ∀ c ∈ sign.toList, c.isDigit = true) :
    ∀ node ∈ button className label sign, node.WellFormed := by
  obtain ⟨hblank, -, hline⟩ := blank
  have hdouble : IsQuote '"' := Or.inl rfl
  have hbutton : TagName "button".toList := ⟨by decide, forall_mem_toList rfl (by decide)⟩
  have hopen : (Node.openTag "button".toList
      [attr " " "type" '"' (fixed "button"), attr " " "class" '"' (fixed className),
        attr " " "aria-label" '"' (fixed label), attr "\n          " "title" '"' (fixed label)]
    ).WellFormed := by
    refine ⟨hbutton, ?_⟩
    simp only [List.forall_mem_cons, List.not_mem_nil, false_implies, implies_true, and_true]
    refine ⟨wellFormed_attr hblank ⟨by decide, forall_mem_toList rfl (by decide)⟩ hdouble
        (wellFormed_fixed (forall_mem_toList rfl (by decide))),
      wellFormed_attr hblank ⟨by decide, forall_mem_toList rfl (by decide)⟩ hdouble hclass,
      wellFormed_attr hblank ⟨by decide, forall_mem_toList rfl (by decide)⟩ hdouble hlabel,
      wellFormed_attr hline ⟨by decide, forall_mem_toList rfl (by decide)⟩ hdouble hlabel⟩
  simp only [button, List.forall_mem_cons, List.not_mem_nil, false_implies, implies_true, and_true]
  refine ⟨hopen, wellFormed_literal (forall_mem_toList rfl (by decide)), ?_, wellFormed_newline,
    hbutton, wellFormed_newline⟩
  exact ⟨by simpa using hsign.1, hsign.2⟩

theorem wellFormed_span {className : Value} (h : className.WellFormed '"') (text : String) :
    ∀ node ∈ span className text, node.WellFormed := by
  have hspan : TagName "span".toList := ⟨by decide, forall_mem_toList rfl (by decide)⟩
  simp only [span, List.forall_mem_cons, List.not_mem_nil, false_implies, implies_true, and_true]
  refine ⟨⟨hspan, List.forall_mem_singleton.mpr (wellFormed_attr blank.1
    ⟨by decide, forall_mem_toList rfl (by decide)⟩ (Or.inl rfl) h)⟩, hspan, wellFormed_newline⟩

theorem wellFormed_badge (colors : List (String × String)) (key default : String) {rest : String}
    (hrest : ∀ c ∈ rest.toList, Literal c ∧ c ≠ '"') (hhead : rest.toList.head? ≠ some '\n')
    (text : String) : ∀ node ∈ badge colors key default rest text, node.WellFormed :=
  wellFormed_span ⟨forall_mem_toList rfl (by decide), hrest, hhead⟩ text

theorem wellFormed_whenShown {text : Option String} {nodes : String → List Node}
    (h : ∀ text, ∀ node ∈ nodes text, node.WellFormed) :
    ∀ node ∈ whenShown text nodes, node.WellFormed := by
  unfold whenShown
  cases truthy text with
  | none => simp
  | some text => exact List.forall_mem_cons.mpr ⟨wellFormed_newline, h text⟩

theorem wellFormed_template (hookUrl : String) (req : Request) :
    ∀ node ∈ template hookUrl req, node.WellFormed := by
  have hfixed {t : String} (h : ∀ c ∈ t.toList, Literal c ∧ c ≠ '"') :
      (fixed t).WellFormed '"' := wellFormed_fixed h
  have hintegration : ∀ integration, ∀ node ∈ integrationBadges req.detectedEventType integration,
      node.WellFormed := by
    intro integration
    simp only [integrationBadges, List.forall_mem_append, List.forall_mem_cons, List.not_mem_nil,
      false_implies, implies_true, and_true, and_assoc]
    refine ⟨wellFormed_newline, wellFormed_badge _ _ _ (forall_mem_toList rfl (by decide))
      (by decide) _, wellFormed_whenShown fun eventType => ?_, wellFormed_newline⟩
    exact wellFormed_badge _ _ _ (forall_mem_toList rfl (by decide)) (by decide) _
  simp only [template, List.forall_mem_append, List.forall_mem_cons, List.not_mem_nil,
    false_implies, implies_true, and_true, and_assoc]
  refine ⟨wellFormed_openRow hookUrl req, wellFormed_newline,
    wellFormed_button (hfixed (forall_mem_toList rfl (by decide)))
      (hfixed (forall_mem_toList rfl (by decide))) ⟨by decide, forall_mem_toList rfl (by decide)⟩,
    wellFormed_button (hfixed (forall_mem_toList rfl (by decide)))
      (hfixed (forall_mem_toList rfl (by decide))) ⟨by decide, forall_mem_toList rfl (by decide)⟩,
    wellFormed_span (hfixed (forall_mem_toList rfl (by decide))) _,
    wellFormed_span (hfixed (forall_mem_toList rfl (by decide))) _,
    wellFormed_span (hfixed (forall_mem_toList rfl (by decide))) _,
    wellFormed_span (hfixed (forall_mem_toList rfl (by decide))) _,
    wellFormed_whenShown fun status => ?_, wellFormed_newline, wellFormed_whenShown hintegration,
    wellFormed_literal (forall_mem_toList rfl (by decide)),
    ⟨by decide, forall_mem_toList rfl (by decide)⟩⟩
  exact List.forall_mem_cons.mpr ⟨wellFormed_newline,
    wellFormed_badge _ _ _ (forall_mem_toList rfl (by decide)) (by decide) _⟩

end WellFormed

section Events

def attributeEvent (a : String × List Char) : Event := .attribute a.1.toList (a.2.map kept)

def tag (name : String) (attributes : List (String × List Char)) : List Event :=
  .startTag name.toList :: attributes.map attributeEvent ++ [.tagDone]

def endTag (name : String) : List Event := [.endTag name.toList, .tagDone]

def chars (s : String) : List Event := s.toList.map .char

variable (seen : List Char → List Char)

def rowEvents (hookUrl : String) (req : Request) : List Event :=
  tag "li"
    [("class",
        "border border-slate-700 rounded px-4 py-2 font-mono text-sm flex items-center gap-2".toList),
      ("data-request-id", seen req.id.toList),
      ("data-method", seen req.method.toList),
      ("data-url", seen (hookUrl ++ req.path).toList),
      ("data-headers", htmlsafe (dumps (headersValue req.headers))),
      ("data-body", match req.bodyPreview with
        | some body => htmlsafe (dumps (.str body))
        | none => seen "null".toList),
      ("data-body-size", seen (bodySizeText req).toList)]

def buttonEvents (className label : String) (sign : Char) : List Event :=
  tag "button" [("type", "button".toList), ("class", className.toList),
    ("aria-label", label.toList), ("title", label.toList)] ++
  chars "\n    " ++ [.char sign] ++ chars "\n  " ++ endTag "button" ++ chars "\n  "

def spanEvents (className : List Char) (text : String) : List Event :=
  tag "span" [("class", className)] ++ (seen text.toList).map .char ++ endTag "span" ++ chars "\n  "

def badgeEvents (colors : List (String × String)) (key default rest text : String) : List Event :=
  spanEvents seen
    ("text-".toList ++ seen ((colors.lookup key).getD default).toList ++ rest.toList) text

def eventsWhen (text : Option String) (read : String → List Event) : List Event :=
  match truthy text with
  | some text => chars "\n  " ++ read text
  | none => []

def integrationEvents (eventType : Option String) (integration : String) : List Event :=
  chars "\n  " ++ badgeEvents seen integrationColors integration "gray" "-400 text-xs" integration ++
    eventsWhen eventType (fun eventType =>
      badgeEvents seen integrationColors integration "gray" "-300 text-xs" eventType) ++
    chars "\n  "

/-- What is to be read of the fragment, if `seen s` is read where `s` is shown: the tags of the
template, one after the other, whatever the texts are. -/
def fragmentEvents (hookUrl : String) (req : Request) : List Event :=
  rowEvents seen hookUrl req ++ chars "\n  " ++
    buttonEvents "copy-curl-btn text-slate-400 hover:text-emerald-400" "Copy as curl"
      (Char.ofNat 0x1F4CB) ++
    buttonEvents "replay-btn text-slate-400 hover:text-amber-400" "Replay to URL"
      (Char.ofNat 0x21B7) ++
    spanEvents seen "inline-block w-16 font-bold text-emerald-400".toList req.method ++
    spanEvents seen "text-slate-300".toList req.path ++
    spanEvents seen "text-slate-500 text-xs ml-2".toList req.receivedAt ++
    spanEvents seen "text-slate-500 text-xs ml-2".toList ("(" ++ bodySizeText req ++ " bytes)") ++
    eventsWhen req.signatureStatus (fun status => chars "\n  " ++
      badgeEvents seen signatureStatusColors status "slate" "-400 text-xs" status) ++
    chars "\n  " ++
    eventsWhen req.detectedIntegration (integrationEvents seen req.detectedEventType) ++
    chars "\n" ++ endTag "li"

end Events

section Reading

variable {isEnd : Char → Bool}

def joined (isEnd : Char → Bool) (nodes : List Node) : List Event :=
  events (nodes.map (Node.join isEnd))

theorem joined_append (nodes more : List Node) :
    joined isEnd (nodes ++ more) = joined isEnd nodes ++ joined isEnd more := by
  simp [joined, events]

theorem joined_literal (s : String) (nodes : List Node) :
    joined isEnd (.literal s.toList :: nodes) = chars s ++ joined isEnd nodes := rfl

theorem joined_openRow (hookUrl : String) (req : Request) (nodes : List Node) :
    joined isEnd (openRow hookUrl req :: nodes) =
      rowEvents (joinLines isEnd) hookUrl req ++ joined isEnd nodes := by
  cases hbody : req.bodyPreview <;>
  simp [joined, events, openRow, rowEvents, tag, attributeEvent, attr, fixed, shown, tojson,
    Node.join, Node.events, Attribute.join, Attribute.event, Value.join, Value.text, joinLines, hbody]

theorem joined_button (className label sign : String) :
    joined isEnd (button className label sign) = buttonEvents className label
      (numbered (number 10 sign.toList)) := by
  simp [joined, events, button, buttonEvents, tag, attributeEvent, endTag, chars, attr, fixed,
    Node.join, Node.events, Attribute.join, Attribute.event, Value.join, Value.text, joinLines]

theorem joined_span (className : Value) (text : String) :
    joined isEnd (span className text) =
      spanEvents (joinLines isEnd) (className.join isEnd).text text := by
  simp [joined, events, span, spanEvents, tag, attributeEvent, endTag, chars, attr, Node.join,
    Node.events, Attribute.join, Attribute.event]

theorem joined_badge (colors : List (String × String)) (key default rest text : String) :
    joined isEnd (badge colors key default rest text) =
      badgeEvents (joinLines isEnd) colors key default rest text :=
  joined_span _ text

theorem joined_whenShown (text : Option String) (nodes : String → List Node) :
    joined isEnd (whenShown text nodes) = eventsWhen text fun text => joined isEnd (nodes text) := by
  unfold whenShown eventsWhen
  cases truthy text <;> rfl

theorem joined_template (hookUrl : String) (req : Request) :
    joined isEnd (template hookUrl req) = fragmentEvents (joinLines isEnd) hookUrl req := by
  have hcopy : numbered (number 10 "128203".toList) = Char.ofNat 0x1F4CB := by decide
  have hreplay : numbered (number 10 "8631".toList) = Char.ofNat 0x21B7 := by decide
  have hfixed : ∀ t, ((fixed t).join isEnd).text = t.toList := by
    intro t
    simp [fixed, Value.join, Value.text, joinLines]
  have hintegration : ∀ integration,
      joined isEnd (integrationBadges req.detectedEventType integration) =
        integrationEvents (joinLines isEnd) req.detectedEventType integration := by
    intro integration
    simp only [integrationBadges, integrationEvents, List.cons_append, joined_literal, joined_append,
      joined_badge, joined_whenShown, List.append_assoc]
    rfl
  have hend : joined isEnd [.literal "\n".toList, .closing [] "li".toList] =
      chars "\n" ++ endTag "li" := rfl
  simp only [template, fragmentEvents, List.cons_append, List.nil_append, joined_append,
    joined_openRow, joined_literal, joined_button, joined_span, joined_badge, joined_whenShown, hend,
    hcopy, hreplay, hfixed, hintegration, List.append_assoc]

end Reading

section Transport

/-- Where lines end in a document. -/
def isBreak (c : Char) : Bool := c = '\n' ∨ c = '\r'

/-- A browser reads a text with its lines joined. -/
def readHtml (entities : Entities) (text : List Char) : Option Reading :=
  run entities .data (joinLines isBreak text)

theorem endsLines_isBreak : EndsLines isBreak := by
  intro c hc
  simp only [isBreak, decide_eq_false_iff_not]
  rintro (rfl | rfl) <;> exact absurd hc (by decide)

theorem endsLines_isLineEnd : EndsLines SseFrame.isLineEnd := by
  intro c hc
  simp only [Printable] at hc
  simp only [SseFrame.isLineEnd, decide_eq_false_iff_not]
  omega

/-- Lines behind one another are the text with its lines joined, if it does not end with one. -/
theorem intercalate_splitlinesFrom {line html : List Char}
    (h : ∀ c ∈ html.getLast?, SseFrame.isLineEnd c = false) :
    ['\n'].intercalate (SseFrame.splitlinesFrom line html) =
      line ++ joinLines SseFrame.isLineEnd html := by
  have hnext : ∀ {s : List Char}, s ≠ [] → SseFrame.splitlinesFrom [] s ≠ [] :=
    fun hs => SseFrame.splitlinesFrom_ne_nil (Or.inr hs)
  fun_induction SseFrame.splitlinesFrom line html with
  | case1 => rfl
  | case2 line hne => simp [joinLines]
  | case3 line s ih =>
    have hs : s ≠ [] := by
      rintro rfl
      exact absurd (h '\n' rfl) (by decide)
    have hlast : ('\r' :: '\n' :: s).getLast? = s.getLast? := by
      rw [List.getLast?_cons_cons, List.getLast?_cons_of_ne_nil hs]
    rw [hlast] at h
    rw [List.intercalate_cons_of_ne_nil (hnext hs), ih h, joinLines]
    simp
  | case4 line c s hbreak hend ih =>
    have hs : s ≠ [] := by
      rintro rfl
      rw [h c rfl] at hend
      exact absurd hend (by decide)
    have hhead : c = '\r' → s.head? ≠ some '\n' := by
      intro hc hhead
      cases s with
      | nil => exact absurd hhead (by simp)
      | cons d s => exact hbreak s hc (congrArg (· :: s) (Option.some.inj hhead))
    rw [List.getLast?_cons_of_ne_nil hs] at h
    rw [List.intercalate_cons_of_ne_nil (hnext hs), ih h, joinLines_cons hhead, hend]
    simp
  | case5 line c s hbreak hend ih =>
    have hhead : c = '\r' → s.head? ≠ some '\n' := by
      rintro rfl
      exact absurd hend (by decide)
    have hlast : ∀ d ∈ s.getLast?, SseFrame.isLineEnd d = false := by
      cases s with
      | nil => simp
      | cons d s =>
        rw [List.getLast?_cons_cons] at h
        exact h
    rw [ih hlast, joinLines_cons hhead, if_neg hend]
    simp

theorem joinLines_of_notMem {isEnd : Char → Bool} {s : List Char}
    (h : ∀ c ∈ s, c ≠ '\r' ∧ (isEnd c = true → c = '\n')) : joinLines isEnd s = s := by
  induction s with
  | nil => rfl
  | cons c s ih =>
    obtain ⟨⟨hne, hend⟩, hs⟩ := List.forall_mem_cons.mp h
    rw [joinLines_cons (fun hc => absurd hc hne), ih hs]
    split
    · rename_i hc
      rw [hend hc]
    · rfl

theorem joinLines_spec {isEnd : Char → Bool} (s : List Char) (c : Char)
    (hc : c ∈ joinLines isEnd s) : c = '\n' ∨ isEnd c = false := by
  fun_induction joinLines isEnd s with
  | case1 s ih =>
    rcases List.mem_cons.mp hc with hc | hc
    · exact Or.inl hc
    · exact ih hc
  | case2 d s _ ih =>
    rcases List.mem_cons.mp hc with hc | hc
    · split at hc
      · exact Or.inl hc
      · rename_i hend
        exact Or.inr (hc ▸ Bool.eq_false_iff.mpr hend)
    · exact ih hc
  | case3 => exact absurd hc List.not_mem_nil

theorem isBreak_joined (s : List Char) :
    joinLines isBreak (joinLines SseFrame.isLineEnd s) = joinLines SseFrame.isLineEnd s := by
  refine joinLines_of_notMem fun c hc => ?_
  have hspec := joinLines_spec s c hc
  refine ⟨?_, fun hbreak => ?_⟩
  · rintro rfl
    exact absurd hspec (by decide)
  · simp only [isBreak, decide_eq_true_eq] at hbreak
    rcases hbreak with rfl | rfl
    · rfl
    · exact absurd hspec (by decide)

theorem fragment_getLast (hookUrl : String) (req : Request) :
    (fragment hookUrl req).getLast? = some '>' := by
  have hend : write [.literal "\n".toList, .closing [] "li".toList] =
      ['\n', '<', '/', 'l', 'i', '>'] := by
    simp [write, Node.write, escape]
  obtain ⟨nodes, hnodes⟩ : ∃ nodes, template hookUrl req =
      nodes ++ [.literal "\n".toList, .closing [] "li".toList] := ⟨_, rfl⟩
  have hfragment : fragment hookUrl req = write nodes ++ ['\n', '<', '/', 'l', 'i', '>'] := by
    rw [fragment, hnodes, write, List.flatMap_append]
    exact congrArg (write nodes ++ ·) hend
  simp [hfragment]

/-- The data of a message. -/
theorem message_data (hookUrl : String) (req : Request) :
    (SseFrame.message (fragment hookUrl req)).data =
      joinLines SseFrame.isLineEnd (fragment hookUrl req) := by
  have hlast : ∀ c ∈ (fragment hookUrl req).getLast?, SseFrame.isLineEnd c = false := by
    rw [fragment_getLast]
    rintro c ⟨⟩
    decide
  exact intercalate_splitlinesFrom hlast

variable {entities : Entities}

theorem write_flatMap (hookUrl : String) (rows : List Request) :
    rows.flatMap (fragment hookUrl) = write (rows.flatMap (template hookUrl)) := by
  rw [write, List.flatMap_assoc]
  rfl

theorem read_joined (h : Resolves entities) {isEnd : Char → Bool} (hend : EndsLines isEnd)
    (hookUrl : String) (rows : List Request) :
    run entities .data (joinLines isEnd (rows.flatMap (fragment hookUrl))) =
      some (.data, rows.flatMap (fragmentEvents (joinLines isEnd) hookUrl)) := by
  have hwellFormed : ∀ node ∈ rows.flatMap (template hookUrl), node.WellFormed := by
    intro node hnode
    obtain ⟨req, -, hreq⟩ := List.mem_flatMap.mp hnode
    exact wellFormed_template hookUrl req node hreq
  have hevents : events ((rows.flatMap (template hookUrl)).map (Node.join isEnd)) =
      rows.flatMap (fragmentEvents (joinLines isEnd) hookUrl) := by
    rw [List.map_flatMap, events, List.flatMap_assoc]
    apply List.flatMap_congr
    intro req _
    exact joined_template hookUrl req
  rw [write_flatMap, run_joined h hend hwellFormed, hevents]

/-- Whatever was captured, a browser reads the tags of the template, with what was captured as the
values of its attributes and as its texts, of the rows of a page as of a message of the stream. -/
theorem read_fragments (h : Resolves entities) (hookUrl : String) (rows : List Request) :
    readHtml entities (rows.flatMap (fragment hookUrl)) =
        some (.data, rows.flatMap (fragmentEvents (joinLines isBreak) hookUrl)) ∧
      ∀ req ∈ rows, readHtml entities (SseFrame.message (fragment hookUrl req)).data =
        some (.data, fragmentEvents (joinLines SseFrame.isLineEnd) hookUrl req) := by
  refine ⟨read_joined h endsLines_isBreak hookUrl rows, fun req _ => ?_⟩
  have hone := read_joined h endsLines_isLineEnd hookUrl [req]
  simp only [List.flatMap_cons, List.flatMap_nil, List.append_nil] at hone
  rw [readHtml, message_data, isBreak_joined, hone]

def sampleEntities : Entities := fun _ letters next =>
  if letters = ['a', 'm', 'p'] then ['&']
  else if letters = ['l', 't'] then ['<']
  else if letters = ['g', 't'] then ['>']
  else '&' :: letters ++ (if next = ';' then [';'] else [])

def sampleRow : Request where
  id := "b7e1d0c4-52aa-4f3e-8e6b-0c9a4d7f1235"
  method := "POST"
  path := "/h/tok/\"><script>'\r\n"
  bodySize := 4
  receivedAt := "2026-05-18T16:42:55"
  headers := .empty
  bodyPreview := some "</li>"
  signatureStatus := none
  detectedIntegration := some "stripe"
  detectedEventType := some "<b>"

theorem sample_read : readHtml sampleEntities
    ([sampleRow].flatMap (fragment "https://hooks.example.com/h/tok")) =
      some (.data, [sampleRow].flatMap
        (fragmentEvents (joinLines isBreak) "https://hooks.example.com/h/tok")) :=
  (read_fragments ⟨fun _ => rfl, fun _ => rfl, fun _ => rfl⟩ _ [sampleRow]).1

end Transport

end Hooktrace.RequestFragment
