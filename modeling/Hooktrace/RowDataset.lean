import Hooktrace.CopyAsCurl
import Hooktrace.RequestFragment

/-!
What a browser takes from the row of a request for the curl command and for a replay. The headers
and the body have been through JSON and HTML, and are what was captured (`isDataset_iff`); the
method and the URL are texts of attributes, and a replay takes the id alone.
-/
namespace Hooktrace.RowDataset

open CopyAsCurl (Dataset)
open HtmlsafeJson HtmlText RequestFragment
open Json (Value)
open JsonText (Says)

def valueOf (name : String) : Event → Option (List Char)
  | .attribute n value => if n = name.toList then some value else none
  | _ => none

/-- The value of an attribute of the tag that the events begin with. -/
def attributeOf (name : String) (events : List Event) : Option (List Char) :=
  (events.takeWhile (· ≠ .tagDone)).findSome? (valueOf name)

/-- The fields of an object whose values are texts. -/
def fieldValues (headers : List (String × String)) : List (PyStr × Value) :=
  headers.map fun h => (.ofString h.1, .string (.ofString h.2))

def textValue : Option String → Value
  | none => .null
  | some text => .string (.ofString text)

/-- What `buildCurl` has of `li.dataset`, its two JSON texts and its number parsed. The entries of
an object come in an order of their own. -/
structure IsDataset (events : List Event) (d : Dataset) : Prop where
  method : attributeOf "data-method" events = some d.method.toList
  url : attributeOf "data-url" events = some d.url.toList
  headers : ∃ text members, attributeOf "data-headers" events = some text ∧
    Says text (.object members) ∧ (fieldValues d.headers).Perm members
  body : ∃ text, attributeOf "data-body" events = some text ∧ Says text (textValue d.body)
  bodySize : ∃ text, attributeOf "data-body-size" events = some text ∧
    (String.ofList text).toNat? = some d.bodySize

/-- `li.dataset.requestId`, which is all that the replay button reads. -/
def requestIdOf (events : List Event) : Option String :=
  (attributeOf "data-request-id" events).map .ofList

section Attributes

/-- The first attribute of that name. -/
theorem attributeOf_tag (name tagName : String) (attributes : List (String × List Char))
    (rest : List Event) : attributeOf name (tag tagName attributes ++ rest) =
      (attributes.find? (·.1 = name)).map fun a => a.2.map kept := by
  have hattribute : ∀ event ∈ attributes.map attributeEvent,
      decide (event ≠ Event.tagDone) = true := by
    rintro event hevent
    obtain ⟨a, -, rfl⟩ := List.mem_map.mp hevent
    exact decide_eq_true (by simp [attributeEvent])
  have htag : (tag tagName attributes ++ rest).takeWhile (· ≠ .tagDone) =
      .startTag tagName.toList :: attributes.map attributeEvent := by
    rw [tag, List.cons_append, List.cons_append, List.takeWhile_cons_of_pos (by simp),
      List.append_assoc, List.takeWhile_append_of_pos hattribute]
    simp
  have hfind : (attributes.map attributeEvent).findSome? (valueOf name) =
      (attributes.find? (·.1 = name)).map fun a => a.2.map kept := by
    clear htag hattribute
    induction attributes with
    | nil => rfl
    | cons a attributes ih =>
      by_cases ha : a.1 = name
      · simp [attributeEvent, valueOf, ha]
      · have hne : a.1.toList ≠ name.toList := fun h => ha (String.toList_inj.mp h)
        simp [attributeEvent, valueOf, ha, hne, ih]
  rw [attributeOf, htag, List.findSome?_cons, hfind]
  rfl

variable {seen : List Char → List Char}

theorem attributeOf_fragment (hookUrl : String) (req : Request) (name : String) :
    attributeOf name (fragmentEvents seen hookUrl req) =
      attributeOf name (rowEvents seen hookUrl req) := by
  obtain ⟨rest, hrest⟩ : ∃ rest, fragmentEvents seen hookUrl req =
      rowEvents seen hookUrl req ++ rest := by
    simp only [fragmentEvents, List.append_assoc]
    exact ⟨_, rfl⟩
  have hnil : rowEvents seen hookUrl req = rowEvents seen hookUrl req ++ [] :=
    (List.append_nil _).symm
  rw [hrest, rowEvents, attributeOf_tag, ← List.append_nil (tag _ _), attributeOf_tag]

end Attributes

section Values

theorem members_eq (headers : List (String × String)) :
    JsonDumps.members (headers.map fun h => (h.1, .str h.2)) = fieldValues headers := by
  induction headers with
  | nil => rfl
  | cons h headers ih => exact congrArg (_ :: ·) ih

theorem fieldValues_injective :
    Function.Injective fun h : String × String =>
      ((.ofString h.1, .string (.ofString h.2)) : PyStr × Value) := by
  intro h h' heq
  obtain ⟨hname, hvalue⟩ := Prod.mk.inj heq
  exact Prod.ext (PyStr.ofString_injective hname)
    (PyStr.ofString_injective (Value.string.inj hvalue))

theorem textValue_injective : Function.Injective textValue := by
  rintro (_ | text) (_ | text') h
  · rfl
  · exact absurd h (by simp [textValue])
  · exact absurd h (by simp [textValue])
  · exact congrArg some (PyStr.ofString_injective (Value.string.inj h))

/-- Nothing is lost of the JSON in an attribute. -/
theorem kept_htmlsafe (v : JsonDumps.PyValue) :
    (htmlsafe (JsonDumps.dumps v)).map kept = htmlsafe (JsonDumps.dumps v) := by
  have hid : ∀ c ∈ htmlsafe (JsonDumps.dumps v), kept c = id c := by
    intro c hc
    refine if_neg ?_
    rintro rfl
    exact absurd (literal_htmlsafe v _ hc).1 (by decide)
  rw [List.map_congr_left hid, List.map_id]

end Values

/-- What is seen of a text in an attribute. -/
def seenText (isEnd : Char → Bool) (s : String) : String :=
  .ofList ((joinLines isEnd s.toList).map kept)

/-- The captured request, as `buildCurl` is to have it: with the path behind the hook's own URL. -/
structure Shows (isEnd : Char → Bool) (hookUrl : String) (r : CapturedRequest) (d : Dataset) :
    Prop where
  method : d.method = seenText isEnd r.method
  url : d.url = seenText isEnd (hookUrl ++ r.path)
  headers : d.headers.Perm r.headers.items
  body : d.body = r.bodyPreview
  bodySize : d.bodySize = r.bodySize

section Dataset

variable {isEnd : Char → Bool} {hookUrl : String} {req : Request}

theorem attributes_row (name : String) :
    attributeOf name (fragmentEvents (joinLines isEnd) hookUrl req) =
      attributeOf name (rowEvents (joinLines isEnd) hookUrl req ++ []) := by
  rw [List.append_nil, attributeOf_fragment]

theorem data_method : attributeOf "data-method" (fragmentEvents (joinLines isEnd) hookUrl req) =
    some (seenText isEnd req.method).toList := by
  rw [attributes_row, rowEvents, attributeOf_tag]
  simp [seenText]

theorem data_headers : attributeOf "data-headers" (fragmentEvents (joinLines isEnd) hookUrl req) =
    some (htmlsafe (JsonDumps.dumps (headersValue req.headers))) := by
  rw [attributes_row, rowEvents, attributeOf_tag]
  simp [kept_htmlsafe]

theorem data_url : attributeOf "data-url" (fragmentEvents (joinLines isEnd) hookUrl req) =
    some (seenText isEnd (hookUrl ++ req.path)).toList := by
  rw [attributes_row, rowEvents, attributeOf_tag]
  simp [seenText]

/-- A printable text is seen as it is. -/
theorem seenText_of_printable (hend : EndsLines isEnd) {s : String}
    (h : ∀ c ∈ s.toList, Printable c) : seenText isEnd s = s := by
  have hjoined : joinLines isEnd s.toList = s.toList := by
    have happend := joinLines_append_stays hend (fun c hc => Or.inr (h c hc)) []
    simpa [joinLines] using happend
  have hid : ∀ c ∈ s.toList, kept c = id c := by
    intro c hc
    refine if_neg ?_
    rintro rfl
    exact absurd (h _ hc) (by decide)
  rw [seenText, hjoined, List.map_congr_left hid, List.map_id, String.ofList_toList]

/-- The JSON of the body, and what it says. -/
theorem data_body (hend : EndsLines isEnd) : ∃ text,
    attributeOf "data-body" (fragmentEvents (joinLines isEnd) hookUrl req) = some text ∧
      Says text (textValue req.bodyPreview) := by
  rw [attributes_row, rowEvents, attributeOf_tag]
  cases req.bodyPreview with
  | none =>
    refine ⟨"null".toList, ?_, says_dumps .none⟩
    have hnull := seenText_of_printable hend (s := "null") (forall_mem_toList rfl (by decide))
    simpa [seenText, ← String.toList_inj] using hnull
  | some body => exact ⟨_, by simp [kept_htmlsafe], says_dumps (.str body)⟩

theorem data_bodySize (hend : EndsLines isEnd) :
    attributeOf "data-body-size" (fragmentEvents (joinLines isEnd) hookUrl req) =
      some (bodySizeText req).toList := by
  have hsize : seenText isEnd (bodySizeText req) = bodySizeText req :=
    seenText_of_printable hend (printable_int _)
  rw [attributes_row, rowEvents, attributeOf_tag]
  simpa [seenText, ← String.toList_inj] using hsize

theorem toNat_bodySize (req : Request) : (bodySizeText req).toNat? = some req.bodySize :=
  Nat.toNat?_repr req.bodySize

theorem says_headers : Says (htmlsafe (JsonDumps.dumps (headersValue req.headers)))
    (.object (fieldValues (sortedHeaders req.headers))) := by
  rw [← members_eq]
  exact says_dumps (headersValue req.headers)

theorem requestIdOf_fragment (hend : EndsLines isEnd) (r : CapturedRequest)
    (eventType : Option String) :
    requestIdOf (fragmentEvents (joinLines isEnd) hookUrl (.ofRow r eventType)) = some r.id.str := by
  have hseen : seenText isEnd r.id.str = r.id.str := by
    apply seenText_of_printable hend
    intro c hc
    rcases UUID.mem_str hc with rfl | hhex
    · decide
    · exact forall_mem_toList rfl (by decide) c hhex
  rw [requestIdOf, attributes_row, rowEvents, attributeOf_tag]
  simpa [seenText, Request.ofRow] using hseen

/-- The dataset of the row is that of the captured request, and no other. -/
theorem isDataset_iff (hend : EndsLines isEnd) {r : CapturedRequest} {eventType : Option String}
    (d : Dataset) : IsDataset (fragmentEvents (joinLines isEnd) hookUrl (.ofRow r eventType)) d ↔
      Shows isEnd hookUrl r d := by
  obtain ⟨bodyText, hbodyText, hbodySays⟩ :=
    @data_body isEnd hookUrl (.ofRow r eventType) hend
  have hperm : (sortedHeaders r.headers).Perm r.headers.items := List.mergeSort_perm _ _
  constructor
  · rintro ⟨hmethod, hurl, ⟨text, members, htext, hsays, hmembers⟩, ⟨body, hbody, hbodyValue⟩,
      ⟨size, hsize, hsizeValue⟩⟩
    rw [data_method] at hmethod
    rw [data_url] at hurl
    rw [data_headers] at htext
    rw [hbodyText] at hbody
    rw [data_bodySize hend] at hsize
    obtain rfl := Option.some.inj htext
    obtain rfl := Option.some.inj hbody
    obtain rfl := Option.some.inj hsize
    have hobject := Value.object.inj (says_headers.unique hsays)
    subst hobject
    refine ⟨(String.toList_inj.mp (Option.some.inj hmethod)).symm,
      (String.toList_inj.mp (Option.some.inj hurl)).symm, ?_,
      textValue_injective (hbodyValue.unique hbodySays), ?_⟩
    · exact ((List.map_perm_map_iff fieldValues_injective).mp hmembers).trans hperm
    · rw [String.ofList_toList, toNat_bodySize] at hsizeValue
      exact (Option.some.inj hsizeValue).symm
  · rintro ⟨hmethod, hurl, hheaders, hbody, hsize⟩
    refine ⟨hmethod ▸ data_method, hurl ▸ data_url, ⟨_, _, data_headers, says_headers, ?_⟩,
      ⟨bodyText, hbodyText, hbody ▸ hbodySays⟩, ⟨_, data_bodySize hend, ?_⟩⟩
    · exact (hheaders.trans hperm.symm).map _
    · rw [String.ofList_toList, toNat_bodySize, hsize]
      rfl

end Dataset

/-- What the copy button has of a row is what was captured, and what the replay button has is its
id, from a page as from the stream. -/
theorem row_dataset {entities : Entities} (h : Resolves entities) (hookUrl : String)
    (r : CapturedRequest) (eventType : Option String) : ∃ page streamed,
    readHtml entities (fragment hookUrl (.ofRow r eventType)) = some (.data, page) ∧
      readHtml entities (SseFrame.message (fragment hookUrl (.ofRow r eventType))).data =
        some (.data, streamed) ∧
      (requestIdOf page = some r.id.str ∧ requestIdOf streamed = some r.id.str) ∧
      ∀ d, (IsDataset page d ↔ Shows isBreak hookUrl r d) ∧
        (IsDataset streamed d ↔ Shows SseFrame.isLineEnd hookUrl r d) := by
  have hpage := read_joined h endsLines_isBreak hookUrl [.ofRow r eventType]
  have hstreamed := read_joined h endsLines_isLineEnd hookUrl [.ofRow r eventType]
  simp only [List.flatMap_cons, List.flatMap_nil, List.append_nil] at hpage hstreamed
  rw [← isBreak_joined, ← message_data] at hstreamed
  exact ⟨_, _, hpage, hstreamed, ⟨requestIdOf_fragment endsLines_isBreak r eventType,
    requestIdOf_fragment endsLines_isLineEnd r eventType⟩,
    fun d => ⟨isDataset_iff endsLines_isBreak d, isDataset_iff endsLines_isLineEnd d⟩⟩

def hostileRequest : CapturedRequest := { sampleRequest with
  path := "/h/tok/\"><script>'\r\n"
  bodyPreview := some "</li>" }

theorem hostile_dataset : ∃ page streamed,
    readHtml sampleEntities
        (fragment "https://hooks.example.com/h/tok" (.ofRow hostileRequest (some "<b>"))) =
      some (.data, page) ∧
    readHtml sampleEntities (SseFrame.message
        (fragment "https://hooks.example.com/h/tok" (.ofRow hostileRequest (some "<b>")))).data =
      some (.data, streamed) ∧
    (requestIdOf page = some hostileRequest.id.str ∧
      requestIdOf streamed = some hostileRequest.id.str) ∧
    ∀ d, (IsDataset page d ↔ Shows isBreak "https://hooks.example.com/h/tok" hostileRequest d) ∧
      (IsDataset streamed d ↔
        Shows SseFrame.isLineEnd "https://hooks.example.com/h/tok" hostileRequest d) :=
  row_dataset ⟨fun _ => rfl, fun _ => rfl, fun _ => rfl⟩ _ _ _

end Hooktrace.RowDataset
