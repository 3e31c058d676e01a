import Hooktrace.EventStream
import Hooktrace.LiveStream

/-!
The frame around a fragment that a stream sends: one `data:` line for each line of the fragment.
Python ends lines in more places than a browser, and never in fewer.
-/
namespace Hooktrace.SseFrame

open EventStream

/-- Where `str.splitlines` ends a line. -/
def isLineEnd (c : Char) : Bool :=
  (0x0A ≤ c.toNat ∧ c.toNat ≤ 0x0D) ∨ (0x1C ≤ c.toNat ∧ c.toNat ≤ 0x1E) ∨ c.toNat = 0x85 ∨
    c.toNat = 0x2028 ∨ c.toNat = 0x2029

/-- The lines of a line that has begun and what follows. Behind the last end there is no line. -/
def splitlinesFrom : List Char → List Char → List (List Char)
  | line, [] => if line = [] then [] else [line]
  | line, '\r' :: '\n' :: s => line :: splitlinesFrom [] s
  | line, c :: s =>
    if isLineEnd c then line :: splitlinesFrom [] s else splitlinesFrom (line ++ [c]) s

def splitlines (html : List Char) : List (List Char) := splitlinesFrom [] html

def frame (html : List Char) : List Char :=
  "event: message\n".toList ++
    ['\n'].intercalate ((splitlines html).map ("data: ".toList ++ ·)) ++ "\n\n".toList

/-- What is yielded first. -/
def connected : List Char := ": connected\n\n".toList

def messageType : List Char := "message".toList

def message (html : List Char) : Event where
  type := messageType
  data := ['\n'].intercalate (splitlines html)
  lastEventId := []

section Splitlines

/-- The line ends of a browser are among those of Python. -/
theorem unbroken_append {line : List Char} {c : Char} (h : Unbroken line)
    (hc : ¬ isLineEnd c = true) : Unbroken (line ++ [c]) := by
  have hcr : '\r' ≠ c := by
    rintro rfl
    exact hc (by decide)
  have hlf : '\n' ≠ c := by
    rintro rfl
    exact hc (by decide)
  exact ⟨by simp [h.1, hcr], by simp [h.2, hlf]⟩

theorem unbroken_of_splitlinesFrom {begun html : List Char} (h : Unbroken begun) :
    ∀ line ∈ splitlinesFrom begun html, Unbroken line := by
  have hnil : Unbroken [] := ⟨List.not_mem_nil, List.not_mem_nil⟩
  fun_induction splitlinesFrom begun html with
  | case1 => simp
  | case2 begun => exact List.forall_mem_singleton.mpr h
  | case3 begun s ih => exact List.forall_mem_cons.mpr ⟨h, ih hnil⟩
  | case4 begun c s _ _ ih => exact List.forall_mem_cons.mpr ⟨h, ih hnil⟩
  | case5 begun c s _ hc ih => exact ih (unbroken_append h hc)

theorem splitlinesFrom_ne_nil {begun html : List Char} (h : begun ≠ [] ∨ html ≠ []) :
    splitlinesFrom begun html ≠ [] := by
  fun_induction splitlinesFrom begun html with
  | case1 => simp at h
  | case2 begun => simp
  | case3 begun s ih => simp
  | case4 begun c s _ _ ih => simp
  | case5 begun c s _ _ ih => exact ih (Or.inl (by simp))

/-- Lines with a separator, and one more behind them. -/
theorem intercalate_append {lines : List (List Char)} (h : lines ≠ []) :
    ['\n'].intercalate lines ++ ['\n'] = lines.flatMap (· ++ ['\n']) := by
  induction lines with
  | nil => exact absurd rfl h
  | cons line lines ih =>
    by_cases hlines : lines = []
    · subst hlines
      simp
    · rw [List.intercalate_cons_of_ne_nil hlines, List.append_assoc, List.append_assoc, ih hlines]
      simp

/-- A first line, the lines, and a blank one. -/
theorem append_lines (first : List Char) {lines : List (List Char)} (h : lines ≠ []) :
    first ++ ['\n'] ++ ['\n'].intercalate lines ++ (['\n'] ++ ['\n']) =
      (first :: lines ++ [[]]).flatMap (· ++ ['\n']) := by
  rw [List.append_assoc (first ++ ['\n']), ← List.append_assoc _ ['\n'] ['\n'],
    intercalate_append h]
  simp

end Splitlines

section Frames

variable {html : List Char}

def frameLines (html : List Char) : List (List Char) :=
  "event: message".toList :: (splitlines html).map ("data: ".toList ++ ·) ++ [[]]

theorem splitlines_ne_nil (h : html ≠ []) : splitlines html ≠ [] :=
  splitlinesFrom_ne_nil (Or.inr h)

theorem frame_eq (h : html ≠ []) : frame html = (frameLines html).flatMap (· ++ ['\n']) := by
  have hlines : (splitlines html).map ("data: ".toList ++ ·) ≠ [] :=
    fun hnil => splitlines_ne_nil h (List.map_eq_nil_iff.mp hnil)
  have hstart : "event: message\n".toList = "event: message".toList ++ ['\n'] := by simp
  have hend : "\n\n".toList = ['\n'] ++ ['\n'] := by simp
  calc frame html
      = "event: message".toList ++ ['\n'] ++
          ['\n'].intercalate ((splitlines html).map ("data: ".toList ++ ·)) ++ (['\n'] ++ ['\n']) :=
        congrArg₂ (fun start final => start ++ ['\n'].intercalate ((splitlines html).map
          ("data: ".toList ++ ·)) ++ final) hstart hend
    _ = (frameLines html).flatMap (· ++ ['\n']) := append_lines _ hlines

theorem frame_head (html : List Char) :
    ∃ rest, frame html = 'e' :: rest := by
  have hevent : "event: message\n".toList = 'e' :: "vent: message\n".toList := by simp
  exact ⟨_, congrArg (fun start => start ++ ['\n'].intercalate ((splitlines html).map
    ("data: ".toList ++ ·)) ++ "\n\n".toList) hevent⟩

theorem unbroken_frameLines : ∀ line ∈ frameLines html, Unbroken line := by
  have hempty : Unbroken [] := ⟨List.not_mem_nil, List.not_mem_nil⟩
  intro line hline
  rcases List.mem_append.mp hline with hline | hline
  · rcases List.mem_cons.mp hline with rfl | hline
    · exact ⟨by decide, by decide⟩
    · obtain ⟨text, htext, rfl⟩ := List.mem_map.mp hline
      have hunbroken := unbroken_of_splitlinesFrom hempty text htext
      exact ⟨by simp [hunbroken.1], by simp [hunbroken.2]⟩
  · rw [List.mem_singleton.mp hline]
    exact hempty

/-- A frame ends where the next one begins. -/
theorem linesFrom_frame (h : html ≠ []) (rest : List Char) :
    linesFrom [] (frame html ++ rest) = frameLines html ++ linesFrom [] rest := by
  rw [frame_eq h, linesFrom_lines unbroken_frameLines]

/-- A frame is one event, and leaves everything else as it was. -/
theorem read_frameLines {s : State} (h : html ≠ []) (hdata : s.data = [])
    (htype : s.eventType = []) (hid : s.lastEventId = []) :
    (frameLines html).foldl readLine s = { s with events := s.events ++ [message html] } := by
  have hevent : readLine s "event: message".toList = { s with eventType := messageType } :=
    readLine_event messageType
  have hmessage : messageType ≠ [] := by decide
  rw [frameLines, List.cons_append, List.foldl_cons, hevent, List.foldl_append,
    readLine_data_lines, ← intercalate_append (splitlines_ne_nil h), hdata, List.foldl_cons,
    readLine_blank hmessage (List.nil_append _), List.foldl_nil, message, hid]
  obtain ⟨data, eventType, lastEventId, retry, events⟩ := s
  subst hdata htype
  rfl

end Frames

section Streams

variable {htmls : List (List Char)}

/-- Frames, one after the other, from a state with nothing gathered. -/
theorem read_frames {s : State} (h : ∀ html ∈ htmls, html ≠ []) (hdata : s.data = [])
    (htype : s.eventType = []) (hid : s.lastEventId = []) :
    (linesFrom [] (htmls.flatMap frame)).foldl readLine s =
      { s with events := s.events ++ htmls.map message } := by
  induction htmls generalizing s with
  | nil => simp [linesFrom]
  | cons html htmls ih =>
    obtain ⟨hhtml, hhtmls⟩ := List.forall_mem_cons.mp h
    rw [List.flatMap_cons, linesFrom_frame hhtml, List.foldl_append,
      read_frameLines hhtml hdata htype hid, ih hhtmls]
    · simp only [List.map_cons, List.append_assoc, List.singleton_append]
    · exact hdata
    · exact htype
    · exact hid

/-- The comment that a stream begins with is no event. -/
theorem read_connected {s : State} (hdata : s.data = []) (htype : s.eventType = [])
    (rest : List Char) : (linesFrom [] (connected ++ rest)).foldl readLine s =
      (linesFrom [] rest).foldl readLine s := by
  have hlines : connected = [':' :: " connected".toList, []].flatMap (· ++ ['\n']) := by
    show ": connected\n\n".toList = _
    simp
  have hunbroken : ∀ line ∈ [':' :: " connected".toList, []], Unbroken line := by
    simp only [List.forall_mem_cons]
    exact ⟨⟨by decide, by decide⟩, ⟨by decide, by decide⟩, by simp⟩
  have hblank : readLine s [] = s := by
    obtain ⟨data, eventType, lastEventId, retry, events⟩ := s
    subst hdata htype
    rfl
  rw [hlines, linesFrom_lines hunbroken, List.foldl_append]
  refine congrArg (fun s => List.foldl readLine s (linesFrom [] rest)) ?_
  rw [List.foldl_cons, readLine_comment, List.foldl_cons, hblank, List.foldl_nil]

theorem readStream_of_head {stream : List Char} (h : stream.head? ≠ some '\uFEFF') :
    readStream stream = (linesFrom [] stream).foldl readLine initial := by
  rw [readStream, if_neg h]

/-- There is no byte order mark. -/
theorem head_flatMap_frame : (htmls.flatMap frame).head? ≠ some '\uFEFF' := by
  cases htmls with
  | nil => simp
  | cons html htmls =>
    obtain ⟨rest, hrest⟩ := frame_head html
    rw [List.flatMap_cons, hrest]
    simp

end Streams

/-- A stream is its fragments: one message for each, and nothing else, with the comment in front or
without. -/
theorem read_stream {htmls : List (List Char)} (h : ∀ html ∈ htmls, html ≠ []) :
    readStream (htmls.flatMap frame) = { initial with events := htmls.map message } ∧
      readStream (connected ++ htmls.flatMap frame) =
        { initial with events := htmls.map message } := by
  have hframes := read_frames (s := initial) h rfl rfl rfl
  have hcomment : (connected ++ htmls.flatMap frame).head? ≠ some '\uFEFF' := by
    show (": connected\n\n".toList ++ htmls.flatMap frame).head? ≠ some '\uFEFF'
    simp
  refine ⟨?_, ?_⟩
  · rw [readStream_of_head head_flatMap_frame, hframes]
    rfl
  · rw [readStream_of_head hcomment, read_connected rfl rfl, hframes]
    rfl

/-- A fragment with line ends of both kinds. -/
theorem breaks_read : readStream ([ "<li>\r\n\u2028\r</li>\n".toList ].flatMap frame) =
    { initial with events := [ "<li>\r\n\u2028\r</li>\n".toList ].map message } :=
  (read_stream (List.forall_mem_singleton.mpr (by simp))).1

def chunkText (render : UUID → List Char) : LiveStream.Chunk → List Char
  | .connected => connected
  | .message requestId => frame (render requestId)

/-- What a browser reads of the chunks it was sent, wherever in them the comments stand. -/
theorem read_chunks {render : UUID → List Char} (hrender : ∀ requestId, render requestId ≠ [])
    {s : State} (hdata : s.data = []) (htype : s.eventType = []) (hid : s.lastEventId = [])
    (chunks : List LiveStream.Chunk) :
    (linesFrom [] (chunks.flatMap (chunkText render))).foldl readLine s =
      { s with events := s.events ++
        (chunks.filterMap LiveStream.Chunk.request).map fun requestId =>
          message (render requestId) } := by
  induction chunks generalizing s with
  | nil => simp [linesFrom]
  | cons chunk chunks ih =>
    cases chunk with
    | connected =>
      rw [List.flatMap_cons, chunkText, read_connected hdata htype, ih hdata htype hid]
      rfl
    | message requestId =>
      rw [List.flatMap_cons, chunkText, linesFrom_frame (hrender requestId), List.foldl_append,
        read_frameLines (hrender requestId) hdata htype hid, ih]
      · rw [List.append_assoc]
        rfl
      · exact hdata
      · exact htype
      · exact hid

/-- The events of a client are the messages that were sent to it. -/
theorem read_sent {render : UUID → List Char} (hrender : ∀ requestId, render requestId ≠ [])
    (s : LiveStream.State) :
    ((linesFrom [] (s.sent.flatMap (chunkText render))).foldl readLine initial).events =
      s.messages.map fun requestId => message (render requestId) := by
  rw [read_chunks hrender rfl rfl rfl]
  rfl

end Hooktrace.SseFrame
