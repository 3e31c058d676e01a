import Hooktrace.PyText

/-!
POSIX paths as `pathlib` and `posixpath` have them, on a file system without symbolic links. A
path is a text; where it leads is a list of names from the root. The texts are resolved piece by
piece, and a resolved text is the rendering of the names that it leads to.
-/
namespace Hooktrace.PosixPath

abbrev Name := List Char

inductive ValueError where
  | embeddedNull
  deriving DecidableEq

structure PurePath where
  root : List Char
  tail : List Name
  deriving DecidableEq

/-- `posixpath.splitroot`, without the drive, which is always empty. -/
def splitroot : List Char → List Char × List Char
  | '/' :: '/' :: '/' :: rest => (['/'], '/' :: '/' :: rest)
  | '/' :: '/' :: rest => (['/', '/'], rest)
  | '/' :: rest => (['/'], rest)
  | path => ([], path)

/-- The pieces that are names, or go up. -/
def kept (pieces : List (List Char)) : List Name :=
  pieces.filter fun piece => piece ≠ [] ∧ piece ≠ ['.']

/-- `Path(text)` -/
def parse (text : List Char) : PurePath :=
  ⟨(splitroot text).1, kept (splitOn '/' (splitroot text).2)⟩

/-- `str(path)` -/
def PurePath.str (path : PurePath) : List Char :=
  let text := path.root ++ ['/'].intercalate path.tail
  if text = [] then ['.'] else text

/-- `posixpath.join` of two texts. -/
def join (a b : List Char) : List Char :=
  if b.head? = some '/' then b
  else if a = [] ∨ a.getLast? = some '/' then a ++ b
  else a ++ '/' :: b

/-- `path / key` -/
def PurePath.joined (path : PurePath) (key : List Char) : PurePath := parse (join path.str key)

/-- `path[:path.rindex(sep)]` -/
def beforeLast (path : List Char) : List Char :=
  ((path.reverse.dropWhile (· ≠ '/')).drop 1).reverse

def realStep (path : List Char) (name : List Char) : Except ValueError (List Char) :=
  if name = [] ∨ name = ['.'] then .ok path
  else if name = ['.', '.'] then
    .ok (if beforeLast path = [] then ['/'] else beforeLast path)
  else if nul ∈ name then .error .embeddedNull
  else .ok (if path = ['/'] then '/' :: name else path ++ '/' :: name)

/-- `os.path.realpath` -/
def realpath (cwd filename : List Char) : Except ValueError (List Char) :=
  (splitOn '/' filename).foldlM realStep (if filename.head? = some '/' then ['/'] else cwd)

/-- `path.resolve()` -/
def PurePath.resolve (cwd : List Char) (path : PurePath) : Except ValueError PurePath :=
  (realpath cwd path.str).map parse

/-! Where a text leads. -/

structure IsName (name : Name) : Prop where
  ne_nil : name ≠ []
  ne_dot : name ≠ ['.']
  ne_dots : name ≠ ['.', '.']
  slash_notMem : '/' ∉ name
  nul_notMem : nul ∉ name

def walkStep (place : List Name) (piece : List Char) : List Name :=
  if piece = [] ∨ piece = ['.'] then place
  else if piece = ['.', '.'] then place.dropLast
  else place ++ [piece]

def walk (start : List Name) (pieces : List (List Char)) : List Name := pieces.foldl walkStep start

def leads (start : List Name) (text : List Char) : List Name :=
  walk (if text.head? = some '/' then [] else start) (splitOn '/' text)

def render : List Name → List Char
  | [] => ['/']
  | names => names.flatMap ('/' :: ·)

section Pieces

variable {text : List Char} {pieces : List (List Char)} {names : List Name}

theorem slash_notMem_splitOn (text : List Char) : ∀ piece ∈ splitOn '/' text, '/' ∉ piece := by
  induction text with
  | nil => simp [splitOn]
  | cons c rest ih =>
    rw [splitOn]
    split
    · exact List.forall_mem_cons.mpr ⟨List.not_mem_nil, ih⟩
    · rename_i hc
      cases hrest : splitOn '/' rest with
      | nil => simpa using Ne.symm hc
      | cons chunk chunks =>
        rw [hrest] at ih
        obtain ⟨hchunk, hchunks⟩ := List.forall_mem_cons.mp ih
        refine List.forall_mem_cons.mpr ⟨?_, hchunks⟩
        simpa [hchunk] using Ne.symm hc

theorem splitOn_ne_nil (text : List Char) : splitOn '/' text ≠ [] := by
  cases text with
  | nil => simp [splitOn]
  | cons c rest =>
    rw [splitOn]
    split
    · simp
    · split <;> simp

theorem splitOn_slash (a b : List Char) :
    splitOn '/' (a ++ '/' :: b) = splitOn '/' a ++ splitOn '/' b := by
  induction a with
  | nil => simp [splitOn]
  | cons c a ih =>
    rw [List.cons_append, splitOn, splitOn, ih]
    split
    · rfl
    · cases ha : splitOn '/' a with
      | nil => exact absurd ha (splitOn_ne_nil a)
      | cons chunk chunks => rfl

theorem splitOn_intercalate (hne : names ≠ []) (hnames : ∀ name ∈ names, '/' ∉ name) :
    splitOn '/' (['/'].intercalate names) = names := by
  induction names with
  | nil => exact absurd rfl hne
  | cons name names ih =>
    obtain ⟨hname, hnames⟩ := List.forall_mem_cons.mp hnames
    by_cases hlast : names = []
    · subst hlast
      simpa using splitOn_of_notMem hname
    · rw [List.intercalate_cons_of_ne_nil hlast, List.append_assoc, List.singleton_append,
        splitOn_append hname, ih hlast hnames]

theorem nul_mem_splitOn (text : List Char) :
    (∃ piece ∈ splitOn '/' text, nul ∈ piece) ↔ nul ∈ text := by
  induction text with
  | nil => simp [splitOn]
  | cons c rest ih =>
    rw [List.mem_cons, ← ih, splitOn]
    split
    · rename_i hc
      subst hc
      have hslash : nul ≠ '/' := by decide
      simp [hslash]
    · cases hrest : splitOn '/' rest with
      | nil => exact absurd hrest (splitOn_ne_nil rest)
      | cons chunk chunks => simp [or_assoc]

theorem kept_eq_self (h : ∀ name ∈ names, name ≠ [] ∧ name ≠ ['.']) : kept names = names :=
  List.filter_eq_self.mpr fun name hname => decide_eq_true (h name hname)

theorem mem_kept {name : Name} : name ∈ kept pieces ↔
    name ∈ pieces ∧ name ≠ [] ∧ name ≠ ['.'] := by
  simp [kept]

theorem kept_slash (rest : List Char) :
    kept (splitOn '/' ('/' :: rest)) = kept (splitOn '/' rest) := by
  rw [splitOn, if_pos rfl, kept, List.filter_cons_of_neg (by simp)]
  rfl

/-- The names of a text are those of its parsed form. -/
theorem kept_splitOn (text : List Char) : kept (splitOn '/' text) = (parse text).tail := by
  unfold parse
  fun_cases splitroot text <;> simp only [kept_slash]

end Pieces

section Walking

variable {start : List Name} {pieces : List (List Char)}

theorem walk_append (a b : List (List Char)) : walk start (a ++ b) = walk (walk start a) b :=
  List.foldl_append

/-- Only the names count. -/
theorem walk_kept (start : List Name) (pieces : List (List Char)) :
    walk start (kept pieces) = walk start pieces := by
  induction pieces generalizing start with
  | nil => rfl
  | cons piece pieces ih =>
    by_cases hpiece : piece = [] ∨ piece = ['.']
    · have hstay : walkStep start piece = start := if_pos hpiece
      rw [kept, List.filter_cons_of_neg (by simpa [or_iff_not_imp_left] using hpiece)]
      exact (ih start).trans (congrArg (fun place => walk place pieces) hstay.symm)
    · rw [kept, List.filter_cons_of_pos (by simpa [not_or] using hpiece)]
      exact ih (walkStep start piece)

theorem walk_names {names : List Name} (h : ∀ name ∈ names, IsName name) :
    walk start names = start ++ names := by
  induction names generalizing start with
  | nil => exact (List.append_nil start).symm
  | cons name names ih =>
    obtain ⟨hname, hnames⟩ := List.forall_mem_cons.mp h
    have hstep : walkStep start name = start ++ [name] := by
      rw [walkStep, if_neg (not_or.mpr ⟨hname.ne_nil, hname.ne_dot⟩), if_neg hname.ne_dots]
    show walk (walkStep start name) names = _
    rw [hstep, ih hnames, List.append_assoc, List.singleton_append]

theorem walkStep_isName {piece : List Char} (hpiece : '/' ∉ piece) (hnul : nul ∉ piece)
    (h : ∀ name ∈ start, IsName name) : ∀ name ∈ walkStep start piece, IsName name := by
  unfold walkStep
  split
  · exact h
  · rename_i hkept
    split
    · exact fun name hname => h name (List.mem_of_mem_dropLast hname)
    · rename_i hdots
      rw [not_or] at hkept
      exact List.forall_mem_append.mpr
        ⟨h, List.forall_mem_singleton.mpr ⟨hkept.1, hkept.2, hdots, hpiece, hnul⟩⟩

theorem walk_isName (hpieces : ∀ piece ∈ pieces, '/' ∉ piece ∧ nul ∉ piece)
    (h : ∀ name ∈ start, IsName name) : ∀ name ∈ walk start pieces, IsName name := by
  induction pieces generalizing start with
  | nil => exact h
  | cons piece pieces ih =>
    obtain ⟨hpiece, hpieces⟩ := List.forall_mem_cons.mp hpieces
    exact ih hpieces (walkStep_isName hpiece.1 hpiece.2 h)

theorem leads_isName {text : List Char} (hnul : nul ∉ text) (h : ∀ name ∈ start, IsName name) :
    ∀ name ∈ leads start text, IsName name := by
  refine walk_isName (fun piece hpiece => ⟨slash_notMem_splitOn text piece hpiece, ?_⟩) ?_
  · exact fun hmem => hnul ((nul_mem_splitOn text).mp ⟨piece, hpiece, hmem⟩)
  split
  · simp
  · exact h

end Walking

section Rendering

variable {place names : List Name}

theorem flatMap_slash (hne : names ≠ []) :
    names.flatMap ('/' :: ·) = '/' :: ['/'].intercalate names := by
  induction names with
  | nil => exact absurd rfl hne
  | cons name names ih =>
    by_cases hlast : names = []
    · subst hlast
      simp
    · rw [List.flatMap_cons, ih hlast, List.intercalate_cons_of_ne_nil hlast]
      simp

theorem render_eq (names : List Name) : render names = '/' :: ['/'].intercalate names := by
  cases names with
  | nil => rfl
  | cons name names => exact flatMap_slash (by simp)

theorem str_root (names : List Name) : PurePath.str ⟨['/'], names⟩ = render names := by
  rw [render_eq]
  rfl

theorem head?_intercalate (h : ∀ name ∈ names, name ≠ [] ∧ '/' ∉ name) :
    (['/'].intercalate names).head? ≠ some '/' := by
  cases names with
  | nil => simp
  | cons name names =>
    obtain ⟨hne, hslash⟩ := h name List.mem_cons_self
    obtain ⟨c, rest, rfl⟩ := List.exists_cons_of_ne_nil hne
    have hc : c ≠ '/' := fun heq => hslash (by simp [heq])
    by_cases hlast : names = []
    · subst hlast
      simpa using hc
    · rw [List.intercalate_cons_of_ne_nil hlast]
      simpa using hc

theorem kept_intercalate (h : ∀ name ∈ names, name ≠ [] ∧ name ≠ ['.'] ∧ '/' ∉ name) :
    kept (splitOn '/' (['/'].intercalate names)) = names := by
  by_cases hne : names = []
  · subst hne
    rfl
  · rw [splitOn_intercalate hne fun name hname => (h name hname).2.2]
    exact kept_eq_self fun name hname => ⟨(h name hname).1, (h name hname).2.1⟩

theorem parse_render (h : ∀ name ∈ names, IsName name) : parse (render names) = ⟨['/'], names⟩ := by
  have hroot : splitroot (render names) = (['/'], ['/'].intercalate names) := by
    have hhead := head?_intercalate fun name hname => ⟨(h name hname).ne_nil,
      (h name hname).slash_notMem⟩
    rw [render_eq]
    cases hrest : ['/'].intercalate names with
    | nil => rfl
    | cons c rest =>
      rw [hrest] at hhead
      have hc : c ≠ '/' := by simpa using hhead
      rw [splitroot]
      · exact fun _ heq => hc (List.cons.inj heq).1
      · exact fun _ heq => hc (List.cons.inj heq).1
  rw [parse, hroot, kept_intercalate fun name hname =>
    ⟨(h name hname).ne_nil, (h name hname).ne_dot, (h name hname).slash_notMem⟩]

theorem render_ne_nil (names : List Name) : render names ≠ [] := by
  rw [render_eq]
  exact List.cons_ne_nil _ _

theorem beforeLast_append {name : List Char} (h : '/' ∉ name) (path : List Char) :
    beforeLast (path ++ '/' :: name) = path := by
  have hname : ∀ c ∈ name.reverse, decide (c ≠ '/') = true := fun c hc =>
    decide_eq_true fun heq => h (heq ▸ List.mem_reverse.mp hc)
  have hreverse : (path ++ '/' :: name).reverse = name.reverse ++ '/' :: path.reverse := by simp
  rw [beforeLast, hreverse, List.dropWhile_append_of_pos hname]
  simp

theorem render_concat (place : List Name) (name : Name) :
    render (place ++ [name]) = place.flatMap ('/' :: ·) ++ '/' :: name := by
  cases place with
  | nil => simp [render]
  | cons first place => simp [render]

theorem beforeLast_render (h : ∀ name ∈ place, IsName name) :
    (if beforeLast (render place) = [] then ['/'] else beforeLast (render place)) =
      render place.dropLast := by
  obtain rfl | ⟨place, name, rfl⟩ := List.eq_nil_or_concat' place
  · decide
  · have hname := h name (by simp)
    rw [render_concat, beforeLast_append hname.slash_notMem, List.dropLast_concat]
    cases place with
    | nil => rfl
    | cons first place => simp [render]

/-- A piece moves the text as it moves the place. -/
theorem realStep_render {piece : List Char} (hnul : nul ∉ piece)
    (h : ∀ name ∈ place, IsName name) :
    realStep (render place) piece = .ok (render (walkStep place piece)) := by
  unfold realStep walkStep
  split
  · rfl
  split
  · rw [beforeLast_render h]
  · rw [render_concat]
    cases place with
    | nil => rfl
    | cons first place =>
      have hne : render (first :: place) ≠ ['/'] := by
        have hfirst := (h first List.mem_cons_self).ne_nil
        simp [render, hfirst]
      rw [if_neg hne]
      rfl

theorem foldlM_realStep {pieces : List (List Char)} (hpieces : ∀ piece ∈ pieces, '/' ∉ piece)
    (h : ∀ name ∈ place, IsName name) : pieces.foldlM realStep (render place) =
      if ∃ piece ∈ pieces, nul ∈ piece then .error .embeddedNull
      else .ok (render (walk place pieces)) := by
  induction pieces generalizing place with
  | nil => simp [walk, pure, Except.pure]
  | cons piece pieces ih =>
    obtain ⟨hpiece, hpieces⟩ := List.forall_mem_cons.mp hpieces
    rw [List.foldlM_cons]
    by_cases hnul : nul ∈ piece
    · have hstep : realStep (render place) piece = .error .embeddedNull := by
        have hne : ¬ (piece = [] ∨ piece = ['.']) := by
          rintro (rfl | rfl)
          · simp at hnul
          · exact absurd hnul (by decide)
        have hdots : piece ≠ ['.', '.'] := by
          rintro rfl
          exact absurd hnul (by decide)
        rw [realStep, if_neg hne, if_neg hdots, if_pos hnul]
      rw [hstep, if_pos ⟨piece, List.mem_cons_self, hnul⟩]
      rfl
    · have hiff : (∃ p ∈ piece :: pieces, nul ∈ p) ↔ ∃ p ∈ pieces, nul ∈ p := by simp [hnul]
      simp only [hiff]
      rw [realStep_render hnul h]
      exact ih hpieces (walkStep_isName hpiece hnul h)

/-- The text is resolved to where it leads. -/
theorem realpath_render (h : ∀ name ∈ place, IsName name) (text : List Char) :
    realpath (render place) text =
      if nul ∈ text then .error .embeddedNull else .ok (render (leads place text)) := by
  have hfold (start : List Name) (hstart : ∀ name ∈ start, IsName name) :
      (splitOn '/' text).foldlM realStep (render start) =
        if nul ∈ text then .error .embeddedNull
        else .ok (render (walk start (splitOn '/' text))) := by
    have h := foldlM_realStep (slash_notMem_splitOn text) hstart
    simpa only [nul_mem_splitOn] using h
  unfold realpath leads
  split
  · exact hfold [] (by simp)
  · exact hfold place h

end Rendering

section Resolving

variable {place names : List Name}

theorem splitroot_root (text : List Char) :
    (splitroot text).1 = [] ∧ text.head? ≠ some '/' ∨
      text.head? = some '/' ∧ ((splitroot text).1 = ['/'] ∨ (splitroot text).1 = ['/', '/']) := by
  fun_cases splitroot text with
  | case4 path _ _ hother =>
    refine Or.inl ⟨rfl, fun hhead => ?_⟩
    obtain ⟨rest, rfl⟩ := List.head?_eq_some_iff.mp hhead
    exact hother rest rfl
  | _ => simp

theorem tail_parse (text : List Char) :
    ∀ name ∈ (parse text).tail, name ≠ [] ∧ name ≠ ['.'] ∧ '/' ∉ name := by
  intro name hname
  rw [← kept_splitOn, mem_kept] at hname
  exact ⟨hname.2.1, hname.2.2, slash_notMem_splitOn text name hname.1⟩

/-- The parsed form of a text is not changed by writing it out. -/
theorem kept_str (text : List Char) :
    kept (splitOn '/' (parse text).str) = (parse text).tail := by
  have htail := kept_intercalate (tail_parse text)
  have hroot : (parse text).root = (splitroot text).1 := rfl
  unfold PurePath.str
  dsimp only
  rw [hroot]
  obtain ⟨heq, -⟩ | ⟨-, heq | heq⟩ := splitroot_root text
  · rw [heq, List.nil_append]
    split
    · rename_i hempty
      rw [hempty] at htail
      exact htail
    · exact htail
  · rw [heq, if_neg (by simp), List.singleton_append, kept_slash, htail]
  · rw [heq, if_neg (by simp), List.cons_append, List.singleton_append, kept_slash, kept_slash,
      htail]

theorem head?_str (text : List Char) :
    (parse text).str.head? = some '/' ↔ text.head? = some '/' := by
  have hroot : (parse text).root = (splitroot text).1 := rfl
  have htail : (['/'].intercalate (parse text).tail).head? ≠ some '/' :=
    head?_intercalate fun name hname =>
      ⟨(tail_parse text name hname).1, (tail_parse text name hname).2.2⟩
  unfold PurePath.str
  dsimp only
  rw [hroot]
  obtain ⟨heq, hhead⟩ | ⟨hhead, heq | heq⟩ := splitroot_root text
  · rw [heq, List.nil_append]
    refine iff_of_false ?_ hhead
    split
    · decide
    · exact htail
  · rw [heq]
    exact iff_of_true (by simp) hhead
  · rw [heq]
    exact iff_of_true (by simp) hhead

theorem leads_str (text : List Char) : leads place (parse text).str = leads place text := by
  unfold leads
  simp only [head?_str]
  rw [← walk_kept _ (splitOn '/' (parse text).str), kept_str, ← kept_splitOn, walk_kept]

/-- The pieces that are dropped have no null byte. -/
theorem nul_mem_kept (text : List Char) :
    (∃ name ∈ kept (splitOn '/' text), nul ∈ name) ↔ nul ∈ text := by
  rw [← nul_mem_splitOn]
  constructor
  · rintro ⟨name, hname, hnul⟩
    exact ⟨name, (mem_kept.mp hname).1, hnul⟩
  · rintro ⟨piece, hpiece, hnul⟩
    refine ⟨piece, mem_kept.mpr ⟨hpiece, ?_, ?_⟩, hnul⟩
    · exact List.ne_nil_of_mem hnul
    · rintro rfl
      exact absurd hnul (by decide)

theorem nul_mem_str (text : List Char) : nul ∈ (parse text).str ↔ nul ∈ text := by
  rw [← nul_mem_kept, kept_str, ← kept_splitOn, nul_mem_kept]

/-- A path is resolved to where its text leads. -/
theorem resolve_parse (h : ∀ name ∈ place, IsName name) (text : List Char) :
    (parse text).resolve (render place) =
      if nul ∈ text then .error .embeddedNull else .ok ⟨['/'], leads place text⟩ := by
  rw [PurePath.resolve, realpath_render h, leads_str]
  simp only [nul_mem_str]
  split
  · rfl
  · rename_i hnul
    exact congrArg Except.ok (parse_render (leads_isName hnul h))

theorem getLast?_render (h : ∀ name ∈ names, IsName name) :
    (render names).getLast? = some '/' ↔ names = [] := by
  obtain rfl | ⟨names, name, rfl⟩ := List.eq_nil_or_concat' names
  · decide
  · have hname := h name (by simp)
    rw [render_concat]
    refine iff_of_false (fun hlast => ?_) (by simp)
    obtain ⟨rest, c, rfl⟩ := (List.eq_nil_or_concat' name).resolve_left hname.ne_nil
    rw [← List.cons_append, ← List.append_assoc, List.getLast?_concat] at hlast
    exact hname.slash_notMem (by simp [Option.some.inj hlast])

/-- A key is joined to a place by leading on from it. -/
theorem leads_join (h : ∀ name ∈ names, IsName name) (key : List Char) :
    leads place (join (render names) key) = leads names key := by
  have hhead : (render names).head? = some '/' := by
    rw [render_eq]
    rfl
  have hnames : walk [] (splitOn '/' (render names)) = names := by
    rw [← walk_kept, kept_splitOn, parse_render h]
    exact walk_names h
  unfold join
  split
  · rename_i hkey
    rw [leads, leads, if_pos hkey, if_pos hkey]
  · rename_i hkey
    simp only [render_ne_nil, false_or, getLast?_render h]
    rw [leads, leads, if_neg hkey]
    split
    · rename_i hroot
      subst hroot
      rw [if_pos (by rfl)]
      show walk [] (splitOn '/' ('/' :: key)) = _
      rw [splitOn, if_pos rfl]
      rfl
    · have hjoined : (render names ++ '/' :: key).head? = some '/' := by
        rw [List.head?_append, hhead]
        rfl
      rw [if_pos hjoined, splitOn_slash, walk_append, hnames]

theorem nul_mem_render (h : ∀ name ∈ names, IsName name) : nul ∉ render names := by
  have hslash : nul ≠ '/' := by decide
  cases names with
  | nil => simpa [render] using hslash
  | cons name names =>
    intro hmem
    obtain ⟨name', hname', hnul⟩ := List.mem_flatMap.mp hmem
    rcases List.mem_cons.mp hnul with heq | hnul
    · exact hslash heq
    · exact (h name' hname').nul_notMem hnul

theorem nul_mem_join (h : ∀ name ∈ names, IsName name) (key : List Char) :
    nul ∈ join (render names) key ↔ nul ∈ key := by
  have hslash : nul ≠ '/' := by decide
  have hrender := nul_mem_render h
  unfold join
  split
  · rfl
  · split <;> simp [hrender, hslash]

/-- `(base / key).resolve()` -/
theorem resolve_joined {cwd : List Char} (hcwd : ∃ place, (∀ name ∈ place, IsName name) ∧
    render place = cwd) (h : ∀ name ∈ names, IsName name) (key : List Char) :
    (PurePath.joined ⟨['/'], names⟩ key).resolve cwd =
      if nul ∈ key then .error .embeddedNull else .ok ⟨['/'], leads names key⟩ := by
  obtain ⟨place, hplace, rfl⟩ := hcwd
  rw [PurePath.joined, str_root, resolve_parse hplace, leads_join h]
  simp only [nul_mem_join h]

end Resolving

section Prefixes

variable {names names' : List Name}

/-- The name where the second place leaves the first begins with the one of the first. -/
def NameExtended (names names' : List Name) : Prop :=
  ∃ parent name suffix rest, names = parent ++ [name] ∧ suffix ≠ [] ∧
    names' = parent ++ (name ++ suffix) :: rest

theorem nameExtended_cons {name name' : Name} : NameExtended (name :: names) (name' :: names') ↔
    name = name' ∧ NameExtended names names' ∨
      names = [] ∧ ∃ suffix, suffix ≠ [] ∧ name' = name ++ suffix := by
  constructor
  · rintro ⟨parent, last, suffix, rest, heq, hsuffix, heq'⟩
    cases parent with
    | nil =>
      obtain ⟨rfl, rfl⟩ := List.cons.inj heq
      obtain ⟨rfl, rfl⟩ := List.cons.inj heq'
      exact Or.inr ⟨rfl, suffix, hsuffix, rfl⟩
    | cons first parent =>
      obtain ⟨rfl, rfl⟩ := List.cons.inj heq
      obtain ⟨rfl, rfl⟩ := List.cons.inj heq'
      exact Or.inl ⟨rfl, parent, last, suffix, rest, rfl, hsuffix, rfl⟩
  · rintro (⟨rfl, parent, last, suffix, rest, rfl, hsuffix, rfl⟩ | ⟨rfl, suffix, hsuffix, rfl⟩)
    · exact ⟨name :: parent, last, suffix, rest, rfl, hsuffix, rfl⟩
    · exact ⟨[], name, suffix, names', rfl, hsuffix, rfl⟩

theorem flatMap_slash_cases (names : List Name) :
    names = [] ∨ ∃ rest, names.flatMap ('/' :: ·) = '/' :: rest := by
  cases names with
  | nil => exact Or.inl rfl
  | cons name names => exact Or.inr ⟨_, rfl⟩

/-- A name before a slash stands at the beginning of a text only if it is the first name of it. -/
theorem eq_of_prefix_slash {name name' x : List Char} (h : '/' ∉ name) (h' : '/' ∉ name')
    (hbegins : name ++ '/' :: x <+: name' ++ names'.flatMap ('/' :: ·)) : name = name' := by
  obtain ⟨z, hz⟩ := hbegins
  rw [List.append_assoc, List.cons_append] at hz
  obtain rfl | ⟨rest, hrest⟩ := flatMap_slash_cases names'
  · rw [List.flatMap_nil, List.append_nil] at hz
    exact absurd (hz ▸ by simp) h'
  · rw [hrest] at hz
    have hcut := congrArg (cut '/') hz
    rw [cut_append h, cut_append h'] at hcut
    exact congrArg Prod.fst hcut

theorem name_prefix {name name' : Name} (h : '/' ∉ name) (hne : name ≠ name') :
    name <+: name' ++ names'.flatMap ('/' :: ·) ↔
      ∃ suffix, suffix ≠ [] ∧ name' = name ++ suffix := by
  constructor
  · rintro ⟨z, hz⟩
    obtain ⟨suffix, rfl, -⟩ | ⟨beyond, rfl, hbeyond⟩ := List.append_eq_append_iff.mp hz
    · exact ⟨suffix, fun heq => hne (by simp [heq]), rfl⟩
    · -- the name would reach beyond the slash
      cases beyond with
      | nil => exact absurd (List.append_nil name').symm (Ne.symm hne)
      | cons c beyond =>
        obtain rfl | ⟨rest, hrest⟩ := flatMap_slash_cases names'
        · simp at hbeyond
        · rw [hrest] at hbeyond
          obtain ⟨rfl, -⟩ := List.cons.inj hbeyond
          exact absurd (by simp) h
  · rintro ⟨suffix, -, rfl⟩
    rw [List.append_assoc]
    exact List.prefix_append _ _

theorem flatMap_prefix (h : ∀ name ∈ names, '/' ∉ name) (h' : ∀ name ∈ names', '/' ∉ name) :
    names.flatMap ('/' :: ·) <+: names'.flatMap ('/' :: ·) ↔
      names <+: names' ∨ NameExtended names names' := by
  induction names generalizing names' with
  | nil => exact iff_of_true List.nil_prefix (Or.inl List.nil_prefix)
  | cons name names ih =>
    cases names' with
    | nil => exact iff_of_false (by simp) (by simp [NameExtended])
    | cons name' names' =>
      obtain ⟨hname, hnames⟩ := List.forall_mem_cons.mp h
      obtain ⟨hname', hnames'⟩ := List.forall_mem_cons.mp h'
      rw [List.flatMap_cons, List.flatMap_cons, List.cons_append, List.cons_append,
        List.cons_prefix_cons, List.cons_prefix_cons, nameExtended_cons]
      by_cases heq : name = name'
      · subst heq
        rw [List.prefix_append_right_inj, ih hnames hnames']
        simp
      · obtain rfl | ⟨rest, hrest⟩ := flatMap_slash_cases names
        · rw [List.flatMap_nil, List.append_nil, name_prefix hname heq]
          simp [heq]
        · have hne : names ≠ [] := by
            rintro rfl
            simp at hrest
          rw [hrest]
          refine iff_of_false (fun hprefix => ?_) (by simp [heq, hne])
          exact heq (eq_of_prefix_slash hname hname' hprefix.2)

/-- One text begins with the other. -/
theorem render_prefix (h : ∀ name ∈ names, IsName name) (h' : ∀ name ∈ names', IsName name) :
    render names <+: render names' ↔ names <+: names' ∨ NameExtended names names' := by
  cases names with
  | nil =>
    refine iff_of_true ?_ (Or.inl List.nil_prefix)
    rw [render_eq names']
    exact ⟨_, rfl⟩
  | cons name names =>
    cases names' with
    | nil =>
      have hne := (h name List.mem_cons_self).ne_nil
      refine iff_of_false (fun hprefix => ?_) (by simp [NameExtended])
      simpa [render, hne] using hprefix.length_le
    | cons name' names' =>
      exact flatMap_prefix (fun n hn => (h n hn).slash_notMem) fun n hn => (h' n hn).slash_notMem

/-- A name that is extended is not kept. -/
theorem NameExtended.not_prefix (h : NameExtended names names') : ¬ names <+: names' := by
  obtain ⟨parent, name, suffix, rest, rfl, hsuffix, rfl⟩ := h
  intro hprefix
  rw [List.prefix_append_right_inj, List.cons_prefix_cons] at hprefix
  exact hsuffix (List.self_eq_append_right.mp hprefix.1)

end Prefixes

end Hooktrace.PosixPath
