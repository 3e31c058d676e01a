import Hooktrace.BodyFidelity
import Hooktrace.LocalBlobStorage
import Hooktrace.Table
import Hooktrace.Transition

/-!
Longer bodies on the local disk. A put opens the file and writes it by and by, and the processes
that capture, or probe the disk for the health check, do so at the same time; any of them may die
in between. The key of a body is made of two ids, and its file stands two names below the base,
where no directory ever stands. So no put gets in the way of another one, and the body of a
request that was committed is read back whole (`read_committed`).
-/
namespace Hooktrace.BlobBodies

open ExecuteForward (Answer PyError)
open LocalBlobStorage PosixPath Table Transition

inductive Stage where
  /-- The file is open. -/
  | writing
  /-- The put has returned. -/
  | written
  | committed
  /-- The process died, or the transaction was rolled back; the file stays. -/
  | aborted
  deriving DecidableEq

structure Upload where
  endpointId : UUID
  requestId : UUID
  body : Bytes
  stage : Stage
  deriving DecidableEq

/-- `f"{endpoint_id}/{request_id}"` -/
def Upload.key (u : Upload) : String := s!"{u.endpointId.str}/{u.requestId.str}"

structure State where
  disk : FileSystem
  uploads : List Upload

inductive Action where
  /-- The file is created, or truncated. The id is a fresh `uuid4()`. -/
  | openFile (endpointId requestId : UUID) (body : Bytes)
  /-- This many bytes have come to the file. -/
  | writeBytes (requestId : UUID) (n : ℕ)
  | close (requestId : UUID)
  | commit (requestId : UUID)
  | abort (requestId : UUID)
  /-- `storage.put(f"_healthz_probe/{uuid.uuid4().hex}", b"ok")`, as far as it gets. -/
  | probe (id : UUID) (n : ℕ)

/-- `uuid.hex` -/
def hex (id : UUID) : List Char := id.str.toList.filter (· ≠ '-')

def probeKey (id : UUID) : String := .ofList ("_healthz_probe".toList ++ '/' :: hex id)

def setStage (requestId : UUID) (stage : Stage) : Update Upload where
  holds u := u.requestId = requestId
  assign u := { u with stage }

def at? (requestId : UUID) (stage : Stage) (uploads : List Upload) : Option Upload :=
  (find Upload.requestId requestId uploads).filter fun u => u.stage = stage

/-- A write of a file truncates what was there, so that the file that is open holds the bytes that
were written so far. -/
def step (cwd : List Char) (base : PurePath) (s : State) : Action → Option State
  | .openFile endpointId requestId body =>
    let u : Upload := ⟨endpointId, requestId, body, .writing⟩
    (Table.insert Upload.requestId u s.uploads).map fun uploads =>
      match put cwd base u.key [] s.disk with
      | .ok disk => ⟨disk, uploads⟩
      | .error _ => ⟨s.disk, (setStage requestId .aborted).apply uploads⟩
  | .writeBytes requestId n =>
    (at? requestId .writing s.uploads).bind fun u =>
      match put cwd base u.key (u.body.take n) s.disk with
      | .ok disk => some { s with disk }
      | .error _ => some { s with uploads := (setStage requestId .aborted).apply s.uploads }
  | .close requestId =>
    (at? requestId .writing s.uploads).bind fun u =>
      match put cwd base u.key u.body s.disk with
      | .ok disk => some ⟨disk, (setStage requestId .written).apply s.uploads⟩
      | .error _ => some { s with uploads := (setStage requestId .aborted).apply s.uploads }
  | .commit requestId =>
    (at? requestId .written s.uploads).map fun _ =>
      { s with uploads := (setStage requestId .committed).apply s.uploads }
  | .abort requestId =>
    ((at? requestId .writing s.uploads).or (at? requestId .written s.uploads)).map fun _ =>
      { s with uploads := (setStage requestId .aborted).apply s.uploads }
  | .probe id n =>
    match put cwd base (probeKey id) ((encodeUtf8 "ok").take n) s.disk with
    | .ok disk => some { s with disk }
    | .error _ => some s

def start (disk : FileSystem) : State := ⟨disk, []⟩

/-- What the worker, a replay or an export gets from the store. -/
def diskGet (cwd : List Char) (base : PurePath) (disk : FileSystem) (key : String) :
    Answer (Option Bytes) :=
  match get cwd base key disk with
  | .ok body => .returns body
  | .error _ => .raises (.other "OSError")

section Names

theorem isName_uuid (id : UUID) : IsName id.str.toList where
  ne_nil := by
    intro hnil
    have hlength := id.str_length
    simp [hnil] at hlength
  ne_dot := by
    intro hdot
    exact id.notMem_str ⟨by decide, by decide⟩ (hdot ▸ List.mem_singleton_self '.')
  ne_dots := by
    intro hdots
    exact id.notMem_str ⟨by decide, by decide⟩ (hdots ▸ List.mem_cons_self)
  slash_notMem := id.notMem_str ⟨by decide, by decide⟩
  nul_notMem := id.notMem_str ⟨by decide, by decide⟩

/-- A UUID begins with a digit. -/
theorem head_str (id : UUID) : ∃ c rest, id.str.toList = c :: rest ∧ c ≠ '-' := by
  have hcanonical := id.canonical
  have hlength := id.str_length
  cases htext : id.str.toList with
  | nil => simp [htext] at hlength
  | cons c rest =>
    refine ⟨c, rest, rfl, ?_⟩
    rintro rfl
    simp [canonicalUuid, htext] at hcanonical

theorem isName_hex (id : UUID) : IsName (hex id) := by
  have hmem : ∀ c ∈ hex id, c ∈ id.str.toList := fun c hc => List.mem_of_mem_filter hc
  have hother : ∀ c, c ≠ '-' ∧ c ∉ "0123456789abcdef".toList → c ∉ hex id :=
    fun c hc hin => id.notMem_str hc (hmem c hin)
  refine ⟨?_, ?_, ?_, hother _ ⟨by decide, by decide⟩, hother _ ⟨by decide, by decide⟩⟩
  · obtain ⟨c, rest, htext, hc⟩ := head_str id
    simp [hex, htext, hc]
  · exact fun hdot => hother '.' ⟨by decide, by decide⟩ (hdot ▸ List.mem_singleton_self '.')
  · exact fun hdots => hother '.' ⟨by decide, by decide⟩ (hdots ▸ List.mem_cons_self)

theorem isName_probe : IsName "_healthz_probe".toList :=
  ⟨by decide, by decide, by decide, by decide, by decide⟩

theorem uuid_ne_probe (id : UUID) : id.str.toList ≠ "_healthz_probe".toList := by
  intro heq
  exact @UUID.notMem_str id '_' ⟨by decide, by decide⟩ (heq ▸ List.mem_cons_self)

end Names

section Disk

variable {cwd base : List Name} {a b : Name} {disk : FileSystem} {data : Bytes} {key : String}

/-- No file stands directly below the base, and no directory two names below it. -/
structure Layout (base : List Name) (disk : FileSystem) : Prop where
  first : ∀ a, Node.isFile (disk (base ++ [a])) = false
  second : ∀ a b, disk (base ++ [a, b]) ≠ some .directory

structure Tidy (base : List Name) (disk : FileSystem) : Prop extends Layout base disk where
  above : ∀ place, place <+: base → disk place = some .directory

def stored (base : List Name) (a b : Name) (data : Bytes) (disk : FileSystem) : FileSystem :=
  fun place => if place = base ++ [a, b] then some (.file data)
    else if place <+: base ++ [a] then some .directory else disk place

theorem leads_pair (ha : IsName a) (hb : IsName b) :
    leads base (a ++ '/' :: b) = base ++ [a, b] := by
  have hhead : (a ++ '/' :: b).head? ≠ some '/' := by
    obtain ⟨c, rest, rfl⟩ := List.exists_cons_of_ne_nil ha.ne_nil
    intro hslash
    apply ha.slash_notMem
    simp only [List.cons_append, List.head?_cons, Option.some.injEq] at hslash
    exact hslash ▸ List.mem_cons_self
  rw [leads, if_neg hhead, splitOn_append ha.slash_notMem, splitOn_of_notMem hb.slash_notMem]
  apply walk_names
  simp [ha, hb]

theorem resolveSafe_pair (hcwd : ∀ name ∈ cwd, IsName name) (hbase : ∀ name ∈ base, IsName name)
    (ha : IsName a) (hb : IsName b) (hkey : key.toList = a ++ '/' :: b) :
    resolveSafe (render cwd) ⟨['/'], base⟩ key = .ok ⟨['/'], base ++ [a, b]⟩ := by
  have hnul : nul ∉ a ++ '/' :: b := by
    have hslash : nul ≠ '/' := by decide
    simp [ha.nul_notMem, hb.nul_notMem, hslash]
  have hplace : ∀ name ∈ base ++ [a, b], IsName name :=
    List.forall_mem_append.mpr ⟨hbase, by simp [ha, hb]⟩
  rw [resolveSafe_eq hcwd hbase, hkey, if_neg hnul, leads_pair ha hb,
    if_pos (( render_prefix hbase hplace).mpr (Or.inl (List.prefix_append _ _)))]

/-- No place that is made a directory is that of the file. -/
theorem pair_not_prefix : ¬ base ++ [a, b] <+: base ++ [a] := by
  intro hprefix
  have hlength := hprefix.length_le
  simp at hlength

theorem put_pair (hcwd : ∀ name ∈ cwd, IsName name) (hbase : ∀ name ∈ base, IsName name)
    (ha : IsName a) (hb : IsName b) (hkey : key.toList = a ++ '/' :: b) (htidy : Tidy base disk) :
    put (render cwd) ⟨['/'], base⟩ key data disk = .ok (stored base a b data disk) := by
  have hdrop : (base ++ [a, b]).dropLast = base ++ [a] := by
    rw [List.dropLast_append_of_ne_nil (by simp)]
    rfl
  have hnone : ((base ++ [a]).inits.any fun place => Node.isFile (disk place)) = false := by
    rw [List.any_eq_false]
    intro place hplace
    have hprefix := (List.mem_inits _ _).mp hplace
    rcases List.prefix_concat_iff.mp hprefix with rfl | habove
    · simp [htidy.first a]
    · simp [htidy.above place habove, Node.isFile]
  rw [put, resolveSafe_pair hcwd hbase ha hb hkey]
  simp only [bind, Except.bind, write, hdrop, mkdir, hnone, Bool.false_eq_true, if_false,
    pair_not_prefix, htidy.second a b, pure, Except.pure]
  rfl

theorem get_pair (hcwd : ∀ name ∈ cwd, IsName name) (hbase : ∀ name ∈ base, IsName name)
    (ha : IsName a) (hb : IsName b) (hkey : key.toList = a ++ '/' :: b)
    (hfile : disk (base ++ [a, b]) = some (.file data)) :
    get (render cwd) ⟨['/'], base⟩ key disk = .ok (some data) := by
  simp [LocalBlobStorage.get, resolveSafe_pair hcwd hbase ha hb hkey, hfile, bind, Except.bind,
    pure, Except.pure]

theorem stored_self : stored base a b data disk (base ++ [a, b]) = some (.file data) := if_pos rfl

theorem stored_other {a' b' : Name} (hne : ¬ (a' = a ∧ b' = b)) :
    stored base a b data disk (base ++ [a', b']) = disk (base ++ [a', b']) := by
  have hplace : base ++ [a', b'] ≠ base ++ [a, b] := by simpa using hne
  have hprefix : ¬ base ++ [a', b'] <+: base ++ [a] := by
    intro hprefix
    have hlength := hprefix.length_le
    simp at hlength
  rw [stored, if_neg hplace, if_neg hprefix]

theorem Tidy.stored (htidy : Tidy base disk) : Tidy base (stored base a b data disk) where
  above place hplace := by
    have hne : place ≠ base ++ [a, b] := by
      rintro rfl
      have hlength := hplace.length_le
      simp at hlength
    rw [BlobBodies.stored, if_neg hne, if_pos (hplace.trans (List.prefix_append _ _))]
  first a' := by
    have hne : base ++ [a'] ≠ base ++ [a, b] := by simp
    rw [BlobBodies.stored, if_neg hne]
    split
    · rfl
    · exact htidy.first a'
  second a' b' := by
    by_cases hsame : a' = a ∧ b' = b
    · obtain ⟨rfl, rfl⟩ := hsame
      simp [stored_self]
    · rw [stored_other hsame]
      exact htidy.second a' b'

end Disk

section Steps

variable {cwd base : List Name} {s t : State} {u : Upload} {requestId : UUID} {stage : Stage}

def Upload.stored (u : Upload) (base : List Name) (data : Bytes) (disk : FileSystem) : FileSystem :=
  BlobBodies.stored base u.endpointId.str.toList u.requestId.str.toList data disk

def Upload.file (u : Upload) (base : List Name) : List Name :=
  base ++ [u.endpointId.str.toList, u.requestId.str.toList]

theorem toList_key (u : Upload) :
    u.key.toList = u.endpointId.str.toList ++ '/' :: u.requestId.str.toList := by
  simp [Upload.key, toString, String.toList_append]

theorem toList_probeKey (id : UUID) :
    (probeKey id).toList = "_healthz_probe".toList ++ '/' :: hex id := String.toList_ofList

inductive Effect (base : List Name) (s : State) : State → Prop
  | openFile {u : Upload} (hstage : u.stage = .writing)
      (hfresh : u.requestId ∉ s.uploads.map Upload.requestId) :
      Effect base s ⟨u.stored base [] s.disk, s.uploads ++ [u]⟩
  | writeBytes {u : Upload} (hu : u ∈ s.uploads) (hstage : u.stage = .writing) (n : ℕ) :
      Effect base s ⟨u.stored base (u.body.take n) s.disk, s.uploads⟩
  | close {u : Upload} (hu : u ∈ s.uploads) (hstage : u.stage = .writing) :
      Effect base s ⟨u.stored base u.body s.disk, (setStage u.requestId .written).apply s.uploads⟩
  | commit {u : Upload} (hu : u ∈ s.uploads) (hstage : u.stage = .written) :
      Effect base s ⟨s.disk, (setStage u.requestId .committed).apply s.uploads⟩
  | abort (requestId : UUID) :
      Effect base s ⟨s.disk, (setStage requestId .aborted).apply s.uploads⟩
  | probe (id : UUID) (data : Bytes) :
      Effect base s ⟨stored base "_healthz_probe".toList (hex id) data s.disk, s.uploads⟩

theorem at?_eq_some {uploads : List Upload} (h : at? requestId stage uploads = some u) :
    u ∈ uploads ∧ u.requestId = requestId ∧ u.stage = stage := by
  obtain ⟨hfound, hstage⟩ := Option.filter_eq_some_iff.mp h
  obtain ⟨hmem, hid⟩ := mem_of_find hfound
  exact ⟨hmem, hid, of_decide_eq_true hstage⟩

theorem put_upload (hcwd : ∀ name ∈ cwd, IsName name) (hbase : ∀ name ∈ base, IsName name)
    {disk : FileSystem} (htidy : Tidy base disk) (u : Upload) (data : Bytes) :
    put (render cwd) ⟨['/'], base⟩ u.key data disk = .ok (u.stored base data disk) :=
  put_pair hcwd hbase (isName_uuid _) (isName_uuid _) (toList_key u) htidy

theorem step_effect (hcwd : ∀ name ∈ cwd, IsName name) (hbase : ∀ name ∈ base, IsName name)
    (htidy : Tidy base s.disk) {a : Action}
    (h : step (render cwd) ⟨['/'], base⟩ s a = some t) : Effect base s t := by
  cases a with
  | openFile endpointId requestId body =>
    obtain ⟨uploads, hinsert, rfl⟩ := Option.map_eq_some_iff.mp h
    simp only [put_upload hcwd hbase htidy]
    unfold Table.insert at hinsert
    split at hinsert
    · cases hinsert
    · rename_i hfresh
      obtain rfl := Option.some.inj hinsert
      exact .openFile rfl hfresh
  | writeBytes requestId n =>
    obtain ⟨u, hat, h⟩ := Option.bind_eq_some_iff.mp h
    obtain ⟨hu, -, hstage⟩ := at?_eq_some hat
    simp only [put_upload hcwd hbase htidy] at h
    obtain rfl := Option.some.inj h
    exact .writeBytes hu hstage n
  | close requestId =>
    obtain ⟨u, hat, h⟩ := Option.bind_eq_some_iff.mp h
    obtain ⟨hu, rfl, hstage⟩ := at?_eq_some hat
    simp only [put_upload hcwd hbase htidy] at h
    obtain rfl := Option.some.inj h
    exact .close hu hstage
  | commit requestId =>
    obtain ⟨u, hat, rfl⟩ := Option.map_eq_some_iff.mp h
    obtain ⟨hu, rfl, hstage⟩ := at?_eq_some hat
    exact .commit hu hstage
  | abort requestId =>
    obtain ⟨u, hat, rfl⟩ := Option.map_eq_some_iff.mp h
    exact .abort requestId
  | probe id n =>
    have hput : put (render cwd) ⟨['/'], base⟩ (probeKey id) ((encodeUtf8 "ok").take n) s.disk =
        .ok (stored base "_healthz_probe".toList (hex id) ((encodeUtf8 "ok").take n) s.disk) :=
      put_pair hcwd hbase isName_probe (isName_hex id) (toList_probeKey id) htidy
    dsimp only [step] at h
    rw [hput] at h
    exact Option.some.inj h ▸ .probe id ((encodeUtf8 "ok").take n)

/-- The disk is tidy, every id belongs to one upload, and the files of those that were written are
whole. -/
structure Kept (base : List Name) (s : State) : Prop where
  tidy : Tidy base s.disk
  unique : UniqueKeys Upload.requestId s.uploads
  whole : ∀ u ∈ s.uploads, u.stage = .written ∨ u.stage = .committed →
    s.disk (u.file base) = some (.file u.body)

theorem keepsKey_setStage : KeepsKey Upload.requestId (setStage requestId stage) := fun _ => rfl

theorem file_stored_of_ne {v : Upload} (hne : v.requestId ≠ u.requestId) {data : Bytes}
    {disk : FileSystem} : u.stored base data disk (v.file base) = disk (v.file base) := by
  apply stored_other
  intro hsame
  exact hne (UUID.str_injective (String.toList_inj.mp hsame.2))

theorem mem_setStage {v : Upload} {uploads : List Upload}
    (hv : v ∈ (setStage requestId stage).apply uploads) :
    (v ∈ uploads ∧ v.requestId ≠ requestId) ∨
      ∃ u ∈ uploads, u.requestId = requestId ∧ v = { u with stage } := by
  obtain ⟨u, hu, rfl⟩ := List.mem_map.mp hv
  by_cases hid : u.requestId = requestId
  · rw [Update.onRow_of_holds _ (by simp [setStage, hid])]
    exact Or.inr ⟨u, hu, hid, rfl⟩
  · rw [Update.onRow_of_not _ (by simp [setStage, hid])]
    exact Or.inl ⟨hu, hid⟩

theorem Kept.step (hs : Kept base s) (h : Effect base s t) : Kept base t := by
  cases h with
  | @openFile u hstage hfresh =>
    have hunique : UniqueKeys Upload.requestId (s.uploads ++ [u]) := by
      rw [UniqueKeys, List.map_append, List.map_singleton, ← List.concat_eq_append]
      exact hs.unique.concat hfresh
    refine ⟨hs.tidy.stored, hunique, fun v hv hdone => ?_⟩
    rcases List.mem_append.mp hv with hold | hnew
    · have hne : v.requestId ≠ u.requestId := fun hid =>
        hfresh (hid ▸ List.mem_map_of_mem hold)
      exact (file_stored_of_ne hne).trans (hs.whole v hold hdone)
    · obtain rfl := List.mem_singleton.mp hnew
      simp [hstage] at hdone
  | @writeBytes u hu hstage n =>
    refine ⟨hs.tidy.stored, hs.unique, fun v hv hdone => ?_⟩
    have hne : v.requestId ≠ u.requestId := by
      intro hid
      obtain rfl := hs.unique.eq hv hu hid
      simp [hstage] at hdone
    exact (file_stored_of_ne hne).trans (hs.whole v hv hdone)
  | @close u hu hstage =>
    refine ⟨hs.tidy.stored, keepsKey_setStage.uniqueKeys hs.unique, fun v hv hdone => ?_⟩
    rcases mem_setStage hv with ⟨hold, hne⟩ | ⟨v', hv', hid, rfl⟩
    · exact (file_stored_of_ne hne).trans (hs.whole v hold hdone)
    · obtain rfl := hs.unique.eq hv' hu hid
      exact stored_self
  | @commit u hu hstage =>
    refine ⟨hs.tidy, keepsKey_setStage.uniqueKeys hs.unique, fun v hv hdone => ?_⟩
    rcases mem_setStage hv with ⟨hold, -⟩ | ⟨v', hv', hid, rfl⟩
    · exact hs.whole v hold hdone
    · obtain rfl := hs.unique.eq hv' hu hid
      exact hs.whole v' hu (Or.inl hstage)
  | abort requestId =>
    refine ⟨hs.tidy, keepsKey_setStage.uniqueKeys hs.unique, fun v hv hdone => ?_⟩
    rcases mem_setStage hv with ⟨hold, -⟩ | ⟨v', hv', hid, rfl⟩
    · exact hs.whole v hold hdone
    · simp at hdone
  | probe id data =>
    refine ⟨hs.tidy.stored, hs.unique, fun v hv hdone => ?_⟩
    refine (stored_other ?_).trans (hs.whole v hv hdone)
    exact fun hsame => uuid_ne_probe v.endpointId hsame.1

end Steps

section Readers

variable {cwd₀ cwd cwd' : List Name} {basePath : String} {fs disk : FileSystem} {base : PurePath}

theorem disk_init (hinit : init (render cwd₀) basePath fs = .ok (base, disk)) :
    disk = fun place => if place <+: base.tail then some .directory else fs place := by
  obtain ⟨base', -, hinit⟩ := CaptureRequest.bind_ok hinit
  obtain ⟨disk', hmkdir, hpair⟩ := CaptureRequest.bind_ok hinit
  obtain ⟨rfl, rfl⟩ := Prod.mk.inj (Except.ok.inj hpair)
  unfold mkdir at hmkdir
  split at hmkdir
  · cases hmkdir
  · exact (Except.ok.inj hmkdir).symm

theorem tidy_init (hcwd₀ : ∀ name ∈ cwd₀, IsName name)
    (hinit : init (render cwd₀) basePath fs = .ok (base, disk)) (hlayout : Layout base.tail fs) :
    (∃ names, (∀ name ∈ names, IsName name) ∧ base = ⟨['/'], names⟩) ∧ Tidy base.tail disk := by
  obtain ⟨names, hnames, rfl⟩ := base_eq hcwd₀ hinit
  obtain rfl := disk_init hinit
  have hbelow : ∀ rest, rest ≠ [] → ¬ names ++ rest <+: names := by
    intro rest hrest hprefix
    have hlength := hprefix.length_le
    have hpos := List.length_pos_of_ne_nil hrest
    rw [List.length_append] at hlength
    omega
  refine ⟨⟨names, hnames, rfl⟩, ⟨fun a => ?_, fun a b => ?_⟩, fun place hplace => if_pos hplace⟩
  · dsimp only
    rw [if_neg (hbelow _ (List.cons_ne_nil _ _))]
    exact hlayout.first a
  · dsimp only
    rw [if_neg (hbelow _ (List.cons_ne_nil _ _))]
    exact hlayout.second a b

/-- Whatever the processes do at the same time, and wherever they die, the put of a body succeeds,
and the body of a request that was committed is read back whole: it is what a forward and a replay
of the request send. -/
theorem read_committed (hcwd₀ : ∀ name ∈ cwd₀, IsName name) (hcwd : ∀ name ∈ cwd, IsName name)
    (hcwd' : ∀ name ∈ cwd', IsName name)
    (hinit : init (render cwd₀) basePath fs = .ok (base, disk)) (hlayout : Layout base.tail fs)
    {ms : History State Action} {s : State}
    (h : Run (Steps (step (render cwd) base)) (start disk) ms s) :
    (∀ u : Upload, ∃ disk', put (render cwd) base u.key u.body s.disk = .ok disk') ∧
    ∀ u ∈ s.uploads, u.stage = .committed → ∀ captured, captured.blobKey = some u.key →
      let stored := diskGet (render cwd') base s.disk
      BodyFidelity.readBody stored captured = .ok u.body ∧
        BodyFidelity.SendsBody captured stored u.body ∧
        BodyFidelity.ReplaysBody captured stored u.body := by
  obtain ⟨⟨names, hnames, rfl⟩, htidy⟩ := tidy_init hcwd₀ hinit hlayout
  have hkept : Kept names s := by
    refine h.invariant ⟨htidy, List.nodup_nil, by simp [start]⟩ fun s a t hs hstep => ?_
    exact hs.step (step_effect hcwd hnames hs.tidy hstep)
  refine ⟨fun u => ⟨_, put_upload hcwd hnames hkept.tidy u u.body⟩, ?_⟩
  intro u hu hcommitted captured hkey stored
  have hget : get (render cwd') ⟨['/'], names⟩ u.key s.disk = .ok (some u.body) :=
    get_pair hcwd' hnames (isName_uuid _) (isName_uuid _) (toList_key u)
      (hkept.whole u hu (Or.inr hcommitted))
  have hread : BodyFidelity.readBody stored captured = .ok u.body := by
    simp [BodyFidelity.readBody, hkey, stored, diskGet, hget, Answer.await, Except.map]
  have honly : ∀ read, BodyFidelity.readBody stored captured = .ok read → read = u.body :=
    fun read h => Except.ok.inj (h.symm.trans hread)
  exact ⟨hread, BodyFidelity.sendsBody_of_read honly, BodyFidelity.replaysBody_of_read honly⟩

theorem layout_emptyDisk (base : List Name) : Layout base emptyDisk :=
  ⟨fun _ => rfl, fun _ _ => by simp [emptyDisk]⟩

/-- A body of three bytes is written by and by and committed, with a probe in between. -/
def oneUpload : List Action :=
  [.openFile sampleEndpoint.id sampleRequest.id [1, 2, 3], .writeBytes sampleRequest.id 2,
    .probe sampleForwardId 2, .close sampleRequest.id, .commit sampleRequest.id]

theorem oneUpload_committed : ∃ disk ms s,
    Run (Steps (step (render srv) ⟨['/'], blobs⟩)) (start disk) ms s ∧ ms.length = 5 ∧
      ∃ u ∈ s.uploads, ∀ captured, captured.blobKey = some u.key →
        BodyFidelity.readBody (diskGet (render srv) ⟨['/'], blobs⟩ s.disk) captured =
          .ok [1, 2, 3] := by
  have hrun := Run.of_play (Eq.refl (play (step (render srv) ⟨['/'], blobs⟩) []
    (start fun place => if place <+: blobs then some .directory else none) oneUpload))
  have hread := (read_committed srv_isName srv_isName srv_isName init_blobs
    (layout_emptyDisk blobs) hrun).2 _ List.mem_cons_self rfl
  exact ⟨_, _, _, hrun, rfl, _, List.mem_cons_self, fun captured hkey => (hread captured hkey).1⟩

end Readers

end Hooktrace.BlobBodies
