import Hooktrace.Entities
import Hooktrace.PosixPath
import Mathlib.Data.List.Infix

/-!
The blob storage on the local disk. A key is joined to the base directory and resolved, and the
text of the result has to begin with the text of the base. A text begins with another one also
where its directory is a neighbour with a longer name.
-/
namespace Hooktrace.LocalBlobStorage

open PosixPath

inductive Failure where
  /-- A ValueError of the system. -/
  | embeddedNull
  /-- `ValueError(f"invalid key: {key!r}")` -/
  | invalidKey (key : String)
  | osError
  deriving DecidableEq

def Failure.IsValueError : Failure → Prop
  | .embeddedNull => True
  | .invalidKey _ => True
  | .osError => False

inductive Node where
  | directory
  | file (data : Bytes)
  deriving DecidableEq

def Node.isFile : Option Node → Bool
  | some (.file _) => true
  | _ => false

abbrev FileSystem := List Name → Option Node

/-- `path.mkdir(parents=True, exist_ok=True)` -/
def mkdir (path : List Name) (fs : FileSystem) : Except Failure FileSystem :=
  if path.inits.any fun place => Node.isFile (fs place) then .error .osError
  else .ok fun place => if place <+: path then some .directory else fs place

def resolve (cwd : List Char) (path : PurePath) : Except Failure PurePath :=
  (path.resolve cwd).mapError fun | .embeddedNull => .embeddedNull

/-- `LocalBlobStorage(base_path)`: the base, and the file system with its directory. -/
def init (cwd : List Char) (basePath : String) (fs : FileSystem) :
    Except Failure (PurePath × FileSystem) := do
  let base ← resolve cwd (parse basePath.toList)
  let fs ← mkdir base.tail fs
  pure (base, fs)

def resolveSafe (cwd : List Char) (base : PurePath) (key : String) : Except Failure PurePath := do
  let target ← resolve cwd (base.joined key.toList)
  if base.str <+: target.str then pure target else .error (.invalidKey key)

/-- `_write` -/
def write (path : List Name) (data : Bytes) (fs : FileSystem) : Except Failure FileSystem := do
  let fs ← mkdir path.dropLast fs
  if fs path = some .directory then .error .osError
  else pure fun place => if place = path then some (.file data) else fs place

def put (cwd : List Char) (base : PurePath) (key : String) (data : Bytes) (fs : FileSystem) :
    Except Failure FileSystem := do
  let target ← resolveSafe cwd base key
  write target.tail data fs

def get (cwd : List Char) (base : PurePath) (key : String) (fs : FileSystem) :
    Except Failure (Option Bytes) := do
  let target ← resolveSafe cwd base key
  match fs target.tail with
  | none => pure none
  | some (.file data) => pure (some data)
  | some .directory => .error .osError

/-- The key does not lead out of the base. -/
structure Contained (cwd : List Char) (base : PurePath) (key : String) : Prop where
  resolves :
    (∃ failure : Failure, failure.IsValueError ∧ resolveSafe cwd base key = .error failure) ∨
    ∃ target, resolveSafe cwd base key = .ok target ∧ base.tail <+: target.tail
  /-- No file outside is written. -/
  put_outside : ∀ (data : Bytes) (fs fs' : FileSystem), put cwd base key data fs = .ok fs' →
    ∀ place, ¬ base.tail <+: place → ∀ held,
      fs' place = some (.file held) ↔ fs place = some (.file held)
  /-- No file outside is read. -/
  get_outside : ∀ fs fs' : FileSystem, (∀ place, base.tail <+: place → fs place = fs' place) →
    get cwd base key fs = get cwd base key fs'

section Effects

variable {cwd : List Char} {base target : PurePath} {key : String}

theorem mkdir_file {path place : List Name} {fs fs' : FileSystem} (h : mkdir path fs = .ok fs')
    (held : Bytes) : fs' place = some (.file held) ↔ fs place = some (.file held) := by
  unfold mkdir at h
  split at h
  · cases h
  · rename_i hnone
    obtain rfl := Except.ok.inj h
    dsimp only
    by_cases hprefix : place <+: path
    · rw [if_pos hprefix]
      refine iff_of_false (by simp) fun hfile => hnone ?_
      exact List.any_eq_true.mpr ⟨place, (List.mem_inits _ _).mpr hprefix, by rw [hfile]; rfl⟩
    · rw [if_neg hprefix]

/-- Only the file at the path is another one afterwards. -/
theorem write_file {path place : List Name} {data : Bytes} {fs fs' : FileSystem}
    (h : write path data fs = .ok fs') (hne : place ≠ path) (held : Bytes) :
    fs' place = some (.file held) ↔ fs place = some (.file held) := by
  unfold write at h
  cases hmkdir : mkdir path.dropLast fs with
  | error failure => simp [hmkdir, bind, Except.bind] at h
  | ok made =>
    simp only [hmkdir, bind, Except.bind, pure, Except.pure] at h
    split at h
    · cases h
    · obtain rfl := Except.ok.inj h
      dsimp only
      rw [if_neg hne]
      exact mkdir_file hmkdir held

/-- What is resolved to a place under the base stays there. -/
theorem contained_of_resolves
    (h : (∃ failure : Failure, failure.IsValueError ∧ resolveSafe cwd base key = .error failure) ∨
      ∃ target, resolveSafe cwd base key = .ok target ∧ base.tail <+: target.tail) :
    Contained cwd base key := by
  refine ⟨h, fun data fs fs' hput place houtside held => ?_, fun fs fs' hsame => ?_⟩
  · obtain ⟨failure, -, hfailure⟩ | ⟨target, htarget, hprefix⟩ := h
    · simp [put, hfailure, bind, Except.bind] at hput
    · simp only [put, htarget, bind, Except.bind] at hput
      refine write_file hput ?_ held
      rintro rfl
      exact houtside hprefix
  · obtain ⟨failure, -, hfailure⟩ | ⟨target, htarget, hprefix⟩ := h
    · simp [get, hfailure, bind, Except.bind]
    · simp only [get, htarget, bind, Except.bind, hsame target.tail hprefix]

end Effects

section Base

variable {cwd place names : List Name} {base : PurePath}

theorem resolve_eq (h : ∀ name ∈ cwd, IsName name) (text : List Char) :
    resolve (render cwd) (parse text) =
      if nul ∈ text then .error .embeddedNull else .ok ⟨['/'], leads cwd text⟩ := by
  rw [resolve, resolve_parse h]
  split <;> rfl

/-- The base is the place that the setting leads to. -/
theorem base_eq {basePath : String} {fs fs' : FileSystem} (h : ∀ name ∈ cwd, IsName name)
    (hinit : init (render cwd) basePath fs = .ok (base, fs')) :
    ∃ names, (∀ name ∈ names, IsName name) ∧ base = ⟨['/'], names⟩ := by
  rw [init, resolve_eq h] at hinit
  split at hinit
  · simp [bind, Except.bind] at hinit
  · rename_i hnul
    refine ⟨leads cwd basePath.toList, leads_isName hnul h, ?_⟩
    simp only [bind, Except.bind] at hinit
    split at hinit
    · cases hinit
    · exact (Prod.mk.inj (Except.ok.inj hinit)).1.symm

/-- The guard, in terms of where the key leads. -/
theorem resolveSafe_eq (hcwd : ∀ name ∈ cwd, IsName name) (h : ∀ name ∈ names, IsName name)
    (key : String) : resolveSafe (render cwd) ⟨['/'], names⟩ key =
      if nul ∈ key.toList then .error .embeddedNull
      else if render names <+: render (leads names key.toList) then
        .ok ⟨['/'], leads names key.toList⟩
      else .error (.invalidKey key) := by
  rw [resolveSafe, resolve, resolve_joined ⟨cwd, hcwd, rfl⟩ h]
  split
  · rfl
  · simp only [Except.mapError, bind, Except.bind, str_root]
    rfl

end Base

/-- A key is kept within the base exactly when it does not lead to a neighbour of the base whose
name is longer, or has a null byte. -/
theorem contained_iff {cwd₀ cwd : List Name} {basePath : String} {fs fs' : FileSystem}
    {base : PurePath} (hcwd₀ : ∀ name ∈ cwd₀, IsName name) (hcwd : ∀ name ∈ cwd, IsName name)
    (hinit : init (render cwd₀) basePath fs = .ok (base, fs')) (key : String) :
    Contained (render cwd) base key ↔
      nul ∈ key.toList ∨ ¬ NameExtended base.tail (leads base.tail key.toList) := by
  obtain ⟨names, hnames, rfl⟩ := base_eq hcwd₀ hinit
  have hguard := resolveSafe_eq hcwd hnames key
  by_cases hnul : nul ∈ key.toList
  · rw [if_pos hnul] at hguard
    exact iff_of_true (contained_of_resolves (Or.inl ⟨.embeddedNull, trivial, hguard⟩))
      (Or.inl hnul)
  · rw [if_neg hnul] at hguard
    have hbegins := render_prefix hnames (leads_isName hnul hnames)
    simp only [hnul, false_or]
    constructor
    · rintro h hextended
      rw [if_pos (hbegins.mpr (Or.inr hextended))] at hguard
      obtain ⟨failure, -, hfailure⟩ | ⟨target, htarget, hprefix⟩ := h.resolves
      · cases hguard.symm.trans hfailure
      · obtain rfl := Except.ok.inj (hguard.symm.trans htarget)
        exact hextended.not_prefix hprefix
    · intro hnone
      refine contained_of_resolves ?_
      by_cases hprefix : names <+: leads names key.toList
      · exact Or.inr ⟨_, hguard.trans (if_pos (hbegins.mpr (Or.inl hprefix))), hprefix⟩
      · rw [if_neg fun hbegin => (hbegins.mp hbegin).elim hprefix hnone] at hguard
        exact Or.inl ⟨.invalidKey key, trivial, hguard⟩

def srv : List Name := ["srv".toList]

theorem srv_isName : ∀ name ∈ srv, IsName name :=
  List.forall_mem_singleton.mpr ⟨by decide, by decide, by decide, by decide, by decide⟩

def emptyDisk : FileSystem := fun _ => none

def blobs : List Name := ["srv".toList, "blobs".toList]

theorem init_blobs : init (render srv) "./blobs" emptyDisk =
    .ok (⟨['/'], blobs⟩, fun place => if place <+: blobs then some .directory else none) := rfl

theorem request_contained : Contained (render srv) ⟨['/'], blobs⟩ "requests/1" :=
  (contained_iff srv_isName srv_isName init_blobs "requests/1").mpr
    (Or.inr fun hextended => hextended.not_prefix (by decide +kernel))

/-- A neighbour with a longer name is written to. -/
theorem neighbour_written : ¬ ∀ (cwd₀ cwd : List Name) (basePath : String) (fs fs' : FileSystem)
    (base : PurePath), (∀ name ∈ cwd₀, IsName name) → (∀ name ∈ cwd, IsName name) →
      init (render cwd₀) basePath fs = .ok (base, fs') →
        ∀ key, Contained (render cwd) base key := by
  intro hclaim
  have h := hclaim srv srv "./blobs" emptyDisk _ _ srv_isName srv_isName init_blobs
    "../blobs-old/1"
  have hresolved : resolveSafe (render srv) ⟨['/'], blobs⟩ "../blobs-old/1" =
      .ok ⟨['/'], ["srv".toList, "blobs-old".toList, "1".toList]⟩ := by decide +kernel
  obtain ⟨failure, -, hfailure⟩ | ⟨target, htarget, hprefix⟩ := h.resolves
  · cases hresolved.symm.trans hfailure
  · obtain rfl := Except.ok.inj (hresolved.symm.trans htarget)
    exact absurd hprefix (by decide +kernel)

end Hooktrace.LocalBlobStorage
