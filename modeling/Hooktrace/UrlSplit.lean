import Hooktrace.IpAddress
import Mathlib.Data.List.TakeWhile

/-!
`urllib.parse.urlsplit` and the attributes of its result. Of Unicode it uses the case mapping of
`str.lower` and the normal form NFKC, which are parameters.
-/
namespace Hooktrace.UrlSplit

open IpAddress

/-- What the Unicode tables of Python give. -/
structure Unicode where
  lower : List Char → List Char
  nfkc : List Char → List Char

/-- `text.partition(sep)`; `none` is no separator, and nothing behind it. -/
def partition (sep : Char) (text : List Char) : List Char × Option (List Char) :=
  match text.dropWhile (· ≠ sep) with
  | [] => (text, none)
  | _ :: rest => (text.takeWhile (· ≠ sep), some rest)

/-- `text.rpartition("@")`: what stands before the last one, and behind it. -/
def rpartitionAt (text : List Char) : Option (List Char) × List Char :=
  match partition '@' text.reverse with
  | (_, none) => (none, text)
  | (behind, some before) => (some before.reverse, behind.reverse)

structure SplitResult where
  scheme : List Char
  netloc : List Char
  path : List Char
  query : List Char
  fragment : List Char
  deriving DecidableEq

def isAlpha (c : Char) : Bool := ('a' ≤ c ∧ c ≤ 'z') ∨ ('A' ≤ c ∧ c ≤ 'Z')

def isSchemeChar (c : Char) : Bool := isAlpha c ∨ isDigit c ∨ c ∈ ['+', '-', '.']

/-- A blank or a C0 control at the front, and tabs and line ends anywhere, are dropped. -/
def clean (url : List Char) : List Char :=
  (url.dropWhile fun c => c.toNat ≤ 0x20).filter fun c => c ∉ ['\t', '\r', '\n']

/-- The scheme, where there is one, and the rest. -/
def splitScheme (url : List Char) : List Char × List Char :=
  match url.head?, partition ':' url with
  | some first, (scheme, some rest) =>
    -- the scheme is ASCII
    if isAlpha first ∧ scheme.all isSchemeChar then (scheme.map Char.toLower, rest) else ([], url)
  | _, _ => ([], url)

/-- `_check_bracketed_host`. -/
def bracketedHost (host : List Char) : Bool :=
  if host.head? = some 'v' then
    match partition '.' host.tail with
    | (version, some (_ :: _)) => version ≠ [] ∧ version.all fun c => (hexValue c).isSome
    | _ => false
  else match ipAddress host with
    | some (.v6 _) => true
    | _ => false

/-- `_check_bracketed_netloc`. -/
def bracketedNetloc (netloc : List Char) : Bool :=
  let hostnameAndPort := (rpartitionAt netloc).2
  match partition '[' hostnameAndPort with
  | (before, some bracketed) =>
    let (hostname, port) := partition ']' bracketed
    before = [] ∧ (port.getD [] = [] ∨ (port.getD []).head? = some ':') ∧ bracketedHost hostname
  | (_, none) => bracketedHost (partition ':' hostnameAndPort).1

/-- `_checknetloc`: normalizing makes no delimiter. -/
def checkNetloc (u : Unicode) (netloc : List Char) : Bool :=
  let n := netloc.filter fun c => c ∉ ['@', ':', '#', '?']
  netloc.all (fun c => c.toNat < 0x80) ∨ n = u.nfkc n ∨
    (u.nfkc n).all fun c => c ∉ ['/', '?', '#', '@', ':']

/-- `urlsplit(url)`; `none` is a ValueError. -/
def urlsplit (u : Unicode) (url : List Char) : Option SplitResult :=
  let (scheme, rest) := splitScheme (clean url)
  let (netloc, rest) := match rest with
    | '/' :: '/' :: rest => rest.span fun c => c ∉ ['/', '?', '#']
    | _ => ([], rest)
  let brackets := ('[' ∈ netloc ∧ ']' ∈ netloc ∧ bracketedNetloc netloc = true) ∨
    ('[' ∉ netloc ∧ ']' ∉ netloc)
  if ¬ brackets then none
  else
    let (rest, fragment) := partition '#' rest
    let (path, query) := partition '?' rest
    if checkNetloc u netloc then some ⟨scheme, netloc, path, query.getD [], fragment.getD []⟩
    else none

namespace SplitResult

variable (parts : SplitResult)

/-- The user name and the password; `none` is None. -/
def userinfo : Option (List Char) × Option (List Char) :=
  match (rpartitionAt parts.netloc).1 with
  | none => (none, none)
  | some userinfo => ((partition ':' userinfo).1, (partition ':' userinfo).2)

def username : Option (List Char) := parts.userinfo.1

def password : Option (List Char) := parts.userinfo.2

/-- `_hostinfo`; an empty port is none. -/
def hostinfo : List Char × Option (List Char) :=
  let hostinfo := (rpartitionAt parts.netloc).2
  let (hostname, port) := match partition '[' hostinfo with
    | (_, some bracketed) =>
      ((partition ']' bracketed).1,
        (partition ':' ((partition ']' bracketed).2.getD [])).2)
    | (_, none) => partition ':' hostinfo
  (hostname, if port = some [] then none else port)

/-- `hostname`; a zone is not lowered. -/
def hostname (u : Unicode) : Option (List Char) :=
  let hostname := parts.hostinfo.1
  if hostname = [] then none
  else match partition '%' hostname with
    | (name, none) => some (u.lower name)
    | (name, some zone) => some (u.lower name ++ '%' :: zone)

/-- `port`; `none` is a ValueError, as `int` raises it on more than 4300 digits. -/
def port : Option (Option ℕ) :=
  match parts.hostinfo.2 with
  | none => some none
  | some text =>
    let value := text.foldl (fun n c => 10 * n + (c.toNat - '0'.toNat)) 0
    if text.all isDigit ∧ text.length ≤ 4300 ∧ value ≤ 65535 then some (some value) else none

end SplitResult

section Lemmas

theorem partition_eq_none {sep : Char} {text : List Char} :
    (partition sep text).2 = none ↔ sep ∉ text := by
  have hall : text.dropWhile (· ≠ sep) = [] ↔ sep ∉ text := by
    simp only [List.dropWhile_eq_nil_iff, decide_eq_true_eq]
    exact ⟨fun h hmem => h sep hmem rfl, fun h c hc heq => h (heq ▸ hc)⟩
  rw [← hall, partition]
  cases htext : text.dropWhile (· ≠ sep) <;> simp

theorem rpartitionAt_eq_none {text : List Char} :
    (rpartitionAt text).1 = none ↔ '@' ∉ text := by
  rw [← List.mem_reverse, ← partition_eq_none, rpartitionAt]
  split <;> rename_i hpartition <;> simp [hpartition]

namespace SplitResult

variable {parts : SplitResult}

theorem username_eq_none : parts.username = none ↔ '@' ∉ parts.netloc := by
  rw [← rpartitionAt_eq_none, username, userinfo]
  split <;> rename_i huserinfo <;> simp [huserinfo]

theorem password_eq_none (h : parts.username = none) : parts.password = none := by
  rw [username_eq_none, ← rpartitionAt_eq_none] at h
  simp [password, userinfo, h]

end SplitResult

end Lemmas

end Hooktrace.UrlSplit
