import Hooktrace.ReplayRequest
import Hooktrace.UrlSplit

/-!
The check of a target URL before a replay or a forward is sent: what the URL says of itself, and
the addresses that its host has when it is asked for.
-/
namespace Hooktrace.SafeReplayTarget

open ExecuteForward (PyError ValidatedTarget)
open IpAddress UrlSplit

/-- An address as `getaddrinfo` writes it. -/
structure AddressText where
  text : List Char
  valid : (ipAddress text).isSome = true

/-- What `getaddrinfo` does within the time limit, or that it does not come back. -/
inductive Lookup where
  | answers (infos : List AddressText)
  | raises (error : String)
  | timesOut

structure Collaborators where
  unicode : Unicode
  getaddrinfo : List Char → Lookup
  blockedHostSuffixes : List String

def allowedSchemes : List (List Char) := ["http".toList, "https".toList]

def allowedPorts : List ℕ := [80, 443]

def ssrfBlocked (message : String) : Except PyError α := .error (.ssrfBlocked message)

def valueError : Except PyError α := .error (.other "ValueError")

def resolve (env : Collaborators) (host : List Char) : Except PyError (List (List Char)) :=
  match env.getaddrinfo host with
  | .answers infos => .ok (infos.map AddressText.text)
  | .raises error => .error (.other error)
  | .timesOut => ssrfBlocked s!"DNS resolution timed out for {String.ofList host}"

def rejected (a : Address) : Bool :=
  isPrivate a || isLoopback a || isLinkLocal a || isMulticast a || isReserved a || isUnspecified a

def isPrivateOrReserved (ip : List Char) : Except PyError Bool :=
  match ipAddress ip with
  | none => valueError
  | some a => .ok (rejected a)

/-- `host_normalized == suffix or host_normalized.endswith("." + suffix)`. -/
def blocks (hostNormalized suffix : List Char) : Bool :=
  hostNormalized = suffix ∨ ('.' :: suffix) <:+ hostNormalized

/-- `host.rstrip(".")`. -/
def stripDots (host : List Char) : List Char := (host.reverse.dropWhile (· = '.')).reverse

def hostNormalized (env : Collaborators) (host : List Char) : List Char :=
  env.unicode.lower (stripDots host)

/-- A host that is an address is not looked up. -/
def addresses (env : Collaborators) (host : List Char) : Except PyError (List (List Char)) :=
  match ipAddress host with
  | some _ => .ok [host]
  | none => resolve env host

def checkAddresses : List (List Char) → Except PyError Unit
  | [] => .ok ()
  | ip :: ips => do
    if ← isPrivateOrReserved ip then
      ssrfBlocked s!"resolved to private/reserved IP: {String.ofList ip}"
    else checkAddresses ips

/-- The port that is checked; a port that is 0 counts as none. -/
def effectivePort (scheme : List Char) : Option ℕ → ℕ
  | some (port + 1) => port + 1
  | some 0 | none => if scheme = "https".toList then 443 else 80

def truthy (text : Option (List Char)) : Bool := text.getD [] ≠ []

def validate (env : Collaborators) (url : String) : Except PyError ValidatedTarget :=
  match urlsplit env.unicode url.toList with
  | none => valueError
  | some parts =>
    if parts.scheme ∉ allowedSchemes then
      ssrfBlocked s!"scheme not allowed: {String.ofList parts.scheme}"
    else if truthy parts.username ∨ truthy parts.password then ssrfBlocked "userinfo not allowed"
    else match parts.hostname env.unicode with
      | none => ssrfBlocked "missing host"
      | some host => match parts.port with
        | none => valueError
        | some port =>
          if effectivePort parts.scheme port ∉ allowedPorts then
            ssrfBlocked s!"port not allowed: {effectivePort parts.scheme port}"
          else if env.blockedHostSuffixes.any fun suffix =>
              blocks (hostNormalized env host) (env.unicode.lower suffix.toList) then
            ssrfBlocked s!"host suffix blocked: {String.ofList host}"
          else do
            match ← addresses env host with
            | [] => ssrfBlocked s!"DNS returned no addresses for {String.ofList host}"
            | ip :: ips =>
              checkAddresses (ip :: ips)
              pure ⟨url, .ofList host, effectivePort parts.scheme port, .ofList ip⟩

/-- What the URL and the resolver are, when the check returns. -/
structure Accepted (env : Collaborators) (url : String) (parts : SplitResult) (host : List Char)
    (port : Option ℕ) (ips : List (List Char)) : Prop where
  urlsplit : urlsplit env.unicode url.toList = some parts
  scheme : parts.scheme ∈ allowedSchemes
  username : truthy parts.username = false
  password : truthy parts.password = false
  hostname : parts.hostname env.unicode = some host
  explicit : parts.port = some port
  port : effectivePort parts.scheme port ∈ allowedPorts
  suffixes : ∀ suffix ∈ env.blockedHostSuffixes,
    blocks (hostNormalized env host) (env.unicode.lower suffix.toList) = false
  addresses : addresses env host = .ok ips
  nonempty : ips ≠ []
  classified : ∀ ip ∈ ips, ∃ a, ipAddress ip = some a ∧ rejected a = false

section Validate

variable {env : Collaborators} {url : String} {target : ValidatedTarget}

theorem checkAddresses_ok {ips : List (List Char)} (h : checkAddresses ips = .ok ()) :
    ∀ ip ∈ ips, ∃ a, ipAddress ip = some a ∧ rejected a = false := by
  induction ips with
  | nil => simp
  | cons ip ips ih =>
    cases hip : ipAddress ip with
    | none => simp [checkAddresses, isPrivateOrReserved, hip, valueError, bind, Except.bind] at h
    | some a =>
      cases hrejected : rejected a with
      | true =>
        simp [checkAddresses, isPrivateOrReserved, hip, hrejected, ssrfBlocked, bind,
          Except.bind] at h
      | false =>
        simp only [checkAddresses, isPrivateOrReserved, hip, hrejected, bind, Except.bind,
          Bool.false_eq_true, if_false] at h
        exact List.forall_mem_cons.mpr ⟨⟨a, hip, hrejected⟩, ih h⟩

theorem validate_ok (h : validate env url = .ok target) :
    ∃ parts host port ips, Accepted env url parts host port ips := by
  unfold validate at h
  split at h
  · cases h
  · rename_i parts hurl
    split at h
    · cases h
    · rename_i hscheme
      split at h
      · cases h
      · rename_i huserinfo
        split at h
        · cases h
        · rename_i host hhost
          split at h
          · cases h
          · rename_i port hport
            split at h
            · cases h
            · rename_i hallowed
              split at h
              · cases h
              · rename_i hsuffix
                simp only [not_or, Bool.not_eq_true] at huserinfo
                simp only [List.any_eq_true, not_exists, not_and, Bool.not_eq_true] at hsuffix
                cases haddresses : SafeReplayTarget.addresses env host with
                | error e => simp [haddresses, bind, Except.bind] at h
                | ok ips =>
                  cases ips with
                  | nil => simp [haddresses, bind, Except.bind, ssrfBlocked] at h
                  | cons ip ips =>
                    cases hcheck : checkAddresses (ip :: ips) with
                    | error e => simp [haddresses, hcheck, bind, Except.bind] at h
                    | ok u =>
                      exact ⟨parts, host, port, ip :: ips, hurl, not_not.mp hscheme,
                        huserinfo.1, huserinfo.2, hhost, hport, not_not.mp hallowed, hsuffix,
                        haddresses, List.cons_ne_nil _ _, checkAddresses_ok hcheck⟩

end Validate

section Ranges

/-- 100.64.0.0/10. -/
def sharedV4 (n : ℕ) : Prop := n / 2 ^ 22 = 401

/-- What the project promises to reject among the IPv4 addresses: 127.0.0.0/8, the three ranges of
RFC 1918, 169.254.0.0/16, 100.64.0.0/10, 0.0.0.0, multicast and reserved addresses. -/
def promisedV4 (n : ℕ) : Prop :=
  n / 2 ^ 24 = 127 ∨ n / 2 ^ 24 = 10 ∨ n / 2 ^ 20 = 172 * 16 + 1 ∨ n / 2 ^ 16 = 192 * 256 + 168 ∨
    n / 2 ^ 16 = 169 * 256 + 254 ∨ sharedV4 n ∨ n = 0 ∨ n / 2 ^ 28 = 14 ∨ n / 2 ^ 28 = 15

/-- And among the IPv6 addresses: ::1, fe80::/10, fc00::/7, ::, ff00::/8 and what is reserved. -/
def promisedV6 (n : ℕ) : Prop :=
  n = 1 ∨ n / 2 ^ 118 = 0xfe80 / 2 ^ 6 ∨ n / 2 ^ 121 = 0xfc00 / 2 ^ 9 ∨ n = 0 ∨
    n / 2 ^ 120 = 0xff ∨ ∃ network ∈ reservedV6, inNetwork 128 n network = true

/-- A property of IPv4 addresses, of those that are mapped into IPv6 too. -/
def V4Like (p : ℕ → Prop) : Address → Prop
  | .v4 n => p n
  | .v6 n => ∃ m, ipv4Mapped n = some m ∧ p m

def Shared (a : Address) : Prop := V4Like sharedV4 a

def Promised (a : Address) : Prop :=
  V4Like promisedV4 a ∨ ∃ n : Fin (2 ^ 128), a = .v6 n ∧ ipv4Mapped n = none ∧ promisedV6 n

theorem rejected_eq_true {a : Address} : rejected a = true ↔ isPrivate a = true ∨
    isLoopback a = true ∨ isLinkLocal a = true ∨ isMulticast a = true ∨ isReserved a = true ∨
    isUnspecified a = true := by
  simp [rejected, or_assoc]

/-- A network of private addresses that none of the exceptions is in. -/
theorem isPrivate_v4 {n : Fin (2 ^ 32)} (network : ℕ × ℕ) (hnetwork : network ∈ privateV4)
    (hin : inNetwork 32 n network = true)
    (hexcept : ∀ exception ∈ privateV4Exceptions, inNetwork 32 n exception = false) :
    isPrivate (.v4 n) = true := by
  simp only [isPrivate, classify, Bool.and_eq_true, Bool.not_eq_true', List.any_eq_true,
    List.any_eq_false]
  exact ⟨⟨network, hnetwork, hin⟩, fun exception hmem => by simp [hexcept exception hmem]⟩

theorem rejected_v4 {n : Fin (2 ^ 32)} (h : promisedV4 n) (hshared : ¬ sharedV4 n) :
    rejected (.v4 n) = true := by
  have hexcept : (n : ℕ) / 2 ^ 8 ≠ (192 * 256 + 0) * 256 + 0 →
      ∀ exception ∈ privateV4Exceptions, inNetwork 32 n exception = false := by
    intro hn
    simp only [privateV4Exceptions, v4Network, List.forall_mem_cons, inNetwork]
    norm_num at hn ⊢
    omega
  rw [rejected_eq_true]
  rcases h with h | h | h | h | h | h | h | h | h
  · right; left
    simp [isLoopback, classify, inNetwork, v4Network]
    omega
  · left
    refine isPrivate_v4 (v4Network 10 0 0 0 8) (by simp [privateV4]) ?_ (hexcept (by omega))
    simp [inNetwork, v4Network]
    omega
  · left
    refine isPrivate_v4 (v4Network 172 16 0 0 12) (by simp [privateV4]) ?_ (hexcept (by omega))
    simp [inNetwork, v4Network]
    omega
  · left
    refine isPrivate_v4 (v4Network 192 168 0 0 16) (by simp [privateV4]) ?_ (hexcept (by omega))
    simp [inNetwork, v4Network]
    omega
  · right; right; left
    simp [isLinkLocal, classify, inNetwork, v4Network]
    omega
  · exact absurd h hshared
  · iterate 5 right
    simp [isUnspecified, classify, h]
  · iterate 3 right
    left
    simp [isMulticast, classify, inNetwork, v4Network]
    omega
  · iterate 4 right
    left
    simp [isReserved, classify, inNetwork, v4Network]
    omega

theorem inNetwork_eq_true {w n : ℕ} {network : ℕ × ℕ} : inNetwork w n network = true ↔
    n / 2 ^ (w - network.2) = network.1 / 2 ^ (w - network.2) := decide_eq_true_iff

/-- No exception is in fc00::/7. -/
theorem not_exception_v6 {n : ℕ} (h : n / 2 ^ 121 = 0xfc00 / 2 ^ 9) :
    ∀ exception ∈ privateV6Exceptions, inNetwork 128 n exception = false := by
  simp only [privateV6Exceptions, v6Network, List.forall_mem_cons, inNetwork]
  norm_num [List.replicate_succ] at h ⊢
  omega

theorem rejected_v6 {n : Fin (2 ^ 128)} (hmapped : ipv4Mapped n = none) (h : promisedV6 n) :
    rejected (.v6 n) = true := by
  rw [rejected_eq_true]
  simp only [isPrivate, isLoopback, isLinkLocal, isMulticast, isReserved, isUnspecified, classify,
    hmapped, decide_eq_true_eq]
  rcases h with h | h | h | h | h | ⟨network, hmem, hin⟩
  · exact Or.inr (Or.inl h)
  · right; right; left
    exact inNetwork_eq_true.mpr (h.trans (by decide +kernel))
  · left
    have hin : inNetwork 128 n (v6Network [0xfc00] 7) = true :=
      inNetwork_eq_true.mpr (h.trans (by decide +kernel))
    simp only [Bool.and_eq_true, Bool.not_eq_true', List.any_eq_true, List.any_eq_false]
    refine ⟨⟨_, by simp [privateV6], hin⟩, fun exception hmem => ?_⟩
    simp [not_exception_v6 h exception hmem]
  · iterate 5 right
    exact h
  · iterate 3 right
    left
    exact inNetwork_eq_true.mpr (h.trans (by decide +kernel))
  · iterate 4 right
    left
    exact List.any_eq_true.mpr ⟨network, hmem, hin⟩

/-- A mapped address has the properties of the IPv4 address. -/
theorem rejected_mapped {n : Fin (2 ^ 128)} {m : ℕ} (hmapped : ipv4Mapped n = some m) :
    ∃ k : Fin (2 ^ 32), (k : ℕ) = m ∧ rejected (.v6 n) = rejected (.v4 k) := by
  have hm : m < 2 ^ 32 := by
    unfold ipv4Mapped at hmapped
    split at hmapped
    · obtain rfl := Option.some.inj hmapped
      exact Nat.mod_lt _ (by decide)
    · cases hmapped
  refine ⟨⟨m, hm⟩, rfl, ?_⟩
  simp [rejected, isPrivate, isLoopback, isLinkLocal, isMulticast, isReserved, isUnspecified,
    classify, hmapped]

/-- All that is promised is rejected, but for 100.64.0.0/10. -/
theorem rejected_of_promised {a : Address} (h : Promised a) (hshared : ¬ Shared a) :
    rejected a = true := by
  rcases h with h | ⟨n, rfl, hmapped, h⟩
  · cases a with
    | v4 n => exact rejected_v4 h hshared
    | v6 n =>
      obtain ⟨m, hmapped, h⟩ := h
      obtain ⟨k, rfl, heq⟩ := rejected_mapped hmapped
      rw [heq]
      exact rejected_v4 h fun hk => hshared ⟨k, hmapped, hk⟩
  · exact rejected_v6 hmapped h

theorem Shared.promised {a : Address} (h : Shared a) : Promised a := by
  have hranges : ∀ n, sharedV4 n → promisedV4 n := fun n hn => by simp [promisedV4, hn]
  cases a with
  | v4 n => exact Or.inl (hranges n h)
  | v6 n =>
    obtain ⟨m, hmapped, h⟩ := h
    exact Or.inl ⟨m, hmapped, hranges m h⟩

end Ranges

/-- The port of the URL, or that of its scheme. -/
def clientPort (scheme : List Char) (port : Option ℕ) : ℕ :=
  port.getD (if scheme = "https".toList then 443 else 80)

/-- What is promised of a URL whose host has these addresses. -/
structure Sound (env : Collaborators) (parts : SplitResult) (host : List Char) (port : Option ℕ)
    (ips : List (List Char)) : Prop where
  scheme : parts.scheme = "http".toList ∨ parts.scheme = "https".toList
  userinfo : parts.username = none ∧ parts.password = none
  host : ∀ suffix ∈ env.blockedHostSuffixes,
    hostNormalized env host ≠ env.unicode.lower suffix.toList ∧
      ∀ sub, hostNormalized env host ≠ sub ++ '.' :: env.unicode.lower suffix.toList
  port : clientPort parts.scheme port = 80 ∨ clientPort parts.scheme port = 443
  addresses : ∀ ip ∈ ips, ∃ a, ipAddress ip = some a ∧ ¬ Promised a

/-- The inputs on which the check falls short of it: an empty user name, the port 0, and the
addresses of 100.64.0.0/10. -/
structure Covered (parts : SplitResult) (port : Option ℕ) (ips : List (List Char)) : Prop where
  at_sign : '@' ∉ parts.netloc
  port : port ≠ some 0
  shared : ∀ ip ∈ ips, ∀ a, ipAddress ip = some a → ¬ Shared a

section Guard

variable {env : Collaborators} {url : String} {parts : SplitResult} {host : List Char}
  {port : Option ℕ} {ips : List (List Char)}

/-- The port that is checked is the one that is used, unless that is 0. -/
theorem clientPort_iff {scheme : List Char} (h : effectivePort scheme port ∈ allowedPorts) :
    (clientPort scheme port = 80 ∨ clientPort scheme port = 443) ↔ port ≠ some 0 := by
  have hallowed : effectivePort scheme port = 80 ∨ effectivePort scheme port = 443 := by
    simpa [allowedPorts] using h
  match port with
  | none => exact ⟨fun _ => by simp, fun _ => hallowed⟩
  | some 0 =>
    refine iff_of_false ?_ (by simp)
    rw [clientPort, Option.getD_some]
    decide
  | some (n + 1) => exact ⟨fun _ => by simp, fun _ => hallowed⟩

theorem Accepted.sound_iff (h : Accepted env url parts host port ips) :
    Sound env parts host port ips ↔ Covered parts port ips := by
  constructor
  · intro hsound
    refine ⟨SplitResult.username_eq_none.mp hsound.userinfo.1,
      (clientPort_iff h.port).mp hsound.port,
      fun ip hip a ha hshared => ?_⟩
    obtain ⟨a', ha', hpromised⟩ := hsound.addresses ip hip
    obtain rfl := Option.some.inj (ha.symm.trans ha')
    exact hpromised hshared.promised
  · intro hcovered
    have hscheme := h.scheme
    have husername := SplitResult.username_eq_none.mpr hcovered.at_sign
    refine ⟨by simpa [allowedSchemes] using hscheme,
      ⟨husername, SplitResult.password_eq_none husername⟩, fun suffix hsuffix => ?_,
      (clientPort_iff h.port).mpr hcovered.port, fun ip hip => ?_⟩
    · have hblocks := of_decide_eq_false (h.suffixes suffix hsuffix)
      rw [not_or] at hblocks
      exact ⟨hblocks.1, fun sub hsub => hblocks.2 ⟨sub, hsub.symm⟩⟩
    · obtain ⟨a, ha, hrejected⟩ := h.classified ip hip
      refine ⟨a, ha, fun hpromised => ?_⟩
      have htrue := rejected_of_promised hpromised (hcovered.shared ip hip a ha)
      simp [hrejected] at htrue

/-- What the check lets pass is as promised exactly when its inputs are covered. -/
theorem sound_iff_covered {target : ValidatedTarget} (h : validate env url = .ok target) :
    ∃ parts host port ips, Accepted env url parts host port ips ∧
      (Sound env parts host port ips ↔ Covered parts port ips) := by
  obtain ⟨parts, host, port, ips, haccepted⟩ := validate_ok h
  exact ⟨parts, host, port, ips, haccepted, haccepted.sound_iff⟩

end Guard

section Samples

def sampleCollaborators : Collaborators where
  unicode := ⟨List.map Char.toLower, id⟩
  getaddrinfo _ := .answers [⟨"93.184.216.34".toList, by decide +kernel⟩]
  blockedHostSuffixes := ["hooktrace.io"]

theorem public_sound : ∃ parts host port ips,
    Accepted sampleCollaborators "https://api.example.com/hook" parts host port ips ∧
      Sound sampleCollaborators parts host port ips := by
  have hvalid : validate sampleCollaborators "https://api.example.com/hook" =
      .ok ⟨"https://api.example.com/hook", "api.example.com", 443, "93.184.216.34"⟩ := by
    decide +kernel
  obtain ⟨parts, host, port, ips, haccepted, hiff⟩ := sound_iff_covered hvalid
  refine ⟨parts, host, port, ips, haccepted, hiff.mpr ?_⟩
  have hparts : urlsplit sampleCollaborators.unicode "https://api.example.com/hook".toList =
      some ⟨"https".toList, "api.example.com".toList, "/hook".toList, [], []⟩ := by decide +kernel
  obtain rfl := Option.some.inj (haccepted.urlsplit.symm.trans hparts)
  have hhost : SplitResult.hostname
      ⟨"https".toList, "api.example.com".toList, "/hook".toList, [], []⟩
      sampleCollaborators.unicode = some "api.example.com".toList := by decide +kernel
  obtain rfl := Option.some.inj (haccepted.hostname.symm.trans hhost)
  have hport : SplitResult.port
      ⟨"https".toList, "api.example.com".toList, "/hook".toList, [], []⟩ = some none := by
    decide +kernel
  obtain rfl := Option.some.inj (haccepted.explicit.symm.trans hport)
  have hips : SafeReplayTarget.addresses sampleCollaborators "api.example.com".toList =
      .ok ["93.184.216.34".toList] := by decide +kernel
  obtain rfl := Except.ok.inj (haccepted.addresses.symm.trans hips)
  have haddress : ipAddress "93.184.216.34".toList = some (.v4 1572395042) := by decide +kernel
  refine ⟨by decide +kernel, by simp, List.forall_mem_singleton.mpr fun a ha => ?_⟩
  obtain rfl := Option.some.inj (haddress.symm.trans ha)
  show ¬ (1572395042 / 2 ^ 22 = 401)
  decide

/-- An address that the README promises to reject. -/
theorem shared_accepted : ¬ ∀ (env : Collaborators) (url : String) (target : ValidatedTarget),
    validate env url = .ok target → ∃ parts host port ips,
      Accepted env url parts host port ips ∧ Sound env parts host port ips := by
  intro hclaim
  have hvalid : validate sampleCollaborators "http://100.64.0.1/" =
      .ok ⟨"http://100.64.0.1/", "100.64.0.1", 80, "100.64.0.1"⟩ := by decide +kernel
  obtain ⟨parts, host, port, ips, haccepted, hsound⟩ := hclaim _ _ _ hvalid
  have hparts : urlsplit sampleCollaborators.unicode "http://100.64.0.1/".toList =
      some ⟨"http".toList, "100.64.0.1".toList, "/".toList, [], []⟩ := by decide +kernel
  obtain rfl := Option.some.inj (haccepted.urlsplit.symm.trans hparts)
  have hhost : SplitResult.hostname ⟨"http".toList, "100.64.0.1".toList, "/".toList, [], []⟩
      sampleCollaborators.unicode = some "100.64.0.1".toList := by decide +kernel
  obtain rfl := Option.some.inj (haccepted.hostname.symm.trans hhost)
  have hips : SafeReplayTarget.addresses sampleCollaborators "100.64.0.1".toList =
      .ok ["100.64.0.1".toList] := by decide +kernel
  obtain rfl := Except.ok.inj (haccepted.addresses.symm.trans hips)
  obtain ⟨a, ha, hpromised⟩ := hsound.addresses _ List.mem_cons_self
  have haddress : ipAddress "100.64.0.1".toList = some (.v4 1681915905) := by decide +kernel
  obtain rfl := Option.some.inj (haddress.symm.trans ha)
  have hshared : Shared (.v4 1681915905) := show (1681915905 / 2 ^ 22 = 401) by decide
  exact hpromised hshared.promised

end Samples

end Hooktrace.SafeReplayTarget
