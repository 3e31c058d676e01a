import Hooktrace.SafeReplayTarget

/-!
Which exceptions leave `validate`. The port says SsrfBlockedError; the two use cases that call it
handle that one, and let every other pass.
-/
namespace Hooktrace.TargetContract

open ExecuteForward (Answer PyError ValidatedTarget)
open IpAddress UrlSplit SafeReplayTarget

/-- The check returns, or raises what the port says. -/
def Honours {α : Type} (result : Except PyError α) : Prop :=
  (∃ value, result = .ok value) ∨ ∃ message, result = .error (.ssrfBlocked message)

def AsksPort (env : Collaborators) (parts : SplitResult) : Prop :=
  parts.scheme ∈ allowedSchemes ∧ truthy parts.username = false ∧ truthy parts.password = false ∧
    parts.hostname env.unicode ≠ none

structure AsksResolver (env : Collaborators) (parts : SplitResult) (host : List Char) : Prop where
  port : AsksPort env parts
  allowed : ∃ port, parts.port = some port ∧ effectivePort parts.scheme port ∈ allowedPorts
  hostname : parts.hostname env.unicode = some host
  suffixes : ∀ suffix ∈ env.blockedHostSuffixes,
    blocks (hostNormalized env host) (env.unicode.lower suffix.toList) = false
  name : ipAddress host = none

/-- The URL is split, its port is a number where it is asked for, and the resolver answers, or
does not come back, where it is asked. -/
def WellBehaved (env : Collaborators) (url : String) : Prop :=
  ∃ parts, urlsplit env.unicode url.toList = some parts ∧
    (AsksPort env parts → parts.port ≠ none) ∧
    ∀ host, AsksResolver env parts host → ∀ error, env.getaddrinfo host ≠ .raises error

section Contract

variable {env : Collaborators} {url : String}

theorem honours_ok {α : Type} (value : α) : Honours (.ok value) := Or.inl ⟨value, rfl⟩

theorem honours_ssrfBlocked {α : Type} (message : String) :
    Honours (ssrfBlocked message : Except PyError α) := Or.inr ⟨message, rfl⟩

theorem not_honours_other {α : Type} (name : String) :
    ¬ Honours (.error (.other name) : Except PyError α) := by
  rintro (⟨value, h⟩ | ⟨message, h⟩) <;> cases h

theorem Honours.bind {α β : Type} {result : Except PyError α} {f : α → Except PyError β}
    (h : Honours result) (hf : ∀ value, result = .ok value → Honours (f value)) :
    Honours (result >>= f) := by
  rcases h with ⟨value, rfl⟩ | ⟨message, rfl⟩
  · exact hf value rfl
  · exact Or.inr ⟨message, rfl⟩

/-- Addresses raise nothing else. -/
theorem honours_checkAddresses {ips : List (List Char)}
    (h : ∀ ip ∈ ips, (ipAddress ip).isSome = true) : Honours (checkAddresses ips) := by
  induction ips with
  | nil => exact honours_ok ()
  | cons ip ips ih =>
    obtain ⟨hip, hips⟩ := List.forall_mem_cons.mp h
    obtain ⟨a, ha⟩ := Option.isSome_iff_exists.mp hip
    have hclassified : isPrivateOrReserved ip = .ok (rejected a) := by
      simp [isPrivateOrReserved, ha]
    rw [checkAddresses, hclassified]
    refine (honours_ok _).bind fun value _ => ?_
    split
    · exact honours_ssrfBlocked _
    · exact ih hips

/-- The addresses of a host are addresses, and asking for them fails where the resolver does. -/
theorem honours_addresses {host : List Char}
    (h : ipAddress host = none → ∀ error, env.getaddrinfo host ≠ .raises error) :
    Honours (addresses env host) ∧
      ∀ ips, addresses env host = .ok ips → ∀ ip ∈ ips, (ipAddress ip).isSome = true := by
  unfold addresses
  cases hhost : ipAddress host with
  | some a =>
    refine ⟨honours_ok _, fun ips hips => ?_⟩
    obtain rfl := Except.ok.inj hips
    simp [hhost]
  | none =>
    simp only [resolve]
    cases hlookup : env.getaddrinfo host with
    | answers infos =>
      refine ⟨honours_ok _, fun ips hips => ?_⟩
      obtain rfl := Except.ok.inj hips
      simp only [List.mem_map]
      rintro _ ⟨info, -, rfl⟩
      exact info.valid
    | raises error => exact absurd hlookup (h hhost error)
    | timesOut => exact ⟨honours_ssrfBlocked _, fun ips hips => by cases hips⟩

theorem wellBehaved_iff {parts : SplitResult}
    (h : urlsplit env.unicode url.toList = some parts) : WellBehaved env url ↔
      (AsksPort env parts → parts.port ≠ none) ∧
        ∀ host, AsksResolver env parts host → ∀ error, env.getaddrinfo host ≠ .raises error := by
  constructor
  · rintro ⟨parts', h', hport, hresolver⟩
    obtain rfl := Option.some.inj (h.symm.trans h')
    exact ⟨hport, hresolver⟩
  · rintro ⟨hport, hresolver⟩
    exact ⟨parts, h, hport, hresolver⟩

/-- A URL that is refused before the port is asked for raises nothing else. -/
theorem honours_of_not_asksPort {parts : SplitResult}
    (h : urlsplit env.unicode url.toList = some parts) (hasks : ¬ AsksPort env parts) :
    Honours (validate env url) := by
  unfold validate
  rw [h]
  dsimp only
  split
  · exact honours_ssrfBlocked _
  · rename_i hscheme
    split
    · exact honours_ssrfBlocked _
    · rename_i huserinfo
      cases hhost : parts.hostname env.unicode with
      | none => exact honours_ssrfBlocked _
      | some host =>
        simp only [not_or, Bool.not_eq_true] at huserinfo
        exact absurd ⟨not_not.mp hscheme, huserinfo.1, huserinfo.2, by simp [hhost]⟩ hasks

/-- The rest of the check, from the port on. -/
theorem validate_eq {parts : SplitResult} (h : urlsplit env.unicode url.toList = some parts)
    (hasks : AsksPort env parts) : ∃ host, parts.hostname env.unicode = some host ∧
      validate env url = (match parts.port with
        | none => valueError
        | some port =>
          if effectivePort parts.scheme port ∉ allowedPorts then
            ssrfBlocked s!"port not allowed: {effectivePort parts.scheme port}"
          else if env.blockedHostSuffixes.any fun suffix =>
              blocks (hostNormalized env host) (env.unicode.lower suffix.toList) then
            ssrfBlocked s!"host suffix blocked: {String.ofList host}"
          else do
            match ← addresses env host with
            | [] => ssrfBlocked s!"DNS returned no addresses for {String.ofList host}"
            | ip :: ips =>
              checkAddresses (ip :: ips)
              pure ⟨url, .ofList host, effectivePort parts.scheme port, .ofList ip⟩) := by
  obtain ⟨hscheme, husername, hpassword, hhost⟩ := hasks
  obtain ⟨host, hhost⟩ := Option.ne_none_iff_exists'.mp hhost
  refine ⟨host, hhost, ?_⟩
  have huserinfo : ¬ (truthy parts.username = true ∨ truthy parts.password = true) := by
    simp [husername, hpassword]
  unfold validate
  rw [h]
  dsimp only
  rewrite [if_neg (not_not.mpr hscheme), if_neg huserinfo, hhost]
  rfl

theorem honours_iff : Honours (validate env url) ↔ WellBehaved env url := by
  cases hurl : urlsplit env.unicode url.toList with
  | none =>
    have hraises : validate env url = .error (.other "ValueError") := by
      simp [validate, hurl, valueError]
    refine iff_of_false (hraises ▸ not_honours_other _) ?_
    rintro ⟨parts, h, -⟩
    simp [hurl] at h
  | some parts =>
    rw [wellBehaved_iff hurl]
    by_cases hasks : AsksPort env parts
    swap
    · exact iff_of_true (honours_of_not_asksPort hurl hasks)
        ⟨fun h => absurd h hasks, fun host h => absurd h.port hasks⟩
    obtain ⟨host, hhost, heq⟩ := validate_eq hurl hasks
    rw [heq]
    cases hport : parts.port with
    | none => exact iff_of_false (not_honours_other _) fun h => h.1 hasks rfl
    | some port =>
      dsimp only
      split
      · rename_i hallowed
        refine iff_of_true (honours_ssrfBlocked _) ⟨fun _ => by simp, fun host h => ?_⟩
        obtain ⟨port', hport', h'⟩ := h.allowed
        obtain rfl := Option.some.inj (hport.symm.trans hport')
        exact absurd h' hallowed
      · rename_i hallowed
        split
        · rename_i hsuffix
          refine iff_of_true (honours_ssrfBlocked _) ⟨fun _ => by simp, fun host' h => ?_⟩
          obtain rfl := Option.some.inj (hhost.symm.trans h.hostname)
          obtain ⟨suffix, hmem, hblocks⟩ := List.any_eq_true.mp hsuffix
          simp [h.suffixes suffix hmem] at hblocks
        · rename_i hsuffix
          -- the host is a name or an address, and nothing stands before the addresses
          simp only [List.any_eq_true, not_exists, not_and, Bool.not_eq_true] at hsuffix
          have hresolver : ipAddress host = none → AsksResolver env parts host := fun hname =>
            ⟨hasks, ⟨port, hport, not_not.mp hallowed⟩, hhost, hsuffix, hname⟩
          constructor
          · intro hhonours
            refine ⟨fun _ => by simp, fun host' h error herror => ?_⟩
            obtain rfl := Option.some.inj (hhost.symm.trans h.hostname)
            have hraises : addresses env host = .error (.other error) := by
              simp [addresses, h.name, resolve, herror]
            rw [hraises] at hhonours
            exact not_honours_other _ hhonours
          · rintro ⟨-, hanswers⟩
            obtain ⟨haddresses, hvalid⟩ :=
              honours_addresses fun hname => hanswers host (hresolver hname)
            refine haddresses.bind fun ips hips => ?_
            cases ips with
            | nil => exact honours_ssrfBlocked _
            | cons ip ips =>
              exact (honours_checkAddresses (hvalid _ hips)).bind fun _ _ => honours_ok _

end Contract

/-- The two use cases let every other exception pass. -/
theorem validate_contract (env : Collaborators) (url : String) :
    (Honours (validate env url) ↔ WellBehaved env url) ∧
      (∀ (jobEnv : ExecuteForward.Collaborators) (state : ExecuteForward.ClaimedState)
        (headers : Headers) (name : String),
        ExecuteForward.deliver { jobEnv with validate := fun _ => .raises (.other name) } state
          headers = .error (.raised (.other name))) ∧
      ∀ (replayEnv : ReplayRequest.Collaborators) (args : ReplayRequest.Args)
        (state : ReplayRequest.AuthorizedState) (later : Database) (name : String),
        (∃ message, ReplayRequest.httpPhase
          { replayEnv with validate := fun _ => .raises (.other name) } args state later =
            ⟨[], later, .error (.payloadTooLarge message)⟩) ∨
        ReplayRequest.httpPhase
          { replayEnv with validate := fun _ => .raises (.other name) } args state later =
            ⟨[], later, .error (.interrupted (.raised (.other name)))⟩ := by
  refine ⟨honours_iff, fun _ _ _ _ => rfl, fun replayEnv args state later name => ?_⟩
  unfold ReplayRequest.httpPhase
  split
  · exact Or.inl ⟨_, rfl⟩
  · exact Or.inr rfl

/-- A port that is no port. -/
theorem port_raises : ¬ ∀ (env : Collaborators) (url : String), Honours (validate env url) := by
  intro hclaim
  have hraises : validate sampleCollaborators "http://example.com:99999/" =
      .error (.other "ValueError") := by decide +kernel
  exact not_honours_other _ (hraises ▸ hclaim sampleCollaborators "http://example.com:99999/")

end Hooktrace.TargetContract
