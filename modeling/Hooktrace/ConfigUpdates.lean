import Hooktrace.ReadCommitted
import Hooktrace.Transition
import Hooktrace.UpdateEndpointConfig

/-!
Concurrent config PATCHes and abuse scans on one endpoint, each in its own READ COMMITTED
transaction. A PATCH reads the row first and later writes eleven columns of it from the
entity it read; the UPDATE itself waits for the transaction that holds the row. What
another transaction committed in between is lost where the PATCH does not name it.
-/
namespace Hooktrace.ConfigUpdates

open Table ReadCommitted EndpointRepository UpdateEndpointConfig Transition

abbrev TransactionId := ℕ

inductive Session where
  /-- A PATCH has read the row and made its entity of it. -/
  | read (env : Encryption) (p : Patch) (snapshot entity : Endpoint)
  /-- Its UPDATE has been executed. -/
  | wrote (env : Encryption) (p : Patch) (snapshot entity : Endpoint)
  /-- The UPDATE of a scan has been executed. -/
  | flagged (reason : String) (now : Datetime)

structure State where
  row : VersionedRow Endpoint
  sessions : TransactionId → Option Session

inductive Action where
  | read (t : TransactionId) (env : Encryption) (p : Patch)
  | write (t : TransactionId)
  | flag (t : TransactionId) (reason : String) (now : Datetime)
  | commit (t : TransactionId)
  | rollback (t : TransactionId)

def setSession (s : State) (t : TransactionId) (session : Option Session) :
    TransactionId → Option Session :=
  Function.update s.sessions t session

/-- `none` where the transaction cannot take the step, or waits for the row. -/
def step (endpointId : UUID) (s : State) : Action → Option State
  | .read t env p =>
    match s.sessions t, s.row.committed with
    | none, some snapshot =>
      match patched env p snapshot with
      | .ok entity => some { s with
          sessions := setSession s t (some (.read env p snapshot entity)) }
      | .error _ => some s
    | _, _ => none
  | .write t =>
    match s.sessions t with
    | some (.read env p snapshot entity) =>
      match s.row.update (update entity) with
      | .updated r => some
          { row := s.row.write r
            sessions := setSession s t (some (.wrote env p snapshot entity)) }
      | .waits => none
      | .noRow => some { s with sessions := setSession s t none }
    | _ => none
  | .flag t reason now =>
    match s.sessions t, s.row.update (flag endpointId reason now) with
    | none, .updated r => some
        { row := s.row.write r
          sessions := setSession s t (some (.flagged reason now)) }
    | _, _ => none
  | .commit t =>
    match s.sessions t with
    | some (.wrote _ _ _ _) => some { row := s.row.commit, sessions := setSession s t none }
    | some (.flagged _ _) => some { row := s.row.commit, sessions := setSession s t none }
    | _ => none
  | .rollback t =>
    match s.sessions t with
    | some (.read _ _ _ _) => some { s with sessions := setSession s t none }
    | some (.wrote _ _ _ _) => some
        { row := { s.row with written := none }, sessions := setSession s t none }
    | some (.flagged _ _) => some
        { row := { s.row with written := none }, sessions := setSession s t none }
    | none => none

def start (endpoint : Endpoint) : State := ⟨⟨some endpoint, none⟩, fun _ => none⟩

def Session.writing : Session → Bool
  | .read _ _ _ _ => false
  | .wrote _ _ _ _ => true
  | .flagged _ _ => true

def Session.version (endpointId : UUID) (c : Endpoint) : Session → Endpoint
  | .read _ _ _ _ => c
  | .wrote _ _ _ entity => (update entity).assign c
  | .flagged reason now => (flag endpointId reason now).assign c

/-- The entity was made of the snapshot. -/
def Session.Patches : Session → Prop
  | .read env p snapshot entity => patched env p snapshot = .ok entity
  | .wrote env p snapshot entity => patched env p snapshot = .ok entity
  | .flagged _ _ => True

/-- The commit of a PATCH changes exactly the fields that its body names. -/
def ChangesNamed (m : Move State Action) : Prop :=
  ∀ t env p snapshot entity before, m.act = .commit t →
    m.pre.sessions t = some (.wrote env p snapshot entity) →
    m.pre.row.committed = some before →
    ∃ after, m.post.row.committed = some after ∧ patched env p before = .ok after

/-- When a PATCH commits, the columns it does not name are in the row as it read them. -/
def Unmoved (m : Move State Action) : Prop :=
  ∀ t env p snapshot entity before, m.act = .commit t →
    m.pre.sessions t = some (.wrote env p snapshot entity) →
    m.pre.row.committed = some before → SameUnnamed p snapshot before

def committedChange (endpointId : UUID) (m : Move State Action) (r : Endpoint) :
    Option Endpoint :=
  match m.act with
  | .commit t =>
    match m.pre.sessions t with
    | some (.wrote env p _ _) => (patched env p r).toOption
    | some (.flagged reason now) => some ((flag endpointId reason now).assign r)
    | _ => some r
  | _ => some r

/-- All that was committed, one after the other. -/
def serial (endpointId : UUID) (r : Endpoint) : History State Action → Option Endpoint
  | [] => some r
  | m :: past => (serial endpointId r past).bind (committedChange endpointId m)

/-- One transaction at most has written the row, and what it has written is made of the
committed version. -/
structure Held (endpointId : UUID) (s : State) : Prop where
  patches : ∀ t session, s.sessions t = some session → session.Patches
  one : ∀ t t' session session', s.sessions t = some session → s.sessions t' = some session' →
    session.writing = true → session'.writing = true → t = t'
  version : ∃ c, s.row.committed = some c ∧ ∀ t session, s.sessions t = some session →
    session.writing = true → s.row.written = some (session.version endpointId c)

inductive Effect (endpointId : UUID) (s : State) : Action → State → Prop
  | failed {t : TransactionId} {env : Encryption} {p : Patch} :
      Effect endpointId s (.read t env p) s
  | reads {t : TransactionId} {env : Encryption} {p : Patch} {snapshot entity : Endpoint}
      (hpatched : patched env p snapshot = .ok entity) :
      Effect endpointId s (.read t env p)
        ⟨s.row, setSession s t (some (.read env p snapshot entity))⟩
  | gone {t : TransactionId} :
      Effect endpointId s (.write t) ⟨s.row, setSession s t none⟩
  | writes {t : TransactionId} {env : Encryption} {p : Patch} {snapshot entity c : Endpoint}
      (hsession : s.sessions t = some (.read env p snapshot entity))
      (hc : s.row.committed = some c) (hfree : s.row.written = none) :
      Effect endpointId s (.write t) ⟨s.row.write ((update entity).assign c),
        setSession s t (some (.wrote env p snapshot entity))⟩
  | flags {t : TransactionId} {reason : String} {now : Datetime} {c : Endpoint}
      (hc : s.row.committed = some c) (hfree : s.row.written = none) :
      Effect endpointId s (.flag t reason now)
        ⟨s.row.write ((flag endpointId reason now).assign c),
          setSession s t (some (.flagged reason now))⟩
  | commits {t : TransactionId} {session : Session} (hsession : s.sessions t = some session)
      (hwriting : session.writing = true) :
      Effect endpointId s (.commit t) ⟨s.row.commit, setSession s t none⟩
  | drops {t : TransactionId} {session : Session} (hsession : s.sessions t = some session)
      (hreading : session.writing = false) :
      Effect endpointId s (.rollback t) ⟨s.row, setSession s t none⟩
  | undoes {t : TransactionId} {session : Session} (hsession : s.sessions t = some session)
      (hwriting : session.writing = true) :
      Effect endpointId s (.rollback t) ⟨⟨s.row.committed, none⟩, setSession s t none⟩

section Runs

variable {endpointId : UUID} {s u : State} {a : Action}

theorem step_effect (h : step endpointId s a = some u) : Effect endpointId s a u := by
  cases a with
  | read t env p =>
    simp only [step] at h
    split at h
    · split at h
      · rename_i hpatched
        exact Option.some.inj h ▸ .reads hpatched
      · exact Option.some.inj h ▸ .failed
    · simp at h
  | write t =>
    simp only [step] at h
    split at h
    · rename_i env p snapshot entity hsession
      split at h
      · rename_i r hupdated
        obtain ⟨c, hc, hfree, rfl⟩ := s.row.update_eq_updated hupdated
        exact Option.some.inj h ▸ .writes hsession hc hfree
      · simp at h
      · exact Option.some.inj h ▸ .gone
    · simp at h
  | flag t reason now =>
    simp only [step] at h
    split at h
    · rename_i hupdated
      obtain ⟨c, hc, hfree, rfl⟩ := s.row.update_eq_updated hupdated
      exact Option.some.inj h ▸ .flags hc hfree
    · simp at h
  | commit t =>
    simp only [step] at h
    split at h
    · rename_i hsession
      exact Option.some.inj h ▸ .commits hsession rfl
    · rename_i hsession
      exact Option.some.inj h ▸ .commits hsession rfl
    · simp at h
  | rollback t =>
    simp only [step] at h
    split at h
    · rename_i hsession
      exact Option.some.inj h ▸ .drops hsession rfl
    · rename_i hsession
      exact Option.some.inj h ▸ .undoes hsession rfl
    · rename_i hsession
      exact Option.some.inj h ▸ .undoes hsession rfl
    · simp at h

/-- The session of a transaction after its own step, and of every other one. -/
theorem setSession_cases {t t' : TransactionId} {session : Option Session} {session' : Session}
    (h : setSession s t session t' = some session') :
    (t' = t ∧ session = some session') ∨ (t' ≠ t ∧ s.sessions t' = some session') := by
  unfold setSession at h
  by_cases ht : t' = t
  · subst ht
    exact Or.inl ⟨rfl, by simpa using h⟩
  · exact Or.inr ⟨ht, by simpa [ht] using h⟩

/-- Nobody has written a row that is free. -/
theorem Held.not_writing_of_free (h : Held endpointId s) (hfree : s.row.written = none)
    {t : TransactionId} {session : Session} (hsession : s.sessions t = some session) :
    session.writing = false := by
  obtain ⟨c, -, hversion⟩ := h.version
  by_contra hwriting
  have hwritten := hversion t session hsession (by simpa using hwriting)
  simp [hfree] at hwritten

theorem Held.close (h : Held endpointId s) (t : TransactionId) :
    Held endpointId ⟨s.row, setSession s t none⟩ := by
  have hothers : ∀ t' session', setSession s t none t' = some session' →
      s.sessions t' = some session' := by
    intro t' session' hsession
    rcases setSession_cases hsession with ⟨-, hnone⟩ | ⟨-, hold⟩
    · simp at hnone
    · exact hold
  obtain ⟨c, hc, hversion⟩ := h.version
  exact
    { patches := fun t' session' hs => h.patches t' session' (hothers t' session' hs)
      one := fun t₁ t₂ s₁ s₂ hs₁ hs₂ => h.one t₁ t₂ s₁ s₂ (hothers t₁ s₁ hs₁) (hothers t₂ s₂ hs₂)
      version := ⟨c, hc, fun t' session' hs => hversion t' session' (hothers t' session' hs)⟩ }

theorem Held.release (h : Held endpointId s) {t : TransactionId} {session : Session}
    (hsession : s.sessions t = some session) (hwriting : session.writing = true)
    (c : Endpoint) : Held endpointId ⟨⟨some c, none⟩, setSession s t none⟩ := by
  have hclosed := h.close t
  refine ⟨hclosed.patches, hclosed.one, c, rfl, ?_⟩
  intro t' session' hsession' hwriting'
  rcases setSession_cases hsession' with ⟨-, hnone⟩ | ⟨hother, hold⟩
  · simp at hnone
  · exact absurd (h.one t' t session' session hold hsession hwriting' hwriting) hother

theorem Held.take (h : Held endpointId s) {t : TransactionId} {session : Session} {c : Endpoint}
    (hpatches : session.Patches) (hc : s.row.committed = some c) (hfree : s.row.written = none) :
    Held endpointId ⟨s.row.write (session.version endpointId c),
      setSession s t (some session)⟩ := by
  have hidle : ∀ t' session', s.sessions t' = some session' → session'.writing = false :=
    fun _ _ hs => h.not_writing_of_free hfree hs
  refine ⟨?_, ?_, c, hc, ?_⟩
  · intro t' session' hs
    rcases setSession_cases hs with ⟨-, hnew⟩ | ⟨-, hold⟩
    · exact Option.some.inj hnew ▸ hpatches
    · exact h.patches t' session' hold
  · intro t₁ t₂ s₁ s₂ hs₁ hs₂ hw₁ hw₂
    rcases setSession_cases hs₁ with ⟨rfl, -⟩ | ⟨-, hold₁⟩
    · rcases setSession_cases hs₂ with ⟨rfl, -⟩ | ⟨-, hold₂⟩
      · rfl
      · simp [hidle _ _ hold₂] at hw₂
    · simp [hidle _ _ hold₁] at hw₁
  · intro t' session' hs hwriting
    rcases setSession_cases hs with ⟨-, hnew⟩ | ⟨-, hold⟩
    · rw [Option.some.inj hnew]
      rfl
    · simp [hidle _ _ hold] at hwriting

theorem Held.keeps (h : Held endpointId s) (heffect : Effect endpointId s a u) :
    Held endpointId u := by
  cases heffect with
  | failed => exact h
  | @reads t env p snapshot entity hpatched =>
    obtain ⟨c, hc, hversion⟩ := h.version
    refine ⟨?_, ?_, c, hc, ?_⟩
    · intro t' session' hs
      rcases setSession_cases hs with ⟨-, hnew⟩ | ⟨-, hold⟩
      · exact Option.some.inj hnew ▸ hpatched
      · exact h.patches t' session' hold
    · intro t₁ t₂ s₁ s₂ hs₁ hs₂ hw₁ hw₂
      rcases setSession_cases hs₁ with ⟨-, hnew⟩ | ⟨-, hold₁⟩
      · simp [← Option.some.inj hnew, Session.writing] at hw₁
      · rcases setSession_cases hs₂ with ⟨-, hnew⟩ | ⟨-, hold₂⟩
        · simp [← Option.some.inj hnew, Session.writing] at hw₂
        · exact h.one t₁ t₂ s₁ s₂ hold₁ hold₂ hw₁ hw₂
    · intro t' session' hs hwriting
      rcases setSession_cases hs with ⟨-, hnew⟩ | ⟨-, hold⟩
      · simp [← Option.some.inj hnew, Session.writing] at hwriting
      · exact hversion t' session' hold hwriting
  | gone => exact h.close _
  | @writes t env p snapshot entity c hsession hc hfree =>
    have hread := h.patches t _ hsession
    have hpatches : (Session.wrote env p snapshot entity).Patches := hread
    exact h.take hpatches hc hfree
  | @flags t reason now c hc hfree =>
    have hpatches : (Session.flagged reason now).Patches := trivial
    exact h.take hpatches hc hfree
  | @commits t session hsession hwriting =>
    obtain ⟨c, hc, hversion⟩ := h.version
    have hcommit : s.row.commit = ⟨some (session.version endpointId c), none⟩ := by
      simp [VersionedRow.commit, hversion t session hsession hwriting]
    rw [hcommit]
    exact h.release hsession hwriting _
  | drops hsession _ => exact h.close _
  | undoes hsession hwriting =>
    obtain ⟨c, hc, -⟩ := h.version
    rw [hc]
    exact h.release hsession hwriting c

theorem held_start (endpoint : Endpoint) : Held endpointId (start endpoint) where
  patches t session h := by simp [start] at h
  one t t' session session' h := by simp [start] at h
  version := ⟨endpoint, rfl, fun t session h => by simp [start] at h⟩

theorem Held.of_run {endpoint : Endpoint} {ms : History State Action}
    (h : Run (Steps (step endpointId)) (start endpoint) ms s) : Held endpointId s :=
  h.invariant (held_start endpoint) fun _ _ _ hs hstep => hs.keeps (step_effect hstep)

theorem commit_wrote {t : TransactionId} {env : Encryption} {p : Patch}
    {snapshot entity before : Endpoint} (h : Held endpointId s)
    (hsession : s.sessions t = some (.wrote env p snapshot entity))
    (hbefore : s.row.committed = some before) :
    s.row.commit.committed = some ((update entity).assign before) := by
  obtain ⟨c, hc, hversion⟩ := h.version
  obtain rfl := Option.some.inj (hc.symm.trans hbefore)
  simp [VersionedRow.commit, hversion t _ hsession rfl, Session.version]

/-- One commit of a PATCH: it changes the fields it names, and no others, exactly where
the others have not moved. -/
theorem changesNamed_iff {m : Move State Action} (h : Held endpointId m.pre)
    (hstep : step endpointId m.pre m.act = some m.post) : ChangesNamed m ↔ Unmoved m := by
  have hpost : ∀ t env p snapshot entity before, m.act = .commit t →
      m.pre.sessions t = some (.wrote env p snapshot entity) →
      m.pre.row.committed = some before →
      m.post.row.committed = some ((update entity).assign before) ∧
        patched env p snapshot = .ok entity := by
    intro t env p snapshot entity before hact hsession hbefore
    have hcommitted : m.post.row = m.pre.row.commit := by
      rw [hact] at hstep
      simp only [step, hsession, Option.some.injEq] at hstep
      rw [← hstep]
    rw [hcommitted]
    exact ⟨commit_wrote h hsession hbefore, h.patches t _ hsession⟩
  constructor
  · intro hchanges t env p snapshot entity before hact hsession hbefore
    obtain ⟨hcommitted, hpatched⟩ := hpost t env p snapshot entity before hact hsession hbefore
    obtain ⟨after, hafter, hexact⟩ :=
      hchanges t env p snapshot entity before hact hsession hbefore
    obtain rfl := Option.some.inj (hcommitted.symm.trans hafter)
    exact (patched_eq_update_iff hpatched).mp hexact
  · intro hunmoved t env p snapshot entity before hact hsession hbefore
    obtain ⟨hcommitted, hpatched⟩ := hpost t env p snapshot entity before hact hsession hbefore
    exact ⟨_, hcommitted, (patched_eq_update_iff hpatched).mpr
      (hunmoved t env p snapshot entity before hact hsession hbefore)⟩

/-- Where each PATCH changes only what it names, the row is what the committed changes
make of it, one after the other. -/
theorem committed_serial {endpoint : Endpoint} {ms : History State Action}
    (h : Run (Steps (step endpointId)) (start endpoint) ms s)
    (hchanges : ∀ m ∈ ms, ChangesNamed m) :
    s.row.committed = serial endpointId endpoint ms := by
  induction h with
  | nil => rfl
  | @move ms t u a hrun hstep ih =>
    have hbefore := ih fun m hm => hchanges m (List.mem_cons_of_mem _ hm)
    have hheld := Held.of_run hrun
    obtain ⟨c, hc, hversion⟩ := hheld.version
    rw [serial, ← hbefore, hc, Option.bind_some]
    cases step_effect hstep with
    | @commits t session hsession hwriting =>
      cases session with
      | read _ _ _ _ => simp [Session.writing] at hwriting
      | wrote env p snapshot entity =>
        obtain ⟨after, hafter, hpatched⟩ := hchanges _ List.mem_cons_self t env p snapshot entity c
          rfl hsession hc
        simpa [committedChange, hsession, hpatched, Except.toOption] using hafter
      | flagged reason now =>
        simp [committedChange, hsession, VersionedRow.commit, hversion t _ hsession rfl,
          Session.version]
    | _ => exact hc

/-- In every run no update is lost, and what is committed is what the transactions make of
the row one after the other, exactly if each PATCH finds the columns it does not name as it
read them. -/
theorem noLostUpdate_iff (endpointId : UUID) (endpoint : Endpoint) (ms : History State Action)
    (t : State) (h : Run (Steps (step endpointId)) (start endpoint) ms t) :
    ((∀ m ∈ ms, ChangesNamed m) ∧ t.row.committed = serial endpointId endpoint ms) ↔
      ∀ m ∈ ms, Unmoved m := by
  have hiff : (∀ m ∈ ms, ChangesNamed m) ↔ ∀ m ∈ ms, Unmoved m := by
    refine forall₂_congr ?_
    intro m hm
    obtain ⟨newer, older, rfl⟩ := List.append_of_mem hm
    obtain ⟨u, hpast, -⟩ := h.of_append
    obtain ⟨hrun, hstep, -⟩ := hpast.step_of_cons
    exact changesNamed_iff (Held.of_run hrun) hstep
  rw [← hiff]
  constructor
  · intro hkept
    exact hkept.1
  · intro hchanges
    exact ⟨hchanges, committed_serial h hchanges⟩

end Runs

def sampleEncryption : Encryption where
  secretsKey := List.replicate 32 0
  aesGcmEncrypt _ _ plaintext := plaintext
  signatureNonce := List.replicate 12 1
  forwardNonce := List.replicate 12 2

def signaturePatch : Patch := ⟨some "stripe", some "whsec_test123", none, none, none⟩

def forwardPatch : Patch := ⟨none, none, some "https://new.example.com/wh", none, none⟩

theorem one_patch_keeps : ∃ ms t, Run (Steps (step sampleEndpoint.id)) (start sampleEndpoint) ms t ∧
    t.row.committed ≠ some sampleEndpoint ∧ ((∀ m ∈ ms, ChangesNamed m) ∧
      t.row.committed = serial sampleEndpoint.id sampleEndpoint ms) := by
  have hrun := Run.of_play (Eq.refl (play (step sampleEndpoint.id) [] (start sampleEndpoint)
    [.read 0 sampleEncryption signaturePatch, .write 0, .commit 0]))
  refine ⟨_, _, hrun, ?_, (noLostUpdate_iff sampleEndpoint.id sampleEndpoint _ _ hrun).mpr ?_⟩
  · intro hsame
    have hprovider := congrArg (fun r : Option Endpoint => r.bind Endpoint.signatureProvider) hsame
    exact absurd hprovider (by decide)
  · intro m hm t env p snapshot entity before hact hsession hbefore
    rcases List.mem_cons.mp hm with rfl | hm
    · obtain rfl := Action.commit.inj hact
      obtain ⟨-, -, rfl, -⟩ := Session.wrote.inj (Option.some.inj hsession)
      obtain rfl := Option.some.inj hbefore
      exact .refl p _
    · rcases List.mem_cons.mp hm with rfl | hm
      · simp at hact
      · obtain rfl := List.mem_singleton.mp hm
        simp at hact

/-- Two PATCHes read the endpoint, then each writes and commits: the second takes the signature
config of the first away. -/
theorem second_patch_loses_first : ¬ ∀ endpointId endpoint ms t,
    Run (Steps (step endpointId)) (start endpoint) ms t →
      (∀ m ∈ ms, ChangesNamed m) ∧ t.row.committed = serial endpointId endpoint ms := by
  intro hclaim
  have hrun := Run.of_play (Eq.refl (play (step sampleEndpoint.id) [] (start sampleEndpoint)
    [.read 0 sampleEncryption signaturePatch, .read 1 sampleEncryption forwardPatch,
      .write 0, .commit 0, .write 1, .commit 1]))
  have hserial := (hclaim sampleEndpoint.id sampleEndpoint _ _ hrun).2
  have hprovider := congrArg (fun r : Option Endpoint => r.bind Endpoint.signatureProvider) hserial
  exact absurd hprovider (by decide)

end Hooktrace.ConfigUpdates
