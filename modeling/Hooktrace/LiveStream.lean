import Hooktrace.Notifier
import Mathlib.Data.List.Infix

/-!
One client of `/stream/{token}` beside the captures on its endpoint. A commit hands its
notification to the listening connection; the reader task receives it later. The stream is a
generator: the route pulls the comment, sends it, and pulls again, and only this second pull
subscribes to the notifier. Between two awaits nothing else runs.
-/
namespace Hooktrace.LiveStream

open Transition

/-- `f"{endpoint_id}:{request_id}"`. -/
def payload (endpointId requestId : UUID) : String :=
  endpointId.str ++ ":" ++ requestId.str

inductive Chunk where
  | connected
  | message (requestId : UUID)
  deriving DecidableEq

inductive ClientPhase where
  /-- The endpoint is found. -/
  | opened
  /-- The route has pulled the comment. -/
  | probed
  /-- The comment is sent. -/
  | announced
  /-- Behind the subscription, at `queue.get()`. -/
  | waiting
  | looking (requestId : UUID)
  /-- The fragment is yielded. -/
  | ready (requestId : UUID)
  deriving DecidableEq

/-- `committed` holds the captures by endpoint, `wire` the payloads that the connection of the
notifier has not read. -/
structure State where
  notifier : Notifier.State
  committed : List (UUID × UUID)
  wire : List String
  client : ClientPhase
  sent : List Chunk

inductive Action where
  | commit (endpointId requestId : UUID)
  | receive (reader : ℕ)
  | probe
  | announce
  | pull
  | get
  | found
  | emit
  | other (a : Notifier.Action)

/-- The moves of the other tasks of the web process, with a notifier that stays up. -/
def Foreign (t : ℕ) : Notifier.Action → Bool
  | .stop _ | .notify _ _ | .crash _ => false
  | .start u | .subscribe u _ | .acquire u | .closed u | .connected u | .connectFailed u
  | .listened u | .listenFailed u | .readerGone u | .stopClosed u | .stopCloseFailed u
  | .leave u | .take u => u ≠ t
  | .runs _ | .handle _ | .reset _ | .ends _ => true

/-- `find_by_id`. -/
def State.has (s : State) (requestId : UUID) : Bool :=
  s.committed.any fun row => row.2 = requestId

section Step

variable (uuid : String → Option UUID) (e : UUID) (t : ℕ)

/-- `e` is the endpoint of the client, `t` the caller that its stream is for the notifier. -/
def step (s : State) : Action → Option State
  | .commit endpointId requestId =>
    if s.has requestId then none
    else some { s with
      committed := s.committed ++ [(endpointId, requestId)]
      wire := s.wire ++ [payload endpointId requestId] }
  | .receive reader =>
    match s.wire with
    | [] => none
    | first :: rest => (Notifier.step uuid s.notifier (.notify reader first)).map fun notifier =>
        { s with notifier := notifier, wire := rest }
  | .probe =>
    match s.client with
    | .opened => some { s with client := .probed }
    | _ => none
  | .announce =>
    match s.client with
    | .probed => some { s with client := .announced, sent := s.sent ++ [.connected] }
    | _ => none
  | .pull =>
    match s.client with
    | .announced => (Notifier.step uuid s.notifier (.subscribe t e)).map fun notifier =>
        { s with notifier := notifier, client := .waiting }
    | _ => none
  | .get =>
    match s.client, s.notifier.contents t with
    | .waiting, requestId :: _ => (Notifier.step uuid s.notifier (.take t)).map fun notifier =>
        { s with notifier := notifier, client := .looking requestId }
    | _, _ => none
  | .found =>
    match s.client with
    | .looking requestId =>
      some { s with client := if s.has requestId then .ready requestId else .waiting }
    | _ => none
  | .emit =>
    match s.client with
    | .ready requestId =>
      some { s with client := .waiting, sent := s.sent ++ [.message requestId] }
    | _ => none
  | .other a =>
    if Foreign t a then (Notifier.step uuid s.notifier a).map fun notifier =>
      { s with notifier := notifier }
    else none

end Step

def ClientPhase.subscribed : ClientPhase → Bool
  | .opened | .probed | .announced => false
  | .waiting | .looking _ | .ready _ => true

def ClientPhase.told : ClientPhase → Bool
  | .opened | .probed => false
  | .announced | .waiting | .looking _ | .ready _ => true

def ClientPhase.busy : ClientPhase → List UUID
  | .looking requestId | .ready requestId => [requestId]
  | .opened | .probed | .announced | .waiting => []

def Chunk.request : Chunk → Option UUID
  | .connected => none
  | .message requestId => some requestId

def State.messages (s : State) : List UUID := s.sent.filterMap Chunk.request

def requestOf (uuid : String → Option UUID) (e : UUID) (payload : String) : Option UUID :=
  (Notifier.parsePayload uuid payload).bind fun parsed =>
    if parsed.1 = e then some parsed.2 else none

def State.captured (s : State) (e : UUID) : List UUID :=
  s.committed.filterMap fun row => if row.1 = e then some row.2 else none

def State.onWire (s : State) (uuid : String → Option UUID) (e : UUID) : List UUID :=
  s.wire.filterMap (requestOf uuid e)

/-- What is on its way to the client that has subscribed. -/
def State.pending (s : State) (uuid : String → Option UUID) (e : UUID) (t : ℕ) : List UUID :=
  if s.client.subscribed then s.client.busy ++ s.notifier.contents t ++ s.onWire uuid e
  else s.onWire uuid e

/-- The requests of the endpoint that were committed once the comment was sent. -/
def due (e : UUID) : History State Action → List UUID
  | [] => []
  | m :: ms => due e ms ++ match m.act with
    | .commit endpointId requestId =>
      if endpointId = e ∧ m.pre.client.told = true then [requestId] else []
    | _ => []

/-- The request of the endpoint that the reader receives while the stream has no queue. -/
def missedBy (uuid : String → Option UUID) (e : UUID) (m : Move State Action) : List UUID :=
  match m.act with
  | .receive _ =>
    if m.pre.client.subscribed then [] else (m.pre.wire.take 1).filterMap (requestOf uuid e)
  | _ => []

def missed (uuid : String → Option UUID) (e : UUID) : History State Action → List UUID
  | [] => []
  | m :: ms => missed uuid e ms ++ missedBy uuid e m

/-- No request that is committed behind the comment is received before the queue is there. -/
def NoGap (uuid : String → Option UUID) (e : UUID) (ms : History State Action) : Prop :=
  Always (fun past m => ∀ r ∈ missedBy uuid e m, r ∉ due e past) ms

/-- All that is due is sent or on its way, once and in order. -/
def Delivered (uuid : String → Option UUID) (e : UUID) (t : ℕ) (ms : History State Action)
    (s : State) : Prop :=
  (s.messages ++ s.pending uuid e t).Nodup ∧
    ∃ early, early ++ due e ms = s.messages ++ s.pending uuid e t

/-- The reader reads, and nothing is about to end it. -/
structure Healthy (n : Notifier.State) : Prop where
  sound : Notifier.Sound n
  unstopped : Notifier.Unstopped n
  reads : ∃ r conn, n.readers r = .reading conn

section Notifier

variable {uuid : String → Option UUID} {n n' : Notifier.State} {t u : ℕ}

theorem Healthy.running (h : Healthy n) : n.running = true := by
  obtain ⟨r, conn, hr⟩ := h.reads
  obtain ⟨htask, hconn, -⟩ := h.sound.live r (by simp [hr])
  simp [Notifier.State.running, htask, hr, Option.isSome_iff_ne_none, hconn]

theorem Healthy.reading (h : Healthy n) {r : ℕ} (hr : n.readers r ≠ .ended) :
    ∃ conn, n.readers r = .reading conn := by
  obtain ⟨r', conn, hr'⟩ := h.reads
  have htask := (h.sound.live r hr).1
  have htask' := (h.sound.live r' (by simp [hr'])).1
  obtain rfl := Option.some.inj (htask.symm.trans htask')
  exact ⟨conn, hr'⟩

theorem Healthy.not_dead (h : Healthy n) : ¬ Notifier.Dead n := by
  obtain ⟨r, conn, hr⟩ := h.reads
  intro hdead
  simp [hdead r] at hr

structure Beside (t : ℕ) (n n' : Notifier.State) : Prop where
  readers : n'.readers = n.readers
  caller : n'.callers t = n.callers t
  contents : n'.contents t = n.contents t

theorem beside_goTo (htu : t ≠ u) (phase : Notifier.CallerPhase) : Beside t n (n.goTo u phase) :=
  ⟨rfl, Notifier.goTo_of_ne htu, rfl⟩

theorem beside_register (htu : t ≠ u) (e : UUID) : Beside t n (n.register u e) :=
  ⟨rfl, Notifier.goTo_of_ne htu, Function.update_of_ne htu _ _⟩

theorem beside_started (htu : t ≠ u) (next : Option UUID) : Beside t n (n.started u next) := by
  cases next with
  | none => exact beside_goTo htu _
  | some e => exact beside_register htu e

theorem Healthy.beside (h : Healthy n) {a : Notifier.Action} (hforeign : Foreign t a = true)
    (hstep : Notifier.step uuid n a = some n') : Beside t n n' := by
  have hrunning := h.running
  cases a with
  | stop u | notify u payload | crash u => cases hforeign
  | start u =>
    obtain ⟨-, rfl⟩ := Notifier.call_eq_some hstep
    exact beside_goTo (Ne.symm (of_decide_eq_true hforeign)) _
  | subscribe u e =>
    obtain ⟨-, rfl⟩ := Notifier.call_eq_some hstep
    rw [if_pos hrunning]
    exact beside_register (Ne.symm (of_decide_eq_true hforeign)) e
  | acquire u =>
    have htu : t ≠ u := Ne.symm (of_decide_eq_true hforeign)
    have hstops := h.unstopped.caller u
    simp only [Notifier.step, Notifier.acquire] at hstep
    split at hstep
    · cases hstep
    · cases hcaller : n.callers u <;> simp only [hcaller] at hstep hstops
      case startWaiting next =>
        rw [← Option.some.inj hstep, Notifier.State.beginStart, if_pos hrunning]
        exact beside_started htu next
      case stopWaiting => cases hstops
      all_goals cases hstep
  | closed u | connected u | connectFailed u | listened u | listenFailed u | readerGone u
  | stopClosed u | stopCloseFailed u =>
    have hstops := h.unstopped.caller u
    have hcallerOk := h.sound.caller u
    cases hcaller : n.callers u <;> simp only [Notifier.step, hcaller] at hstep hstops <;>
      rw [hcaller] at hcallerOk
    case closing | connecting =>
      exact absurd hcallerOk.2 h.not_dead
    case listening => exact absurd hcallerOk.2.1 h.not_dead
    case cancelling | stopClosing => cases hstops
    all_goals cases hstep
  | leave u =>
    have htu : t ≠ u := Ne.symm (of_decide_eq_true hforeign)
    simp only [Notifier.step, Notifier.leave] at hstep
    cases hcaller : n.callers u <;> simp only [hcaller] at hstep
    case startWaiting | closing | connecting | listening | subscribed =>
      exact Option.some.inj hstep ▸ ⟨rfl, Notifier.goTo_of_ne htu, rfl⟩
    all_goals cases hstep
  | take u =>
    have htu : t ≠ u := Ne.symm (of_decide_eq_true hforeign)
    simp only [Notifier.step] at hstep
    split at hstep
    · exact Option.some.inj hstep ▸ ⟨rfl, rfl, Function.update_of_ne htu _ _⟩
    · cases hstep
  | runs r | handle r | reset r | ends r =>
    by_cases hended : n.readers r = .ended
    · simp [Notifier.step, hended] at hstep
    · obtain ⟨conn, hconn⟩ := h.reading hended
      simp [Notifier.step, hconn] at hstep

theorem Foreign.not_stop {a : Notifier.Action} (hforeign : Foreign t a = true) (u : ℕ) :
    a ≠ .stop u := by
  rintro rfl
  cases hforeign

/-- A move of the notifier that is neither `stop` nor a crash keeps it up. -/
theorem Healthy.step (h : Healthy n) {a : Notifier.Action} (hstop : ∀ u, a ≠ .stop u)
    (hstep : Notifier.step uuid n a = some n') (hreaders : n'.readers = n.readers) :
    Healthy n' := by
  refine ⟨h.sound.step hstep, ?_, hreaders ▸ h.reads⟩
  obtain hfeeds | ⟨-, hunstopped, -⟩ := h.unstopped.step h.sound hstop hstep
  · exact hfeeds.unstopped
  · exact hunstopped

theorem Healthy.notify (h : Healthy n) {r : ℕ} {text : String}
    (hstep : Notifier.step uuid n (.notify r text) = some n') :
    Healthy n' ∧ n'.callers = n.callers ∧ ∀ e, n.callers t = .subscribed e →
      n'.contents t = n.contents t ++ (requestOf uuid e text).toList := by
  have hhealthy : n'.readers = n.readers → Healthy n' := h.step (fun _ => by simp) hstep
  simp only [Notifier.step] at hstep
  split at hstep
  · obtain ⟨contents, hdispatch, hcontents⟩ := h.sound.dispatch_eq uuid text
    obtain rfl := (Option.some.inj hstep).symm.trans hdispatch
    refine ⟨hhealthy rfl, rfl, fun e hcaller => ?_⟩
    have hqueued : ∀ e', (e', t) ∈ n.queues ↔ e' = e := by
      intro e'
      rw [h.sound.queued e' t, hcaller, Notifier.CallerPhase.subscribed.injEq, eq_comm]
    refine (hcontents t).trans ?_
    rw [requestOf]
    cases Notifier.parsePayload uuid text with
    | none => rfl
    | some parsed =>
      simp only [hqueued, Option.bind_some]
      split <;> rfl
  · cases hstep

theorem Healthy.take (h : Healthy n) {e : UUID} (hcaller : n.callers t = .subscribed e)
    {q : UUID} {rest : List UUID} (hcontents : n.contents t = q :: rest) :
    ∃ n', Notifier.step uuid n (.take t) = some n' ∧ Healthy n' ∧ n'.callers = n.callers ∧
      n'.contents t = rest := by
  have hstep : Notifier.step uuid n (.take t) =
      some { n with contents := Function.update n.contents t rest } := by
    simp [Notifier.step, hcaller, hcontents]
  exact ⟨_, hstep, h.step (fun _ => by simp) hstep rfl, rfl, Function.update_self _ _ _⟩

theorem Healthy.subscribe (h : Healthy n) (habsent : n.callers t = .absent) (e : UUID) :
    ∃ n', Notifier.step uuid n (.subscribe t e) = some n' ∧ Healthy n' ∧
      n'.callers t = .subscribed e ∧ n'.contents t = [] := by
  have hstep : Notifier.step uuid n (.subscribe t e) = some (n.register t e) := by
    simp [Notifier.step, Notifier.call, habsent, h.running]
  exact ⟨_, hstep, h.step (fun _ => by simp) hstep rfl, Function.update_self _ _ _,
    Function.update_self _ _ _⟩

end Notifier

/-- What holds while the client is connected: the requests of the endpoint are those that it
missed, those that it was sent, and those on their way, in the order of their commits. -/
structure Ok (uuid : String → Option UUID) (e : UUID) (t : ℕ) (s₀ : State)
    (ms : History State Action) (s : State) : Prop where
  healthy : Healthy s.notifier
  caller : s.notifier.callers t = if s.client.subscribed then .subscribed e else .absent
  silent : s.client.subscribed = false → s.messages = []
  flow : s.captured e = s₀.captured e ++ missed uuid e ms ++ s.messages ++ s.pending uuid e t
  tail : due e ms <:+ s.captured e
  told : s.client.told = false → due e ms = []
  nodup : (s.committed.map Prod.snd).Nodup

section Payload

variable {uuid : String → Option UUID}

theorem colon_notMem (u : UUID) : ':' ∉ u.str.toList := u.notMem_str (by simp)

/-- What the repository writes, the reader reads. -/
theorem requestOf_payload (hstr : ∀ u : UUID, uuid u.str = some u) (e endpointId requestId : UUID) :
    requestOf uuid e (payload endpointId requestId) =
      if endpointId = e then some requestId else none := by
  have hne : ∀ c ∈ endpointId.str.toList, decide (c ≠ ':') = true := by
    intro c hc
    refine decide_eq_true ?_
    rintro rfl
    exact colon_notMem endpointId hc
  have hcut : cut ':' (payload endpointId requestId).toList =
      (endpointId.str.toList, some requestId.str.toList) := by
    have htext : (payload endpointId requestId).toList =
        endpointId.str.toList ++ ':' :: requestId.str.toList := by simp [payload]
    rw [cut, htext, List.dropWhile_append_of_pos hne, List.takeWhile_append_of_pos hne]
    simp
  simp [requestOf, Notifier.parsePayload, hcut, hstr]

end Payload

section Invariant

variable {uuid : String → Option UUID} {e : UUID} {t : ℕ} {s₀ s s' : State}
  {ms : History State Action}

theorem Ok.commit (h : Ok uuid e t s₀ ms s) (hstr : ∀ u : UUID, uuid u.str = some u)
    {endpointId requestId : UUID}
    (hstep : step uuid e t s (.commit endpointId requestId) = some s') :
    Ok uuid e t s₀ (⟨s, .commit endpointId requestId, s'⟩ :: ms) s' := by
  simp only [step] at hstep
  split at hstep
  · cases hstep
  · rename_i hnew
    obtain rfl := Option.some.inj hstep
    let added := if endpointId = e then [requestId] else []
    have hcaptured : s.captured e ++ added = State.captured { s with
        committed := s.committed ++ [(endpointId, requestId)]
        wire := s.wire ++ [payload endpointId requestId] } e := by
      simp only [State.captured, List.filterMap_append, added]
      split <;> simp_all
    have hpending : s.pending uuid e t ++ added = State.pending { s with
        committed := s.committed ++ [(endpointId, requestId)]
        wire := s.wire ++ [payload endpointId requestId] } uuid e t := by
      simp only [State.pending, State.onWire, List.filterMap_append, added]
      split <;> split <;> simp_all [requestOf_payload hstr]
    refine ⟨h.healthy, h.caller, h.silent, ?_, ?_, fun htold => ?_, ?_⟩
    · rw [← hcaptured, ← hpending, h.flow]
      simp [missed, missedBy, State.messages]
    · rw [← hcaptured]
      cases htold : s.client.told with
      | false => simp [due, h.told htold, htold]
      | true =>
        obtain ⟨before, hbefore⟩ := h.tail
        refine ⟨before, ?_⟩
        simp [due, htold, added, ← hbefore]
    · have hold : s.client.told = false := htold
      simp [due, h.told hold, hold]
    · have hfresh : requestId ∉ s.committed.map Prod.snd := by
        simpa [State.has] using hnew
      simp only [List.map_append, List.map_cons, List.map_nil]
      rw [← List.concat_eq_append, List.nodup_concat]
      exact ⟨hfresh, h.nodup⟩

theorem Ok.receive (h : Ok uuid e t s₀ ms s) {r : ℕ}
    (hstep : step uuid e t s (.receive r) = some s') :
    Ok uuid e t s₀ (⟨s, .receive r, s'⟩ :: ms) s' := by
  simp only [step] at hstep
  split at hstep
  · cases hstep
  · rename_i first rest hwire
    obtain ⟨n', hnotify, rfl⟩ := Option.map_eq_some_iff.mp hstep
    obtain ⟨hhealthy, hcallers, hcontents⟩ := h.healthy.notify (t := t) hnotify
    have honWire : s.wire.filterMap (requestOf uuid e) = (requestOf uuid e first).toList ++
        rest.filterMap (requestOf uuid e) := by
      rw [hwire, List.filterMap_cons]
      cases requestOf uuid e first <;> rfl
    refine ⟨hhealthy, ?_, h.silent, ?_, ?_, ?_, h.nodup⟩
    · rw [hcallers]
      exact h.caller
    · refine Eq.trans h.flow ?_
      cases hsub : s.client.subscribed with
      | true =>
        have hcaller := h.caller
        rw [hsub, if_pos rfl] at hcaller
        simp [missed, missedBy, State.pending, hsub, honWire, State.messages, State.onWire,
          hcontents e hcaller]
      | false =>
        have hsilent := h.silent hsub
        have hmissed : (s.wire.take 1).filterMap (requestOf uuid e) =
            (requestOf uuid e first).toList := by
          rw [hwire]
          cases hfirst : requestOf uuid e first <;> simp [hfirst]
        simp only [State.messages] at hsilent
        simp [missed, missedBy, State.pending, hsub, honWire, State.messages, State.onWire, hsilent,
          hmissed]
    · simpa [due, State.captured] using h.tail
    · simpa [due] using h.told

theorem Ok.stream (h : Ok uuid e t s₀ ms s) {a : Action}
    (hdue : due e (⟨s, a, s'⟩ :: ms) = due e ms) (hmissed : missedBy uuid e ⟨s, a, s'⟩ = [])
    (hhealthy : Healthy s'.notifier)
    (hcaller : s'.notifier.callers t = if s'.client.subscribed then .subscribed e else .absent)
    (hcommitted : s'.committed = s.committed)
    (hsilent : s'.client.subscribed = false → s'.messages = [])
    (hpending : s'.messages ++ s'.pending uuid e t = s.messages ++ s.pending uuid e t)
    (htold : s'.client.told = false → s.client.told = false) :
    Ok uuid e t s₀ (⟨s, a, s'⟩ :: ms) s' := by
  have hcaptured : s'.captured e = s.captured e := by rw [State.captured, hcommitted]; rfl
  refine ⟨hhealthy, hcaller, hsilent, ?_, ?_, fun hold => ?_, hcommitted ▸ h.nodup⟩
  · rw [hcaptured, h.flow, missed, hmissed, List.append_nil, List.append_assoc _ s.messages,
      ← hpending, ← List.append_assoc]
  · rw [hdue, hcaptured]
    exact h.tail
  · rw [hdue]
    exact h.told (htold hold)

theorem Ok.step (h : Ok uuid e t s₀ ms s) (hstr : ∀ u : UUID, uuid u.str = some u) {a : Action}
    (hstep : step uuid e t s a = some s') : Ok uuid e t s₀ (⟨s, a, s'⟩ :: ms) s' := by
  have hcaller := h.caller
  have hsilent := h.silent
  cases a with
  | commit endpointId requestId => exact h.commit hstr hstep
  | receive r => exact h.receive hstep
  | probe =>
    cases hclient : s.client <;> simp only [LiveStream.step, hclient] at hstep hcaller hsilent
    case opened =>
      obtain rfl := Option.some.inj hstep
      refine h.stream (List.append_nil _) rfl h.healthy hcaller rfl (fun _ => hsilent rfl) ?_ ?_
      · simp [State.messages, State.pending, State.onWire, ClientPhase.subscribed, hclient]
      · simp [ClientPhase.told, hclient]
    all_goals cases hstep
  | announce =>
    cases hclient : s.client <;> simp only [LiveStream.step, hclient] at hstep hcaller hsilent
    case probed =>
      obtain rfl := Option.some.inj hstep
      have hmessages : s.messages = State.messages
          { s with client := .announced, sent := s.sent ++ [.connected] } := by
        simp [State.messages, Chunk.request]
      refine h.stream (List.append_nil _) rfl h.healthy hcaller rfl
        (fun _ => hmessages ▸ hsilent rfl) ?_ ?_
      · rw [← hmessages]
        simp [State.pending, State.onWire, ClientPhase.subscribed, hclient]
      · simp [ClientPhase.told]
    all_goals cases hstep
  | pull =>
    cases hclient : s.client <;> simp only [LiveStream.step, hclient] at hstep hcaller
    case announced =>
      obtain ⟨n', hsubscribe, rfl⟩ := Option.map_eq_some_iff.mp hstep
      obtain ⟨n'', hsubscribe', hhealthy, hsubscribed, hempty⟩ := h.healthy.subscribe hcaller e
      obtain rfl := Option.some.inj (hsubscribe.symm.trans hsubscribe')
      refine h.stream (List.append_nil _) rfl hhealthy hsubscribed rfl ?_ ?_ ?_
      · simp [ClientPhase.subscribed]
      · simp [State.messages, State.pending, State.onWire, ClientPhase.subscribed,
          ClientPhase.busy, hclient, hempty]
      · simp [ClientPhase.told]
    all_goals cases hstep
  | get =>
    simp only [LiveStream.step] at hstep
    split at hstep
    · rename_i q rest hclient hcontents
      obtain ⟨n', htake, rfl⟩ := Option.map_eq_some_iff.mp hstep
      rw [hclient] at hcaller
      obtain ⟨n'', htake', hhealthy, hcallers, hrest⟩ := h.healthy.take hcaller hcontents
      obtain rfl := Option.some.inj (htake.symm.trans htake')
      refine h.stream (List.append_nil _) rfl hhealthy ?_ rfl ?_ ?_ ?_
      · rw [hcallers]
        exact hcaller
      · simp [ClientPhase.subscribed]
      · simp [State.messages, State.pending, State.onWire, ClientPhase.subscribed,
          ClientPhase.busy, hclient, hcontents, hrest]
      · simp [ClientPhase.told]
    · cases hstep
  | found =>
    cases hclient : s.client <;> simp only [LiveStream.step, hclient] at hstep hcaller
    case looking q =>
      have hq : q ∈ s.captured e := by
        rw [h.flow]
        simp [State.pending, ClientPhase.subscribed, ClientPhase.busy, hclient]
      have hhas : s.has q = true := by
        simp only [State.captured, List.mem_filterMap] at hq
        obtain ⟨row, hrow, hreq⟩ := hq
        split at hreq
        · exact List.any_eq_true.mpr ⟨row, hrow, decide_eq_true (Option.some.inj hreq)⟩
        · cases hreq
      rw [hhas, if_pos rfl] at hstep
      obtain rfl := Option.some.inj hstep
      refine h.stream (List.append_nil _) rfl h.healthy hcaller rfl ?_ ?_ ?_
      · simp [ClientPhase.subscribed]
      · simp [State.messages, State.pending, State.onWire, ClientPhase.subscribed,
          ClientPhase.busy, hclient]
      · simp [ClientPhase.told]
    all_goals cases hstep
  | emit =>
    cases hclient : s.client <;> simp only [LiveStream.step, hclient] at hstep hcaller
    case ready q =>
      obtain rfl := Option.some.inj hstep
      refine h.stream (List.append_nil _) rfl h.healthy hcaller rfl ?_ ?_ ?_
      · simp [ClientPhase.subscribed]
      · simp [State.messages, State.pending, State.onWire, ClientPhase.subscribed,
          ClientPhase.busy, Chunk.request, hclient]
      · simp [ClientPhase.told]
    all_goals cases hstep
  | other a =>
    simp only [LiveStream.step] at hstep
    split at hstep
    · rename_i hforeign
      obtain ⟨n', hnotifier, rfl⟩ := Option.map_eq_some_iff.mp hstep
      have hbeside := h.healthy.beside hforeign hnotifier
      refine h.stream (List.append_nil _) rfl
        (h.healthy.step (Foreign.not_stop hforeign) hnotifier hbeside.readers) ?_ rfl hsilent ?_ id
      · rw [hbeside.caller]
        exact hcaller
      · simp [State.messages, State.pending, State.onWire, hbeside.contents]
    · cases hstep

end Invariant

structure Opened (t : ℕ) (s : State) : Prop where
  healthy : Healthy s.notifier
  caller : s.notifier.callers t = .absent
  client : s.client = .opened
  wire : s.wire = []
  sent : s.sent = []
  nodup : (s.committed.map Prod.snd).Nodup

section Delivery

variable {uuid : String → Option UUID} {e : UUID} {t : ℕ} {s₀ s s' : State}
  {ms : History State Action}

theorem Opened.ok (h : Opened t s₀) : Ok uuid e t s₀ [] s₀ where
  healthy := h.healthy
  caller := by simp [h.client, ClientPhase.subscribed, h.caller]
  silent _ := by simp [State.messages, h.sent]
  flow := by
    simp [missed, State.messages, State.pending, State.onWire, h.client, h.sent, h.wire,
      ClientPhase.subscribed]
  tail := List.nil_suffix
  told _ := rfl
  nodup := h.nodup

theorem Opened.run_ok (h : Opened t s₀) (hstr : ∀ u : UUID, uuid u.str = some u)
    (hrun : Run (Steps (step uuid e t)) s₀ ms s) : Ok uuid e t s₀ ms s :=
  (hrun.always (P := fun _ _ => True) (J := Ok uuid e t s₀) h.ok
    fun _ _ _ _ hok hstep => ⟨trivial, hok.step hstr hstep⟩).2

theorem captured_sublist (s : State) (e : UUID) :
    List.Sublist (s.captured e) (s.committed.map Prod.snd) := by
  unfold State.captured
  induction s.committed with
  | nil => exact .slnil
  | cons row rows ih =>
    rw [List.filterMap_cons, List.map_cons]
    by_cases hrow : row.1 = e
    · simpa [hrow] using ih
    · simpa [hrow] using ih.cons row.2

theorem Ok.captured_nodup (h : Ok uuid e t s₀ ms s) : (s.captured e).Nodup :=
  h.nodup.sublist (captured_sublist s e)

theorem Ok.mem_captured (h : Ok uuid e t s₀ ms s) {r : UUID}
    (hr : r ∈ s₀.captured e ++ missed uuid e ms) : r ∈ s.captured e := by
  rw [h.flow, List.append_assoc _ s.messages]
  exact List.mem_append_left _ hr

/-- Nothing is sent twice. -/
theorem Ok.sent_nodup (h : Ok uuid e t s₀ ms s) : (s.messages ++ s.pending uuid e t).Nodup := by
  have hnodup := h.captured_nodup
  rw [h.flow, List.append_assoc _ s.messages] at hnodup
  exact hnodup.of_append_right

/-- What was missed is neither sent nor on its way. -/
theorem Ok.missed_lost (h : Ok uuid e t s₀ ms s) {r : UUID} (hr : r ∈ missed uuid e ms) :
    r ∉ s.messages ++ s.pending uuid e t := by
  have hnodup := h.captured_nodup
  rw [h.flow, List.append_assoc _ s.messages] at hnodup
  exact (List.disjoint_of_nodup_append hnodup) (List.mem_append_right _ hr)

theorem mem_missed_append {older : History State Action} {r : UUID} (h : r ∈ missed uuid e older)
    (newer : History State Action) : r ∈ missed uuid e (newer ++ older) := by
  induction newer with
  | nil => exact h
  | cons m newer ih => exact List.mem_append_left _ ih

/-- Where two decompositions of a list have ends that meet no other part, the shorter end ends
the longer one. -/
theorem exists_append_of_disjoint {α : Type*} {a b x y : List α} (h : a ++ x = b ++ y)
    (hdisjoint : ∀ r ∈ a, r ∉ y) : ∃ early, early ++ y = x := by
  obtain ⟨c, rfl, rfl⟩ | ⟨c, rfl, rfl⟩ := List.append_eq_append_iff.mp h
  · exact ⟨c, rfl⟩
  · have hc : c = [] := by
      refine List.eq_nil_iff_forall_not_mem.mpr fun r hr => ?_
      exact hdisjoint r (List.mem_append_right _ hr) (List.mem_append_left _ hr)
    exact ⟨[], by simp [hc]⟩

theorem Opened.disjoint (h : Opened t s₀) (hstr : ∀ u : UUID, uuid u.str = some u)
    (hrun : Run (Steps (step uuid e t)) s₀ ms s) (hgap : NoGap uuid e ms) :
    ∀ r ∈ s₀.captured e ++ missed uuid e ms, r ∉ due e ms := by
  refine (hrun.guarded (P := fun _ _ => True) (J := fun ms s => Ok uuid e t s₀ ms s ∧
    ∀ r ∈ s₀.captured e ++ missed uuid e ms, r ∉ due e ms) ⟨h.ok, by simp [due]⟩ ?_ hgap).2.2
  intro past s a s' ⟨hok, hdisjoint⟩ hnot hstep
  refine ⟨trivial, hok.step hstr hstep, fun r hr hdue => ?_⟩
  rw [missed, ← List.append_assoc, List.mem_append] at hr
  rw [due, List.mem_append] at hdue
  rcases hr with hold | hnew
  · rcases hdue with hpast | hlast
    · exact hdisjoint r hold hpast
    · -- a request that was there before is not committed again
      cases a <;> simp only [List.not_mem_nil] at hlast
      case commit endpointId requestId =>
        have hr := hok.mem_captured hold
        have hrow := (captured_sublist s e).subset hr
        split at hlast
        · obtain rfl := List.mem_singleton.mp hlast
          simp only [Steps, step] at hstep
          split at hstep
          · cases hstep
          · rename_i hhas
            obtain ⟨row, hmem, hreq⟩ := List.mem_map.mp hrow
            exact hhas (List.any_eq_true.mpr ⟨row, hmem, decide_eq_true hreq⟩)
        · cases hlast
  · cases a <;> simp only [missedBy, List.not_mem_nil] at hnew
    case receive reader =>
      refine hnot r hnew ?_
      simpa using hdue

theorem noGap_of_disjoint (h : ∀ r ∈ missed uuid e ms, r ∉ due e ms) : NoGap uuid e ms := by
  induction ms with
  | nil => trivial
  | cons m ms ih =>
    simp only [missed, due, List.mem_append, not_or] at h
    exact ⟨fun r hr => (h r (Or.inr hr)).1, ih fun r hr => (h r (Or.inl hr)).1⟩

theorem Opened.delivered_iff_noGap (h : Opened t s₀) (hstr : ∀ u : UUID, uuid u.str = some u)
    (hrun : Run (Steps (step uuid e t)) s₀ ms s) :
    Delivered uuid e t ms s ↔ NoGap uuid e ms := by
  have hok : Ok uuid e t s₀ ms s := h.run_ok hstr hrun
  constructor
  · rintro ⟨-, early, hearly⟩
    refine noGap_of_disjoint fun r hr hdue => hok.missed_lost hr ?_
    rw [← hearly]
    exact List.mem_append_right _ hdue
  · intro hgap
    refine ⟨hok.sent_nodup, ?_⟩
    obtain ⟨before, hbefore⟩ := hok.tail
    refine exists_append_of_disjoint (a := s₀.captured e ++ missed uuid e ms) (b := before) ?_
      (h.disjoint hstr hrun hgap)
    rw [hbefore, hok.flow, List.append_assoc _ s.messages]

end Delivery

def Action.isOwn : Action → Bool
  | .receive _ | .get | .found | .emit => true
  | .commit _ _ | .probe | .announce | .pull | .other _ => false

def Settled (uuid : String → Option UUID) (e : UUID) (t : ℕ) (s : State) : Prop :=
  ∀ a : Action, a.isOwn = true → step uuid e t s a = none

def weight (t : ℕ) (s : State) : ℕ :=
  4 * s.wire.length + 3 * (s.notifier.contents t).length + match s.client with
    | .looking _ => 2
    | .ready _ => 1
    | .opened | .probed | .announced | .waiting => 0

section Progress

variable {uuid : String → Option UUID} {e : UUID} {t : ℕ} {s₀ s s' : State}
  {ms : History State Action}

/-- An own move loses nothing, and brings the end nearer. -/
theorem Ok.own_step (h : Ok uuid e t s₀ ms s) (hstr : ∀ u : UUID, uuid u.str = some u)
    (hsub : s.client.subscribed = true) {a : Action} (hown : a.isOwn = true)
    (hstep : LiveStream.step uuid e t s a = some s') :
    s'.client.subscribed = true ∧ weight t s' < weight t s ∧
      s'.messages ++ s'.pending uuid e t = s.messages ++ s.pending uuid e t := by
  have hflow := (h.step hstr hstep).flow
  have hcaller := h.caller
  rw [hsub, if_pos rfl] at hcaller
  have hmissed : missedBy uuid e ⟨s, a, s'⟩ = [] := by
    cases a <;> simp [missedBy, hsub]
  rw [missed, hmissed, List.append_nil, List.append_assoc _ s'.messages] at hflow
  have hsame : s'.captured e = s.captured e →
      s'.messages ++ s'.pending uuid e t = s.messages ++ s.pending uuid e t := by
    intro hcaptured
    rw [hcaptured, h.flow, List.append_assoc _ s.messages] at hflow
    exact (List.append_cancel_left hflow).symm
  cases a with
  | commit | probe | announce | pull | other => cases hown
  | receive r =>
    simp only [LiveStream.step] at hstep
    split at hstep
    · cases hstep
    · rename_i first rest hwire
      obtain ⟨n', hnotify, rfl⟩ := Option.map_eq_some_iff.mp hstep
      obtain ⟨-, -, hcontents⟩ := h.healthy.notify (t := t) hnotify
      refine ⟨hsub, ?_, hsame rfl⟩
      have hlength : (requestOf uuid e first).toList.length ≤ 1 := by
        cases requestOf uuid e first <;> simp
      simp only [weight, hwire, hcontents e hcaller, List.length_append, List.length_cons]
      omega
  | get =>
    simp only [LiveStream.step] at hstep
    split at hstep
    · rename_i q rest hclient hcontents
      obtain ⟨n', htake, rfl⟩ := Option.map_eq_some_iff.mp hstep
      obtain ⟨n'', htake', -, -, hrest⟩ := h.healthy.take hcaller hcontents
      obtain rfl := Option.some.inj (htake.symm.trans htake')
      refine ⟨rfl, ?_, hsame rfl⟩
      simp only [weight, hclient, hcontents, hrest, List.length_cons]
      omega
    · cases hstep
  | found =>
    cases hclient : s.client <;> simp only [LiveStream.step, hclient] at hstep
    case looking q =>
      obtain rfl := Option.some.inj hstep
      refine ⟨?_, ?_, hsame rfl⟩
      · show ClientPhase.subscribed (if s.has q = true then .ready q else .waiting) = true
        split <;> rfl
      · simp only [weight, hclient]
        split <;> rename_i hphase <;> split at hphase <;> first | omega | cases hphase
    all_goals cases hstep
  | emit =>
    cases hclient : s.client <;> simp only [LiveStream.step, hclient] at hstep
    case ready q =>
      obtain rfl := Option.some.inj hstep
      refine ⟨rfl, ?_, hsame rfl⟩
      simp only [weight, hclient]
      omega
    all_goals cases hstep

/-- Where nothing is left to do, nothing is on its way. -/
theorem Ok.pending_of_settled (h : Ok uuid e t s₀ ms s) (hsub : s.client.subscribed = true)
    (hsettled : Settled uuid e t s) : s.pending uuid e t = [] := by
  have hwire : s.wire = [] := by
    obtain ⟨r, conn, hr⟩ := h.healthy.reads
    have hreceive := hsettled (.receive r) rfl
    cases hwire : s.wire with
    | nil => rfl
    | cons first rest => simp [LiveStream.step, hwire, Notifier.step, hr] at hreceive
  have hcaller := h.caller
  rw [hsub, if_pos rfl] at hcaller
  cases hclient : s.client with
  | opened | probed | announced => simp [hclient, ClientPhase.subscribed] at hsub
  | looking q => simpa [LiveStream.step, hclient] using hsettled .found rfl
  | ready q => simpa [LiveStream.step, hclient] using hsettled .emit rfl
  | waiting =>
    have hget := hsettled .get rfl
    cases hcontents : s.notifier.contents t with
    | nil =>
      simp [State.pending, State.onWire, hwire, hclient, ClientPhase.subscribed, ClientPhase.busy,
        hcontents]
    | cons q rest =>
      simp [LiveStream.step, hclient, hcontents, Notifier.step, hcaller] at hget

/-- Left to themselves, the reader and the stream come to an end, with everything sent. -/
theorem Ok.drains (h : Ok uuid e t s₀ ms s) (hstr : ∀ u : UUID, uuid u.str = some u)
    (hsub : s.client.subscribed = true) {ms' : History State Action}
    (hrun : Run (Steps (LiveStream.step uuid e t)) s ms' s')
    (hown : ∀ m ∈ ms', m.act.isOwn = true) :
    ms'.length + weight t s' ≤ weight t s ∧
      (Settled uuid e t s' → s'.messages = s.messages ++ s.pending uuid e t) := by
  suffices hall : Ok uuid e t s₀ (ms' ++ ms) s' ∧ s'.client.subscribed = true ∧
      ms'.length + weight t s' ≤ weight t s ∧
      s'.messages ++ s'.pending uuid e t = s.messages ++ s.pending uuid e t by
    obtain ⟨hok, hsub', hweight, hsame⟩ := hall
    refine ⟨hweight, fun hsettled => ?_⟩
    rw [← hsame, hok.pending_of_settled hsub' hsettled, List.append_nil]
  induction hrun with
  | nil => exact ⟨h, hsub, by simp, rfl⟩
  | move _ hstep ih =>
    obtain ⟨hlast, hearlier⟩ := List.forall_mem_cons.mp hown
    obtain ⟨hok, hsub', hweight, hsame⟩ := ih hearlier
    obtain ⟨hnext, hless, hkept⟩ := hok.own_step hstr hsub' hlast hstep
    refine ⟨hok.step hstr hstep, hnext, ?_, hkept.trans hsame⟩
    simp only [List.length_cons]
    omega

end Progress

/-- All that is committed behind the comment is sent, once and in order, as long as nothing of it
is received before the stream has its queue. -/
theorem delivered_iff {uuid : String → Option UUID} (hstr : ∀ u : UUID, uuid u.str = some u)
    {e : UUID} {t : ℕ} {s₀ s : State} (hopened : Opened t s₀) {ms : History State Action}
    (hrun : Run (Steps (step uuid e t)) s₀ ms s) :
    (Delivered uuid e t ms s ↔ NoGap uuid e ms) ∧
      (s.client.subscribed = true → ∀ ms' s', Run (Steps (step uuid e t)) s ms' s' →
        (∀ m ∈ ms', m.act.isOwn = true) → ms'.length + weight t s' ≤ weight t s ∧
          (Settled uuid e t s' → s'.messages = s.messages ++ s.pending uuid e t)) :=
  ⟨hopened.delivered_iff_noGap hstr hrun, fun hsub _ _ hrun' hown =>
    (hopened.run_ok hstr hrun).drains hstr hsub hrun' hown⟩

theorem exists_started : ∃ n : Notifier.State, Healthy n ∧ n.callers 1 = .absent ∧
    n.readers 1 = .reading 0 := by
  obtain ⟨ms, n, hplay, hcaller, hreader, hacts⟩ : ∃ ms n,
      play (Notifier.step fun _ => none) [] .init
        [.start 0, .acquire 0, .connected 0, .listened 0, .runs 1] = some (ms, n) ∧
      n.callers 1 = .absent ∧ n.readers 1 = .reading 0 ∧
      ms.map Move.act = [.runs 1, .listened 0, .connected 0, .acquire 0, .start 0] :=
    ⟨_, _, rfl, rfl, rfl, rfl⟩
  have hrun := Run.of_play hplay
  have hstop : ∀ m ∈ ms, ∀ t, m.act ≠ .stop t := by
    intro m hm t hstop
    have hmem := List.mem_map_of_mem (f := Move.act) hm
    rw [hacts, hstop] at hmem
    simp at hmem
  exact ⟨n, ⟨Notifier.sound_of_run hrun, (Notifier.fed_of_run hrun hstop).unstopped, 1, 0, hreader⟩,
    hcaller, hreader⟩

def canonicalOnly (text : String) : Option UUID :=
  if h : canonicalUuid text = true then some ⟨text, h⟩ else none

theorem canonicalOnly_str (u : UUID) : canonicalOnly u.str = some u := dif_pos u.canonical

def client (n : Notifier.State) : State := ⟨n, [], [], .opened, []⟩

def announced (n : Notifier.State) : State := ⟨n, [], [], .announced, [.connected]⟩

theorem opened_client {n : Notifier.State} (hhealthy : Healthy n)
    (habsent : n.callers 1 = .absent) : Opened 1 (client n) :=
  ⟨hhealthy, habsent, rfl, rfl, rfl, List.nodup_nil⟩

theorem run_announced (n : Notifier.State) : ∃ ms,
    Run (Steps (step canonicalOnly sampleEndpoint.id 1)) (client n) ms (announced n) ∧
    due sampleEndpoint.id ms = [] ∧ NoGap canonicalOnly sampleEndpoint.id ms := by
  have hprobe : step canonicalOnly sampleEndpoint.id 1 (client n) .probe =
      some { client n with client := .probed } := rfl
  have hannounce : step canonicalOnly sampleEndpoint.id 1 { client n with client := .probed }
      .announce = some (announced n) := rfl
  refine ⟨_, .move (.single hprobe) hannounce, rfl, ?_⟩
  simp [NoGap, missedBy]

theorem pulled_delivered : ∃ s₀ s ms, Opened 1 s₀ ∧
    Run (Steps (step canonicalOnly sampleEndpoint.id 1)) s₀ ms s ∧
    due sampleEndpoint.id ms = [sampleRequest.id] ∧
    Delivered canonicalOnly sampleEndpoint.id 1 ms s := by
  obtain ⟨n, hhealthy, habsent, -⟩ := exists_started
  obtain ⟨n', hsubscribe, -⟩ : ∃ n', Notifier.step canonicalOnly n
      (.subscribe 1 sampleEndpoint.id) = some n' ∧ _ := hhealthy.subscribe habsent _
  obtain ⟨ms, hrun, hdue, hgap⟩ := run_announced n
  have hpull : step canonicalOnly sampleEndpoint.id 1 (announced n) .pull =
      some { announced n' with client := .waiting } := by
    simp [step, announced, hsubscribe]
  have hcommit : step canonicalOnly sampleEndpoint.id 1 { announced n' with client := .waiting }
      (.commit sampleEndpoint.id sampleRequest.id) = some _ := rfl
  have hopened := opened_client hhealthy habsent
  have hrun' := (hrun.move hpull).move hcommit
  refine ⟨_, _, _, hopened, hrun', ?_, (delivered_iff canonicalOnly_str hopened hrun').1.mpr ?_⟩
  · simp [due, hdue, ClientPhase.told]
  · simpa [NoGap, missedBy] using hgap

/-- A capture between the comment and the pull that subscribes: nothing ever sends it. -/
theorem announced_lost : ¬ ∀ (uuid : String → Option UUID) (e : UUID) (t : ℕ) (s₀ s : State)
    (ms : History State Action), (∀ u : UUID, uuid u.str = some u) → Opened t s₀ →
    Run (Steps (step uuid e t)) s₀ ms s → ∀ r ∈ due e ms,
    ∃ ms' s', Run (Steps (step uuid e t)) s ms' s' ∧ r ∈ s'.messages := by
  intro hclaim
  obtain ⟨n, hhealthy, habsent, hreads⟩ := exists_started
  obtain ⟨ms, hrun, hdue, -⟩ := run_announced n
  have hopened := opened_client hhealthy habsent
  let captured : State := { announced n with
    committed := [(sampleEndpoint.id, sampleRequest.id)]
    wire := [payload sampleEndpoint.id sampleRequest.id] }
  have hcommit : step canonicalOnly sampleEndpoint.id 1 (announced n)
      (.commit sampleEndpoint.id sampleRequest.id) = some captured := rfl
  obtain ⟨n', hnotify⟩ : ∃ n', Notifier.step canonicalOnly n
      (.notify 1 (payload sampleEndpoint.id sampleRequest.id)) = some n' := by
    simp [Notifier.step, hreads]
  have hreceive : step canonicalOnly sampleEndpoint.id 1 captured (.receive 1) =
      some { captured with notifier := n', wire := [] } := by
    simp [step, captured, announced, hnotify]
  have hrun' := (hrun.move hcommit).move hreceive
  obtain ⟨ms', s', hafter, hsent⟩ := hclaim _ _ _ _ _ _ canonicalOnly_str hopened hrun'
    sampleRequest.id (by simp [due, hdue, announced, ClientPhase.told])
  have hok := hopened.run_ok canonicalOnly_str (hrun'.trans hafter)
  refine hok.missed_lost (mem_missed_append ?_ _) (List.mem_append_left _ hsent)
  simp [missed, missedBy, captured, announced, ClientPhase.subscribed,
    requestOf_payload canonicalOnly_str]

end Hooktrace.LiveStream
