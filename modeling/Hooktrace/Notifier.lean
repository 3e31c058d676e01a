import Hooktrace.Entities
import Hooktrace.PyText
import Hooktrace.Transition
import Mathlib.Logic.Function.Basic

/-!
The LISTEN side of the live view. The tasks of one event loop call `start`, `stop` and
`subscribe`; between two awaits a task is not interrupted, and what stands between them is one
step here. A reader task consumes the connection; its crash handler resets the fields under the
lock that `start` and `stop` hold, while `subscribe` looks at them without it.
-/
namespace Hooktrace.Notifier

open Transition

/-- Where a reader task stands; `reading` consumes a connection. -/
inductive ReaderPhase where
  | created
  | reading (conn : ℕ)
  /-- In the handler, waiting for the lock. -/
  | crashed
  /-- In the handler, closing the connection. -/
  | closing
  | cancelled
  | ended
  deriving DecidableEq

/-- Where a caller stands. `start` goes on to the queue of an endpoint when it was called by a
subscription. -/
inductive CallerPhase where
  | absent
  | startWaiting (next : Option UUID)
  | closing (next : Option UUID)
  | connecting (next : Option UUID)
  | listening (next : Option UUID)
  | stopWaiting
  | cancelling (reader : ℕ)
  | stopClosing
  | subscribed (endpointId : UUID)
  | done
  deriving DecidableEq

inductive Holder where
  | caller (t : ℕ)
  | reader (r : ℕ)
  deriving DecidableEq

/-- The fields of the notifier, its lock, and the tasks. Connections and readers are numbered as
they are made, `next` is the next number. -/
structure State where
  listenConn : Option ℕ
  readerTask : Option ℕ
  queues : List (UUID × ℕ)
  contents : ℕ → List UUID
  lock : Option Holder
  callers : ℕ → CallerPhase
  readers : ℕ → ReaderPhase
  next : ℕ

def State.init : State where
  listenConn := none
  readerTask := none
  queues := []
  contents _ := []
  lock := none
  callers _ := .absent
  readers _ := .ended
  next := 0

namespace State

def goTo (s : State) (t : ℕ) (phase : CallerPhase) : State :=
  { s with callers := Function.update s.callers t phase }

def setReader (s : State) (r : ℕ) (phase : ReaderPhase) : State :=
  { s with readers := Function.update s.readers r phase }

def hold (s : State) (holder : Holder) : State := { s with lock := some holder }

def release (s : State) : State := { s with lock := none }

/-- Neither field is None, and the task is not done. -/
def running (s : State) : Bool :=
  s.listenConn.isSome && match s.readerTask with
    | none => false
    | some r => s.readers r ≠ .ended

/-- `self._queues[endpoint_id].add(queue)`, with a queue of the caller's own. -/
def register (s : State) (t : ℕ) (endpointId : UUID) : State :=
  { s.goTo t (.subscribed endpointId) with
    queues := s.queues ++ [(endpointId, t)]
    contents := Function.update s.contents t [] }

def started (s : State) (t : ℕ) (next : Option UUID) : State :=
  match next with
  | none => s.goTo t .done
  | some endpointId => s.register t endpointId

/-- `start`, from the lock to its first await. -/
def beginStart (s : State) (t : ℕ) (next : Option UUID) : State :=
  if s.running then s.started t next
  else if s.listenConn.isSome then (s.hold (.caller t)).goTo t (.closing next)
  else (s.hold (.caller t)).goTo t (.connecting next)

/-- The second half of `stop`. -/
def closeConn (s : State) (t : ℕ) : State :=
  if s.listenConn.isSome then (s.hold (.caller t)).goTo t .stopClosing
  else s.release.goTo t .done

/-- `task.cancel()`, which a task that is done ignores. -/
def cancel (s : State) (r : ℕ) : State :=
  if s.readers r = .ended then s else s.setReader r .cancelled

/-- `stop`, from the lock to its first await. -/
def beginStop (s : State) (t : ℕ) : State :=
  match s.readerTask with
  | some r => ((s.cancel r).hold (.caller t)).goTo t (.cancelling r)
  | none => s.closeConn t

/-- The crash handler from its lock, or from its await, to its end. -/
def reset (s : State) (r : ℕ) : State :=
  { (s.setReader r .ended).release with listenConn := none, readerTask := none }

def registered (s : State) (endpointId : UUID) : List ℕ :=
  (s.queues.filter fun entry => entry.1 = endpointId).map Prod.snd

/-- `queue.put_nowait(request_id)`. -/
def put (requestId : UUID) (contents : ℕ → List UUID) (t : ℕ) : ℕ → List UUID :=
  Function.update contents t (contents t ++ [requestId])

end State

/-- `endpoint_str, request_str = payload.split(":", 1)` and the two UUIDs; `none` is a
ValueError. -/
def parsePayload (uuid : String → Option UUID) (payload : String) : Option (UUID × UUID) :=
  match cut ':' payload.toList with
  | (_, none) => none
  | (endpointStr, some requestStr) => do
    let endpointId ← uuid (.ofList endpointStr)
    let requestId ← uuid (.ofList requestStr)
    pure (endpointId, requestId)

/-- The body of the read loop on one notification. -/
def State.dispatch (uuid : String → Option UUID) (payload : String) (s : State) : State :=
  match parsePayload uuid payload with
  | none => s
  | some (endpointId, requestId) =>
    { s with contents := (s.registered endpointId).foldl (State.put requestId) s.contents }

inductive Action where
  | start (t : ℕ)
  | subscribe (t : ℕ) (endpointId : UUID)
  | stop (t : ℕ)
  | acquire (t : ℕ)
  /-- The connection is closed, or `close` has raised what `start` suppresses. -/
  | closed (t : ℕ)
  | connected (t : ℕ)
  | connectFailed (t : ℕ)
  | listened (t : ℕ)
  | listenFailed (t : ℕ)
  | readerGone (t : ℕ)
  | stopClosed (t : ℕ)
  | stopCloseFailed (t : ℕ)
  /-- The subscription is closed, or its task or that of `start` cancelled. -/
  | leave (t : ℕ)
  | take (t : ℕ)
  | runs (r : ℕ)
  | notify (r : ℕ) (payload : String)
  | crash (r : ℕ)
  | handle (r : ℕ)
  | reset (r : ℕ)
  | ends (r : ℕ)
  deriving DecidableEq

def call (s : State) (t : ℕ) (s' : State) : Option State :=
  if s.callers t = .absent then some s' else none

def acquire (s : State) (t : ℕ) : Option State :=
  if s.lock ≠ none then none
  else match s.callers t with
    | .startWaiting next => some (s.beginStart t next)
    | .stopWaiting => some (s.beginStop t)
    | _ => none

/-- The task is cancelled where it waits; a lock that it holds is released. -/
def leave (s : State) (t : ℕ) : Option State :=
  match s.callers t with
  | .startWaiting _ => some (s.goTo t .done)
  | .closing _ => some (s.release.goTo t .done)
  | .connecting _ => some (s.release.goTo t .done)
  | .listening _ => some (s.release.goTo t .done)
  | .subscribed endpointId =>
    some { s.goTo t .done with queues := s.queues.erase (endpointId, t) }
  | _ => none

/-- `create_task`, with what `start` does behind it. -/
def create (s : State) (t : ℕ) (next : Option UUID) : State :=
  ({ s.setReader s.next .created with
    readerTask := some s.next, lock := none, next := s.next + 1 }).started t next

def step (uuid : String → Option UUID) (s : State) : Action → Option State
  | .start t => call s t (s.goTo t (.startWaiting none))
  | .subscribe t endpointId =>
    call s t (if s.running then s.register t endpointId
      else s.goTo t (.startWaiting (some endpointId)))
  | .stop t => call s t (s.goTo t .stopWaiting)
  | .acquire t => acquire s t
  | .closed t =>
    match s.callers t with
    | .closing next => some (s.goTo t (.connecting next))
    | _ => none
  | .connected t =>
    match s.callers t with
    | .connecting next =>
      some ({ s with listenConn := some s.next, next := s.next + 1 }.goTo t (.listening next))
    | _ => none
  | .connectFailed t =>
    match s.callers t with
    | .connecting _ => some (s.release.goTo t .done)
    | _ => none
  | .listened t =>
    match s.callers t with
    | .listening next => some (create s t next)
    | _ => none
  | .listenFailed t =>
    match s.callers t with
    | .listening _ => some (s.release.goTo t .done)
    | _ => none
  | .readerGone t =>
    match s.callers t with
    | .cancelling r =>
      if s.readers r = .ended then some ({ s with readerTask := none }.closeConn t) else none
    | _ => none
  | .stopClosed t =>
    match s.callers t with
    | .stopClosing => some ({ s with listenConn := none }.release.goTo t .done)
    | _ => none
  | .stopCloseFailed t =>
    match s.callers t with
    | .stopClosing => some (s.release.goTo t .done)
    | _ => none
  | .leave t => leave s t
  | .take t =>
    match s.callers t, s.contents t with
    | .subscribed _, _ :: rest => some { s with contents := Function.update s.contents t rest }
    | _, _ => none
  | .runs r =>
    match s.readers r, s.listenConn with
    | .created, some conn => some (s.setReader r (.reading conn))
    -- the assertion fails
    | .created, none => some (s.setReader r .ended)
    | _, _ => none
  | .notify r payload =>
    match s.readers r with
    | .reading _ => some (s.dispatch uuid payload)
    | _ => none
  | .crash r =>
    match s.readers r with
    | .reading _ => some (s.setReader r .crashed)
    | _ => none
  | .handle r =>
    if s.readers r = .crashed ∧ s.lock = none then
      some (if s.listenConn.isSome then (s.hold (.reader r)).setReader r .closing else s.reset r)
    else none
  | .reset r => if s.readers r = .closing then some (s.reset r) else none
  | .ends r => if s.readers r = .cancelled then some (s.setReader r .ended) else none

/-- What the loop does by itself; the other moves are calls, notifications, crashes and
cancellations. -/
def Action.isPending : Action → Bool
  | .start _ | .subscribe _ _ | .stop _ | .leave _ | .notify _ _ | .crash _ => false
  | _ => true

def Quiescent (uuid : String → Option UUID) (s : State) : Prop :=
  ∀ a, a.isPending = true → step uuid s a = none

namespace CallerPhase

/-- Behind `async with self._lock`. -/
def holds : CallerPhase → Bool
  | .closing _ | .connecting _ | .listening _ | .cancelling _ | .stopClosing => true
  | .absent | .startWaiting _ | .stopWaiting | .subscribed _ | .done => false

end CallerPhase

def Dead (s : State) : Prop := ∀ r, s.readers r = .ended

/-- What holds while a caller stands somewhere: the lock is its own, who starts finds no reader,
and who stops has cancelled the one of the field. -/
def CallerOk (s : State) (t : ℕ) : CallerPhase → Prop
  | .closing _ | .connecting _ => s.lock = some (.caller t) ∧ Dead s
  | .listening _ => s.lock = some (.caller t) ∧ Dead s ∧ s.listenConn ≠ none
  | .cancelling r => s.lock = some (.caller t) ∧ s.readerTask = some r ∧
      (s.readers r = .cancelled ∨ s.readers r = .ended)
  | .stopClosing => s.lock = some (.caller t) ∧ s.readerTask = none
  | .absent | .startWaiting _ | .stopWaiting | .subscribed _ | .done => True

/-- A reader that is not done is the one of the field, whose connection is open. -/
def Live (s : State) (r : ℕ) : Prop :=
  s.readerTask = some r ∧ s.listenConn ≠ none ∧ r < s.next

def HolderOk (s : State) : Holder → Prop
  | .caller t => (s.callers t).holds = true
  | .reader r => s.readers r = .closing

structure Sound (s : State) : Prop where
  caller : ∀ t, CallerOk s t (s.callers t)
  live : ∀ r, s.readers r ≠ .ended → Live s r
  reading : ∀ r conn, s.readers r = .reading conn → s.listenConn = some conn
  closing : ∀ r, s.readers r = .closing → s.lock = some (.reader r)
  holder : ∀ holder, s.lock = some holder → HolderOk s holder
  queued : ∀ e t, (e, t) ∈ s.queues ↔ s.callers t = .subscribed e
  nodup : s.queues.Nodup

section Callers

variable {s s' : State} {t u : ℕ} {phase : CallerPhase}

@[simp] theorem goTo_self : (s.goTo t phase).callers t = phase := Function.update_self _ _ _

theorem goTo_of_ne (h : u ≠ t) : (s.goTo t phase).callers u = s.callers u :=
  Function.update_of_ne h _ _

theorem CallerOk.of_idle (h : phase.holds = false) : CallerOk s t phase := by
  cases phase <;> first | exact trivial | simp [CallerPhase.holds] at h

theorem CallerOk.lock_eq (h : CallerOk s t phase) (hholds : phase.holds = true) :
    s.lock = some (.caller t) := by
  cases phase <;> first | exact h.1 | simp [CallerPhase.holds] at hholds

/-- Besides who holds the lock, nobody stands where it is held. -/
theorem Sound.idle (h : Sound s) (hlock : s.lock ≠ some (.caller u)) :
    (s.callers u).holds = false := by
  by_contra hholds
  exact hlock ((h.caller u).lock_eq (by simpa using hholds))

theorem sound_init : Sound State.init := by
  refine ⟨fun t => trivial, ?_, ?_, ?_, ?_, ?_, List.nodup_nil⟩ <;> simp [State.init]

/-- A caller goes from a place without the lock to another one. -/
theorem Sound.goTo (h : Sound s) (hfrom : (s.callers t).holds = false)
    (hto : phase.holds = false) (hqueue : ∀ e, s.callers t ≠ .subscribed e)
    (hqueue' : ∀ e, phase ≠ .subscribed e) : Sound (s.goTo t phase) := by
  refine ⟨?_, h.live, h.reading, h.closing, ?_, ?_, h.nodup⟩
  · intro u
    by_cases hu : u = t
    · subst hu
      rw [goTo_self]
      exact .of_idle hto
    · rw [goTo_of_ne hu]
      exact h.caller u
  · intro holder hlock
    have hholder := h.holder holder hlock
    cases holder with
    | reader r => exact hholder
    | caller u =>
      have hu : u ≠ t := by
        intro hu
        subst hu
        rw [HolderOk, hfrom] at hholder
        exact Bool.false_ne_true hholder
      rw [HolderOk, goTo_of_ne hu]
      exact hholder
  · intro e u
    by_cases hu : u = t
    · subst hu
      rw [goTo_self]
      exact ⟨fun hmem => absurd ((h.queued e u).mp hmem) (hqueue e),
        fun hp => absurd hp (hqueue' e)⟩
    · rw [goTo_of_ne hu]
      exact h.queued e u

/-- The caller that has the lock, or takes it, goes on; it leaves a state in which the readers are
in order. -/
theorem Sound.locked (h : Sound s) (hfree : s.lock = none ∨ s.lock = some (.caller t))
    (hcallers : s'.callers = Function.update s.callers t phase)
    (hlock : s'.lock = if phase.holds then some (.caller t) else none)
    (hcaller : CallerOk s' t phase) (hqueue : ∀ e, s.callers t ≠ .subscribed e)
    (hqueue' : ∀ e, phase ≠ .subscribed e) (hqueues : s'.queues = s.queues)
    (hlive : ∀ r, s'.readers r ≠ .ended → Live s' r)
    (hreading : ∀ r conn, s'.readers r = .reading conn → s'.listenConn = some conn)
    (hclosing : ∀ r, s'.readers r ≠ .closing) : Sound s' := by
  refine ⟨?_, hlive, hreading, fun r hr => absurd hr (hclosing r), ?_, ?_, hqueues ▸ h.nodup⟩
  · intro u
    by_cases hu : u = t
    · subst hu
      rw [hcallers, Function.update_self]
      exact hcaller
    · rw [hcallers, Function.update_of_ne hu]
      refine .of_idle (h.idle ?_)
      rcases hfree with hnone | hmine
      · simp [hnone]
      · simp [hmine, Ne.symm hu]
  · intro holder hholder
    rw [hlock] at hholder
    split at hholder
    · rename_i hholds
      obtain rfl := Option.some.inj hholder
      simp only [HolderOk, hcallers, Function.update_self]
      exact hholds
    · simp at hholder
  · intro e u
    rw [hqueues, hcallers]
    by_cases hu : u = t
    · subst hu
      rw [Function.update_self]
      exact ⟨fun hmem => absurd ((h.queued e u).mp hmem) (hqueue e),
        fun hp => absurd hp (hqueue' e)⟩
    · rw [Function.update_of_ne hu]
      exact h.queued e u

/-- A caller that is through is a caller that has a queue, but for the queue. -/
theorem Sound.register (h : Sound (s.goTo t .done)) (e : UUID) : Sound (s.register t e) := by
  have hnew : ∀ e', (e', t) ∉ s.queues := by
    intro e' hmem
    have hphase := (h.queued e' t).mp hmem
    simp at hphase
  have hself : (s.register t e).callers t = .subscribed e := Function.update_self _ _ _
  have hother : ∀ u, u ≠ t → (s.register t e).callers u = (s.goTo t .done).callers u := by
    intro u hu
    rw [goTo_of_ne hu]
    exact Function.update_of_ne hu _ _
  refine ⟨?_, h.live, h.reading, h.closing, ?_, ?_, ?_⟩
  · intro u
    by_cases hu : u = t
    · subst hu
      rw [hself]
      trivial
    · rw [hother u hu]
      exact h.caller u
  · intro holder hlock
    have hholder := h.holder holder hlock
    cases holder with
    | reader r => exact hholder
    | caller u =>
      have hu : u ≠ t := by
        intro hu
        subst hu
        simp [HolderOk, CallerPhase.holds] at hholder
      rw [HolderOk, hother u hu]
      exact hholder
  · intro e' u
    show (e', u) ∈ s.queues ++ [(e, t)] ↔ _
    rw [List.mem_append, List.mem_singleton]
    by_cases hu : u = t
    · subst hu
      rw [hself]
      simp [hnew e', eq_comm]
    · rw [hother u hu, ← h.queued e' u]
      simp [State.goTo, hu]
  · show (s.queues ++ [(e, t)]).Nodup
    rw [← List.concat_eq_append, List.nodup_concat]
    exact ⟨hnew e, h.nodup⟩

theorem Sound.started (h : Sound (s.goTo t .done)) (next : Option UUID) :
    Sound (s.started t next) := by
  cases next with
  | none => exact h
  | some e => exact h.register e

/-- Where a caller has the lock or may take it, no handler holds it. -/
theorem Sound.not_closing (h : Sound s) (hfree : s.lock = none ∨ s.lock = some (.caller t))
    (r : ℕ) : s.readers r ≠ .closing := by
  intro hclosing
  have hlock := h.closing r hclosing
  rcases hfree with hnone | hmine
  · simp [hnone] at hlock
  · simp [hmine] at hlock

/-- Nothing runs where no reader is alive. -/
theorem Sound.dead (h : Sound s) (hrunning : s.running = false) : Dead s := by
  intro r
  by_contra hne
  obtain ⟨htask, hconn, -⟩ := h.live r hne
  simp [State.running, htask, hne, hconn] at hrunning

theorem Sound.beginStart (h : Sound s) (hlock : s.lock = none) {next : Option UUID}
    (hcaller : s.callers t = .startWaiting next) : Sound (s.beginStart t next) := by
  have hqueue : ∀ e, s.callers t ≠ .subscribed e := by simp [hcaller]
  unfold State.beginStart
  split
  · refine Sound.started (h.goTo ?_ rfl hqueue (by simp)) next
    rw [hcaller]
    rfl
  · rename_i hrunning
    have hdead : Dead s := h.dead (by simpa using hrunning)
    have hfree : s.lock = none ∨ s.lock = some (.caller t) := Or.inl hlock
    split
    · exact h.locked hfree rfl rfl ⟨rfl, hdead⟩ hqueue (by simp) rfl h.live h.reading
        (h.not_closing hfree)
    · exact h.locked hfree rfl rfl ⟨rfl, hdead⟩ hqueue (by simp) rfl h.live h.reading
        (h.not_closing hfree)

/-- The second half of `stop`, when the reader is gone. -/
theorem Sound.closeConn (h : Sound s) (hfree : s.lock = none ∨ s.lock = some (.caller t))
    (hqueue : ∀ e, s.callers t ≠ .subscribed e) (hdead : Dead s) :
    Sound ({ s with readerTask := none }.closeConn t) := by
  unfold State.closeConn
  split
  · exact h.locked hfree rfl rfl ⟨rfl, rfl⟩ hqueue (by simp) rfl
      (fun r hr => absurd (hdead r) hr) h.reading (h.not_closing hfree)
  · exact h.locked hfree rfl rfl trivial hqueue (by simp) rfl
      (fun r hr => absurd (hdead r) hr) h.reading (h.not_closing hfree)

theorem cancel_eq (s : State) (r : ℕ) :
    s.cancel r = { s with readers := (s.cancel r).readers } := by
  unfold State.cancel
  split <;> rfl

theorem cancel_readers (s : State) (r u : ℕ) : (s.cancel r).readers u =
    if u = r ∧ s.readers r ≠ .ended then .cancelled else s.readers u := by
  unfold State.cancel
  split
  · rename_i hended
    simp [hended]
  · rename_i hne
    simp [State.setReader, Function.update_apply, hne]

theorem Sound.beginStop (h : Sound s) (hlock : s.lock = none)
    (hcaller : s.callers t = .stopWaiting) : Sound (s.beginStop t) := by
  have hqueue : ∀ e, s.callers t ≠ .subscribed e := by simp [hcaller]
  unfold State.beginStop
  split
  · rename_i r htask
    have hfree : s.lock = none ∨ s.lock = some (.caller t) := Or.inl hlock
    have hreaders := cancel_readers s r
    rw [cancel_eq]
    generalize (s.cancel r).readers = readers' at hreaders ⊢
    refine h.locked hfree rfl rfl ⟨rfl, htask, ?_⟩ hqueue (by simp) rfl ?_ ?_ ?_
    · show readers' r = .cancelled ∨ readers' r = .ended
      rw [hreaders r]
      by_cases hended : s.readers r = .ended <;> simp [hended]
    · intro u hu
      refine h.live u ?_
      intro hended
      have hreader := hreaders u
      simp only [hended] at hreader
      split at hreader
      · rename_i hcancelled
        exact hcancelled.2 (hcancelled.1 ▸ hended)
      · exact hu hreader
    · intro u conn hu
      have hreader := (hreaders u).symm.trans hu
      split at hreader
      · simp at hreader
      · exact h.reading u conn hreader
    · intro u hu
      have hreader := (hreaders u).symm.trans hu
      split at hreader
      · simp at hreader
      · exact h.not_closing hfree u hreader
  · rename_i htask
    have hsame : { s with readerTask := none } = s := by rw [← htask]
    have hdead : Dead s := by
      intro r
      by_contra hne
      have hlive := (h.live r hne).1
      simp [htask] at hlive
    have hclose := h.closeConn (Or.inl hlock) hqueue hdead
    rwa [hsame] at hclose

theorem Sound.released (h : Sound s) (hlock : s.lock = some (.caller t))
    (hqueue : ∀ e, s.callers t ≠ .subscribed e) : Sound (s.release.goTo t .done) :=
  h.locked (Or.inr hlock) rfl rfl trivial hqueue (by simp) rfl h.live h.reading
    (h.not_closing (Or.inr hlock))

theorem Sound.closed (h : Sound s) {next : Option UUID} (hcaller : s.callers t = .closing next) :
    Sound (s.goTo t (.connecting next)) := by
  obtain ⟨hlock, hdead⟩ : s.lock = some (.caller t) ∧ Dead s := by
    have hcallerOk := h.caller t
    rwa [hcaller] at hcallerOk
  exact h.locked (Or.inr hlock) rfl hlock ⟨hlock, hdead⟩ (by simp [hcaller]) (by simp) rfl h.live
    h.reading (h.not_closing (Or.inr hlock))

theorem Sound.connected (h : Sound s) {next : Option UUID}
    (hcaller : s.callers t = .connecting next) :
    Sound ({ s with listenConn := some s.next, next := s.next + 1 }.goTo t (.listening next)) := by
  obtain ⟨hlock, hdead⟩ : s.lock = some (.caller t) ∧ Dead s := by
    have hcallerOk := h.caller t
    rwa [hcaller] at hcallerOk
  refine h.locked (Or.inr hlock) rfl hlock ⟨hlock, hdead, Option.some_ne_none _⟩
    (by simp [hcaller]) (by simp) rfl ?_ ?_ (h.not_closing (Or.inr hlock))
  · exact fun r hr => absurd (hdead r) hr
  · exact fun r conn hr => nomatch (hdead r).symm.trans hr

theorem Sound.listened (h : Sound s) {next : Option UUID}
    (hcaller : s.callers t = .listening next) : Sound (create s t next) := by
  obtain ⟨hlock, hdead, hconn⟩ :
      s.lock = some (.caller t) ∧ Dead s ∧ s.listenConn ≠ none := by
    have hcallerOk := h.caller t
    rwa [hcaller] at hcallerOk
  have hreaders : ∀ r, (s.setReader s.next .created).readers r =
      if r = s.next then .created else .ended := by
    intro r
    simp [State.setReader, Function.update_apply, hdead r]
  refine Sound.started (s := { s.setReader s.next .created with
    readerTask := some s.next, lock := none, next := s.next + 1 }) (h.locked (Or.inr hlock) rfl rfl
      trivial (by simp [hcaller]) (by simp) rfl ?_ ?_ ?_) next
  · intro r hr
    by_cases hnew : r = s.next
    · exact ⟨congrArg some hnew.symm, hconn, Nat.lt_succ_of_le (Nat.le_of_eq hnew)⟩
    · refine absurd ?_ hr
      exact (hreaders r).trans (if_neg hnew)
  · intro r conn hr
    have hreader := (hreaders r).symm.trans hr
    split at hreader <;> simp at hreader
  · intro r hr
    have hreader := (hreaders r).symm.trans hr
    split at hreader <;> simp at hreader

theorem Sound.readerGone (h : Sound s) {r : ℕ} (hcaller : s.callers t = .cancelling r)
    (hended : s.readers r = .ended) : Sound ({ s with readerTask := none }.closeConn t) := by
  obtain ⟨hlock, htask, -⟩ : s.lock = some (.caller t) ∧ s.readerTask = some r ∧
      (s.readers r = .cancelled ∨ s.readers r = .ended) := by
    have hcallerOk := h.caller t
    rwa [hcaller] at hcallerOk
  refine h.closeConn (Or.inr hlock) (by simp [hcaller]) fun u => ?_
  by_contra hne
  obtain rfl := Option.some.inj ((h.live u hne).1.symm.trans htask)
  exact hne hended

theorem Sound.stopClosed (h : Sound s) (hcaller : s.callers t = .stopClosing) :
    Sound ({ s with listenConn := none }.release.goTo t .done) := by
  obtain ⟨hlock, htask⟩ : s.lock = some (.caller t) ∧ s.readerTask = none := by
    have hcallerOk := h.caller t
    rwa [hcaller] at hcallerOk
  have hdead : Dead s := by
    intro r
    by_contra hne
    have hlive := (h.live r hne).1
    simp [htask] at hlive
  refine h.locked (Or.inr hlock) rfl rfl trivial (by simp [hcaller]) (by simp) rfl ?_ ?_
    (h.not_closing (Or.inr hlock))
  · exact fun r hr => absurd (hdead r) hr
  · exact fun r conn hr => nomatch (hdead r).symm.trans hr

/-- The queue of a subscription is taken from the set of its endpoint. -/
theorem Sound.unsubscribe (h : Sound s) {e : UUID} (hcaller : s.callers t = .subscribed e) :
    Sound { s.goTo t .done with queues := s.queues.erase (e, t) } := by
  refine ⟨?_, h.live, h.reading, h.closing, ?_, ?_, h.nodup.erase _⟩
  · intro u
    by_cases hu : u = t
    · subst hu
      rw [show (State.goTo s u .done).callers u = .done from goTo_self]
      trivial
    · rw [show (State.goTo s t .done).callers u = s.callers u from goTo_of_ne hu]
      exact h.caller u
  · intro holder hlock
    have hholder := h.holder holder hlock
    cases holder with
    | reader r => exact hholder
    | caller u =>
      have hu : u ≠ t := by
        intro hu
        subst hu
        simp [HolderOk, hcaller, CallerPhase.holds] at hholder
      show ((s.goTo t .done).callers u).holds = true
      rw [goTo_of_ne hu]
      exact hholder
  · intro e' u
    show (e', u) ∈ s.queues.erase (e, t) ↔ (s.goTo t .done).callers u = _
    rw [h.nodup.mem_erase_iff, h.queued]
    by_cases hu : u = t
    · subst hu
      simp [hcaller, eq_comm]
    · simp [goTo_of_ne hu, hu]

end Callers

section Readers

variable {s s' : State} {r : ℕ} {phase : ReaderPhase}

theorem Sound.setReader (h : Sound s) (hfrom : s.readers r ≠ .ended)
    (hclosing : s.readers r ≠ .closing) (hcancelled : s.readers r = .cancelled → phase = .ended)
    (hto : phase ≠ .closing) (hreading : ∀ conn, phase = .reading conn → s.listenConn = some conn) :
    Sound (s.setReader r phase) := by
  have htask : s.readerTask = some r := (h.live r hfrom).1
  have hself : (s.setReader r phase).readers r = phase := Function.update_self _ _ _
  have hother : ∀ u, u ≠ r → (s.setReader r phase).readers u = s.readers u := by
    intro u hu
    exact Function.update_of_ne hu _ _
  refine ⟨?_, ?_, ?_, ?_, ?_, h.queued, h.nodup⟩
  · intro t
    have hcaller := h.caller t
    show CallerOk (s.setReader r phase) t (s.callers t)
    cases hphase : s.callers t <;> rw [hphase] at hcaller
    case closing => exact absurd (hcaller.2 r) hfrom
    case connecting => exact absurd (hcaller.2 r) hfrom
    case listening => exact absurd (hcaller.2.1 r) hfrom
    case cancelling r' =>
      obtain ⟨hlock, htask', hphase'⟩ := hcaller
      obtain rfl := Option.some.inj (htask.symm.trans htask')
      rcases hphase' with hc | he
      · exact ⟨hlock, htask, Or.inr (hself.trans (hcancelled hc))⟩
      · exact absurd he hfrom
    case stopClosing => simp [htask, CallerOk] at hcaller
    all_goals trivial
  · intro u hu
    by_cases hur : u = r
    · exact hur ▸ h.live r hfrom
    · exact h.live u (hother u hur ▸ hu)
  · intro u conn hu
    by_cases hur : u = r
    · subst hur
      exact hreading conn (hself.symm.trans hu)
    · exact h.reading u conn ((hother u hur).symm.trans hu)
  · intro u hu
    by_cases hur : u = r
    · subst hur
      exact absurd (hself.symm.trans hu) hto
    · exact h.closing u ((hother u hur).symm.trans hu)
  · intro holder hlock
    have hholder := h.holder holder hlock
    cases holder with
    | caller t => exact hholder
    | reader u =>
      have hur : u ≠ r := by
        rintro rfl
        exact hclosing hholder
      exact (hother u hur).trans hholder

/-- The handler has the lock and closes the connection. -/
theorem Sound.handle (h : Sound s) (hcrashed : s.readers r = .crashed) (hlock : s.lock = none) :
    Sound ((s.hold (.reader r)).setReader r .closing) := by
  have hidle : ∀ t, (s.callers t).holds = false := fun t => h.idle (by simp [hlock])
  have hfrom : s.readers r ≠ .ended := by simp [hcrashed]
  have hself : ((s.hold (.reader r)).setReader r .closing).readers r = .closing :=
    Function.update_self _ _ _
  have hother : ∀ u, u ≠ r →
      ((s.hold (.reader r)).setReader r .closing).readers u = s.readers u := by
    intro u hu
    exact Function.update_of_ne hu _ _
  refine ⟨fun t => .of_idle (hidle t), ?_, ?_, ?_, ?_, h.queued, h.nodup⟩
  · intro u hu
    by_cases hur : u = r
    · exact hur ▸ h.live r hfrom
    · exact h.live u (hother u hur ▸ hu)
  · intro u conn hu
    by_cases hur : u = r
    · subst hur
      simp [hself] at hu
    · exact h.reading u conn ((hother u hur).symm.trans hu)
  · intro u hu
    by_cases hur : u = r
    · exact hur ▸ rfl
    · have hheld := h.closing u ((hother u hur).symm.trans hu)
      simp [hlock] at hheld
  · intro holder hheld
    obtain rfl := Option.some.inj hheld
    exact hself

/-- The handler resets the fields; it was the last reader. -/
theorem Sound.reset (h : Sound s) (hfrom : s.readers r ≠ .ended)
    (hlock : s.lock = none ∨ s.lock = some (.reader r)) : Sound (s.reset r) := by
  have hidle : ∀ t, (s.callers t).holds = false := by
    intro t
    refine h.idle ?_
    rcases hlock with hnone | hmine
    · simp [hnone]
    · simp [hmine]
  have hdead : Dead (s.reset r) := by
    intro u
    by_cases hur : u = r
    · exact hur ▸ Function.update_self _ _ _
    · rw [show (s.reset r).readers u = s.readers u from Function.update_of_ne hur _ _]
      by_contra hu
      exact hur (Option.some.inj ((h.live u hu).1.symm.trans (h.live r hfrom).1))
  refine ⟨fun t => .of_idle (hidle t), fun u hu => absurd (hdead u) hu, ?_, ?_, ?_, h.queued,
    h.nodup⟩
  · intro u conn hu
    simp [hdead u] at hu
  · intro u hu
    simp [hdead u] at hu
  · intro holder hheld
    simp [State.reset, State.release] at hheld

/-- The contents of the queues are nobody's concern. -/
theorem Sound.contents (h : Sound s) (contents : ℕ → List UUID) :
    Sound { s with contents := contents } :=
  ⟨h.caller, h.live, h.reading, h.closing, h.holder, h.queued, h.nodup⟩

theorem Sound.dispatch (h : Sound s) (uuid : String → Option UUID) (payload : String) :
    Sound (s.dispatch uuid payload) := by
  unfold State.dispatch
  split
  · exact h
  · exact h.contents _

end Readers

section Step

variable {uuid : String → Option UUID} {s s' : State}

theorem call_eq_some {t : ℕ} {u : State} (h : call s t u = some s') :
    s.callers t = .absent ∧ u = s' := by
  unfold call at h
  split at h
  · rename_i habsent
    exact ⟨habsent, Option.some.inj h⟩
  · cases h

theorem Sound.call (h : Sound s) {t : ℕ} (habsent : s.callers t = .absent) {phase : CallerPhase}
    (hto : phase.holds = false) (hqueue : ∀ e, phase ≠ .subscribed e) : Sound (s.goTo t phase) :=
  h.goTo (by rw [habsent]; rfl) hto (by simp [habsent]) hqueue

theorem Sound.acquire (h : Sound s) {t : ℕ} (hstep : Notifier.acquire s t = some s') :
    Sound s' := by
  unfold Notifier.acquire at hstep
  split at hstep
  · cases hstep
  · rename_i hlock
    have hfree : s.lock = none := by simpa using hlock
    cases hcaller : s.callers t <;> simp only [hcaller] at hstep
    case startWaiting next => exact Option.some.inj hstep ▸ h.beginStart hfree hcaller
    case stopWaiting => exact Option.some.inj hstep ▸ h.beginStop hfree hcaller
    all_goals cases hstep

theorem Sound.leave (h : Sound s) {t : ℕ} (hstep : Notifier.leave s t = some s') : Sound s' := by
  have hcallerOk := h.caller t
  unfold Notifier.leave at hstep
  cases hcaller : s.callers t <;> simp only [hcaller] at hstep <;> rw [hcaller] at hcallerOk
  case startWaiting =>
    exact Option.some.inj hstep ▸ h.goTo (by rw [hcaller]; rfl) rfl (by simp [hcaller]) (by simp)
  case closing => exact Option.some.inj hstep ▸ h.released hcallerOk.1 (by simp [hcaller])
  case connecting => exact Option.some.inj hstep ▸ h.released hcallerOk.1 (by simp [hcaller])
  case listening => exact Option.some.inj hstep ▸ h.released hcallerOk.1 (by simp [hcaller])
  case subscribed => exact Option.some.inj hstep ▸ h.unsubscribe hcaller
  all_goals cases hstep

/-- The state stays in order, whoever moves. -/
theorem Sound.step (h : Sound s) {a : Action} (hstep : step uuid s a = some s') : Sound s' := by
  cases a with
  | start t =>
    obtain ⟨habsent, rfl⟩ := call_eq_some hstep
    exact h.call habsent rfl (by simp)
  | subscribe t e =>
    obtain ⟨habsent, rfl⟩ := call_eq_some hstep
    split
    · exact (h.call habsent rfl (by simp)).register e
    · exact h.call habsent rfl (by simp)
  | stop t =>
    obtain ⟨habsent, rfl⟩ := call_eq_some hstep
    exact h.call habsent rfl (by simp)
  | acquire t => exact h.acquire hstep
  | closed t =>
    cases hcaller : s.callers t <;> simp only [Notifier.step, hcaller] at hstep
    case closing => exact Option.some.inj hstep ▸ h.closed hcaller
    all_goals cases hstep
  | connected t =>
    cases hcaller : s.callers t <;> simp only [Notifier.step, hcaller] at hstep
    case connecting => exact Option.some.inj hstep ▸ h.connected hcaller
    all_goals cases hstep
  | connectFailed t =>
    have hcallerOk := h.caller t
    cases hcaller : s.callers t <;> simp only [Notifier.step, hcaller] at hstep <;>
      rw [hcaller] at hcallerOk
    case connecting => exact Option.some.inj hstep ▸ h.released hcallerOk.1 (by simp [hcaller])
    all_goals cases hstep
  | listened t =>
    cases hcaller : s.callers t <;> simp only [Notifier.step, hcaller] at hstep
    case listening => exact Option.some.inj hstep ▸ h.listened hcaller
    all_goals cases hstep
  | listenFailed t =>
    have hcallerOk := h.caller t
    cases hcaller : s.callers t <;> simp only [Notifier.step, hcaller] at hstep <;>
      rw [hcaller] at hcallerOk
    case listening => exact Option.some.inj hstep ▸ h.released hcallerOk.1 (by simp [hcaller])
    all_goals cases hstep
  | readerGone t =>
    cases hcaller : s.callers t <;> simp only [Notifier.step, hcaller] at hstep
    case cancelling r =>
      split at hstep
      · rename_i hended
        exact Option.some.inj hstep ▸ h.readerGone hcaller hended
      · cases hstep
    all_goals cases hstep
  | stopClosed t =>
    cases hcaller : s.callers t <;> simp only [Notifier.step, hcaller] at hstep
    case stopClosing => exact Option.some.inj hstep ▸ h.stopClosed hcaller
    all_goals cases hstep
  | stopCloseFailed t =>
    have hcallerOk := h.caller t
    cases hcaller : s.callers t <;> simp only [Notifier.step, hcaller] at hstep <;>
      rw [hcaller] at hcallerOk
    case stopClosing => exact Option.some.inj hstep ▸ h.released hcallerOk.1 (by simp [hcaller])
    all_goals cases hstep
  | leave t => exact h.leave hstep
  | take t =>
    simp only [Notifier.step] at hstep
    split at hstep
    · exact Option.some.inj hstep ▸ h.contents _
    · cases hstep
  | runs r =>
    simp only [Notifier.step] at hstep
    split at hstep
    · rename_i conn hreader hconn
      refine Option.some.inj hstep ▸ h.setReader ?_ ?_ ?_ ?_ ?_ <;> simp [hreader, hconn]
    · rename_i hreader hconn
      refine Option.some.inj hstep ▸ h.setReader ?_ ?_ ?_ ?_ ?_ <;> simp [hreader]
    · cases hstep
  | notify r payload =>
    simp only [Notifier.step] at hstep
    split at hstep
    · exact Option.some.inj hstep ▸ h.dispatch uuid payload
    · cases hstep
  | crash r =>
    simp only [Notifier.step] at hstep
    split at hstep
    · rename_i hreader
      refine Option.some.inj hstep ▸ h.setReader ?_ ?_ ?_ ?_ ?_ <;> simp [hreader]
    · cases hstep
  | handle r =>
    simp only [Notifier.step] at hstep
    split at hstep
    · rename_i hcan
      refine Option.some.inj hstep ▸ ?_
      split
      · exact h.handle hcan.1 hcan.2
      · exact h.reset (by simp [hcan.1]) (Or.inl hcan.2)
    · cases hstep
  | reset r =>
    simp only [Notifier.step] at hstep
    split at hstep
    · rename_i hclosing
      exact Option.some.inj hstep ▸ h.reset (by simp [hclosing]) (Or.inr (h.closing r hclosing))
    · cases hstep
  | ends r =>
    simp only [Notifier.step] at hstep
    split at hstep
    · rename_i hcancelled
      refine Option.some.inj hstep ▸ h.setReader ?_ ?_ ?_ ?_ ?_ <;> simp [hcancelled]
    · cases hstep

theorem sound_of_run {ms : History State Action} (h : Run (Steps (step uuid)) State.init ms s) :
    Sound s :=
  h.invariant sound_init fun _ _ _ hsound hstep => hsound.step hstep

/-- One reader reads at most, and it reads the connection of the field. -/
theorem Sound.one_reading (h : Sound s) {r r' conn conn' : ℕ}
    (hr : s.readers r = .reading conn) (hr' : s.readers r' = .reading conn') : r' = r := by
  have htask := (h.live r (by simp [hr])).1
  have htask' := (h.live r' (by simp [hr'])).1
  exact Option.some.inj (htask'.symm.trans htask)

end Step

section FanOut

variable {s : State}

theorem mem_registered {e : UUID} {t : ℕ} : t ∈ s.registered e ↔ (e, t) ∈ s.queues := by
  simp [State.registered]

theorem Sound.registered_nodup (h : Sound s) (e : UUID) : (s.registered e).Nodup := by
  refine (h.nodup.filter _).map_on ?_
  rintro ⟨e₁, t₁⟩ h₁ ⟨e₂, t₂⟩ h₂ rfl
  simp only [List.mem_filter, decide_eq_true_eq] at h₁ h₂
  rw [h₁.2, h₂.2]

theorem foldl_put (q : UUID) {ts : List ℕ} (hnodup : ts.Nodup) (contents : ℕ → List UUID) (t : ℕ) :
    ts.foldl (State.put q) contents t = contents t ++ if t ∈ ts then [q] else [] := by
  induction ts generalizing contents with
  | nil => simp
  | cons u ts ih =>
    obtain ⟨hu, hnodup⟩ := List.nodup_cons.mp hnodup
    rw [List.foldl_cons, ih hnodup]
    by_cases htu : t = u
    · subst htu
      simp [State.put, hu]
    · simp [State.put, htu]

/-- A notification goes once to each queue of its endpoint, and nowhere else. -/
theorem Sound.dispatch_eq (h : Sound s) (uuid : String → Option UUID) (payload : String) :
    ∃ contents, s.dispatch uuid payload = { s with contents := contents } ∧ ∀ t, contents t =
      s.contents t ++ match parsePayload uuid payload with
        | none => []
        | some (e, q) => if (e, t) ∈ s.queues then [q] else [] := by
  unfold State.dispatch
  cases parsePayload uuid payload with
  | none => exact ⟨s.contents, rfl, fun t => (List.append_nil _).symm⟩
  | some parsed =>
    obtain ⟨e, q⟩ := parsed
    refine ⟨_, rfl, fun t => ?_⟩
    simp only [foldl_put q (h.registered_nodup e), mem_registered]

end FanOut

section Quiescence

variable {uuid : String → Option UUID} {s : State}

/-- Nobody is on the way through `start` or `stop`, no reader is on its way, and every queue has
been emptied. -/
structure AtRest (s : State) : Prop where
  caller : ∀ t, s.callers t = .absent ∨ s.callers t = .done ∨ ∃ e, s.callers t = .subscribed e
  reader : ∀ r, s.readers r = .ended ∨ ∃ conn, s.readers r = .reading conn
  contents : ∀ e t, s.callers t = .subscribed e → s.contents t = []

theorem AtRest.quiescent (h : AtRest s) : Quiescent uuid s := by
  intro a hpending
  cases a with
  | start | subscribe | stop | leave | notify | crash => cases hpending
  | acquire t =>
    obtain hc | hc | ⟨e, hc⟩ := h.caller t <;> simp [step, acquire, hc]
  | take t =>
    obtain hc | hc | ⟨e, hc⟩ := h.caller t
    · simp [step, hc]
    · simp [step, hc]
    · simp [step, hc, h.contents e t hc]
  | closed t | connected t | connectFailed t | listened t | listenFailed t | readerGone t
  | stopClosed t | stopCloseFailed t =>
    obtain hc | hc | ⟨e, hc⟩ := h.caller t <;> simp [step, hc]
  | runs r | handle r | reset r | ends r =>
    obtain hr | ⟨conn, hr⟩ := h.reader r <;> simp [step, hr]

/-- Who holds the lock has a move of its own. -/
theorem Sound.lock_free (h : Sound s) (hquiet : Quiescent uuid s) : s.lock = none := by
  by_contra hlock
  obtain ⟨holder, hholder⟩ := Option.ne_none_iff_exists'.mp hlock
  have hat := h.holder holder hholder
  cases holder with
  | reader r =>
    have hreset := hquiet (.reset r) rfl
    simp [Notifier.step, show s.readers r = .closing from hat] at hreset
  | caller t =>
    have hcallerOk := h.caller t
    cases hcaller : s.callers t <;> simp only [HolderOk, hcaller, CallerPhase.holds] at hat <;>
      rw [hcaller] at hcallerOk
    case closing => simpa [Notifier.step, hcaller] using hquiet (.closed t) rfl
    case connecting => simpa [Notifier.step, hcaller] using hquiet (.connected t) rfl
    case listening => simpa [Notifier.step, hcaller] using hquiet (.listened t) rfl
    case stopClosing => simpa [Notifier.step, hcaller] using hquiet (.stopClosed t) rfl
    case cancelling r =>
      obtain hcancelled | hended := hcallerOk.2.2
      · simpa [Notifier.step, hcancelled] using hquiet (.ends r) rfl
      · simpa [Notifier.step, hcaller, hended] using hquiet (.readerGone t) rfl
    all_goals cases hat

/-- Where nothing is left to do, a reader that is not done is reading, and nobody waits. -/
theorem Sound.atRest (h : Sound s) (hquiet : Quiescent uuid s) : AtRest s := by
  have hfree : s.lock = none := h.lock_free hquiet
  refine ⟨fun t => ?_, fun r => ?_, fun e t hcaller => ?_⟩
  · have hidle : (s.callers t).holds = false := h.idle (by simp [hfree])
    have hacquire := hquiet (.acquire t) rfl
    cases hcaller : s.callers t <;> simp only [hcaller, CallerPhase.holds] at hidle
    case absent => exact Or.inl rfl
    case done => exact Or.inr (Or.inl rfl)
    case subscribed e => exact Or.inr (Or.inr ⟨e, rfl⟩)
    case startWaiting => simp [Notifier.step, Notifier.acquire, hfree, hcaller] at hacquire
    case stopWaiting => simp [Notifier.step, Notifier.acquire, hfree, hcaller] at hacquire
    all_goals cases hidle
  · cases hreader : s.readers r
    case reading conn => exact Or.inr ⟨conn, rfl⟩
    case ended => exact Or.inl rfl
    case created =>
      have hruns := hquiet (.runs r) rfl
      cases hconn : s.listenConn <;> simp [Notifier.step, hreader, hconn] at hruns
    case crashed => simpa [Notifier.step, hreader, hfree] using hquiet (.handle r) rfl
    case closing => simpa [Notifier.step, hreader] using hquiet (.reset r) rfl
    case cancelled => simpa [Notifier.step, hreader] using hquiet (.ends r) rfl
  · have htake := hquiet (.take t) rfl
    cases hcontents : s.contents t with
    | nil => rfl
    | cons q rest => simp [Notifier.step, hcaller, hcontents] at htake

end Quiescence

def CallerPhase.stops : CallerPhase → Bool
  | .stopWaiting | .cancelling _ | .stopClosing => true
  | .absent | .startWaiting _ | .closing _ | .connecting _ | .listening _ | .subscribed _
  | .done => false

def Alive (s : State) : Prop := ∃ r, s.readers r ≠ .ended

/-- What `stop` leaves is nowhere. -/
structure Unstopped (s : State) : Prop where
  caller : ∀ t, (s.callers t).stops = false
  reader : ∀ r, s.readers r ≠ .cancelled

/-- A step between two states that kills no reader, and registers none where there is none. -/
structure Feeds (s s' : State) : Prop where
  unstopped : Unstopped s'
  alive : Alive s → Alive s'
  queues : ∀ entry ∈ s'.queues, entry ∈ s.queues ∨ Alive s'

section Feeding

variable {uuid : String → Option UUID} {s s' : State} {t : ℕ} {phase : CallerPhase}

theorem unstopped_init : Unstopped State.init := ⟨fun _ => rfl, by simp [State.init]⟩

theorem Unstopped.update (h : Unstopped s)
    (hcallers : s'.callers = Function.update s.callers t phase) (hphase : phase.stops = false)
    (hreaders : s'.readers = s.readers) : Unstopped s' := by
  refine ⟨fun u => ?_, hreaders ▸ h.reader⟩
  rw [hcallers, Function.update_apply]
  split
  · exact hphase
  · exact h.caller u

theorem Unstopped.feeds (h : Unstopped s)
    (hcallers : s'.callers = Function.update s.callers t phase) (hphase : phase.stops = false)
    (hreaders : s'.readers = s.readers)
    (hqueues : ∀ entry ∈ s'.queues, entry ∈ s.queues ∨ Alive s) : Feeds s s' := by
  have hsame : Alive s' ↔ Alive s := by rw [Alive, hreaders, Alive]
  exact ⟨h.update hcallers hphase hreaders, hsame.mpr, fun entry hentry =>
    (hqueues entry hentry).imp_right hsame.mpr⟩

theorem Unstopped.started (h : Unstopped s) (halive : Alive s) (t : ℕ) (next : Option UUID) :
    Feeds s (s.started t next) := by
  cases next with
  | none => exact h.feeds rfl rfl rfl fun _ hentry => Or.inl hentry
  | some e => exact h.feeds rfl rfl rfl fun _ _ => Or.inr halive

theorem alive_of_running (hrunning : s.running = true) : Alive s := by
  unfold State.running at hrunning
  split at hrunning
  · simp at hrunning
  · rename_i r htask
    exact ⟨r, by simpa using (Bool.and_eq_true_iff.mp hrunning).2⟩

theorem Unstopped.beginStart (h : Unstopped s) (t : ℕ) (next : Option UUID) :
    Feeds s (s.beginStart t next) := by
  unfold State.beginStart
  split
  · rename_i hrunning
    exact h.started (alive_of_running hrunning) t next
  · split
    · exact h.feeds rfl rfl rfl fun _ hentry => Or.inl hentry
    · exact h.feeds rfl rfl rfl fun _ hentry => Or.inl hentry

theorem Unstopped.setReader (h : Unstopped s) {r : ℕ} {phase : ReaderPhase}
    (hreaders : s'.readers = Function.update s.readers r phase) (hended : phase ≠ .ended)
    (hcancelled : phase ≠ .cancelled) (hcallers : s'.callers = s.callers)
    (hqueues : s'.queues = s.queues) : Feeds s s' := by
  refine ⟨⟨hcallers ▸ h.caller, fun u => ?_⟩, fun _ => ⟨r, ?_⟩, fun entry hentry =>
    Or.inl (hqueues ▸ hentry)⟩
  · rw [hreaders, Function.update_apply]
    split
    · exact hcancelled
    · exact h.reader u
  · rw [hreaders, Function.update_self]
    exact hended

theorem Unstopped.create (h : Unstopped s) (t : ℕ) (next : Option UUID) :
    Feeds s (create s t next) := by
  have hcreated : Feeds s { s.setReader s.next .created with
      readerTask := some s.next, lock := none, next := s.next + 1 } :=
    h.setReader rfl (by simp) (by simp) rfl rfl
  have halive : Alive { s.setReader s.next .created with
      readerTask := some s.next, lock := none, next := s.next + 1 } := by
    refine ⟨s.next, ?_⟩
    show Function.update s.readers s.next _ s.next ≠ _
    simp
  have hstarted := hcreated.unstopped.started halive t next
  refine ⟨hstarted.unstopped, fun _ => hstarted.alive halive, fun entry hentry => ?_⟩
  exact Or.inr (hstarted.alive halive)

theorem Unstopped.reset (h : Unstopped s) (r : ℕ) : Unstopped (s.reset r) := by
  refine ⟨h.caller, fun u => ?_⟩
  show Function.update s.readers r _ u ≠ _
  rw [Function.update_apply]
  split
  · simp
  · exact h.reader u

theorem Unstopped.leave (h : Unstopped s) (hstep : Notifier.leave s t = some s') : Feeds s s' := by
  unfold Notifier.leave at hstep
  cases hcaller : s.callers t <;> simp only [hcaller] at hstep
  case subscribed e =>
    exact Option.some.inj hstep ▸ h.feeds rfl rfl rfl fun _ hentry =>
      Or.inl (List.mem_of_mem_erase hentry)
  case startWaiting | closing | connecting | listening =>
    exact Option.some.inj hstep ▸ h.feeds rfl rfl rfl fun _ hentry =>
      Or.inl hentry
  all_goals cases hstep

end Feeding

section Feeding

variable {uuid : String → Option UUID} {s s' : State}

/-- Only a reset takes the reader from the queues, unless `stop` is called. -/
theorem Unstopped.step (h : Unstopped s) (hsound : Sound s) {a : Action}
    (hstop : ∀ t, a ≠ .stop t) (hstep : step uuid s a = some s') :
    Feeds s s' ∨ ((∃ r, a = .reset r) ∧ Unstopped s' ∧ s'.queues = s.queues) := by
  have hsame : ∀ entry ∈ s.queues, entry ∈ s.queues ∨ Alive s := fun _ hentry => Or.inl hentry
  cases a with
  | stop t => exact absurd rfl (hstop t)
  | start t =>
    obtain ⟨-, rfl⟩ := call_eq_some hstep
    exact Or.inl (h.feeds rfl rfl rfl hsame)
  | subscribe t e =>
    obtain ⟨-, rfl⟩ := call_eq_some hstep
    split
    · rename_i hrunning
      exact Or.inl (h.started (alive_of_running hrunning) t (some e))
    · exact Or.inl (h.feeds rfl rfl rfl hsame)
  | acquire t =>
    left
    simp only [Notifier.step, Notifier.acquire] at hstep
    split at hstep
    · cases hstep
    · cases hcaller : s.callers t <;> simp only [hcaller] at hstep
      case startWaiting next => exact Option.some.inj hstep ▸ h.beginStart t next
      case stopWaiting => exact absurd (h.caller t) (by simp [hcaller, CallerPhase.stops])
      all_goals cases hstep
  | closed t | connected t | connectFailed t | listenFailed t =>
    left
    cases hcaller : s.callers t <;> simp only [Notifier.step, hcaller] at hstep
    case closing | connecting | listening =>
      first
      | exact Option.some.inj hstep ▸ h.feeds rfl rfl rfl hsame
      | cases hstep
    all_goals cases hstep
  | listened t =>
    left
    cases hcaller : s.callers t <;> simp only [Notifier.step, hcaller] at hstep
    case listening next => exact Option.some.inj hstep ▸ h.create t next
    all_goals cases hstep
  | readerGone t | stopClosed t | stopCloseFailed t =>
    have hstops := h.caller t
    cases hcaller : s.callers t <;> simp only [Notifier.step, hcaller] at hstep hstops
    case cancelling | stopClosing => cases hstops
    all_goals cases hstep
  | leave t => exact Or.inl (h.leave hstep)
  | take t =>
    left
    simp only [Notifier.step] at hstep
    split at hstep
    · exact Option.some.inj hstep ▸ ⟨⟨h.caller, h.reader⟩, id, hsame⟩
    · cases hstep
  | runs r =>
    left
    simp only [Notifier.step] at hstep
    split at hstep
    · exact Option.some.inj hstep ▸ h.setReader rfl (by simp) (by simp) rfl rfl
    · rename_i hreader hconn
      exact absurd hconn (hsound.live r (by simp [hreader])).2.1
    · cases hstep
  | notify r payload =>
    left
    simp only [Notifier.step] at hstep
    split at hstep
    · obtain ⟨contents, hdispatch, -⟩ := hsound.dispatch_eq uuid payload
      rw [hdispatch] at hstep
      exact Option.some.inj hstep ▸ ⟨⟨h.caller, h.reader⟩, id, hsame⟩
    · cases hstep
  | crash r =>
    left
    simp only [Notifier.step] at hstep
    split at hstep
    · exact Option.some.inj hstep ▸ h.setReader rfl (by simp) (by simp) rfl rfl
    · cases hstep
  | handle r =>
    left
    simp only [Notifier.step] at hstep
    split at hstep
    · rename_i hcan
      have hconn : s.listenConn.isSome := by
        simpa [Option.isSome_iff_ne_none] using (hsound.live r (by simp [hcan.1])).2.1
      rw [if_pos hconn] at hstep
      exact Option.some.inj hstep ▸ h.setReader rfl (by simp) (by simp) rfl rfl
    · cases hstep
  | reset r =>
    right
    simp only [Notifier.step] at hstep
    split at hstep
    · exact Option.some.inj hstep ▸ ⟨⟨r, rfl⟩, h.reset r, rfl⟩
    · cases hstep
  | ends r =>
    simp only [Notifier.step, h.reader r, if_false] at hstep
    cases hstep

/-- A reader was reset while the queue was in the set of its endpoint, and none has been created
since. -/
def Unfed (ms : History State Action) (entry : UUID × ℕ) : Prop :=
  ∃ newer m older, ms = newer ++ m :: older ∧ (∃ r, m.act = .reset r) ∧ entry ∈ m.pre.queues ∧
    ∀ m' ∈ newer, ∀ t, m'.act ≠ .listened t

theorem Unfed.cons {ms : History State Action} {entry : UUID × ℕ} (h : Unfed ms entry)
    {m : Move State Action} (hm : ∀ t, m.act ≠ .listened t) : Unfed (m :: ms) entry := by
  obtain ⟨newer, m', older, rfl, hreset, hentry, hnewer⟩ := h
  exact ⟨m :: newer, m', older, rfl, hreset, hentry, List.forall_mem_cons.mpr ⟨hm, hnewer⟩⟩

/-- Where `start` comes to its end there is a reader. -/
theorem alive_of_listened {t : ℕ} (hstep : step uuid s (.listened t) = some s') : Alive s' := by
  cases hcaller : s.callers t <;> simp only [step, hcaller] at hstep
  case listening next =>
    obtain rfl := Option.some.inj hstep
    refine ⟨s.next, ?_⟩
    have hcreated : (create s t next).readers s.next = .created := by
      cases next <;> exact Function.update_self _ _ _
    rw [hcreated]
    simp
  all_goals cases hstep

/-- What is known of a state with its past, in which `stop` was not called. -/
structure Fed (ms : History State Action) (s : State) : Prop where
  sound : Sound s
  unstopped : Unstopped s
  queues : ∀ entry ∈ s.queues, Alive s ∨ Unfed ms entry

theorem Fed.step {ms : History State Action} (h : Fed ms s) {a : Action}
    (hstop : ∀ t, a ≠ .stop t) (hstep : step uuid s a = some s') :
    Fed (⟨s, a, s'⟩ :: ms) s' := by
  obtain hfeeds | ⟨hreset, hunstopped, hqueues⟩ := h.unstopped.step h.sound hstop hstep
  · refine ⟨h.sound.step hstep, hfeeds.unstopped, fun entry hentry => ?_⟩
    by_cases hcreates : ∃ t, a = .listened t
    · obtain ⟨t, rfl⟩ := hcreates
      exact Or.inl (alive_of_listened hstep)
    · obtain hold | halive := hfeeds.queues entry hentry
      · exact (h.queues entry hold).imp hfeeds.alive fun hunfed =>
          hunfed.cons (not_exists.mp hcreates)
      · exact Or.inl halive
  · refine ⟨h.sound.step hstep, hunstopped, fun entry hentry => Or.inr ?_⟩
    exact ⟨[], _, ms, rfl, hreset, hqueues ▸ hentry, by simp⟩

theorem fed_of_run {ms : History State Action} (h : Run (Steps (step uuid)) State.init ms s)
    (hstop : ∀ m ∈ ms, ∀ t, m.act ≠ .stop t) : Fed ms s := by
  have hinit : Fed [] State.init := ⟨sound_init, unstopped_init, by simp [State.init]⟩
  refine (h.guarded (P := fun _ _ => True) hinit ?_ (always_iff_forall_mem.mpr hstop)).2
  exact fun _ _ _ _ hfed hmove hstep => ⟨trivial, hfed.step hmove hstep⟩

end Feeding

section Restart

variable {uuid : String → Option UUID} {s : State}

/-- What one subscription does: its own call, and what the loop does by itself. -/
def Subscribing (t : ℕ) (e : UUID) (ms : History State Action) : Prop :=
  ∀ m ∈ ms, m.act = .subscribe t e ∨ m.act.isPending = true

/-- From the connection on, the loop needs nobody else. -/
theorem connecting_reads {t : ℕ} {e : UUID} (hcaller : s.callers t = .connecting (some e)) :
    ∃ ms s', Run (Steps (step uuid)) s ms s' ∧ Subscribing t e ms ∧
      s'.queues = s.queues ++ [(e, t)] ∧ ∃ r conn, s'.readers r = .reading conn := by
  let s₁ := { s with listenConn := some s.next, next := s.next + 1 }.goTo t (.listening (some e))
  have hconnected : step uuid s (.connected t) = some s₁ := by simp [step, hcaller, s₁]
  have hlistening : s₁.callers t = .listening (some e) := goTo_self
  have hlistened : step uuid s₁ (.listened t) = some (create s₁ t (some e)) := by
    simp [step, hlistening]
  have hcreated : (create s₁ t (some e)).readers s₁.next = .created := Function.update_self _ _ _
  have hconn : (create s₁ t (some e)).listenConn = some s.next := rfl
  have hruns : step uuid (create s₁ t (some e)) (.runs s₁.next) =
      some ((create s₁ t (some e)).setReader s₁.next (.reading s.next)) := by
    simp [step, hcreated, hconn]
  refine ⟨_, _, .move (.move (.single hconnected) hlistened) hruns, ?_, rfl, s₁.next, s.next,
    Function.update_self _ _ _⟩
  simp [Subscribing, Action.isPending]

/-- Where nothing is left to do, a new subscription has a reader, which the others have too. -/
theorem Sound.restart (h : Sound s) (hquiet : Quiescent uuid s) {t : ℕ}
    (habsent : s.callers t = .absent) (e : UUID) :
    ∃ ms s', Run (Steps (Notifier.step uuid)) s ms s' ∧ Subscribing t e ms ∧
      s'.queues = s.queues ++ [(e, t)] ∧ ∃ r conn, s'.readers r = .reading conn := by
  have hrest := h.atRest hquiet
  have hfree : s.lock = none := h.lock_free hquiet
  by_cases hrunning : s.running = true
  · have hsubscribe : Notifier.step uuid s (.subscribe t e) = some (s.register t e) := by
      simp [Notifier.step, Notifier.call, habsent, hrunning]
    obtain ⟨r, hr⟩ := alive_of_running hrunning
    refine ⟨_, _, .single hsubscribe, ?_, rfl, r, (hrest.reader r).resolve_left hr⟩
    simp [Subscribing]
  · let s₁ := s.goTo t (.startWaiting (some e))
    have hsubscribe : Notifier.step uuid s (.subscribe t e) = some s₁ := by
      simp [Notifier.step, Notifier.call, habsent, hrunning, s₁]
    have hwaiting : s₁.callers t = .startWaiting (some e) := goTo_self
    have hacquire : Notifier.step uuid s₁ (.acquire t) = some (s₁.beginStart t (some e)) := by
      simp [Notifier.step, Notifier.acquire, hwaiting, show s₁.lock = none from hfree]
    have hrunning₁ : s₁.running = false := by
      rw [show s₁.running = s.running from rfl]
      simpa using hrunning
    obtain ⟨begun, hstart, hbegun⟩ : ∃ ms, Run (Steps (Notifier.step uuid)) s ms
        (s₁.beginStart t (some e)) ∧ Subscribing t e ms :=
      ⟨_, .move (.single hsubscribe) hacquire, by simp [Subscribing, Action.isPending]⟩
    cases hconn : s₁.listenConn with
    | none =>
      have hbegin : s₁.beginStart t (some e) =
          (s₁.hold (.caller t)).goTo t (.connecting (some e)) := by
        simp [State.beginStart, hrunning₁, hconn]
      rw [hbegin] at hstart
      obtain ⟨ms, s', hrun, hms, hqueues, hreads⟩ := connecting_reads
        (s := (s₁.hold (.caller t)).goTo t (.connecting (some e))) goTo_self
      refine ⟨_, s', hstart.trans hrun, ?_, hqueues, hreads⟩
      exact List.forall_mem_append.mpr ⟨hms, hbegun⟩
    | some conn =>
      have hbegin : s₁.beginStart t (some e) =
          (s₁.hold (.caller t)).goTo t (.closing (some e)) := by
        simp [State.beginStart, hrunning₁, hconn]
      rw [hbegin] at hstart
      let s₂ := (s₁.hold (.caller t)).goTo t (.closing (some e))
      have hclosed : Notifier.step uuid s₂ (.closed t) =
          some (s₂.goTo t (.connecting (some e))) := by
        simp [Notifier.step, show s₂.callers t = .closing (some e) from goTo_self]
      obtain ⟨ms, s', hrun, hms, hqueues, hreads⟩ := connecting_reads
        (s := s₂.goTo t (.connecting (some e))) goTo_self
      refine ⟨_, s', (hstart.move hclosed).trans hrun, ?_, hqueues, hreads⟩
      exact List.forall_mem_append.mpr ⟨hms, List.forall_mem_cons.mpr ⟨Or.inr rfl, hbegun⟩⟩

end Restart

/-- One reader at most; each notification once on each queue of its endpoint; and a queue whose
feed is dead is one that was there when the last reader was reset, which the next subscription
repairs. -/
theorem live_feed (uuid : String → Option UUID) {ms : History State Action} {s : State}
    (h : Run (Steps (step uuid)) State.init ms s) :
    (∀ r r' conn conn', s.readers r = .reading conn → s.readers r' = .reading conn' →
      r' = r ∧ s.listenConn = some conn) ∧
    (∀ r payload s', step uuid s (.notify r payload) = some s' →
      ∃ contents, s' = { s with contents := contents } ∧ ∀ t, contents t =
        s.contents t ++ match parsePayload uuid payload with
          | none => []
          | some (e, q) => if (e, t) ∈ s.queues then [q] else []) ∧
    (Quiescent uuid s → (∀ m ∈ ms, ∀ t, m.act ≠ .stop t) → ∀ entry ∈ s.queues,
      (∃ r conn, s.readers r = .reading conn) ∨ Unfed ms entry) ∧
    (Quiescent uuid s → ∀ t e, s.callers t = .absent →
      ∃ ms' s', Run (Steps (step uuid)) s ms' s' ∧ Subscribing t e ms' ∧
        s'.queues = s.queues ++ [(e, t)] ∧ ∃ r conn, s'.readers r = .reading conn) := by
  have hsound : Sound s := sound_of_run h
  refine ⟨fun r r' conn conn' hr hr' => ?_, fun r payload s' hstep => ?_,
    fun hquiet hstop entry hentry => ?_, fun hquiet t e habsent => hsound.restart hquiet habsent e⟩
  · exact ⟨hsound.one_reading hr hr', hsound.reading r conn hr⟩
  · obtain ⟨contents, hdispatch, hcontents⟩ := hsound.dispatch_eq uuid payload
    simp only [step] at hstep
    split at hstep
    · exact ⟨contents, (Option.some.inj hstep).symm.trans hdispatch, hcontents⟩
    · cases hstep
  · refine ((fed_of_run h hstop).queues entry hentry).imp_left fun ⟨r, hr⟩ => ?_
    exact ⟨r, ((hsound.atRest hquiet).reader r).resolve_left hr⟩

def listening : List Action :=
  [.start 0, .acquire 0, .connected 0, .listened 0, .runs 1, .subscribe 1 sampleEndpoint.id]

/-- A subscriber, the caller of `start` before it, one reader, and nobody else. -/
theorem atRest_of {s : State} {e : UUID} (h₀ : s.callers 0 = .done)
    (h₁ : s.callers 1 = .subscribed e) (hcallers : ∀ t, s.callers (t + 2) = .absent)
    (hreader : s.readers 1 = .ended ∨ ∃ conn, s.readers 1 = .reading conn)
    (hreaders : ∀ r, r ≠ 1 → s.readers r = .ended) (hcontents : s.contents 1 = []) :
    AtRest s := by
  refine ⟨fun t => ?_, fun r => ?_, fun e' t hcaller => ?_⟩
  · match t with
    | 0 => exact Or.inr (Or.inl h₀)
    | 1 => exact Or.inr (Or.inr ⟨e, h₁⟩)
    | t + 2 => exact Or.inl (hcallers t)
  · by_cases hr : r = 1
    · exact hr ▸ hreader
    · exact Or.inl (hreaders r hr)
  · match t with
    | 0 => exact nomatch h₀.symm.trans hcaller
    | 1 => exact hcontents
    | t + 2 => exact nomatch (hcallers t).symm.trans hcaller

theorem listening_fed : ∃ ms s, Run (Steps (step fun _ => none)) State.init ms s ∧
    s.queues = [(sampleEndpoint.id, 1)] ∧ ∃ r conn, s.readers r = .reading conn := by
  obtain ⟨ms, s, hplay, hrest, hqueues, hacts⟩ : ∃ ms s,
      play (step fun _ => none) [] State.init listening = some (ms, s) ∧ AtRest s ∧
        s.queues = [(sampleEndpoint.id, 1)] ∧ ms.map Move.act = listening.reverse := by
    refine ⟨_, _, rfl, atRest_of rfl rfl (fun t => rfl) (Or.inr ⟨0, rfl⟩) ?_ rfl, rfl, rfl⟩
    rintro (_ | _ | r) hr
    · rfl
    · exact absurd rfl hr
    · rfl
  have hact : ∀ m ∈ ms, m.act ∈ listening := by
    intro m hm
    have hmem := List.mem_map_of_mem (f := Move.act) hm
    rwa [hacts, List.mem_reverse] at hmem
  have hrun := Run.of_play hplay
  obtain hreads | ⟨newer, m, older, rfl, ⟨r, hreset⟩, -⟩ := (live_feed _ hrun).2.2.1 hrest.quiescent
    (fun m hm t hstop => by simpa [hstop, listening] using hact m hm)
    (sampleEndpoint.id, 1) (by simp [hqueues])
  · exact ⟨ms, s, hrun, hqueues, hreads⟩
  · have hmem := hact m (List.mem_append_right _ List.mem_cons_self)
    simp [hreset, listening] at hmem

def crashing : List Action := listening ++ [.crash 1, .handle 1, .reset 1]

/-- Its subscriber waits on. -/
theorem crashed_unfed : ¬ ∀ (uuid : String → Option UUID) (ms : History State Action) (s : State),
    Run (Steps (step uuid)) State.init ms s → (∀ m ∈ ms, ∀ t, m.act ≠ .stop t) →
    Quiescent uuid s → ∀ entry ∈ s.queues, ∃ r conn, s.readers r = .reading conn := by
  intro hclaim
  obtain ⟨ms, s, hplay, hrest, hqueues, hended, hacts⟩ : ∃ ms s,
      play (step fun _ => none) [] State.init crashing = some (ms, s) ∧ AtRest s ∧
        s.queues = [(sampleEndpoint.id, 1)] ∧ (∀ r, s.readers r = .ended) ∧
        ms.map Move.act = crashing.reverse := by
    refine ⟨_, _, rfl, atRest_of rfl rfl (fun t => rfl) (Or.inl rfl) ?_ rfl, rfl, ?_, rfl⟩
    · rintro (_ | _ | r) _ <;> rfl
    · rintro (_ | _ | r) <;> rfl
  have hstop : ∀ m ∈ ms, ∀ t, m.act ≠ .stop t := by
    intro m hm t hstop
    have hmem := List.mem_map_of_mem (f := Move.act) hm
    rw [hacts, hstop] at hmem
    simp [crashing, listening] at hmem
  obtain ⟨r, conn, hr⟩ := hclaim _ ms s (Run.of_play hplay) hstop hrest.quiescent
    (sampleEndpoint.id, 1) (by simp [hqueues])
  exact nomatch (hended r).symm.trans hr

end Hooktrace.Notifier
