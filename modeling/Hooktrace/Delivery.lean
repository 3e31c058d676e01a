import Hooktrace.ExecuteForward

/-!
What one run of the forward job sends. `sendCall` follows the job to its call of `send`;
the job asks the target nothing else (`execute_congr_send`), so that what holds of this
call holds of everything that the receiver gets.
-/
namespace Hooktrace.Delivery

open ForwardRepository ExecuteForward

/-- The arguments of `target.send`. -/
structure SendCall where
  method : String
  validated : ValidatedTarget
  headers : Headers
  body : Bytes
  deriving DecidableEq

def claimedFor (env : Collaborators) (clock : Clock) (forwardId : UUID) (row : Forward) :
    Option ClaimedState :=
  match claimPhase env clock forwardId row with
  | .ok (_, state) => state
  | .error _ => none

def sendCall (env : Collaborators) (clock : Clock) (state : ClaimedState) : Option SendCall :=
  match outboundHeaders env clock state, env.validate state.forward.targetUrl with
  | .ok headers, .returns validated =>
    some ⟨state.captured.method, validated, headers, state.body⟩
  | _, _ => none

def sent (env : Collaborators) (clock : Clock) (forwardId : UUID) (row : Forward) :
    Option SendCall :=
  (claimedFor env clock forwardId row).bind (sendCall env clock)

theorem sendCall_body {env : Collaborators} {clock : Clock} {state : ClaimedState}
    {call : SendCall} (h : sendCall env clock state = some call) : call.body = state.body := by
  unfold sendCall at h
  split at h
  · obtain rfl := Option.some.inj h
    rfl
  · simp at h

/-- Who sends has claimed the forward, and loaded its endpoint, its request and the body. -/
theorem sent_eq_some {env : Collaborators} {clock : Clock} {forwardId : UUID} {row : Forward}
    {call : SendCall} (h : sent env clock forwardId row = some call) :
    ∃ state, claimedFor env clock forwardId row = some state ∧
      env.findEndpoint row.endpointId = some state.endpoint ∧
      env.findRequest row.requestId = some state.captured ∧
      loadBody env state.captured = .ok state.body ∧
      outboundHeaders env clock state = .ok call.headers ∧ call.body = state.body := by
  obtain ⟨state, hstate, hcall⟩ := Option.bind_eq_some_iff.mp h
  have hheaders : outboundHeaders env clock state = .ok call.headers := by
    unfold sendCall at hcall
    split at hcall
    · rename_i headers _ hheaders _
      obtain rfl := Option.some.inj hcall
      exact hheaders
    · simp at hcall
  refine ⟨state, hstate, ?_⟩
  unfold claimedFor claimPhase at hstate
  cases hclaimed : (claimForAttempt forwardId clock.claimedAt).returningRow row with
  | none => simp [hclaimed] at hstate
  | some claimed =>
    have horigin : SameOrigin row claimed := by
      have hassign := (Writer.claim forwardId clock.claimedAt).sameOrigin row
      rcases (claimForAttempt forwardId clock.claimedAt).returningRow_cases
        (claimForAttempt_holds (r := row)) with ⟨-, hrow⟩ | ⟨-, hrow⟩
      · rw [hclaimed] at hrow
        exact Option.some.inj hrow ▸ hassign
      · simp [hclaimed] at hrow
    simp only [hclaimed] at hstate
    rw [← horigin.endpoint_eq, ← horigin.request_eq]
    cases hendpoint : env.findEndpoint claimed.endpointId with
    | none => simp [hendpoint] at hstate
    | some endpoint =>
      cases hcaptured : env.findRequest claimed.requestId with
      | none => simp [hendpoint, hcaptured] at hstate
      | some captured =>
        cases hbody : loadBody env captured with
        | error interrupt =>
          simp [hendpoint, hcaptured, hbody, bind, Except.bind] at hstate
        | ok body =>
          simp only [hendpoint, hcaptured, hbody, bind, Except.bind, pure, Except.pure,
            Option.some.injEq] at hstate
          subst hstate
          exact ⟨rfl, rfl, hbody, hheaders, sendCall_body hcall⟩

/-- The signature of a delivery is over the body that is sent. -/
theorem signature_sent {env : Collaborators} {clock : Clock} {state : ClaimedState}
    {headers : Headers} {blob : Bytes} {secret : String}
    (h : outboundHeaders env clock state = .ok headers)
    (hblob : state.endpoint.forwardSecretEncrypted = some blob) (hne : blob ≠ [])
    (hsecret : decryptSecret env env.secretsKey blob = .ok secret) :
    headers.get? "X-Hooktrace-Signature" = some
      s!"t={clock.unixNow},v1={signForward env (encodeUtf8 secret) clock.unixNow state.body}" := by
  unfold outboundHeaders at h
  split at h
  · simp_all
  · simp_all
  · rename_i blob' _ hsome
    obtain rfl := Option.some.inj (hsome.symm.trans hblob)
    simp only [hsecret, bind, Except.bind, pure, Except.pure, Except.ok.injEq] at h
    subst h
    simp

/-- The collaborators with another target behind the same URL. -/
def withSend (env : Collaborators)
    (send : String → ValidatedTarget → Headers → Bytes → Answer Response) : Collaborators :=
  { env with send }

section Congr

variable {env : Collaborators} {clock : Clock}
variable {send : String → ValidatedTarget → Headers → Bytes → Answer Response}

theorem claimPhase_withSend (forwardId : UUID) (row : Forward) :
    claimPhase (withSend env send) clock forwardId row = claimPhase env clock forwardId row := rfl

theorem outboundHeaders_withSend (state : ClaimedState) :
    outboundHeaders (withSend env send) clock state = outboundHeaders env clock state := rfl

theorem httpPhase_withSend {state : ClaimedState}
    (h : ∀ call, sendCall env clock state = some call →
      send call.method call.validated call.headers call.body =
        env.send call.method call.validated call.headers call.body) :
    httpPhase (withSend env send) clock state = httpPhase env clock state := by
  unfold httpPhase
  rw [outboundHeaders_withSend]
  cases hheaders : outboundHeaders env clock state with
  | error interrupt => rfl
  | ok headers =>
    have hdeliver : deliver (withSend env send) state headers = deliver env state headers := by
      unfold deliver
      have hvalidate : (withSend env send).validate = env.validate := rfl
      rw [hvalidate]
      cases htarget : env.validate state.forward.targetUrl with
      | returns validated =>
        have hcall := h ⟨state.captured.method, validated, headers, state.body⟩
          (by simp [sendCall, hheaders, htarget])
        simp only [Answer.await, bind, Except.bind]
        rw [show (withSend env send).send = send from rfl, hcall]
      | raises error => rfl
      | hangs => rfl
    simp only [bind, Except.bind, hdeliver]

/-- The run depends on the target's answers only through that one call. -/
theorem execute_congr_send {forwardId : UUID} {w : World}
    (h : ∀ call, sent env clock forwardId w.row = some call →
      send call.method call.validated call.headers call.body =
        env.send call.method call.validated call.headers call.body) :
    execute (withSend env send) clock forwardId w = execute env clock forwardId w := by
  unfold execute
  rw [claimPhase_withSend]
  cases hclaim : claimPhase env clock forwardId w.row with
  | error interrupt => rfl
  | ok claimed =>
    obtain ⟨row, state⟩ := claimed
    cases state with
    | none => rfl
    | some state =>
      have hphase : httpPhase (withSend env send) clock state = httpPhase env clock state :=
        httpPhase_withSend fun call hcall => h call (by simp [sent, claimedFor, hclaim, hcall])
      simp only [hphase]

end Congr

end Hooktrace.Delivery
