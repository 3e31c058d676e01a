import Hooktrace.OwnerActions
import Hooktrace.RedrivePendingForwards
import Hooktrace.ReplayRequest
import Hooktrace.UpdateEndpointConfig

/-!
The routes under `/api/endpoints/{token}` that write. A use case runs in the session of its
request, which is committed when it returns and rolled back when it raises; only the replay
opens its own. The retried forward is enqueued after the commit, best effort.
-/
namespace Hooktrace.Routes

open Table Database ForwardQueue
open Delivery (SendCall)
open UpdateEndpointConfig (Patch)

inductive Call where
  | retryForward (forwardId : UUID)
  | abandonForward (forwardId : UUID)
  | redriveForwards
  | replayRequest (args : ReplayRequest.Args)
  | updateConfig (p : Patch)

/-- What a request meets besides the tables; `raises` tells for which ids Redis does not
answer. -/
structure Environment where
  now : Datetime
  raises : UUID → Bool
  encryption : UpdateEndpointConfig.Encryption
  replay : ReplayRequest.Collaborators

inductive Reply where
  | returned
  | httpException (status : ℕ) (detail : String)
  | serverError
  deriving DecidableEq

/-- The tables and the queue afterwards, the outbound calls, and what the caller is told. -/
structure Outcome where
  db : Database
  queue : ArqQueue
  sends : List SendCall
  reply : Reply

/-- The handlers of the routes say nothing of the message. -/
def ownerReply : OwnerActions.Failure → Reply
  | .endpointNotFound _ => .httpException 404 "endpoint not found"
  | .forwardNotRetryable _ => .httpException 404 "forward not retryable"
  | .forwardNotFound _ => .httpException 404 "forward not found"

def replayReply : ReplayRequest.Failure → Reply
  | .endpointNotFound _ => .httpException 404 "endpoint not found"
  | .requestNotFound _ => .httpException 404 "request not found"
  | .payloadTooLarge _ => .httpException 413 "payload too large"
  | .interrupted _ => .serverError

def configReply : UpdateEndpointConfig.Failure → Reply
  | .endpointNotFound _ => .httpException 404 "endpoint not found"
  | .raised _ => .serverError

def safeEnqueue (env : Environment) (queue : ArqQueue) (forwardId : UUID) : ArqQueue :=
  if env.raises forwardId then queue else enqueue queue forwardId 0 env.now

def retryForwardRoute (env : Environment) (token : String) (forwardId : UUID) (db : Database)
    (queue : ArqQueue) : Outcome :=
  match OwnerActions.retryForward token forwardId env.now db with
  | .ok (db', forward) => ⟨db', safeEnqueue env queue forward.id, [], .returned⟩
  | .error failure => ⟨db, queue, [], ownerReply failure⟩

def abandonForwardRoute (env : Environment) (token : String) (forwardId : UUID) (db : Database)
    (queue : ArqQueue) : Outcome :=
  match OwnerActions.abandonForward token forwardId env.now db with
  | .ok (db', _) => ⟨db', queue, [], .returned⟩
  | .error failure => ⟨db, queue, [], ownerReply failure⟩

def redriveForwardsRoute (env : Environment) (token : String) (db : Database)
    (queue : ArqQueue) : Outcome :=
  match RedrivePendingForwards.execute
      (fun token => EndpointRepository.findByToken token db.endpoints) env.raises token env.now
      db.forwards queue with
  | .ok redriven => ⟨{ db with forwards := redriven.forwards }, redriven.queue, [], .returned⟩
  | .error _ => ⟨db, queue, [], .httpException 404 "endpoint not found"⟩

def replayRequestRoute (env : Environment) (token : String) (args : ReplayRequest.Args)
    (db later : Database) (queue : ArqQueue) : Outcome :=
  let replayed := ReplayRequest.execute env.replay token args db later
  match replayed.result with
  | .ok _ => ⟨replayed.db, queue, replayed.sends, .returned⟩
  | .error failure => ⟨replayed.db, queue, replayed.sends, replayReply failure⟩

def updateConfigRoute (env : Environment) (token : String) (p : Patch) (db : Database)
    (queue : ArqQueue) : Outcome :=
  match UpdateEndpointConfig.execute env.encryption token p db.endpoints with
  | .ok endpoints => ⟨{ db with endpoints }, queue, [], .returned⟩
  | .error failure => ⟨db, queue, [], configReply failure⟩

/-- One request with the token. `later` are the tables when the second transaction of a
replay begins. -/
def handle (env : Environment) (token : String) (db later : Database) (queue : ArqQueue) :
    Call → Outcome
  | .retryForward forwardId => retryForwardRoute env token forwardId db queue
  | .abandonForward forwardId => abandonForwardRoute env token forwardId db queue
  | .redriveForwards => redriveForwardsRoute env token db queue
  | .replayRequest args => replayRequestRoute env token args db later queue
  | .updateConfig p => updateConfigRoute env token p db queue

def Call.meets (c : Call) (db later : Database) : Database :=
  match c with
  | .replayRequest _ => later
  | _ => db

end Hooktrace.Routes
