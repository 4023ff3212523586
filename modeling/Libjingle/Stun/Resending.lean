import Libjingle.Std.Registry
import Libjingle.Std.Trace
import Libjingle.Stun.Requests

/-!
# Requests that are sent again

`StunRequestManager` of `talk/p2p/base/stunrequest.cc` with the messages that are posted for its
requests. A request is sent when its message comes, and the next message is posted with a longer
delay; the message after the last one is the timeout.

Requests are named by the order in which they were given to the manager. What a subclass adds to a
request is its body, and a subclass may have delays of its own. The requests that a callback sends
come with the input that leads to it. An id is in use once, as the manager asserts.
-/

namespace Libjingle.Stun.Resending

open Libjingle.Std

/-! ## The manager -/

def maxSends : Nat := 9

/-- In milliseconds. -/
def delayUnit : Nat := 100

def delayMaxFactor : Nat := 16

/-- The delay that a subclass says, and what it makes of `count_` and `timeout_`. -/
abbrev NextDelay (β : Type) := β → Nat → Bool → Nat × Nat × Bool

/-- `GetNextDelay` of a plain request. -/
def getNextDelay (count : Nat) (timeout : Bool) : Nat × Nat × Bool :=
  (delayUnit * min (1 <<< count) delayMaxFactor, count + 1,
    if count + 1 = maxSends then true else timeout)

variable {β : Type}

structure Request (β : Type) where
  id : List UInt8
  type : UInt16
  body : β
  count : Nat
  timeout : Bool

/-- A request that is given to the manager, and the delay until it is sent. -/
structure NewRequest (β : Type) where
  id : List UInt8
  type : UInt16
  body : β
  delay : Nat

/-- A posted `MSG_STUN_SEND`, with the time at which it comes. -/
structure Posted where
  request : Nat
  due : Nat

/-- What happens to a request, with times. -/
inductive Event (β : Type) where
  | started (request : Nat) (id : List UInt8) (body : β) (due : Nat)
  | sent (request time : Nat)
  | posted (request due : Nat)
  | onResponse (request : Nat)
  | onErrorResponse (request : Nat)
  | onTimeout (request time : Nat)
  | removed (request : Nat)
  deriving DecidableEq

def Event.request : Event β → Nat
  | .started request _ _ _ => request
  | .sent request _ => request
  | .posted request _ => request
  | .onResponse request => request
  | .onErrorResponse request => request
  | .onTimeout request _ => request
  | .removed request => request

/-- The objects are the requests that are not deleted, and the index is the map. -/
structure Manager (β : Type) where
  requests : Registry (List UInt8) (Request β)
  queue : List Posted
  now : Nat
  log : List (Event β)

namespace Manager

def new : Manager β :=
  ⟨.empty, [], 0, []⟩

def record (m : Manager β) (event : Event β) : Manager β :=
  { m with log := m.log ++ [event] }

/-- `SendDelayed`. -/
def sendDelayed (m : Manager β) (request : NewRequest β) : Manager β where
  requests := m.requests.add Request.id ⟨request.id, request.type, request.body, 0, false⟩
  queue := m.queue ++ [⟨m.requests.next, m.now + request.delay⟩]
  now := m.now
  log := m.log ++ [.started m.requests.next request.id request.body (m.now + request.delay)]

def sendAll (m : Manager β) (requests : List (NewRequest β)) : Manager β :=
  requests.foldl sendDelayed m

/-- `Remove`, which the destructor of a request calls. -/
def remove (m : Manager β) (request : Nat) : Manager β :=
  { m with
    requests := m.requests.remove Request.id request
    queue := m.queue.filter fun posted => posted.request ≠ request }

/-- `Remove` from outside. -/
def removeCall (m : Manager β) (request : Nat) : Manager β :=
  if (m.requests.objects request).isSome then (m.record (.removed request)).remove request else m

/-- The requests in the map. -/
def outstanding (m : Manager β) : List Nat :=
  (List.range m.requests.next).filter fun request =>
    (m.requests.objects request).any fun object => m.requests.index object.id = some request

def clear (m : Manager β) : Manager β :=
  m.outstanding.foldl removeCall m

/-- A callback is called, which sends requests, and the request is deleted. -/
def finish (m : Manager β) (event : Event β) (calls : List (NewRequest β)) : Manager β :=
  ((m.record event).sendAll calls).remove event.request

/-- `CheckResponse` of a message. -/
def checkResponse (m : Manager β) (msg : Message) (calls : List (NewRequest β)) :
    Bool × Manager β :=
  match m.requests.index msg.transactionId with
  | none => (false, m)
  | some request =>
      match m.requests.objects request with
      | none => (false, m)
      | some object =>
          if msg.type = responseType object.type then (true, m.finish (.onResponse request) calls)
          else if msg.type = errorResponseType object.type then
            (true, m.finish (.onErrorResponse request) calls)
          else (false, m)

/-- `CheckResponse` of bytes. -/
def checkResponseBytes (m : Manager β) (data : List UInt8) (calls : List (NewRequest β)) :
    Bool × Manager β :=
  if data.length < 20 then (false, m)
  else
    match m.requests.index (StunRequestManager.slice data) with
    | none => (false, m)
    | some _ =>
        match Message.new.read data with
        | (false, _, _) => (false, m)
        | (true, msg, _) => m.checkResponse msg calls

/-- A request is sent, and its next message posted. -/
def sendNow (nextDelay : NextDelay β) (m : Manager β) (request : Nat) (object : Request β) :
    Manager β :=
  let next := nextDelay object.body object.count object.timeout
  { requests := m.requests.modify request fun object =>
      { object with count := next.2.1, timeout := next.2.2 }
    queue := m.queue ++ [⟨request, m.now + next.1⟩]
    now := m.now
    log := m.log ++ [.sent request m.now, .posted request (m.now + next.1)] }

/-- `OnMessage` of a request. -/
def onMessage (nextDelay : NextDelay β) (m : Manager β) (request : Nat)
    (calls : List (NewRequest β)) : Manager β :=
  match m.requests.objects request with
  | none => m
  | some object =>
      if object.timeout then m.finish (.onTimeout request m.now) calls
      else m.sendNow nextDelay request object

end Manager

/-- What happens to a manager; a message that is due comes from any place of the queue. -/
inductive Input (β : Type) where
  | send (request : NewRequest β)
  | message (place : Nat) (calls : List (NewRequest β))
  | response (msg : Message) (calls : List (NewRequest β))
  | bytes (data : List UInt8) (calls : List (NewRequest β))
  | remove (request : Nat)
  | clear
  | elapse (ms : Nat)

namespace Manager

def step (nextDelay : NextDelay β) (m : Manager β) : Input β → Manager β
  | .send request => m.sendDelayed request
  | .message place calls =>
      match m.queue[place]? with
      | none => m
      | some posted =>
          if posted.due ≤ m.now then
            { m with queue := m.queue.eraseIdx place }.onMessage nextDelay posted.request calls
          else m
  | .response msg calls => (m.checkResponse msg calls).2
  | .bytes data calls => (m.checkResponseBytes data calls).2
  | .remove request => m.removeCall request
  | .clear => m.clear
  | .elapse ms => { m with now := m.now + ms }

/-- The requests that an input brings. -/
def brought : Input β → List (NewRequest β)
  | .send request => [request]
  | .message _ calls => calls
  | .response _ calls => calls
  | .bytes _ calls => calls
  | _ => []

/-- Their ids are not in use, which `SendDelayed` asserts. -/
def FreshIds (m : Manager β) (input : Input β) : Prop :=
  ((brought input).map NewRequest.id).Nodup ∧
    ∀ request ∈ brought input, m.requests.index request.id = none

instance decidableFreshIds (m : Manager β) (input : Input β) : Decidable (m.FreshIds input) :=
  inferInstanceAs (Decidable (_ ∧ _))

end Manager

end Libjingle.Stun.Resending
