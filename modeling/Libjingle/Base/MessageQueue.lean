import Libjingle.Std.BinaryHeap
import Libjingle.Std.Word

/-!
# `MessageQueue`

`talk/base/messagequeue.cc`: a list of posted messages, a priority queue of delayed
ones and a slot for a message that was peeked at. The data of a message is a
parameter, which the queue hands through. `Get` gives up the lock while it waits, so
it is modelled turn by turn.
-/

namespace Libjingle.Base

open Libjingle.Std

variable {δ : Type}

/-- `MQID_ANY`. -/
def mqidAny : Nat := 2 ^ 32 - 1

/-- `MQID_DISPOSE`. -/
def mqidDispose : Nat := 2 ^ 32 - 2

/-- `kForever`. -/
def kForever : Int := -1

/-- `HALF`. -/
def half : Nat := 2 ^ 31

/-- `TimeIsLater`. -/
def timeIsLater (earlier later : Nat) : Prop :=
  0 < timeDiff later earlier ∧ sub32 later earlier < half

instance (earlier later : Nat) : Decidable (timeIsLater earlier later) :=
  inferInstanceAs (Decidable (_ ∧ _))

structure Message (δ : Type) where
  phandler : Option Nat
  messageId : Nat
  pdata : δ
  deriving DecidableEq, Repr

def Message.matches (m : Message δ) (handler : Option Nat) (id : Nat) : Prop :=
  (handler = none ∨ handler = m.phandler) ∧ (id = mqidAny ∨ id = m.messageId)

instance (m : Message δ) (handler : Option Nat) (id : Nat) : Decidable (m.matches handler id) :=
  inferInstanceAs (Decidable (_ ∧ _))

structure DelayedMessage (δ : Type) where
  cmsDelay : Int
  msTrigger : Nat
  num : Nat
  msg : Message δ
  deriving DecidableEq, Repr

/-- `DelayedMessage::operator<`: the message to deliver first is the greatest. -/
def DelayedMessage.lt (a b : DelayedMessage δ) : Prop :=
  b.msTrigger < a.msTrigger ∨ b.msTrigger = a.msTrigger ∧ b.num < a.num

instance : DecidableRel (DelayedMessage.lt (δ := δ)) := fun _ _ =>
  inferInstanceAs (Decidable (_ ∨ _))

theorem DelayedMessage.weakOrder : WeakOrder (DelayedMessage.lt (δ := δ)) where
  irrefl a := by simp [lt]
  trans a b c := by
    simp only [lt]
    omega
  total a b := by
    simp only [lt]
    omega

/-- The heap operations that the priority queue uses. -/
abbrev DelayHeap (δ : Type) := HeapOps (DelayedMessage.lt (δ := δ))

/-- The slot holds a message while `fPeekKeep_` is set. -/
structure MessageQueue (δ : Type) where
  msgPeek : Option (Message δ) := none
  msgq : List (Message δ) := []
  dmsgq : List (DelayedMessage δ) := []
  dmsgqNextNum : Nat := 0
  fStop : Bool := false
  deriving DecidableEq, Repr

namespace MessageQueue

variable (heap : DelayHeap δ)

def post (q : MessageQueue δ) (handler : Option Nat) (id : Nat) (data : δ) : MessageQueue δ :=
  if q.fStop then q
  else { q with msgq := q.msgq ++ [{ phandler := handler, messageId := id, pdata := data }] }

def doDelayPost (q : MessageQueue δ) (cmsDelay : Int) (tstamp : Nat) (handler : Option Nat)
    (id : Nat) (data : δ) : MessageQueue δ :=
  if q.fStop then q
  else
    let msg : Message δ := { phandler := handler, messageId := id, pdata := data }
    let dmsg := { cmsDelay, msTrigger := tstamp, num := q.dmsgqNextNum, msg }
    { q with dmsgq := heap.push q.dmsgq dmsg, dmsgqNextNum := add32 q.dmsgqNextNum 1 }

def postDelayed (q : MessageQueue δ) (time cmsDelay : Nat) (handler : Option Nat) (id : Nat)
    (data : δ) : MessageQueue δ :=
  q.doDelayPost heap cmsDelay (add32 time cmsDelay) handler id data

def postAt (q : MessageQueue δ) (time tstamp : Nat) (handler : Option Nat) (id : Nat) (data : δ) :
    MessageQueue δ :=
  q.doDelayPost heap (timeDiff tstamp time) tstamp handler id data

/-- The delayed messages that have been triggered go to the end of the list, the one on
top of the heap first. A heap of `count` messages takes at most that many turns. -/
def moveTriggered : Nat → MessageQueue δ → Nat → MessageQueue δ
  | 0, q, _ => q
  | count + 1, q, msCurrent =>
    match q.dmsgq with
    | [] => q
    | top :: _ =>
      if timeIsLater msCurrent top.msTrigger then q
      else
        moveTriggered count { q with msgq := q.msgq ++ [top.msg], dmsgq := heap.pop q.dmsgq }
          msCurrent

/-- The first posted message, after the messages in front of it that only dispose of
their data. -/
def takePosted : List (Message δ) → Option (Message δ) × List (Message δ)
  | [] => (none, [])
  | m :: rest => if m.messageId = mqidDispose then takePosted rest else (some m, rest)

/-- What `Get` does with the queues while it holds the lock. -/
def scan (q : MessageQueue δ) (msCurrent : Nat) : Option (Message δ) × MessageQueue δ :=
  let q := moveTriggered heap q.dmsgq.length q msCurrent
  let (found, msgq) := takePosted q.msgq
  (found, { q with msgq })

/-- The messages removed, and the queue without them. -/
def clear (q : MessageQueue δ) (handler : Option Nat) (id : Nat) :
    List (Message δ) × MessageQueue δ :=
  let gone (m : Message δ) : Bool := m.matches handler id
  (q.msgPeek.toList.filter gone ++ q.msgq.filter gone ++
      (q.dmsgq.filter fun d => gone d.msg).map DelayedMessage.msg,
    { q with
      msgPeek := q.msgPeek.filter fun m => !gone m
      msgq := q.msgq.filter fun m => !gone m
      dmsgq := heap.make (q.dmsgq.filter fun d => !gone d.msg) })

end MessageQueue

/-! ## Calls over time -/

/-- A call of `Get` that waits, for itself or on behalf of `Peek`. -/
structure Waiting where
  msStart : Nat
  cmsWait : Int
  peek : Bool
  deriving DecidableEq, Repr

/-- How far a call of `Get` or `Peek` has got. -/
inductive Answer (δ : Type)
  | waits (waiting : Waiting)
  | fails
  | returns (m : Message δ)
  deriving DecidableEq, Repr

namespace MessageQueue

variable (heap : DelayHeap δ)

/-- A turn of the loop in `Get`, up to the next wait. `Peek` keeps what it gets. -/
def turn (q : MessageQueue δ) (waiting : Waiting) (msCurrent : Nat) :
    Answer δ × MessageQueue δ :=
  match q.scan heap msCurrent with
  | (some m, q) => (.returns m, if waiting.peek then { q with msgPeek := some m } else q)
  | (none, q) => (if q.fStop then .fails else .waits waiting, q)

def get (q : MessageQueue δ) (cmsWait : Int) (time : Nat) : Answer δ × MessageQueue δ :=
  match q.msgPeek with
  | some m => (.returns m, { q with msgPeek := none })
  | none => q.turn heap { msStart := time, cmsWait, peek := false } time

def peek (q : MessageQueue δ) (cmsWait : Int) (time : Nat) : Answer δ × MessageQueue δ :=
  match q.msgPeek with
  | some m => (.returns m, q)
  | none => q.turn heap { msStart := time, cmsWait, peek := true } time

/-- `ss_->Wait` has returned. -/
def awake (q : MessageQueue δ) (waiting : Waiting) (waited : Bool) (time : Nat) :
    Answer δ × MessageQueue δ :=
  if ¬ waited then (.fails, q)
  else if waiting.cmsWait ≠ kForever ∧ waiting.cmsWait ≤ timeDiff time waiting.msStart then
    (.fails, q)
  else q.turn heap waiting time

end MessageQueue

end Libjingle.Base
