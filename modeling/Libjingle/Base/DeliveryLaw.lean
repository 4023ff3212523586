import Libjingle.Base.DeliveryOrder
import Libjingle.Std.Trace
import Mathlib.Data.List.Perm.Subperm

/-!
# The law of delivery

A message queue over time, with the record of what was posted and what has been
returned. Every call keeps the law as long as the triggers in the heap are on one
side of the wrap of the clock and no trigger comes before one that has already left
the heap.
-/

namespace Libjingle.Base

open Libjingle.Std

/-- A call on the queue, or the return of a call that waits. -/
inductive QueueCall
  | post (handler : Option Nat) (id : Nat)
  | postDelayed (cmsDelay : Nat) (handler : Option Nat) (id : Nat)
  | postAt (tstamp : Nat) (handler : Option Nat) (id : Nat)
  | get (cmsWait : Int)
  | peek (cmsWait : Int)
  | awake (waited : Bool)
  | clear (handler : Option Nat) (id : Nat)
  | quit
  | restart
  deriving DecidableEq, Repr

/-- A call some time after the one before it. -/
structure TimedCall where
  elapsed : Nat
  call : QueueCall
  deriving DecidableEq, Repr

/-- The queue at a time, the call of `Get` that waits, the messages that were posted
and neither returned nor cleared, those that `Get` has returned, and the number of
postings. -/
structure TimedQueue where
  clock : Int
  queue : MessageQueue Posting := {}
  waiting : Option Waiting := none
  pending : List (Message Posting) := []
  returned : List (Message Posting) := []
  count : Nat := 0
  deriving DecidableEq, Repr

namespace TimedQueue

variable (ops : DelayHeap Posting)

def now (o : TimedQueue) (input : TimedCall) : Int :=
  o.clock + input.elapsed

/-- The time that the code means by a time stamp: the nearest one. -/
def instant (now : Int) (tstamp : Nat) : Int :=
  now + timeDiff tstamp (stamp now)

/-- What a call of `Get` or `Peek` gets to: its answer, the queue behind it and whether
the message stays in the queue. The thread that waits makes no other such call. -/
def answer (o : TimedQueue) (input : TimedCall) :
    Option (Answer Posting × MessageQueue Posting × Bool) :=
  let time := stamp (o.now input)
  match input.call, o.waiting with
  | .get cmsWait, none =>
    let (answer, queue) := o.queue.get ops cmsWait time
    some (answer, queue, false)
  | .peek cmsWait, none =>
    let (answer, queue) := o.queue.peek ops cmsWait time
    some (answer, queue, true)
  | .awake waited, some waiting =>
    let (answer, queue) := o.queue.awake ops waiting waited time
    some (answer, queue, waiting.peek)
  | _, _ => none

/-- A message that disposes of its data is no longer pending once it has left the queue. -/
def stays (queue : MessageQueue Posting) (m : Message Posting) : Bool :=
  m.messageId ≠ mqidDispose ∨ m ∈ queue.contents

def answered (o : TimedQueue) (answer : Answer Posting) (queue : MessageQueue Posting)
    (keeps : Bool) : TimedQueue :=
  match answer with
  | .waits waiting =>
    { o with queue, waiting := some waiting, pending := o.pending.filter (stays queue) }
  | .fails => { o with queue, waiting := none, pending := o.pending.filter (stays queue) }
  | .returns m =>
    if keeps then { o with queue, waiting := none, pending := o.pending.filter (stays queue) }
    else
      { o with
        queue
        waiting := none
        pending := o.pending.filter fun n => n ≠ m ∧ stays queue n
        returned := o.returned ++ [m] }

/-- A posting is recorded, unless the queue has been stopped. -/
def posted (o : TimedQueue) (queue : MessageQueue Posting) (handler : Option Nat) (id : Nat)
    (trigger : Option Int) : TimedQueue :=
  let m : Message Posting := ⟨handler, id, ⟨o.count, trigger⟩⟩
  { o with
    queue
    pending := if o.queue.fStop then o.pending else o.pending ++ [m]
    count := o.count + 1 }

def step (o : TimedQueue) (input : TimedCall) : TimedQueue :=
  let now := o.now input
  let later := { o with clock := now }
  match input.call with
  | .post handler id =>
    later.posted (o.queue.post handler id ⟨o.count, none⟩) handler id none
  | .postDelayed cmsDelay handler id =>
    later.posted
      (o.queue.postDelayed ops (stamp now) cmsDelay handler id ⟨o.count, some (now + cmsDelay)⟩)
      handler id (some (now + cmsDelay))
  | .postAt tstamp handler id =>
    later.posted
      (o.queue.postAt ops (stamp now) tstamp handler id ⟨o.count, some (instant now tstamp)⟩)
      handler id (some (instant now tstamp))
  | .get _ | .peek _ | .awake _ =>
    match o.answer ops input with
    | none => later
    | some (answer, queue, keeps) => later.answered answer queue keeps
  | .clear handler id =>
    { later with
      queue := (o.queue.clear ops handler id).2
      pending := o.pending.filter fun m => !decide (m.matches handler id) }
  | .quit => { later with queue := { o.queue with fStop := true } }
  | .restart => { later with queue := { o.queue with fStop := false } }

abbrev run (o : TimedQueue) (inputs : List TimedCall) : TimedQueue :=
  runInputs (step ops) o inputs

/-- When a posting is to be delivered. -/
def trigger (o : TimedQueue) (input : TimedCall) : Option Int :=
  match input.call with
  | .postDelayed cmsDelay _ _ => some (o.now input + cmsDelay)
  | .postAt tstamp _ _ => some (instant (o.now input) tstamp)
  | _ => none

/-- Times are within the range of the clock: delays and time stamps as the calls take
them, and no pending trigger further than half the range away when the queue is read. -/
def InRange (o : TimedQueue) (input : TimedCall) : Prop :=
  match input.call with
  | .postDelayed cmsDelay _ _ => cmsDelay < 2 ^ 31
  | .postAt tstamp _ _ => tstamp < 2 ^ 32
  | .get _ | .peek _ | .awake _ => ∀ m ∈ o.pending, m.pdata.InRange (o.now input)
  | _ => True

/-- A delayed message fits in with those that are pending. -/
def FitsIn (o : TimedQueue) (input : TimedCall) : Prop :=
  ∀ t ∈ o.trigger input, MessageQueue.Fits o.queue t

/-- What a call does under the law. -/
structure Lawful (o : TimedQueue) (input : TimedCall) : Prop where
  /-- The queue holds what is pending, each message once. -/
  held : (o.step ops input).queue.contents.Perm (o.step ops input).pending
  /-- No message is returned twice, or returned and still pending. -/
  once : (((o.step ops input).pending ++ (o.step ops input).returned).map
    fun m => m.pdata.serial).Nodup
  /-- The message returned was pending and is due, and none that is left precedes it. -/
  returns : ∀ m queue keeps, o.answer ops input = some (.returns m, queue, keeps) →
    m ∈ o.pending ∧ m.pdata.Due (o.now input) ∧
      ∀ n ∈ (o.step ops input).pending, ¬ n.pdata.Precedes m.pdata
  /-- Nothing is due when a call waits. -/
  waits : ∀ waiting queue keeps, o.answer ops input = some (.waits waiting, queue, keeps) →
    ∀ n ∈ (o.step ops input).pending, ¬ n.pdata.Due (o.now input)
  /-- What matches is removed, and nothing else; the rest stays in its order. -/
  clears : ∀ handler id, input.call = .clear handler id →
    (o.queue.clear ops handler id).1.Perm
        (o.pending.filter fun m => m.matches handler id) ∧
      (o.step ops input).pending = (o.pending.filter fun m => !decide (m.matches handler id)) ∧
      (o.step ops input).queue.ready = o.queue.ready.filter fun m => !decide (m.matches handler id)

/-! ## One call -/

variable {ops}

/-- What an answer of `Get` or `Peek` says about the queue before and behind it. -/
def Answered (q : MessageQueue Posting) (now : Int) (keeps : Bool) (answer : Answer Posting)
    (queue : MessageQueue Posting) : Prop :=
  match answer with
  | .returns m => ∃ r, q.Scanned now (some m) r ∧
      queue = if keeps then { r with msgPeek := some m } else r
  | .waits _ => q.Scanned now none queue
  | .fails => q.Scanned now none queue ∨ queue = q

section Calls

variable {q : MessageQueue Posting} {now : Int}

theorem turn_answered (inOrder : q.InOrder now) (noPeek : q.msgPeek = none)
    (range : ∀ d ∈ q.dmsgq, d.msg.pdata.InRange now) (waiting : Waiting) :
    Answered q now waiting.peek (q.turn ops waiting (stamp now)).1
      (q.turn ops waiting (stamp now)).2 := by
  have scanned := MessageQueue.scan_spec ops inOrder noPeek range
  unfold MessageQueue.turn
  generalize q.scan ops (stamp now) = out at scanned ⊢
  rcases out with ⟨found | m, r⟩
  · dsimp only at scanned ⊢
    split
    · exact .inl scanned
    · exact scanned
  · exact ⟨r, scanned, rfl⟩

/-- The message in the slot is the first one of the queue. -/
theorem slot_scanned (inOrder : q.InOrder now) {m : Message Posting}
    (slot : q.msgPeek = some m) : q.Scanned now (some m) { q with msgPeek := none } where
  inOrder := by rwa [← slot]
  kept := ⟨[], by simp, by simp [MessageQueue.contents, MessageQueue.ready, slot]⟩
  due n found := by
    obtain rfl : m = n := by simpa using found
    exact inOrder.due m (by simp [MessageQueue.ready, slot])
  first n found k listed := by
    obtain rfl : m = n := by simpa using found
    have order := inOrder.order
    simp only [MessageQueue.ready, slot, Option.toList_some, List.singleton_append,
      List.pairwise_cons] at order
    simp only [MessageQueue.contents, MessageQueue.ready, Option.toList_none, List.nil_append,
      List.mem_append] at listed
    rcases listed with posted | delayed
    · exact order.1 k posted
    · obtain ⟨d, dIn, rfl⟩ := List.mem_map.mp delayed
      exact inOrder.first m (by simp [MessageQueue.ready, slot]) d dIn
  nothing none := by cases none
  peek := rfl
  stop := rfl

theorem get_answered (inOrder : q.InOrder now) (range : ∀ d ∈ q.dmsgq, d.msg.pdata.InRange now)
    (cmsWait : Int) :
    Answered q now false (q.get ops cmsWait (stamp now)).1 (q.get ops cmsWait (stamp now)).2 := by
  unfold MessageQueue.get
  split
  · next m slot => exact ⟨_, slot_scanned inOrder slot, rfl⟩
  · next noPeek => exact turn_answered inOrder noPeek range _

theorem peek_answered (inOrder : q.InOrder now) (range : ∀ d ∈ q.dmsgq, d.msg.pdata.InRange now)
    (cmsWait : Int) :
    Answered q now true (q.peek ops cmsWait (stamp now)).1 (q.peek ops cmsWait (stamp now)).2 := by
  unfold MessageQueue.peek
  split
  · next m slot => exact ⟨_, slot_scanned inOrder slot, by simp [← slot]⟩
  · next noPeek => exact turn_answered inOrder noPeek range _

theorem awake_answered (inOrder : q.InOrder now) (noPeek : q.msgPeek = none)
    (range : ∀ d ∈ q.dmsgq, d.msg.pdata.InRange now) (waiting : Waiting) (waited : Bool) :
    Answered q now waiting.peek (q.awake ops waiting waited (stamp now)).1
      (q.awake ops waiting waited (stamp now)).2 := by
  unfold MessageQueue.awake
  split
  · exact .inr rfl
  split
  · exact .inr rfl
  · exact turn_answered inOrder noPeek range waiting

end Calls

/-! ## The invariant -/

/-- The queue is in order and holds what is pending. -/
structure Sound (o : TimedQueue) : Prop where
  inOrder : o.queue.InOrder o.clock
  held : o.queue.contents.Perm o.pending
  below : ∀ m ∈ o.pending ++ o.returned, m.pdata.serial < o.count
  once : ((o.pending ++ o.returned).map fun m => m.pdata.serial).Nodup
  idle : o.waiting ≠ none → o.queue.msgPeek = none

namespace Sound

variable {o : TimedQueue}

theorem initial (clock : Int) : Sound { clock } where
  inOrder := .initial
  held := .refl _
  below _ listed := absurd listed List.not_mem_nil
  once := .nil
  idle := fun waits => absurd rfl waits

theorem later (sound : Sound o) (elapsed : Nat) :
    Sound { o with clock := o.clock + elapsed } :=
  { sound with inOrder := sound.inOrder.later (by dsimp only; omega) }

theorem serial_lt (sound : Sound o) : ∀ m ∈ o.queue.contents, m.pdata.serial < o.count :=
  fun m listed => sound.below m (List.mem_append_left _ (sound.held.mem_iff.mp listed))

theorem nodup (sound : Sound o) : o.pending.Nodup := by
  have once := sound.once
  rw [List.map_append] at once
  exact .of_map _ (List.nodup_append.mp once).1

/-- Fewer messages are pending, of which some may have been returned. -/
theorem reduce (sound : Sound o) {pending returned : List (Message Posting)}
    (part : (pending ++ returned).Subperm (o.pending ++ o.returned)) :
    (∀ m ∈ pending ++ returned, m.pdata.serial < o.count) ∧
      ((pending ++ returned).map fun m => m.pdata.serial).Nodup := by
  obtain ⟨l, perm, sub⟩ := part
  refine ⟨fun m listed => sound.below m (sub.subset (perm.mem_iff.mpr listed)), ?_⟩
  exact (perm.map _).nodup_iff.mp (sound.once.sublist (sub.map _))

theorem posted (sound : Sound o) {queue : MessageQueue Posting} {handler : Option Nat} {id : Nat}
    {trigger : Option Int} (inOrder : queue.InOrder o.clock) (slot : queue.msgPeek = o.queue.msgPeek)
    (contents : queue.contents.Perm (if o.queue.fStop then o.queue.contents
      else o.queue.contents ++ [⟨handler, id, ⟨o.count, trigger⟩⟩])) :
    Sound (o.posted queue handler id trigger) where
  inOrder := inOrder
  held := by
    refine contents.trans ?_
    simp only [TimedQueue.posted]
    split
    · exact sound.held
    · exact sound.held.append_right _
  below := by
    simp only [TimedQueue.posted]
    split
    · exact fun m listed => Nat.lt_succ_of_lt (sound.below m listed)
    · intro m listed
      rw [List.mem_append, List.mem_append, List.mem_singleton] at listed
      rcases listed with (listed | rfl) | listed
      · exact Nat.lt_succ_of_lt (sound.below m (List.mem_append_left _ listed))
      · exact Nat.lt_succ_self _
      · exact Nat.lt_succ_of_lt (sound.below m (List.mem_append_right _ listed))
  once := by
    simp only [TimedQueue.posted]
    split
    · exact sound.once
    · have fresh : o.count ∉ (o.pending ++ o.returned).map fun m => m.pdata.serial := by
        intro listed
        obtain ⟨m, mIn, same⟩ := List.mem_map.mp listed
        exact absurd same (Nat.ne_of_lt (sound.below m mIn))
      have perm (m : Message Posting) :
          ((o.pending ++ [m]) ++ o.returned).Perm (m :: (o.pending ++ o.returned)) := by
        rw [List.append_assoc]
        exact List.perm_middle
      refine ((perm _).map fun m => m.pdata.serial).nodup_iff.mpr ?_
      exact List.nodup_cons.mpr ⟨fresh, sound.once⟩
  idle waits := slot.trans (sound.idle waits)

end Sound

/-- What a filter keeps, for a list that is known up to the order. -/
theorem filter_perm {α : Type} {l out kept : List α} {p : α → Bool} (perm : l.Perm (out ++ kept))
    (outside : ∀ x ∈ out, p x = false) (inside : ∀ x ∈ kept, p x = true) :
    (l.filter p).Perm kept := by
  refine (perm.filter p).trans (.of_eq ?_)
  rw [List.filter_append, List.filter_eq_self.mpr inside, List.filter_eq_nil_iff.mpr, List.nil_append]
  simpa using outside

section Scanned

variable {o : TimedQueue} {found : Option (Message Posting)} {m : Message Posting}
  {r : MessageQueue Posting}

theorem contents_slot (noPeek : r.msgPeek = none) :
    MessageQueue.contents { r with msgPeek := found } = found.toList ++ r.contents := by
  simp [MessageQueue.contents, MessageQueue.ready, noPeek]

/-- The messages that a turn has passed over are no longer in the queue. -/
theorem scanned_pending (sound : Sound o) (scanned : o.queue.Scanned o.clock found r) :
    ∃ disposed, (∀ n ∈ disposed, n.messageId = mqidDispose ∧ n ∉ found.toList ++ r.contents) ∧
      o.pending.Perm (disposed ++ (found.toList ++ r.contents)) := by
  obtain ⟨disposed, all, perm⟩ := scanned.kept
  have pending := (perm.trans sound.held).symm
  have distinct := pending.nodup_iff.mp sound.nodup
  refine ⟨disposed, fun n listed => ⟨all n listed, fun again => ?_⟩, pending⟩
  exact (List.nodup_append.mp distinct).2.2 n listed n again rfl

/-- A message that is kept stays pending, and so does all that a turn leaves. -/
theorem scanned_keeps (sound : Sound o) (scanned : o.queue.Scanned o.clock found r) :
    MessageQueue.contents { r with msgPeek := found } |>.Perm
      (o.pending.filter (stays { r with msgPeek := found })) := by
  obtain ⟨disposed, gone, pending⟩ := scanned_pending sound scanned
  rw [← contents_slot scanned.peek] at pending
  refine (filter_perm pending (fun n listed => ?_) fun n listed => ?_).symm
  · have out := gone n listed
    rw [← contents_slot scanned.peek] at out
    simp [stays, out.1, out.2]
  · simp [stays, listed]

/-- A message that is taken out was pending, and all that a turn leaves stays so. -/
theorem scanned_takes (sound : Sound o) (scanned : o.queue.Scanned o.clock (some m) r) :
    m ∈ o.pending ∧ r.contents.Perm (o.pending.filter fun n => n ≠ m ∧ stays r n) := by
  obtain ⟨disposed, gone, pending⟩ := scanned_pending sound scanned
  have distinct := pending.nodup_iff.mp sound.nodup
  have once : m ∉ r.contents := by
    have tail := (List.nodup_append.mp distinct).2.1
    exact (List.nodup_cons.mp tail).1
  refine ⟨pending.mem_iff.mpr (by simp), ?_⟩
  have regrouped : o.pending.Perm ((disposed ++ [m]) ++ r.contents) := by
    rwa [List.append_assoc]
  refine (filter_perm regrouped (fun n listed => ?_) fun n listed => ?_).symm
  · rcases List.mem_append.mp listed with disposes | isFound
    · obtain ⟨dispose, out⟩ := gone n disposes
      have notLeft : n ∉ r.contents := fun listed => out (List.mem_append_right _ listed)
      simp [stays, dispose, notLeft]
    · simp [List.mem_singleton.mp isFound]
  · have other : n ≠ m := fun same => once (same ▸ listed)
    simp [stays, other, listed]

end Scanned

section Answered

variable {o : TimedQueue} {answer : Answer Posting} {queue : MessageQueue Posting} {keeps : Bool}

/-- The queue keeps its messages when nothing is taken out. -/
theorem sound_of_kept (sound : Sound o) {waiting : Option Waiting} (inOrder : queue.InOrder o.clock)
    (idle : waiting ≠ none → queue.msgPeek = none)
    (held : queue.contents.Perm (o.pending.filter (stays queue))) :
    Sound { o with queue, waiting, pending := o.pending.filter (stays queue) } := by
  obtain ⟨below, once⟩ := sound.reduce
    ((List.filter_sublist (p := stays queue) (l := o.pending)).append_right o.returned).subperm
  exact { inOrder, held, below, once, idle }

/-- A message that is taken out has been returned. -/
theorem sound_of_taken (sound : Sound o) {m : Message Posting}
    (scanned : o.queue.Scanned o.clock (some m) queue) :
    Sound (o.answered (.returns m) queue false) := by
  obtain ⟨wasPending, held⟩ := scanned_takes sound scanned
  have inOrder : queue.InOrder o.clock := by
    refine scanned.inOrder.sub ?_ (fun d listed => listed) scanned.inOrder.heap rfl
    simp [MessageQueue.ready, scanned.peek]
  have notKept : m ∉ o.pending.filter fun n => n ≠ m ∧ stays queue n := by simp
  have part : ((o.pending.filter fun n => n ≠ m ∧ stays queue n) ++ (o.returned ++ [m])).Subperm
      (o.pending ++ o.returned) := by
    have front : ((o.pending.filter fun n => n ≠ m ∧ stays queue n) ++ [m]).Subperm o.pending := by
      refine (List.Nodup.subperm ?_ ?_)
      · rw [List.nodup_append]
        refine ⟨sound.nodup.filter _, List.nodup_singleton m, fun n kept k isM => ?_⟩
        rw [List.mem_singleton.mp isM]
        rintro rfl
        exact notKept kept
      · intro n listed
        rcases List.mem_append.mp listed with kept | isM
        · exact List.mem_of_mem_filter kept
        · exact List.mem_singleton.mp isM ▸ wasPending
    obtain ⟨l, perm, sub⟩ := front
    refine ⟨l ++ o.returned, ?_, sub.append_right _⟩
    refine (perm.append_right _).trans ?_
    rw [List.append_assoc]
    exact (List.perm_append_comm).append_left _
  obtain ⟨below, once⟩ := sound.reduce part
  exact { inOrder, held, below, once, idle := fun waits => absurd rfl waits }

theorem answered_sound (sound : Sound o)
    (answered : Answered o.queue o.clock keeps answer queue) :
    Sound (o.answered answer queue keeps) := by
  cases answer with
  | waits waiting =>
    have same : ({ queue with msgPeek := none } : MessageQueue Posting) = queue := by
      rw [← answered.peek]
    have held := scanned_keeps sound answered
    have inOrder := answered.inOrder
    rw [same] at held inOrder
    exact sound_of_kept sound inOrder (fun _ => answered.peek) held
  | fails =>
    have idle : (none : Option Waiting) ≠ none → queue.msgPeek = none := fun no => absurd rfl no
    rcases answered with scanned | rfl
    · have same : ({ queue with msgPeek := none } : MessageQueue Posting) = queue := by
        rw [← scanned.peek]
      have held := scanned_keeps sound scanned
      have inOrder := scanned.inOrder
      rw [same] at held inOrder
      exact sound_of_kept sound inOrder idle held
    · refine sound_of_kept sound sound.inOrder idle (sound.held.trans (.of_eq ?_))
      refine (List.filter_eq_self.mpr fun m listed => ?_).symm
      simp [stays, sound.held.mem_iff.mpr listed]
  | returns m =>
    obtain ⟨r, scanned, rfl⟩ := answered
    cases keeps with
    | false => exact sound_of_taken sound scanned
    | true =>
      exact sound_of_kept sound scanned.inOrder (fun no => absurd rfl no)
        (scanned_keeps sound scanned)

/-- The message returned was pending, is due, and is followed by what is left. -/
theorem answered_returns (sound : Sound o) {m : Message Posting}
    (answered : Answered o.queue o.clock keeps (.returns m) queue) :
    m ∈ o.pending ∧ m.pdata.Due o.clock ∧
      ∀ n ∈ (o.answered (.returns m) queue keeps).pending, ¬ n.pdata.Precedes m.pdata := by
  obtain ⟨r, scanned, rfl⟩ := answered
  obtain ⟨wasPending, taken⟩ := scanned_takes sound scanned
  refine ⟨wasPending, scanned.due m rfl, fun n listed => ?_⟩
  cases keeps with
  | false => exact scanned.first m rfl n (taken.mem_iff.mpr listed)
  | true =>
    have held := (scanned_keeps sound scanned).mem_iff.mpr listed
    rw [contents_slot scanned.peek, Option.toList_some, List.singleton_append, List.mem_cons] at held
    rcases held with rfl | left
    · exact Posting.not_precedes_self _
    · exact scanned.first m rfl n left

/-- Nothing that is left when a call waits is due. -/
theorem answered_waits (sound : Sound o) {waiting : Waiting}
    (answered : Answered o.queue o.clock keeps (.waits waiting) queue) :
    ∀ n ∈ (o.answered (.waits waiting) queue keeps).pending, ¬ n.pdata.Due o.clock := by
  intro n listed
  have same : ({ queue with msgPeek := none } : MessageQueue Posting) = queue := by
    rw [← answered.peek]
  have held := scanned_keeps sound answered
  rw [same] at held
  exact answered.nothing rfl n (held.mem_iff.mpr listed)

end Answered

/-! ## Every run -/

theorem stamp_instant {now : Int} {tstamp : Nat} (word : tstamp < 2 ^ 32) :
    stamp (instant now tstamp) = tstamp := by
  simp only [instant, timeDiff, toInt32, sub32, stamp]
  omega

theorem add32_stamp (now : Int) (cmsDelay : Nat) :
    add32 (stamp now) cmsDelay = stamp (now + cmsDelay) := by
  simp only [add32, stamp]
  omega

variable {o : TimedQueue} {input : TimedCall}

/-- Every answer comes from the queue at the time of the call. -/
theorem answer_answered (sound : Sound o) (inRange : o.InRange input)
    {answer : Answer Posting} {queue : MessageQueue Posting} {keeps : Bool}
    (answers : o.answer ops input = some (answer, queue, keeps)) :
    Answered o.queue (o.now input) keeps answer queue := by
  have inOrder := (sound.later input.elapsed).inOrder
  have range (all : ∀ m ∈ o.pending, m.pdata.InRange (o.now input)) :
      ∀ d ∈ o.queue.dmsgq, d.msg.pdata.InRange (o.now input) := fun d listed =>
    all _ (sound.held.mem_iff.mp (List.mem_append_right _ (List.mem_map_of_mem listed)))
  simp only [TimedQueue.answer] at answers
  split at answers
  · next cmsWait call free =>
    simp only [InRange, call] at inRange
    cases answers
    exact get_answered inOrder (range inRange) cmsWait
  · next cmsWait call free =>
    simp only [InRange, call] at inRange
    cases answers
    exact peek_answered inOrder (range inRange) cmsWait
  · next waited waiting call waits =>
    simp only [InRange, call] at inRange
    cases answers
    exact awake_answered inOrder (sound.idle (by simp [waits])) (range inRange) waiting waited
  · cases answers

variable (ops) in
/-- A delayed message that fits in is recorded like any other. -/
theorem delayed_sound (sound : Sound o) {t : Int} (fits : o.queue.Fits t) (cmsDelay : Int)
    (handler : Option Nat) (id : Nat) :
    Sound (o.posted (o.queue.doDelayPost ops cmsDelay (stamp t) handler id ⟨o.count, some t⟩)
      handler id (some t)) := by
  refine sound.posted (sound.inOrder.doDelayPost fits cmsDelay handler id sound.serial_lt) ?_ ?_
  · unfold MessageQueue.doDelayPost
    split <;> rfl
  · unfold MessageQueue.doDelayPost
    split
    · exact .refl _
    · simp only [MessageQueue.contents, MessageQueue.ready, List.append_assoc]
      refine .append_left _ (.append_left _ ?_)
      refine ((ops.push_perm _ _ sound.inOrder.heap).map _).trans ?_
      rw [List.map_cons]
      exact (List.perm_append_singleton _ _).symm

variable (ops) in
theorem step_sound (sound : Sound o) (inRange : o.InRange input) (fits : o.FitsIn input) :
    Sound (o.step ops input) := by
  have later := sound.later input.elapsed
  rcases input with ⟨elapsed, call⟩
  cases call with
  | post handler id =>
    refine later.posted (later.inOrder.post handler id later.serial_lt) ?_ ?_
    · unfold MessageQueue.post
      split <;> rfl
    · simp only [MessageQueue.post]
      split
      · exact .refl _
      · simp only [MessageQueue.contents, MessageQueue.ready, List.append_assoc]
        exact .append_left _ (.append_left _ List.perm_append_comm)
  | postDelayed cmsDelay handler id =>
    simp only [step, MessageQueue.postDelayed, add32_stamp]
    exact delayed_sound ops later (fits _ rfl) cmsDelay handler id
  | postAt tstamp handler id =>
    have delayed := delayed_sound ops later (fits _ rfl)
      (timeDiff tstamp (stamp (o.now ⟨elapsed, .postAt tstamp handler id⟩))) handler id
    rw [stamp_instant inRange] at delayed
    exact delayed
  | clear handler id =>
    obtain ⟨inOrder, -, kept, ready⟩ :=
      MessageQueue.clear_spec ops later.inOrder handler id
    obtain ⟨below, once⟩ := sound.reduce ((List.filter_sublist
      (p := fun m : Message Posting => !decide (m.matches handler id))
      (l := o.pending)).append_right o.returned).subperm
    refine { inOrder, held := kept.trans (sound.held.filter _), below, once, idle := ?_ }
    intro waits
    simp only [step, MessageQueue.clear, sound.idle waits, Option.filter_none]
  | quit => exact { later with inOrder := { later.inOrder with } }
  | restart => exact { later with inOrder := { later.inOrder with } }
  | get cmsWait =>
    simp only [step]
    split
    · exact later
    · next answers => exact answered_sound later (answer_answered sound inRange answers)
  | peek cmsWait =>
    simp only [step]
    split
    · exact later
    · next answers => exact answered_sound later (answer_answered sound inRange answers)
  | awake waited =>
    simp only [step]
    split
    · exact later
    · next answers => exact answered_sound later (answer_answered sound inRange answers)

/-- Where a call has an answer, the step goes by it. -/
theorem step_of_answer {answer : Answer Posting} {queue : MessageQueue Posting} {keeps : Bool}
    (answers : o.answer ops input = some (answer, queue, keeps)) :
    o.step ops input = { o with clock := o.now input }.answered answer queue keeps := by
  rcases input with ⟨elapsed, call⟩
  cases call with
  | get | peek | awake => simp only [step, answers]
  | _ => simp only [TimedQueue.answer] at answers; cases answers

theorem lawful_of_sound (sound : Sound o) (inRange : o.InRange input) (fits : o.FitsIn input) :
    Lawful ops o input := by
  have after := step_sound ops sound inRange fits
  have later := sound.later input.elapsed
  refine { held := after.held, once := after.once, returns := ?_, waits := ?_, clears := ?_ }
  · intro m queue keeps answers
    rw [step_of_answer answers]
    exact answered_returns later (answer_answered sound inRange answers)
  · intro waiting queue keeps answers
    rw [step_of_answer answers]
    exact answered_waits later (answer_answered sound inRange answers)
  · rintro handler id call
    obtain ⟨-, removed, -, ready⟩ :=
      MessageQueue.clear_spec ops sound.inOrder handler id
    refine ⟨removed.trans (sound.held.filter _), ?_, ?_⟩
    · simp only [step, call]
    · simpa only [step, call] using ready

/-- In every run whose calls are in range and whose delayed messages fit in, every call
keeps the law. -/
theorem lawful_of_run {ops : DelayHeap Posting} {clock : Int} {inputs : List TimedCall}
    {input : TimedCall}
    (fits : Along (step ops) (fun o input => o.InRange input ∧ o.FitsIn input) { clock }
      (inputs ++ [input])) :
    Lawful ops (run ops { clock } inputs) input := by
  have sound : Sound (run ops { clock } inputs) :=
    fits.front.invariant (fun _ _ ok sound => step_sound ops sound ok.1 ok.2) (.initial clock)
  exact lawful_of_sound sound fits.last.1 fits.last.2

/-! ## Two runs -/

instance (p : Posting) (now : Int) : Decidable (p.InRange now) :=
  inferInstanceAs (Decidable (∀ t ∈ p.trigger, _))

instance (q : MessageQueue Posting) (t : Int) : Decidable (q.Fits t) :=
  decidable_of_iff (_ ∧ _ ∧ _)
    ⟨fun ⟨side, behind, count⟩ => ⟨side, behind, count⟩,
      fun fits => ⟨fits.side, fits.behind, fits.count⟩⟩

instance (o : TimedQueue) (input : TimedCall) : Decidable (o.InRange input) := by
  unfold InRange
  split <;> infer_instance

instance (o : TimedQueue) (input : TimedCall) : Decidable (o.FitsIn input) :=
  inferInstanceAs (Decidable (∀ t ∈ o.trigger input, _))

/-- Heaps that are kept sorted. -/
def sortedDelays : DelayHeap Posting :=
  sortedHeaps DelayedMessage.lt DelayedMessage.weakOrder

/-- Two delayed messages in the reverse order of their triggers, a posted one, and calls
of `Peek` and `Get` once both are due. -/
theorem lawful_of_sample_run :
    Lawful sortedDelays
      (run sortedDelays { clock := 1000 }
        [⟨0, .postDelayed 20 (some 1) 1⟩, ⟨1, .postDelayed 10 (some 1) 2⟩, ⟨1, .post none 3⟩,
          ⟨30, .peek 0⟩, ⟨1, .get 0⟩, ⟨1, .get 0⟩])
      ⟨1, .get 0⟩ :=
  lawful_of_run (by decide)

/-- Two triggers on both sides of the wrap. -/
def acrossWrap : List TimedCall :=
  [⟨0, .postDelayed 50 (some 1) 1⟩, ⟨0, .postDelayed 200 (some 1) 2⟩]

/-- The message that is due waits behind the one after the wrap. -/
theorem wrapped_trigger_first :
    Along (step sortedDelays) InRange { clock := 2 ^ 32 - 100 } (acrossWrap ++ [⟨60, .get 0⟩]) ∧
      ¬ Lawful sortedDelays (run sortedDelays { clock := 2 ^ 32 - 100 } acrossWrap) ⟨60, .get 0⟩ := by
  refine ⟨by decide, fun lawful => ?_⟩
  let q := (run sortedDelays { clock := 2 ^ 32 - 100 } acrossWrap).queue
  have notDue := lawful.waits { msStart := 2 ^ 32 - 40, cmsWait := 0, peek := false } q false
    (by decide) ⟨some 1, 1, ⟨0, some (2 ^ 32 - 50)⟩⟩ (by decide)
  exact notDue fun t trigger => by
    cases trigger
    decide

end TimedQueue

end Libjingle.Base
