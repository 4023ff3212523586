import Libjingle.Base.MessageQueue

/-!
# A message queue whose triggers grow

As long as nobody posts a message that is due before those that are there, the list and the heap are
one list of messages, which are posted at its end and returned from its front.
-/

namespace Libjingle.Base

open Libjingle.Std

namespace MessageQueue

variable {δ : Type} {q : MessageQueue δ} {pending : List (Message δ)} {bound time : Nat}
  {heap : DelayHeap δ}

/-- The queue holds these messages in this order. No trigger is above the bound. -/
structure Holds (q : MessageQueue δ) (pending : List (Message δ)) (bound : Nat) : Prop where
  noPeek : q.msgPeek = none
  running : q.fStop = false
  heap : IsHeap DelayedMessage.lt q.dmsgq
  listed : ∃ delayed : List (DelayedMessage δ), delayed.Perm q.dmsgq ∧
    delayed.Pairwise (fun d e => e.lt d) ∧ pending = q.msgq ++ delayed.map DelayedMessage.msg
  numbered : ∀ d ∈ q.dmsgq, d.num < q.dmsgqNextNum
  bounded : ∀ d ∈ q.dmsgq, d.msTrigger ≤ bound
  kept : ∀ msg ∈ pending, msg.messageId ≠ mqidDispose

theorem Holds.new (bound : Nat) : Holds ({} : MessageQueue δ) [] bound where
  noPeek := rfl
  running := rfl
  heap := isHeap_nil
  listed := ⟨[], .refl _, .nil, rfl⟩
  numbered _ listed := absurd listed List.not_mem_nil
  bounded _ listed := absurd listed List.not_mem_nil
  kept _ listed := absurd listed List.not_mem_nil

/-- The messages are those of the list and of the heap. -/
theorem Holds.perm (holds : q.Holds pending bound) :
    pending.Perm (q.msgq ++ q.dmsgq.map DelayedMessage.msg) := by
  obtain ⟨delayed, perm, -, rfl⟩ := holds.listed
  exact (perm.map _).append_left _

/-- A message that is due after those in the heap goes to the end. -/
theorem Holds.doDelayPost (holds : q.Holds pending bound) {cmsDelay : Int} {tstamp id : Nat}
    {handler : Option Nat} {data : δ} (forward : q.dmsgq = [] ∨ bound ≤ tstamp)
    (counts : q.dmsgqNextNum + 1 < 2 ^ 32) (kept : id ≠ mqidDispose) :
    (q.doDelayPost heap cmsDelay tstamp handler id data).Holds (pending ++ [⟨handler, id, data⟩])
      tstamp := by
  obtain ⟨delayed, perm, sorted, rfl⟩ := holds.listed
  have earlier : ∀ d ∈ q.dmsgq, d.msTrigger ≤ tstamp := by
    intro d d_mem
    rcases forward with empty | later
    · exact absurd (empty ▸ d_mem) List.not_mem_nil
    · exact (holds.bounded d d_mem).trans later
  unfold MessageQueue.doDelayPost
  rw [holds.running, if_neg Bool.false_ne_true]
  dsimp only
  generalize fresh : (⟨_, tstamp, q.dmsgqNextNum, ⟨handler, id, data⟩⟩ : DelayedMessage δ) = new
  have pushed := heap.push_perm q.dmsgq new holds.heap
  have behind : ∀ d ∈ q.dmsgq, new.lt d := by
    intro d d_mem
    have before := earlier d d_mem
    have number := holds.numbered d d_mem
    subst fresh
    simp only [DelayedMessage.lt]
    omega
  refine ⟨holds.noPeek, rfl, heap.push_heap _ _ holds.heap,
    ⟨delayed ++ [new], ?_, ?_, ?_⟩, ?_, ?_, ?_⟩
  · exact (List.perm_append_singleton new delayed).trans ((perm.cons new).trans pushed.symm)
  · refine List.pairwise_append.mpr ⟨sorted, List.pairwise_singleton _ _, fun d d_mem e e_mem => ?_⟩
    rw [List.mem_singleton.mp e_mem]
    exact behind d (perm.mem_iff.mp d_mem)
  · subst fresh
    simp
  · intro d d_mem
    dsimp only
    rw [add32_of_lt counts]
    rcases List.mem_cons.mp (pushed.mem_iff.mp d_mem) with rfl | d_mem
    · subst fresh
      exact Nat.lt_succ_self _
    · exact Nat.lt_succ_of_lt (holds.numbered d d_mem)
  · intro d d_mem
    rcases List.mem_cons.mp (pushed.mem_iff.mp d_mem) with rfl | d_mem
    · subst fresh
      exact Nat.le_refl _
    · exact earlier d d_mem
  · intro msg msg_mem
    rcases List.mem_append.mp msg_mem with msg_mem | msg_mem
    · exact holds.kept msg msg_mem
    · rw [List.mem_singleton.mp msg_mem]
      exact kept

/-- What is on top of the heap is the first one behind the list. -/
theorem Holds.move (holds : q.Holds pending bound) {top : DelayedMessage δ}
    {rest : List (DelayedMessage δ)} (shape : q.dmsgq = top :: rest) :
    Holds { q with msgq := q.msgq ++ [top.msg], dmsgq := heap.pop q.dmsgq } pending bound := by
  obtain ⟨delayed, perm, sorted, rfl⟩ := holds.listed
  have whole := holds.heap
  rw [shape] at whole perm
  have popped := heap.pop_perm top rest whole
  have stays : ∀ d ∈ heap.pop q.dmsgq, d ∈ q.dmsgq := by
    intro d d_mem
    rw [shape] at d_mem ⊢
    exact List.mem_cons_of_mem top (popped.mem_iff.mp d_mem)
  obtain ⟨first, others, rfl⟩ : ∃ first others, delayed = first :: others := by
    cases delayed with
    | nil => exact absurd perm.length_eq (by simp)
    | cons first others => exact ⟨first, others, rfl⟩
  obtain ⟨before, later⟩ := List.pairwise_cons.mp sorted
  have same : top = first := by
    have top_mem := perm.symm.subset List.mem_cons_self
    rcases List.mem_cons.mp top_mem with same | behind
    · exact same
    · exact absurd (before top behind)
        (whole.first_greatest DelayedMessage.weakOrder first (perm.subset List.mem_cons_self))
  subst same
  have left : others.Perm (heap.pop q.dmsgq) := by
    rw [shape]
    exact (List.Perm.cons_inv perm).trans popped.symm
  exact
    { noPeek := holds.noPeek
      running := holds.running
      heap := shape ▸ heap.pop_heap top rest whole
      listed := ⟨others, left, later, by simp⟩
      numbered := fun d d_mem => holds.numbered d (stays d d_mem)
      bounded := fun d d_mem => holds.bounded d (stays d d_mem)
      kept := holds.kept }

theorem Holds.moveTriggered (holds : q.Holds pending bound) (count msCurrent : Nat) :
    (q.moveTriggered heap count msCurrent).Holds pending bound := by
  induction count generalizing q with
  | zero => exact holds
  | succ count ih =>
    rw [MessageQueue.moveTriggered]
    split
    · exact holds
    · next top rest shape =>
      split
      · exact holds
      · exact ih (holds.move shape)

/-- `Get` returns the first message, or finds none due. -/
theorem Holds.get (holds : q.Holds pending bound) (cmsWait : Int) (time : Nat) :
    (∃ msg rest, pending = msg :: rest ∧ (q.get heap cmsWait time).1 = .returns msg ∧
        (q.get heap cmsWait time).2.Holds rest bound) ∨
      (∀ msg, (q.get heap cmsWait time).1 ≠ .returns msg) ∧
        (q.get heap cmsWait time).2.Holds pending bound := by
  have moved : Holds (MessageQueue.moveTriggered heap q.dmsgq.length q time) pending bound :=
    holds.moveTriggered _ _
  unfold MessageQueue.get turn scan
  rw [holds.noPeek]
  dsimp only
  generalize MessageQueue.moveTriggered heap q.dmsgq.length q time = r at moved
  cases queue : r.msgq with
  | nil =>
    right
    constructor
    · intro msg
      simp only [takePosted]
      split <;> simp
    · simp only [takePosted]
      exact ⟨moved.noPeek, moved.running, moved.heap, queue ▸ moved.listed, moved.numbered,
        moved.bounded, moved.kept⟩
  | cons msg msgq =>
    left
    obtain ⟨delayed, perm, sorted, whole⟩ := moved.listed
    rw [queue] at whole
    have stays : msg.messageId ≠ mqidDispose := moved.kept msg (whole ▸ List.mem_cons_self)
    refine ⟨msg, msgq ++ delayed.map DelayedMessage.msg, whole, ?_, ?_⟩
    · simp [takePosted, stays]
    · simp only [takePosted, if_neg stays, Bool.false_eq_true, if_false]
      exact
        { noPeek := moved.noPeek
          running := moved.running
          heap := moved.heap
          listed := ⟨delayed, perm, sorted, rfl⟩
          numbered := moved.numbered
          bounded := moved.bounded
          kept := fun other mem => moved.kept other (whole ▸ List.mem_cons_of_mem msg mem) }

/-- What is due has left the heap. -/
theorem moveTriggered_due (holds : q.Holds pending bound) {count : Nat}
    (enough : q.dmsgq.length ≤ count) (due : ∀ d ∈ q.dmsgq, ¬ timeIsLater time d.msTrigger) :
    (q.moveTriggered heap count time).dmsgq = [] := by
  induction count generalizing q with
  | zero => exact List.eq_nil_of_length_eq_zero (Nat.le_zero.mp enough)
  | succ count ih =>
    rw [MessageQueue.moveTriggered]
    split
    · next empty => exact empty
    · next top rest shape =>
      have popped := heap.pop_perm top rest (shape ▸ holds.heap)
      rw [if_neg (due top (shape ▸ List.mem_cons_self))]
      refine ih (holds.move shape) ?_ fun d d_mem => due d ?_
      · rw [shape] at enough ⊢
        rw [popped.length_eq]
        exact Nat.le_of_succ_le_succ enough
      · rw [shape] at d_mem ⊢
        exact List.mem_cons_of_mem top (popped.mem_iff.mp d_mem)

theorem moveTriggered_dmsgqNextNum (heap : DelayHeap δ) (q : MessageQueue δ) (count time : Nat) :
    (q.moveTriggered heap count time).dmsgqNextNum = q.dmsgqNextNum := by
  induction count generalizing q with
  | zero => rfl
  | succ count ih =>
    rw [MessageQueue.moveTriggered]
    split
    · rfl
    · split
      · rfl
      · rw [ih]

theorem Holds.get_dmsgqNextNum (holds : q.Holds pending bound) (cmsWait : Int) :
    (q.get heap cmsWait time).2.dmsgqNextNum = q.dmsgqNextNum := by
  unfold MessageQueue.get turn scan
  rw [holds.noPeek, ← moveTriggered_dmsgqNextNum heap q q.dmsgq.length time]
  dsimp only
  cases (takePosted (q.moveTriggered heap q.dmsgq.length time).msgq).1 <;> rfl

/-- A message that is due is returned. -/
theorem Holds.get_due {msg : Message δ} (holds : q.Holds (msg :: pending) bound) (cmsWait : Int)
    (due : ∀ d ∈ q.dmsgq, ¬ timeIsLater time d.msTrigger) :
    (q.get heap cmsWait time).1 = .returns msg ∧ (q.get heap cmsWait time).2.Holds pending bound := by
  rcases holds.get cmsWait time with ⟨first, rest, whole, found, left⟩ | ⟨none, -⟩
  · cases whole
    exact ⟨found, left⟩
  · have moved : Holds (MessageQueue.moveTriggered heap q.dmsgq.length q time) (msg :: pending) bound :=
      holds.moveTriggered _ _
    obtain ⟨delayed, perm, -, whole⟩ := moved.listed
    rw [moveTriggered_due holds (Nat.le_refl _) due] at perm
    rw [perm.eq_nil, List.map_nil, List.append_nil] at whole
    have stays := moved.kept msg List.mem_cons_self
    refine absurd ?_ (none msg)
    unfold MessageQueue.get turn scan
    rw [holds.noPeek]
    dsimp only
    rw [← whole]
    simp [takePosted, stays]

/-- A queue of no messages is in order whatever the time. -/
theorem Holds.empty (holds : q.Holds [] bound) (other : Nat) : q.Holds [] other := by
  have nothing := holds.perm.symm.eq_nil
  obtain ⟨-, heap⟩ := List.append_eq_nil_iff.mp nothing
  refine { holds with bounded := fun d d_mem => ?_ }
  rw [List.map_eq_nil_iff.mp heap] at d_mem
  cases d_mem

/-- A message that is posted to an empty queue is due at its time. -/
theorem Holds.doDelayPost_empty (holds : q.Holds [] bound) {cmsDelay : Int} {tstamp id : Nat}
    {handler : Option Nat} {data : δ} (counts : q.dmsgqNextNum + 1 < 2 ^ 32) (kept : id ≠ mqidDispose) :
    (q.doDelayPost heap cmsDelay tstamp handler id data).Holds [⟨handler, id, data⟩] tstamp ∧
      (∀ d ∈ (q.doDelayPost heap cmsDelay tstamp handler id data).dmsgq, d.msTrigger = tstamp) ∧
      (q.doDelayPost heap cmsDelay tstamp handler id data).dmsgqNextNum = q.dmsgqNextNum + 1 := by
  have nothing := holds.perm.symm.eq_nil
  have empty := List.map_eq_nil_iff.mp (List.append_eq_nil_iff.mp nothing).2
  refine ⟨holds.doDelayPost (.inl empty) counts kept, fun d d_mem => ?_, ?_⟩
  · unfold MessageQueue.doDelayPost at d_mem
    rw [holds.running, if_neg Bool.false_ne_true] at d_mem
    have pushed := (heap.push_perm _ _ holds.heap).mem_iff.mp d_mem
    rw [empty, List.mem_singleton] at pushed
    rw [pushed]
  · unfold MessageQueue.doDelayPost
    rw [holds.running, if_neg Bool.false_ne_true]
    exact add32_of_lt counts

end MessageQueue

end Libjingle.Base
