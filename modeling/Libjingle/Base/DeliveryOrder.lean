import Libjingle.Base.MessageQueue

/-!
# The order of delivery

The parts of a message queue as one ordered queue. Time is an integer here, of which
the code sees the low thirty-two bits, and the data of a message is the record of
its posting.
-/

namespace Libjingle.Base

open Libjingle.Std

/-- What the clock shows at a time. -/
def stamp (t : Int) : Nat :=
  (t % 2 ^ 32).toNat

/-- The circular difference of two times that are less than half the range apart. -/
theorem timeDiff_stamp {later earlier : Int} (low : -2 ^ 31 ≤ later - earlier)
    (high : later - earlier < 2 ^ 31) : timeDiff (stamp later) (stamp earlier) = later - earlier := by
  simp only [timeDiff, toInt32, sub32, stamp]
  omega

theorem timeIsLater_stamp {earlier later : Int} (low : -2 ^ 31 ≤ later - earlier)
    (high : later - earlier < 2 ^ 31) :
    timeIsLater (stamp earlier) (stamp later) ↔ earlier < later := by
  rw [timeIsLater, timeDiff_stamp low high]
  simp only [sub32, stamp, half]
  omega

/-- On one side of the wrap the clock shows later times as larger numbers. -/
theorem stamp_lt_stamp {t u : Int} (side : t / 2 ^ 32 = u / 2 ^ 32) :
    (stamp t < stamp u ↔ t < u) ∧ (stamp t = stamp u ↔ t = u) := by
  simp only [stamp]
  omega

/-- The how manieth posting it was, and when the message is to be delivered, if that
was said. -/
structure Posting where
  serial : Nat
  trigger : Option Int
  deriving DecidableEq, Repr

namespace Posting

/-- The order of delivery: posted messages as they came, delayed ones by their trigger
and then as they came. -/
def Precedes (p q : Posting) : Prop :=
  match p.trigger, q.trigger with
  | none, none => p.serial < q.serial
  | some t, some u => t < u ∨ t = u ∧ p.serial < q.serial
  | _, _ => False

/-- The trigger, if any, has passed. -/
def Due (p : Posting) (now : Int) : Prop :=
  ∀ t ∈ p.trigger, t ≤ now

/-- The trigger, if any, is within half the range of the clock. -/
def InRange (p : Posting) (now : Int) : Prop :=
  ∀ t ∈ p.trigger, -2 ^ 31 ≤ t - now ∧ t - now < 2 ^ 31

theorem Due.mono {p : Posting} {now later : Int} (due : p.Due now) (le : now ≤ later) :
    p.Due later :=
  fun t trigger => (due t trigger).trans le

theorem not_precedes_self (p : Posting) : ¬ p.Precedes p := by
  unfold Precedes
  split
  · omega
  · next t u first second =>
    rw [first] at second
    cases second
    omega
  · exact not_false

end Posting

namespace MessageQueue

/-- The messages that the next calls return without looking at a trigger again. -/
def ready (q : MessageQueue Posting) : List (Message Posting) :=
  q.msgPeek.toList ++ q.msgq

def contents (q : MessageQueue Posting) : List (Message Posting) :=
  q.ready ++ q.dmsgq.map DelayedMessage.msg

/-- The slot, the list and the heap are one ordered queue. -/
structure InOrder (q : MessageQueue Posting) (now : Int) : Prop where
  heap : IsHeap DelayedMessage.lt q.dmsgq
  triggers : ∀ d ∈ q.dmsgq, ∃ t, d.msg.pdata.trigger = some t ∧ d.msTrigger = stamp t
  side : ∀ d ∈ q.dmsgq, ∀ e ∈ q.dmsgq, ∀ t ∈ d.msg.pdata.trigger, ∀ u ∈ e.msg.pdata.trigger,
    t / 2 ^ 32 = u / 2 ^ 32
  nums : ∀ d ∈ q.dmsgq, ∀ e ∈ q.dmsgq,
    (d.num < e.num ↔ d.msg.pdata.serial < e.msg.pdata.serial)
  next : ∀ d ∈ q.dmsgq, d.num < q.dmsgqNextNum
  due : ∀ m ∈ q.ready, m.pdata.Due now
  order : q.ready.Pairwise fun m n => ¬ n.pdata.Precedes m.pdata
  first : ∀ m ∈ q.ready, ∀ d ∈ q.dmsgq, ¬ d.msg.pdata.Precedes m.pdata

/-- A delayed message with this trigger fits in: its trigger is on the same side of the
wrap as those in the heap, it does not come before a message that has left the heap,
and the number of the posting does not wrap. -/
structure Fits (q : MessageQueue Posting) (trigger : Int) : Prop where
  side : ∀ d ∈ q.dmsgq, ∀ t ∈ d.msg.pdata.trigger, t / 2 ^ 32 = trigger / 2 ^ 32
  behind : ∀ m ∈ q.ready, ∀ t ∈ m.pdata.trigger, t ≤ trigger
  count : q.dmsgqNextNum + 1 < 2 ^ 32

namespace InOrder

variable {q : MessageQueue Posting} {now : Int} {ops : DelayHeap Posting}

theorem later (inOrder : InOrder q now) {time : Int} (le : now ≤ time) : InOrder q time :=
  { inOrder with due := fun m listed => (inOrder.due m listed).mono le }

/-- The comparison of the heap is the order of delivery. -/
theorem lt_iff (inOrder : InOrder q now) {d e : DelayedMessage Posting} (dIn : d ∈ q.dmsgq)
    (eIn : e ∈ q.dmsgq) : d.lt e ↔ e.msg.pdata.Precedes d.msg.pdata := by
  obtain ⟨t, dTrigger, dStamp⟩ := inOrder.triggers d dIn
  obtain ⟨u, eTrigger, eStamp⟩ := inOrder.triggers e eIn
  have side := inOrder.side e eIn d dIn u eTrigger t dTrigger
  obtain ⟨less, same⟩ := stamp_lt_stamp side
  simp only [DelayedMessage.lt, Posting.Precedes, dTrigger, eTrigger, dStamp, eStamp, less, same,
    inOrder.nums e eIn d dIn]

/-- No other delayed message precedes the one on top of the heap. -/
theorem top_first (inOrder : InOrder q now) {top : DelayedMessage Posting}
    {rest : List (DelayedMessage Posting)} (shape : q.dmsgq = top :: rest) :
    ∀ d ∈ q.dmsgq, ¬ d.msg.pdata.Precedes top.msg.pdata := by
  intro d listed precedes
  have topIn : top ∈ q.dmsgq := by simp [shape]
  have greatest := (shape ▸ inOrder.heap).first_greatest DelayedMessage.weakOrder
  exact greatest d (shape ▸ listed) ((inOrder.lt_iff topIn listed).mpr precedes)

theorem initial : InOrder {} now where
  heap := isHeap_nil
  triggers _ listed := absurd listed List.not_mem_nil
  side _ listed := absurd listed List.not_mem_nil
  nums _ listed := absurd listed List.not_mem_nil
  next _ listed := absurd listed List.not_mem_nil
  due _ listed := absurd listed List.not_mem_nil
  order := .nil
  first _ listed := absurd listed List.not_mem_nil

/-- Fewer messages stay in order. -/
theorem sub (inOrder : InOrder q now) {r : MessageQueue Posting} (ready : r.ready.Sublist q.ready)
    (delayed : ∀ d ∈ r.dmsgq, d ∈ q.dmsgq) (heap : IsHeap DelayedMessage.lt r.dmsgq)
    (nums : r.dmsgqNextNum = q.dmsgqNextNum) : InOrder r now where
  heap := heap
  triggers d listed := inOrder.triggers d (delayed d listed)
  side d dIn e eIn := inOrder.side d (delayed d dIn) e (delayed e eIn)
  nums d dIn e eIn := inOrder.nums d (delayed d dIn) e (delayed e eIn)
  next d listed := nums ▸ inOrder.next d (delayed d listed)
  due m listed := inOrder.due m (ready.subset listed)
  order := inOrder.order.sublist ready
  first m mIn d dIn := inOrder.first m (ready.subset mIn) d (delayed d dIn)

/-! ## Posting -/

theorem post (inOrder : InOrder q now) {serial : Nat} (handler : Option Nat) (id : Nat)
    (new : ∀ m ∈ q.contents, m.pdata.serial < serial) :
    InOrder (q.post handler id { serial, trigger := none }) now := by
  unfold MessageQueue.post
  split
  · exact inOrder
  have earlier (m : Message Posting) (listed : m ∈ q.ready) : m.pdata.serial < serial :=
    new m (List.mem_append_left _ listed)
  have grown : ({ q with msgq := q.msgq ++ [⟨handler, id, ⟨serial, none⟩⟩] } : MessageQueue
      Posting).ready = q.ready ++ [⟨handler, id, ⟨serial, none⟩⟩] := by
    simp only [ready, List.append_assoc]
  refine { inOrder with due := ?_, order := ?_, first := ?_ }
  · intro m listed
    rw [grown, List.mem_append, List.mem_singleton] at listed
    rcases listed with listed | rfl
    · exact inOrder.due m listed
    · intro t trigger
      cases trigger
  · rw [grown, List.pairwise_append]
    refine ⟨inOrder.order, List.pairwise_singleton _ _, fun m listed n isNew => ?_⟩
    obtain rfl := List.mem_singleton.mp isNew
    have below := earlier m listed
    simp only [Posting.Precedes]
    split
    · omega
    · simp_all
    · exact not_false
  · intro m listed d delayed
    rw [grown, List.mem_append, List.mem_singleton] at listed
    rcases listed with listed | rfl
    · exact inOrder.first m listed d delayed
    · obtain ⟨t, trigger, -⟩ := inOrder.triggers d delayed
      simp only [Posting.Precedes, trigger]
      exact not_false

theorem doDelayPost (inOrder : InOrder q now) {trigger : Int} (fits : Fits q trigger)
    {serial : Nat} (cmsDelay : Int) (handler : Option Nat) (id : Nat)
    (new : ∀ m ∈ q.contents, m.pdata.serial < serial) :
    InOrder (q.doDelayPost ops cmsDelay (stamp trigger) handler id
      { serial, trigger := some trigger }) now := by
  unfold MessageQueue.doDelayPost
  split
  · exact inOrder
  have older (d : DelayedMessage Posting) (listed : d ∈ q.dmsgq) :
      d.num < q.dmsgqNextNum ∧ d.msg.pdata.serial < serial :=
    ⟨inOrder.next d listed, new d.msg (List.mem_append_right _ (List.mem_map_of_mem listed))⟩
  have mem (d e : DelayedMessage Posting) : d ∈ ops.push q.dmsgq e ↔ d = e ∨ d ∈ q.dmsgq := by
    rw [(ops.push_perm _ _ inOrder.heap).mem_iff, List.mem_cons]
  dsimp only
  constructor
  · exact ops.push_heap _ _ inOrder.heap
  · intro d listed
    rcases (mem _ _).mp listed with rfl | listed
    · exact ⟨trigger, rfl, rfl⟩
    · exact inOrder.triggers d listed
  · intro d dIn e eIn t dTrigger u eTrigger
    rcases (mem _ _).mp dIn with rfl | dIn <;> rcases (mem _ _).mp eIn with rfl | eIn
    · cases dTrigger
      cases eTrigger
      rfl
    · cases dTrigger
      exact (fits.side e eIn u eTrigger).symm
    · cases eTrigger
      exact fits.side d dIn t dTrigger
    · exact inOrder.side d dIn e eIn t dTrigger u eTrigger
  · intro d dIn e eIn
    rcases (mem _ _).mp dIn with rfl | dIn <;> rcases (mem _ _).mp eIn with rfl | eIn
    · simp
    · have old := older e eIn
      dsimp only
      omega
    · have old := older d dIn
      dsimp only
      omega
    · exact inOrder.nums d dIn e eIn
  · intro d listed
    dsimp only
    rw [add32_of_lt fits.count]
    rcases (mem _ _).mp listed with rfl | listed
    · exact Nat.lt_succ_self _
    · exact Nat.lt_succ_of_lt (inOrder.next d listed)
  · exact inOrder.due
  · exact inOrder.order
  · intro m mIn d dIn
    rcases (mem _ _).mp dIn with rfl | dIn
    · have below := new m (List.mem_append_left _ mIn)
      simp only [Posting.Precedes]
      split
      · simp_all
      · next t u same trigger =>
        have behind := fits.behind m mIn u trigger
        cases same
        omega
      · exact not_false
    · exact inOrder.first m mIn d dIn

/-! ## The turn of `Get` -/

variable (ops) in
/-- The message on top of the heap goes to the end of the list once it is due. -/
theorem move (inOrder : InOrder q now) {top : DelayedMessage Posting}
    {rest : List (DelayedMessage Posting)} (shape : q.dmsgq = top :: rest)
    (due : top.msg.pdata.Due now) :
    InOrder { q with msgq := q.msgq ++ [top.msg], dmsgq := ops.pop q.dmsgq } now := by
  have topIn : top ∈ q.dmsgq := by simp [shape]
  have popped (d : DelayedMessage Posting) (listed : d ∈ ops.pop q.dmsgq) : d ∈ q.dmsgq := by
    rw [shape] at listed ⊢
    exact .tail _ ((ops.pop_perm _ _ (shape ▸ inOrder.heap)).mem_iff.mp listed)
  have grown : ({ q with msgq := q.msgq ++ [top.msg], dmsgq := ops.pop q.dmsgq } : MessageQueue
      Posting).ready = q.ready ++ [top.msg] := by
    simp only [ready, List.append_assoc]
  refine { inOrder with
    heap := shape ▸ ops.pop_heap _ _ (shape ▸ inOrder.heap)
    triggers := fun d listed => inOrder.triggers d (popped d listed)
    side := fun d dIn e eIn => inOrder.side d (popped d dIn) e (popped e eIn)
    nums := fun d dIn e eIn => inOrder.nums d (popped d dIn) e (popped e eIn)
    next := fun d listed => inOrder.next d (popped d listed)
    due := ?_, order := ?_, first := ?_ }
  · intro m listed
    rw [grown, List.mem_append, List.mem_singleton] at listed
    rcases listed with listed | rfl
    · exact inOrder.due m listed
    · exact due
  · rw [grown, List.pairwise_append]
    refine ⟨inOrder.order, List.pairwise_singleton _ _, fun m listed n isTop => ?_⟩
    obtain rfl := List.mem_singleton.mp isTop
    exact inOrder.first m listed top topIn
  · intro m listed d delayed
    rw [grown, List.mem_append, List.mem_singleton] at listed
    rcases listed with listed | rfl
    · exact inOrder.first m listed d (popped d delayed)
    · exact inOrder.top_first shape d (popped d delayed)

variable (ops) in
/-- Moving what has been triggered loses nothing, and leaves only what is yet to come in
the heap. -/
theorem moveTriggered (inOrder : InOrder q now) {count : Nat} (enough : q.dmsgq.length ≤ count)
    (range : ∀ d ∈ q.dmsgq, d.msg.pdata.InRange now) :
    let moved := q.moveTriggered ops count (stamp now)
    InOrder moved now ∧ moved.contents.Perm q.contents ∧
      (∀ d ∈ moved.dmsgq, ¬ d.msg.pdata.Due now) ∧
      moved.msgPeek = q.msgPeek ∧ moved.fStop = q.fStop := by
  induction count generalizing q with
  | zero =>
    have empty := List.eq_nil_of_length_eq_zero (Nat.le_zero.mp enough)
    refine ⟨inOrder, .refl _, fun d listed => ?_, rfl, rfl⟩
    rw [MessageQueue.moveTriggered, empty] at listed
    cases listed
  | succ count ih =>
    rw [MessageQueue.moveTriggered]
    split
    · next empty =>
      refine ⟨inOrder, .refl _, fun d listed => ?_, rfl, rfl⟩
      rw [empty] at listed
      cases listed
    next top rest shape =>
    have topIn : top ∈ q.dmsgq := by simp [shape]
    obtain ⟨t, trigger, stamped⟩ := inOrder.triggers top topIn
    obtain ⟨low, high⟩ := range top topIn t trigger
    split
    · next toCome =>
      rw [stamped, timeIsLater_stamp low high] at toCome
      refine ⟨inOrder, .refl _, fun d listed due => ?_, rfl, rfl⟩
      obtain ⟨u, dTrigger, -⟩ := inOrder.triggers d listed
      have notBefore := inOrder.top_first shape d listed
      have passed := due u dTrigger
      simp only [Posting.Precedes, dTrigger, trigger] at notBefore
      omega
    · next passed =>
      rw [stamped, timeIsLater_stamp low high] at passed
      have due : top.msg.pdata.Due now := by
        intro u other
        rw [trigger] at other
        cases other
        omega
      have perm := ops.pop_perm top rest (shape ▸ inOrder.heap)
      obtain ⟨ordered, same, rest', peek, stop⟩ := ih (inOrder.move ops shape due)
        (by
          rw [shape] at enough
          rw [shape, perm.length_eq]
          exact Nat.le_of_succ_le_succ enough)
        (by
          intro d listed
          rw [shape] at listed
          exact range d (by rw [shape]; exact .tail _ (perm.mem_iff.mp listed)))
      refine ⟨ordered, same.trans ?_, rest', peek, stop⟩
      simp only [contents, ready, shape, List.append_assoc, List.map_cons]
      exact (((perm.map _).cons _).append_left _).append_left _

end InOrder

/-- Only messages that dispose of their data are passed over. -/
theorem takePosted_spec (l : List (Message Posting)) :
    ∃ disposed, (∀ m ∈ disposed, m.messageId = mqidDispose) ∧
      l = disposed ++ ((takePosted l).1.toList ++ (takePosted l).2) ∧
      ((takePosted l).1 = none → (takePosted l).2 = []) := by
  induction l with
  | nil => exact ⟨[], by simp [takePosted]⟩
  | cons m rest ih =>
    rw [takePosted]
    split
    · next dispose =>
      obtain ⟨disposed, all, shape, last⟩ := ih
      refine ⟨m :: disposed, ?_, by rw [List.cons_append, ← shape], last⟩
      intro n listed
      rcases List.mem_cons.mp listed with rfl | listed
      · exact dispose
      · exact all n listed
    · exact ⟨[], by simp⟩

/-- What a turn of `Get` takes out of the queue at a time, and what it leaves. -/
structure Scanned (q : MessageQueue Posting) (now : Int) (found : Option (Message Posting))
    (r : MessageQueue Posting) : Prop where
  inOrder : InOrder { r with msgPeek := found } now
  kept : ∃ disposed, (∀ m ∈ disposed, m.messageId = mqidDispose) ∧
    (disposed ++ (found.toList ++ r.contents)).Perm q.contents
  due : ∀ m ∈ found, m.pdata.Due now
  first : ∀ m ∈ found, ∀ n ∈ r.contents, ¬ n.pdata.Precedes m.pdata
  nothing : found = none → ∀ n ∈ r.contents, ¬ n.pdata.Due now
  peek : r.msgPeek = none
  stop : r.fStop = q.fStop

variable {q : MessageQueue Posting} {now : Int} {ops : DelayHeap Posting}

variable (ops) in
theorem scan_spec (inOrder : InOrder q now) (noPeek : q.msgPeek = none)
    (range : ∀ d ∈ q.dmsgq, d.msg.pdata.InRange now) :
    Scanned q now (q.scan ops (stamp now)).1 (q.scan ops (stamp now)).2 := by
  obtain ⟨moved, same, toCome, peek, stop⟩ :=
    inOrder.moveTriggered ops (Nat.le_refl _) range
  simp only [scan]
  generalize q.moveTriggered ops q.dmsgq.length (stamp now) = p at moved same toCome peek stop ⊢
  rw [noPeek] at peek
  obtain ⟨disposed, all, shape, last⟩ := takePosted_spec p.msgq
  rcases taken : takePosted p.msgq with ⟨found, rest⟩
  rw [taken] at shape last
  dsimp only at shape last ⊢
  have slot : ({ p with msgPeek := found, msgq := rest } : MessageQueue Posting).ready.Sublist
      p.ready := by
    simp only [ready, peek, shape, Option.toList_none, List.nil_append]
    exact List.sublist_append_right _ _
  have inOrder := moved.sub slot (fun d listed => listed) moved.heap rfl
  have after : ({ p with msgq := rest } : MessageQueue Posting).contents =
      rest ++ p.dmsgq.map DelayedMessage.msg := by
    simp only [contents, ready, peek, Option.toList_none, List.nil_append]
  refine ⟨inOrder, ⟨disposed, all, ?_⟩, ?_, ?_, ?_, peek, stop⟩
  · refine .trans (.of_eq ?_) same
    rw [after]
    simp only [contents, ready, peek, shape, Option.toList_none, List.nil_append, List.append_assoc]
  · intro m isFound
    exact inOrder.due m (List.mem_append_left _ (by simpa using isFound))
  · intro m isFound n listed
    obtain rfl : found = some m := isFound
    rw [after, List.mem_append] at listed
    rcases listed with posted | delayed
    · exact (List.pairwise_cons.mp inOrder.order).1 n posted
    · obtain ⟨d, dIn, rfl⟩ := List.mem_map.mp delayed
      exact inOrder.first m (.head _) d dIn
  · intro nothing n listed
    rw [after, last nothing, List.nil_append] at listed
    obtain ⟨d, dIn, rfl⟩ := List.mem_map.mp listed
    exact toCome d dIn

variable (ops) in
/-- `Clear` takes out what matches, wherever it is, and leaves the rest in order. -/
theorem clear_spec (inOrder : InOrder q now) (handler : Option Nat) (id : Nat) :
    InOrder (q.clear ops handler id).2 now ∧
      (q.clear ops handler id).1.Perm (q.contents.filter fun m => m.matches handler id) ∧
      (q.clear ops handler id).2.contents.Perm
        (q.contents.filter fun m => !decide (m.matches handler id)) ∧
      (q.clear ops handler id).2.ready = q.ready.filter fun m => !decide (m.matches handler id) := by
  have ready_eq : (q.clear ops handler id).2.ready =
      q.ready.filter fun m => !decide (m.matches handler id) := by
    cases slot : q.msgPeek with
    | none => simp [clear, ready, slot]
    | some m =>
      by_cases gone : m.matches handler id <;> simp [clear, ready, slot, gone, Option.filter]
  have delayed (d : DelayedMessage Posting) (listed : d ∈ (q.clear ops handler id).2.dmsgq) :
      d ∈ q.dmsgq :=
    List.mem_of_mem_filter ((ops.make_perm _).mem_iff.mp listed)
  refine ⟨?_, ?_, ?_, ready_eq⟩
  · exact inOrder.sub (ready_eq ▸ List.filter_sublist) delayed (ops.make_heap _) rfl
  · refine .of_eq ?_
    simp only [clear, contents, ready, List.filter_append, List.filter_map, Function.comp_def]
  · rw [contents, ready_eq, contents, List.filter_append, List.filter_map]
    exact (((ops.make_perm _).map _)).append_left _

end MessageQueue

end Libjingle.Base
