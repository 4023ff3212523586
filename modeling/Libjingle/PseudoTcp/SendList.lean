import Libjingle.Std.Tiling
import Libjingle.PseudoTcp.Process

/-!
# What each operation does to the send list

One specification lemma for each operation on `slist`, with the list taken apart
at the segment the operation is about: `append`, `carve`, `mark` and
`freeSegments`. Invariants of the send queue reason from these and never unfold
the operations.
-/

namespace Libjingle.PseudoTcp

open Libjingle.Std
open Libjingle.Base

/-- The bytes that a list of segments stands for. -/
def total (slist : List SSegment) : Nat :=
  extent SSegment.len slist

/-- The segments follow one another from a sequence number on. -/
def Chained (seq : Nat) (slist : List SSegment) : Prop :=
  Tiles SSegment.seq SSegment.len seq slist

@[simp] theorem total_nil : total [] = 0 := rfl

@[simp] theorem total_cons (seg : SSegment) (slist : List SSegment) :
    total (seg :: slist) = seg.len + total slist :=
  extent_cons _ _ _

@[simp] theorem total_append (front back : List SSegment) :
    total (front ++ back) = total front + total back :=
  extent_append _ _ _

theorem chained_append {seq : Nat} {front back : List SSegment} (word : seq < 2 ^ 32) :
    Chained seq (front ++ back) ↔
      Chained seq front ∧ Chained (add32 seq (total front)) back :=
  tiles_append word

/-- A chained segment carries the extent of what is before it. -/
theorem Chained.seq_eq {seq : Nat} {before after : List SSegment} {seg : SSegment}
    (word : seq < 2 ^ 32) (chained : Chained seq (before ++ seg :: after)) :
    seg.seq = add32 seq (total before) :=
  Tiles.start_eq word chained

/-- The first segment ready for its first transmission, with what is before it. -/
theorem findIdx?_unsent {slist : List SSegment} {index : Nat} :
    slist.findIdx? (fun seg => seg.xmit = 0) = some index ↔
      ∃ before seg after, slist = before ++ seg :: after ∧ before.length = index ∧
        seg.xmit = 0 ∧ ∀ g ∈ before, 0 < g.xmit := by
  rw [List.findIdx?_eq_some_iff_getElem]
  constructor
  · rintro ⟨inside, first, earlier⟩
    refine ⟨slist.take index, slist[index], slist.drop (index + 1), ?_, ?_, ?_, ?_⟩
    · rw [List.getElem_cons_drop, List.take_append_drop]
    · simp; omega
    · simpa using first
    · intro g member
      obtain ⟨place, bound, rfl⟩ := List.mem_iff_getElem.mp member
      have before : place < index := by simp at bound; omega
      have sent := earlier place before
      rw [List.getElem_take]
      simp only [decide_eq_true_eq] at sent
      omega
  · rintro ⟨before, seg, after, rfl, rfl, unsent, sent⟩
    refine ⟨by simp, by simpa using unsent, ?_⟩
    intro place inside
    rw [List.getElem_append_left inside]
    have := sent _ (List.getElem_mem inside)
    simp only [decide_eq_true_eq]
    omega

/-- A segment of the list, with what is before and after it. -/
theorem getElem?_segment {slist : List SSegment} {index : Nat} {seg : SSegment}
    (found : slist[index]? = some seg) :
    ∃ before after, slist = before ++ seg :: after ∧ before.length = index := by
  obtain ⟨inside, rfl⟩ := List.getElem?_eq_some_iff.mp found
  refine ⟨slist.take index, slist.drop (index + 1), ?_, by simp; omega⟩
  rw [List.getElem_cons_drop, List.take_append_drop]

/-! ## Cutting a segment -/

/-- What is cut off a segment that keeps `n` bytes. -/
def leftover (seg : SSegment) (n xmit : Nat) : List SSegment :=
  if n < seg.len then [⟨add32 seg.seq n, sub32 seg.len n, xmit, seg.bCtrl⟩] else []

/-- A cut segment and what was cut off are as long as the segment was. -/
theorem total_leftover {seg : SSegment} (word : seg.len < 2 ^ 32) (n xmit : Nat) :
    min n seg.len + total (leftover seg n xmit) = seg.len := by
  unfold leftover
  split
  · next cut => simp [sub32_of_le (Nat.le_of_lt cut) word]; omega
  · simp; omega

/-- A cut segment and what was cut off tile the range of the segment. -/
theorem chained_leftover {seg : SSegment} {n xmit xmit' : Nat} :
    Chained seg.seq ({ seg with len := min n seg.len, xmit := xmit } :: leftover seg n xmit') := by
  unfold leftover
  split
  · next cut => simp [Chained, Tiles, Nat.min_eq_left (Nat.le_of_lt cut)]
  · simp [Chained, Tiles]

theorem modify_at {before after : List SSegment} {seg : SSegment} (f : SSegment → SSegment) :
    (before ++ seg :: after).modify before.length f = before ++ f seg :: after := by
  induction before with
  | nil => rfl
  | cons g rest ih => simp [ih]

theorem splitSegment_eq {before after : List SSegment} {seg : SSegment} {n xmit : Nat} :
    splitSegment (before ++ seg :: after) before.length n xmit =
      before ++ { seg with len := n } ::
        ⟨add32 seg.seq n, sub32 seg.len n, xmit, seg.bCtrl⟩ :: after := by
  simp [splitSegment]

/-- `carve` cuts the segment it is given and leaves the rest untransmitted. -/
theorem Outgoing.carve_eq {o : Outgoing} {before after : List SSegment} {seg : SSegment}
    (list : o.slist = before ++ seg :: after) (n : Nat) :
    o.carve before.length n = { o with
      slist := before ++ { seg with len := min n seg.len } :: leftover seg n 0 ++ after } := by
  cases o
  subst list
  simp only [carve, List.getElem?_append_right (Nat.le_refl _), Nat.sub_self,
    List.getElem?_cons_zero, leftover]
  split
  · next cut => simp [splitSegment_eq, Nat.min_eq_left (Nat.le_of_lt cut)]
  · next whole =>
    have same : min n seg.len = seg.len := by omega
    simp [same]

/-- After `carve` the first untransmitted segment is still at its index, and
short enough. -/
theorem Outgoing.carve_first {o : Outgoing} {index : Nat}
    (first : o.slist.findIdx? (fun seg => seg.xmit = 0) = some index) (n : Nat) :
    ∃ slist, o.carve index n = { o with slist := slist } ∧
      slist.findIdx? (fun seg => seg.xmit = 0) = some index ∧
      ∀ seg, slist[index]? = some seg → seg.len ≤ n := by
  obtain ⟨before, seg, after, list, rfl, unsent, sent⟩ := findIdx?_unsent.mp first
  refine ⟨_, carve_eq list n, ?_, ?_⟩
  · rw [findIdx?_unsent, List.append_assoc, List.cons_append]
    exact ⟨before, _, _, rfl, rfl, unsent, sent⟩
  · intro found isFound
    simp only [List.append_assoc, List.cons_append, List.getElem?_append_right (Nat.le_refl _),
      Nat.sub_self, List.getElem?_cons_zero, Option.some.injEq] at isFound
    rw [← isFound]
    exact Nat.min_le_left _ _

/-- `mark` cuts off what was not transmitted, counts the transmission, and moves
`sndNxt` past a segment that was transmitted for the first time. -/
theorem Outgoing.mark_eq {o : Outgoing} {before after : List SSegment} {seg : SSegment}
    (list : o.slist = before ++ seg :: after) (n : Nat) :
    o.mark before.length n = { o with
      slist := before ++ { seg with len := min n seg.len, xmit := add8 seg.xmit 1 } ::
        leftover seg n seg.xmit ++ after
      sndNxt := if seg.xmit = 0 then add32 o.sndNxt (min n seg.len) else o.sndNxt } := by
  cases o
  subst list
  simp only [mark, List.getElem?_append_right (Nat.le_refl _), Nat.sub_self,
    List.getElem?_cons_zero, leftover]
  by_cases cut : n < seg.len
  · have short : min n seg.len = n := by omega
    simp only [cut, if_true, short, splitSegment_eq]
    split <;> simp [modify_at]
  · have whole : min n seg.len = seg.len := by omega
    simp only [cut, if_false, whole]
    split <;> simp [modify_at]

/-! ## Queueing -/

/-- `append` lengthens an untransmitted last segment of its own kind, and starts
a segment behind the buffered bytes otherwise. -/
theorem Outgoing.append_eq (o : Outgoing) (len : Nat) (bCtrl : Bool) :
    (∃ before last, o.slist = before ++ [last] ∧ last.bCtrl = bCtrl ∧ last.xmit = 0 ∧
      o.append len bCtrl =
        { o with slist := before ++ [{ last with len := add32 last.len len }] }) ∨
    ((∀ last, o.slist.getLast? = some last → last.bCtrl = bCtrl → 0 < last.xmit) ∧
      o.append len bCtrl = { o with
        slist := o.slist ++ [⟨add32 o.sndUna o.sbuf.getBuffered, len, 0, bCtrl⟩] }) := by
  unfold append
  split
  · next last isLast =>
    split
    · next joins =>
      obtain ⟨before, list⟩ := List.getLast?_eq_some_iff.mp isLast
      exact .inl ⟨before, last, list, joins.1, joins.2, by simp [list]⟩
    · next separate =>
      refine .inr ⟨?_, rfl⟩
      intro other isOther kind
      cases isLast.symm.trans isOther
      exact Nat.pos_of_ne_zero fun unsent => separate ⟨kind, unsent⟩
  · next none =>
    have empty := List.getLast?_eq_none_iff.mp none
    exact .inr ⟨by simp [empty], by simp [empty]⟩

/-! ## Acknowledged segments -/

/-- Position `n` of the list lies strictly inside a segment. -/
def Cuts (slist : List SSegment) (n : Nat) : Prop :=
  ∃ before seg after, slist = before ++ seg :: after ∧
    total before < n ∧ n < total before + seg.len

/-- Bytes of the front part leave the back part alone. -/
theorem freeSegments_append {front back : List SSegment} {n largest : Nat}
    (le : n ≤ total front) :
    (freeSegments (front ++ back) n largest).1 = (freeSegments front n largest).1 ++ back := by
  induction front generalizing n largest with
  | nil =>
    have none : n = 0 := by simpa using le
    subst none
    cases back <;> simp [freeSegments]
  | cons seg rest ih =>
    simp only [List.cons_append, freeSegments]
    split
    · rfl
    · split
      · rfl
      · exact ih (by simp only [total_cons] at le; omega)

/-- The list that stays does not depend on the largest segment so far. -/
theorem freeSegments_largest (slist : List SSegment) (n largest largest' : Nat) :
    (freeSegments slist n largest).1 = (freeSegments slist n largest').1 := by
  induction slist generalizing n largest largest' with
  | nil => rfl
  | cons seg rest ih =>
    simp only [freeSegments]
    split
    · rfl
    · split
      · rfl
      · exact ih _ _ _

/-- As many bytes leave the list as are acknowledged. -/
theorem total_freeSegments {slist : List SSegment} {n largest : Nat} (le : n ≤ total slist) :
    total (freeSegments slist n largest).1 = total slist - n := by
  induction slist generalizing n largest with
  | nil => simp [freeSegments]
  | cons seg rest ih =>
    simp only [total_cons] at le
    simp only [freeSegments]
    split
    · next none => simp [none]
    · split
      · simp; omega
      · rw [ih (by omega)]
        simp only [total_cons]
        omega

/-- What stays in the list was in the list, perhaps longer. -/
theorem mem_freeSegments {slist : List SSegment} {n largest : Nat} {seg : SSegment}
    (member : seg ∈ (freeSegments slist n largest).1) :
    ∃ old ∈ slist, seg.xmit = old.xmit ∧ seg.bCtrl = old.bCtrl ∧ seg.len ≤ old.len ∧
      (0 < old.len → 0 < seg.len) := by
  induction slist generalizing n largest with
  | nil => simp [freeSegments] at member
  | cons first rest ih =>
    simp only [freeSegments] at member
    split at member
    · exact ⟨seg, member, rfl, rfl, Nat.le_refl _, id⟩
    · split at member
      · next cut =>
        rcases List.mem_cons.mp member with rfl | later
        · exact ⟨first, by simp, rfl, rfl, Nat.sub_le _ _, fun _ => Nat.sub_pos_of_lt cut⟩
        · exact ⟨seg, by simp [later], rfl, rfl, Nat.le_refl _, id⟩
      · obtain ⟨old, oldMember, rest⟩ := ih member
        exact ⟨old, by simp [oldMember], rest⟩

/-- An acknowledgement between segments takes whole segments off the list. -/
theorem freeSegments_whole {slist : List SSegment} {n : Nat} (whole : ¬ Cuts slist n)
    (le : n ≤ total slist) (largest : Nat) :
    ∃ freed kept, slist = freed ++ kept ∧ total freed = n ∧
      (freeSegments slist n largest).1 = kept := by
  induction slist generalizing n largest with
  | nil => exact ⟨[], [], rfl, by simpa [eq_comm] using le, rfl⟩
  | cons seg rest ih =>
    simp only [total_cons] at le
    simp only [freeSegments]
    split
    · next none => exact ⟨[], seg :: rest, rfl, none.symm, rfl⟩
    · next some =>
      have past : ¬ n < seg.len := fun cut =>
        whole ⟨[], seg, rest, rfl, Nat.pos_of_ne_zero some, by simpa using cut⟩
      rw [if_neg past]
      have wholeRest : ¬ Cuts rest (n - seg.len) := by
        rintro ⟨before, inner, after, list, low, high⟩
        refine whole ⟨seg :: before, inner, after, by simp [list], ?_, ?_⟩ <;>
          simp only [total_cons] <;> omega
      obtain ⟨freed, kept, list, count, result⟩ := ih wholeRest (by omega) _
      exact ⟨seg :: freed, kept, by simp [list], by simp only [total_cons]; omega, result⟩

end Libjingle.PseudoTcp
