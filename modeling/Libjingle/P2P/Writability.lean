import Libjingle.P2P.Pruning
import Libjingle.Std.Sorting

/-!
# Writability

A sort leaves the best connection in a write state that no connection betters, so a
channel that has a writable connection uses one. Pruning does not touch the best
connection and makes no connection writable, so this is still so when the
connections are counted.
-/

namespace Libjingle.P2P

open Libjingle.Std

namespace Channel

variable {ρ : Type}

theorem find_head {ch : Channel ρ} {top : Connection ρ}
    (head : ch.connections.head? = some top) : ch.find top.id = some top := by
  obtain ⟨rest, all⟩ := List.head?_eq_some_iff.mp head
  simp [find, all]

theorem countStates_writable (ch : Channel ρ) :
    ch.countStates.writable = ch.connections.any fun c => c.writeState = .writable := by
  unfold countStates handleWritable handleNotWritable handleAllTimedOut
  split
  · next any => simp [any]
  · next none =>
    rw [Bool.not_eq_true] at none
    split <;> simp [none]

variable [Mul ρ] [LT ρ] [DecidableLT ρ]

/-- The comparison looks at the write states first. -/
theorem respects_connectionCompare :
    Respects (fun a b : Connection ρ => connectionCompare b a = false)
      (·.writeState.value) where
  first a b better := by
    simp [connectionCompare, compareConnections, better, Nat.lt_asymm better]
  last a b better := by
    simp [connectionCompare, compareConnections, better]

/-- A connection that is not switched from is in no worse state. -/
theorem writeState_le_of_not_shouldSwitch {a b : Connection ρ} (different : a.id ≠ b.id)
    (stays : shouldSwitch (some a) (some b) = false) :
    a.writeState.value ≤ b.writeState.value := by
  by_contra worse
  have better : b.writeState.value < a.writeState.value := Nat.lt_of_not_le worse
  simp [shouldSwitch, compareConnections, different, better, Nat.lt_asymm better] at stays

/-- The switch leaves the best connection no worse than the top one. -/
theorem switchBestConnection_le {ch : Channel ρ} {top b : Connection ρ}
    (head : ch.connections.head? = some top) (is : ch.switchBestConnection.best = some b) :
    b.writeState.value ≤ top.writeState.value := by
  unfold switchBestConnection at is
  split at is
  · have found : { ch with bestConnection := some top.id }.best = some top := find_head head
    rw [head, Option.map_some, found] at is
    rw [Option.some.inj is]
  · next stays =>
    by_cases same : b.id = top.id
    · obtain ⟨id, -, found⟩ := Option.bind_eq_some_iff.mp is
      have named : b.id = id := by simpa using List.find?_some found
      rw [← named, same, find_head head] at found
      rw [Option.some.inj found]
    · rw [is, head] at stays
      exact writeState_le_of_not_shouldSwitch same (Bool.eq_false_iff.mpr stays)

/-- There is a best connection when there is any. -/
theorem switchBestConnection_best {ch : Channel ρ} {c : Connection ρ}
    (mem : c ∈ ch.connections) : ∃ b, ch.switchBestConnection.best = some b := by
  obtain ⟨top, head⟩ : ∃ top, ch.connections.head? = some top :=
    Option.isSome_iff_exists.mp (List.isSome_head?.mpr (List.ne_nil_of_mem mem))
  unfold switchBestConnection
  split
  · rw [head]
    exact ⟨top, find_head head⟩
  · next stays =>
    cases is : ch.best with
    | none => simp [is, head, shouldSwitch] at stays
    | some b => exact ⟨b, rfl⟩

@[simp] theorem switchBestConnection_connections (ch : Channel ρ) :
    ch.switchBestConnection.connections = ch.connections := by
  unfold switchBestConnection
  split <;> rfl

/-- No connection is in a better state than the one chosen. -/
theorem chooseBest_le {ch : Channel ρ} {now : UInt32} {b : Connection ρ}
    (is : (ch.chooseBest now).best = some b) :
    ∀ c ∈ (ch.chooseBest now).connections, b.writeState.value ≤ c.writeState.value := by
  intro c mem
  unfold chooseBest at is mem
  rw [switchBestConnection_connections] at mem
  obtain ⟨top, head⟩ := Option.isSome_iff_exists.mp
    (List.isSome_head?.mpr (List.ne_nil_of_mem mem))
  have least := respects_connectionCompare.head_le head c ((List.mem_insertionSort _).mp mem)
  exact (switchBestConnection_le head is).trans least

/-- When any connection is writable, the chosen one is. -/
theorem chooseBest_writable {ch : Channel ρ} {now : UInt32} {c : Connection ρ}
    (mem : c ∈ (ch.chooseBest now).connections) (writable : c.writeState = .writable) :
    ∃ b, (ch.chooseBest now).best = some b ∧ b.writeState = .writable := by
  have chosen := mem
  unfold chooseBest at chosen
  rw [switchBestConnection_connections] at chosen
  obtain ⟨b, is⟩ := switchBestConnection_best chosen
  have le := chooseBest_le is c mem
  refine ⟨b, is, ?_⟩
  rw [writable] at le
  cases state : b.writeState with
  | writable => rfl
  | writeConnect => simp [state, WriteState.value] at le
  | writeTimeout => simp [state, WriteState.value] at le

/-! ## The sort as a whole -/

/-- The best connection is not outranked: it is the primier of its network. -/
theorem best_not_outranked {ch : Channel ρ} {b : Connection ρ} (is : ch.best = some b) :
    ch.outranked b = false :=
  primier_not_outranked (primier_of_best is)

/-- After the sort the best connection is the one chosen, and as it was. -/
theorem sortConnections_best (ch : Channel ρ) (now : UInt32) :
    (ch.sortConnections now).best =
      (ch.chooseBest now).best.map fun b => { b with signalled := false } := by
  have settled := best_map (ch.chooseBest now) _ (ch.chooseBest now).settled_identity
  have same : (ch.sortConnections now).best = { ch.chooseBest now with
      connections := (ch.chooseBest now).connections.map (ch.chooseBest now).settled }.best := by
    unfold best find
    rw [sortConnections_connections, sortConnections_bestConnection]
  rw [same, settled]
  cases is : (ch.chooseBest now).best with
  | none => rfl
  | some b => simp [Channel.settled, passed, best_not_outranked is]

theorem sortConnections_writable (ch : Channel ρ) (now : UInt32) :
    (ch.sortConnections now).writable = true ↔
      ∃ c ∈ (ch.sortConnections now).connections, c.writeState = .writable := by
  have counted : (ch.sortConnections now).writable =
      (ch.chooseBest now).pruneConnections.countStates.writable := rfl
  rw [counted, countStates_writable, sortConnections_connections, pruneConnections_connections]
  simp only [List.any_eq_true, decide_eq_true_eq]

/-- What the channel, its connections and its best connection say about writability. -/
structure WritabilityAgrees (ch : Channel ρ) : Prop where
  connections : ch.writable = true ↔ ∃ c ∈ ch.connections, c.writeState = .writable
  best : ch.writable = true ↔ ∃ b, ch.best = some b ∧ b.writeState = .writable

theorem sortConnections_agrees (ch : Channel ρ) (now : UInt32) :
    (ch.sortConnections now).WritabilityAgrees := by
  refine ⟨sortConnections_writable ch now, (sortConnections_writable ch now).trans ?_⟩
  constructor
  · rintro ⟨after, settled, writable⟩
    rw [sortConnections_connections] at settled
    obtain ⟨c, mem, rfl⟩ := List.mem_map.mp settled
    have before : c.writeState = .writable := by
      rw [settled_writeState, passed_writeState] at writable
      split at writable
      · cases writable
      · exact writable
    obtain ⟨b, is, writable⟩ := chooseBest_writable mem before
    exact ⟨{ b with signalled := false }, by rw [sortConnections_best, is]; rfl, writable⟩
  · rintro ⟨b, is, writable⟩
    exact ⟨b, mem_of_best is, writable⟩

/-- `best_connection_` is one of the connections in every reachable state. After a sort
the channel is writable exactly when some connection is, and exactly when the best one
is; and the sort does not prune the best connection. -/
theorem writability_agrees (incomingOnly : Bool) (stimuli : List (Stimulus ρ)) :
    let ch : Channel ρ := runInputs step (new incomingOnly) stimuli
    (∀ id, ch.bestConnection = some id → ∃ c ∈ ch.connections, c.id = id) ∧
    ∀ event now, (ch.handle event now).1 = true →
      (ch.step ⟨event, now⟩).WritabilityAgrees ∧
      ∀ b, ((ch.handle event now).2.chooseBest now).best = some b →
        ((ch.handle event now).2.chooseBest now).outranked b = false ∧
        (ch.step ⟨event, now⟩).best = some { b with signalled := false } := by
  intro ch
  have valid : ch.Valid := valid_of_run incomingOnly stimuli
  refine ⟨fun id is => List.mem_map.mp (valid.best id is), fun event now sorts => ?_⟩
  have stepped : ch.step ⟨event, now⟩ = (ch.handle event now).2.sortConnections now := by
    unfold step
    split
    · next ch' result => rw [result]
    · next ch' result => rw [result] at sorts; exact nomatch sorts
  rw [stepped]
  refine ⟨sortConnections_agrees _ now, fun b is => ⟨best_not_outranked is, ?_⟩⟩
  rw [sortConnections_best, is]
  rfl

end Channel

end Libjingle.P2P
