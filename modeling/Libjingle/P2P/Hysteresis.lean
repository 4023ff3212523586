import Libjingle.P2P.Ranking
import Libjingle.P2P.Writability

/-!
# Switching between tied connections

Two connections are tied when only their round trip times differ. `ShouldSwitch` adds
`kMinImprovement` to the time of the connection in use, so that a tied one replaces it
also when it is a little faster only, or not at all.
-/

namespace Libjingle.P2P

open Libjingle.Std

variable {ρ : Type} [Mul ρ] [LinearOrder ρ]

namespace Connection

structure Tied (a b : Connection ρ) : Prop where
  state : a.writeState = b.writeState
  preference : a.combinedPreference = b.combinedPreference
  generation : a.generationSum = b.generationSum

instance (a b : Connection ρ) : Decidable (a.Tied b) :=
  decidable_of_iff (a.writeState = b.writeState ∧ a.combinedPreference = b.combinedPreference ∧
      a.generationSum = b.generationSum)
    ⟨fun ⟨state, preference, generation⟩ => ⟨state, preference, generation⟩,
      fun tied => ⟨tied.state, tied.preference, tied.generation⟩⟩

/-- `b` is enough of an improvement over `a`. -/
def Improves (b a : Connection ρ) : Prop :=
  b.rtt.toNat + minImprovement ≤ a.rtt.toNat

instance (a b : Connection ρ) : Decidable (b.Improves a) :=
  inferInstanceAs (Decidable (_ ≤ _))

end Connection

open Connection

theorem WriteState.value_injective : Function.Injective WriteState.value := by
  intro a b same
  cases a <;> cases b <;> first | rfl | exact nomatch same

theorem compareConnectionCandidates_eq_zero {a b : Connection ρ} :
    compareConnectionCandidates a b = 0 ↔
      a.combinedPreference = b.combinedPreference ∧ a.generationSum = b.generationSum := by
  unfold compareConnectionCandidates
  have sums : signedDifference (a.remote.generation + a.port.generation)
      (b.remote.generation + b.port.generation) = 0 ↔ a.generationSum = b.generationSum :=
    signedDifference_eq_zero
  unfold combinedPreference
  rcases lt_trichotomy (a.port.preference * a.remote.preference)
    (b.port.preference * b.remote.preference) with worse | tied | better
  · simp [worse, lt_asymm worse, worse.ne]
  · simp only [tied, lt_irrefl, if_false, true_and]
    exact sums
  · simp [better, better.ne']

theorem compareConnections_eq_zero {a b : Connection ρ} :
    compareConnections a b = 0 ↔ a.Tied b := by
  unfold compareConnections
  rcases lt_trichotomy a.writeState.value b.writeState.value with better | same | worse
  · simp only [better, if_true]
    refine ⟨(fun zero => by cases zero), fun tied => absurd better ?_⟩
    rw [tied.state]
    exact lt_irrefl _
  · simp only [same, lt_irrefl, if_false, compareConnectionCandidates_eq_zero]
    exact ⟨fun compared => ⟨WriteState.value_injective same, compared.1, compared.2⟩,
      fun tied => ⟨tied.preference, tied.generation⟩⟩
  · simp only [worse, lt_asymm worse, if_true, if_false]
    refine ⟨(fun negative => by cases negative), fun tied => absurd worse ?_⟩
    rw [tied.state]
    exact lt_irrefl _

/-- Between tied connections the round trip times decide. -/
theorem shouldSwitch_of_tied {a b : Connection ρ} (other : a.id ≠ b.id) (tied : a.Tied b) :
    shouldSwitch (some a) (some b) = true ↔ b.rtt.toNat ≤ a.rtt.toNat + minImprovement := by
  simp [shouldSwitch, other, compareConnections_eq_zero.mpr tied]

/-- The connection that stands first in a stable sort: from the back to the front each one is
taken that the one taken before does not precede. -/
def foremost : List (Connection ρ) → Option (Connection ρ)
  | [] => none
  | c :: rest =>
      match foremost rest with
      | none => some c
      | some top => if connectionCompare top c then some top else some c

theorem head_insertionSort (l : List (Connection ρ)) :
    (l.insertionSort fun a b => connectionCompare b a = false).head? = foremost l := by
  induction l with
  | nil => rfl
  | cons c rest ih =>
    rw [List.insertionSort_cons, foremost, ← ih]
    cases rest.insertionSort fun a b => connectionCompare b a = false with
    | nil => rfl
    | cons top more =>
      cases precedes : connectionCompare top c with
      | true => simp [List.orderedInsert, precedes]
      | false => simp [List.orderedInsert, precedes]

namespace Channel

theorem chooseBest_best {ch : Channel ρ} (valid : ch.Valid) (now : UInt32) :
    (ch.chooseBest now).best =
      if shouldSwitch (ch.updateConnectionStates now).best
          (foremost (ch.updateConnectionStates now).connections) then
        foremost (ch.updateConnectionStates now).connections
      else (ch.updateConnectionStates now).best := by
  have updated := (sameMembers_updateConnectionStates ch now).valid valid
  have same := List.perm_insertionSort (fun a b : Connection ρ => connectionCompare b a = false)
    (ch.updateConnectionStates now).connections
  have head := head_insertionSort (ch.updateConnectionStates now).connections
  have best : { ch.updateConnectionStates now with sortDirty := false }.sorted.best =
      (ch.updateConnectionStates now).best := by
    unfold best
    congr 1
    exact funext fun id => find_perm updated.nodup same id
  unfold chooseBest switchBestConnection
  rw [best]
  have isHead : { ch.updateConnectionStates now with sortDirty := false }.sorted.connections.head? =
      foremost (ch.updateConnectionStates now).connections := head
  rw [isHead]
  split
  · cases top : foremost (ch.updateConnectionStates now).connections with
    | none => rfl
    | some c => exact find_head (isHead.trans top)
  · exact best

/-! ## One sort -/

/-- A tied connection replaces the best one only if it is enough of an improvement. -/
def KeepsBest (ch : Channel ρ) (now : UInt32) : Prop :=
  ∀ a b, (ch.updateConnectionStates now).best = some a → (ch.sortConnections now).best = some b →
    b.id ≠ a.id → a.Tied b → b.Improves a

/-- The connection to be sorted first is another one than the best, tied with it, and faster by
less than `kMinImprovement` or slower by no more. -/
structure TooClose (ch : Channel ρ) (now : UInt32) (a top : Connection ρ) : Prop where
  best : (ch.updateConnectionStates now).best = some a
  first : foremost (ch.updateConnectionStates now).connections = some top
  other : top.id ≠ a.id
  tied : a.Tied top
  little : ¬top.Improves a
  near : top.rtt.toNat ≤ a.rtt.toNat + minImprovement

theorem keepsBest_iff {ch : Channel ρ} (valid : ch.Valid) (now : UInt32) :
    ch.KeepsBest now ↔ ∀ a top, ¬ch.TooClose now a top := by
  have chosen := chooseBest_best valid now
  constructor
  · intro keeps a top close
    have switches := (shouldSwitch_of_tied close.other.symm close.tied).mpr close.near
    rw [close.best, close.first, switches, if_pos rfl] at chosen
    refine close.little (keeps a { top with signalled := false } close.best ?_ close.other
      ⟨close.tied.state, close.tied.preference, close.tied.generation⟩)
    rw [sortConnections_best, chosen]
    rfl
  · intro clear a b isA isB other tied
    rw [sortConnections_best, Option.map_eq_some_iff] at isB
    obtain ⟨b, is, rfl⟩ := isB
    have tied : a.Tied b := ⟨tied.state, tied.preference, tied.generation⟩
    rw [chosen, isA] at is
    split at is
    · next switches =>
      have other : b.id ≠ a.id := other
      rw [is, shouldSwitch_of_tied other.symm tied] at switches
      by_contra little
      exact clear a b ⟨isA, is, other, tied, little, switches⟩
    · -- Without a switch the best connection is the one before.
      exact absurd (congrArg Connection.id (Option.some.inj is)).symm other

/-! ## Runs -/

/-- Where a stimulus leads to a sort, something holds of the channel that is sorted. -/
def WhenSorted (P : Channel ρ → UInt32 → Prop) (ch : Channel ρ) (stimulus : Stimulus ρ) : Prop :=
  (ch.handle stimulus.event stimulus.now).1 = true →
    P (ch.handle stimulus.event stimulus.now).2 stimulus.now

/-- No sort puts a tied connection, with nearly the same round trip time, in the place of the
best one. -/
def Steadfast (ch : Channel ρ) (now : UInt32) : Prop :=
  ∀ a b, (ch.updateConnectionStates now).best = some a → (ch.sortConnections now).best = some b →
    a.Tied b → a.rtt.toNat < b.rtt.toNat + minImprovement →
    b.rtt.toNat < a.rtt.toNat + minImprovement → b.id = a.id

/-- Whenever the connections are sorted, a tied connection replaces the best one only if it is
faster by `kMinImprovement`, if and only if no sort finds one too close to the best in the first
place. Tied connections that close to each other then never replace one another. -/
theorem tied_switch_improves {ch : Channel ρ} (valid : ch.Valid) (stimuli : List (Stimulus ρ)) :
    (Along step (WhenSorted KeepsBest) ch stimuli ↔
      Along step (WhenSorted fun ch now => ∀ a top, ¬ch.TooClose now a top) ch stimuli) ∧
    (Along step (WhenSorted fun ch now => ∀ a top, ¬ch.TooClose now a top) ch stimuli →
      Along step (WhenSorted Steadfast) ch stimuli) := by
  have keeps : ∀ (ch : Channel ρ) stimulus, ch.Valid → (ch.step stimulus).Valid :=
    fun ch stimulus valid => valid.step stimulus
  have agree : ∀ (ch : Channel ρ) stimulus, ch.Valid → (ch.WhenSorted KeepsBest stimulus ↔
      ch.WhenSorted (fun ch now => ∀ a top, ¬ch.TooClose now a top) stimulus) :=
    fun ch stimulus valid => imp_congr_right fun _ =>
      keepsBest_iff (valid.handle stimulus.event stimulus.now) stimulus.now
  refine ⟨along_congr_of_invariant (fun ch stimulus valid _ => keeps ch stimulus valid) agree valid
    stimuli, fun clear => ?_⟩
  refine clear.of_invariant (fun ch stimulus _ valid => keeps ch stimulus valid) ?_ valid
  intro ch stimulus clear valid sorts a b isA isB tied slower _
  by_contra other
  have improves := (agree ch stimulus valid).mpr clear sorts a b isA isB other tied
  unfold Improves at improves
  omega

/-! ## Two connections -/

/-- Two connections with nothing between them but their round trip times, the first in use. -/
def pairOf (inUse other : UInt32) : Channel Nat :=
  { new false with
    connections := [{ ofGeneration 0 0 with rtt := inUse }, { ofGeneration 1 0 with rtt := other }]
    bestConnection := some 0
    nextConnection := 2 }

theorem pairOf_ids (inUse other : UInt32) : (pairOf inUse other).ids = [0, 1] := rfl

theorem valid_pairOf (inUse other : UInt32) : (pairOf inUse other).Valid where
  nodup := by
    rw [pairOf_ids]
    decide
  fresh := by
    rw [pairOf_ids]
    exact (by decide : ∀ id ∈ [0, 1], id < 2)
  best id is := by
    obtain rfl : 0 = id := Option.some.inj is
    simp [pairOf_ids]

theorem tied_switch_improves_sort :
    Along step (WhenSorted KeepsBest) (pairOf 200 100) [⟨.sort, 0⟩] ∧
      Along step (WhenSorted Steadfast) (pairOf 200 100) [⟨.sort, 0⟩] := by
  have clear : Along step (WhenSorted fun ch now => ∀ a top, ¬ch.TooClose now a top)
      (pairOf 200 100) [⟨.sort, 0⟩] := by
    refine ⟨fun _ a top close => ?_, trivial⟩
    obtain rfl := Option.some.inj close.best
    obtain rfl := Option.some.inj close.first
    exact close.little (by decide)
  have run := tied_switch_improves (valid_pairOf 200 100) [⟨.sort, 0⟩]
  exact ⟨run.1.mpr clear, run.2 clear⟩

/-- A connection that is one millisecond faster replaces the best one. -/
theorem switched_by_one : ¬(pairOf 101 100).KeepsBest 0 := by
  intro keeps
  have improves := keeps { ofGeneration 0 0 with rtt := 101 }
    { ofGeneration 1 0 with rtt := 100 } rfl rfl (by decide) (by decide)
  exact absurd improves (by decide)

end Channel

end Libjingle.P2P
