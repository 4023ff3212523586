import Libjingle.P2P.Channel
import Libjingle.Std.WeakOrder

/-!
# The order of the connections

Connections are compared by their write state, their combined preference, the sum of their
generations and their round trip time. The difference of two sums is returned as a signed number,
so that the sums stand on a circle: the comparison is a strict weak order where the sums of equal
connections lie within half of it.
-/

namespace Libjingle.P2P

open Libjingle.Std

variable {ρ : Type}

namespace Connection

def generationSum (c : Connection ρ) : UInt32 :=
  c.remote.generation + c.port.generation

/-- `a` is of a younger generation, as the signed difference has it. -/
def Younger (a b : Connection ρ) : Prop :=
  0 < signedDifference a.generationSum b.generationSum

/-- The last two criteria of `ConnectionCompare`. -/
def Ahead (a b : Connection ρ) : Prop :=
  a.Younger b ∨ a.generationSum = b.generationSum ∧ a.rtt < b.rtt

end Connection

theorem signedDifference_pos {a b : UInt32} :
    0 < signedDifference a b ↔ 0 < (a - b).toNat ∧ (a - b).toNat < 2 ^ 31 := by
  unfold signedDifference
  rw [BitVec.toInt_eq_toNat_cond]
  have bound := (a - b).toNat_lt
  simp only [UInt32.toNat_toBitVec]
  split <;> omega

theorem signedDifference_eq_zero {a b : UInt32} : signedDifference a b = 0 ↔ a = b := by
  unfold signedDifference
  rw [BitVec.toInt_eq_toNat_cond]
  have boundA := a.toNat_lt
  have boundB := b.toNat_lt
  simp only [UInt32.toNat_toBitVec, ← UInt32.toNat_inj, UInt32.toNat_sub]
  split <;> omega

/-- Half of the circle. -/
def half : UInt32 := 2147483648

section Circle

variable {a b c m : UInt32}

/-- Two sums are equal, or opposite, or one of them is ahead. -/
theorem circle_cases (a b : UInt32) :
    a = b ∨ a = b + half ∨ 0 < signedDifference a b ∨ 0 < signedDifference b a := by
  simp only [signedDifference_pos, ← UInt32.toNat_inj, UInt32.toNat_sub, UInt32.toNat_add]
  have boundA := a.toNat_lt
  have boundB := b.toNat_lt
  have isHalf : half.toNat = 2 ^ 31 := rfl
  omega

theorem not_ahead_of_opposite (opposite : a = b + half) :
    ¬0 < signedDifference a b ∧ ¬0 < signedDifference b a := by
  subst opposite
  simp only [signedDifference_pos, UInt32.toNat_sub, UInt32.toNat_add]
  have boundB := b.toNat_lt
  have isHalf : half.toNat = 2 ^ 31 := rfl
  omega

/-- What is neither equal nor opposite to a sum lies between it and its opposite. -/
theorem between_opposites (opposite : a = b + half) (ahead : 0 < signedDifference a c) :
    0 < signedDifference c b := by
  subst opposite
  rw [signedDifference_pos] at ahead ⊢
  simp only [UInt32.toNat_sub, UInt32.toNat_add] at ahead ⊢
  have boundB := b.toNat_lt
  have boundC := c.toNat_lt
  have isHalf : half.toNat = 2 ^ 31 := rfl
  omega

theorem between_opposites' (opposite : a = b + half) (ahead : 0 < signedDifference c b) :
    0 < signedDifference a c := by
  subst opposite
  rw [signedDifference_pos] at ahead ⊢
  simp only [UInt32.toNat_sub, UInt32.toNat_add] at ahead ⊢
  have boundB := b.toNat_lt
  have boundC := c.toNat_lt
  have isHalf : half.toNat = 2 ^ 31 := rfl
  omega

/-- Behind a newest sum, within half the circle, the one that is less far behind is ahead. -/
theorem ahead_iff_of_window (withinA : (m - a).toNat < 2 ^ 31) (withinB : (m - b).toNat < 2 ^ 31) :
    0 < signedDifference a b ↔ (m - a).toNat < (m - b).toNat := by
  rw [signedDifference_pos]
  simp only [UInt32.toNat_sub] at withinA withinB ⊢
  have boundA := a.toNat_lt
  have boundB := b.toNat_lt
  have boundM := m.toNat_lt
  omega

end Circle

/-! ## The last criteria -/

open Connection

/-- The sums lie behind a newest one, within half of the circle. -/
def Window (S : Set (Connection ρ)) : Prop :=
  ∃ newest : UInt32, ∀ c ∈ S, (newest - c.generationSum).toNat < 2 ^ 31

/-- There are two sums only, opposite each other, and each of them goes with one rtt. -/
structure OppositeSums (S : Set (Connection ρ)) : Prop where
  sums : ∃ sum, ∀ c ∈ S, c.generationSum = sum ∨ c.generationSum = sum + half
  rtts : ∀ c ∈ S, ∀ d ∈ S, c.generationSum = d.generationSum → c.rtt = d.rtt

/-- In a window the sums are ordered by how far they are behind. -/
theorem strictWeakOn_of_window {S : Set (Connection ρ)} (window : Window S) :
    StrictWeakOn Ahead S := by
  obtain ⟨newest, within⟩ := window
  have order : StrictWeakOn (Chained (fun c : Connection ρ => (newest - c.generationSum).toNat)
      fun a b => a.rtt.toNat < b.rtt.toNat) S := strictWeakOn_chained.mpr fun _ => strictWeakOn_key
  refine strictWeakOn_congr (fun a memA b memB => ?_) order
  have ahead : a.Younger b ↔ _ := ahead_iff_of_window (within a memA) (within b memB)
  have equal : (newest - a.generationSum).toNat = (newest - b.generationSum).toNat ↔
      a.generationSum = b.generationSum := by
    rw [UInt32.toNat_inj]
    exact UInt32.sub_right_inj newest
  unfold Chained Ahead
  rw [ahead, equal, UInt32.lt_iff_toNat_lt]

/-- Of opposite sums none is ahead. -/
theorem strictWeakOn_of_opposite {S : Set (Connection ρ)} (opposite : OppositeSums S) :
    StrictWeakOn Ahead S := by
  obtain ⟨sum, sums⟩ := opposite.sums
  have never : ∀ a ∈ S, ∀ b ∈ S, ¬a.Ahead b := by
    intro a memA b memB ahead
    rcases ahead with younger | ⟨equal, faster⟩
    · have facing := not_ahead_of_opposite (a := sum + half) (b := sum) rfl
      have same := signedDifference_eq_zero (a := b.generationSum).mpr rfl
      unfold Younger at younger
      rcases sums a memA with isA | isA <;> rcases sums b memB with isB | isB
      · rw [isA, ← isB, same] at younger
        exact lt_irrefl _ younger
      · rw [isA, isB] at younger
        exact facing.2 younger
      · rw [isA, isB] at younger
        exact facing.1 younger
      · rw [isA, ← isB, same] at younger
        exact lt_irrefl _ younger
    · rw [opposite.rtts a memA b memB equal] at faster
      exact UInt32.lt_irrefl _ faster
  exact ⟨fun a mem => never a mem a mem, fun a memA b memB _ => never b memB a memA,
    fun a memA b memB _ _ first => absurd first (never a memA b memB),
    fun a memA _ _ c memC _ _ _ _ => ⟨never a memA c memC, never c memC a memA⟩⟩

/-- Where no sums are opposite, some member of a list is behind none of the others. -/
theorem exists_newest {S : Set (Connection ρ)} (order : StrictWeakOn Ahead S)
    (apart : ∀ a ∈ S, ∀ b ∈ S, a.generationSum ≠ b.generationSum + half) (l : List (Connection ρ))
    (subset : ∀ c ∈ l, c ∈ S) (nonempty : l ≠ []) :
    ∃ m ∈ l, ∀ c ∈ l, m.generationSum = c.generationSum ∨ m.Younger c := by
  induction l with
  | nil => exact absurd rfl nonempty
  | cons a rest ih =>
    by_cases single : rest = []
    · subst single
      exact ⟨a, by simp, by simp⟩
    · obtain ⟨m, listed, newest⟩ := ih (fun c mem => subset c (List.mem_cons_of_mem _ mem)) single
      have memA := subset a List.mem_cons_self
      have memM := subset m (List.mem_cons_of_mem _ listed)
      rcases circle_cases m.generationSum a.generationSum with equal | facing | ahead | behind
      · refine ⟨m, List.mem_cons_of_mem _ listed, fun c mem => ?_⟩
        rcases List.mem_cons.mp mem with rfl | mem
        · exact .inl equal
        · exact newest c mem
      · exact absurd facing (apart m memM a memA)
      · refine ⟨m, List.mem_cons_of_mem _ listed, fun c mem => ?_⟩
        rcases List.mem_cons.mp mem with rfl | mem
        · exact .inr ahead
        · exact newest c mem
      · -- What is behind the newest of the rest is behind `a`, as the order is transitive.
        refine ⟨a, List.mem_cons_self, fun c mem => ?_⟩
        rcases List.mem_cons.mp mem with rfl | mem
        · exact .inl rfl
        · rcases newest c mem with equal | younger
          · exact .inr (by unfold Younger; rw [← equal]; exact behind)
          · have memC := subset c (List.mem_cons_of_mem _ mem)
            rcases order.trans a memA m memM c memC (.inl behind) (.inl younger) with ahead | equal
            · exact .inr ahead
            · exact .inl equal.1

theorem window_of_strictWeakOn {S : Set (Connection ρ)} (order : StrictWeakOn Ahead S)
    (apart : ∀ a ∈ S, ∀ b ∈ S, a.generationSum ≠ b.generationSum + half) {l : List (Connection ρ)}
    (all : ∀ c, c ∈ S ↔ c ∈ l) : Window S := by
  by_cases empty : l = []
  · refine ⟨0, fun c mem => ?_⟩
    rw [all, empty] at mem
    exact absurd mem List.not_mem_nil
  · obtain ⟨m, -, newest⟩ := exists_newest order apart l (fun c mem => (all c).mpr mem) empty
    refine ⟨m.generationSum, fun c mem => ?_⟩
    rcases newest c ((all c).mp mem) with equal | younger
    · simp [equal]
    · exact (signedDifference_pos.mp younger).2

theorem opposite_of_strictWeakOn {S : Set (Connection ρ)} (order : StrictWeakOn Ahead S)
    {a b : Connection ρ} (memA : a ∈ S) (memB : b ∈ S)
    (facing : a.generationSum = b.generationSum + half) : OppositeSums S := by
  have incomparable : ∀ {c d : Connection ρ}, c.generationSum = d.generationSum + half →
      ¬c.Ahead d ∧ ¬d.Ahead c := by
    intro c d facing
    have apart := not_ahead_of_opposite facing
    have differ : c.generationSum ≠ d.generationSum := by
      rw [facing]
      intro equal
      simp [half] at equal
    exact ⟨fun ahead => ahead.elim apart.1 fun equal => differ equal.1,
      fun ahead => ahead.elim apart.2 fun equal => differ equal.1.symm⟩
  have sums : ∀ c ∈ S, c.generationSum = b.generationSum ∨ c.generationSum = b.generationSum + half := by
    intro c memC
    have broken : ∀ d ∈ S, ∀ e ∈ S, d.generationSum = e.generationSum + half →
        ¬0 < signedDifference d.generationSum c.generationSum := by
      intro d memD e memE facing ahead
      exact (incomparable facing).1
        (order.trans d memD c memC e memE (.inl ahead) (.inl (between_opposites facing ahead)))
    have backwards : b.generationSum = a.generationSum + half := by
      rw [facing, UInt32.add_assoc]
      simp [half]
    rcases circle_cases c.generationSum b.generationSum with equal | opposite | ahead | behind
    · exact .inl equal
    · exact .inr opposite
    · exact absurd (between_opposites' facing ahead) (broken a memA b memB facing)
    · exact absurd behind (broken b memB a memA backwards)
  refine ⟨⟨_, sums⟩, fun c memC d memD equal => ?_⟩
  -- Both face the same member, so neither has the smaller rtt.
  obtain ⟨e, memE, facesC, facesD⟩ : ∃ e ∈ S, (¬c.Ahead e ∧ ¬e.Ahead c) ∧ ¬d.Ahead e ∧ ¬e.Ahead d := by
    rcases sums c memC with isC | isC
    · refine ⟨a, memA, (incomparable ?_).symm, (incomparable ?_).symm⟩
      · rw [isC, facing]
      · rw [← equal, isC, facing]
    · exact ⟨b, memB, incomparable isC, incomparable (equal ▸ isC)⟩
  obtain ⟨notFaster, notSlower⟩ :=
    order.incomp c memC e memE d memD facesC.1 facesC.2 facesD.2 facesD.1
  rw [← UInt32.toNat_inj]
  refine le_antisymm (not_lt.mp fun slower => ?_) (not_lt.mp fun faster => ?_)
  · exact notSlower (.inr ⟨equal.symm, UInt32.lt_iff_toNat_lt.mpr slower⟩)
  · exact notFaster (.inr ⟨equal, UInt32.lt_iff_toNat_lt.mpr faster⟩)

theorem ahead_strictWeakOn {S : Set (Connection ρ)} {l : List (Connection ρ)}
    (all : ∀ c, c ∈ S ↔ c ∈ l) : StrictWeakOn Ahead S ↔ Window S ∨ OppositeSums S := by
  constructor
  · intro order
    by_cases apart : ∀ a ∈ S, ∀ b ∈ S, a.generationSum ≠ b.generationSum + half
    · exact .inl (window_of_strictWeakOn order apart all)
    · push Not at apart
      obtain ⟨a, memA, b, memB, facing⟩ := apart
      exact .inr (opposite_of_strictWeakOn order memA memB facing)
  · exact fun spread => spread.elim strictWeakOn_of_window strictWeakOn_of_opposite

/-! ## `ConnectionCompare` -/

section Compare

variable [Mul ρ] [LinearOrder ρ]

def Connection.combinedPreference (c : Connection ρ) : ρ :=
  c.port.preference * c.remote.preference

/-- The criteria in their order: a better write state is a lower one, a better preference a
higher one. -/
theorem connectionCompare_iff (a b : Connection ρ) :
    connectionCompare a b = true ↔
      Chained (fun c : Connection ρ => c.writeState.value)
        (Chained (fun c : Connection ρ => OrderDual.toDual c.combinedPreference) Ahead) a b := by
  unfold connectionCompare compareConnections compareConnectionCandidates Chained
  simp only [OrderDual.toDual_lt_toDual, EmbeddingLike.apply_eq_iff_eq]
  rcases lt_trichotomy a.writeState.value b.writeState.value with better | equal | worse
  · simp [better]
  · rcases lt_trichotomy b.combinedPreference a.combinedPreference with better | tied | worse
    · have better' : b.port.preference * b.remote.preference <
          a.port.preference * a.remote.preference := better
      simp [equal, better, better']
    · have tied' : b.port.preference * b.remote.preference =
          a.port.preference * a.remote.preference := tied
      have younger : 0 < signedDifference (a.remote.generation + a.port.generation)
          (b.remote.generation + b.port.generation) ↔ a.Younger b := Iff.rfl
      have same : signedDifference (a.remote.generation + a.port.generation)
          (b.remote.generation + b.port.generation) = 0 ↔ a.generationSum = b.generationSum :=
        signedDifference_eq_zero
      simp only [equal, tied, tied', lt_irrefl, if_false, false_or, true_and]
      unfold Ahead
      rw [← younger, ← same]
      split
      · next positive => simp [positive]
      · next notPositive =>
        split
        · next negative =>
          simp only [Bool.false_eq_true, false_iff, not_or, not_and]
          exact ⟨notPositive, fun zero => absurd zero negative.ne⟩
        · next notNegative =>
          have zero : signedDifference (a.remote.generation + a.port.generation)
              (b.remote.generation + b.port.generation) = 0 := by omega
          simp [zero]
    · have worse' : a.port.preference * a.remote.preference <
          b.port.preference * b.remote.preference := worse
      simp [equal, worse.ne, worse', lt_asymm worse, lt_asymm worse']
  · simp [worse, lt_asymm worse, worse.ne']

/-- The connections of a list with one write state and one combined preference. -/
def level (l : List (Connection ρ)) (state : WriteState) (preference : ρ) : Set (Connection ρ) :=
  {c | c ∈ l ∧ c.writeState = state ∧ c.combinedPreference = preference}

/-- The comparison is a strict weak order on the connections of a list if and only if among
those of equal write state and preference the sums of the generations lie within half of the
circle, or are two opposite ones without a difference in the rtt. -/
theorem connectionCompare_strictWeakOn (l : List (Connection ρ)) :
    StrictWeakOn (fun a b => connectionCompare a b = true) {c | c ∈ l} ↔
      ∀ state preference, Window (level l state preference) ∨ OppositeSums (level l state preference) := by
  have same := fun a b : Connection ρ => connectionCompare_iff a b
  have chained : StrictWeakOn (fun a b : Connection ρ => connectionCompare a b = true) {c | c ∈ l} ↔
      StrictWeakOn (Chained (fun c : Connection ρ => c.writeState.value)
        (Chained (fun c : Connection ρ => OrderDual.toDual c.combinedPreference) Ahead)) {c | c ∈ l} :=
    ⟨strictWeakOn_congr fun a _ b _ => same a b, strictWeakOn_congr fun a _ b _ => (same a b).symm⟩
  have listed : ∀ state preference, StrictWeakOn Ahead (level l state preference) ↔
      Window (level l state preference) ∨ OppositeSums (level l state preference) := fun state preference =>
    ahead_strictWeakOn (l := l.filter fun c =>
      c.writeState = state ∧ c.combinedPreference = preference) (by simp [level])
  simp only [← listed]
  rw [chained, strictWeakOn_chained]
  constructor
  · intro orders state preference
    refine (strictWeakOn_chained.mp (orders state.value) (OrderDual.toDual preference)).mono ?_
    rintro c ⟨mem, rfl, rfl⟩
    exact ⟨⟨mem, rfl⟩, rfl⟩
  · intro orders k
    refine strictWeakOn_chained.mpr fun q => ?_
    by_cases some : ∃ state : WriteState, state.value = k
    · obtain ⟨state, rfl⟩ := some
      refine (orders state (OrderDual.ofDual q)).mono ?_
      rintro c ⟨⟨mem, sameState⟩, rfl⟩
      refine ⟨mem, ?_, rfl⟩
      cases isC : c.writeState <;> cases state <;> simp_all [WriteState.value]
    · refine (orders .writable (OrderDual.ofDual q)).mono ?_
      rintro c ⟨⟨-, sameState⟩, -⟩
      exact absurd ⟨c.writeState, sameState⟩ some

end Compare

/-- A connection whose remote candidate has a generation, all else being equal. -/
def ofGeneration (id : Nat) (generation : UInt32) : Connection Nat :=
  .new id ⟨0, 0, 1, 0, fun _ _ => some true⟩
    ⟨"rtp", "udp", .nil, 1, "", "", "local", generation⟩ true

/-- Three generations around the circle. -/
theorem three_generations_turn :
    ¬StrictWeakOn (fun a b : Connection Nat => connectionCompare a b = true)
      {c | c ∈ [ofGeneration 0 0, ofGeneration 1 0x55555555, ofGeneration 2 0xAAAAAAAA]} := by
  intro order
  have turned := order.trans (ofGeneration 2 0xAAAAAAAA) (by simp) (ofGeneration 1 0x55555555)
    (by simp) (ofGeneration 0 0) (by simp) (by decide) (by decide)
  exact absurd turned (by decide)

end Libjingle.P2P
