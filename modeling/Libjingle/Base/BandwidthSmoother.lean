import Libjingle.Std.Recent
import Libjingle.Std.Trace
import Libjingle.Std.Word
import Mathlib.Algebra.Order.BigOperators.Group.List
import Mathlib.Algebra.Order.Ring.Nat
import Mathlib.Algebra.Order.Ring.Rat
import Mathlib.Data.Rat.Floor
import Mathlib.Tactic.Linarith

/-!
# Bandwidth smoothing

`BandwidthSmoother` of `talk/base/bandwidthsmoother.cc` lowers its estimate at once, and raises
it only when the samples have been high enough for some time. It averages the last samples
with a `RollingAccumulator`, and compares the time of a sample with a time stamp, which is the
time of the last sample that was too low or that changed the estimate. The times are those of
a clock of 32 bits.

The percentage and the sums, which are floating point numbers in the source, are exact here,
and an estimate is an integer of any size.
-/

namespace Libjingle.Base

open Libjingle.Std

/-- The conversion of a floating point number to an integer. -/
def truncate (q : ℚ) : Int :=
  if 0 ≤ q then ⌊q⌋ else ⌈q⌉

def intMax : Int := 2147483647

/-! ## The average -/

structure RollingAccumulator where
  count : Nat
  sum : Int
  /-- `samples_`, where `next_index_` is the next. -/
  samples : Recent Int

namespace RollingAccumulator

def make (maxCount : Nat) (positive : 0 < maxCount) : RollingAccumulator :=
  ⟨0, 0, .fresh maxCount positive 0⟩

def maxCount (a : RollingAccumulator) : Nat :=
  a.samples.cells.length

def addSample (a : RollingAccumulator) (sample : Int) : RollingAccumulator :=
  let a := if a.count = a.maxCount
    -- The oldest sample is removed.
    then { a with sum := a.sum - a.samples.oldest }
    else { a with count := a.count + 1 }
  { a with samples := a.samples.write sample, sum := a.sum + sample }

def computeMean (a : RollingAccumulator) : Int :=
  if a.count = 0 then 0 else a.sum.tdiv a.count

end RollingAccumulator

/-! ## The estimate -/

structure BandwidthSmoother where
  timeBetweenIncrease : Nat
  percentIncrease : ℚ
  timeAtLastChange : Nat
  bandwidthEstimation : Int
  accumulator : RollingAccumulator

namespace BandwidthSmoother

/-- The constructor. -/
def make (initialBandwidthGuess : Int) (timeBetweenIncrease : Nat) (percentIncrease : ℚ)
    (samplesCountToAverage : Nat) (positive : 0 < samplesCountToAverage) : BandwidthSmoother where
  timeBetweenIncrease := timeBetweenIncrease
  percentIncrease := max 1 percentIncrease
  timeAtLastChange := 0
  bandwidthEstimation := initialBandwidthGuess
  accumulator := .make samplesCountToAverage positive

/-- `Sample`: whether the estimate changed, and the smoother behind it. -/
def sample (s : BandwidthSmoother) (sampleTime : Nat) (bandwidth : Int) :
    Bool × BandwidthSmoother :=
  if bandwidth < 0 then (false, s)
  else
    let s := { s with accumulator := s.accumulator.addSample bandwidth }
    let bandwidth := s.accumulator.computeMean
    if bandwidth < s.bandwidthEstimation then
      (true, { s with timeAtLastChange := sampleTime, bandwidthEstimation := bandwidth })
    else
      let increaseThresholdD : ℚ := s.percentIncrease * s.bandwidthEstimation
      -- If the bandwidth went any higher it would overflow.
      if intMax < increaseThresholdD then (false, s)
      else
        let increaseThreshold := truncate increaseThresholdD
        if bandwidth < increaseThreshold then (false, { s with timeAtLastChange := sampleTime })
        else if add32 s.timeAtLastChange s.timeBetweenIncrease ≤ sampleTime then
          let estimation := if increaseThreshold = 0 then bandwidth.tdiv 2 else increaseThreshold
          (s.bandwidthEstimation ≠ estimation,
            { s with timeAtLastChange := sampleTime, bandwidthEstimation := estimation })
        else (false, s)

end BandwidthSmoother

/-! ## Runs -/

/-- A call of `Sample` at some time, of which the clock shows the last 32 bits. -/
structure SampleCall where
  time : Nat
  bandwidth : Int

/-- What the estimate may be raised to: the product of the percentage and the estimate. -/
def product (percent : ℚ) (estimate : Int) : Int :=
  truncate (percent * estimate)

/-- What the estimate is raised to: if the product is zero, half the mean. -/
def raised (percent : ℚ) (estimate mean : Int) : Int :=
  if product percent estimate = 0 then mean.tdiv 2 else product percent estimate

/-- The truncated mean of the last samples. -/
def lastMean (window : Nat) (accepted : List Int) : Int :=
  (accepted.drop (accepted.length - window)).sum.tdiv (min accepted.length window : Nat)

/-- A smoother, the samples it has accepted so far, and when the estimate changed last or a
mean was below the product. -/
structure Smoothing where
  smoother : BandwidthSmoother
  accepted : List Int
  lastEvent : Option Nat

namespace Smoothing

variable (window : Nat) (percent : ℚ) (between : Nat)

/-- The mean with the sample of a call. -/
def mean (s : Smoothing) (c : SampleCall) : Int :=
  lastMean window (s.accepted ++ [c.bandwidth])

abbrev estimate (s : Smoothing) : Int :=
  s.smoother.bandwidthEstimation

/-- The smoother behind a call. -/
def sampled (s : Smoothing) (c : SampleCall) : BandwidthSmoother :=
  (s.smoother.sample (toWord c.time) c.bandwidth).2

/-- The estimate changes, or the mean is below the product. -/
def Event (s : Smoothing) (c : SampleCall) : Prop :=
  (s.sampled c).bandwidthEstimation ≠ s.estimate ∨ s.mean window c < product percent s.estimate

instance decidableEvent (s : Smoothing) (c : SampleCall) : Decidable (s.Event window percent c) :=
  inferInstanceAs (Decidable (_ ∨ _))

def step (s : Smoothing) (c : SampleCall) : Smoothing :=
  if c.bandwidth < 0 then { s with smoother := s.sampled c }
  else
    { smoother := s.sampled c
      accepted := s.accepted ++ [c.bandwidth]
      lastEvent := if s.Event window percent c then some c.time else s.lastEvent }

def start (smoother : BandwidthSmoother) : Smoothing := ⟨smoother, [], none⟩

/-- What a call does is right. A sample that is not accepted changes nothing. -/
structure Right (s : Smoothing) (c : SampleCall) : Prop where
  refused : c.bandwidth < 0 → s.sampled c = s.smoother
  used : 0 ≤ c.bandwidth →
    (s.smoother.accumulator.addSample c.bandwidth).computeMean = s.mean window c
  down : (s.sampled c).bandwidthEstimation < s.estimate →
    (s.sampled c).bandwidthEstimation = s.mean window c
  up : s.estimate < (s.sampled c).bandwidthEstimation →
    (s.sampled c).bandwidthEstimation = raised percent s.estimate (s.mean window c) ∧
      product percent s.estimate ≤ s.mean window c ∧
      ∀ event, s.lastEvent = some event → event + between ≤ c.time
  due : 0 ≤ c.bandwidth → ∀ event, s.lastEvent = some event → event + between ≤ c.time →
    product percent s.estimate ≤ s.mean window c → percent * s.estimate ≤ intMax →
    (s.sampled c).bandwidthEstimation = raised percent s.estimate (s.mean window c)

/-- The clock has reached the time stamp and the time between two increases. -/
def Reached (s : Smoothing) (c : SampleCall) : Prop :=
  add32 s.smoother.timeAtLastChange between ≤ toWord c.time

instance decidableReached (s : Smoothing) (c : SampleCall) : Decidable (s.Reached between c) :=
  inferInstanceAs (Decidable (_ ≤ _))

/-- Where the estimate would change, the comparison of the clock with the time stamp says
whether the time has passed, and an estimate that is negative is not lowered further. -/
def Clear (s : Smoothing) (c : SampleCall) : Prop :=
  0 ≤ c.bandwidth → product percent s.estimate ≤ s.mean window c →
    percent * s.estimate ≤ intMax →
    (s.estimate < raised percent s.estimate (s.mean window c) →
      ∀ event, s.lastEvent = some event → (s.Reached between c ↔ event + between ≤ c.time)) ∧
    (raised percent s.estimate (s.mean window c) < s.estimate → ¬ s.Reached between c)

end Smoothing

/-! ## The average is that of the last samples -/

structure RollingAccumulator.Averages (a : RollingAccumulator) (window : Nat)
    (accepted : List Int) : Prop where
  holds : a.samples.Holds window 0 accepted
  count : a.count = min accepted.length window
  sum : a.sum = (accepted.drop (accepted.length - window)).sum

theorem RollingAccumulator.make_averages (window : Nat) (positive : 0 < window) :
    (RollingAccumulator.make window positive).Averages window [] := by
  refine ⟨Recent.holds_fresh positive 0, by simp [make], by simp [make]⟩

/-- The sum of the last samples moves by the newest one and the one that falls out. -/
theorem RollingAccumulator.Averages.addSample {a : RollingAccumulator} {window : Nat}
    {accepted : List Int} (averages : a.Averages window accepted) (sample : Int) :
    (a.addSample sample).Averages window (accepted ++ [sample]) := by
  obtain ⟨holds, count, sum⟩ := averages
  have size : a.maxCount = window := holds.length_cells
  have length : (accepted ++ [sample]).length = accepted.length + 1 := by simp
  unfold RollingAccumulator.addSample
  rw [size]
  by_cases full : a.count = window
  · rw [if_pos full]
    have many : window ≤ accepted.length := by omega
    have oldest := holds.oldest_of_le many
    refine ⟨holds.write sample, ?_, ?_⟩
    · dsimp only
      omega
    · obtain ⟨inside, first⟩ := List.getElem?_eq_some_iff.mp oldest
      dsimp only
      rw [sum, List.drop_eq_getElem_cons inside, first, length, Nat.sub_add_comm many,
        List.drop_append_of_le_length (by omega), List.sum_append, List.sum_cons, List.sum_cons]
      simp
  · rw [if_neg full]
    have few : accepted.length < window := by omega
    refine ⟨holds.write sample, ?_, ?_⟩
    · dsimp only
      omega
    · have before : accepted.length - window = 0 := by omega
      have after : accepted.length + 1 - window = 0 := by omega
      dsimp only
      rw [sum, length, before, after, List.drop_zero, List.drop_zero, List.sum_append]
      simp

theorem RollingAccumulator.Averages.computeMean {a : RollingAccumulator} {window : Nat}
    {accepted : List Int} (averages : a.Averages window accepted) :
    a.computeMean = lastMean window accepted := by
  obtain ⟨-, count, sum⟩ := averages
  unfold RollingAccumulator.computeMean lastMean
  rw [count, sum]
  split
  · next none =>
    rw [none]
    exact (Int.tdiv_zero _).symm
  · rfl

theorem lastMean_nonneg {window : Nat} {accepted : List Int} (nonneg : ∀ x ∈ accepted, 0 ≤ x) :
    0 ≤ lastMean window accepted := by
  refine Int.tdiv_nonneg (List.sum_nonneg fun x listed => ?_) (Int.natCast_nonneg _)
  exact nonneg x (List.mem_of_mem_drop listed)

/-! ## The product -/

theorem le_product {percent : ℚ} {estimate : Int} (atLeast : 1 ≤ percent) (nonneg : 0 ≤ estimate) :
    estimate ≤ product percent estimate := by
  have cast : (0 : ℚ) ≤ estimate := Int.cast_nonneg nonneg
  have more : (estimate : ℚ) ≤ percent * estimate := le_mul_of_one_le_left cast atLeast
  unfold product truncate
  rw [if_pos (cast.trans more)]
  exact Int.le_floor.mpr more

theorem product_le {percent : ℚ} {estimate : Int} (atLeast : 1 ≤ percent)
    (nonpos : estimate ≤ 0) : product percent estimate ≤ estimate := by
  have cast : (estimate : ℚ) ≤ 0 := Int.cast_nonpos.mpr nonpos
  have less : percent * estimate ≤ estimate := by nlinarith
  unfold product truncate
  split
  · exact Int.floor_le_iff.mpr (lt_of_le_of_lt less (lt_add_one _))
  · exact Int.ceil_le.mpr less

/-- Only a negative estimate is above what it is raised to. -/
theorem le_raised {percent : ℚ} {estimate mean : Int} (atLeast : 1 ≤ percent)
    (nonneg : 0 ≤ estimate) (mean_nonneg : 0 ≤ mean) : estimate ≤ raised percent estimate mean := by
  have below := le_product atLeast nonneg
  unfold raised
  split
  · next zero =>
    have half := Int.tdiv_nonneg mean_nonneg (by decide : (0 : Int) ≤ 2)
    omega
  · exact below

/-! ## A call -/

namespace Smoothing

variable {window : Nat} {percent : ℚ} {between : Nat} {s : Smoothing} {c : SampleCall}

structure Sound (window : Nat) (percent : ℚ) (between : Nat) (s : Smoothing) : Prop where
  percent_eq : s.smoother.percentIncrease = percent
  between_eq : s.smoother.timeBetweenIncrease = between
  nonneg : ∀ x ∈ s.accepted, 0 ≤ x
  average : s.smoother.accumulator.Averages window s.accepted
  negative : s.estimate < 0 → s.lastEvent = none

theorem Sound.used (sound : Sound window percent between s) (c : SampleCall) :
    (s.smoother.accumulator.addSample c.bandwidth).computeMean = s.mean window c :=
  (sound.average.addSample c.bandwidth).computeMean

theorem Sound.mean_nonneg (sound : Sound window percent between s) (accepted : 0 ≤ c.bandwidth) :
    0 ≤ s.mean window c := by
  refine lastMean_nonneg fun x listed => ?_
  rcases List.mem_append.mp listed with early | last
  · exact sound.nonneg x early
  · rw [List.mem_singleton.mp last]
    exact accepted

theorem sampled_refused (s : Smoothing) (refused : c.bandwidth < 0) : s.sampled c = s.smoother := by
  rw [sampled, BandwidthSmoother.sample, if_pos refused]

/-- What becomes of the estimate. -/
theorem estimate_sampled (sound : Sound window percent between s) (accepted : 0 ≤ c.bandwidth) :
    (s.sampled c).bandwidthEstimation =
      if s.mean window c < s.estimate then s.mean window c
      else if percent * s.estimate ≤ intMax ∧ product percent s.estimate ≤ s.mean window c ∧
          s.Reached between c then raised percent s.estimate (s.mean window c)
      else s.estimate := by
  unfold sampled BandwidthSmoother.sample
  rw [if_neg (not_lt.mpr accepted)]
  dsimp only
  rw [sound.used, sound.percent_eq, sound.between_eq]
  split
  · rfl
  split
  · next beyond => rw [if_neg fun all => not_lt.mpr all.1 beyond]
  split
  · next low => rw [if_neg fun all => not_lt.mpr all.2.1 low]
  rename_i fits high
  by_cases reached : s.Reached between c
  · have late : add32 s.smoother.timeAtLastChange between ≤ toWord c.time := reached
    have all : percent * s.estimate ≤ intMax ∧ product percent s.estimate ≤ s.mean window c ∧
      s.Reached between c := ⟨not_lt.mp fits, not_lt.mp high, reached⟩
    rw [if_pos late, if_pos all]
    rfl
  · have early : ¬ add32 s.smoother.timeAtLastChange between ≤ toWord c.time := reached
    rw [if_neg early, if_neg fun all => reached all.2.2]

/-- A call does what is right if and only if the clock does not mislead it. -/
theorem right_iff_clear (atLeast : 1 ≤ percent) (sound : Sound window percent between s)
    (c : SampleCall) : s.Right window percent between c ↔ s.Clear window percent between c := by
  by_cases refused : c.bandwidth < 0
  · have same := sampled_refused s refused
    have kept : (s.sampled c).bandwidthEstimation = s.estimate := by rw [same]
    refine iff_of_true ⟨fun _ => same, fun accepted => ?_, fun down => ?_, fun up => ?_,
      fun accepted => ?_⟩ fun accepted => ?_ <;> omega
  have accepted : 0 ≤ c.bandwidth := not_lt.mp refused
  have mean := sound.mean_nonneg accepted
  have negative := sound.negative
  have becomes := estimate_sampled sound accepted
  have keeps : 0 ≤ s.estimate → s.estimate ≤ raised percent s.estimate (s.mean window c) :=
    fun nonneg => le_raised atLeast nonneg mean
  have above : 0 ≤ s.estimate → s.estimate ≤ product percent s.estimate := le_product atLeast
  by_cases lower : s.mean window c < s.estimate
  · -- The estimate goes down to the mean, which is below the product.
    rw [if_pos lower] at becomes
    have short := above (by omega)
    refine iff_of_true ⟨?_, fun _ => sound.used c, ?_, ?_, ?_⟩ ?_
    · exact fun low => absurd low refused
    · exact fun _ => becomes
    · intro up
      omega
    · intro _ event _ _ high
      omega
    · intro _ high
      omega
  rw [if_neg lower] at becomes
  by_cases tested : percent * s.estimate ≤ intMax ∧ product percent s.estimate ≤ s.mean window c
  · obtain ⟨fits, high⟩ := tested
    by_cases reached : s.Reached between c
    · -- The estimate is raised.
      rw [if_pos ⟨fits, high, reached⟩] at becomes
      constructor
      · intro right _ _ _
        refine ⟨fun more event at_ => iff_of_true reached ?_, fun less => ?_⟩
        · exact (right.up (becomes.symm ▸ more)).2.2 event at_
        · have down := right.down (becomes.symm ▸ less)
          omega
      · intro clear
        obtain ⟨time, kept⟩ := clear accepted high fits
        refine ⟨?_, fun _ => sound.used c, ?_, ?_, ?_⟩
        · exact fun low => absurd low refused
        · exact fun down => absurd reached (kept (becomes ▸ down))
        · intro up
          rw [becomes] at up
          exact ⟨becomes, high, fun event at_ => (time up event at_).mp reached⟩
        · exact fun _ _ _ _ _ _ => becomes
    · -- The time has not come, as the clock shows it.
      rw [if_neg fun all => reached all.2.2] at becomes
      constructor
      · intro right _ _ _
        refine ⟨fun more event at_ => iff_of_false reached fun late => ?_, fun _ => reached⟩
        have due := right.due accepted event at_ late high fits
        omega
      · intro clear
        obtain ⟨time, -⟩ := clear accepted high fits
        refine ⟨?_, fun _ => sound.used c, ?_, ?_, ?_⟩
        · exact fun low => absurd low refused
        · intro down
          omega
        · intro up
          omega
        · intro _ event at_ late _ _
          rcases lt_trichotomy s.estimate (raised percent s.estimate (s.mean window c)) with
            more | same | less
          · exact absurd ((time more event at_).mpr late) reached
          · rw [becomes, ← same]
          · rw [negative (by omega)] at at_
            cases at_
  · rw [if_neg fun all => tested ⟨all.1, all.2.1⟩] at becomes
    refine iff_of_true ⟨?_, fun _ => sound.used c, ?_, ?_, ?_⟩ ?_
    · exact fun low => absurd low refused
    · intro down
      omega
    · intro up
      omega
    · exact fun _ _ _ _ high fits => absurd ⟨fits, high⟩ tested
    · exact fun _ high fits => absurd ⟨fits, high⟩ tested

/-- A sample that is accepted goes into the average. -/
theorem sampled_accumulator (s : Smoothing) (accepted : 0 ≤ c.bandwidth) :
    (s.sampled c).accumulator = s.smoother.accumulator.addSample c.bandwidth := by
  unfold sampled BandwidthSmoother.sample
  rw [if_neg (not_lt.mpr accepted)]
  dsimp only
  split
  · rfl
  split
  · rfl
  split
  · rfl
  split <;> rfl

theorem sampled_parameters (s : Smoothing) (c : SampleCall) :
    (s.sampled c).percentIncrease = s.smoother.percentIncrease ∧
      (s.sampled c).timeBetweenIncrease = s.smoother.timeBetweenIncrease := by
  unfold sampled BandwidthSmoother.sample
  dsimp only
  split
  · exact ⟨rfl, rfl⟩
  split
  · exact ⟨rfl, rfl⟩
  split
  · exact ⟨rfl, rfl⟩
  split
  · exact ⟨rfl, rfl⟩
  split <;> exact ⟨rfl, rfl⟩

/-- A call that does what is right keeps the average, and leaves a negative estimate alone. -/
theorem Sound.step (atLeast : 1 ≤ percent) (sound : Sound window percent between s)
    (right : s.Right window percent between c) :
    Sound window percent between (s.step window percent c) := by
  unfold Smoothing.step
  split
  · next refused =>
    rw [right.refused refused]
    exact sound
  · next accepted =>
    have accepted : 0 ≤ c.bandwidth := not_lt.mp accepted
    have mean := sound.mean_nonneg accepted
    refine ⟨?_, ?_, ?_, ?_, fun negative => ?_⟩
    · exact (sampled_parameters s c).1.trans sound.percent_eq
    · exact (sampled_parameters s c).2.trans sound.between_eq
    · intro x listed
      rcases List.mem_append.mp listed with early | last
      · exact sound.nonneg x early
      · rw [List.mem_singleton.mp last]
        exact accepted
    · dsimp only
      rw [sampled_accumulator s accepted]
      exact sound.average.addSample c.bandwidth
    · have negative : (s.sampled c).bandwidthEstimation < 0 := negative
      have stays : (s.sampled c).bandwidthEstimation = s.estimate := by
        rcases lt_trichotomy (s.sampled c).bandwidthEstimation s.estimate with less | same | more
        · have down := right.down less
          omega
        · exact same
        · have up := (right.up more).1
          have below := product_le atLeast (by omega : s.estimate ≤ 0)
          have half := Int.tdiv_nonneg mean (by decide : (0 : Int) ≤ 2)
          unfold raised at up
          split at up <;> omega
      have quiet : ¬ s.Event window percent c := by
        rintro (changes | low)
        · exact changes stays
        · have below := product_le atLeast (by omega : s.estimate ≤ 0)
          omega
      dsimp only
      rw [if_neg quiet]
      exact sound.negative (by omega)

theorem sound_start (initial : Int) (between : Nat) (positive : 0 < window) (atLeast : 1 ≤ percent) :
    Sound window percent between (start (.make initial between percent window positive)) where
  percent_eq := max_eq_right atLeast
  between_eq := rfl
  nonneg := fun x listed => by cases listed
  average := RollingAccumulator.make_averages window positive
  negative := fun _ => rfl

/-- The smoother does what is right in the runs in which the clock never misleads it, and only
in these. -/
theorem smooths_iff_clear {initial : Int} {calls : List SampleCall} (positive : 0 < window)
    (atLeast : 1 ≤ percent) :
    Along (step window percent) (Right window percent between)
        (start (.make initial between percent window positive)) calls ↔
      Along (step window percent) (Clear window percent between)
        (start (.make initial between percent window positive)) calls :=
  along_congr_of_invariant (P := Sound window percent between)
    (fun _ _ sound right => sound.step atLeast right)
    (fun _ c sound => right_iff_clear atLeast sound c)
    (sound_start initial between positive atLeast) calls

/-- When the time stamp is that of the last event, the clock does not mislead within a round. -/
theorem reached_iff {event : Nat} (stamped : s.smoother.timeAtLastChange = toWord event)
    (sameRound : (event + between) / 2 ^ 32 = c.time / 2 ^ 32) :
    s.Reached between c ↔ event + between ≤ c.time := by
  unfold Reached
  rw [stamped, add32, toWord, toWord]
  omega

/-! ## A sample at the end of a round

The estimate is a hundred, half as much again is the next one, and ten seconds lie between. -/

private def hundred : Smoothing :=
  start (.make 100 10000 (3 / 2) 1 (by decide))

/-- Eleven seconds after it went down to fifty, the estimate goes up. -/
theorem smooths_later :
    Along (step 1 (3 / 2)) (Right 1 (3 / 2) 10000) hundred [⟨1000, 50⟩, ⟨12000, 80⟩] := by
  refine (smooths_iff_clear (by decide) (by decide +kernel)).mpr ⟨?_, ?_, trivial⟩
  · intro _ high
    exact absurd high (by decide +kernel)
  · intro _ _ _
    refine ⟨fun _ event last => ?_, fun less => absurd less (by decide +kernel)⟩
    have down : (hundred.step 1 (3 / 2) ⟨1000, 50⟩).lastEvent = some 1000 := by decide +kernel
    obtain rfl : event = 1000 := Option.some.inj (last.symm.trans down)
    exact reached_iff (by decide +kernel) (by decide +kernel)

/-- Shortly before the clock starts over the estimate goes down, and up a millisecond later. -/
theorem not_smooths_wrap :
    ¬ Along (step 1 (3 / 2)) (Right 1 (3 / 2) 10000) hundred
      [⟨4294962296, 50⟩, ⟨4294962297, 100⟩] := by
  rintro ⟨-, second, -⟩
  have down : (hundred.step 1 (3 / 2) ⟨4294962296, 50⟩).lastEvent = some 4294962296 := by
    decide +kernel
  have raised := second.up (by decide +kernel)
  exact absurd (raised.2.2 _ down) (by decide)

end Smoothing

end Libjingle.Base
