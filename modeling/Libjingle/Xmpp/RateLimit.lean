import Libjingle.Std.OrderedMap
import Libjingle.Std.Recent
import Libjingle.Std.Trace
import Libjingle.Std.Word
import Mathlib.Algebra.Order.Ring.Nat
import Mathlib.Data.List.Basic

/-!
# The rate limits of the client

`RateLimitManager` of `talk/xmpp/ratelimitmanager.cc` lets so many events of a name happen in
so many seconds. It keeps the times of the last events of each name in a ring, and lets an
event happen when the one that is a whole ring back is old enough. The times are those of a
clock of 32 bits, and a cell that has not been used yet holds zero.
-/

namespace Libjingle.Xmpp

open Libjingle.Std

def kSecToMsec : Int := 1000

structure RateLimit where
  maxCount : Nat
  perXSeconds : Int
  /-- `event_times_`, where `counter_` is the next. -/
  eventTimes : Recent Nat

namespace RateLimit

/-- The constructor. -/
def make (maxCount : Nat) (positive : 0 < maxCount) (perXSeconds : Int) : RateLimit :=
  ⟨maxCount, perXSeconds, .fresh maxCount positive 0⟩

/-- The time at which the `maxCount`-th last event occurred. -/
def previousTimeAtCounter (r : RateLimit) : Nat :=
  r.eventTimes.oldest

def nextTimeAllowedForCounter (r : RateLimit) : Nat :=
  ((r.previousTimeAtCounter + r.perXSeconds * kSecToMsec) % 2 ^ 32).toNat

/-- `TimeSince` of the time at which the next event is allowed. -/
def isWithinRateLimit (r : RateLimit) (clock : Nat) : Bool :=
  0 ≤ timeDiff clock r.nextTimeAllowedForCounter

def updateRateLimit (r : RateLimit) (clock : Nat) : RateLimit :=
  { r with eventTimes := r.eventTimes.write clock }

end RateLimit

/-- A call of `VerifyRateLimit` at some time, of which the clock shows the last 32 bits. -/
structure VerifyCall (ν : Type) where
  eventName : ν
  maxCount : Nat
  positive : 0 < maxCount
  perXSeconds : Int
  alwaysUpdate : Bool
  time : Nat

variable {ν : Type} [LinearOrder ν]

/-- `rate_limits_`. -/
abbrev RateLimitManager (ν : Type) [LinearOrder ν] := OrderedMap ν RateLimit

namespace RateLimitManager

def isWithinRateLimit (m : RateLimitManager ν) (eventName : ν) (clock : Nat) : Bool :=
  match m.get eventName with
  | some currentRate => currentRate.isWithinRateLimit clock
  -- If no rate limit is set, the event is within.
  | none => true

def updateRateLimit (m : RateLimitManager ν) (c : VerifyCall ν) : RateLimitManager ν :=
  let currentRate := (m.get c.eventName).getD (.make c.maxCount c.positive c.perXSeconds)
  m.insert c.eventName (currentRate.updateRateLimit (toWord c.time))

def verifyRateLimit (m : RateLimitManager ν) (c : VerifyCall ν) : Bool × RateLimitManager ν :=
  let withinRateLimit := m.isWithinRateLimit c.eventName (toWord c.time)
  (withinRateLimit,
    if withinRateLimit || c.alwaysUpdate then m.updateRateLimit c else m)

end RateLimitManager

/-! ## Runs -/

/-- A manager, and the calls so far with their answers. -/
structure Limiting (ν : Type) [LinearOrder ν] where
  manager : RateLimitManager ν
  calls : List (VerifyCall ν × Bool)

namespace Limiting

def start : Limiting ν := ⟨.empty, []⟩

def verify (s : Limiting ν) (c : VerifyCall ν) : Limiting ν :=
  let verified := s.manager.verifyRateLimit c
  ⟨verified.2, s.calls ++ [(c, verified.1)]⟩

/-- The times of the calls for a name that returned true. -/
def admitted (s : Limiting ν) (name : ν) : List Nat :=
  (s.calls.filter fun call => call.1.eventName = name ∧ call.2).map fun call => call.1.time

/-- How many of the events lie in the last milliseconds before a time. -/
def within (width : Int) (events : List Nat) (time : Nat) : Nat :=
  events.countP fun event : Nat => (time : Int) - event < width

/-- How many of the events lie in a window. -/
def between (first width : Int) (events : List Nat) : Nat :=
  events.countP fun event : Nat => first ≤ event ∧ event < first + width

/-- The answer to a call is right: there is room for the event. -/
def Right (name : ν) (maxCount : Nat) (width : Int) (s : Limiting ν) (c : VerifyCall ν) : Prop :=
  c.eventName = name →
    ((s.manager.verifyRateLimit c).1 = true ↔ within width (s.admitted name) c.time < maxCount)

/-- Every answer for the name is right, and no window has too many events. -/
structure Limits (name : ν) (maxCount : Nat) (width : Int) (calls : List (VerifyCall ν)) : Prop where
  exact : Along verify (Right name maxCount width) start calls
  bounded : ∀ first : Int,
    between first width ((runInputs verify start calls).admitted name) ≤ maxCount

/-- The `maxCount`-th last of the events, and zero if there are fewer. -/
def reference (maxCount : Nat) (events : List Nat) : Nat :=
  if maxCount ≤ events.length then events.getD (events.length - maxCount) 0 else 0

/-- Where there is room for an event and it is not the first one, the clock does not take the
time that the event would have had to wait for another one. -/
def Clear (name : ν) (maxCount : Nat) (width : Int) (s : Limiting ν) (c : VerifyCall ν) : Prop :=
  c.eventName = name → s.admitted name ≠ [] → within width (s.admitted name) c.time < maxCount →
    ((c.time : Int) - reference maxCount (s.admitted name) - width) % 2 ^ 32 < 2 ^ 31

/-! ## The ring -/

variable {name : ν} {maxCount : Nat} {perXSeconds width : Int} {s : Limiting ν} {c : VerifyCall ν}

/-- A call for the name has the limit of the name. -/
def Fixed (name : ν) (maxCount : Nat) (perXSeconds : Int) (c : VerifyCall ν) : Prop :=
  c.eventName = name →
    c.maxCount = maxCount ∧ c.perXSeconds = perXSeconds ∧ c.alwaysUpdate = false

/-- The limit of the name is there once an event has been admitted, and its ring holds what
the clock showed at the last ones. -/
def Sound (name : ν) (maxCount : Nat) (perXSeconds : Int) (s : Limiting ν) : Prop :=
  match s.manager.get name with
  | none => s.admitted name = []
  | some r => r.maxCount = maxCount ∧ r.perXSeconds = perXSeconds ∧ s.admitted name ≠ [] ∧
      r.eventTimes.Holds maxCount 0 ((s.admitted name).map toWord)

theorem sound_start (name : ν) (maxCount : Nat) (perXSeconds : Int) :
    Sound name maxCount perXSeconds (start : Limiting ν) := rfl

theorem admitted_verify (s : Limiting ν) (c : VerifyCall ν) (name : ν) :
    (s.verify c).admitted name =
      if c.eventName = name ∧ (s.manager.verifyRateLimit c).1 = true then
        s.admitted name ++ [c.time]
      else s.admitted name := by
  unfold verify admitted
  dsimp only
  rw [List.filter_append, List.map_append, List.filter_cons, List.filter_nil]
  by_cases counts : c.eventName = name ∧ (s.manager.verifyRateLimit c).1 = true
  · rw [if_pos (decide_eq_true counts), if_pos counts]
    rfl
  · rw [if_neg fun both => counts (of_decide_eq_true both), if_neg counts]
    exact List.append_nil _

theorem get_verify (s : Limiting ν) (c : VerifyCall ν) (name : ν) :
    (s.verify c).manager.get name =
      if c.eventName = name ∧ ((s.manager.verifyRateLimit c).1 || c.alwaysUpdate) = true then
        some (((s.manager.get c.eventName).getD
          (.make c.maxCount c.positive c.perXSeconds)).updateRateLimit (toWord c.time))
      else s.manager.get name := by
  unfold verify RateLimitManager.verifyRateLimit RateLimitManager.updateRateLimit
  dsimp only
  split
  · next updates =>
    rw [OrderedMap.get_insert, updates]
    simp only [and_true, eq_comm]
  · next stays => rw [if_neg fun both => stays both.2]

/-- A call keeps the ring. -/
theorem Sound.verify (sound : Sound name maxCount perXSeconds s)
    (fixed : Fixed name maxCount perXSeconds c) : Sound name maxCount perXSeconds (s.verify c) := by
  unfold Sound at sound ⊢
  rw [admitted_verify, get_verify]
  by_cases same : c.eventName = name
  · obtain ⟨count, seconds, once⟩ := fixed same
    subst same count seconds
    rw [once, Bool.or_false]
    by_cases updates : (s.manager.verifyRateLimit c).1 = true
    · rw [if_pos ⟨rfl, updates⟩, if_pos ⟨rfl, updates⟩]
      dsimp only
      cases found : s.manager.get c.eventName with
      | none =>
        rw [found] at sound
        dsimp only at sound
        rw [sound]
        exact ⟨rfl, rfl, List.cons_ne_nil _ _, (Recent.holds_fresh c.positive 0).write _⟩
      | some r =>
        rw [found] at sound
        obtain ⟨count, seconds, -, holds⟩ := sound
        refine ⟨count, seconds, by simp, ?_⟩
        rw [List.map_append]
        exact holds.write _
    · rw [if_neg fun both => updates both.2, if_neg fun both => updates both.2]
      exact sound
  · rw [if_neg fun both => same both.1, if_neg fun both => same both.1]
    exact sound

/-! ## The answer -/

/-- A time is past another one and the width, on the clock. -/
theorem timeDiff_nonneg_iff (time event : Nat) (width : Int) :
    0 ≤ timeDiff (toWord time) ((toWord event + width) % 2 ^ 32).toNat ↔
      ((time : Int) - event - width) % 2 ^ 32 < 2 ^ 31 := by
  have gap : (sub32 (toWord time) ((toWord event + width) % 2 ^ 32).toNat : Int) =
      ((time : Int) - event - width) % 2 ^ 32 := by
    simp only [sub32, toWord]
    omega
  unfold timeDiff toInt32
  generalize sub32 _ _ = after at gap ⊢
  by_cases half : after < 2 ^ 31
  · rw [if_pos half]
    omega
  · rw [if_neg half]
    omega

/-- The next cell of the ring is that of the reference. -/
theorem oldest_eq_reference {r : RateLimit} {events : List Nat}
    (holds : r.eventTimes.Holds maxCount 0 (events.map toWord)) :
    r.eventTimes.oldest = toWord (reference maxCount events) := by
  have size : (events.map toWord).length = events.length := List.length_map _
  unfold reference
  split
  · next many =>
    have found := holds.oldest_of_le (size.symm ▸ many)
    rw [size, List.getElem?_map, Option.map_eq_some_iff] at found
    obtain ⟨event, here, shown⟩ := found
    rw [List.getD_eq_getElem?_getD, here, Option.getD_some, shown]
  · next few => exact holds.oldest_of_lt (size.symm ▸ Nat.lt_of_not_le few)

/-- The answer in terms of the events. -/
theorem verifyRateLimit_iff (sound : Sound name maxCount perXSeconds s)
    (named : c.eventName = name) :
    (s.manager.verifyRateLimit c).1 = true ↔ s.admitted name = [] ∨
      ((c.time : Int) - reference maxCount (s.admitted name) - perXSeconds * kSecToMsec) % 2 ^ 32 <
        2 ^ 31 := by
  unfold RateLimitManager.verifyRateLimit RateLimitManager.isWithinRateLimit
  unfold Sound at sound
  dsimp only
  rw [named]
  cases found : s.manager.get name with
  | none =>
    rw [found] at sound
    exact iff_of_true rfl (.inl sound)
  | some r =>
    rw [found] at sound
    obtain ⟨-, rfl, some, holds⟩ := sound
    rw [← timeDiff_nonneg_iff, ← oldest_eq_reference holds, or_iff_right some]
    exact decide_eq_true_iff

/-- The events so far are in order, and those to come are later. -/
structure Timely (name : ν) (s : Limiting ν) (later : List (VerifyCall ν)) : Prop where
  sorted : (s.admitted name).Pairwise (· ≤ ·)
  before : ∀ event ∈ s.admitted name, ∀ c ∈ later, event ≤ c.time
  later : later.Pairwise fun c c' => c.time ≤ c'.time

theorem Timely.verify {rest : List (VerifyCall ν)} (timely : Timely name s (c :: rest)) :
    Timely name (s.verify c) rest := by
  obtain ⟨here, later⟩ := List.pairwise_cons.mp timely.later
  have before : ∀ event ∈ s.admitted name, event ≤ c.time :=
    fun event listed => timely.before event listed c List.mem_cons_self
  refine ⟨?_, fun event listed c' ahead => ?_, later⟩
  · rw [admitted_verify]
    split
    · refine List.pairwise_append.mpr ⟨timely.sorted, List.pairwise_singleton _ _, ?_⟩
      exact fun event listed last same => List.mem_singleton.mp same ▸ before event listed
    · exact timely.sorted
  · rw [admitted_verify] at listed
    split at listed
    · rcases List.mem_append.mp listed with early | last
      · exact timely.before event early c' (List.mem_cons_of_mem _ ahead)
      · exact List.mem_singleton.mp last ▸ here c' ahead
    · exact timely.before event listed c' (List.mem_cons_of_mem _ ahead)

/-- An event that is admitted has room: the one that is a whole ring back is older than the
width, or the ring is not full. -/
theorem within_lt {events : List Nat} {time : Nat} (positive : 0 < maxCount)
    (sorted : events.Pairwise (· ≤ ·)) (before : ∀ event ∈ events, event ≤ time)
    (width_lt : width < 2 ^ 31)
    (past : ((time : Int) - reference maxCount events - width) % 2 ^ 32 < 2 ^ 31) :
    within width events time < maxCount := by
  refine Nat.lt_of_not_le fun enough => ?_
  have upwards : events.Pairwise fun a b : Nat =>
      decide ((time : Int) - a < width) = true → decide ((time : Int) - b < width) = true := by
    refine sorted.imp fun {a b} le => ?_
    simp only [decide_eq_true_eq]
    omega
  obtain ⟨event, found, recent⟩ := holds_of_le_countP upwards positive enough
  have many : maxCount ≤ events.length := enough.trans List.countP_le_length
  have last : reference maxCount events = event := by
    rw [reference, if_pos many, List.getD_eq_getElem?_getD, found, Option.getD_some]
  have earlier := before event (List.mem_of_getElem? found)
  have recent := of_decide_eq_true recent
  rw [last] at past
  omega

/-- A call is answered right if and only if the clock does not take the time away. -/
theorem right_iff_clear (sound : Sound name maxCount perXSeconds s)
    (fixed : Fixed name maxCount perXSeconds c) {rest : List (VerifyCall ν)}
    (timely : Timely name s (c :: rest)) (short : perXSeconds * kSecToMsec < 2 ^ 31) :
    Right name maxCount (perXSeconds * kSecToMsec) s c ↔
      Clear name maxCount (perXSeconds * kSecToMsec) s c := by
  refine forall_congr' fun named => ?_
  have positive : 0 < maxCount := (fixed named).1 ▸ c.positive
  rw [verifyRateLimit_iff sound named]
  by_cases first : s.admitted name = []
  · have room : within (perXSeconds * kSecToMsec) (s.admitted name) c.time < maxCount := by
      rwa [first]
    exact iff_of_true (iff_of_true (.inl first) room) fun some => absurd first some
  · rw [or_iff_right first]
    have before := fun event listed => timely.before event listed c List.mem_cons_self
    have sound := within_lt positive timely.sorted before short
    exact ⟨fun right _ room => right.mpr room, fun clear => ⟨sound, clear first⟩⟩

/-- What is admitted fits into every window. -/
theorem bounded_verify (sound : Sound name maxCount perXSeconds s)
    (fixed : Fixed name maxCount perXSeconds c) {rest : List (VerifyCall ν)}
    (timely : Timely name s (c :: rest)) (short : perXSeconds * kSecToMsec < 2 ^ 31) (first : Int)
    (bounded : between first (perXSeconds * kSecToMsec) (s.admitted name) ≤ maxCount) :
    between first (perXSeconds * kSecToMsec) ((s.verify c).admitted name) ≤ maxCount := by
  rw [admitted_verify]
  split
  · next admits =>
    have positive : 0 < maxCount := (fixed admits.1).1 ▸ c.positive
    have before := fun event listed => timely.before event listed c List.mem_cons_self
    unfold between at bounded ⊢
    rw [List.countP_append, List.countP_singleton]
    split
    · next inside =>
      have inside := of_decide_eq_true inside
      have room : within (perXSeconds * kSecToMsec) (s.admitted name) c.time < maxCount := by
        rcases (verifyRateLimit_iff sound admits.1).mp admits.2 with none | past
        · rwa [none]
        · exact within_lt positive timely.sorted before short past
      have fewer : between first (perXSeconds * kSecToMsec) (s.admitted name) ≤
          within (perXSeconds * kSecToMsec) (s.admitted name) c.time := by
        refine List.countP_mono_left fun event _ there => ?_
        have there := of_decide_eq_true there
        exact decide_eq_true (by omega)
      exact Nat.lt_of_le_of_lt fewer room
    · omega
  · exact bounded

/-- By induction on the calls. Each keeps the ring, the order and the bound. -/
theorem run {calls : List (VerifyCall ν)}
    (fixed : ∀ c ∈ calls, Fixed name maxCount perXSeconds c)
    (short : perXSeconds * kSecToMsec < 2 ^ 31) (sound : Sound name maxCount perXSeconds s)
    (timely : Timely name s calls)
    (bounded : ∀ first, between first (perXSeconds * kSecToMsec) (s.admitted name) ≤ maxCount) :
    (Along verify (Right name maxCount (perXSeconds * kSecToMsec)) s calls ↔
        Along verify (Clear name maxCount (perXSeconds * kSecToMsec)) s calls) ∧
      ∀ first, between first (perXSeconds * kSecToMsec)
        ((runInputs verify s calls).admitted name) ≤ maxCount := by
  induction calls generalizing s with
  | nil => exact ⟨Iff.rfl, bounded⟩
  | cons c rest ih =>
    have here : Fixed name maxCount perXSeconds c := fixed c List.mem_cons_self
    obtain ⟨later, bound⟩ := ih (fun c' listed => fixed c' (List.mem_cons_of_mem _ listed))
      (sound.verify here) timely.verify
      fun first => bounded_verify sound here timely short first (bounded first)
    exact ⟨and_congr (right_iff_clear sound here timely short) later, bound⟩

/-- Rate limiting is exact in the runs in which the clock never takes the time away from an
event that there is room for, and only in these. Calls for other names do not matter. -/
theorem limits_iff_clear {calls : List (VerifyCall ν)}
    (fixed : ∀ c ∈ calls, Fixed name maxCount perXSeconds c)
    (inOrder : calls.Pairwise fun c c' => c.time ≤ c'.time)
    (short : perXSeconds * kSecToMsec < 2 ^ 31) :
    Limits name maxCount (perXSeconds * kSecToMsec) calls ↔
      Along verify (Clear name maxCount (perXSeconds * kSecToMsec)) start calls := by
  have timely : Timely name (start : Limiting ν) calls :=
    ⟨.nil, fun event listed => (by cases listed), inOrder⟩
  obtain ⟨exact_iff, bounded⟩ :=
    run fixed short (sound_start name maxCount perXSeconds) timely fun first => Nat.zero_le _
  exact ⟨fun limits => exact_iff.mp limits.exact, fun clear => ⟨exact_iff.mpr clear, bounded⟩⟩

/-! ## Two events -/

/-- Two events in a second are allowed. -/
private def twice (time : Nat) : VerifyCall Nat := ⟨0, 2, by decide, 1, false, time⟩

/-- Early on, the second event happens at once. -/
theorem limits_early : Limits 0 2 1000 [twice 5000, twice 5000] := by
  have fixed : ∀ c ∈ [twice 5000, twice 5000], Fixed 0 2 1 c := by
    intro c listed named
    simp only [List.mem_cons, List.not_mem_nil, or_false, or_self] at listed
    subst listed
    exact ⟨rfl, rfl, rfl⟩
  refine (limits_iff_clear fixed (by decide) (by decide)).mpr ⟨?_, ?_, trivial⟩
  · exact fun _ some => absurd rfl some
  · exact fun _ _ _ => by decide +kernel

/-- When the clock is past the middle of its range, the second event is refused, though there
is room for it. -/
theorem not_limits_late : ¬ Limits 0 2 1000 [twice 3000000000, twice 3000000000] := by
  intro limits
  obtain ⟨-, second, -⟩ := limits.exact
  have room := (second rfl).mpr (by decide +kernel)
  have refused : ((start.verify (twice 3000000000)).manager.verifyRateLimit
    (twice 3000000000)).1 = false := by decide +kernel
  rw [refused] at room
  cases room

end Limiting

end Libjingle.Xmpp
