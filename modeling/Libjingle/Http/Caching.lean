import Libjingle.Http.Attributes
import Libjingle.Http.Dates
import Libjingle.Http.Headers

/-!
# Freshness of cached responses

`HttpGetCacheState` in `talk/base/httpclient.cc`, which computes the age and the lifetime of a
response in `unsigned long`, and what they are in integers.
-/

namespace Libjingle.Http.Caching

open Libjingle.Std CString Dates

def hhAge : List UInt8 := ofString "Age"
def hhCacheControl : List UInt8 := ofString "Cache-Control"
def hhDate : List UInt8 := ofString "Date"
def hhExpires : List UInt8 := ofString "Expires"
def hhLastModified : List UInt8 := ofString "Last-Modified"

inductive HttpCacheState
  | fresh | stale | none
  deriving DecidableEq

/-- `HttpStringToInt`. -/
def httpStringToInt (bits : Nat) (str : List UInt8) : Option Nat :=
  let number := strtoul bits 10 (terminated str)
  if number.2 = [] then some number.1 else none

/-- `HttpHasAttribute`. -/
def httpHasAttribute (attributes : List HttpAttribute) (name : List UInt8) : Option (List UInt8) :=
  (attributes.find? fun attr => attr.1 = name).map Prod.snd

/-- `atoi`, where a `long` has `bits` bits. -/
def atoi (bits : Nat) (str : List UInt8) : Int :=
  ((scanInt bits (terminated str)).map Prod.fst).getD 0

section

variable (bits : Nat) (timezone : Int)

/-- A header that is a date. -/
def dateHeader (headers : HeaderMap) (name : List UInt8) : Option Int :=
  (headers.header name).bind (httpDateToSeconds bits timezone)

/-- The directives of a response. -/
def cacheControl (headers : HeaderMap) : List HttpAttribute :=
  match headers.header hhCacheControl with
  | some value => httpParseAttributes value
  | none => []

/-- `HttpGetCacheState`, at a time. -/
def httpGetCacheState (time : BitVec bits) (headers : HeaderMap) : HttpCacheState :=
  let now : Int := time.toNat
  match dateHeader bits timezone headers hhDate with
  | none => .none
  | some date =>
      let request_time := date
      let response_time := date
      let apparent_age := if date < response_time then (response_time - date) % 2 ^ bits else 0
      let corrected_received_age :=
        match (headers.header hhAge).bind (httpStringToInt bits) with
        | some age => max apparent_age age
        | none => apparent_age
      let response_delay := (response_time - request_time) % 2 ^ bits
      let corrected_initial_age := (corrected_received_age + response_delay) % 2 ^ bits
      let resident_time := (now - response_time) % 2 ^ bits
      let current_age := (corrected_initial_age + resident_time) % 2 ^ bits
      let lifetime :=
        match httpHasAttribute (cacheControl headers) (ofString "max-age") with
        | some value => some (atoi bits value % 2 ^ bits)
        | none =>
            match dateHeader bits timezone headers hhExpires with
            | some expires => some ((expires - date) % 2 ^ bits)
            | none =>
                match dateHeader bits timezone headers hhLastModified with
                | some modified => some ((now - modified) % 2 ^ bits / 10)
                | none => none
      match lifetime with
      | some lifetime => if current_age < lifetime then .fresh else .stale
      | none => .stale

/-! ## Age and lifetime in integers

The numbers are those that the headers are read as. -/

/-- What the lifetime of a response is computed from. -/
inductive Lifetime
  | maxAge (seconds : Int)
  | expires (time : Int)
  | lastModified (time : Int)
  deriving DecidableEq

def lifetimeOf (headers : HeaderMap) : Option Lifetime :=
  match httpHasAttribute (cacheControl headers) (ofString "max-age") with
  | some value => some (.maxAge (atoi bits value))
  | none =>
      ((dateHeader bits timezone headers hhExpires).map .expires).or
        ((dateHeader bits timezone headers hhLastModified).map .lastModified)

def Lifetime.exact (date now : Int) : Lifetime → Int
  | maxAge seconds => seconds
  | expires time => time - date
  | lastModified time => (now - time) / 10

/-- The lifetime as the code has it. -/
def Lifetime.wrapped (date now : Int) : Lifetime → Int
  | maxAge seconds => seconds % 2 ^ bits
  | expires time => (time - date) % 2 ^ bits
  | lastModified time => (now - time) % 2 ^ bits / 10

/-- `Age`, and the time since the date. -/
def exactAge (headers : HeaderMap) (date now : Int) : Int :=
  (((headers.header hhAge).bind (httpStringToInt bits)).getD 0 : Nat) + (now - date)

/-- The directive stands between the commas of a header. -/
def containsNoCache (headers : HeaderMap) : Bool :=
  headers.any fun header => sameNoCase header.1 hhCacheControl &&
    (header.2.splitOn 0x2C).any fun item =>
      sameNoCase (trimEnd (skipSpace (item.takeWhile (· ≠ 0x3D)))) (ofString "no-cache")

/-- A response that is called fresh is fresh, and need not be validated. -/
def FreshIfCalled (time : BitVec bits) (headers : HeaderMap) : Prop :=
  httpGetCacheState bits timezone time headers = .fresh →
    ∃ date lifetime, dateHeader bits timezone headers hhDate = some date ∧
      lifetimeOf bits timezone headers = some lifetime ∧
      exactAge bits headers date time.toNat < lifetime.exact date time.toNat ∧
      containsNoCache headers = false

/-- A lifetime that is negative, an age that is too large, and the directive do no harm. -/
structure Sound (time : BitVec bits) (headers : HeaderMap) (date : Int) (lifetime : Lifetime) :
    Prop where
  lifetime_wrap : 0 ≤ lifetime.exact date time.toNat ∨ exactAge bits headers date time.toNat < 0 ∨
    lifetime.wrapped bits date time.toNat ≤ exactAge bits headers date time.toNat % 2 ^ bits
  age_wrap : lifetime.exact date time.toNat < 0 ∨ exactAge bits headers date time.toNat < 2 ^ bits ∨
    lifetime.exact date time.toNat ≤ exactAge bits headers date time.toNat - 2 ^ bits
  no_cache : containsNoCache headers = true →
    lifetime.wrapped bits date time.toNat ≤ exactAge bits headers date time.toNat % 2 ^ bits

end

/-! ## What the code computes -/

section

variable {bits : Nat} {timezone : Int} {time : BitVec bits} {headers : HeaderMap} {date : Int}
  {lifetime : Lifetime}

theorem dateHeader_range {name : List UInt8} {seconds : Int}
    (read : dateHeader bits timezone headers name = some seconds) :
    0 ≤ seconds ∧ seconds < 2 ^ bits := by
  obtain ⟨text, -, read⟩ := Option.bind_eq_some_iff.mp read
  obtain ⟨scanned, -, read⟩ := Option.bind_eq_some_iff.mp read
  obtain ⟨offset, -, rfl⟩ := Option.map_eq_some_iff.mp read
  have positive : (0 : Int) < 2 ^ bits := Int.pow_pos (by decide)
  exact ⟨Int.emod_nonneg _ (by omega), Int.emod_lt_of_pos _ positive⟩

theorem atoi_range (str : List UInt8) : -2 ^ 31 ≤ atoi bits str ∧ atoi bits str < 2 ^ 31 := by
  have range : ∀ value : Int, -2 ^ 31 ≤ value.bmod (2 ^ 32) ∧ value.bmod (2 ^ 32) < 2 ^ 31 :=
    fun value => ⟨Int.le_bmod (by decide), Int.bmod_lt (by decide)⟩
  unfold atoi scanInt
  split
  · decide
  · exact range _

theorem age_lt (headers : HeaderMap) :
    ((headers.header hhAge).bind (httpStringToInt bits)).getD 0 < 2 ^ bits := by
  cases read : (headers.header hhAge).bind (httpStringToInt bits) with
  | none => exact Nat.two_pow_pos bits
  | some age =>
    obtain ⟨str, -, read⟩ := Option.bind_eq_some_iff.mp read
    unfold httpStringToInt at read
    dsimp only at read
    split at read
    · obtain rfl := Option.some.inj read
      exact strtoul_lt _ _ _
    · cases read

theorem httpGetCacheState_eq (date_read : dateHeader bits timezone headers hhDate = some date) :
    httpGetCacheState bits timezone time headers =
      match lifetimeOf bits timezone headers with
      | some lifetime =>
          if exactAge bits headers date time.toNat % 2 ^ bits < lifetime.wrapped bits date time.toNat
          then .fresh else .stale
      | none => .stale := by
  have age : ∀ received : Int, ((received + (date - date) % 2 ^ bits) % 2 ^ bits +
      ((time.toNat : Int) - date) % 2 ^ bits) % 2 ^ bits =
        (received + (time.toNat - date)) % 2 ^ bits := fun received => by
    rw [Int.sub_self, Int.zero_emod, Int.add_zero, ← Int.add_emod]
  unfold httpGetCacheState lifetimeOf exactAge
  simp only [date_read, Int.lt_irrefl, if_false, age]
  cases (headers.header hhAge).bind (httpStringToInt bits) <;>
    cases httpHasAttribute (cacheControl headers) (ofString "max-age") <;>
    cases dateHeader bits timezone headers hhExpires <;>
    cases dateHeader bits timezone headers hhLastModified
  all_goals simp [Lifetime.wrapped]
  all_goals rfl

/-- Where a lifetime comes from. -/
def Lifetime.From (bits : Nat) (timezone : Int) (headers : HeaderMap) : Lifetime → Prop
  | maxAge seconds => ∃ value, atoi bits value = seconds
  | expires seconds => dateHeader bits timezone headers hhExpires = some seconds
  | lastModified seconds => dateHeader bits timezone headers hhLastModified = some seconds

theorem lifetimeOf_from (read : lifetimeOf bits timezone headers = some lifetime) :
    lifetime.From bits timezone headers := by
  unfold lifetimeOf at read
  split at read
  · next value _ =>
    obtain rfl := Option.some.inj read
    exact ⟨value, rfl⟩
  · rcases Option.or_eq_some_iff.mp read with read | ⟨-, read⟩
    · obtain ⟨seconds, found, rfl⟩ := Option.map_eq_some_iff.mp read
      exact found
    · obtain ⟨seconds, found, rfl⟩ := Option.map_eq_some_iff.mp read
      exact found

theorem wide (long : 32 ≤ bits) : (2 : Int) ^ 32 ≤ 2 ^ bits := by
  exact_mod_cast Nat.pow_le_pow_right (by decide : 0 < 2) long

/-- How a lifetime is wrapped. -/
theorem wrapped_spec (long : 32 ≤ bits)
    (date_read : dateHeader bits timezone headers hhDate = some date)
    (lifetime_read : lifetimeOf bits timezone headers = some lifetime) :
    (0 ≤ lifetime.exact date time.toNat →
      lifetime.wrapped bits date time.toNat = lifetime.exact date time.toNat ∧
        lifetime.exact date time.toNat < 2 ^ bits) ∧
      (lifetime.exact date time.toNat < 0 →
        lifetime.wrapped bits date time.toNat ≤ lifetime.exact date time.toNat + 2 ^ bits) := by
  have wide := wide long
  have now : (time.toNat : Int) < 2 ^ bits := by exact_mod_cast time.isLt
  have date_range := dateHeader_range date_read
  -- What is between the bounds of a word is wrapped once at most.
  have wraps : ∀ value : Int, -2 ^ bits ≤ value → value < 2 ^ bits →
      (0 ≤ value → value % 2 ^ bits = value) ∧ (value < 0 → value % 2 ^ bits = value + 2 ^ bits) := by
    intro value low high
    refine ⟨fun nonneg => Int.emod_eq_of_lt nonneg high, fun negative => ?_⟩
    rw [← Int.add_emod_right, Int.emod_eq_of_lt (by omega) (by omega)]
  cases lifetime with
  | maxAge seconds =>
    obtain ⟨value, rfl⟩ := lifetimeOf_from lifetime_read
    have range := @atoi_range bits value
    have wrap := wraps (atoi bits value) (by omega) (by omega)
    simp only [Lifetime.exact, Lifetime.wrapped]
    omega
  | expires expires =>
    have range := dateHeader_range (lifetimeOf_from lifetime_read)
    have wrap := wraps (expires - date) (by omega) (by omega)
    simp only [Lifetime.exact, Lifetime.wrapped]
    omega
  | lastModified modified =>
    have range := dateHeader_range (lifetimeOf_from lifetime_read)
    have wrap := wraps (time.toNat - modified) (by omega) (by omega)
    simp only [Lifetime.exact, Lifetime.wrapped]
    omega

/-- How an age is wrapped. -/
theorem age_spec (long : 32 ≤ bits)
    (date_read : dateHeader bits timezone headers hhDate = some date) :
    (exactAge bits headers date time.toNat < 0 → exactAge bits headers date time.toNat % 2 ^ bits =
      exactAge bits headers date time.toNat + 2 ^ bits) ∧
    (0 ≤ exactAge bits headers date time.toNat → exactAge bits headers date time.toNat < 2 ^ bits →
      exactAge bits headers date time.toNat % 2 ^ bits = exactAge bits headers date time.toNat) ∧
    (2 ^ bits ≤ exactAge bits headers date time.toNat →
      exactAge bits headers date time.toNat % 2 ^ bits =
        exactAge bits headers date time.toNat - 2 ^ bits) := by
  have wide := wide long
  have now : (time.toNat : Int) < 2 ^ bits := by exact_mod_cast time.isLt
  have date_range := dateHeader_range date_read
  have read : ((((headers.header hhAge).bind (httpStringToInt bits)).getD 0 : Nat) : Int) < 2 ^ bits := by
    exact_mod_cast age_lt headers
  have low : -2 ^ bits < exactAge bits headers date time.toNat := by
    unfold exactAge
    omega
  have high : exactAge bits headers date time.toNat < 2 ^ bits + 2 ^ bits := by
    unfold exactAge
    omega
  refine ⟨fun negative => ?_, fun nonneg fits => Int.emod_eq_of_lt nonneg fits, fun large => ?_⟩
  · rw [← Int.add_emod_right, Int.emod_eq_of_lt (by omega) (by omega)]
  · rw [← Int.sub_emod_right, Int.emod_eq_of_lt (by omega) (by omega)]

/-- The comparison of a wrapped age and a wrapped lifetime that is right of their true values. -/
theorem harmless_iff {size age lifetime age' lifetime' : Int}
    (lifetime_spec : (0 ≤ lifetime → lifetime' = lifetime ∧ lifetime < size) ∧
      (lifetime < 0 → lifetime' ≤ lifetime + size))
    (age_spec : (age < 0 → age' = age + size) ∧ (0 ≤ age → age < size → age' = age) ∧
      (size ≤ age → age' = age - size)) :
    (age' < lifetime' → age < lifetime) ↔
      (0 ≤ lifetime ∨ age < 0 ∨ lifetime' ≤ age') ∧
        (lifetime < 0 ∨ age < size ∨ lifetime ≤ age - size) := by
  omega

/-- A response is fresh if it is called so exactly if no wrap and no directive does harm. -/
theorem freshIfCalled_iff (long : 32 ≤ bits) (time : BitVec bits) (headers : HeaderMap) :
    FreshIfCalled bits timezone time headers ↔ ∀ date lifetime,
      dateHeader bits timezone headers hhDate = some date →
      lifetimeOf bits timezone headers = some lifetime → Sound bits time headers date lifetime := by
  unfold FreshIfCalled
  cases date_read : dateHeader bits timezone headers hhDate with
  | none =>
    refine iff_of_true (fun called => ?_) nofun
    simp [httpGetCacheState, date_read] at called
  | some date =>
    rw [httpGetCacheState_eq date_read]
    cases lifetime_read : lifetimeOf bits timezone headers with
    | none => exact iff_of_true nofun nofun
    | some lifetime =>
      have wrapped := @wrapped_spec bits timezone time headers date lifetime long date_read lifetime_read
      have aged := @age_spec bits timezone time headers date long date_read
      have called : ((if exactAge bits headers date time.toNat % 2 ^ bits <
          lifetime.wrapped bits date time.toNat then HttpCacheState.fresh else .stale) = .fresh) ↔
          exactAge bits headers date time.toNat % 2 ^ bits < lifetime.wrapped bits date time.toNat := by
        split <;> simp [*]
      have harmless := harmless_iff wrapped aged
      have unpacked : (∃ date' lifetime', some date = some date' ∧ some lifetime = some lifetime' ∧
          exactAge bits headers date' time.toNat < lifetime'.exact date' time.toNat ∧
          containsNoCache headers = false) ↔
          exactAge bits headers date time.toNat < lifetime.exact date time.toNat ∧
            containsNoCache headers = false := by
        simp
      rw [called, unpacked]
      constructor
      · rintro fresh date' lifetime' ⟨⟩ ⟨⟩
        obtain ⟨lifetime_wrap, age_wrap⟩ := harmless.mp fun less => (fresh less).1
        refine ⟨lifetime_wrap, age_wrap, fun directive => Int.not_lt.mp fun less => ?_⟩
        have free := (fresh less).2
        rw [directive] at free
        cases free
      · intro sound less
        obtain ⟨lifetime_wrap, age_wrap, no_cache⟩ := sound date lifetime rfl rfl
        refine ⟨harmless.mpr ⟨lifetime_wrap, age_wrap⟩ less, Bool.eq_false_iff.mpr fun directive => ?_⟩
        exact absurd (no_cache directive) (Int.not_le.mpr less)

end

/-- The date of the responses below. -/
def novemberDate : List UInt8 × List UInt8 :=
  (hhDate, ofString "Sun, 06 Nov 1994 08:49:37 GMT")

/-- Ten seconds of a maximal age of an hour. -/
theorem hour_fresh :
    FreshIfCalled 64 0 784111787 [novemberDate, (hhCacheControl, ofString "max-age=3600")] := by
  have date_known : dateHeader 64 0 [novemberDate, (hhCacheControl, ofString "max-age=3600")] hhDate =
      some 784111777 := by decide +kernel
  have lifetime_known : lifetimeOf 64 0 [novemberDate, (hhCacheControl, ofString "max-age=3600")] =
      some (.maxAge 3600) := by decide +kernel
  refine (freshIfCalled_iff (by decide) _ _).mpr fun date lifetime date_read lifetime_read => ?_
  obtain rfl := Option.some.inj (date_known.symm.trans date_read)
  obtain rfl := Option.some.inj (lifetime_known.symm.trans lifetime_read)
  exact ⟨by decide +kernel, by decide +kernel, fun directive => absurd directive (by decide +kernel)⟩

/-- A response that expired before its date is called fresh. -/
theorem expired_called_fresh : ¬ ∀ bits timezone time headers, 32 ≤ bits →
    FreshIfCalled bits timezone time headers := by
  intro all
  let headers : HeaderMap :=
    [novemberDate, (hhExpires, ofString "Sun, 06 Nov 1994 08:49:36 GMT")]
  have called : httpGetCacheState 64 0 (BitVec.ofNat 64 784111787) headers = .fresh := by
    decide +kernel
  obtain ⟨date, lifetime, date_read, lifetime_read, fresh, -⟩ :=
    all 64 0 784111787 headers (by decide) called
  have dated : dateHeader 64 0 headers hhDate = some 784111777 := by decide +kernel
  have expires : lifetimeOf 64 0 headers = some (.expires 784111776) := by decide +kernel
  obtain rfl := Option.some.inj (date_read.symm.trans dated)
  obtain rfl := Option.some.inj (lifetime_read.symm.trans expires)
  exact absurd fresh (by decide +kernel)

end Libjingle.Http.Caching
