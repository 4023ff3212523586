import Libjingle.Std.CString
import Mathlib.Data.Fintype.Basic
import Mathlib.Data.Int.ModEq
import Mathlib.Tactic.FinCases

/-!
# Dates

`HttpDateToSeconds` in `talk/base/httpcommon.cc`, and the dates of RFC 822 and RFC 1123 with the
instants that they denote.
-/

namespace Libjingle.Http.Dates

open Libjingle.Std CString

/-! ## The calendar -/

/-- The days of a year before a month, which is counted from zero. -/
def monthStart (year : Int) (month : Nat) : Int :=
  [0, 31, 59, 90, 120, 151, 181, 212, 243, 273, 304, 334].getD month 0 +
    if 2 ≤ month ∧ year % 4 = 0 ∧ (year % 100 ≠ 0 ∨ year % 400 = 0) then 1 else 0

/-- The leap days up to the end of a year. -/
def leapDays (year : Int) : Int :=
  year / 4 - year / 100 + year / 400

/-- The days from the epoch to a day of a month. -/
def dayNumber (year : Int) (month : Nat) (day : Int) : Int :=
  365 * (year - 1970) + (leapDays (year - 1) - leapDays 1969) + monthStart year month + (day - 1)

/-- The seconds from the epoch to a time of a day. -/
def timeNumber (year : Int) (month : Nat) (day hour minute second : Int) : Int :=
  86400 * dayNumber year month day + 3600 * hour + 60 * minute + second

/-! ## The code -/

/-- `toupper` of the C locale. -/
def upper (c : UInt8) : UInt8 :=
  if 97 ≤ c ∧ c ≤ 122 then c - 32 else c

/-- `struct tm`, as far as it is set. -/
structure Tm where
  mday : Int
  mon : Nat
  year : Int
  hour : Int
  min : Int
  sec : Int

/-- `mktime` in a zone without daylight saving that is `timezone` seconds west. -/
def mktime (timezone : Int) (tval : Tm) : Int :=
  timeNumber (tval.year + 1900) tval.mon tval.mday tval.hour tval.min tval.sec + timezone

/-- `sscanf` with the format `%*3s, %d %3s %d %d:%d:%d %5c`: the time, the month and the zone. -/
def scanDate (bits : Nat) (text : List UInt8) : Option (Tm × List UInt8 × List UInt8) :=
  (scanText 3 text).bind fun (_, text) =>
  (scanLiteral [0x2C] text).bind fun text =>
  (scanInt bits text).bind fun (mday, text) =>
  (scanText 3 text).bind fun (month, text) =>
  (scanInt bits text).bind fun (year, text) =>
  (scanInt bits text).bind fun (hour, text) =>
  (scanLiteral [0x3A] text).bind fun text =>
  (scanInt bits text).bind fun (min, text) =>
  (scanLiteral [0x3A] text).bind fun text =>
  (scanInt bits text).bind fun (sec, text) =>
  (scanChars 5 (skipSpace text)).map fun (zone, _) =>
    ({ mday, mon := 0, year, hour, min, sec }, month, zone)

/-- The month by its letters. -/
def monthOf (month : List UInt8) : Nat :=
  let letter := fun index => month.getD index 0
  match Char.ofNat (upper (letter 2)).toNat with
  | 'N' => if letter 1 = 0x41 then 0 else 5
  | 'B' => 1
  | 'R' => if letter 0 = 0x4D then 2 else 3
  | 'Y' => 4
  | 'L' => 6
  | 'G' => 7
  | 'P' => 8
  | 'T' => 9
  | 'V' => 10
  | 'C' => 11
  | _ => 0

def kTimeZones : List (List UInt8) :=
  ["UT", "GMT", "EST", "EDT", "CST", "CDT", "MST", "MDT", "PST", "PDT",
    "A", "B", "C", "D", "E", "F", "G", "H", "I", "K", "L", "M",
    "N", "O", "P", "Q", "R", "S", "T", "U", "V", "W", "X", "Y"].map ofString

def kTimeZoneOffsets : List Int :=
  [0, 0, -5, -4, -6, -5, -7, -6, -8, -7,
    -1, -2, -3, -4, -5, -6, -7, -8, -9, -10, -11, -12,
    1, 2, 3, 4, 5, 6, 7, 8, 9, 10, 11, 12]

/-- `find_string`. -/
def findString (needle : List UInt8) (haystack : List (List UInt8)) : Option Nat :=
  haystack.findIdx? fun entry => sameNoCase needle entry

/-- What is added for a zone. -/
def zoneOffset (zone : List UInt8) : Option Int :=
  let letter := fun index => zone.getD index 0
  let digit := fun index => ((letter index).toNat : Int) - 0x30
  if letter 0 = 0x2B ∨ letter 0 = 0x2D then
    if ¬ isDigit 10 (letter 1) ∨ ¬ isDigit 10 (letter 2) ∨ ¬ isDigit 10 (letter 3) ∨
        ¬ isDigit 10 (letter 4) then none
    else
      let hours := digit 1 * 10 + digit 2
      let minutes := digit 3 * 10 + digit 4
      let offset := (hours * 60 + minutes) * 60
      some (if letter 0 = 0x2B then offset else -offset)
  else
    (findString zone kTimeZones).map fun zindex => kTimeZoneOffsets.getD zindex 0 * 60 * 60

/-- `HttpDateToSeconds`, where `unsigned long` has `bits` bits. -/
def httpDateToSeconds (bits : Nat) (timezone : Int) (date : List UInt8) : Option Int :=
  (scanDate bits (terminated date)).bind fun (tval, month, zone) =>
    let nonGmt := mktime timezone { tval with mon := monthOf month, year := tval.year - 1900 } % 2 ^ bits
    (zoneOffset zone).map fun offset =>
      let gmt := (nonGmt + offset) % 2 ^ bits
      (gmt - timezone) % 2 ^ bits

/-! ## Dates and what they denote -/

def weekdayNames : List (List UInt8) :=
  ["Mon", "Tue", "Wed", "Thu", "Fri", "Sat", "Sun"].map ofString

def monthNames : List (List UInt8) :=
  ["Jan", "Feb", "Mar", "Apr", "May", "Jun", "Jul", "Aug", "Sep", "Oct", "Nov", "Dec"].map ofString

/-- The zones that have names, and the hours that they are ahead of universal time. -/
def namedZones : List (List UInt8 × Int) :=
  [("UT", 0), ("GMT", 0), ("EST", -5), ("EDT", -4), ("CST", -6), ("CDT", -5), ("MST", -7),
    ("MDT", -6), ("PST", -8), ("PDT", -7)].map fun (name, hours) => (ofString name, hours)

/-- The military zones with the hours that RFC 822 gives for them. -/
def militaryZones : List (List UInt8 × Int) :=
  [("A", -1), ("B", -2), ("C", -3), ("D", -4), ("E", -5), ("F", -6), ("G", -7), ("H", -8), ("I", -9),
    ("K", -10), ("L", -11), ("M", -12), ("N", 1), ("O", 2), ("P", 3), ("Q", 4), ("R", 5), ("S", 6),
    ("T", 7), ("U", 8), ("V", 9), ("W", 10), ("X", 11), ("Y", 12), ("Z", 0)].map
      fun (name, hours) => (ofString name, hours)

def IsNumber (digits : List UInt8) : Prop :=
  digits ≠ [] ∧ ∀ c ∈ digits, isDigit 10 c = true

/-- A zone as it is written, and the seconds that it is ahead. The hours of the military zones count
as in RFC 822, or the other way, which RFC 1123 says is right. -/
inductive Zone (reversed : Bool) : List UInt8 → Int → Prop
  | named {name text : List UInt8} {hours : Int} (entry : (name, hours) ∈ namedZones)
      (same : sameNoCase text name = true) : Zone reversed text (3600 * hours)
  | military {name text : List UInt8} {hours : Int} (entry : (name, hours) ∈ militaryZones)
      (same : sameNoCase text name = true) :
      Zone reversed text (3600 * if reversed then -hours else hours)
  | numeric (ahead : Bool) {hours minutes : List UInt8} (hours_number : IsNumber hours)
      (two_hours : hours.length = 2) (minutes_number : IsNumber minutes)
      (two_minutes : minutes.length = 2) :
      Zone reversed ((if ahead then 0x2B else 0x2D) :: (hours ++ minutes))
        ((if ahead then 1 else -1) *
          (3600 * digitsValue 10 hours + 60 * digitsValue 10 minutes))

/-- A date with its parts as they are written. A year of two digits is one of the twentieth
century. -/
structure Date (reversed : Bool) where
  weekday : Option (List UInt8)
  weekday_known : ∀ text ∈ weekday, ∃ name ∈ weekdayNames, sameNoCase text name = true
  day : List UInt8
  day_number : IsNumber day
  day_short : day.length ≤ 2
  month : Fin 12
  monthText : List UInt8
  month_known : sameNoCase monthText (monthNames.getD month []) = true
  year : List UInt8
  year_number : IsNumber year
  year_length : year.length = 2 ∨ year.length = 4
  hour : List UInt8
  hour_number : IsNumber hour
  hour_short : hour.length = 2
  minute : List UInt8
  minute_number : IsNumber minute
  minute_short : minute.length = 2
  second : Option (List UInt8)
  second_number : ∀ text ∈ second, IsNumber text ∧ text.length = 2
  zone : List UInt8
  offset : Int
  zone_offset : Zone reversed zone offset

namespace Date

variable {reversed : Bool}

def yearNumber (date : Date reversed) : Int :=
  if date.year.length = 2 then 1900 + digitsValue 10 date.year else digitsValue 10 date.year

/-- The instant that a date denotes, in seconds from the epoch on. -/
def instant (date : Date reversed) : Int :=
  timeNumber date.yearNumber date.month (digitsValue 10 date.day) (digitsValue 10 date.hour)
    (digitsValue 10 date.minute) (digitsValue 10 (date.second.getD [])) - date.offset

/-- The words of a date. -/
def words (date : Date reversed) : List (List UInt8) :=
  (date.weekday.map (· ++ [0x2C])).toList ++
    [date.day, date.monthText, date.year,
      date.hour ++ 0x3A :: (date.minute ++ (date.second.map (0x3A :: ·)).getD []), date.zone]

end Date

/-- A text is words with blanks between them. -/
inductive Separated : List (List UInt8) → List UInt8 → Prop
  | last (word : List UInt8) : Separated [word] word
  | cons (word : List UInt8) {blanks text : List UInt8} {words : List (List UInt8)}
      (some_blanks : blanks ≠ []) (blank : ∀ c ∈ blanks, c = 0x20 ∨ c = 0x09)
      (rest : Separated words text) : Separated (word :: words) (word ++ (blanks ++ text))

/-! ## Letters in either case -/

def isLetter (c : UInt8) : Bool :=
  97 ≤ lower c ∧ lower c ≤ 122

/-- What a date needs to know of a character. -/
theorem char_cases (c : UInt8) :
    (isLetter c = true → isWordChar c = true ∧ c ≠ 0x2B ∧ c ≠ 0x2D) ∧
      (isDigit 10 c = true →
        (digitValue 10 c).getD 0 = c.toNat - 48 ∧ 48 ≤ c.toNat ∧ c.toNat ≤ 57) ∧
      upper (lower c) = upper c := by
  revert c
  exact forall_byte (by decide +kernel)

theorem isLetter_apart {c : UInt8} (letter : isLetter c = true) :
    isWordChar c = true ∧ c ≠ 0x2B ∧ c ≠ 0x2D :=
  (char_cases c).1 letter

theorem isWordChar_digit {c : UInt8} (digit : isDigit 10 c = true) : isWordChar c = true := by
  obtain ⟨zero, space, -⟩ := solid_of_isDigit digit
  simp [isWordChar, zero, space]

theorem same_length {text name : List UInt8} (same : sameNoCase text name = true) :
    text.length = name.length := by
  have maps := congrArg List.length (eq_of_beq same)
  rwa [List.length_map, List.length_map] at maps

theorem same_letters {text name : List UInt8} (same : sameNoCase text name = true)
    (letters : name.all isLetter = true) : ∀ c ∈ text, isLetter c = true := by
  intro c mem
  have lowered : lower c ∈ name.map lower := eq_of_beq same ▸ List.mem_map_of_mem mem
  obtain ⟨c', mem', same'⟩ := List.mem_map.mp lowered
  have letter := List.all_eq_true.mp letters c' mem'
  rwa [isLetter, same'] at letter

theorem findString_same {text name : List UInt8} (same : sameNoCase text name = true)
    (haystack : List (List UInt8)) : findString text haystack = findString name haystack := by
  have agree : ∀ entry, sameNoCase text entry = sameNoCase name entry := fun entry => by
    rw [sameNoCase, sameNoCase, eq_of_beq same]
  rw [findString, findString, funext agree]

/-! ## Zones -/

def IsMilitary (zone : List UInt8) : Prop :=
  ∃ entry ∈ militaryZones, sameNoCase zone entry.1 = true

/-- A zone that has a name is looked up. -/
theorem zoneOffset_same {text name : List UInt8} (same : sameNoCase text name = true)
    (letters : name.all isLetter = true) (some_letters : name ≠ []) :
    zoneOffset text =
      (findString name kTimeZones).map fun zindex => kTimeZoneOffsets.getD zindex 0 * 60 * 60 := by
  cases text with
  | nil =>
    have none := same_length same
    exact absurd (List.length_eq_zero_iff.mp none.symm) some_letters
  | cons c others =>
    obtain ⟨-, plus, minus⟩ := isLetter_apart (same_letters same letters c List.mem_cons_self)
    have unsigned : ¬ ((c :: others).getD 0 0 = 0x2B ∨ (c :: others).getD 0 0 = 0x2D) :=
      not_or.mpr ⟨plus, minus⟩
    rw [zoneOffset]
    dsimp only
    rw [if_neg unsigned, findString_same same]

theorem zones_found : (∀ entry ∈ namedZones,
    (entry.1.all isLetter = true ∧ entry.1 ≠ [] ∧ entry.1.length ≤ 5 ∧ 1 < entry.1.length) ∧
      entry.2.natAbs ≤ 12 ∧
      (findString entry.1 kTimeZones).map (fun zindex => kTimeZoneOffsets.getD zindex 0 * 60 * 60) =
        some (3600 * entry.2)) ∧
    ∀ entry ∈ militaryZones,
    (entry.1.all isLetter = true ∧ entry.1 ≠ [] ∧ entry.1.length = 1) ∧ entry.2.natAbs ≤ 12 ∧
      (sameNoCase entry.1 (ofString "Z") = true ↔ entry.1 = ofString "Z") ∧
      (findString entry.1 kTimeZones).map (fun zindex => kTimeZoneOffsets.getD zindex 0 * 60 * 60) =
        if entry.1 = ofString "Z" then none else some (3600 * entry.2) :=
  ⟨by decide +kernel, by decide +kernel⟩

theorem digit_value {c : UInt8} (digit : isDigit 10 c = true) :
    (digitValue 10 c).getD 0 = c.toNat - 48 ∧ 48 ≤ c.toNat ∧ c.toNat ≤ 57 :=
  (char_cases c).2.1 digit

theorem two_digits {digits : List UInt8} (number : IsNumber digits) (two : digits.length = 2) :
    ∃ a b, digits = [a, b] ∧ isDigit 10 a = true ∧ isDigit 10 b = true ∧
      (digitsValue 10 digits : Int) = ((a.toNat : Int) - 0x30) * 10 + ((b.toNat : Int) - 0x30) ∧
      digitsValue 10 digits ≤ 99 := by
  obtain ⟨a, b, rfl⟩ := List.length_eq_two.mp two
  have a_digit := number.2 a (by simp)
  have b_digit := number.2 b (by simp)
  obtain ⟨a_value, a_low, a_high⟩ := digit_value a_digit
  obtain ⟨b_value, b_low, b_high⟩ := digit_value b_digit
  have value : digitsValue 10 [a, b] = (a.toNat - 48) * 10 + (b.toNat - 48) := by
    simp [digitsValue, a_value, b_value]
  refine ⟨a, b, rfl, a_digit, b_digit, ?_, ?_⟩ <;> omega

/-- A zone is one word. -/
theorem Zone.word {reversed : Bool} {text : List UInt8} {offset : Int}
    (zone : Zone reversed text offset) :
    text ≠ [] ∧ text.length ≤ 5 ∧ ∀ c ∈ text, isWordChar c = true := by
  have letters : ∀ name : List UInt8, sameNoCase text name = true → name.all isLetter = true →
      name ≠ [] → name.length ≤ 5 → text ≠ [] ∧ text.length ≤ 5 ∧ ∀ c ∈ text, isWordChar c = true := by
    intro name same letters some_letters short
    have length := same_length same
    refine ⟨?_, by omega, fun c mem => (isLetter_apart (same_letters same letters c mem)).1⟩
    rintro rfl
    exact some_letters (List.length_eq_zero_iff.mp length.symm)
  cases zone with
  | named entry same =>
    obtain ⟨⟨all, some_letters, short, -⟩, -⟩ := zones_found.1 _ entry
    exact letters _ same all some_letters short
  | military entry same =>
    obtain ⟨⟨all, some_letters, one⟩, -⟩ := zones_found.2 _ entry
    exact letters _ same all some_letters (one.trans_le (by decide))
  | numeric ahead hours_number two_hours minutes_number two_minutes =>
    refine ⟨List.cons_ne_nil _ _, ?_, fun c mem => ?_⟩
    · simp only [List.length_cons, List.length_append, two_hours, two_minutes]
      decide
    · rcases List.mem_cons.mp mem with rfl | digit
      · cases ahead <;> decide
      · rcases List.mem_append.mp digit with digit | digit
        · exact isWordChar_digit (hours_number.2 c digit)
        · exact isWordChar_digit (minutes_number.2 c digit)

/-- A zone is less than five days ahead or behind. -/
theorem Zone.small {reversed : Bool} {text : List UInt8} {offset : Int}
    (zone : Zone reversed text offset) : offset.natAbs ≤ 362340 := by
  cases zone with
  | named entry same =>
    have hours := (zones_found.1 _ entry).2.1
    dsimp only at hours
    omega
  | military entry same =>
    have hours := (zones_found.2 _ entry).2.1
    dsimp only at hours
    split <;> omega
  | numeric ahead hours_number two_hours minutes_number two_minutes =>
    obtain ⟨-, -, -, -, -, -, hours⟩ := two_digits hours_number two_hours
    obtain ⟨-, -, -, -, -, -, minutes⟩ := two_digits minutes_number two_minutes
    split <;> omega

/-- What is added for a zone other than Z is less than five days. It is the right sum if the zone
is universal time, or a military zone whose hours count the other way. -/
theorem Zone.read {reversed : Bool} {text : List UInt8} {offset : Int}
    (zone : Zone reversed text offset) :
    (sameNoCase text (ofString "Z") = true ∧ zoneOffset text = none) ∨
      (¬ sameNoCase text (ofString "Z") = true ∧ ∃ added, zoneOffset text = some added ∧
        added.natAbs ≤ 362340 ∧
        (added + offset = 0 ↔ offset = 0 ∨ reversed = true ∧ IsMilitary text)) := by
  cases zone with
  | @named name _ hours entry same =>
    obtain ⟨⟨all, some_letters, -, several⟩, small, found⟩ := zones_found.1 _ entry
    have length := same_length same
    dsimp only at all some_letters several small found
    refine .inr ⟨fun zulu => ?_, 3600 * hours, (zoneOffset_same same all some_letters).trans found,
      by omega, ?_⟩
    · have one := same_length zulu
      simp [ofString] at one
      omega
    · refine ⟨fun zero => .inl (by omega), ?_⟩
      rintro (zero | ⟨-, other, mem, same'⟩)
      · omega
      · have one := (zones_found.2 _ mem).1.2.2
        have length' := same_length same'
        omega
  | @military name _ hours entry same =>
    obtain ⟨⟨all, some_letters, one⟩, small, zulu, found⟩ := zones_found.2 _ entry
    dsimp only at all some_letters one small zulu found
    have read := zoneOffset_same same all some_letters
    have agree : sameNoCase text (ofString "Z") = sameNoCase name (ofString "Z") := by
      rw [sameNoCase, sameNoCase, eq_of_beq same]
    rw [agree, zulu, read, found]
    by_cases none_found : name = ofString "Z"
    · exact .inl ⟨none_found, if_pos none_found⟩
    · have military : IsMilitary text := ⟨_, entry, same⟩
      refine .inr ⟨none_found, 3600 * hours, if_neg none_found, ?_⟩
      cases reversed <;> simp [military] <;> omega
  | @numeric ahead hours minutes hours_number two_hours minutes_number two_minutes =>
    obtain ⟨a, b, rfl, a_digit, b_digit, hours_value, hours_small⟩ :=
      two_digits hours_number two_hours
    obtain ⟨c, d, rfl, c_digit, d_digit, minutes_value, minutes_small⟩ :=
      two_digits minutes_number two_minutes
    have several : ∀ name : List UInt8, name.length = 1 → ∀ sign,
        ¬ sameNoCase (sign :: ([a, b] ++ [c, d])) name = true := fun name one sign same => by
      have length := same_length same
      simp [one] at length
    have not_military : ∀ sign, ¬ IsMilitary (sign :: ([a, b] ++ [c, d])) := by
      rintro sign ⟨entry, mem, same⟩
      exact several _ (zones_found.2 _ mem).1.2.2 sign same
    refine .inr ⟨several _ rfl _, ?_⟩
    cases ahead
    · refine ⟨-(((((a.toNat : Int) - 0x30) * 10 + ((b.toNat : Int) - 0x30)) * 60 +
        (((c.toNat : Int) - 0x30) * 10 + ((d.toNat : Int) - 0x30))) * 60), ?_, ?_⟩
      · simp [zoneOffset, a_digit, b_digit, c_digit, d_digit]
      · simp only [not_military, and_false, or_false, Bool.false_eq_true, if_false]
        omega
    · refine ⟨((((a.toNat : Int) - 0x30) * 10 + ((b.toNat : Int) - 0x30)) * 60 +
        (((c.toNat : Int) - 0x30) * 10 + ((d.toNat : Int) - 0x30))) * 60, ?_, ?_⟩
      · simp [zoneOffset, a_digit, b_digit, c_digit, d_digit]
      · simp only [not_military, and_false, or_false, if_true]
        omega

/-! ## Months -/

theorem upper_lower (c : UInt8) : upper (lower c) = upper c :=
  (char_cases c).2.2

/-- A month as its letters are read: January by its second letter, and March by its first. -/
def monthRead (month : Fin 12) (text : List UInt8) : Nat :=
  if month = 0 ∧ text.getD 1 0 ≠ 0x41 then 5
  else if month = 2 ∧ text.getD 0 0 ≠ 0x4D then 3
  else month

theorem monthNames_letters : ∀ month : Fin 12, let name := monthNames.getD month []
    (name.length = 3 ∧ name.all isLetter = true) ∧ (month = 5 → lower (name.getD 1 0) ≠ 0x61) ∧
      (month = 3 → lower (name.getD 0 0) ≠ 0x6D) ∧ Char.ofNat (upper (name.getD 2 0)).toNat =
        ['N', 'B', 'R', 'R', 'Y', 'N', 'L', 'G', 'P', 'T', 'V', 'C'].getD month 'N' := by
  decide +kernel

theorem monthOf_eq {month : Fin 12} {text : List UInt8}
    (same : sameNoCase text (monthNames.getD month []) = true) :
    (text.length = 3 ∧ ∀ c ∈ text, isLetter c = true) ∧ monthOf text = monthRead month text := by
  obtain ⟨⟨three, letters⟩, june, april, last⟩ := monthNames_letters month
  generalize monthNames.getD month [] = name at same three letters june april last
  obtain ⟨x, y, z, rfl⟩ := List.length_eq_three.mp three
  obtain ⟨a, b, c, rfl⟩ := List.length_eq_three.mp (same_length same)
  simp only [List.getD_cons_zero, List.getD_cons_succ] at june april last
  refine ⟨⟨rfl, same_letters same letters⟩, ?_⟩
  have lowered := eq_of_beq same
  simp only [List.map_cons, List.map_nil, List.cons.injEq, and_true] at lowered
  obtain ⟨first, second, third⟩ := lowered
  rw [← upper_lower, ← third, upper_lower] at last
  have not_june : month = 5 → b ≠ 0x41 := fun is_june same => by
    refine june is_june ?_
    rw [← second, same]
    rfl
  have not_april : month = 3 → a ≠ 0x4D := fun is_april same => by
    refine april is_april ?_
    rw [← first, same]
    rfl
  simp only [monthOf, monthRead, List.getD_cons_zero, List.getD_cons_succ, last]
  fin_cases month
  all_goals simp_all

/-! ## Scanning a date -/

/-- Blanks that end what stands before them. -/
def Blanks (blanks : List UInt8) : Prop :=
  blanks ≠ [] ∧ ∀ c ∈ blanks, isSpace c = true

theorem Blanks.ends {blanks : List UInt8} (ends : Blanks blanks) (text : List UInt8) (c : UInt8)
    (behind : List UInt8) (whole : blanks ++ text = c :: behind) : isSpace c = true := by
  obtain ⟨first, others, rfl⟩ := List.exists_cons_of_ne_nil ends.1
  obtain ⟨rfl, -⟩ := List.cons.inj whole
  exact ends.2 _ List.mem_cons_self

theorem Separated.cut {word next text : List UInt8} {words : List (List UInt8)}
    (separated : Separated (word :: next :: words) text) :
    ∃ blanks text', Blanks blanks ∧ Separated (next :: words) text' ∧
      text = word ++ (blanks ++ text') := by
  cases separated with
  | cons _ some_blanks blank rest =>
    refine ⟨_, _, ⟨some_blanks, fun c mem => ?_⟩, rest, rfl⟩
    rcases blank c mem with rfl | rfl <;> rfl

theorem Separated.one {word text : List UInt8} (separated : Separated [word] text) :
    text = word := by
  cases separated with
  | last => rfl
  | cons _ _ _ rest => cases rest

theorem Separated.solid {words : List (List UInt8)} {text : List UInt8}
    (separated : Separated words text) (solid : ∀ word ∈ words, 0 ∉ word) : 0 ∉ text := by
  induction separated with
  | last word => exact solid word List.mem_cons_self
  | cons word some_blanks blank rest ih =>
    rw [List.mem_append, List.mem_append, not_or, not_or]
    refine ⟨solid word List.mem_cons_self, fun zero => ?_,
      ih fun word mem => solid word (List.mem_cons_of_mem _ mem)⟩
    rcases blank 0 zero with same | same <;> cases same

section

variable {reversed : Bool} {bits : Nat} {date : Date reversed} {text weekday : List UInt8}

theorem weekday_word (known : ∃ name ∈ weekdayNames, sameNoCase weekday name = true) :
    weekday.length = 3 ∧ ∀ c ∈ weekday, isWordChar c = true := by
  have letters : ∀ name ∈ weekdayNames, name.length = 3 ∧ name.all isLetter = true := by
    decide +kernel
  obtain ⟨name, mem, same⟩ := known
  obtain ⟨three, all⟩ := letters name mem
  exact ⟨(same_length same).trans three,
    fun c mem => (isLetter_apart (same_letters same all c mem)).1⟩

theorem wordChar_ne_zero {word : List UInt8} (solid : ∀ c ∈ word, isWordChar c = true) :
    0 ∉ word :=
  fun zero => absurd (solid 0 zero) (by decide)

theorem IsNumber.solid {digits : List UInt8} (number : IsNumber digits) : 0 ∉ digits :=
  wordChar_ne_zero fun c mem => isWordChar_digit (number.2 c mem)

/-- There is no NUL in a date. -/
theorem Date.solid (date : Date reversed) : ∀ word ∈ date.words, 0 ∉ word := by
  have weekday : ∀ text ∈ date.weekday, 0 ∉ text := fun text mem =>
    wordChar_ne_zero (weekday_word (date.weekday_known text mem)).2
  have month : 0 ∉ date.monthText := wordChar_ne_zero fun c mem =>
    (isLetter_apart ((monthOf_eq date.month_known).1.2 c mem)).1
  have second : ∀ text ∈ date.second, 0 ∉ text := fun text mem =>
    (date.second_number text mem).1.solid
  have zone := wordChar_ne_zero date.zone_offset.word.2.2
  intro word mem zero
  simp only [Date.words, List.mem_append, Option.mem_toList, Option.map_eq_some_iff,
    List.mem_cons, List.not_mem_nil, or_false] at mem
  rcases mem with ⟨name, known, rfl⟩ | rfl | rfl | rfl | rfl | rfl
  · simp at zero
    exact weekday name known zero
  · exact date.day_number.solid zero
  · exact month zero
  · exact date.year_number.solid zero
  · rcases List.mem_append.mp zero with hour | zero
    · exact date.hour_number.solid hour
    · cases second_part : date.second with
      | none =>
        simp [second_part] at zero
        exact date.minute_number.solid zero
      | some text =>
        simp [second_part] at zero
        rcases zero with minute | zero
        · exact date.minute_number.solid minute
        · exact second text second_part zero
  · exact zone zero

/-- Without a weekday nothing is scanned. -/
theorem scanDate_none (bare : date.weekday = none) (separated : Separated date.words text) :
    scanDate bits text = none := by
  rw [Date.words, bare] at separated
  obtain ⟨blanks, behind, ends, -, rfl⟩ := separated.cut
  have word := @scanText_word (blanks ++ behind) [] date.day 3 nofun date.day_number.1
    (fun c mem => isWordChar_digit (date.day_number.2 c mem))
    (.inr ⟨Nat.le_succ_of_le date.day_short,
      fun c _ whole => not_isWordChar_of_isSpace (ends.ends _ c _ whole)⟩)
  rw [List.nil_append] at word
  obtain ⟨c, others, rfl⟩ := List.exists_cons_of_ne_nil ends.1
  have comma : c ≠ 0x2C := by
    rintro rfl
    exact absurd (ends.2 _ List.mem_cons_self) (by decide)
  rw [scanDate, word, Option.bind_some]
  simp [scanLiteral, comma.symm]

/-- A date with a weekday is scanned if it has seconds. -/
theorem scanDate_eq (long : 32 ≤ bits) (known : date.weekday = some weekday)
    (separated : Separated date.words text) :
    scanDate bits text = date.second.map fun second =>
      ({ mday := digitsValue 10 date.day, mon := 0, year := digitsValue 10 date.year,
         hour := digitsValue 10 date.hour, min := digitsValue 10 date.minute,
         sec := digitsValue 10 second }, date.monthText, date.zone) := by
  rw [Date.words, known] at separated
  obtain ⟨b₁, _, ends₁, separated₁, rfl⟩ := separated.cut
  obtain ⟨b₂, _, ends₂, separated₂, rfl⟩ := separated₁.cut
  obtain ⟨b₃, _, ends₃, separated₃, rfl⟩ := separated₂.cut
  obtain ⟨b₄, _, ends₄, separated₄, rfl⟩ := separated₃.cut
  obtain ⟨b₅, _, ends₅, separated₅, rfl⟩ := separated₄.cut
  obtain rfl := separated₅.one
  obtain ⟨three, week⟩ := weekday_word (date.weekday_known weekday known)
  obtain ⟨⟨month_three, letters⟩, -⟩ := monthOf_eq date.month_known
  obtain ⟨some_zone, zone_short, zone⟩ := date.zone_offset.word
  have digit_ends : ∀ {blanks : List UInt8}, Blanks blanks → ∀ text c behind,
      blanks ++ text = c :: behind → isDigit 10 c = false :=
    fun ends text c behind whole => not_isDigit_of_isSpace (ends.ends text c behind whole)
  have colon_ends : ∀ (text : List UInt8) c behind, 0x3A :: text = c :: behind →
      isDigit 10 c = false := by
    intro text c behind whole
    obtain ⟨rfl, -⟩ := List.cons.inj whole
    rfl
  have some_weekday : weekday ≠ [] := List.ne_nil_of_length_pos (by omega)
  have some_month : date.monthText ≠ [] := List.ne_nil_of_length_pos (by omega)
  simp only [List.append_assoc, List.cons_append, List.nil_append, scanDate]
  have no_blanks : ∀ c ∈ ([] : List UInt8), isSpace c = true := by simp
  have first := fun rest =>
    @scanText_word rest [] weekday 3 no_blanks some_weekday week (.inl three)
  simp only [List.nil_append] at first
  rw [first]
  simp only [Option.bind_some, scanLiteral, if_true]
  rw [scanInt_digits long ends₁.2 date.day_number.1 date.day_number.2 (by have := date.day_short; omega)
    (digit_ends ends₂ _)]
  simp only [Option.bind_some]
  rw [scanText_word ends₂.2 some_month (fun c mem => (isLetter_apart (letters c mem)).1)
    (.inl month_three)]
  simp only [Option.bind_some]
  rw [scanInt_digits long ends₃.2 date.year_number.1 date.year_number.2
    (by have := date.year_length; omega) (digit_ends ends₄ _)]
  simp only [Option.bind_some]
  rw [scanInt_digits long ends₄.2 date.hour_number.1 date.hour_number.2
    (by have := date.hour_short; omega) (colon_ends _)]
  simp only [Option.bind_some, scanLiteral, if_true]
  cases second_part : date.second with
  | none =>
    obtain ⟨c, others, rfl⟩ := List.exists_cons_of_ne_nil ends₅.1
    have colon : c ≠ 0x3A := by
      rintro rfl
      exact absurd (ends₅.2 _ List.mem_cons_self) (by decide)
    have minute := @scanInt_digits (c :: others ++ date.zone) bits [] date.minute long no_blanks
      date.minute_number.1 date.minute_number.2 (by have := date.minute_short; omega)
      (digit_ends ends₅ _)
    simp only [List.nil_append] at minute
    have stopped : scanLiteral [0x3A] (c :: (others ++ date.zone)) = none := by
      simp [scanLiteral, colon.symm]
    simp only [Option.map_none, Option.getD_none, List.nil_append, List.cons_append] at minute ⊢
    rw [minute, Option.bind_some]
    dsimp only
    rw [stopped]
    rfl
  | some second =>
    obtain ⟨second_number, second_short⟩ := date.second_number second second_part
    have minute := @scanInt_digits (0x3A :: (second ++ (b₅ ++ date.zone))) bits [] date.minute long
      no_blanks date.minute_number.1 date.minute_number.2 (by have := date.minute_short; omega)
      (colon_ends _)
    have seconds := @scanInt_digits (b₅ ++ date.zone) bits [] second long no_blanks second_number.1
      second_number.2 (by omega) (digit_ends ends₅ _)
    simp only [List.nil_append] at minute seconds
    have zone_text : skipSpace (b₅ ++ date.zone) = date.zone := by
      refine skipSpace_blanks ends₅.2 fun c behind whole => ?_
      have first := zone c (whole ▸ List.mem_cons_self)
      simp only [isWordChar, Bool.and_eq_true, Bool.not_eq_true'] at first
      exact first.2
    have zone_read : scanChars 5 date.zone = some (date.zone, []) := by
      cases read : date.zone with
      | nil => exact absurd read some_zone
      | cons c others =>
        rw [read] at zone_short
        rw [scanChars, List.take_of_length_le zone_short, List.drop_of_length_le zone_short]
        exact List.cons_ne_nil _ _
    simp [minute, seconds, scanLiteral, zone_text, zone_read]

end

/-! ## Days apart -/

theorem monthStart_range (year : Int) (month : Nat) :
    0 ≤ monthStart year month ∧ monthStart year month ≤ 335 := by
  have table : ∀ month, (0 : Int) ≤ [0, 31, 59, 90, 120, 151, 181, 212, 243, 273, 304, 334].getD month 0 ∧
      ([0, 31, 59, 90, 120, 151, 181, 212, 243, 273, 304, 334].getD month 0 : Int) ≤ 334 := by
    intro month
    by_cases small : month < 12
    · have all : ∀ month < 12,
          (0 : Int) ≤ [0, 31, 59, 90, 120, 151, 181, 212, 243, 273, 304, 334].getD month 0 ∧
          ([0, 31, 59, 90, 120, 151, 181, 212, 243, 273, 304, 334].getD month 0 : Int) ≤ 334 := by
        decide
      exact all month small
    · rw [List.getD_eq_getElem?_getD, List.getElem?_eq_none (by simpa using small)]
      decide
  unfold monthStart
  have := table month
  split <;> omega

/-- A year that is read without its century is far away. -/
theorem dayNumber_century (year day : Int) (month month' : Nat) :
    -694300 ≤ dayNumber (year - 1900) month' day - dayNumber year month day ∧
      dayNumber (year - 1900) month' day - dayNumber year month day ≤ -693600 := by
  have here := monthStart_range year month
  have there := monthStart_range (year - 1900) month'
  unfold dayNumber leapDays
  omega

theorem monthStart_june (year : Int) :
    monthStart year 0 = 0 ∧ 151 ≤ monthStart year 5 ∧ monthStart year 5 ≤ 152 := by
  refine ⟨rfl, ?_⟩
  simp only [monthStart, List.getD_cons_succ, List.getD_cons_zero]
  split <;> decide

theorem monthStart_april (year : Int) : monthStart year 3 = monthStart year 2 + 31 := by
  have three : 2 ≤ 3 := by decide
  simp only [monthStart, List.getD_cons_succ, List.getD_cons_zero, Nat.le_refl, three, true_and]
  omega

/-- A month that is read as another one is a month to five months away. -/
theorem dayNumber_month (year day : Int) (month : Fin 12) (text : List UInt8) :
    (monthRead month text = month ∧ (month = 0 → text.getD 1 0 = 0x41) ∧
      (month = 2 → text.getD 0 0 = 0x4D)) ∨
      (¬ ((month = 0 → text.getD 1 0 = 0x41) ∧ (month = 2 → text.getD 0 0 = 0x4D)) ∧
        31 ≤ dayNumber year (monthRead month text) day - dayNumber year month day ∧
        dayNumber year (monthRead month text) day - dayNumber year month day ≤ 152) := by
  unfold monthRead
  split
  · next january =>
    obtain ⟨rfl, second⟩ := january
    refine .inr ⟨fun read => second (read.1 rfl), ?_⟩
    have june := monthStart_june year
    simp only [dayNumber, Fin.val_zero]
    omega
  · next not_january =>
    split
    · next march =>
      obtain ⟨rfl, first⟩ := march
      refine .inr ⟨fun read => first (read.2 rfl), ?_⟩
      have april := monthStart_april year
      simp only [dayNumber, Fin.val_two]
      omega
    · next not_march =>
      refine .inl ⟨rfl, fun january => ?_, fun march => ?_⟩
      · exact not_not.mp fun second => not_january ⟨january, second⟩
      · exact not_not.mp fun first => not_march ⟨march, first⟩

/-! ## What the code honours -/

/-- The dates that are read as the instants that they denote. -/
structure Honoured {reversed : Bool} (bits : Nat) (date : Date reversed) : Prop where
  some_weekday : date.weekday.isSome
  some_seconds : date.second.isSome
  full_year : date.year.length = 4
  january : date.month = 0 → date.monthText.getD 1 0 = 0x41
  march : date.month = 2 → date.monthText.getD 0 0 = 0x4D
  not_zulu : ¬ sameNoCase date.zone (ofString "Z") = true
  universal : date.offset = 0 ∨ reversed = true ∧ IsMilitary date.zone
  fits : date.instant < 2 ^ bits

variable {reversed : Bool} {bits : Nat} {date : Date reversed} {text : List UInt8}

/-- What is made of a date that is scanned. -/
theorem httpDateToSeconds_scanned {second : List UInt8} (long : 32 ≤ bits) (timezone : Int)
    (separated : Separated date.words text) {weekday : List UInt8}
    (known : date.weekday = some weekday) (seconds : date.second = some second) :
    httpDateToSeconds bits timezone text = (zoneOffset date.zone).map fun offset =>
      (timeNumber (digitsValue 10 date.year) (monthRead date.month date.monthText)
        (digitsValue 10 date.day) (digitsValue 10 date.hour) (digitsValue 10 date.minute)
        (digitsValue 10 second) + offset) % 2 ^ bits := by
  have unzoned : ∀ time offset m : Int, ((time + timezone) % m + offset) % m - timezone ≡
      time + offset [ZMOD m] := by
    intro time offset m
    have shifted : (time + timezone) % m + offset ≡ time + timezone + offset [ZMOD m] :=
      (Int.mod_modEq _ _).add_right offset
    have back := ((Int.mod_modEq ((time + timezone) % m + offset) m).trans shifted).sub_right timezone
    rwa [show time + timezone + offset - timezone = time + offset by omega] at back
  rw [httpDateToSeconds, terminated_of_solid (separated.solid date.solid),
    scanDate_eq long known separated, seconds]
  simp only [Option.map_some, Option.bind_some, mktime, Int.sub_add_cancel]
  rw [(monthOf_eq date.month_known).2]
  exact congrArg (Option.map · _) (funext fun offset => unzoned _ _ _)

/-- Times that are days apart, of the kinds that can be, are no wrapped forms of each other. -/
theorem days_apart {time time' offset added days : Int} (long : 32 ≤ bits)
    (apart : time' - time = 86400 * days)
    (far : days = 0 ∨ (31 ≤ days ∧ days ≤ 152) ∨ (-694300 ≤ days ∧ days ≤ -693600))
    (offset_small : offset.natAbs ≤ 362340) (added_small : added.natAbs ≤ 362340)
    (same : (time' + added) % 2 ^ bits = time - offset) : days = 0 ∧ added + offset = 0 := by
  have whole : (2 : Int) ^ 32 ∣ (time' + added) - (time - offset) := by
    have divides : (2 : Int) ^ bits ∣ (time' + added) - (time - offset) := by
      rw [← same]
      exact Int.dvd_self_sub_emod
    exact (pow_dvd_pow 2 long).trans divides
  obtain ⟨turns, whole⟩ := whole
  rcases far with rfl | month | century
  · omega
  · have low : 0 < turns := by omega
    have high : turns < 1 := by omega
    omega
  · have low : -14 < turns := by omega
    have high : turns < -13 := by omega
    omega

/-- How many days the day that is read is apart from the one that is meant. -/
theorem days_read (date : Date reversed) : ∃ days,
    dayNumber (digitsValue 10 date.year) (monthRead date.month date.monthText)
        (digitsValue 10 date.day) -
      dayNumber date.yearNumber date.month (digitsValue 10 date.day) = days ∧
    (days = 0 → date.year.length = 4 ∧ (date.month = 0 → date.monthText.getD 1 0 = 0x41) ∧
      (date.month = 2 → date.monthText.getD 0 0 = 0x4D)) ∧
    (days = 0 ∨ (31 ≤ days ∧ days ≤ 152) ∨ (-694300 ≤ days ∧ days ≤ -693600)) := by
  refine ⟨_, rfl, ?_⟩
  rcases date.year_length with two | four
  · have century := dayNumber_century date.yearNumber (digitsValue 10 date.day) date.month
      (monthRead date.month date.monthText)
    have year : date.yearNumber - 1900 = digitsValue 10 date.year := by
      rw [Date.yearNumber, if_pos two]
      omega
    rw [year] at century
    exact ⟨fun same => by omega, .inr (.inr century)⟩
  · have year : date.yearNumber = digitsValue 10 date.year := by
      rw [Date.yearNumber, if_neg (by omega)]
    rw [← year]
    rcases dayNumber_month date.yearNumber (digitsValue 10 date.day) date.month date.monthText with
      ⟨same, letters⟩ | ⟨-, months⟩
    · rw [same, Int.sub_self]
      exact ⟨fun _ => ⟨four, letters⟩, .inl rfl⟩
    · exact ⟨fun same => by omega, .inr (.inl months)⟩

theorem instant_nonneg (after : 1970 < date.yearNumber) : 0 ≤ date.instant := by
  have offset := date.zone_offset.small
  have start := monthStart_range date.yearNumber date.month
  simp only [Date.instant, timeNumber, dayNumber, leapDays]
  omega

/-- A date is read as the instant that it denotes exactly if it has a weekday, seconds, a year in
full, a month that is told apart, and a zone whose hours are added rightly. -/
theorem httpDateToSeconds_iff (long : 32 ≤ bits) (timezone : Int) (after : 1970 < date.yearNumber)
    (separated : Separated date.words text) :
    httpDateToSeconds bits timezone text = some date.instant ↔ Honoured bits date := by
  cases known : date.weekday with
  | none =>
    have unread : httpDateToSeconds bits timezone text = none := by
      rw [httpDateToSeconds, terminated_of_solid (separated.solid date.solid),
        scanDate_none known separated]
      rfl
    rw [unread]
    refine ⟨nofun, fun honoured => ?_⟩
    have some_weekday := honoured.some_weekday
    rw [known] at some_weekday
    cases some_weekday
  | some weekday =>
    cases seconds : date.second with
    | none =>
      have unread : httpDateToSeconds bits timezone text = none := by
        rw [httpDateToSeconds, terminated_of_solid (separated.solid date.solid),
          scanDate_eq long known separated, seconds]
        rfl
      rw [unread]
      refine ⟨nofun, fun honoured => ?_⟩
      have some_seconds := honoured.some_seconds
      rw [seconds] at some_seconds
      cases some_seconds
    | some second =>
      rw [httpDateToSeconds_scanned long timezone separated known seconds]
      rcases date.zone_offset.read with ⟨zulu, unread⟩ | ⟨not_zulu, added, read, added_small,
        universal⟩
      · rw [unread]
        exact ⟨nofun, fun honoured => absurd zulu honoured.not_zulu⟩
      rw [read, Option.map_some, Option.some.injEq]
      have instant : date.instant = timeNumber date.yearNumber date.month
          (digitsValue 10 date.day) (digitsValue 10 date.hour) (digitsValue 10 date.minute)
          (digitsValue 10 second) - date.offset := by
        rw [Date.instant, seconds]
        rfl
      constructor
      · intro same
        have fits : date.instant < 2 ^ bits := same ▸ Int.emod_lt_of_pos _ (Int.pow_pos (by decide))
        obtain ⟨days, apart, letters, far⟩ := days_read date
        rw [instant] at same
        have times : ∀ hour minute second : Int,
            timeNumber (digitsValue 10 date.year) (monthRead date.month date.monthText)
                (digitsValue 10 date.day) hour minute second -
              timeNumber date.yearNumber date.month (digitsValue 10 date.day) hour minute second =
                86400 * days := by
          intro hour minute second
          simp only [timeNumber]
          omega
        obtain ⟨same_day, sum⟩ := days_apart long (times _ _ _) far date.zone_offset.small added_small
          same
        obtain ⟨full_year, january, march⟩ := letters same_day
        exact ⟨by rw [known]; rfl, by rw [seconds]; rfl, full_year, january, march, not_zulu,
          universal.mp sum, fits⟩
      · intro honoured
        have nonneg := instant_nonneg after
        have month : monthRead date.month date.monthText = date.month := by
          rcases dayNumber_month 0 0 date.month date.monthText with read | far
          · exact read.1
          · exact absurd ⟨honoured.january, honoured.march⟩ far.1
        have year : date.yearNumber = digitsValue 10 date.year := by
          rw [Date.yearNumber, if_neg (by have := honoured.full_year; omega)]
        have sum := universal.mpr honoured.universal
        rw [month, ← year]
        have whole : timeNumber date.yearNumber date.month (digitsValue 10 date.day)
            (digitsValue 10 date.hour) (digitsValue 10 date.minute) (digitsValue 10 second) + added =
            date.instant := by
          rw [instant]
          omega
        rw [whole]
        exact Int.emod_eq_of_lt nonneg honoured.fits

theorem isNumber_of_all {digits : List UInt8} (some_digits : digits.isEmpty = false)
    (all : digits.all (isDigit 10) = true) : IsNumber digits :=
  ⟨fun none => absurd (List.isEmpty_iff.mpr none) (by rw [some_digits]; exact Bool.false_ne_true),
    List.all_eq_true.mp all⟩

/-- The sixth of a month of 1994, in universal time. -/
def sixth (month : Fin 12) (monthText : List UInt8)
    (month_known : sameNoCase monthText (monthNames.getD month []) = true) : Date false where
  weekday := some (ofString "Sun")
  weekday_known := by
    rintro _ ⟨⟩
    exact ⟨ofString "Sun", by decide +kernel, by decide +kernel⟩
  day := ofString "06"
  day_number := isNumber_of_all (by decide) (by decide +kernel)
  day_short := by decide +kernel
  month := month
  monthText := monthText
  month_known := month_known
  year := ofString "1994"
  year_number := isNumber_of_all (by decide) (by decide +kernel)
  year_length := by decide +kernel
  hour := ofString "08"
  hour_number := isNumber_of_all (by decide) (by decide +kernel)
  hour_short := by decide +kernel
  minute := ofString "49"
  minute_number := isNumber_of_all (by decide) (by decide +kernel)
  minute_short := by decide +kernel
  second := some (ofString "37")
  second_number := by
    rintro _ ⟨⟩
    exact ⟨isNumber_of_all (by decide) (by decide +kernel), by decide⟩
  zone := ofString "GMT"
  offset := 3600 * 0
  zone_offset := @Zone.named false (ofString "GMT") _ 0 (by decide +kernel) (by decide +kernel)

theorem separated_spaces (word : List UInt8) (words : List (List UInt8)) :
    Separated (word :: words) ([0x20].intercalate (word :: words)) := by
  induction words generalizing word with
  | nil => simpa using Separated.last word
  | cons next words ih =>
    rw [List.intercalate_cons_cons, List.append_assoc]
    exact .cons word (by simp) (by simp) (ih next)

/-- Sun, 06 Nov 1994 08:49:37 GMT. -/
theorem november_read :
    httpDateToSeconds 64 (-3600) (ofString "Sun, 06 Nov 1994 08:49:37 GMT") = some 784111777 := by
  have read := @httpDateToSeconds_iff false 64 (sixth 10 (ofString "Nov") (by decide +kernel))
    (ofString "Sun, 06 Nov 1994 08:49:37 GMT") (by decide) (-3600) (by decide +kernel)
    (separated_spaces _ _)
  exact read.mpr ⟨by decide +kernel, by decide +kernel, by decide +kernel, by decide +kernel,
    by decide +kernel, by decide +kernel, .inl (by decide +kernel), by decide +kernel⟩

/-- January is read as June. -/
theorem january_misread :
    ¬ ∀ (reversed : Bool) (bits : Nat) (timezone : Int) (date : Date reversed) (text : List UInt8),
      32 ≤ bits → 1970 < date.yearNumber → Separated date.words text →
        httpDateToSeconds bits timezone text = some date.instant := by
  intro all
  let date := sixth 0 (ofString "Jan") (by decide +kernel)
  have after : 1970 < date.yearNumber := by decide +kernel
  have separated : Separated date.words _ := separated_spaces _ _
  have read := all false 64 0 date _ (by decide) after separated
  exact absurd read (by decide +kernel)

end Libjingle.Http.Dates
