import Mathlib.Algebra.Order.Ring.Nat
import Mathlib.Data.List.DropRight

/-!
# Scanning C strings

The scanning functions of the C library, on the bytes that stand in memory from a
pointer on. The end of the list stands for a terminating NUL. None of these
functions knows where a line ends, so each comes with the condition under which
what it finds does not depend on the bytes behind the line.
-/

namespace Libjingle.Std.CString

/-- The characters of a literal. -/
def ofString (s : String) : List UInt8 :=
  s.toList.map fun c => UInt8.ofNat c.toNat

/-- What holds of every byte can be tested on all of them. -/
theorem forall_byte {p : UInt8 → Prop} (all : ∀ n : Fin 256, p (UInt8.ofNat n)) (c : UInt8) :
    p c := by
  have here := all ⟨c.toNat, c.toNat_lt⟩
  rwa [UInt8.ofNat_toNat] at here

/-- `isspace` of the C locale. -/
def isSpace (c : UInt8) : Bool :=
  c == 32 || (9 ≤ c && c ≤ 13)

/-- `isalnum` of the C locale. -/
def isAlnum (c : UInt8) : Bool :=
  (48 ≤ c ∧ c ≤ 57) ∨ (65 ≤ c ∧ c ≤ 90) ∨ (97 ≤ c ∧ c ≤ 122)

/-- The string at a pointer: the bytes before the first NUL. -/
def terminated (memory : List UInt8) : List UInt8 :=
  memory.takeWhile (· ≠ 0)

theorem terminated_append {text : List UInt8} (behind : List UInt8) (solid : 0 ∉ text) :
    terminated (text ++ 0 :: behind) = text := by
  unfold terminated
  rw [List.takeWhile_append_of_pos, List.takeWhile_cons_of_neg (by simp), List.append_nil]
  intro c c_mem
  exact decide_eq_true fun zero => solid (zero ▸ c_mem)

theorem terminated_of_solid {text : List UInt8} (solid : 0 ∉ text) : terminated text = text := by
  unfold terminated
  rw [List.takeWhile_eq_self_iff]
  intro c c_mem
  exact decide_eq_true fun zero => solid (zero ▸ c_mem)

def skipSpace (text : List UInt8) : List UInt8 :=
  text.dropWhile isSpace

def trimEnd (text : List UInt8) : List UInt8 :=
  text.rdropWhile isSpace

def lower (c : UInt8) : UInt8 :=
  if 65 ≤ c ∧ c ≤ 90 then c + 32 else c

/-- Texts of equal length that a comparison without case does not tell apart. -/
def sameNoCase (a b : List UInt8) : Bool :=
  a.map lower == b.map lower

/-- `strchr` over at most the bytes of the list: what stands before and what stands
behind the first `c`, and nothing if a NUL stands before it. -/
def splitAtChar (c : UInt8) : List UInt8 → Option (List UInt8 × List UInt8)
  | [] => none
  | d :: text =>
    if d = 0 then none
    else if d = c then some ([], text)
    else (splitAtChar c text).map fun (before, behind) => (d :: before, behind)

/-! ## Numbers -/

def digitValue (base : Nat) (c : UInt8) : Option Nat :=
  let value :=
    if 48 ≤ c ∧ c ≤ 57 then c.toNat - 48
    else if 97 ≤ c ∧ c ≤ 122 then c.toNat - 87
    else if 65 ≤ c ∧ c ≤ 90 then c.toNat - 55
    else base
  if value < base then some value else none

def isDigit (base : Nat) (c : UInt8) : Bool :=
  (digitValue base c).isSome

/-- The number that a string of digits stands for. -/
def digitsValue (base : Nat) (digits : List UInt8) : Nat :=
  digits.foldl (fun value c => value * base + (digitValue base c).getD 0) 0

def takeSign : List UInt8 → Bool × List UInt8
  | [] => (false, [])
  | c :: text => if c = 45 then (true, text) else if c = 43 then (false, text) else (false, c :: text)

/-- The optional `0x` before hexadecimal digits. -/
def dropHexPrefix : List UInt8 → List UInt8
  | zero :: x :: digit :: text =>
    if zero = 48 ∧ lower x = 120 ∧ isDigit 16 digit then digit :: text
    else zero :: x :: digit :: text
  | text => text

/-- The number of `bits` bits that stands for a signed string of digits. Too large
a number becomes the largest one. -/
def convert (bits : Nat) (negative : Bool) (value : Nat) : Nat :=
  if 2 ^ bits ≤ value then 2 ^ bits - 1
  else if negative then (2 ^ bits - value) % 2 ^ bits
  else value

/-- The digits behind leading space and a sign, with the sign and the rest. -/
def takeNumber (base : Nat) (text : List UInt8) : Bool × List UInt8 × List UInt8 :=
  let (negative, unsigned) := takeSign (skipSpace text)
  let number := if base = 16 then dropHexPrefix unsigned else unsigned
  (negative, number.takeWhile (isDigit base), number.dropWhile (isDigit base))

/-- `strtoul`: the value and the text at the end pointer. -/
def strtoul (bits base : Nat) (text : List UInt8) : Nat × List UInt8 :=
  match takeNumber base text with
  | (_, [], _) => (0, text)
  | (negative, digits, rest) => (convert bits negative (digitsValue base digits), rest)

/-- The decimal digits of a number, the last one first. -/
def digitsBackwards : Nat → Nat → List UInt8
  | 0, _ => []
  | fuel + 1, n =>
    UInt8.ofNat (48 + n % 10) :: if n < 10 then [] else digitsBackwards fuel (n / 10)

/-- `%lu`. -/
def decimal (n : Nat) : List UInt8 :=
  (digitsBackwards (n + 1) n).reverse

/-! ## Conversions of `sscanf` -/

def isWordChar (c : UInt8) : Bool :=
  c != 0 && !isSpace c

/-- The signed number that stands for a string of digits in a `long` of `bits` bits. -/
def convertSigned (bits : Nat) (negative : Bool) (value : Nat) : Int :=
  if negative then max (-value) (-2 ^ (bits - 1)) else min value (2 ^ (bits - 1) - 1)

/-- `%d`, which converts to a `long` of `bits` bits and stores an int. -/
def scanInt (bits : Nat) (text : List UInt8) : Option (Int × List UInt8) :=
  match takeNumber 10 text with
  | (_, [], _) => none
  | (negative, digits, rest) =>
      some ((convertSigned bits negative (digitsValue 10 digits)).bmod (2 ^ 32), rest)

/-- `%s` with a width: the word and the text behind it. -/
def scanText (width : Nat) (text : List UInt8) : Option (List UInt8 × List UInt8) :=
  match ((skipSpace text).takeWhile isWordChar).take width with
  | [] => none
  | word => some (word, (skipSpace text).drop word.length)

/-- `%c` with a width. What is there is taken if the text ends early. -/
def scanChars (width : Nat) : List UInt8 → Option (List UInt8 × List UInt8)
  | [] => none
  | text => some (text.take width, text.drop width)

/-- An ordinary character sequence of the format. -/
def scanLiteral : List UInt8 → List UInt8 → Option (List UInt8)
  | [], text => some text
  | _ :: _, [] => none
  | c :: literal, d :: text => if c = d then scanLiteral literal text else none

/-! ## Bounds -/

theorem convert_lt (bits : Nat) (negative : Bool) (value : Nat) :
    convert bits negative value < 2 ^ bits := by
  have positive : 0 < 2 ^ bits := Nat.two_pow_pos bits
  unfold convert
  split
  · omega
  · next small =>
    split
    · exact Nat.mod_lt _ positive
    · exact Nat.not_le.mp small

theorem strtoul_lt (bits base : Nat) (text : List UInt8) : (strtoul bits base text).1 < 2 ^ bits := by
  unfold strtoul
  split
  · exact Nat.two_pow_pos bits
  · exact convert_lt _ _ _

/-! ## Numbers read back -/

section

variable {c : UInt8} {n : Nat} {rest : List UInt8}

theorem digitValue_ofNat {d : Nat} (small : d < 10) : digitValue 10 (UInt8.ofNat (48 + d)) = some d := by
  have all : ∀ d : Fin 10, digitValue 10 (UInt8.ofNat (48 + d)) = some d.val := by decide
  exact all ⟨d, small⟩

theorem mem_digitsBackwards {fuel : Nat} (c_mem : c ∈ digitsBackwards fuel n) :
    ∃ d < 10, c = UInt8.ofNat (48 + d) := by
  induction fuel generalizing n with
  | zero => cases c_mem
  | succ fuel ih =>
    rw [digitsBackwards] at c_mem
    rcases List.mem_cons.mp c_mem with rfl | c_mem
    · exact ⟨n % 10, Nat.mod_lt _ (by decide), rfl⟩
    · split at c_mem
      · cases c_mem
      · exact ih c_mem

theorem mem_decimal (c_mem : c ∈ decimal n) : ∃ d < 10, c = UInt8.ofNat (48 + d) :=
  mem_digitsBackwards (List.mem_reverse.mp c_mem)

theorem isDigit_of_mem_decimal (c_mem : c ∈ decimal n) : isDigit 10 c = true := by
  obtain ⟨d, small, rfl⟩ := mem_decimal c_mem
  rw [isDigit, digitValue_ofNat small]
  rfl

/-- Digits stand from the character zero on to the character nine. -/
theorem decimal_range (c_mem : c ∈ decimal n) : 48 ≤ c ∧ c ≤ 57 := by
  obtain ⟨d, small, rfl⟩ := mem_decimal c_mem
  have all : ∀ d : Fin 10, 48 ≤ UInt8.ofNat (48 + d) ∧ UInt8.ofNat (48 + d) ≤ 57 := by decide
  exact all ⟨d, small⟩

theorem decimal_ne_nil (n : Nat) : decimal n ≠ [] := by
  unfold decimal digitsBackwards
  simp

theorem length_decimal_le {digits : Nat} (small : n < 10 ^ (digits + 1)) :
    (decimal n).length ≤ digits + 1 := by
  have backwards : ∀ (fuel digits n : Nat), n < 10 ^ (digits + 1) →
      (digitsBackwards fuel n).length ≤ digits + 1 := by
    intro fuel
    induction fuel with
    | zero => exact fun _ _ _ => Nat.zero_le _
    | succ fuel ih =>
      intro digits n small
      rw [digitsBackwards, List.length_cons]
      split
      · exact Nat.succ_le_succ (Nat.zero_le _)
      · next several =>
        cases digits with
        | zero => exact absurd small several
        | succ digits =>
          refine Nat.succ_le_succ (ih digits (n / 10) ?_)
          rw [Nat.pow_succ] at small
          exact Nat.div_lt_of_lt_mul (by omega)
  rw [decimal, List.length_reverse]
  exact backwards _ _ _ small

theorem digitsValue_digitsBackwards {fuel : Nat} (enough : n < fuel) :
    digitsValue 10 (digitsBackwards fuel n).reverse = n := by
  induction fuel generalizing n with
  | zero => cases enough
  | succ fuel ih =>
    have last : (digitValue 10 (UInt8.ofNat (48 + n % 10))).getD 0 = n % 10 := by
      rw [digitValue_ofNat (Nat.mod_lt _ (by decide))]
      rfl
    rw [digitsBackwards, List.reverse_cons, digitsValue, List.foldl_append]
    simp only [List.foldl_cons, List.foldl_nil, last]
    split
    · next small =>
      simp only [List.reverse_nil, List.foldl_nil]
      omega
    · have before : digitsValue 10 (digitsBackwards fuel (n / 10)).reverse = n / 10 :=
        ih (by omega)
      rw [digitsValue] at before
      rw [before]
      omega

theorem digitsValue_decimal (n : Nat) : digitsValue 10 (decimal n) = n :=
  digitsValue_digitsBackwards (Nat.lt_succ_self n)

theorem solid_of_isDigit (digit : isDigit 10 c = true) :
    c ≠ 0 ∧ isSpace c = false ∧ c ≠ 45 ∧ c ≠ 43 := by
  have all : ∀ c : UInt8, isDigit 10 c = true → c ≠ 0 ∧ isSpace c = false ∧ c ≠ 45 ∧ c ≠ 43 :=
    forall_byte (by decide +kernel)
  exact all c digit

/-- Space in front is passed over. -/
theorem skipSpace_blanks {blanks : List UInt8} (blank : ∀ c ∈ blanks, isSpace c = true)
    (starts : ∀ c behind, rest = c :: behind → isSpace c = false) :
    skipSpace (blanks ++ rest) = rest := by
  rw [skipSpace, List.dropWhile_append_of_pos blank]
  cases rest with
  | nil => rfl
  | cons c behind => rw [List.dropWhile_cons_of_neg (by simp [starts c behind rfl])]

/-- Digits are taken, whatever stands behind them that is no digit. -/
theorem takeNumber_digits {blanks digits : List UInt8} (blank : ∀ c ∈ blanks, isSpace c = true)
    (some_digits : digits ≠ []) (digit : ∀ c ∈ digits, isDigit 10 c = true)
    (ends : ∀ c behind, rest = c :: behind → isDigit 10 c = false) :
    takeNumber 10 (blanks ++ (digits ++ rest)) = (false, digits, rest) := by
  obtain ⟨first, others, whole⟩ := List.exists_cons_of_ne_nil some_digits
  obtain ⟨-, solid, plus, minus⟩ := solid_of_isDigit (digit first (whole ▸ List.mem_cons_self))
  have taken : (digits ++ rest).takeWhile (isDigit 10) = digits := by
    rw [List.takeWhile_append_of_pos digit]
    cases rest with
    | nil => simp
    | cons c behind => simp [ends c behind rfl]
  have dropped : (digits ++ rest).dropWhile (isDigit 10) = rest := by
    rw [List.dropWhile_append_of_pos digit]
    cases rest with
    | nil => simp
    | cons c behind => simp [ends c behind rfl]
  have skipped : skipSpace (blanks ++ (digits ++ rest)) = digits ++ rest := by
    refine skipSpace_blanks blank fun c behind same => ?_
    rw [whole, List.cons_append] at same
    rw [← (List.cons.inj same).1, solid]
  have start : takeSign (digits ++ rest) = (false, digits ++ rest) := by
    rw [whole, List.cons_append, takeSign, if_neg plus, if_neg minus]
  unfold takeNumber
  rw [skipped, start]
  exact congrArg (Prod.mk false) (Prod.ext taken dropped)

theorem digitsValue_lt (digits : List UInt8) : digitsValue 10 digits < 10 ^ digits.length := by
  induction digits using List.reverseRecOn with
  | nil => exact Nat.one_pos
  | append_singleton digits c ih =>
    have small : (digitValue 10 c).getD 0 < 10 := by
      unfold digitValue
      dsimp only
      split_ifs <;> simp <;> omega
    rw [digitsValue] at ih ⊢
    rw [List.foldl_append, List.foldl_cons, List.foldl_nil, List.length_append, List.length_singleton,
      Nat.pow_succ]
    omega

/-- A number that fits an int is read as one. -/
theorem scanInt_fits {bits : Nat} {blanks digits : List UInt8} (long : 32 ≤ bits)
    (blank : ∀ c ∈ blanks, isSpace c = true) (some_digits : digits ≠ [])
    (digit : ∀ c ∈ digits, isDigit 10 c = true) (fits : digitsValue 10 digits < 2 ^ 31)
    (ends : ∀ c behind, rest = c :: behind → isDigit 10 c = false) :
    scanInt bits (blanks ++ (digits ++ rest)) = some (↑(digitsValue 10 digits), rest) := by
  have wide : (2 : Int) ^ 31 ≤ 2 ^ (bits - 1) := by
    exact_mod_cast Nat.pow_le_pow_right (by decide : 0 < 2) (by omega : 31 ≤ bits - 1)
  have value : (convertSigned bits false (digitsValue 10 digits)).bmod (2 ^ 32) =
      digitsValue 10 digits := by
    rw [convertSigned, if_neg Bool.false_ne_true, Int.min_eq_left (by omega)]
    exact Int.bmod_eq_of_le (by omega) (by omega)
  unfold scanInt
  rw [takeNumber_digits blank some_digits digit ends]
  split
  · next same => exact absurd (Prod.mk.inj (Prod.mk.inj same).2).1 some_digits
  · next same =>
    obtain ⟨rfl, found⟩ := Prod.mk.inj same
    obtain ⟨rfl, rfl⟩ := Prod.mk.inj found
    rw [value]

/-- A short number is read as an int. -/
theorem scanInt_digits {bits : Nat} {blanks digits : List UInt8} (long : 32 ≤ bits)
    (blank : ∀ c ∈ blanks, isSpace c = true) (some_digits : digits ≠ [])
    (digit : ∀ c ∈ digits, isDigit 10 c = true) (short : digits.length ≤ 9)
    (ends : ∀ c behind, rest = c :: behind → isDigit 10 c = false) :
    scanInt bits (blanks ++ (digits ++ rest)) = some (↑(digitsValue 10 digits), rest) := by
  have small : digitsValue 10 digits < 10 ^ 9 :=
    Nat.lt_of_lt_of_le (digitsValue_lt digits) (Nat.pow_le_pow_right (by decide) short)
  exact scanInt_fits long blank some_digits digit (by omega) ends

/-- A word is scanned up to its width, or up to its end. -/
theorem scanText_word {blanks word : List UInt8} {width : Nat}
    (blank : ∀ c ∈ blanks, isSpace c = true) (some_word : word ≠ [])
    (solid : ∀ c ∈ word, isWordChar c = true)
    (ends : word.length = width ∨ word.length ≤ width ∧ ∀ c behind, rest = c :: behind →
      isWordChar c = false) :
    scanText width (blanks ++ (word ++ rest)) = some (word, rest) := by
  have skipped : skipSpace (blanks ++ (word ++ rest)) = word ++ rest := by
    refine skipSpace_blanks blank fun c behind same => ?_
    obtain ⟨first, others, rfl⟩ := List.exists_cons_of_ne_nil some_word
    obtain ⟨rfl, -⟩ := List.cons.inj same
    have first_solid := solid _ List.mem_cons_self
    simp only [isWordChar, Bool.and_eq_true, Bool.not_eq_true'] at first_solid
    exact first_solid.2
  have taken : ((word ++ rest).takeWhile isWordChar).take width = word := by
    rw [List.takeWhile_append_of_pos solid]
    rcases ends with rfl | ⟨short, ends⟩
    · exact List.take_left
    · cases rest with
      | nil =>
        rw [List.takeWhile_nil, List.append_nil]
        exact List.take_of_length_le short
      | cons c behind =>
        rw [List.takeWhile_cons_of_neg (by simp [ends c behind rfl]), List.append_nil]
        exact List.take_of_length_le short
  obtain ⟨first, others, whole⟩ := List.exists_cons_of_ne_nil some_word
  rw [scanText, skipped, taken, whole]
  dsimp only
  rw [List.drop_left]

/-- Digits are read as their number, whatever stands behind them that is no digit. -/
theorem strtoul_digits {bits : Nat} {digits : List UInt8} (some_digits : digits ≠ [])
    (digit : ∀ c ∈ digits, isDigit 10 c = true) (fits : digitsValue 10 digits < 2 ^ bits)
    (ends : ∀ c behind, rest = c :: behind → isDigit 10 c = false) :
    strtoul bits 10 (digits ++ rest) = (digitsValue 10 digits, rest) := by
  have number := @takeNumber_digits rest [] digits nofun some_digits digit ends
  rw [List.nil_append] at number
  unfold strtoul
  rw [number]
  split
  · next same =>
    exact absurd (Prod.mk.inj (Prod.mk.inj same).2).1 some_digits
  · next same =>
    obtain ⟨sign, found⟩ := Prod.mk.inj same
    obtain ⟨rfl, rfl⟩ := Prod.mk.inj found
    rw [convert, if_neg (Nat.not_le.mpr fits), ← sign]
    rfl

/-- A number is read back, whatever stands behind it that is no digit. -/
theorem strtoul_decimal {bits : Nat} (fits : n < 2 ^ bits)
    (ends : ∀ c behind, rest = c :: behind → isDigit 10 c = false) :
    strtoul bits 10 (decimal n ++ rest) = (n, rest) := by
  have digit : ∀ c ∈ decimal n, isDigit 10 c = true := fun _ mem => isDigit_of_mem_decimal mem
  have read := strtoul_digits (decimal_ne_nil n) digit ((digitsValue_decimal n).symm ▸ fits) ends
  rwa [digitsValue_decimal] at read

end

/-! ## What ends a scan

A space ends every word and every number, so a scan that finds something else before
the space does not see what stands behind it. -/

section Local

variable {stop : UInt8} {text behind : List UInt8}

theorem not_isDigit_of_isSpace {base : Nat} {c : UInt8} (space : isSpace c = true) :
    isDigit base c = false := by
  have low : c.toNat ≤ 32 := by
    simp only [isSpace, Bool.or_eq_true, beq_iff_eq, Bool.and_eq_true, decide_eq_true_eq,
      UInt8.le_iff_toNat_le] at space
    rcases space with rfl | ⟨-, high⟩
    · decide
    · exact Nat.le_trans high (by decide)
  have above : ∀ d : UInt8, 32 < d.toNat → ∀ e : UInt8, ¬(d ≤ c ∧ c ≤ e) := fun d high e within =>
    Nat.lt_irrefl _ (Nat.lt_of_lt_of_le high
      (Nat.le_trans (UInt8.le_iff_toNat_le.mp within.1) low))
  have none : digitValue base c = none := by
    unfold digitValue
    rw [if_neg (above 48 (by decide) 57), if_neg (above 97 (by decide) 122),
      if_neg (above 65 (by decide) 90)]
    exact if_neg (Nat.lt_irrefl base)
  rw [isDigit, none]
  rfl

theorem not_isWordChar_of_isSpace {c : UInt8} (space : isSpace c = true) :
    isWordChar c = false := by
  rw [isWordChar, space, Bool.not_true, Bool.and_false]

end Local

end Libjingle.Std.CString
