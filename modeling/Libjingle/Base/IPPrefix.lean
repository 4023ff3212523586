import Libjingle.Base.SocketAddress
import Libjingle.Std.Bits

/-!
# Prefixes of IP addresses

`TruncateIP` keeps the first bits of an address, and `CountIPMaskBits` counts the ones that a mask
starts with. An address of the second family is worked on word by word; the words are swapped to
host order where they are shifted, so that they stand here as they are read from the address.
-/

namespace Libjingle

open Std.Bits

namespace IPAddress

/-! ## The functions -/

/-- The four words of an address of the second family. -/
def words (addr : BitVec 128) : List (BitVec 32) :=
  [addr.extractLsb' 96 32, addr.extractLsb' 64 32, addr.extractLsb' 32 32, addr.extractLsb' 0 32]

/-- The address that is made of words. -/
def ofWords : List (BitVec 32) → BitVec 128
  | [a, b, c, d] => a ++ b ++ c ++ d
  | _ => 0

/-- The loop of `TruncateIP`, from the word `i` on. -/
def truncateWords (position : Nat) (innerMask : BitVec 32) : Nat → List (BitVec 32) →
    List (BitVec 32)
  | _, [] => []
  | i, word :: rest =>
      (if i = position then word &&& innerMask else if position < i then 0 else word) ::
        truncateWords position innerMask (i + 1) rest

/-- `TruncateIP`. -/
def truncateIP (ip : IPAddress) (length : Int) : IPAddress :=
  if length < 0 then .unspec
  else
    match ip with
    | .v4 addr =>
        if 31 < length then ip
        else if length = 0 then .v4 0
        else
          let mask : BitVec 32 := 0xFFFFFFFF <<< (32 - length).toNat
          .v4 (addr &&& mask)
    | .v6 addr =>
        if 127 < length then ip
        else if length = 0 then .v6 0
        else
          let position := length / 32
          let innerLength := 32 - (length - position * 32)
          -- The mask is shifted as a number of 64 bits, and cut.
          let innerMask := ((0xFFFFFFFF : BitVec 64) <<< innerLength.toNat).setWidth 32
          .v6 (ofWords (truncateWords position.toNat innerMask 0 (words addr)))
    | .unspec => .unspec

/-- The scan of the last word of `CountIPMaskBits`. -/
def scanWord : Nat → BitVec 32 → Nat → Option Nat
  | 0, _, _ => none
  | fuel + 1, word, count =>
      if word &&& 0x80000000 ≠ 0 then scanWord fuel (word <<< 1) (count + 1) else some count

/-- What `CountIPMaskBits` does with a word, after `count` bits. A word of ones has 32 to shift out. -/
def countWord (word : BitVec 32) (count : Nat) : Option Nat :=
  if word = 0 then some count
  else if word = 0xFF000000 then some (count + 8)
  else if word = 0xFFFF0000 then some (count + 16)
  else if word = 0xFFFFFF00 then some (count + 24)
  else scanWord 33 word count

/-- The first word that is not full, and its index; `i` words are before the list. -/
def firstPartial : Nat → List (BitVec 32) → Nat × BitVec 32
  | i, [] => (i, 0)
  | i, word :: rest => if word ≠ 0xFFFFFFFF then (i, word) else firstPartial (i + 1) rest

/-- `CountIPMaskBits`. -/
def countIPMaskBits : IPAddress → Option Nat
  | .v4 addr => countWord addr 0
  | .v6 addr =>
      let (i, word) := firstPartial 0 (words addr)
      countWord word (i * 32)
  | .unspec => some 0

/-! ## Bits -/

/-- The bits of an address, the first one first. -/
def bits : IPAddress → List Bool
  | .unspec => []
  | .v4 addr => Std.Bits.bits addr
  | .v6 addr => Std.Bits.bits addr

/-- The address of the same family that is all ones. -/
def allOnes : IPAddress → IPAddress
  | .unspec => .unspec
  | .v4 _ => .v4 (.allOnes 32)
  | .v6 _ => .v6 (.allOnes 128)

/-- Two addresses are of one family. -/
def sameFamily : IPAddress → IPAddress → Bool
  | .unspec, .unspec => true
  | .v4 _, .v4 _ => true
  | .v6 _, .v6 _ => true
  | _, _ => false

/-- The bits of words that stand behind each other. -/
def wordBits (words : List (BitVec 32)) : List Bool :=
  words.flatMap Std.Bits.bits

theorem ofWords_words (addr : BitVec 128) : ofWords (words addr) = addr := by
  refine BitVec.eq_of_getMsbD_eq fun i inside => ?_
  simp only [ofWords, words, BitVec.getMsbD_append, BitVec.getMsbD_extractLsb']
  split_ifs <;> simp <;> grind

theorem bits_ofWords {words : List (BitVec 32)} (four : words.length = 4) :
    Std.Bits.bits (ofWords words) = wordBits words := by
  match words, four with
  | [a, b, c, d], _ =>
    have parts := bits_append (a ++ b ++ c) d
    rw [bits_append (a ++ b) c, bits_append a b] at parts
    exact parts.trans (by simp [wordBits])

theorem bits_words (addr : BitVec 128) : wordBits (words addr) = Std.Bits.bits addr := by
  rw [← bits_ofWords rfl, ofWords_words]

theorem length_truncateWords (position : Nat) (innerMask : BitVec 32) (i : Nat)
    (words : List (BitVec 32)) :
    (truncateWords position innerMask i words).length = words.length := by
  induction words generalizing i with
  | nil => rfl
  | cons word rest ih => rw [truncateWords, List.length_cons, ih, List.length_cons]

theorem wordBits_cons (word : BitVec 32) (rest : List (BitVec 32)) :
    wordBits (word :: rest) = Std.Bits.bits word ++ wordBits rest :=
  List.flatMap_cons

/-- The mask of 64 bits that is cut keeps the first bits of a word. -/
theorem innerMask_eq {n : Nat} (small : n < 32) :
    ((0xFFFFFFFF : BitVec 64) <<< (32 - n)).setWidth 32 = BitVec.allOnes 32 <<< (32 - n) := by
  have all : ∀ n : Fin 32, ((0xFFFFFFFF : BitVec 64) <<< (32 - n.val)).setWidth 32 =
      BitVec.allOnes 32 <<< (32 - n.val) := by decide
  exact all ⟨n, small⟩

/-- From the word `i` on, the bits in front of the place `32 * position + n` are kept. -/
theorem wordBits_truncateWords {position n : Nat} (small : n < 32) (i : Nat)
    (words : List (BitVec 32)) :
    wordBits (truncateWords position (BitVec.allOnes 32 <<< (32 - n)) i words) =
      keepFirst (32 * position + n - 32 * i) (wordBits words) := by
  induction words generalizing i with
  | nil => simp [truncateWords, wordBits]
  | cons word rest ih =>
    have left : 32 * position + n - 32 * i - 32 = 32 * position + n - 32 * (i + 1) := by omega
    rw [truncateWords, wordBits_cons, wordBits_cons, ih, keepFirst_append, length_bits, left]
    congr 1
    rcases Nat.lt_trichotomy i position with before | rfl | behind
    · rw [if_neg (Nat.ne_of_lt before), if_neg (Nat.lt_asymm before),
        keepFirst_of_le (by rw [length_bits]; omega)]
    · have mask : 32 * i + n - 32 * i = n := by omega
      rw [if_pos rfl, bits_mask word (Nat.le_of_lt small), mask]
    · have none : 32 * position + n - 32 * i = 0 := by omega
      rw [if_neg (Nat.ne_of_gt behind), if_pos behind, none, keepFirst_zero, length_bits]
      decide

/-! ## Truncation -/

theorem bits_zero (w : Nat) : Std.Bits.bits (0 : BitVec w) = List.replicate w false := by
  refine List.ext_getElem (by simp) fun i inside _ => ?_
  rw [getElem_bits, List.getElem_replicate]
  exact BitVec.getMsbD_zero

/-- `TruncateIP` keeps the first bits and clears the others. -/
theorem truncateIP_spec (ip : IPAddress) (n : Nat) :
    sameFamily (truncateIP ip n) ip = true ∧ (truncateIP ip n).bits = keepFirst n ip.bits := by
  have nonneg : ¬ (n : Int) < 0 := Int.not_lt.mpr (Int.natCast_nonneg n)
  unfold truncateIP
  rw [if_neg nonneg]
  cases ip with
  | unspec => exact ⟨rfl, (keepFirst_nil n).symm⟩
  | v4 addr =>
    simp only
    split
    · exact ⟨rfl, (keepFirst_of_le (by simp only [bits, length_bits]; omega)).symm⟩
    · split
      · next none =>
        rw [Int.natCast_eq_zero.mp none]
        exact ⟨rfl, by rw [keepFirst_zero, bits, bits, bits_zero, length_bits]⟩
      · have shift : ((32 : Int) - n).toNat = 32 - n := by omega
        refine ⟨rfl, ?_⟩
        rw [shift]
        exact bits_mask addr (by omega)
  | v6 addr =>
    simp only
    split
    · exact ⟨rfl, (keepFirst_of_le (by simp only [bits, length_bits]; omega)).symm⟩
    · split
      · next none =>
        rw [Int.natCast_eq_zero.mp none]
        exact ⟨rfl, by rw [keepFirst_zero, bits, bits, bits_zero, length_bits]⟩
      · have position : ((n : Int) / 32).toNat = n / 32 := by omega
        have inner : ((32 : Int) - (n - (n : Int) / 32 * 32)).toNat = 32 - n % 32 := by omega
        have small : n % 32 < 32 := Nat.mod_lt n (by decide)
        have place : 32 * (n / 32) + n % 32 - 32 * 0 = n := by omega
        refine ⟨rfl, ?_⟩
        rw [position, inner, innerMask_eq small, bits,
          bits_ofWords (by rw [length_truncateWords]; rfl), wordBits_truncateWords small, place,
          bits_words, bits]

/-- An address is known by its family and its bits. -/
theorem eq_of_bits {ip ip' : IPAddress} (family : sameFamily ip ip' = true)
    (same : ip.bits = ip'.bits) : ip = ip' := by
  cases ip <;> cases ip' <;> first | cases family; done | skip
  · rfl
  · exact congrArg _ (bits_inj same)
  · exact congrArg _ (bits_inj same)

theorem sameFamily_trans {a b c : IPAddress} (first : sameFamily a b = true)
    (second : sameFamily b c = true) : sameFamily a c = true := by
  cases a <;> cases b <;> cases c <;> first | rfl | cases first; done | cases second

theorem sameFamily_symm {a b : IPAddress} (same : sameFamily a b = true) :
    sameFamily b a = true := by
  cases a <;> cases b <;> first | rfl | cases same

theorem truncateIP_truncateIP (ip : IPAddress) (n k : Nat) :
    truncateIP (truncateIP ip n) k = truncateIP ip (min n k : Nat) := by
  obtain ⟨family, first⟩ := truncateIP_spec ip n
  obtain ⟨familyBoth, both⟩ := truncateIP_spec (truncateIP ip n) k
  obtain ⟨familyLeast, least⟩ := truncateIP_spec ip (min n k)
  refine eq_of_bits (sameFamily_trans (sameFamily_trans familyBoth family)
    (sameFamily_symm familyLeast)) ?_
  rw [both, first, least, keepFirst_keepFirst]

/-! ## Counting -/

theorem highBit_iff (word : BitVec 32) : word &&& 0x80000000 ≠ 0 ↔ word.msb = true := by
  have power : (0x80000000 : BitVec 32) = BitVec.twoPow 32 31 := by decide
  rw [power, BitVec.and_twoPow, BitVec.msb_eq_getLsbD_last]
  cases word.getLsbD 31 <;> simp

theorem scanWord_eq {fuel : Nat} {word : BitVec 32} (count : Nat)
    (enough : leadingOnes (Std.Bits.bits word) < fuel) :
    scanWord fuel word count = some (count + leadingOnes (Std.Bits.bits word)) := by
  induction fuel generalizing word count with
  | zero => cases enough
  | succ fuel ih =>
    have shift := leadingOnes_shift word
    unfold scanWord
    split
    · next high =>
      rw [if_pos ((highBit_iff word).mp high)] at shift
      rw [ih (count + 1) (by omega), shift]
      congr 1
      omega
    · next low =>
      rw [if_neg fun high => low ((highBit_iff word).mpr high)] at shift
      rw [shift, Nat.add_zero]

theorem countWord_eq (word : BitVec 32) (count : Nat) :
    countWord word count = some (count + leadingOnes (Std.Bits.bits word)) := by
  unfold countWord
  split_ifs with none one two three
  · rw [none]
    rfl
  · have ones : leadingOnes (Std.Bits.bits (0xFF000000 : BitVec 32)) = 8 := by decide
    rw [one, ones]
  · have ones : leadingOnes (Std.Bits.bits (0xFFFF0000 : BitVec 32)) = 16 := by decide
    rw [two, ones]
  · have ones : leadingOnes (Std.Bits.bits (0xFFFFFF00 : BitVec 32)) = 24 := by decide
    rw [three, ones]
  · have most := leadingOnes_le (Std.Bits.bits word)
    rw [length_bits] at most
    exact scanWord_eq count (Nat.lt_succ_of_le most)

/-- Full words are counted, up to the first one that is not. -/
theorem firstPartial_spec (i : Nat) (words : List (BitVec 32)) :
    (firstPartial i words).1 * 32 + leadingOnes (Std.Bits.bits (firstPartial i words).2) =
      i * 32 + leadingOnes (wordBits words) := by
  induction words generalizing i with
  | nil =>
    have zeros : leadingOnes (Std.Bits.bits (0 : BitVec 32)) = 0 := by decide
    rw [firstPartial, zeros]
    rfl
  | cons word rest ih =>
    rw [firstPartial, wordBits_cons]
    split
    · next other => rw [leadingOnes_append_of_zero (zero_mem_bits other)]
    · next full =>
      have ones : ∀ b ∈ Std.Bits.bits word, b = true := by
        rw [not_not.mp full]
        exact fun b mem => List.eq_of_mem_replicate (bits_allOnes ▸ mem)
      rw [ih, leadingOnes_append ones, length_bits]
      omega

/-- `CountIPMaskBits` counts the ones that the address starts with. -/
theorem countIPMaskBits_eq (mask : IPAddress) :
    countIPMaskBits mask = some (leadingOnes mask.bits) := by
  cases mask with
  | unspec => rfl
  | v4 addr => exact (countWord_eq addr 0).trans (congrArg some (Nat.zero_add _))
  | v6 addr =>
    have words := firstPartial_spec 0 (words addr)
    rw [Nat.zero_mul, Nat.zero_add, bits_words] at words
    exact (countWord_eq _ _).trans (congrArg some words)

/-- How many bits an address has. -/
def width (ip : IPAddress) : Nat :=
  ip.bits.length

theorem bits_allOnes_eq (ip : IPAddress) : ip.allOnes.bits = List.replicate ip.width true := by
  cases ip with
  | unspec => rfl
  | v4 addr => rw [width, bits, length_bits]; exact bits_allOnes
  | v6 addr => rw [width, bits, length_bits]; exact bits_allOnes

/-- Prefixes: the first bits are kept, the shorter one of two lengths counts, and the length of a
mask is counted. -/
theorem prefix_arithmetic (ip : IPAddress) (n k : Nat) :
    (sameFamily (truncateIP ip n) ip = true ∧ (truncateIP ip n).bits = keepFirst n ip.bits) ∧
      truncateIP (truncateIP ip n) k = truncateIP ip (min n k : Nat) ∧
      countIPMaskBits ip = some (leadingOnes ip.bits) ∧
      countIPMaskBits (truncateIP ip.allOnes n) = some (min n ip.width) := by
  refine ⟨truncateIP_spec ip n, truncateIP_truncateIP ip n k, countIPMaskBits_eq ip, ?_⟩
  rw [countIPMaskBits_eq, (truncateIP_spec ip.allOnes n).2, bits_allOnes_eq, leadingOnes_keepFirst]

end IPAddress

end Libjingle
