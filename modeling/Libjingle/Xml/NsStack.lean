import Libjingle.Std.XmlMarkup
import Libjingle.Xml.Element
import Mathlib

/-!
# The stack of namespaces

`XmlnsStack` of `talk/xmllite/xmlnsstack.cc`: the prefixes that are in scope where an element is
printed, and those that are invented for namespaces without one.
-/

namespace Libjingle.Xml

open Libjingle.Std.XmlDocument

structure XmlnsStack where
  /-- The prefixes with their namespaces, the last one first. -/
  xmlns : List (String × String)
  /-- How many there were when the frames were pushed, the last frame first. -/
  depths : List Nat

/-- A name without a colon. -/
def IsNCName (name : String) : Prop :=
  IsName name.toList ∧ ':' ∉ name.toList

theorem IsNCName.ne_empty {name : String} (ncName : IsNCName name) : name ≠ "" := by
  rintro rfl
  exact ncName.1

theorem isNCName_of_all {name : String} (start : name.toList.head?.any isNameStart = true)
    (chars : name.toList.all isNameChar = true) (noColon : ':' ∉ name.toList) : IsNCName name := by
  refine ⟨?_, noColon⟩
  cases listed : name.toList with
  | nil =>
    rw [listed] at start
    cases start
  | cons first others =>
    rw [listed] at start chars
    exact ⟨start, fun c later => List.all_eq_true.mp chars c (List.mem_cons_of_mem _ later)⟩

/-- Such prefixes are reserved. -/
def isXmlLike (pre : String) : Bool :=
  match pre.toList with
  | x :: m :: l :: _ => (x = 'x' || x = 'X') && (m = 'm' || m = 'M') && (l = 'l' || l = 'L')
  | _ => false

def isAsciiLetter (ch : Char) : Bool :=
  ('a' ≤ ch && ch ≤ 'z') || ('A' ≤ ch && ch ≤ 'Z')

/-- The last letters of a namespace, three if there are more than four. -/
def suggestPrefix (ns : String) : String :=
  let text := ns.toList
  let ending := text.reverse.takeWhile (· ≠ '.')
  -- A short ending behind a dot is chopped off.
  let len :=
    if ending.length < text.length ∧ ending.length + 1 ≤ 4 + 1 then text.length - (ending.length + 1)
    else text.length
  let letters :=
    (((text.take len).reverse.dropWhile fun ch => !isAsciiLetter ch).takeWhile isAsciiLetter).reverse
  let candidate := (if letters.length > 4 then letters.take 3 else letters).map Char.toLower
  if candidate = [] ∨ "xml".toList.isPrefixOf candidate = true then "ns"
  else String.ofList candidate

namespace XmlnsStack

def empty : XmlnsStack := ⟨[], []⟩

def pushFrame (s : XmlnsStack) : XmlnsStack :=
  { s with depths := s.xmlns.length :: s.depths }

def popFrame (s : XmlnsStack) : XmlnsStack :=
  match s.depths with
  | [] => s
  | prevSize :: depths => ⟨s.xmlns.drop (s.xmlns.length - prevSize), depths⟩

def nsForPrefix (s : XmlnsStack) (pre : String) : Option String :=
  if isXmlLike pre = true then
    if pre = "xml" then some nsXml else if pre = "xmlns" then some nsXmlns else none
  else
    match s.xmlns.find? (·.1 = pre) with
    | some found => some found.2
    | none => if pre = "" then some "" else none

def prefixMatchesNs (s : XmlnsStack) (pre ns : String) : Bool :=
  s.nsForPrefix pre = some ns

def prefixForNs (s : XmlnsStack) (ns : String) (isAttr : Bool) : Option String :=
  if ns = nsXml then some "xml"
  else if ns = nsXmlns then some "xmlns"
  else if (if isAttr = true then decide (ns = "") else s.prefixMatchesNs "" ns) = true then some ""
  else
    (s.xmlns.find? fun pos =>
      pos.2 = ns && (!isAttr || pos.1 ≠ "") && s.prefixMatchesNs pos.1 ns).map Prod.fst

def formatQName (s : XmlnsStack) (name : QName) (isAttr : Bool) : String :=
  let pre := (s.prefixForNs name.ns isAttr).getD ""
  if pre = "" then name.localPart else pre ++ ":" ++ name.localPart

def addXmlns (s : XmlnsStack) (pre ns : String) : XmlnsStack :=
  { s with xmlns := (pre, ns) :: s.xmlns }

/-- The loop of `AddNewPrefix`: numbers from `i` on, until a prefix is free. -/
def freePrefix (s : XmlnsStack) (base : String) : Nat → Nat → String → String
  | 0, _, result => result
  | fuel + 1, i, result =>
      if (s.nsForPrefix result).isSome = true then s.freePrefix base fuel (i + 1) (base ++ toString i)
      else result

/-- A prefix for a namespace that has none. It is free after as many rounds as there are others. -/
def addNewPrefix (s : XmlnsStack) (ns : String) (isAttr : Bool) : Option String × XmlnsStack :=
  if (s.prefixForNs ns isAttr).isSome = true then (none, s)
  else
    let base := suggestPrefix ns
    let result := s.freePrefix base (s.xmlns.length + 1) 2 base
    (some result, s.addXmlns result ns)

/-! ## Frames -/

theorem popFrame_pushFrame (s : XmlnsStack) (more : List (String × String)) :
    popFrame { s.pushFrame with xmlns := more ++ s.xmlns } = s := by
  have dropped : (more ++ s.xmlns).length - s.xmlns.length = more.length := by
    rw [List.length_append, Nat.add_sub_cancel]
  unfold popFrame pushFrame
  dsimp only
  rw [dropped, List.drop_left]

/-! ## Prefixes that are free -/

variable {s : XmlnsStack} {pre other ns ns' : String} {isAttr : Bool}

/-- A prefix that can be declared. -/
structure Free (s : XmlnsStack) (pre : String) : Prop where
  unbound : s.nsForPrefix pre = none
  ordinary : isXmlLike pre = false

theorem Free.ne_empty (free : s.Free pre) : pre ≠ "" := by
  rintro rfl
  have unbound := free.unbound
  unfold nsForPrefix at unbound
  rw [if_neg (by decide)] at unbound
  split at unbound
  · cases unbound
  · cases unbound

/-- Other prefixes keep their namespaces. -/
theorem nsForPrefix_addXmlns_ne (different : other ≠ pre) :
    (s.addXmlns pre ns).nsForPrefix other = s.nsForPrefix other := by
  unfold nsForPrefix addXmlns
  dsimp only
  rw [List.find?_cons_of_neg (by rw [decide_eq_true_eq]; exact different.symm)]

theorem nsForPrefix_addXmlns (ordinary : isXmlLike pre = false) :
    (s.addXmlns pre ns).nsForPrefix pre = some ns := by
  unfold nsForPrefix addXmlns
  rw [if_neg (by rw [ordinary]; decide)]
  dsimp only
  rw [List.find?_cons_of_pos (by exact decide_eq_true rfl)]

/-- A namespace that has a prefix keeps one. -/
theorem prefixForNs_addXmlns (free : s.Free pre)
    (found : (s.prefixForNs ns isAttr).isSome = true) :
    ((s.addXmlns pre ns').prefixForNs ns isAttr).isSome = true := by
  have keeps : ∀ other, s.prefixMatchesNs other ns = true →
      (s.addXmlns pre ns').prefixMatchesNs other ns = true := by
    intro other matches_
    have bound := of_decide_eq_true matches_
    have different : other ≠ pre := by
      rintro rfl
      rw [free.unbound] at bound
      cases bound
    exact decide_eq_true ((nsForPrefix_addXmlns_ne different).trans bound)
  unfold prefixForNs at found ⊢
  split at found
  · next xml =>
    rw [if_pos xml]
    rfl
  next notXml =>
  split at found
  · next xmlns =>
    rw [if_neg notXml, if_pos xmlns]
    rfl
  next notXmlns =>
  rw [if_neg notXml, if_neg notXmlns]
  by_cases without : (if isAttr = true then decide (ns = "")
      else (s.addXmlns pre ns').prefixMatchesNs "" ns) = true
  · rw [if_pos without]
    rfl
  rw [if_neg without]
  have before : ¬ (if isAttr = true then decide (ns = "") else s.prefixMatchesNs "" ns) = true := by
    intro empty
    cases isAttr with
    | true => exact without empty
    | false => exact without (keeps "" empty)
  rw [if_neg before, Option.isSome_map, List.find?_isSome] at found
  obtain ⟨pos, listed, here⟩ := found
  simp only [Bool.and_eq_true] at here
  rw [Option.isSome_map, List.find?_isSome]
  refine ⟨pos, List.mem_cons_of_mem _ listed, ?_⟩
  simp only [Bool.and_eq_true]
  exact ⟨here.1, keeps _ here.2⟩

/-- A namespace has the prefix that has been declared for it. -/
theorem prefixForNs_addXmlns_self (free : s.Free pre) (ns : String) (isAttr : Bool) :
    ((s.addXmlns pre ns).prefixForNs ns isAttr).isSome = true := by
  unfold prefixForNs
  by_cases xml : ns = nsXml
  · rw [if_pos xml]
    rfl
  by_cases xmlns : ns = nsXmlns
  · rw [if_neg xml, if_pos xmlns]
    rfl
  rw [if_neg xml, if_neg xmlns]
  by_cases empty : (if isAttr = true then decide (ns = "")
      else (s.addXmlns pre ns).prefixMatchesNs "" ns) = true
  · rw [if_pos empty]
    rfl
  rw [if_neg empty, Option.isSome_map, List.find?_isSome]
  refine ⟨(pre, ns), List.mem_cons_self, ?_⟩
  simp only [Bool.and_eq_true, Bool.or_eq_true, decide_eq_true_eq]
  exact ⟨⟨trivial, .inr free.ne_empty⟩, decide_eq_true (nsForPrefix_addXmlns free.ordinary)⟩

/-- An attribute without a prefix is in no namespace, and a prefix stands for the namespace. -/
theorem prefixForNs_attr (found : s.prefixForNs ns true = some pre) :
    pre = "" ∧ ns = "" ∨ pre ≠ "" ∧ s.nsForPrefix pre = some ns := by
  unfold prefixForNs at found
  split at found
  · next xml =>
    cases found
    exact .inr ⟨by decide, by rw [xml]; rfl⟩
  split at found
  · next xmlns =>
    cases found
    exact .inr ⟨by decide, by rw [xmlns]; rfl⟩
  rw [if_pos rfl] at found
  split at found
  · next empty =>
    cases found
    exact .inl ⟨rfl, of_decide_eq_true empty⟩
  · obtain ⟨pos, here, rfl⟩ := Option.map_eq_some_iff.mp found
    have holds := List.find?_some here
    simp only [Bool.and_eq_true, Bool.not_true, Bool.false_or, decide_eq_true_eq] at holds
    exact .inr ⟨holds.1.2, of_decide_eq_true holds.2⟩

/-! ## Prefixes that are invented -/

def isLower (ch : Char) : Prop :=
  'a'.toNat ≤ ch.toNat ∧ ch.toNat ≤ 'z'.toNat

theorem isLower_toLower {ch : Char} (letter : isAsciiLetter ch = true) : isLower ch.toLower := by
  have upper : ∀ n : Fin 26, isLower (Char.ofNat (65 + n)).toLower := by
    unfold isLower
    decide
  have lower : ∀ n : Fin 26, isLower (Char.ofNat (97 + n)).toLower := by
    unfold isLower
    decide
  simp only [isAsciiLetter, Bool.or_eq_true, Bool.and_eq_true, decide_eq_true_eq] at letter
  rcases letter with ⟨low, high⟩ | ⟨low, high⟩
  · have low : 97 ≤ ch.toNat := low
    have high : ch.toNat ≤ 122 := high
    have here := lower ⟨ch.toNat - 97, by omega⟩
    rwa [show 97 + (ch.toNat - 97) = ch.toNat by omega, Char.ofNat_toNat] at here
  · have low : 65 ≤ ch.toNat := low
    have high : ch.toNat ≤ 90 := high
    have here := upper ⟨ch.toNat - 65, by omega⟩
    rwa [show 65 + (ch.toNat - 65) = ch.toNat by omega, Char.ofNat_toNat] at here

/-- A suggestion has letters, and is not reserved. -/
structure Suggestion (base : String) : Prop where
  ne_nil : base.toList ≠ []
  lower : ∀ ch ∈ base.toList, isLower ch
  ordinary : ¬ "xml".toList <+: base.toList

theorem suggestion_of_lower {candidate : List Char} (lower : ∀ ch ∈ candidate, isLower ch) :
    Suggestion
      (if candidate = [] ∨ "xml".toList.isPrefixOf candidate = true then "ns"
        else String.ofList candidate) := by
  split
  · have letters : "ns".toList = ['n', 's'] := rfl
    refine ⟨by rw [letters]; decide, fun ch listed => ?_, by rw [letters]; decide⟩
    rw [letters, List.mem_pair] at listed
    rcases listed with rfl | rfl
    · exact ⟨by decide, by decide⟩
    · exact ⟨by decide, by decide⟩
  · next other =>
    rw [not_or] at other
    have letters : (String.ofList candidate).toList = candidate := String.toList_ofList
    refine ⟨by rw [letters]; exact other.1, by rw [letters]; exact lower, ?_⟩
    rw [letters]
    exact fun leads => other.2 (List.isPrefixOf_iff_prefix.mpr leads)

theorem suggestPrefix_suggestion (ns : String) : Suggestion (suggestPrefix ns) := by
  unfold suggestPrefix
  dsimp only
  refine suggestion_of_lower fun ch lowered => ?_
  obtain ⟨letter, here, rfl⟩ := List.mem_map.mp lowered
  clear lowered
  refine isLower_toLower ?_
  generalize listed : List.takeWhile isAsciiLetter _ = letters at here
  have all : ∀ ch ∈ letters, isAsciiLetter ch = true := by
    intro ch here
    rw [← listed] at here
    exact List.mem_takeWhile_imp here
  split at here
  · exact all letter (List.mem_reverse.mp (List.mem_of_mem_take here))
  · exact all letter (List.mem_reverse.mp here)

theorem isNameStart_of_isLower {ch : Char} (lower : isLower ch) : isNameStart ch = true :=
  List.any_eq_true.mpr ⟨(0x61, 0x7A), by decide,
    Bool.and_eq_true_iff.mpr ⟨decide_eq_true lower.1, decide_eq_true lower.2⟩⟩

theorem isNameChar_of_isDigit {ch : Char} (digit : ch.isDigit = true) : isNameChar ch = true := by
  simp only [Char.isDigit, Bool.and_eq_true, decide_eq_true_eq] at digit
  refine Bool.or_eq_true_iff.mpr (.inr (List.any_eq_true.mpr ⟨(0x30, 0x39), by decide, ?_⟩))
  exact Bool.and_eq_true_iff.mpr ⟨decide_eq_true digit.1, decide_eq_true digit.2⟩

/-- A number behind a suggestion, or nothing. -/
structure Numbered (base pre : String) : Prop where
  digits : ∃ digits : List Char, pre.toList = base.toList ++ digits ∧
    ∀ ch ∈ digits, ch.isDigit = true

theorem numbered_self (base : String) : Numbered base base :=
  ⟨[], (List.append_nil _).symm, fun _ listed => absurd listed List.not_mem_nil⟩

theorem numbered_append (base : String) (i : Nat) : Numbered base (base ++ toString i) := by
  refine ⟨Nat.toDigits 10 i, ?_, fun ch listed =>
    Nat.isDigit_of_mem_toDigits (by decide) (by decide) listed⟩
  rw [String.toList_append]
  exact congrArg _ Nat.toList_repr

theorem Numbered.isNCName {base : String} (numbered : Numbered base pre)
    (suggestion : Suggestion base) : IsNCName pre := by
  obtain ⟨digits, whole, all⟩ := numbered.digits
  have letter : ∀ ch ∈ base.toList, isNameStart ch = true := fun ch listed =>
    isNameStart_of_isLower (suggestion.lower ch listed)
  rw [IsNCName, whole]
  constructor
  · cases listed : base.toList with
    | nil => exact absurd listed suggestion.ne_nil
    | cons first others =>
      rw [listed] at letter
      refine ⟨letter first List.mem_cons_self, fun ch here => ?_⟩
      rcases List.mem_append.mp here with name | digit
      · exact Bool.or_eq_true_iff.mpr (.inl (letter ch (List.mem_cons_of_mem _ name)))
      · exact isNameChar_of_isDigit (all ch digit)
  · rw [List.mem_append]
    rintro (name | digit)
    · exact absurd (suggestion.lower _ name) (by unfold isLower; decide)
    · exact absurd (all _ digit) (by decide)

theorem xmlLike_cases (like : isXmlLike pre = true) :
    ∃ x m l rest, pre.toList = x :: m :: l :: rest ∧ (x = 'x' ∨ x = 'X') ∧
      (m = 'm' ∨ m = 'M') ∧ (l = 'l' ∨ l = 'L') := by
  unfold isXmlLike at like
  split at like
  · next x m l rest whole =>
    simp only [Bool.and_eq_true, Bool.or_eq_true, decide_eq_true_eq] at like
    exact ⟨x, m, l, rest, whole, like.1.1, like.1.2, like.2⟩
  · cases like

theorem Numbered.ordinary {base : String} (numbered : Numbered base pre)
    (suggestion : Suggestion base) : isXmlLike pre = false := by
  obtain ⟨digits, whole, all⟩ := numbered.digits
  have lower := suggestion.lower
  have nonempty := suggestion.ne_nil
  have ordinary := suggestion.ordinary
  refine Bool.eq_false_iff.mpr fun like => ?_
  obtain ⟨x, m, l, rest, letters, isX, isM, isL⟩ := xmlLike_cases like
  rw [whole] at letters
  have noDigit : l ∉ digits := fun listed => by
    have digit := all l listed
    rcases isL with rfl | rfl
    · exact absurd digit (by decide)
    · exact absurd digit (by decide)
  have noUpper : ∀ {small big ch : Char}, ch = small ∨ ch = big → ¬ isLower big →
      ch ∈ base.toList → ch = small := fun either big listed =>
    either.resolve_right fun same => big (same ▸ lower _ listed)
  rcases h : base.toList with _ | ⟨first, _ | ⟨second, _ | ⟨third, others⟩⟩⟩
  · exact nonempty h
  · rw [h] at letters
    cases letters
    exact noDigit (by simp)
  · rw [h] at letters
    cases letters
    exact noDigit (by simp)
  · rw [h] at letters noUpper ordinary
    cases letters
    have bigs : ¬ isLower 'X' ∧ ¬ isLower 'M' ∧ ¬ isLower 'L' := by
      unfold isLower
      decide
    have sameX := noUpper isX bigs.1 (by simp)
    have sameM := noUpper isM bigs.2.1 (by simp)
    have sameL := noUpper isL bigs.2.2 (by simp)
    subst sameX sameM sameL
    exact ordinary ⟨others, rfl⟩

/-- What is bound and not reserved is listed. -/
theorem listed_of_nsForPrefix (ordinary : isXmlLike pre = false) (nonempty : pre ≠ "")
    (bound : (s.nsForPrefix pre).isSome = true) : pre ∈ s.xmlns.map Prod.fst := by
  unfold nsForPrefix at bound
  rw [if_neg (by rw [ordinary]; decide)] at bound
  split at bound
  · next found here =>
    have same := List.find?_some here
    simp only [decide_eq_true_eq] at same
    exact List.mem_map.mpr ⟨found, List.mem_of_find?_eq_some here, same⟩
  · rw [if_neg nonempty] at bound
    cases bound

/-- The prefix that is tried in a round. -/
def tried (base : String) : Nat → String
  | 0 => base
  | round + 1 => base ++ toString (round + 2)

theorem numbered_tried (base : String) (round : Nat) : Numbered base (tried base round) := by
  cases round with
  | zero => exact numbered_self base
  | succ round => exact numbered_append base _

theorem tried_injective (base : String) : Function.Injective (tried base) := by
  have number : ∀ {i j : Nat}, base ++ toString i = base ++ toString j → i = j := by
    intro i j same
    have chars := congrArg String.toList same
    rw [String.toList_append, String.toList_append] at chars
    exact Nat.repr_inj.mp (String.toList_inj.mp (List.append_cancel_left chars))
  have longer : ∀ {i : Nat}, base ≠ base ++ toString i := by
    intro i same
    have chars := congrArg String.toList same
    rw [String.toList_append] at chars
    have none := List.self_eq_append_right.mp chars
    rw [show (toString i).toList = Nat.toDigits 10 i from Nat.toList_repr] at none
    exact Nat.toDigits_ne_nil none
  intro first second same
  cases first with
  | zero =>
    cases second with
    | zero => rfl
    | succ second =>
      rw [tried, tried] at same
      exact absurd same longer
  | succ first =>
    cases second with
    | zero =>
      rw [tried, tried] at same
      exact absurd same.symm longer
    | succ second =>
      rw [tried, tried] at same
      have equal := number same
      omega

/-- The loop stops at a free prefix or goes all its rounds. -/
theorem freePrefix_tried (base : String) (fuel round : Nat) :
    ∃ later, s.freePrefix base fuel (round + 2) (tried base round) = tried base later ∧
      (s.nsForPrefix (tried base later) = none ∨
        ∀ k, round ≤ k → k < round + fuel → (s.nsForPrefix (tried base k)).isSome = true) := by
  induction fuel generalizing round with
  | zero => exact ⟨round, rfl, .inr fun k low high => absurd high (Nat.not_lt.mpr low)⟩
  | succ fuel ih =>
    unfold freePrefix
    split
    · next bound =>
      obtain ⟨later, here, free | all⟩ := ih (round + 1)
      all_goals rw [tried] at here
      · exact ⟨later, here, .inl free⟩
      · refine ⟨later, here, .inr fun k low high => ?_⟩
        rcases Nat.eq_or_lt_of_le low with rfl | above
        · exact bound
        · exact all k above (by omega)
    · next free =>
      exact ⟨round, rfl, .inl (Option.not_isSome_iff_eq_none.mp free)⟩

/-- There are not enough prefixes in scope for all the rounds. -/
theorem freePrefix_free {base : String} (suggestion : Suggestion base) :
    ∃ later, s.freePrefix base (s.xmlns.length + 1) 2 base = tried base later ∧
      s.nsForPrefix (tried base later) = none := by
  obtain ⟨later, here, free | all⟩ := s.freePrefix_tried base (s.xmlns.length + 1) 0
  · exact ⟨later, here, free⟩
  · have listed : (List.range (s.xmlns.length + 1)).map (tried base) ⊆ s.xmlns.map Prod.fst := by
      intro pre here
      obtain ⟨k, below, rfl⟩ := List.mem_map.mp here
      have numbered := numbered_tried base k
      have nonempty := (numbered.isNCName suggestion).ne_empty
      refine listed_of_nsForPrefix (numbered.ordinary suggestion) nonempty
        (all k (Nat.zero_le k) ?_)
      rw [List.mem_range] at below
      omega
    have distinct := List.Nodup.map (tried_injective base) (List.nodup_range (n := s.xmlns.length + 1))
    have fits := (distinct.subperm listed).length_le
    rw [List.length_map, List.length_map, List.length_range] at fits
    omega

/-- A new prefix is free, and a name. -/
theorem addNewPrefix_cases (s : XmlnsStack) (ns : String) (isAttr : Bool) :
    (s.prefixForNs ns isAttr).isSome = true ∧ s.addNewPrefix ns isAttr = (none, s) ∨
      (s.prefixForNs ns isAttr).isSome = false ∧
        ∃ pre, s.addNewPrefix ns isAttr = (some pre, s.addXmlns pre ns) ∧ s.Free pre ∧
          IsNCName pre := by
  unfold addNewPrefix
  cases found : (s.prefixForNs ns isAttr).isSome with
  | true => exact .inl ⟨rfl, if_pos rfl⟩
  | false =>
    have suggestion := suggestPrefix_suggestion ns
    obtain ⟨later, here, free⟩ := freePrefix_free (s := s) suggestion
    have numbered := numbered_tried (suggestPrefix ns) later
    refine .inr ⟨rfl, tried (suggestPrefix ns) later, ?_, ⟨free, numbered.ordinary suggestion⟩,
      numbered.isNCName suggestion⟩
    dsimp only
    rw [if_neg (by decide), here]

/-! ## Printed names -/

/-- The prefixes in scope are names. -/
def Named (s : XmlnsStack) : Prop :=
  ∀ pos ∈ s.xmlns, pos.1 = "" ∨ IsNCName pos.1

theorem Named.addXmlns (named : s.Named) (name : pre = "" ∨ IsNCName pre) (ns : String) :
    (s.addXmlns pre ns).Named := by
  intro pos listed
  rcases List.mem_cons.mp listed with rfl | older
  · exact name
  · exact named pos older

theorem Named.prefixForNs (named : s.Named) (found : s.prefixForNs ns isAttr = some pre) :
    pre = "" ∨ IsNCName pre := by
  unfold XmlnsStack.prefixForNs at found
  by_cases xml : ns = nsXml
  · rw [if_pos xml] at found
    cases found
    exact .inr (isNCName_of_all (by decide) (by decide) (by decide))
  by_cases xmlns : ns = nsXmlns
  · rw [if_neg xml, if_pos xmlns] at found
    cases found
    exact .inr (isNCName_of_all (by decide) (by decide) (by decide))
  rw [if_neg xml, if_neg xmlns] at found
  by_cases empty : (if isAttr = true then decide (ns = "") else s.prefixMatchesNs "" ns) = true
  · rw [if_pos empty] at found
    cases found
    exact .inl rfl
  · rw [if_neg empty] at found
    obtain ⟨pos, here, rfl⟩ := Option.map_eq_some_iff.mp found
    exact named pos (List.mem_of_find?_eq_some here)

variable {name name' : QName}

/-- A name is printed as its local part, or behind a prefix. -/
theorem formatQName_cases (named : s.Named) (name : QName) (isAttr : Bool) :
    (s.prefixForNs name.ns isAttr).getD "" = "" ∧
        (s.formatQName name isAttr).toList = name.localPart.toList ∨
      ∃ pre, s.prefixForNs name.ns isAttr = some pre ∧ IsNCName pre ∧
        (s.formatQName name isAttr).toList = pre.toList ++ ':' :: name.localPart.toList := by
  unfold formatQName
  dsimp only
  split
  · next empty => exact .inl ⟨empty, rfl⟩
  · next nonempty =>
    cases found : s.prefixForNs name.ns isAttr with
    | none =>
      rw [found] at nonempty
      exact absurd rfl nonempty
    | some pre =>
      rw [found] at nonempty
      refine .inr ⟨pre, rfl, (named.prefixForNs found).resolve_left nonempty, ?_⟩
      rw [Option.getD_some, String.toList_append, String.toList_append, List.append_assoc]
      rfl

theorem isName_formatQName (named : s.Named) (local_ : IsNCName name.localPart) (isAttr : Bool) :
    IsName (s.formatQName name isAttr).toList := by
  rcases formatQName_cases named name isAttr with ⟨-, printed⟩ | ⟨pre, -, ncName, printed⟩
  · rw [printed]
    exact local_.1
  · rw [printed]
    cases chars : pre.toList with
    | nil =>
      have name := ncName.1
      rw [chars] at name
      exact name.elim
    | cons first others =>
      have name := ncName.1
      rw [chars] at name
      refine ⟨name.1, fun ch listed => ?_⟩
      rcases List.mem_append.mp listed with here | later
      · exact name.2 ch here
      rcases List.mem_cons.mp later with rfl | later
      · decide
      · exact local_.1.chars ch later

/-- Attributes that are printed alike are of one name, where their namespaces have prefixes. -/
theorem formatQName_inj (named : s.Named) (local_ : IsNCName name.localPart)
    (local' : IsNCName name'.localPart) (found : (s.prefixForNs name.ns true).isSome = true)
    (found' : (s.prefixForNs name'.ns true).isSome = true)
    (same : s.formatQName name true = s.formatQName name' true) : name = name' := by
  obtain ⟨pre, found⟩ := Option.isSome_iff_exists.mp found
  obtain ⟨pre', found'⟩ := Option.isSome_iff_exists.mp found'
  have chars := congrArg String.toList same
  have meaning := prefixForNs_attr found
  have meaning' := prefixForNs_attr found'
  have whole : name.ns = name'.ns → name.localPart.toList = name'.localPart.toList → name = name' := by
    intro sameNs sameLocal
    obtain ⟨ns, localPart⟩ := name
    obtain ⟨ns', localPart'⟩ := name'
    exact congrArg₂ QName.mk sameNs (String.toList_inj.mp sameLocal)
  rcases formatQName_cases named name true with ⟨empty, printed⟩ | ⟨_, here, ncName, printed⟩
  · rw [found, Option.getD_some] at empty
    have sameNs := (meaning.resolve_right fun bound => bound.1 empty).2
    rcases formatQName_cases named name' true with ⟨empty', printed'⟩ | ⟨_, here', ncName', printed'⟩
    · rw [found', Option.getD_some] at empty'
      have sameNs' := (meaning'.resolve_right fun bound => bound.1 empty').2
      rw [printed, printed'] at chars
      exact whole (sameNs.trans sameNs'.symm) chars
    · rw [printed, printed'] at chars
      exact absurd (chars ▸ List.mem_append_right _ List.mem_cons_self) local_.2
  · rw [found] at here
    cases here
    rcases formatQName_cases named name' true with ⟨empty', printed'⟩ | ⟨_, here', ncName', printed'⟩
    · rw [printed, printed'] at chars
      exact absurd (chars ▸ List.mem_append_right _ List.mem_cons_self) local'.2
    · rw [found'] at here'
      cases here'
      rw [printed, printed'] at chars
      have split : splitBefore [':'] (pre.toList ++ ':' :: name.localPart.toList) =
          some (pre.toList, name.localPart.toList) := splitBefore_singleton ncName.2
      rw [chars, splitBefore_singleton ncName'.2] at split
      obtain ⟨samePre, sameLocal⟩ := Prod.mk.inj (Option.some.inj split)
      have samePre := String.toList_inj.mp samePre
      subst samePre
      have nonempty := ncName.ne_empty
      have bound := (meaning.resolve_left fun empty => nonempty empty.1).2
      have bound' := (meaning'.resolve_left fun empty => nonempty empty.1).2
      rw [bound] at bound'
      exact whole (Option.some.inj bound') sameLocal.symm

end XmlnsStack

end Libjingle.Xml
