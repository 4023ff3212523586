import Libjingle.Std.CString
import Libjingle.Strings.Tokenize
import Mathlib.Data.FinEnum

/-!
# JIDs

`talk/xmpp/jid.cc`: the parts of a JID, how they are prepared, and the text of a JID. A preparation
of a part gives nothing where the source reports it as invalid.
-/

namespace Libjingle.Xmpp

open Libjingle.Std Libjingle.Strings

structure Jid where
  nodeName : List UInt8
  domainName : List UInt8
  resourceName : List UInt8
  deriving DecidableEq, Repr

namespace Jid

/-! ## Preparation -/

/-- The control characters that the preparations look for. -/
def controlTable : List UInt8 :=
  (List.range 0x18).map UInt8.ofNat ++ [0x7F]

/-- The ASCII characters that a node may not have: control characters, space, and
`&`, `/`, `:`, `<`, `>`, `@`, and the two quotes. -/
def nodeTable : List UInt8 :=
  controlTable ++ [0x20, 0x26, 0x2F, 0x3A, 0x3C, 0x3E, 0x40, 0x22, 0x27]

/-- `PrepNodeAscii`, with the validity. -/
def prepNodeAscii (ch : UInt8) : UInt8 × Bool :=
  if 65 ≤ ch ∧ ch ≤ 90 then (ch + 32, true)
  else if ch ∈ nodeTable then (0, false)
  else (ch, true)

def prepNodeLoop (result : List UInt8) : List UInt8 → Option (List UInt8)
  | [] => some result
  | ch :: rest =>
      if ch ≤ 0x7F then
        if (prepNodeAscii ch).2 then prepNodeLoop (result ++ [(prepNodeAscii ch).1]) rest else none
      else prepNodeLoop (result ++ [CString.lower ch]) rest

/-- `PrepNode`. -/
def prepNode (node : List UInt8) : Option (List UInt8) := do
  let result ← prepNodeLoop [] node
  if 1023 < result.length then none else some result

/-- `PrepResourceAscii`, with the validity. -/
def prepResourceAscii (ch : UInt8) : UInt8 × Bool :=
  if ch ∈ controlTable then (0, false) else (ch, true)

/-- The validity of a character is not looked at. -/
def prepResourceLoop (result : List UInt8) : List UInt8 → List UInt8
  | [] => result
  | ch :: rest =>
      if ch ≤ 0x7F then prepResourceLoop (result ++ [(prepResourceAscii ch).1]) rest
      else prepResourceLoop (result ++ [ch]) rest

/-- `PrepResource`. -/
def prepResource (resource : List UInt8) : Option (List UInt8) :=
  let result := prepResourceLoop [] resource
  if 1023 < result.length then none else some result

/-- The ASCII characters that a label may not have. -/
def isLabelForbidden (ch : UInt8) : Bool :=
  ch ≤ 0x2C ∨ ch = 0x2E ∨ ch = 0x2F ∨ (0x3A ≤ ch ∧ ch ≤ 0x40) ∨
    (0x5B ≤ ch ∧ ch ≤ 0x60) ∨ (0x7B ≤ ch ∧ ch ≤ 0x7F)

/-- `PrepDomainLabelAscii`, with the validity. -/
def prepDomainLabelAscii (ch : UInt8) : UInt8 × Bool :=
  if 65 ≤ ch ∧ ch ≤ 90 then (ch + 32, true)
  else if isLabelForbidden ch then (0, false)
  else (ch, true)

def appendLabel (buf : List UInt8) : List UInt8 → List UInt8 × Bool
  | [] => (buf, true)
  | ch :: rest =>
      if ch ≤ 0x7F then
        if (prepDomainLabelAscii ch).2 then appendLabel (buf ++ [(prepDomainLabelAscii ch).1]) rest
        else (buf ++ [(prepDomainLabelAscii ch).1], false)
      else appendLabel (buf ++ [ch]) rest

/-- `PrepDomainLabel`: the buffer with the label, and the validity. -/
def prepDomainLabel (label buf : List UInt8) : List UInt8 × Bool :=
  let startLen := buf.length
  let (buf, valid) := appendLabel buf label
  let count := buf.length - startLen
  if ¬valid then (buf, false)
  else if count = 0 then (buf, false)
  else if 63 < count then (buf, false)
  else if buf[startLen]? = some 0x2D then (buf, false)
  else if buf[buf.length - 1]? = some 0x2D then (buf, false)
  else (buf, true)

/-- `PrepDomain` into a buffer, behind the characters of a label that have been passed. -/
def prepDomainLoop (label : List UInt8) : List UInt8 → List UInt8 → List UInt8 × Bool
  | [], buf => prepDomainLabel label buf
  | ch :: rest, buf =>
      if ch = 0x2E then
        let (buf, labelValid) := prepDomainLabel label buf
        let buf := buf ++ [0x2E]
        if labelValid then prepDomainLoop [] rest buf else (buf, false)
      else prepDomainLoop (label ++ [ch]) rest buf

/-- `PrepDomain`. A domain that is too long is emptied, and stays valid. -/
def prepDomain (domain : List UInt8) : Option (List UInt8) :=
  let (result, valid) := prepDomainLoop [] domain []
  if ¬valid then none
  else if 1023 < result.length then some []
  else some result

/-! ## JIDs -/

/-- `ValidateOrReset`. -/
def validateOrReset (j : Jid) : Jid :=
  match prepNode j.nodeName, prepDomain j.domainName, prepResource j.resourceName with
  | some nodeName, some domainName, some resourceName => { nodeName, domainName, resourceName }
  | _, _, _ => ⟨[], [], []⟩

/-- The JID of a string. -/
def ofString (jidString : List UInt8) : Jid :=
  if jidString = [] then ⟨[], [], []⟩
  else
    let slash := find jidString 0x2F 0
    let resourceName := (slash.map fun slash => jidString.drop (slash + 1)).getD []
    -- An at-sign behind the slash belongs to the resource.
    let atSign := (find jidString 0x40 0).filter (· < slash.getD jidString.length)
    let nodeName := (atSign.map jidString.take).getD []
    let domainBegin := (atSign.map (· + 1)).getD 0
    let domainLength := slash.getD jidString.length - domainBegin
    validateOrReset
      { nodeName, domainName := (jidString.drop domainBegin).take domainLength, resourceName }

/-- The JID of a node, a domain and a resource. -/
def ofParts (nodeName domainName resourceName : List UInt8) : Jid :=
  validateOrReset { nodeName, domainName, resourceName }

def isValid (j : Jid) : Bool := j.domainName ≠ []

def isFull (j : Jid) : Bool := j.isValid && decide (j.resourceName ≠ [])

def str (j : Jid) : List UInt8 :=
  if ¬j.isValid then []
  else
    (if j.nodeName ≠ [] then j.nodeName ++ [0x40] else []) ++ j.domainName ++
      (if j.resourceName ≠ [] then 0x2F :: j.resourceName else [])

def bareJid (j : Jid) : Jid :=
  if ¬j.isValid then ⟨[], [], []⟩
  else if ¬j.isFull then j
  else ofParts j.nodeName j.domainName []

def bareEquals (j other : Jid) : Bool :=
  other.nodeName = j.nodeName ∧ other.domainName = j.domainName

/-- `operator==`. -/
def equal (j other : Jid) : Bool :=
  other.nodeName = j.nodeName ∧ other.domainName = j.domainName ∧ other.resourceName = j.resourceName

/-- `compare` of strings, by the bytes and then by the length. -/
def compareText : List UInt8 → List UInt8 → Ordering
  | [], [] => .eq
  | [], _ :: _ => .lt
  | _ :: _, [] => .gt
  | a :: as, b :: bs => if a < b then .lt else if b < a then .gt else compareText as bs

/-- `Compare`. -/
def compare (j other : Jid) : Ordering :=
  match compareText j.nodeName other.nodeName with
  | .eq =>
      match compareText j.domainName other.domainName with
      | .eq => compareText j.resourceName other.resourceName
      | result => result
  | result => result

/-! ## Characters -/

/-- What becomes of a character of a node. -/
def nodeChar (ch : UInt8) : UInt8 :=
  if ch ≤ 0x7F then (prepNodeAscii ch).1 else CString.lower ch

def isNodeChar (ch : UInt8) : Bool :=
  0x7F < ch || (prepNodeAscii ch).2

def resourceChar (ch : UInt8) : UInt8 :=
  if ch ≤ 0x7F then (prepResourceAscii ch).1 else ch

def labelChar (ch : UInt8) : UInt8 :=
  if ch ≤ 0x7F then (prepDomainLabelAscii ch).1 else ch

def isLabelChar (ch : UInt8) : Bool :=
  0x7F < ch || (prepDomainLabelAscii ch).2

/-- What becomes of a character of a domain. -/
def domainChar (ch : UInt8) : UInt8 :=
  if ch = 0x2E then 0x2E else labelChar ch

theorem nodeChar_spec : ∀ ch : UInt8, isNodeChar ch = true → isNodeChar (nodeChar ch) = true ∧
    nodeChar (nodeChar ch) = nodeChar ch ∧ nodeChar ch ≠ 0x2F ∧ nodeChar ch ≠ 0x40 :=
  CString.forall_byte (by decide +kernel)

theorem resourceChar_resourceChar : ∀ ch : UInt8, resourceChar (resourceChar ch) = resourceChar ch :=
  CString.forall_byte (by decide +kernel)

theorem labelChar_spec : ∀ ch : UInt8, isLabelChar ch = true → isLabelChar (labelChar ch) = true ∧
    labelChar (labelChar ch) = labelChar ch ∧ (labelChar ch = 0x2D ↔ ch = 0x2D) ∧ ch ≠ 0x2E ∧
    labelChar ch ≠ 0x2E ∧ labelChar ch ≠ 0x2F ∧ labelChar ch ≠ 0x40 :=
  CString.forall_byte (by decide +kernel)

theorem prepNodeLoop_eq (result node : List UInt8) :
    prepNodeLoop result node =
      if ∀ ch ∈ node, isNodeChar ch = true then some (result ++ node.map nodeChar) else none := by
  induction node generalizing result with
  | nil => simp [prepNodeLoop]
  | cons ch rest ih =>
    rw [prepNodeLoop, ih, ih]
    simp only [List.forall_mem_cons, List.map_cons, List.append_assoc, List.singleton_append]
    by_cases ascii : ch ≤ 0x7F
    · have not_high : ¬0x7F < ch := UInt8.not_lt.mpr ascii
      by_cases valid : (prepNodeAscii ch).2 <;> simp [ascii, not_high, valid, isNodeChar, nodeChar]
    · have high : 0x7F < ch := UInt8.not_le.mp ascii
      simp [ascii, high, isNodeChar, nodeChar]

theorem prepNode_eq_some {node result : List UInt8} : prepNode node = some result ↔
    (∀ ch ∈ node, isNodeChar ch = true) ∧ node.length ≤ 1023 ∧ result = node.map nodeChar := by
  unfold prepNode
  rw [prepNodeLoop_eq]
  split
  · next valid =>
    simp only [List.nil_append, Option.bind_eq_bind, Option.bind_some, List.length_map]
    split
    · next long => simp [Nat.not_le.mpr long]
    · next short =>
      rw [Option.some.injEq, eq_comm]
      exact ⟨fun same => ⟨valid, Nat.not_lt.mp short, same⟩, fun both => both.2.2⟩
  · next invalid => simp [invalid]

theorem prepResourceLoop_eq (result resource : List UInt8) :
    prepResourceLoop result resource = result ++ resource.map resourceChar := by
  induction resource generalizing result with
  | nil => simp [prepResourceLoop]
  | cons ch rest ih =>
    rw [prepResourceLoop, ih, ih]
    split
    · next ascii => simp [resourceChar, ascii]
    · next high => simp [resourceChar, high]

theorem prepResource_eq_some {resource result : List UInt8} : prepResource resource = some result ↔
    resource.length ≤ 1023 ∧ result = resource.map resourceChar := by
  unfold prepResource
  rw [prepResourceLoop_eq, List.nil_append]
  dsimp only
  rw [List.length_map]
  split
  · next long => simp [Nat.not_le.mpr long]
  · next short =>
    rw [Option.some.injEq, eq_comm]
    exact ⟨fun same => ⟨Nat.not_lt.mp short, same⟩, And.right⟩

/-! ## Domains -/

/-- A label that is accepted. -/
structure Label (label : List UInt8) : Prop where
  positive : label ≠ []
  short : label.length ≤ 63
  chars : ∀ ch ∈ label, isLabelChar ch = true
  first : label.head? ≠ some 0x2D
  last : label.getLast? ≠ some 0x2D

/-- Labels with dots between them. -/
inductive Dotted : List UInt8 → Prop
  | one {label : List UInt8} (isLabel : Label label) : Dotted label
  | more {label rest : List UInt8} (isLabel : Label label) (dotted : Dotted rest) :
      Dotted (label ++ 0x2E :: rest)

theorem appendLabel_eq (buf label : List UInt8) :
    (∀ ch ∈ label, isLabelChar ch = true) ∧ appendLabel buf label = (buf ++ label.map labelChar, true) ∨
      ¬(∀ ch ∈ label, isLabelChar ch = true) ∧ (appendLabel buf label).2 = false := by
  induction label generalizing buf with
  | nil => simp [appendLabel]
  | cons ch rest ih =>
    rw [appendLabel]
    simp only [List.forall_mem_cons, List.map_cons]
    by_cases ascii : ch ≤ 0x7F
    · have not_high : ¬0x7F < ch := UInt8.not_lt.mpr ascii
      by_cases valid : (prepDomainLabelAscii ch).2
      · simpa [ascii, not_high, valid, isLabelChar, labelChar] using ih (buf ++ [labelChar ch])
      · simp [ascii, not_high, valid, isLabelChar]
    · have high : 0x7F < ch := UInt8.not_le.mp ascii
      simpa [ascii, high, isLabelChar, labelChar] using ih (buf ++ [labelChar ch])

theorem labelChar_eq_hyphen {label : List UInt8} (chars : ∀ ch ∈ label, isLabelChar ch = true)
    {ch : Option UInt8} (member : ∀ c ∈ ch, c ∈ label) :
    ch.map labelChar = some 0x2D ↔ ch = some 0x2D := by
  cases ch with
  | none => simp
  | some c => simpa using (labelChar_spec c (chars c (member c rfl))).2.2.1

/-- A label that is accepted is in the buffer, and others are not accepted. -/
theorem prepDomainLabel_eq (label buf : List UInt8) :
    Label label ∧ prepDomainLabel label buf = (buf ++ label.map labelChar, true) ∨
      ¬Label label ∧ (prepDomainLabel label buf).2 = false := by
  obtain ⟨chars, appended⟩ | ⟨bad, appended⟩ := appendLabel_eq buf label
  · have count : (buf ++ label.map labelChar).length - buf.length = label.length := by simp
    unfold prepDomainLabel
    simp only [appended, count, not_true_eq_false, if_false]
    split
    · next empty => exact .inr ⟨fun isLabel => isLabel.positive (List.length_eq_zero_iff.mp empty), rfl⟩
    · next some_chars =>
      split
      · next long => exact .inr ⟨fun isLabel => absurd isLabel.short (Nat.not_le.mpr long), rfl⟩
      · next short =>
        have front : (buf ++ label.map labelChar)[buf.length]? = some 0x2D ↔ label.head? = some 0x2D := by
          rw [List.getElem?_append_right (le_refl _), Nat.sub_self, ← List.head?_eq_getElem?,
            List.head?_map]
          exact labelChar_eq_hyphen chars fun c isHead => List.mem_of_head? isHead
        have back : (buf ++ label.map labelChar)[(buf ++ label.map labelChar).length - 1]? = some 0x2D ↔
            label.getLast? = some 0x2D := by
          rw [← List.getLast?_eq_getElem?, List.getLast?_append_of_ne_nil _ (by
            simpa using List.ne_nil_of_length_pos (Nat.pos_of_ne_zero some_chars)), List.getLast?_map]
          exact labelChar_eq_hyphen chars fun c isLast => List.mem_of_getLast? isLast
        split
        · next first => exact .inr ⟨fun isLabel => isLabel.first (front.mp first), rfl⟩
        · next first =>
          split
          · next last => exact .inr ⟨fun isLabel => isLabel.last (back.mp last), rfl⟩
          · next last =>
            exact .inl ⟨⟨List.ne_nil_of_length_pos (Nat.pos_of_ne_zero some_chars), Nat.not_lt.mp short,
              chars, mt front.mpr first, mt back.mpr last⟩, rfl⟩
  · refine .inr ⟨fun isLabel => bad isLabel.chars, ?_⟩
    unfold prepDomainLabel
    simp [appended]

theorem Label.dotless {label : List UInt8} (isLabel : Label label) : 0x2E ∉ label := fun member =>
  (labelChar_spec _ (isLabel.chars _ member)).2.2.2.1 rfl

theorem map_domainChar {label : List UInt8} (dotless : 0x2E ∉ label) :
    label.map domainChar = label.map labelChar := by
  refine List.map_congr_left fun ch member => if_neg fun dot => ?_
  exact dotless (dot ▸ member)

theorem Dotted.of_dotless {label : List UInt8} (dotless : 0x2E ∉ label) (dotted : Dotted label) :
    Label label := by
  cases dotted with
  | one isLabel => exact isLabel
  | more isLabel dotted => simp at dotless

theorem Dotted.split {label rest : List UInt8} (dotless : 0x2E ∉ label)
    (dotted : Dotted (label ++ 0x2E :: rest)) : Label label ∧ Dotted rest := by
  generalize whole : label ++ 0x2E :: rest = domain at dotted
  cases dotted with
  | one isLabel => exact absurd (whole ▸ by simp) isLabel.dotless
  | @more label' rest' isLabel dotted =>
    have here := @cut_append 0x2E label rest dotless
    rw [whole, cut_append rest' isLabel.dotless] at here
    cases here
    exact ⟨isLabel, dotted⟩

/-- A domain is accepted if labels with dots between them make it up. -/
theorem prepDomainLoop_eq {label : List UInt8} (dotless : 0x2E ∉ label) (rest buf : List UInt8) :
    Dotted (label ++ rest) ∧ prepDomainLoop label rest buf = (buf ++ (label ++ rest).map domainChar, true) ∨
      ¬Dotted (label ++ rest) ∧ (prepDomainLoop label rest buf).2 = false := by
  induction rest generalizing label buf with
  | nil =>
    rw [List.append_nil, map_domainChar dotless, prepDomainLoop]
    obtain ⟨isLabel, made⟩ | ⟨bad, made⟩ := prepDomainLabel_eq label buf
    · exact .inl ⟨.one isLabel, made⟩
    · exact .inr ⟨fun dotted => bad (dotted.of_dotless dotless), made⟩
  | cons ch rest ih =>
    rw [prepDomainLoop]
    split
    · next dot =>
      subst dot
      obtain ⟨isLabel, made⟩ | ⟨bad, made⟩ := prepDomainLabel_eq label buf
      · simp only [made, if_true]
        obtain ⟨dotted, made⟩ | ⟨bad, made⟩ := @ih [] List.not_mem_nil
          (buf ++ label.map labelChar ++ [0x2E])
        · refine .inl ⟨.more isLabel dotted, ?_⟩
          rw [made, List.nil_append, List.map_append, List.map_cons, map_domainChar dotless]
          simp [domainChar]
        · exact .inr ⟨fun dotted => bad (dotted.split dotless).2, made⟩
      · refine .inr ⟨fun dotted => bad (dotted.split dotless).1, ?_⟩
        simp [made]
    · next other =>
      have still : 0x2E ∉ label ++ [ch] := by
        simpa [dotless] using fun same => other same.symm
      simpa using ih still buf

theorem prepDomain_eq_some {domain result : List UInt8} : prepDomain domain = some result ↔
    Dotted domain ∧ result = if 1023 < domain.length then [] else domain.map domainChar := by
  unfold prepDomain
  obtain ⟨dotted, made⟩ | ⟨bad, made⟩ := @prepDomainLoop_eq [] List.not_mem_nil domain []
  · rw [List.nil_append] at dotted
    simp only [made, List.nil_append, not_true_eq_false, if_false, List.length_map]
    split <;> simp [dotted, eq_comm]
  · rw [List.nil_append] at bad
    simp [made, bad]

/-! ## Prepared JIDs -/

/-- The parts are as a preparation leaves them, and apart from the delimiters of the text. -/
structure Prepared (j : Jid) : Prop where
  node : prepNode j.nodeName = some j.nodeName
  domain : prepDomain j.domainName = some j.domainName
  resource : prepResource j.resourceName = some j.resourceName
  nodeApart : 0x2F ∉ j.nodeName ∧ 0x40 ∉ j.nodeName
  domainApart : 0x2F ∉ j.domainName ∧ 0x40 ∉ j.domainName
  positive : j.domainName ≠ []

theorem map_idem {f : UInt8 → UInt8} {text : List UInt8} (idem : ∀ ch ∈ text, f (f ch) = f ch) :
    (text.map f).map f = text.map f := by
  rw [List.map_map]
  exact List.map_congr_left idem

theorem prepNode_prepared {node result : List UInt8} (prepared : prepNode node = some result) :
    prepNode result = some result ∧ 0x2F ∉ result ∧ 0x40 ∉ result := by
  obtain ⟨chars, short, rfl⟩ := prepNode_eq_some.mp prepared
  refine ⟨prepNode_eq_some.mpr ⟨?_, by rwa [List.length_map],
    (map_idem fun ch member => (nodeChar_spec ch (chars ch member)).2.1).symm⟩, ?_, ?_⟩
  · intro c isIn
    obtain ⟨ch, member, rfl⟩ := List.mem_map.mp isIn
    exact (nodeChar_spec ch (chars ch member)).1
  · intro member
    obtain ⟨ch, member, same⟩ := List.mem_map.mp member
    exact (nodeChar_spec ch (chars ch member)).2.2.1 same
  · intro member
    obtain ⟨ch, member, same⟩ := List.mem_map.mp member
    exact (nodeChar_spec ch (chars ch member)).2.2.2 same

theorem prepResource_prepared {resource result : List UInt8}
    (prepared : prepResource resource = some result) : prepResource result = some result := by
  obtain ⟨short, rfl⟩ := prepResource_eq_some.mp prepared
  exact prepResource_eq_some.mpr ⟨by rwa [List.length_map],
    (map_idem fun ch _ => resourceChar_resourceChar ch).symm⟩

theorem Label.map {label : List UInt8} (isLabel : Label label) : Label (label.map labelChar) := by
  obtain ⟨positive, short, chars, first, last⟩ := isLabel
  refine ⟨by simpa using positive, by rwa [List.length_map], ?_, ?_, ?_⟩
  · intro c isIn
    obtain ⟨ch, member, rfl⟩ := List.mem_map.mp isIn
    exact (labelChar_spec ch (chars ch member)).1
  · rw [List.head?_map, Ne, labelChar_eq_hyphen chars fun c isHead => List.mem_of_head? isHead]
    exact first
  · rw [List.getLast?_map, Ne, labelChar_eq_hyphen chars fun c isLast => List.mem_of_getLast? isLast]
    exact last

theorem Dotted.map {domain : List UInt8} (dotted : Dotted domain) : Dotted (domain.map domainChar) := by
  induction dotted with
  | one isLabel =>
    rw [map_domainChar isLabel.dotless]
    exact .one isLabel.map
  | more isLabel dotted ih =>
    rw [List.map_append, List.map_cons, map_domainChar isLabel.dotless]
    exact .more isLabel.map ih

/-- Every character of a domain is a dot or one of a label. -/
theorem Dotted.chars {domain : List UInt8} (dotted : Dotted domain) :
    ∀ ch ∈ domain, ch = 0x2E ∨ isLabelChar ch = true := by
  induction dotted with
  | one isLabel => exact fun ch member => .inr (isLabel.chars ch member)
  | more isLabel dotted ih =>
    intro ch member
    rw [List.mem_append, List.mem_cons] at member
    obtain member | rfl | member := member
    · exact .inr (isLabel.chars ch member)
    · exact .inl rfl
    · exact ih ch member

theorem domainChar_spec {ch : UInt8} (isChar : ch = 0x2E ∨ isLabelChar ch = true) :
    domainChar (domainChar ch) = domainChar ch ∧ domainChar ch ≠ 0x2F ∧ domainChar ch ≠ 0x40 := by
  obtain rfl | isLabel := isChar
  · decide
  · obtain ⟨-, idem, -, noDot, stillNoDot, noSlash, noAt⟩ := labelChar_spec ch isLabel
    have here : domainChar ch = labelChar ch := if_neg noDot
    have again : domainChar (labelChar ch) = labelChar (labelChar ch) := if_neg stillNoDot
    rw [here, again]
    exact ⟨idem, noSlash, noAt⟩

theorem prepDomain_prepared {domain result : List UInt8} (prepared : prepDomain domain = some result)
    (positive : result ≠ []) : prepDomain result = some result ∧ 0x2F ∉ result ∧ 0x40 ∉ result := by
  obtain ⟨dotted, made⟩ := prepDomain_eq_some.mp prepared
  split at made
  · exact absurd made positive
  · next short =>
    have chars := dotted.chars
    subst made
    refine ⟨prepDomain_eq_some.mpr ⟨dotted.map, ?_⟩, ?_, ?_⟩
    · rw [List.length_map, if_neg short,
        map_idem fun ch member => (domainChar_spec (chars ch member)).1]
    · intro member
      obtain ⟨ch, member, same⟩ := List.mem_map.mp member
      exact (domainChar_spec (chars ch member)).2.1 same
    · intro member
      obtain ⟨ch, member, same⟩ := List.mem_map.mp member
      exact (domainChar_spec (chars ch member)).2.2 same

theorem Prepared.of_valid {j : Jid} (valid : j.validateOrReset.isValid = true) :
    Prepared j.validateOrReset := by
  have positive : j.validateOrReset.domainName ≠ [] := of_decide_eq_true valid
  unfold validateOrReset at positive ⊢
  split
  · next node domain resource isNode isDomain isResource =>
    rw [isNode, isDomain, isResource] at positive
    have preparedNode := prepNode_prepared isNode
    have preparedDomain := prepDomain_prepared isDomain positive
    exact ⟨preparedNode.1, preparedDomain.1, prepResource_prepared isResource, preparedNode.2,
      preparedDomain.2, positive⟩
  · next others =>
    split at positive
    · next node domain resource isNode isDomain isResource =>
      exact absurd isResource (others node domain resource isNode isDomain)
    · exact absurd rfl positive

theorem Prepared.validateOrReset {j : Jid} (prepared : Prepared j) : j.validateOrReset = j := by
  unfold Jid.validateOrReset
  rw [prepared.node, prepared.domain, prepared.resource]

theorem Prepared.isValid {j : Jid} (prepared : Prepared j) : j.isValid = true :=
  decide_eq_true prepared.positive

/-! ## Texts -/

theorem cut_absent {mark : UInt8} {text : List UInt8} (absent : mark ∉ text) : cut mark text = none := by
  cases found : cut mark text with
  | none => rfl
  | some parts =>
    obtain ⟨before, behind⟩ := parts
    have whole := (cut_spec found).1
    exact absurd (whole ▸ List.mem_append_right before List.mem_cons_self) absent

theorem find_append {mark : UInt8} {before : List UInt8} (absent : mark ∉ before) (behind : List UInt8) :
    find (before ++ mark :: behind) mark 0 = some before.length := by
  rw [find_eq_cut, List.drop_zero, cut_append behind absent, Option.map_some, Nat.zero_add]

theorem find_absent {mark : UInt8} {text : List UInt8} (absent : mark ∉ text) : find text mark 0 = none := by
  rw [find_eq_cut, List.drop_zero, cut_absent absent, Option.map_none]

/-- A mark is not found where a text starts without it. -/
theorem length_le_find {mark : UInt8} {before behind : List UInt8} {pos : Nat} (absent : mark ∉ before)
    (found : find (before ++ behind) mark 0 = some pos) : before.length ≤ pos := by
  rw [find_eq_cut, List.drop_zero] at found
  obtain ⟨⟨front, back⟩, isCut, rfl⟩ := Option.map_eq_some_iff.mp found
  obtain ⟨whole, -⟩ := cut_spec isCut
  by_contra shorter
  have inside : mark ∈ before := by
    have here := congrArg (fun text : List UInt8 => text[front.length]?) whole
    simp only [List.getElem?_append_right (le_refl _), Nat.sub_self, List.getElem?_cons_zero] at here
    rw [List.getElem?_append_left (by simp only [Nat.zero_add, not_le] at shorter; exact shorter)] at here
    exact List.mem_of_getElem? here
  exact absent inside

/-- The text of a JID is taken apart into its parts. -/
theorem ofString_text {node domain resource : List UInt8} (nodeApart : 0x2F ∉ node ∧ 0x40 ∉ node)
    (domainApart : 0x2F ∉ domain ∧ 0x40 ∉ domain) (positive : domain ≠ []) :
    ofString ((if node ≠ [] then node ++ [0x40] else []) ++ domain ++
        (if resource ≠ [] then 0x2F :: resource else [])) =
      validateOrReset ⟨node, domain, resource⟩ := by
  generalize isFront : (if node ≠ [] then node ++ [0x40] else []) ++ domain = front
  generalize isTail : (if resource ≠ [] then 0x2F :: resource else []) = tail
  have noSlash : 0x2F ∉ front := by
    rw [← isFront]
    split <;> simp [nodeApart, domainApart]
  have some_text : front ++ tail ≠ [] := by
    rw [← isFront]
    simp [positive]
  -- Where the domain ends, and the resource.
  obtain ⟨slash, isSlash, ends, isResource⟩ : ∃ slash, find (front ++ tail) 0x2F 0 = slash ∧
      slash.getD (front ++ tail).length = front.length ∧
      (slash.map fun slash => (front ++ tail).drop (slash + 1)).getD [] = resource := by
    refine ⟨_, rfl, ?_⟩
    by_cases full : resource = []
    · rw [if_neg (not_not.mpr full)] at isTail
      rw [← isTail, List.append_nil, find_absent noSlash]
      exact ⟨rfl, full.symm⟩
    · rw [if_pos full] at isTail
      rw [← isTail, find_append noSlash]
      exact ⟨rfl, drop_of_parts rfl⟩
  -- Where the domain starts, and the node.
  obtain ⟨atSign, isAt, isNode, isDomain⟩ : ∃ atSign,
      (find (front ++ tail) 0x40 0).filter (· < front.length) = atSign ∧
      (atSign.map (front ++ tail).take).getD [] = node ∧
      ((front ++ tail).drop ((atSign.map (· + 1)).getD 0)).take
        (front.length - (atSign.map (· + 1)).getD 0) = domain := by
    refine ⟨_, rfl, ?_⟩
    by_cases isNode : node = []
    · rw [if_neg (not_not.mpr isNode), List.nil_append] at isFront
      subst isFront
      have behind : (find (domain ++ tail) 0x40 0).filter (· < domain.length) = none := by
        rw [Option.filter_eq_none_iff]
        intro pos found
        simpa using length_le_find domainApart.2 found
      rw [behind]
      exact ⟨isNode.symm, by simp⟩
    · rw [if_pos isNode] at isFront
      have whole : front ++ tail = node ++ 0x40 :: (domain ++ tail) := by
        rw [← isFront]
        simp
      have long : front.length = node.length + 1 + domain.length := by
        rw [← isFront, List.length_append, List.length_append, List.length_singleton]
      have found : (find (front ++ tail) 0x40 0).filter (· < front.length) = some node.length := by
        rw [whole, find_append nodeApart.2, Option.filter_some, if_pos (decide_eq_true (by omega))]
      rw [found, whole, long]
      simp only [Option.map_some, Option.getD_some]
      rw [drop_of_parts rfl, List.take_left, Nat.add_sub_cancel_left, List.take_left]
      exact ⟨rfl, rfl⟩
  unfold ofString
  rw [if_neg some_text]
  simp only [isSlash, ends, isAt, isResource, isNode, isDomain]

theorem Prepared.ofString_str {j : Jid} (prepared : Prepared j) : ofString j.str = j := by
  rw [str, if_neg (not_not.mpr prepared.isValid),
    ofString_text prepared.nodeApart prepared.domainApart prepared.positive]
  exact prepared.validateOrReset

theorem Prepared.ofParts {j : Jid} (prepared : Prepared j) :
    Jid.ofParts j.nodeName j.domainName j.resourceName = j :=
  prepared.validateOrReset

/-- A bare JID has the node and the domain. -/
theorem Prepared.bareJid {j : Jid} (prepared : Prepared j) :
    j.bareJid = ⟨j.nodeName, j.domainName, []⟩ := by
  have noResource : prepResource [] = some [] := by decide
  have bare : Prepared ⟨j.nodeName, j.domainName, []⟩ :=
    ⟨prepared.node, prepared.domain, noResource, prepared.nodeApart, prepared.domainApart,
      prepared.positive⟩
  rw [Jid.bareJid, if_neg (not_not.mpr prepared.isValid), isFull, prepared.isValid, Bool.true_and]
  split
  · next notFull =>
    have empty : j.resourceName = [] := by simpa using notFull
    rw [← empty]
  · exact bare.ofParts

/-! ## The order -/

theorem compareText_eq_compareLex : compareText = List.compareLex Ord.compare := by
  funext a b
  induction a generalizing b with
  | nil => cases b <;> rfl
  | cons x a ih =>
    cases b with
    | nil => rfl
    | cons y b =>
      rw [compareText, List.compareLex_cons_cons, ih, show Ord.compare x y = compareOfLessAndEq x y from rfl,
        compareOfLessAndEq]
      by_cases less : x < y
      · simp [less]
      · by_cases equal : x = y
        · simp [equal, UInt8.lt_irrefl]
        · have more : y < x := UInt8.lt_of_le_of_ne (UInt8.not_lt.mp less) (Ne.symm equal)
          simp [less, equal, more]

instance transCmp_compareText : Std.TransCmp compareText := by
  rw [compareText_eq_compareLex]
  infer_instance

instance lawfulEqCmp_compareText : Std.LawfulEqCmp compareText := by
  rw [compareText_eq_compareLex]
  infer_instance

/-- JIDs are compared by their nodes, then by their domains, then by their resources. -/
theorem compare_eq : compare = compareLex (fun a b => compareText a.nodeName b.nodeName)
    (compareLex (fun a b => compareText a.domainName b.domainName)
      fun a b => compareText a.resourceName b.resourceName) := by
  funext a b
  simp only [compare, compareLex]
  cases compareText a.nodeName b.nodeName <;> cases compareText a.domainName b.domainName <;> rfl

theorem transCmp_on {α β : Type} (f : α → β) {cmp : β → β → Ordering} [Std.TransCmp cmp] :
    Std.TransCmp fun a b => cmp (f a) (f b) where
  eq_swap := Std.OrientedCmp.eq_swap
  isLE_trans := Std.TransCmp.isLE_trans

instance transCmp_compare : Std.TransCmp compare := by
  have node := @transCmp_on _ _ Jid.nodeName compareText _
  have domain := @transCmp_on _ _ Jid.domainName compareText _
  have resource := @transCmp_on _ _ Jid.resourceName compareText _
  rw [compare_eq]
  infer_instance

theorem equal_iff (a b : Jid) : a.equal b = true ↔ a = b := by
  obtain ⟨an, ad, ar⟩ := a
  obtain ⟨bn, bd, br⟩ := b
  simp only [equal, decide_eq_true_eq, mk.injEq]
  constructor <;> rintro ⟨node, domain, resource⟩ <;> exact ⟨node.symm, domain.symm, resource.symm⟩

theorem compare_eq_eq (a b : Jid) : compare a b = .eq ↔ a.equal b = true := by
  rw [equal_iff, compare_eq, compareLex_eq_eq, compareLex_eq_eq, Std.LawfulEqCmp.compare_eq_iff_eq,
    Std.LawfulEqCmp.compare_eq_iff_eq, Std.LawfulEqCmp.compare_eq_iff_eq]
  obtain ⟨an, ad, ar⟩ := a
  obtain ⟨bn, bd, br⟩ := b
  simp

/-! ## JIDs that programs have -/

/-- A valid JID, of a string or of its parts. -/
def Made (j : Jid) : Prop :=
  j.isValid = true ∧
    ((∃ text, j = ofString text) ∨ ∃ node domain resource, j = ofParts node domain resource)

theorem Made.prepared {j : Jid} (made : Made j) : Prepared j := by
  obtain ⟨valid, ⟨text, rfl⟩ | ⟨node, domain, resource, rfl⟩⟩ := made
  · unfold ofString at valid ⊢
    split
    · next empty =>
      rw [if_pos empty] at valid
      cases valid
    · next some_text =>
      rw [if_neg some_text] at valid
      exact .of_valid valid
  · exact .of_valid valid

/-- A valid JID is the JID of its text and of its parts. JIDs are totally ordered by `Compare`, and two
valid ones have the same bare JID where `BareEquals` says so. -/
theorem text_roundTrip :
    (∀ j, Made j → (ofString j.str).equal j = true ∧
      (ofParts j.nodeName j.domainName j.resourceName).equal j = true) ∧
    (∀ a b, compare a b = .eq ↔ a.equal b = true) ∧ (∀ a b, compare b a = (compare a b).swap) ∧
    (∀ a b c, compare a b = .lt → compare b c = .lt → compare a c = .lt) ∧
    ∀ a b, Made a → Made b → (a.bareEquals b = true ↔ a.bareJid.equal b.bareJid = true) := by
  refine ⟨fun j made => ?_, compare_eq_eq, fun a b => Std.OrientedCmp.eq_swap, fun a b c => ?_,
    fun a b madeA madeB => ?_⟩
  · have prepared := made.prepared
    rw [equal_iff, equal_iff]
    exact ⟨prepared.ofString_str, prepared.ofParts⟩
  · exact Std.TransCmp.lt_trans
  · rw [equal_iff, madeA.prepared.bareJid, madeB.prepared.bareJid]
    simp only [bareEquals, decide_eq_true_eq, mk.injEq, and_true]
    constructor <;> rintro ⟨node, domain⟩ <;> exact ⟨node.symm, domain.symm⟩

/-- `a@b/c@d/e` has a resource with both delimiters. -/
theorem text_roundTrip_delimiters :
    (ofString (ofString (CString.ofString "a@b/c@d/e")).str).equal (ofString (CString.ofString "a@b/c@d/e")) =
      true :=
  (text_roundTrip.1 _ ⟨by decide +kernel, .inl ⟨_, rfl⟩⟩).1

end Jid

end Libjingle.Xmpp
