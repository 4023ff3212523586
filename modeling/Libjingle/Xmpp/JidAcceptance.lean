import Libjingle.Xmpp.Jid
import Mathlib.Algebra.Order.Ring.Nat

/-!
# Which parts make a JID

What a node, a domain and a resource of ASCII characters have to be, and for which of them
`talk/xmpp/jid.cc` sees to it. The tables of control characters end at 0x17, the result of the test of
the characters of a resource is not used, and the length of a domain is tested after the domain has
been reported as valid.
-/

namespace Libjingle.Xmpp.Jid

/-! ## What is acceptable -/

def IsControl (ch : UInt8) : Prop :=
  ch ≤ 0x1F ∨ ch = 0x7F

/-- A character of a node: no control character, space, or one of `&`, `'`, `/`, `:`, `<`, `>`, `@`
and the double quote. -/
def IsNodeText (ch : UInt8) : Prop :=
  ¬IsControl ch ∧ ch ∉ [0x20, 0x26, 0x27, 0x2F, 0x3A, 0x3C, 0x3E, 0x40, 0x22]

/-- Letters, digits and hyphens. -/
def IsLabelText (ch : UInt8) : Prop :=
  (0x41 ≤ ch ∧ ch ≤ 0x5A) ∨ (0x61 ≤ ch ∧ ch ≤ 0x7A) ∨ (0x30 ≤ ch ∧ ch ≤ 0x39) ∨ ch = 0x2D

structure LegalLabel (label : List UInt8) : Prop where
  positive : 1 ≤ label.length
  short : label.length ≤ 63
  chars : ∀ ch ∈ label, IsLabelText ch
  first : label.head? ≠ some 0x2D
  last : label.getLast? ≠ some 0x2D

/-- Labels with dots between them. -/
def LegalDomain (domain : List UInt8) : Prop :=
  ∃ labels : List (List UInt8), labels ≠ [] ∧ domain = [0x2E].intercalate labels ∧
    ∀ label ∈ labels, LegalLabel label

structure Acceptable (node domain resource : List UInt8) : Prop where
  node : node.length ≤ 1023 ∧ ∀ ch ∈ node, IsNodeText ch
  resource : resource.length ≤ 1023 ∧ ∀ ch ∈ resource, ¬IsControl ch
  domain : domain.length ≤ 1023 ∧ LegalDomain domain

/-- The JID of the parts is valid if they are acceptable, and is empty if it is not valid. -/
def AcceptsExactly (node domain resource : List UInt8) : Prop :=
  ((ofParts node domain resource).isValid = true ↔ Acceptable node domain resource) ∧
    ((ofParts node domain resource).isValid = false → ofParts node domain resource = ⟨[], [], []⟩)

/-- Where nothing is tested that would reject the parts, what should reject them is not there. -/
def Tested (node domain resource : List UInt8) : Prop :=
  node.length ≤ 1023 → (∀ ch ∈ node, ch ∉ nodeTable) → resource.length ≤ 1023 → LegalDomain domain →
    if domain.length ≤ 1023 then
      (∀ ch ∈ node, ¬(0x18 ≤ ch ∧ ch ≤ 0x1F)) ∧ ∀ ch ∈ resource, ¬IsControl ch
    else node = [] ∧ resource = []

/-! ## ASCII characters -/

instance decidableIsControl (ch : UInt8) : Decidable (IsControl ch) :=
  inferInstanceAs (Decidable (_ ∨ _))

instance decidableIsNodeText (ch : UInt8) : Decidable (IsNodeText ch) :=
  inferInstanceAs (Decidable (_ ∧ _))

instance decidableIsLabelText (ch : UInt8) : Decidable (IsLabelText ch) :=
  inferInstanceAs (Decidable (_ ∨ _))

theorem isNodeChar_iff : ∀ ch : UInt8, ch ≤ 0x7F → (isNodeChar ch = true ↔ ch ∉ nodeTable) :=
  Std.CString.forall_byte (by decide +kernel)

theorem isNodeText_iff : ∀ ch : UInt8, IsNodeText ch ↔ ch ∉ nodeTable ∧ ¬(0x18 ≤ ch ∧ ch ≤ 0x1F) :=
  Std.CString.forall_byte (by decide +kernel)

theorem isLabelChar_iff : ∀ ch : UInt8, ch ≤ 0x7F → (isLabelChar ch = true ↔ IsLabelText ch) :=
  Std.CString.forall_byte (by decide +kernel)

theorem label_iff {label : List UInt8} (ascii : ∀ ch ∈ label, ch ≤ 0x7F) :
    Label label ↔ LegalLabel label := by
  constructor
  · rintro ⟨positive, short, chars, first, last⟩
    exact ⟨List.length_pos_iff.mpr positive, short,
      fun ch member => (isLabelChar_iff ch (ascii ch member)).mp (chars ch member), first, last⟩
  · rintro ⟨positive, short, chars, first, last⟩
    exact ⟨List.length_pos_iff.mp positive, short,
      fun ch member => (isLabelChar_iff ch (ascii ch member)).mpr (chars ch member), first, last⟩

theorem intercalate_cons_cons (label next : List UInt8) (labels : List (List UInt8)) :
    [0x2E].intercalate (label :: next :: labels) = label ++ 0x2E :: [0x2E].intercalate (next :: labels) := by
  simp [List.intercalate]

theorem dotted_iff {domain : List UInt8} (ascii : ∀ ch ∈ domain, ch ≤ 0x7F) :
    Dotted domain ↔ LegalDomain domain := by
  constructor
  · intro dotted
    induction dotted with
    | @one label isLabel =>
      refine ⟨[label], List.cons_ne_nil _ _, by simp [List.intercalate], fun other member => ?_⟩
      rw [List.mem_singleton.mp member]
      exact (label_iff ascii).mp isLabel
    | @more label rest isLabel dotted ih =>
      obtain ⟨labels, some_labels, isRest, legal⟩ := ih fun ch member => ascii ch (by simp [member])
      obtain ⟨next, labels, rfl⟩ := List.exists_cons_of_ne_nil some_labels
      refine ⟨label :: next :: labels, List.cons_ne_nil _ _, ?_, fun other member => ?_⟩
      · rw [intercalate_cons_cons, isRest]
      · obtain rfl | member := List.mem_cons.mp member
        · exact (label_iff fun ch member => ascii ch (by simp [member])).mp isLabel
        · exact legal other member
  · rintro ⟨labels, some_labels, rfl, legal⟩
    induction labels with
    | nil => exact absurd rfl some_labels
    | cons label labels ih =>
      have isLegal := legal label List.mem_cons_self
      cases labels with
      | nil =>
        have alone : [0x2E].intercalate [label] = label := by simp [List.intercalate]
        rw [alone] at ascii ⊢
        exact .one ((label_iff ascii).mpr isLegal)
      | cons next labels =>
        rw [intercalate_cons_cons] at ascii ⊢
        refine .more ((label_iff fun ch member => ascii ch (by simp [member])).mpr isLegal) ?_
        exact ih (List.cons_ne_nil _ _) (fun other member => legal other (List.mem_cons_of_mem _ member))
          fun ch member => ascii ch (by simp [member])

theorem Dotted.ne_nil {domain : List UInt8} (dotted : Dotted domain) : domain ≠ [] := by
  cases dotted with
  | one isLabel => exact isLabel.positive
  | more isLabel dotted => simp

/-! ## What is made of the parts -/

/-- The parts pass every test there is but the one of the length of the domain. -/
structure Passes (node domain resource : List UInt8) : Prop where
  node : node.length ≤ 1023 ∧ ∀ ch ∈ node, isNodeChar ch = true
  resource : resource.length ≤ 1023
  domain : Dotted domain

variable {node domain resource : List UInt8}

theorem ofParts_of_passes (passes : Passes node domain resource) :
    ofParts node domain resource = ⟨node.map nodeChar,
      if 1023 < domain.length then [] else domain.map domainChar, resource.map resourceChar⟩ := by
  unfold ofParts validateOrReset
  rw [prepNode_eq_some.mpr ⟨passes.node.2, passes.node.1, rfl⟩,
    prepDomain_eq_some.mpr ⟨passes.domain, rfl⟩, prepResource_eq_some.mpr ⟨passes.resource, rfl⟩]

theorem ofParts_of_not_passes (fails : ¬Passes node domain resource) :
    ofParts node domain resource = ⟨[], [], []⟩ := by
  unfold ofParts validateOrReset
  split
  · next isNode isDomain isResource =>
    obtain ⟨chars, short, -⟩ := prepNode_eq_some.mp isNode
    exact absurd ⟨⟨short, chars⟩, (prepResource_eq_some.mp isResource).1,
      (prepDomain_eq_some.mp isDomain).1⟩ fails
  · rfl

theorem Acceptable.passes (ascii : ∀ ch ∈ node ++ domain ++ resource, ch ≤ 0x7F)
    (acceptable : Acceptable node domain resource) : Passes node domain resource := by
  refine ⟨⟨acceptable.node.1, fun ch member => ?_⟩, acceptable.resource.1,
    (dotted_iff fun ch member => ascii ch (by simp [member])).mpr acceptable.domain.2⟩
  rw [isNodeChar_iff ch (ascii ch (by simp [member]))]
  exact ((isNodeText_iff ch).mp (acceptable.node.2 ch member)).1

end Libjingle.Xmpp.Jid
