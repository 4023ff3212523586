import Mathlib.Algebra.Order.Ring.Nat
import Mathlib.Data.Set.Basic
import Mathlib.Order.Basic

/-!
# Strict weak orders

A comparison that a sort may use on the members of a set. Criteria are chained: what an earlier
one leaves equal goes to the next, so that the chain is a strict weak order if the last
comparison is one wherever the criteria before it are equal.
-/

namespace Libjingle.Std

variable {α κ : Type}

/-- What a sort asks of its comparison. -/
structure StrictWeakOn (lt : α → α → Prop) (S : Set α) : Prop where
  irrefl : ∀ a ∈ S, ¬lt a a
  asymm : ∀ a ∈ S, ∀ b ∈ S, lt a b → ¬lt b a
  trans : ∀ a ∈ S, ∀ b ∈ S, ∀ c ∈ S, lt a b → lt b c → lt a c
  incomp : ∀ a ∈ S, ∀ b ∈ S, ∀ c ∈ S, ¬lt a b → ¬lt b a → ¬lt b c → ¬lt c b →
    ¬lt a c ∧ ¬lt c a

/-- Compare a key first, and then what is left. -/
def Chained [LT κ] (key : α → κ) (rest : α → α → Prop) (a b : α) : Prop :=
  key a < key b ∨ key a = key b ∧ rest a b

theorem StrictWeakOn.mono {lt : α → α → Prop} {S T : Set α} (order : StrictWeakOn lt T)
    (subset : S ⊆ T) : StrictWeakOn lt S where
  irrefl a mem := order.irrefl a (subset mem)
  asymm a memA b memB := order.asymm a (subset memA) b (subset memB)
  trans a memA b memB c memC := order.trans a (subset memA) b (subset memB) c (subset memC)
  incomp a memA b memB c memC := order.incomp a (subset memA) b (subset memB) c (subset memC)

theorem strictWeakOn_congr {lt lt' : α → α → Prop} {S : Set α}
    (same : ∀ a ∈ S, ∀ b ∈ S, lt a b ↔ lt' a b) (order : StrictWeakOn lt S) :
    StrictWeakOn lt' S where
  irrefl a mem is := order.irrefl a mem ((same a mem a mem).mpr is)
  asymm a memA b memB less more :=
    order.asymm a memA b memB ((same a memA b memB).mpr less) ((same b memB a memA).mpr more)
  trans a memA b memB c memC first second :=
    (same a memA c memC).mp (order.trans a memA b memB c memC ((same a memA b memB).mpr first)
      ((same b memB c memC).mpr second))
  incomp a memA b memB c memC notAB notBA notBC notCB := by
    obtain ⟨notAC, notCA⟩ := order.incomp a memA b memB c memC
      (fun is => notAB ((same a memA b memB).mp is)) (fun is => notBA ((same b memB a memA).mp is))
      (fun is => notBC ((same b memB c memC).mp is)) (fun is => notCB ((same c memC b memB).mp is))
    exact ⟨fun is => notAC ((same a memA c memC).mpr is),
      fun is => notCA ((same c memC a memA).mpr is)⟩

section Chained

variable [LinearOrder κ] {key : α → κ} {rest : α → α → Prop} {S : Set α} {a b c : α}

theorem chained_of_eq (equal : key a = key b) : Chained key rest a b ↔ rest a b := by
  simp [Chained, equal]

theorem Chained.le (chained : Chained key rest a b) : key a ≤ key b :=
  chained.elim le_of_lt fun equal => equal.1.le

/-- What is not comparable has equal keys. -/
theorem key_eq_of_incomp (notLess : ¬Chained key rest a b) (notMore : ¬Chained key rest b a) :
    key a = key b :=
  le_antisymm (not_lt.mp fun less => notMore (.inl less)) (not_lt.mp fun less => notLess (.inl less))

theorem chained_trans (trans : key a = key b → key b = key c → rest a b → rest b c → rest a c)
    (first : Chained key rest a b) (second : Chained key rest b c) : Chained key rest a c := by
  rcases first with less | ⟨equalAB, restAB⟩
  · exact .inl (less.trans_le second.le)
  · rcases second with less | ⟨equalBC, restBC⟩
    · exact .inl (equalAB.trans_lt less)
    · exact .inr ⟨equalAB.trans equalBC, trans equalAB equalBC restAB restBC⟩

/-- A chain is a strict weak order if and only if its rest is one among the members of each
key. -/
theorem strictWeakOn_chained :
    StrictWeakOn (Chained key rest) S ↔ ∀ k, StrictWeakOn rest {a ∈ S | key a = k} := by
  constructor
  · intro order k
    refine strictWeakOn_congr (fun a memA b memB => chained_of_eq ?_) (order.mono fun _ mem => mem.1)
    exact memA.2.trans memB.2.symm
  · intro orders
    have level : ∀ {a b}, a ∈ S → key b = key a → a ∈ {c ∈ S | key c = key b} :=
      fun mem equal => ⟨mem, equal.symm⟩
    refine ⟨fun a mem is => ?_, fun a memA b memB less more => ?_,
      fun a memA b memB c memC first second => ?_,
      fun a memA b memB c memC notAB notBA notBC notCB => ?_⟩
    · rw [chained_of_eq rfl] at is
      exact (orders (key a)).irrefl a ⟨mem, rfl⟩ is
    · have equal : key a = key b := le_antisymm less.le more.le
      rw [chained_of_eq equal] at less
      rw [chained_of_eq equal.symm] at more
      exact (orders (key a)).asymm a ⟨memA, rfl⟩ b (level memB equal) less more
    · refine chained_trans (fun equalAB equalBC restAB restBC => ?_) first second
      exact (orders (key a)).trans a ⟨memA, rfl⟩ b (level memB equalAB) c
        (level memC (equalAB.trans equalBC)) restAB restBC
    · have equalAB := key_eq_of_incomp notAB notBA
      have equalBC := key_eq_of_incomp notBC notCB
      have equalAC := equalAB.trans equalBC
      rw [chained_of_eq equalAB] at notAB
      rw [chained_of_eq equalAB.symm] at notBA
      rw [chained_of_eq equalBC] at notBC
      rw [chained_of_eq equalBC.symm] at notCB
      rw [chained_of_eq equalAC, chained_of_eq equalAC.symm]
      exact (orders (key a)).incomp a ⟨memA, rfl⟩ b (level memB equalAB) c (level memC equalAC)
        notAB notBA notBC notCB

/-- Comparing keys only. -/
theorem strictWeakOn_key : StrictWeakOn (fun a b => key a < key b) S where
  irrefl _ _ := lt_irrefl _
  asymm _ _ _ _ := lt_asymm
  trans _ _ _ _ _ _ := lt_trans
  incomp a _ b _ c _ notAB notBA notBC notCB := by
    have equal : key a = key c := (le_antisymm (not_lt.mp notBA) (not_lt.mp notAB)).trans
      (le_antisymm (not_lt.mp notCB) (not_lt.mp notBC))
    simp [equal]

end Chained

/-! ## Orders of equal keys -/

/-- A comparison that leaves apart what differs: what is not comparable is equal. -/
structure OrdersBy (lt eq : α → α → Prop) : Prop where
  weak : StrictWeakOn lt Set.univ
  incomparable : ∀ a b, ¬lt a b ∧ ¬lt b a ↔ eq a b

theorem ordersBy_key [LinearOrder κ] {key : α → κ} {lt eq : α → α → Prop}
    (less : ∀ a b, lt a b ↔ key a < key b) (same : ∀ a b, eq a b ↔ key a = key b) :
    OrdersBy lt eq where
  weak := strictWeakOn_congr (fun a _ b _ => (less a b).symm) strictWeakOn_key
  incomparable a b := by
    rw [less, less, same, not_lt, not_lt]
    exact ⟨fun ⟨ge, le⟩ => le_antisymm le ge, fun equal => ⟨equal.ge, equal.le⟩⟩

end Libjingle.Std
