import Libjingle.Base.AddressText
import Libjingle.Std.WeakOrder
import Mathlib.Data.Prod.Lex
import Mathlib.Data.List.Lex

/-!
# The order of socket addresses

Maps are keyed by addresses and by pairs of them. Each order compares the same things that equality
does, the host name of an any address among them, so that keys are held together exactly when they
are equal.
-/

namespace Libjingle.AddressText

open Libjingle.Std

/-! ## The comparisons -/

/-- `memcmp` of the bytes of an address of the second family is less than zero. -/
def memcmpLess (a b : BitVec 128) : Bool :=
  BigEndian.toBytes 16 a.toNat < BigEndian.toBytes 16 b.toNat

/-- `operator<` of IP addresses. -/
def ipLess : IPAddress → IPAddress → Bool
  | .unspec, .unspec => false
  | .unspec, _ => true
  | .v4 _, .v6 _ => true
  | .v4 a, .v4 b => a.toNat < b.toNat
  | .v6 a, .v6 b => memcmpLess a b
  | _, _ => false

/-- `operator<`. -/
def SocketAddress.less (a b : SocketAddress) : Bool :=
  if ipLess a.ip b.ip then true
  else if ipLess b.ip a.ip then false
  else if b.ip.isAny ∧ a.hostname < b.hostname then true
  else if b.ip.isAny ∧ b.hostname < a.hostname then false
  else a.port.toNat < b.port.toNat

structure SocketAddressPair where
  src : SocketAddress
  dest : SocketAddress
  deriving DecidableEq, Repr

namespace SocketAddressPair

/-- `operator==`. -/
def equal (a b : SocketAddressPair) : Bool :=
  a.src.equal b.src ∧ a.dest.equal b.dest

/-- `operator<`. -/
def less (a b : SocketAddressPair) : Bool :=
  if a.src.less b.src then true
  else if b.src.less a.src then false
  else if a.dest.less b.dest then true
  else if b.dest.less a.dest then false
  else false

end SocketAddressPair

/-! ## Keys -/

/-- Bytes by their value. -/
local instance byteOrder : LinearOrder UInt8 where
  le_refl := UInt8.le_refl
  le_trans _ _ _ := UInt8.le_trans
  lt_iff_le_not_ge a b := by
    rw [UInt8.lt_iff_toNat_lt, UInt8.le_iff_toNat_le, UInt8.le_iff_toNat_le]
    omega
  le_antisymm _ _ := UInt8.le_antisymm
  le_total := UInt8.le_total
  toDecidableLE := inferInstance

/-- What an IP address is compared by: the rank of its family, and its value or its bytes. -/
def ipKey : IPAddress → Nat ×ₗ Nat ×ₗ List UInt8
  | .unspec => toLex (0, toLex (0, []))
  | .v4 addr => toLex (1, toLex (addr.toNat, []))
  | .v6 addr => toLex (2, toLex (0, BigEndian.toBytes 16 addr.toNat))

/-- The host name as far as it is compared. -/
def nameKey (addr : SocketAddress) : List UInt8 :=
  if addr.ip.isAny then addr.hostname else []

def SocketAddress.key (addr : SocketAddress) :
    (Nat ×ₗ Nat ×ₗ List UInt8) ×ₗ List UInt8 ×ₗ Nat :=
  toLex (ipKey addr.ip, toLex (nameKey addr, addr.port.toNat))

theorem ipLess_iff (a b : IPAddress) : ipLess a b = true ↔ ipKey a < ipKey b := by
  cases a <;> cases b <;> simp [ipLess, ipKey, Prod.Lex.toLex_lt_toLex, memcmpLess]

theorem toBytes_inj {a b : BitVec 128}
    (same : BigEndian.toBytes 16 a.toNat = BigEndian.toBytes 16 b.toNat) : a = b := by
  have numbers := congrArg BigEndian.ofBytes same
  rw [BigEndian.ofBytes_toBytes_of_lt a.isLt, BigEndian.ofBytes_toBytes_of_lt b.isLt] at numbers
  exact BitVec.eq_of_toNat_eq numbers

theorem ipKey_inj {a b : IPAddress} : ipKey a = ipKey b ↔ a = b := by
  refine ⟨fun same => ?_, congrArg ipKey⟩
  cases a <;> cases b <;> simp [ipKey] at same ⊢
  · exact BitVec.eq_of_toNat_eq same
  · exact toBytes_inj same

/-- Two tests, one for each way round, and then the rest: the comparison of pairs of keys. -/
theorem chain_iff {κ μ : Type} [LinearOrder κ] [LinearOrder μ] {less more rest : Prop}
    [Decidable less] [Decidable more] {j k : κ} {m n : μ} (less_iff : less ↔ j < k)
    (more_iff : more ↔ k < j) (rest_iff : j = k → (rest ↔ m < n)) :
    (if less then True else if more then False else rest) ↔ toLex (j, m) < toLex (k, n) := by
  rw [Prod.Lex.toLex_lt_toLex]
  rcases lt_trichotomy j k with lt | equal | gt
  · simp [less_iff, lt]
  · simp [less_iff, more_iff, equal, rest_iff equal]
  · simp [less_iff, more_iff, gt, lt_asymm gt, ne_of_gt gt]

namespace SocketAddress

theorem less_iff (a b : SocketAddress) : a.less b = true ↔ a.key < b.key := by
  have names : ipKey a.ip = ipKey b.ip → (nameKey a < nameKey b ↔ b.ip.isAny ∧ a.hostname < b.hostname) ∧
      (nameKey b < nameKey a ↔ b.ip.isAny ∧ b.hostname < a.hostname) := by
    intro same
    rw [nameKey, nameKey, ipKey_inj.mp same]
    by_cases any : b.ip.isAny <;> simp [any]
  have behind : ipKey a.ip = ipKey b.ip →
      ((if b.ip.isAny ∧ a.hostname < b.hostname then True
        else if b.ip.isAny ∧ b.hostname < a.hostname then False
        else a.port.toNat < b.port.toNat) ↔
      toLex (nameKey a, a.port.toNat) < toLex (nameKey b, b.port.toNat)) := fun same =>
    chain_iff (names same).1.symm (names same).2.symm fun _ => Iff.rfl
  have levels := chain_iff (ipLess_iff a.ip b.ip) (ipLess_iff b.ip a.ip) behind
  unfold less key
  refine Iff.trans ?_ levels
  split_ifs <;> simp

theorem equal_iff (a b : SocketAddress) : a.equal b = true ↔ a.key = b.key := by
  have ports : a.port = b.port ↔ a.port.toNat = b.port.toNat := BitVec.toNat_inj.symm
  have names : a.ip = b.ip → ((¬ a.ip.isAny ∨ a.hostname = b.hostname) ↔ nameKey a = nameKey b) := by
    intro same
    rw [nameKey, nameKey, ← same]
    by_cases any : a.ip.isAny <;> simp [any]
  simp only [equal, equalIPs, key, EmbeddingLike.apply_eq_iff_eq, Prod.mk.injEq, ipKey_inj,
    decide_eq_true_eq, ports, and_assoc]
  exact and_congr_right fun same => and_congr_left fun _ => names same

end SocketAddress

namespace SocketAddressPair

def key (pair : SocketAddressPair) := toLex (pair.src.key, pair.dest.key)

theorem less_iff (a b : SocketAddressPair) : a.less b = true ↔ a.key < b.key := by
  have levels := chain_iff (SocketAddress.less_iff a.src b.src) (SocketAddress.less_iff b.src a.src)
    fun _ => SocketAddress.less_iff a.dest b.dest
  unfold less key
  refine Iff.trans ?_ levels
  split_ifs <;> simp_all

theorem equal_iff (a b : SocketAddressPair) : a.equal b = true ↔ a.key = b.key := by
  simp only [equal, key, EmbeddingLike.apply_eq_iff_eq, Prod.mk.injEq, decide_eq_true_eq,
    SocketAddress.equal_iff]

end SocketAddressPair

/-- Addresses and pairs of them are ordered, and keys that are not apart in the order are equal. -/
theorem addresses_ordered :
    OrdersBy (fun a b : SocketAddress => a.less b = true) (fun a b => a.equal b = true) ∧
      OrdersBy (fun a b : SocketAddressPair => a.less b = true) (fun a b => a.equal b = true) :=
  ⟨ordersBy_key SocketAddress.less_iff SocketAddress.equal_iff,
    ordersBy_key SocketAddressPair.less_iff SocketAddressPair.equal_iff⟩

end Libjingle.AddressText
