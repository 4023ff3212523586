import Libjingle.Base.AddressText
import Libjingle.Session.Wiring
import Mathlib.Algebra.Order.Ring.Nat

/-!
# Which addresses of candidates are accepted

`VerifyCandidate` asks whether an address is local, the any address or private. Loopback and any
are single addresses, and an IPv4 address in its IPv6 form is looked at as an IPv6 address.
-/

namespace Libjingle

namespace IPAddress

/-- `IPIsLoopback`. -/
def isLoopback : IPAddress → Bool
  | .v4 addr => addr = 0x7F000001
  | .v6 addr => addr = 1
  | .unspec => false

def isPrivateV4 (ip : BitVec 32) : Bool :=
  ip >>> 24 = 127 ∨ ip >>> 24 = 10 ∨ ip >>> 20 = 172 <<< 4 ||| 1 ∨ ip >>> 16 = 192 <<< 8 ||| 168 ∨
    ip >>> 16 = 169 <<< 8 ||| 254

/-- `IPIsPrivate`. -/
def isPrivate : IPAddress → Bool
  | .v4 addr => isPrivateV4 addr
  | .v6 addr =>
      (addr.extractLsb' 120 8 = 0xFE ∧ addr.extractLsb' 112 8 = 0x80) ∨ isLoopback (.v6 addr)
  | .unspec => false

/-- The address designates the local host, or none: in 127.0.0.0/8, ::1, 0.0.0.0 or ::, also in the
IPv6 form. -/
def designatesNoPeer (ip : IPAddress) : Bool :=
  match ip.normalized with
  | .v4 addr => addr >>> 24 = 127 ∨ addr = 0
  | .v6 addr => addr = 1 ∨ addr = 0
  | .unspec => false

end IPAddress

/-- What is asked of the host: its name, and the addresses that the name resolves to. -/
structure Host where
  hostname : List UInt8
  localIPs : List IPAddress

namespace AddressText.SocketAddress

open Libjingle.Std

def isLoopbackIP (addr : SocketAddress) : Bool :=
  addr.ip.isLoopback ∨ (addr.ip.isAny ∧ addr.hostname = CString.ofString "localhost")

def isLocalIP (host : Host) (addr : SocketAddress) : Bool :=
  addr.isLoopbackIP ∨
    if addr.ip.isAny then addr.hostname ≠ [] ∧ CString.sameNoCase addr.hostname host.hostname
    else addr.ip ∈ host.localIPs

/-- The answers that `VerifyCandidate` gets. -/
def asked (host : Host) (addr : SocketAddress) : Session.Address where
  isLocalIP := addr.isLocalIP host
  isAny := addr.ip.isAny
  isPrivateIP := addr.ip.isPrivate
  port := addr.port.toNat

def normalized (addr : SocketAddress) : SocketAddress :=
  { addr with ip := addr.ip.normalized }

/-- `VerifyCandidate` returns true. -/
def verified (host : Host) (t : Session.Transport) (name : String) (addr : SocketAddress) : Bool :=
  (t.verifyCandidate ⟨name, addr.asked host⟩).isNone

/-- Ports from 1024 on, 80 and 443. -/
def portAllowed (addr : SocketAddress) : Bool :=
  1024 ≤ addr.port.toNat ∨ addr.port.toNat = 80 ∨ addr.port.toNat = 443

/-- What the filter is to do with an address. -/
structure Filtered (host : Host) (t : Session.Transport) (name : String) (addr : SocketAddress) :
    Prop where
  same : addr.verified host t name = addr.normalized.verified host t name
  peer : addr.verified host t name = true → addr.ip.designatesNoPeer = false
  port : addr.verified host t name = true → addr.portAllowed = true
  web : addr.verified host t name = true → addr.port.toNat < 1024 → addr.ip.normalized.isPrivate = false

/-- The IPv4 address is zero or one of the host, or a private one on a low port. -/
def Refused (host : Host) (addr : SocketAddress) (ip : BitVec 32) : Prop :=
  .v4 ip ∈ host.localIPs ∨ ip = 0 ∨
    (addr.port.toNat < 1024 ∧ IPAddress.isPrivateV4 ip = true)

/-- The address is no loopback address but 127.0.0.1. One in the IPv6 form has a port that is never
allowed, or both forms of it are refused, or none and it designates a peer. -/
def Clear (host : Host) (addr : SocketAddress) : Prop :=
  match addr.ip with
  | .unspec => True
  | .v4 ip => ip >>> 24 = 127 → ip = 0x7F000001 ∨ .v4 ip ∈ host.localIPs ∨ addr.port.toNat < 1024
  | .v6 ip => IPAddress.isMapped ip = true → addr.portAllowed = true →
      if .v6 ip ∈ host.localIPs then
        addr.Refused host (IPAddress.extractMapped ip) ∨ IPAddress.extractMapped ip = 0x7F000001
      else
        ¬ addr.Refused host (IPAddress.extractMapped ip) ∧ IPAddress.extractMapped ip >>> 24 ≠ 127

variable {host : Host} {t : Session.Transport} {name : String} {addr : SocketAddress}

theorem verified_iff (strict : t.allowLocalIps = false) : addr.verified host t name = true ↔
    addr.isLocalIP host = false ∧ addr.ip.isAny = false ∧ addr.portAllowed = true ∧
      (addr.port.toNat < 1024 → addr.ip.isPrivate = false) := by
  unfold verified Session.Transport.verifyCandidate asked portAllowed
  rw [strict]
  by_cases isLocal : addr.isLocalIP host = true
  · simp [isLocal]
  by_cases any : addr.ip.isAny = true
  · simp [isLocal, any]
  by_cases low : addr.port.toNat < 1024
  · by_cases web : addr.port.toNat = 80 ∨ addr.port.toNat = 443
    · rcases web with web | web <;> simp [isLocal, any, web]
    · obtain ⟨http, https⟩ := not_or.mp web
      simp [isLocal, any, low, http, https]
  · simp [isLocal, any, low, Nat.le_of_not_lt low]

/-- The host name is only looked at where the address is refused anyway. -/
theorem verified_iff_of_not_any (strict : t.allowLocalIps = false) (other : addr.ip.isAny = false) :
    addr.verified host t name = true ↔ addr.portAllowed = true ∧ addr.ip.isLoopback = false ∧
      addr.ip ∉ host.localIPs ∧ (addr.port.toNat < 1024 → addr.ip.isPrivate = false) := by
  rw [verified_iff strict]
  unfold isLocalIP isLoopbackIP
  simp [other]
  tauto

theorem not_verified_any (strict : t.allowLocalIps = false) (any : addr.ip.isAny = true) :
    addr.verified host t name = false := by
  rw [Bool.eq_false_iff]
  intro verified
  exact absurd (any.symm.trans ((verified_iff strict).mp verified).2.1) (by decide)

/-- An IPv4 address is refused if it is 127.0.0.1, zero or one of the host, or private on a low port. -/
theorem verified_v4 (strict : t.allowLocalIps = false) {ip : BitVec 32} (family : addr.ip = .v4 ip) :
    addr.verified host t name = true ↔
      addr.portAllowed = true ∧ ¬ addr.Refused host ip ∧ ip ≠ 0x7F000001 := by
  unfold Refused
  by_cases any : addr.ip.isAny = true
  · have zero : ip = 0 := by simpa [family, IPAddress.isAny] using any
    simp [not_verified_any strict any, zero]
  · have other : addr.ip.isAny = false := Bool.eq_false_iff.mpr any
    have some_bit : ip ≠ 0 := by simpa [family, IPAddress.isAny] using any
    rw [verified_iff_of_not_any strict other, family]
    simp only [IPAddress.isLoopback, IPAddress.isPrivate, some_bit, false_or, not_or, not_and,
      Bool.not_eq_true, decide_eq_false_iff_not, ne_eq]
    tauto

theorem mapped_apart {ip : BitVec 128} (mapped : IPAddress.isMapped ip = true) :
    ip ≠ 0 ∧ ip ≠ 1 ∧ ip.extractLsb' 120 8 = 0 := by
  refine ⟨?_, ?_, ?_⟩
  · rintro rfl
    exact absurd mapped (by decide)
  · rintro rfl
    exact absurd mapped (by decide)
  · have slice : ip.extractLsb' 120 8 = (ip.extractLsb' 32 96).extractLsb' 88 8 := by
      ext k bound
      simp [show 88 + k < 96 by omega, ← Nat.add_assoc]
    rw [slice, of_decide_eq_true mapped]
    rfl

/-- One in its IPv6 form is refused only if the host has it in that form. -/
theorem verified_mapped (strict : t.allowLocalIps = false) {ip : BitVec 128}
    (family : addr.ip = .v6 ip) (mapped : IPAddress.isMapped ip = true) :
    addr.verified host t name = true ↔ addr.portAllowed = true ∧ .v6 ip ∉ host.localIPs := by
  obtain ⟨zero, one, first⟩ := mapped_apart mapped
  have other : addr.ip.isAny = false := by simpa [family, IPAddress.isAny] using zero
  have loopback : addr.ip.isLoopback = false := by simpa [family, IPAddress.isLoopback] using one
  have open_ip : addr.ip.isPrivate = false := by
    simpa [family, IPAddress.isPrivate, first, IPAddress.isLoopback] using one
  rw [verified_iff_of_not_any strict other, loopback, open_ip, family]
  simp

theorem filtered_of_normal (strict : t.allowLocalIps = false)
    (normal : addr.ip.normalized = addr.ip) : addr.Filtered host t name ↔
      (addr.verified host t name = true → addr.ip.designatesNoPeer = false) := by
  refine ⟨Filtered.peer, fun peer => ⟨?_, peer, ?_, ?_⟩⟩
  · rw [normalized, normal]
  · exact fun verified => ((verified_iff strict).mp verified).2.2.1
  · rw [normal]
    exact fun verified => ((verified_iff strict).mp verified).2.2.2

theorem filtered_v4 (strict : t.allowLocalIps = false) {ip : BitVec 32} (family : addr.ip = .v4 ip) :
    addr.Filtered host t name ↔
      (ip >>> 24 = 127 → ip = 0x7F000001 ∨ .v4 ip ∈ host.localIPs ∨ addr.port.toNat < 1024) := by
  have designates : addr.ip.designatesNoPeer = decide (ip >>> 24 = 127 ∨ ip = 0) := by rw [family]; rfl
  have isPrivate : ip >>> 24 = 127 → IPAddress.isPrivateV4 ip = true :=
    fun loopback => decide_eq_true (.inl loopback)
  rw [filtered_of_normal strict (by rw [family]; rfl), verified_v4 strict family, designates,
    decide_eq_false_iff_not]
  have high : ¬ addr.port.toNat < 1024 → addr.portAllowed = true :=
    fun high => decide_eq_true (.inl (Nat.le_of_not_lt high))
  have apart : ip >>> 24 = 127 → ip ≠ 0 := by
    rintro loopback rfl
    exact absurd loopback (by decide)
  unfold Refused
  tauto

theorem filtered_mapped (strict : t.allowLocalIps = false) {ip : BitVec 128}
    (family : addr.ip = .v6 ip) (mapped : IPAddress.isMapped ip = true) :
    addr.Filtered host t name ↔ addr.Clear host := by
  have form : addr.ip.normalized = .v4 (IPAddress.extractMapped ip) := by
    rw [family]
    exact if_pos mapped
  have inner : addr.normalized.verified host t name = true ↔ addr.portAllowed = true ∧
      ¬ addr.Refused host (IPAddress.extractMapped ip) ∧
        IPAddress.extractMapped ip ≠ 0x7F000001 := verified_v4 strict form
  have outer : addr.verified host t name = true ↔ addr.portAllowed = true ∧ .v6 ip ∉ host.localIPs :=
    verified_mapped strict family mapped
  have designates : addr.ip.designatesNoPeer =
      decide (IPAddress.extractMapped ip >>> 24 = 127 ∨ IPAddress.extractMapped ip = 0) := by
    rw [IPAddress.designatesNoPeer, form]
  have clear_iff : addr.Clear host ↔ (addr.portAllowed = true →
      if .v6 ip ∈ host.localIPs then
        addr.Refused host (IPAddress.extractMapped ip) ∨ IPAddress.extractMapped ip = 0x7F000001
      else
        ¬ addr.Refused host (IPAddress.extractMapped ip) ∧
          IPAddress.extractMapped ip >>> 24 ≠ 127) := by
    unfold Clear
    rw [family]
    exact ⟨fun clear => clear mapped, fun clear _ => clear⟩
  rw [clear_iff]
  generalize ip4 : IPAddress.extractMapped ip = v4 at form inner designates ⊢
  constructor
  · intro filtered allowed
    have same := filtered.same
    rw [Bool.eq_iff_iff, outer, inner] at same
    split
    · next own =>
      by_contra refuses
      obtain ⟨taken, other⟩ := not_or.mp refuses
      exact (same.mpr ⟨allowed, taken, other⟩).2 own
    · next other =>
      have peer := filtered.peer (outer.mpr ⟨allowed, other⟩)
      rw [designates, decide_eq_false_iff_not] at peer
      exact ⟨(same.mp ⟨allowed, other⟩).2.1, fun loopback => peer (.inl loopback)⟩
  · intro clear
    have taken : addr.portAllowed = true → .v6 ip ∉ host.localIPs →
        ¬ addr.Refused host v4 ∧ v4 >>> 24 ≠ 127 := by
      intro allowed other
      have clear := clear allowed
      rwa [if_neg other] at clear
    refine ⟨?_, fun verified => ?_, fun verified => (outer.mp verified).1, fun verified low => ?_⟩
    · rw [Bool.eq_iff_iff, outer, inner]
      constructor
      · rintro ⟨allowed, other⟩
        obtain ⟨accepted, apart⟩ := taken allowed other
        exact ⟨allowed, accepted, fun one => apart (by rw [one]; rfl)⟩
      · rintro ⟨allowed, accepted, apart⟩
        refine ⟨allowed, fun own => ?_⟩
        have clear := clear allowed
        rw [if_pos own] at clear
        exact clear.elim accepted apart
    · obtain ⟨allowed, other⟩ := outer.mp verified
      obtain ⟨accepted, apart⟩ := taken allowed other
      rw [designates, decide_eq_false_iff_not]
      exact not_or.mpr ⟨apart, fun zero => accepted (.inr (.inl zero))⟩
    · obtain ⟨allowed, other⟩ := outer.mp verified
      obtain ⟨accepted, -⟩ := taken allowed other
      rw [form, IPAddress.isPrivate, Bool.eq_false_iff]
      exact fun isPrivate => accepted (.inr (.inr ⟨low, isPrivate⟩))

/-- The filter does with an address what it is to do exactly if the address is clear. -/
theorem filtered_iff_clear (strict : t.allowLocalIps = false) :
    addr.Filtered host t name ↔ addr.Clear host := by
  cases family : addr.ip with
  | unspec =>
    rw [filtered_of_normal strict (by rw [family]; rfl)]
    simp [Clear, family, IPAddress.designatesNoPeer, IPAddress.normalized]
  | v4 ip =>
    rw [filtered_v4 strict family]
    simp [Clear, family]
  | v6 ip =>
    by_cases mapped : IPAddress.isMapped ip = true
    · exact filtered_mapped strict family mapped
    · have normal : addr.ip.normalized = addr.ip := by
        rw [family]
        exact if_neg mapped
      rw [filtered_of_normal strict normal]
      refine iff_of_true (fun verified => ?_) (by simp [Clear, family, mapped])
      obtain ⟨-, other, -⟩ := (verified_iff strict).mp verified
      have loopback : addr.ip.isLoopback = false :=
        ((verified_iff_of_not_any strict other).mp verified).2.1
      rw [IPAddress.designatesNoPeer, normal]
      simp_all [IPAddress.isAny, IPAddress.isLoopback]

/-- 8.8.8.8 and the port 443. -/
theorem filtered_public : Filtered ⟨[], []⟩ (.new false) "rtp" ⟨[], false, .v4 0x08080808, 443⟩ :=
  (filtered_iff_clear rfl).mpr fun loopback => absurd loopback (by decide)

/-- 127.0.0.2 is accepted. -/
theorem not_filtered_loopback : ¬ ∀ (host : Host) (t : Session.Transport) (name : String)
    (addr : SocketAddress), t.allowLocalIps = false → addr.Filtered host t name := by
  intro filtered
  have second := (filtered ⟨[], []⟩ (.new false) "rtp" ⟨[], false, .v4 0x7F000002, 5000⟩ rfl).peer rfl
  exact absurd second (by decide)

end AddressText.SocketAddress

end Libjingle
