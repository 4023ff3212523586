import Mathlib.Algebra.Order.Ring.Nat
import Mathlib.Data.List.Basic

/-!
# Socket addresses

`talk_base::SocketAddress` for addresses that are given by an IP address, as
those of packets are; the host name of an address that has yet to be resolved is
left out. Two addresses are equal when their IP addresses and ports are.
-/

namespace Libjingle

inductive IPAddress where
  | unspec
  | v4 (addr : BitVec 32)
  | v6 (addr : BitVec 128)
  deriving DecidableEq, Repr

/-- `IPIsAny`. -/
def IPAddress.isAny : IPAddress → Bool
  | .unspec => false
  | .v4 addr => addr = 0
  | .v6 addr => addr = 0

def IPAddress.isV4 : IPAddress → Bool
  | .v4 _ => true
  | _ => false

/-- `IsMappedAddress`. -/
def IPAddress.isMapped (addr : BitVec 128) : Bool :=
  addr.extractLsb' 32 96 = 0xFFFF

/-- `ExtractMappedAddress`. -/
def IPAddress.extractMapped (addr : BitVec 128) : BitVec 32 :=
  addr.extractLsb' 0 32

/-- `Normalized`. -/
def IPAddress.normalized : IPAddress → IPAddress
  | .v6 addr => if isMapped addr then .v4 (extractMapped addr) else .v6 addr
  | ip => ip

structure SocketAddress where
  ip : IPAddress
  port : BitVec 16
  deriving DecidableEq, Repr

namespace SocketAddress

/-- The address of the default constructor. -/
def nil : SocketAddress := ⟨.v4 0, 0⟩

def isAny (addr : SocketAddress) : Bool :=
  addr.ip.isAny

end SocketAddress

end Libjingle
