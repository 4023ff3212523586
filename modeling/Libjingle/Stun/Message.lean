import Libjingle.Base.ByteBuffer
import Libjingle.Base.SocketAddress

/-!
# STUN messages

`StunMessage` and its attributes, from `talk/p2p/base/stun.cc`. The length of an
attribute and that of a message are fields of their own, kept by the setters and
by `AddAttribute`. An attribute of a message has that message as its owner.
-/

namespace Libjingle.Stun

open Libjingle.Std Libjingle.Base

/-! ## Types -/

namespace MessageType

def bindingRequest : UInt16 := 0x0001
def bindingResponse : UInt16 := 0x0101
def bindingErrorResponse : UInt16 := 0x0111
def sharedSecretRequest : UInt16 := 0x0002
def sharedSecretResponse : UInt16 := 0x0102
def sharedSecretErrorResponse : UInt16 := 0x0112
def allocateRequest : UInt16 := 0x0003
def allocateResponse : UInt16 := 0x0103
def allocateErrorResponse : UInt16 := 0x0113
def sendRequest : UInt16 := 0x0004
def sendResponse : UInt16 := 0x0104
def sendErrorResponse : UInt16 := 0x0114
def dataIndication : UInt16 := 0x0115

end MessageType

namespace AttributeType

def mappedAddress : UInt16 := 0x0001
def username : UInt16 := 0x0006
def messageIntegrity : UInt16 := 0x0008
def errorCode : UInt16 := 0x0009
def unknownAttributes : UInt16 := 0x000a
def lifetime : UInt16 := 0x000d
def magicCookie : UInt16 := 0x000f
def bandwidth : UInt16 := 0x0010
def destinationAddress : UInt16 := 0x0011
def sourceAddress2 : UInt16 := 0x0012
def data : UInt16 := 0x0013
def xorMappedAddress : UInt16 := 0x0020
def options : UInt16 := 0x8001

end AttributeType

/-- `GetStunResponseType`. -/
def responseType (requestType : UInt16) : UInt16 :=
  if requestType = MessageType.sharedSecretRequest then MessageType.sharedSecretResponse
  else if requestType = MessageType.allocateRequest then MessageType.allocateResponse
  else if requestType = MessageType.sendRequest then MessageType.sendResponse
  else MessageType.bindingResponse

/-- `GetStunErrorResponseType`. -/
def errorResponseType (requestType : UInt16) : UInt16 :=
  if requestType = MessageType.sharedSecretRequest then MessageType.sharedSecretErrorResponse
  else if requestType = MessageType.allocateRequest then MessageType.allocateErrorResponse
  else if requestType = MessageType.sendRequest then MessageType.sendErrorResponse
  else MessageType.bindingErrorResponse

/-- `kStunMagicCookie`, of RFC 5389. -/
def magicCookie : UInt32 := 0x2112A442

/-- `TURN_MAGIC_COOKIE_VALUE`. -/
def turnMagicCookie : List UInt8 := [0x72, 0xC6, 0x4B, 0xC6]

/-- `EMPTY_TRANSACTION_ID`, sixteen times the character `0`. -/
def emptyTransactionId : List UInt8 := List.replicate 16 0x30

def transactionIdLength : Nat := 12

/-- That of RFC 3489. -/
def legacyTransactionIdLength : Nat := 16

def isValidTransactionId (id : List UInt8) : Bool :=
  id.length = transactionIdLength ∨ id.length = legacyTransactionIdLength

/-! ## Attributes -/

/-- The classes of attributes. -/
inductive AttributeClass where
  | address
  | xorAddress
  | uint32
  | byteString
  | errorCode
  | uint16List
  deriving DecidableEq, Repr

inductive AttributeValue where
  | address (addr : SocketAddress)
  | xorAddress (addr : SocketAddress)
  | uint32 (bits : UInt32)
  | byteString (bytes : List UInt8)
  | errorCode (cls number : UInt8) (reason : List UInt8)
  | uint16List (types : List UInt16)
  deriving DecidableEq, Repr

structure Attribute where
  type : UInt16
  length : UInt16
  value : AttributeValue
  deriving DecidableEq, Repr

def sizeIp4 : UInt16 := 8

def sizeIp6 : UInt16 := 20

/-- `EnsureAddressLength`. -/
def addressLength (addr : SocketAddress) : UInt16 :=
  match addr.ip with
  | .unspec => 0
  | .v4 _ => sizeIp4
  | .v6 _ => sizeIp6

/-- The class of the attributes of a type, and the lengths that they may have. -/
def Attribute.create (type length : UInt16) : Option AttributeClass :=
  if type = AttributeType.mappedAddress ∨ type = AttributeType.destinationAddress ∨
      type = AttributeType.sourceAddress2 then
    if length ≠ sizeIp4 ∧ length ≠ sizeIp6 then none else some .address
  else if type = AttributeType.lifetime ∨ type = AttributeType.bandwidth ∨
      type = AttributeType.options then
    if length ≠ 4 then none else some .uint32
  else if type = AttributeType.username ∨ type = AttributeType.magicCookie ∨
      type = AttributeType.data then some .byteString
  else if type = AttributeType.messageIntegrity then
    if length = 20 then some .byteString else none
  else if type = AttributeType.errorCode then
    if length < 4 then none else some .errorCode
  else if type = AttributeType.unknownAttributes then
    if length % 2 = 0 then some .uint16List else none
  else if type = AttributeType.xorMappedAddress then
    if length ≠ sizeIp4 ∧ length ≠ sizeIp6 then none else some .xorAddress
  else none

/-- `CreateAddress`, with `SetIP` and `SetPort`. -/
def Attribute.address (type : UInt16) (addr : SocketAddress) : Attribute :=
  ⟨type, addressLength addr, .address addr⟩

/-- `CreateAddress` of the XOR class. -/
def Attribute.xorAddress (addr : SocketAddress) : Attribute :=
  ⟨AttributeType.xorMappedAddress, addressLength addr, .xorAddress addr⟩

/-- `CreateUInt32`, with `SetValue`. -/
def Attribute.uint32 (type : UInt16) (bits : UInt32) : Attribute :=
  ⟨type, 4, .uint32 bits⟩

/-- `CreateByteString`, with `CopyBytes`, which takes the size as a `uint16`. -/
def Attribute.byteString (type : UInt16) (bytes : List UInt8) : Attribute :=
  let length := UInt16.ofNat bytes.length
  ⟨type, length, .byteString (bytes.take length.toNat)⟩

/-- `CreateErrorCode`, with its setters. -/
def Attribute.errorCode (cls number : UInt8) (reason : List UInt8) : Attribute :=
  ⟨AttributeType.errorCode, 4 + UInt16.ofNat reason.length, .errorCode cls number reason⟩

/-- `CreateUnknownAttributes`, with `AddType` for each. -/
def Attribute.uint16List (types : List UInt16) : Attribute :=
  ⟨AttributeType.unknownAttributes, UInt16.ofNat (types.length * 2), .uint16List types⟩

/-- The bytes up to the next multiple of four. -/
def paddingLength (length : Nat) : Nat :=
  (4 - length % 4) % 4

def writePadding (length : UInt16) : List UInt8 :=
  List.replicate (paddingLength length.toNat) 0

/-- A failure to consume is not noticed. -/
def consumePadding (length : UInt16) (buf : List UInt8) : List UInt8 :=
  (ByteBuffer.consume (paddingLength length.toNat) buf).getD buf

/-- How far the reader skips an attribute that is not created; the sum is a `uint16`. -/
def skipLength (length : UInt16) : UInt16 :=
  if length % 4 ≠ 0 then length + (4 - length % 4) else length

/-- `GetXoredIP`, within a message that has the transaction id. -/
def xoredIp (transactionId : List UInt8) (ip : IPAddress) : IPAddress :=
  match ip with
  | .unspec => .unspec
  | .v4 addr => .v4 (addr ^^^ magicCookie.toBitVec)
  | .v6 addr =>
      if transactionId.length = transactionIdLength then
        .v6 (addr ^^^ BitVec.ofNat 128
          (BigEndian.ofBytes (ByteBuffer.uint32Bytes magicCookie ++ transactionId)))
      else .unspec

def xoredPort (port : BitVec 16) : BitVec 16 :=
  port ^^^ (magicCookie >>> 16).toUInt16.toBitVec

def ipBytes : IPAddress → List UInt8
  | .unspec => []
  | .v4 addr => BigEndian.toBytes 4 addr.toNat
  | .v6 addr => BigEndian.toBytes 16 addr.toNat

/-- `family`, as it is written. -/
def familyByte : IPAddress → Option UInt8
  | .unspec => none
  | .v4 _ => some 1
  | .v6 _ => some 2

/-- The virtual `Write` of an attribute. -/
def Attribute.writeValue (transactionId : List UInt8) (attr : Attribute) : List UInt8 :=
  match attr.value with
  | .address addr =>
      match familyByte addr.ip with
      | none => []
      | some family =>
          [0, family] ++ ByteBuffer.uint16Bytes (.ofBitVec addr.port) ++ ipBytes addr.ip
  | .xorAddress addr =>
      match familyByte addr.ip with
      | none => []
      | some family =>
          [0, family] ++ ByteBuffer.uint16Bytes (.ofBitVec (xoredPort addr.port)) ++
            ipBytes (xoredIp transactionId addr.ip)
  | .uint32 bits => ByteBuffer.uint32Bytes bits
  | .byteString bytes => bytes.take attr.length.toNat ++ writePadding attr.length
  | .errorCode cls number reason =>
      ByteBuffer.uint32Bytes (cls.toUInt32 <<< 8 ||| number.toUInt32) ++ reason ++
        writePadding attr.length
  | .uint16List types => types.flatMap ByteBuffer.uint16Bytes ++ writePadding attr.length

/-- An attribute with its header. -/
def Attribute.write (transactionId : List UInt8) (attr : Attribute) : List UInt8 :=
  ByteBuffer.uint16Bytes attr.type ++ ByteBuffer.uint16Bytes attr.length ++
    attr.writeValue transactionId

/-- `StunAddressAttribute::Read`. -/
def readAddress (length : UInt16) (buf : List UInt8) : Option (SocketAddress × List UInt8) := do
  let (_, buf) ← ByteBuffer.readUInt8 buf
  let (family, buf) ← ByteBuffer.readUInt8 buf
  let (port, buf) ← ByteBuffer.readUInt16 buf
  if family = 1 then
    if length ≠ sizeIp4 then none
    else
      let (bytes, buf) ← ByteBuffer.readBytes 4 buf
      some (⟨.v4 (.ofNat 32 (BigEndian.ofBytes bytes)), port.toBitVec⟩, buf)
  else if family = 2 then
    if length ≠ sizeIp6 then none
    else
      let (bytes, buf) ← ByteBuffer.readBytes 16 buf
      some (⟨.v6 (.ofNat 128 (BigEndian.ofBytes bytes)), port.toBitVec⟩, buf)
  else none

/-- The loop of `StunUInt16ListAttribute::Read`. -/
def readUInt16s : Nat → List UInt8 → Option (List UInt16 × List UInt8)
  | 0, buf => some ([], buf)
  | count + 1, buf => do
      let (value, buf) ← ByteBuffer.readUInt16 buf
      let (values, buf) ← readUInt16s count buf
      some (value :: values, buf)

/-- The virtual `Read` of an attribute that has been created. -/
def Attribute.read (transactionId : List UInt8) (cls : AttributeClass) (type length : UInt16)
    (buf : List UInt8) : Option (Attribute × List UInt8) := do
  match cls with
  | .address =>
      let (addr, buf) ← readAddress length buf
      some (.address type addr, buf)
  | .xorAddress =>
      let (addr, buf) ← readAddress length buf
      let addr := ⟨xoredIp transactionId addr.ip, xoredPort addr.port⟩
      some (⟨type, addressLength addr, .xorAddress addr⟩, buf)
  | .uint32 =>
      let (bits, buf) ← ByteBuffer.readUInt32 buf
      some (⟨type, length, .uint32 bits⟩, buf)
  | .byteString =>
      let (bytes, buf) ← ByteBuffer.readBytes length.toNat buf
      some (⟨type, length, .byteString bytes⟩, consumePadding length buf)
  | .errorCode =>
      let (val, buf) ← ByteBuffer.readUInt32 buf
      let (reason, buf) ← ByteBuffer.readBytes (length.toNat - 4) buf
      some (⟨type, length, .errorCode ((val >>> 8) &&& 0x7).toUInt8 (val &&& 0xff).toUInt8 reason⟩,
        consumePadding length buf)
  | .uint16List =>
      let (types, buf) ← readUInt16s (length.toNat / 2) buf
      some (⟨type, length, .uint16List types⟩, consumePadding length buf)

/-! ## Messages -/

structure Message where
  type : UInt16
  length : UInt16
  transactionId : List UInt8
  attrs : List Attribute
  deriving DecidableEq, Repr

namespace Message

def new : Message where
  type := 0
  length := 0
  transactionId := emptyTransactionId
  attrs := []

def setType (msg : Message) (type : UInt16) : Message :=
  { msg with type }

/-- An id of another length is refused. -/
def setTransactionId (msg : Message) (id : List UInt8) : Message :=
  if isValidTransactionId id then { msg with transactionId := id } else msg

/-- The length grows by the padded length and the header of the attribute. -/
def addAttribute (msg : Message) (attr : Attribute) : Message :=
  { msg with
    attrs := msg.attrs ++ [attr]
    length := msg.length +
      .ofNat (attr.length.toNat + paddingLength attr.length.toNat + 4) }

def getAttribute (msg : Message) (type : UInt16) : Option AttributeValue :=
  (msg.attrs.find? fun attr => attr.type = type).map (·.value)

/-- `GetAddress`; the XOR-mapped address stands in for the mapped one. -/
def getAddress (msg : Message) (type : UInt16) : Option SocketAddress :=
  let attr :=
    if type = AttributeType.mappedAddress then
      msg.getAttribute type <|> msg.getAttribute AttributeType.xorMappedAddress
    else msg.getAttribute type
  match attr with
  | some (.address addr) => some addr
  | some (.xorAddress addr) => some addr
  | _ => none

def getUInt32 (msg : Message) (type : UInt16) : Option UInt32 :=
  match msg.getAttribute type with
  | some (.uint32 bits) => some bits
  | _ => none

def getByteString (msg : Message) (type : UInt16) : Option (List UInt8) :=
  match msg.getAttribute type with
  | some (.byteString bytes) => some bytes
  | _ => none

def isLegacy (msg : Message) : Bool :=
  msg.transactionId.length = legacyTransactionIdLength

/-- `Write`, into an empty buffer. -/
def write (msg : Message) : List UInt8 :=
  ByteBuffer.uint16Bytes msg.type ++ ByteBuffer.uint16Bytes msg.length ++
    (if msg.isLegacy then [] else ByteBuffer.uint32Bytes magicCookie) ++ msg.transactionId ++
    msg.attrs.flatMap (Attribute.write msg.transactionId)

/-- The loop of `Read`, until the buffer is empty. Each round reads at least the
header of an attribute, so the length of the buffer is fuel enough. The result tells
whether the loop succeeds. -/
def readAttributes : Nat → Message → List UInt8 → Bool × Message × List UInt8
  | 0, msg, buf => (buf.isEmpty, msg, buf)
  | fuel + 1, msg, buf =>
      if buf.isEmpty then (true, msg, buf)
      else
        match ByteBuffer.readUInt16 buf with
        | none => (false, msg, buf)
        | some (type, buf) =>
            match ByteBuffer.readUInt16 buf with
            | none => (false, msg, buf)
            | some (length, buf) =>
                match Attribute.create type length with
                | none =>
                    match ByteBuffer.consume (skipLength length).toNat buf with
                    | none => (false, msg, buf)
                    | some buf => readAttributes fuel msg buf
                | some cls =>
                    match Attribute.read msg.transactionId cls type length buf with
                    | none => (false, msg, buf)
                    | some (attr, buf) =>
                        readAttributes fuel { msg with attrs := msg.attrs ++ [attr] } buf

/-- The transaction id of a header. A message without the magic cookie is of RFC 3489,
where the place of the cookie belongs to the id. -/
def headerId (cookie id : List UInt8) : List UInt8 :=
  if cookie = ByteBuffer.uint32Bytes magicCookie then id else cookie ++ id

/-- `Read`, with what it leaves of the buffer. The message has the fields that were read
also when the rest of the buffer makes no sense. -/
def read (msg : Message) (buf : List UInt8) : Bool × Message × List UInt8 :=
  match ByteBuffer.readUInt16 buf with
  | none => (false, msg, buf)
  | some (type, buf) =>
      let msg := { msg with type }
      -- The two high bits of an RTP packet are 10.
      if type &&& 0x8000 ≠ 0 then (false, msg, buf)
      else
        match ByteBuffer.readUInt16 buf with
        | none => (false, msg, buf)
        | some (length, buf) =>
            let msg := { msg with length }
            match ByteBuffer.readBytes 4 buf with
            | none => (false, msg, buf)
            | some (cookie, buf) =>
                match ByteBuffer.readBytes transactionIdLength buf with
                | none => (false, msg, buf)
                | some (id, buf) =>
                    let msg := { msg with transactionId := headerId cookie id }
                    if length.toNat ≠ buf.length then (false, msg, buf)
                    else readAttributes buf.length { msg with attrs := [] } buf

end Message

end Libjingle.Stun
