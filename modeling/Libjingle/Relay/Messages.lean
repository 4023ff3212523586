import Libjingle.Stun.Message

/-!
# Messages between a relay client and its server

The messages of `relayport.cc` and `relayserver.cc`. The cookie of TURN is the value of
their first attribute, at offset 24, and tells them from packets without a wrapper.
-/

namespace Libjingle.Relay

open Libjingle.Stun

structure Datagram where
  /-- The local address of the socket that sends it. -/
  socket : SocketAddress
  destination : SocketAddress
  bytes : List UInt8
  deriving DecidableEq, Repr

/-- `HasMagicCookie`, of client and server alike. -/
def hasMagicCookie (bytes : List UInt8) : Bool :=
  if bytes.length < 24 + turnMagicCookie.length then false
  else (bytes.drop 24).take turnMagicCookie.length = turnMagicCookie

def asciiBytes (text : String) : List UInt8 :=
  text.toList.map fun c => UInt8.ofNat c.toNat

/-- The cookie comes first in every message. -/
def cookieMessage (type : UInt16) (id : List UInt8) : Message :=
  ((Message.new.setType type).setTransactionId id).addAttribute
    (.byteString AttributeType.magicCookie turnMagicCookie)

def stunError (request : Message) (errorCode : Nat) (errorDesc : String) : Message :=
  (cookieMessage (errorResponseType request.type) request.transactionId).addAttribute
    (.errorCode (.ofNat (errorCode / 100)) (.ofNat (errorCode % 100)) (asciiBytes errorDesc))

def allocateResponse (request : Message) (externalSocket : SocketAddress) (lifetime : UInt32) :
    Message :=
  ((cookieMessage MessageType.allocateResponse request.transactionId).addAttribute
    (.address AttributeType.mappedAddress externalSocket)).addAttribute
    (.uint32 AttributeType.lifetime (lifetime / 1000))

def sendResponse (request : Message) : Message :=
  (cookieMessage MessageType.sendResponse request.transactionId).addAttribute
    (.uint32 AttributeType.options 0x01)

/-- The message keeps the transaction id it is constructed with. -/
def dataIndication (bytes : List UInt8) (fromAddr : SocketAddress) : Message :=
  ((cookieMessage MessageType.dataIndication emptyTransactionId).addAttribute
    (.address AttributeType.sourceAddress2 fromAddr)).addAttribute
    (.byteString AttributeType.data bytes)

/-! ## Requests of the client -/

/-- `AllocateRequest::Prepare`. -/
def allocateRequest (id username : List UInt8) : Message :=
  (cookieMessage MessageType.allocateRequest id).addAttribute
    (.byteString AttributeType.username username)

/-- The request of `RelayEntry::SendTo`, which may ask for a lock. -/
def sendRequest (id username : List UInt8) (addr : SocketAddress) (lock : Bool)
    (data : List UInt8) : Message :=
  let request := ((cookieMessage MessageType.sendRequest id).addAttribute
    (.byteString AttributeType.username username)).addAttribute
    (.address AttributeType.destinationAddress addr)
  let request :=
    if lock then request.addAttribute (.uint32 AttributeType.options 0x1) else request
  request.addAttribute (.byteString AttributeType.data data)

/-! ## The cookie at its offset -/

theorem hasMagicCookie_append {pre : List UInt8} (offset : pre.length = 24) (rest : List UInt8) :
    hasMagicCookie (pre ++ (turnMagicCookie ++ rest)) = true := by
  have long : ¬ (pre ++ (turnMagicCookie ++ rest)).length < 24 + turnMagicCookie.length := by
    simp only [List.length_append, offset]
    omega
  rw [hasMagicCookie, if_neg long, decide_eq_true_iff, List.drop_left' offset, List.take_left]

/-- A message with the cookie in front has it at the offset where it is looked for, whatever
the length of its transaction id. -/
theorem hasMagicCookie_write {msg : Message} {attrs : List Attribute}
    (valid : isValidTransactionId msg.transactionId = true)
    (first : msg.attrs = .byteString AttributeType.magicCookie turnMagicCookie :: attrs) :
    hasMagicCookie msg.write = true := by
  have header : (.byteString AttributeType.magicCookie turnMagicCookie : Attribute).write
      msg.transactionId = Base.ByteBuffer.uint16Bytes AttributeType.magicCookie ++
        Base.ByteBuffer.uint16Bytes 4 ++ turnMagicCookie := rfl
  rw [Message.write, first, List.flatMap_cons, header]
  simp only [List.append_assoc]
  simp only [← List.append_assoc _ _ (turnMagicCookie ++ _)]
  refine hasMagicCookie_append ?_ _
  rcases of_decide_eq_true valid with short | legacy
  · simp [Message.isLegacy, short, transactionIdLength, legacyTransactionIdLength]
  · simp [Message.isLegacy, legacy, legacyTransactionIdLength]

theorem isValidTransactionId_cookieMessage (type : UInt16) (id : List UInt8) :
    isValidTransactionId (cookieMessage type id).transactionId = true := by
  unfold cookieMessage Message.setTransactionId
  split
  · assumption
  · rfl

theorem attrs_cookieMessage (type : UInt16) (id : List UInt8) :
    (cookieMessage type id).attrs =
      [.byteString AttributeType.magicCookie turnMagicCookie] := by
  unfold cookieMessage Message.setTransactionId
  split <;> rfl

theorem type_cookieMessage (type : UInt16) (id : List UInt8) :
    (cookieMessage type id).type = type := by
  unfold cookieMessage Message.setTransactionId
  split <;> rfl

end Libjingle.Relay
