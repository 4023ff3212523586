import Libjingle.Relay.Connections
import Libjingle.Stun.RoundTrip

/-!
# What client and server read of each other's messages

A SEND request is read as the address and the data that it was made of, and a DATA
indication as well. A message that is too long for its length field is not read at all.
-/

namespace Libjingle.Relay

open Libjingle.Stun Libjingle.Stun.Message

theorem read_of_parseStun {bytes username : List UInt8} {request : Message}
    (parsed : parseStun bytes = .ok (username, request)) :
    ∃ rest, Message.new.read bytes = (true, request, rest) := by
  unfold parseStun at parsed
  split at parsed
  · exact nomatch parsed
  · next msg rest read =>
    split at parsed
    · exact nomatch parsed
    · cases parsed
      exact ⟨rest, read⟩

/-- The bytes of a byte string whose length its length field can hold. -/
theorem byteString_eq {type : UInt16} {bytes : List UInt8} (fits : bytes.length < 2 ^ 16) :
    (.byteString type bytes : Attribute) =
      ⟨type, UInt16.ofNat bytes.length, .byteString bytes⟩ := by
  have length : (UInt16.ofNat bytes.length).toNat = bytes.length :=
    UInt16.toNat_ofNat_of_lt' fits
  rw [Attribute.byteString, length, List.take_length]

theorem cookie_readsBack (id : List UInt8) :
    ReadsBack id (.byteString AttributeType.magicCookie turnMagicCookie) :=
  byteString_readsBack id rfl

section SendRequest

variable {id username data rest : List UInt8} {addr : SocketAddress} {lock : Bool}
  {parsed : Message}

/-- The attributes of a SEND request. -/
def sendAttributes (username : List UInt8) (addr : SocketAddress) (lock : Bool)
    (data : List UInt8) : List Attribute :=
  [.byteString AttributeType.magicCookie turnMagicCookie,
    .byteString AttributeType.username username,
    .address AttributeType.destinationAddress addr] ++
  (if lock then [.uint32 AttributeType.options 0x1] else []) ++
  [.byteString AttributeType.data data]

theorem sendRequest_eq_build (id username : List UInt8) (addr : SocketAddress) (lock : Bool)
    (data : List UInt8) : sendRequest id username addr lock data =
      build MessageType.sendRequest id (sendAttributes username addr lock data) := by
  cases lock <;> rfl

theorem sendAttributes_readsBack (set : addr.ip ≠ .unspec) :
    ∀ attr ∈ sendAttributes username addr lock data, ReadsBack id attr := by
  intro attr mem
  simp only [sendAttributes, List.mem_append, List.mem_cons, List.not_mem_nil, or_false] at mem
  rcases mem with ((rfl | rfl | rfl) | mem) | rfl
  · exact cookie_readsBack id
  · exact byteString_readsBack id rfl
  · exact address_readsBack id (Or.inr (Or.inl rfl)) set
  · split at mem
    · rw [List.mem_singleton.mp mem]
      exact uint32_readsBack id (Or.inr (Or.inr rfl)) 0x1
    · exact absurd mem List.not_mem_nil
  · exact byteString_readsBack id rfl

theorem attrs_of_read_sendRequest (length : id.length = transactionIdLength)
    (set : addr.ip ≠ .unspec)
    (read : Message.new.read (sendRequest id username addr lock data).write =
      (true, parsed, rest)) : parsed.attrs = sendAttributes username addr lock data := by
  rw [sendRequest_eq_build] at read
  exact (eq_of_read_build (by decide) (Or.inl length) (sendAttributes_readsBack set) read).2.2

/-- The server reads the address and the data of the client, and whether to lock. -/
theorem read_sendRequest (length : id.length = transactionIdLength) (set : addr.ip ≠ .unspec)
    (fits : data.length < 2 ^ 16)
    (read : Message.new.read (sendRequest id username addr lock data).write =
      (true, parsed, rest)) :
    parsed.getAddress AttributeType.destinationAddress = some addr ∧
      parsed.getByteString AttributeType.data = some data ∧
      parsed.getUInt32 AttributeType.options = if lock then some 0x1 else none := by
  have attrs := attrs_of_read_sendRequest length set read
  rw [sendAttributes, byteString_eq fits] at attrs
  unfold getAddress getByteString getUInt32 getAttribute
  rw [attrs]
  cases lock <;> exact ⟨rfl, rfl, rfl⟩

theorem hasMagicCookie_sendRequest (id username : List UInt8) (addr : SocketAddress)
    (lock : Bool) (data : List UInt8) :
    hasMagicCookie (sendRequest id username addr lock data).write = true := by
  have valid := isValidTransactionId_cookieMessage MessageType.sendRequest id
  cases lock with
  | true =>
    exact hasMagicCookie_write valid
      (congrArg (· ++ [_] ++ [_] ++ [_] ++ [_]) (attrs_cookieMessage _ _))
  | false =>
    exact hasMagicCookie_write valid
      (congrArg (· ++ [_] ++ [_] ++ [_]) (attrs_cookieMessage _ _))

/-- A SEND request asks for a lock to its own address, if it asks for one. -/
theorem asksLock_sendRequest (length : id.length = transactionIdLength)
    (set : addr.ip ≠ .unspec) (fits : data.length < 2 ^ 16) {extAddr : SocketAddress}
    (asks : RelayServer.AsksLock (sendRequest id username addr lock data).write extAddr) :
    lock = true ∧ extAddr = addr := by
  obtain ⟨_, request, options, -, parsed, -, address, optioned, -⟩ := asks
  obtain ⟨_, read⟩ := read_of_parseStun parsed
  obtain ⟨address', -, optioned'⟩ := read_sendRequest length set fits read
  refine ⟨?_, Option.some.inj (address.symm.trans address')⟩
  rw [optioned'] at optioned
  cases lock with
  | true => rfl
  | false => exact nomatch optioned

end SendRequest

theorem type_of_parseStun {msg request : Message} {username : List UInt8}
    (parsed : parseStun msg.write = .ok (username, request)) : request.type = msg.type := by
  obtain ⟨rest, read⟩ := read_of_parseStun parsed
  exact type_of_read_write read

theorem type_allocateRequest (id username : List UInt8) :
    (allocateRequest id username).type = MessageType.allocateRequest :=
  type_cookieMessage _ _

theorem hasMagicCookie_allocateRequest (id username : List UInt8) :
    hasMagicCookie (allocateRequest id username).write = true :=
  hasMagicCookie_write (isValidTransactionId_cookieMessage _ _)
    (congrArg (· ++ [_]) (attrs_cookieMessage _ _))

theorem not_asksLock_allocateRequest (id username : List UInt8) (extAddr : SocketAddress) :
    ¬ RelayServer.AsksLock (allocateRequest id username).write extAddr := by
  rintro ⟨_, request, options, -, parsed, send, -⟩
  rw [type_of_parseStun parsed, type_allocateRequest] at send
  exact absurd send (by decide)

theorem not_asksLock_of_not_cookie {bytes : List UInt8} (plain : hasMagicCookie bytes = false)
    (extAddr : SocketAddress) : ¬ RelayServer.AsksLock bytes extAddr := by
  rintro ⟨_, _, _, cookie, -⟩
  exact Bool.false_ne_true (plain.symm.trans cookie)

section DataIndication

variable {bytes rest : List UInt8} {fromAddr : SocketAddress} {parsed : Message}

/-- The client reads the address and the data of the server. -/
theorem read_dataIndication (set : fromAddr.ip ≠ .unspec) (fits : bytes.length < 2 ^ 16)
    (read : Message.new.read (dataIndication bytes fromAddr).write = (true, parsed, rest)) :
    parsed.getAddress AttributeType.sourceAddress2 = some fromAddr ∧
      parsed.getByteString AttributeType.data = some bytes := by
  have built : dataIndication bytes fromAddr =
      build MessageType.dataIndication emptyTransactionId
        [.byteString AttributeType.magicCookie turnMagicCookie,
          .address AttributeType.sourceAddress2 fromAddr,
          .byteString AttributeType.data bytes] := rfl
  rw [built] at read
  have back : ∀ attr ∈ [Attribute.byteString AttributeType.magicCookie turnMagicCookie,
      .address AttributeType.sourceAddress2 fromAddr, .byteString AttributeType.data bytes],
      ReadsBack emptyTransactionId attr := by
    intro attr mem
    simp only [List.mem_cons, List.not_mem_nil, or_false] at mem
    rcases mem with rfl | rfl | rfl
    · exact cookie_readsBack _
    · exact address_readsBack _ (Or.inr (Or.inr rfl)) set
    · exact byteString_readsBack _ rfl
  have distinct : Distinct emptyTransactionId := Or.inr ⟨rfl, by decide⟩
  obtain ⟨-, -, attrs⟩ := eq_of_read_build (by decide) distinct back read
  rw [byteString_eq fits] at attrs
  unfold getAddress getByteString getAttribute
  rw [attrs]
  exact ⟨rfl, rfl⟩

theorem hasMagicCookie_dataIndication (bytes : List UInt8) (fromAddr : SocketAddress) :
    hasMagicCookie (dataIndication bytes fromAddr).write = true :=
  hasMagicCookie_write (isValidTransactionId_cookieMessage _ _)
    (congrArg (· ++ [_] ++ [_]) (attrs_cookieMessage _ _))

end DataIndication

end Libjingle.Relay
