import Libjingle.P2P.Connection
import Libjingle.Stun.RoundTrip

/-!
# The STUN messages of a port

`Port::GetStunMessage` of `talk/p2p/base/port.cc`, with the pings and the answers that
ports exchange. A request names the two username fragments in the order of its receiver
and its sender. The answer repeats the username, so that its receiver finds its own
fragment at the end.

A `std::string` is a string of characters that are bytes.
-/

namespace Libjingle.P2P

open Libjingle.Std Libjingle.Stun

def stdString (bytes : List UInt8) : String :=
  .ofList (bytes.map fun byte => Char.ofNat byte.toNat)

def stdBytes (s : String) : List UInt8 :=
  s.toList.map fun c => UInt8.ofNat c.toNat

theorem ofNat_toNat_ofNat (byte : UInt8) : UInt8.ofNat (Char.ofNat byte.toNat).toNat = byte := by
  have small : byte.toNat < 0xd800 := Nat.lt_trans byte.toNat_lt (by decide)
  have valid : byte.toNat.isValidChar := .inl small
  have code : (Char.ofNat byte.toNat).toNat = byte.toNat := by
    rw [Char.ofNat, dif_pos valid]
    rfl
  rw [code, UInt8.ofNat_toNat]

@[simp] theorem stdBytes_stdString (bytes : List UInt8) : stdBytes (stdString bytes) = bytes := by
  rw [stdBytes, stdString, String.toList_ofList, List.map_map]
  exact (List.map_congr_left fun byte _ => ofNat_toNat_ofNat byte).trans (List.map_id bytes)

/-- The number of a transaction id, as connections know their requests by. -/
def requestId (transactionId : List UInt8) : Nat := BigEndian.ofBytes (1 :: transactionId)

def usernameAttribute (username : List UInt8) : Attribute :=
  .byteString AttributeType.username username

/-- `ConnectionRequest::Prepare`, with the id of the request. -/
def pingMessage (remoteUsername : String) (usernameFrag id : List UInt8) : Message :=
  .build MessageType.bindingRequest id
    [usernameAttribute (stdBytes remoteUsername ++ usernameFrag)]

def mappedAddress (addr : SocketAddress) : Attribute :=
  .address AttributeType.mappedAddress addr

/-- The response of `SendBindingResponse`, which needs a username. -/
def bindingResponse (request : Message) (addr : SocketAddress) : Option Message :=
  (request.getByteString AttributeType.username).map fun username =>
    .build MessageType.bindingResponse request.transactionId
      [usernameAttribute username, mappedAddress addr]

def stunErrorBadRequest : Nat := 400

def stunErrorReasonBadRequest : String := "BAD REQUEST"

def stunErrorReasonStaleCredentials : String := "STALE CREDENTIALS"

def stunErrorReasonServerError : String := "SERVER ERROR"

/-- The response of `SendBindingErrorResponse`, with `SetErrorCode` and `SetReason`. -/
def bindingErrorResponse (request : Message) (errorCode : Nat) (reason : String) :
    Option Message :=
  (request.getByteString AttributeType.username).map fun username =>
    .build MessageType.bindingErrorResponse request.transactionId
      [usernameAttribute username,
        .errorCode (.ofNat (errorCode / 256 % 8)) (.ofNat (errorCode % 256)) (stdBytes reason)]

/-- `error_code()` of the error code attribute. -/
def getErrorCode (msg : Message) : Option Nat :=
  match msg.getAttribute AttributeType.errorCode with
  | some (.errorCode cls number _) => some (cls.toNat * 256 + number.toNat)
  | _ => none

/-- What `GetStunMessage` makes of a packet. -/
inductive Received where
  /-- No complete and correct STUN message. -/
  | notStun
  /-- A message that is dropped, with the error response that is sent. -/
  | handled (reply : Option Message)
  | message (msg : Message) (remoteUsername : List UInt8)
  deriving DecidableEq

/-- There is no result when the bytes of a missing username are looked at, which happens
with an empty fragment. -/
def getStunMessage (usernameFrag data : List UInt8) : Option Received :=
  match Message.new.read data with
  | (true, msg, []) =>
      if msg.type = MessageType.bindingRequest then
        match msg.getByteString AttributeType.username with
        | none => if usernameFrag = [] then none else some (.handled none)
        | some username =>
            if username.length < usernameFrag.length then some (.handled none)
            else if username.take usernameFrag.length ≠ usernameFrag then
              some (.handled
                (bindingErrorResponse msg stunErrorBadRequest stunErrorReasonBadRequest))
            else some (.message msg (username.drop usernameFrag.length))
      else if msg.type = MessageType.bindingResponse ∨
          msg.type = MessageType.bindingErrorResponse then
        match msg.getByteString AttributeType.username with
        | none => if usernameFrag = [] then none else some (.handled none)
        | some username =>
            let remoteFragLen := username.length - usernameFrag.length
            if username.length < usernameFrag.length then some (.handled none)
            else if username.drop remoteFragLen ≠ usernameFrag then some (.handled none)
            else if msg.type = MessageType.bindingErrorResponse ∧ getErrorCode msg = none then
              some (.handled none)
            else some (.message msg (username.take remoteFragLen))
      else some (.handled none)
  | _ => some .notStun

/-! ## What is found -/

/-- The bytes are a complete STUN message of some type, and its first username is given. -/
structure Names (data : List UInt8) (type : UInt16) (username : List UInt8) (msg : Message) :
    Prop where
  parses : Message.new.read data = (true, msg, [])
  type : msg.type = type
  username : msg.getByteString AttributeType.username = some username

section Found

variable {usernameFrag data remoteUsername username : List UInt8} {msg : Message}

/-- A packet that is taken for data is no message. -/
theorem getStunMessage_notStun (found : getStunMessage usernameFrag data = some .notStun) :
    ∀ msg, Message.new.read data ≠ (true, msg, []) := by
  intro msg parses
  rw [getStunMessage, parses] at found
  dsimp only at found
  repeat' split at found
  all_goals cases found

/-- What a message that is found has for a username: in a request the fragment comes first, in a
response last. -/
theorem getStunMessage_message
    (found : getStunMessage usernameFrag data = some (.message msg remoteUsername)) :
    Names data MessageType.bindingRequest (usernameFrag ++ remoteUsername) msg ∨
      Names data MessageType.bindingResponse (remoteUsername ++ usernameFrag) msg ∨
      Names data MessageType.bindingErrorResponse (remoteUsername ++ usernameFrag) msg := by
  rw [getStunMessage] at found
  split at found
  · next read parses =>
    split at found
    · next request =>
      split at found
      · split at found <;> cases found
      · next username named =>
        split_ifs at found with short bad
        · cases found
        · cases found
        · obtain ⟨rfl, rfl⟩ := Received.message.inj (Option.some.inj found)
          have whole := List.take_append_drop usernameFrag.length username
          rw [not_not.mp bad] at whole
          exact .inl ⟨parses, request, by rw [named, whole]⟩
    · split at found
      · next response =>
        split at found
        · split at found <;> cases found
        · next username named =>
          dsimp only at found
          split_ifs at found with short bad corrupt
          · cases found
          · cases found
          · cases found
          · obtain ⟨rfl, rfl⟩ := Received.message.inj (Option.some.inj found)
            have whole := List.take_append_drop (username.length - usernameFrag.length) username
            rw [not_not.mp bad] at whole
            rw [← whole] at named
            exact .inr (response.imp (⟨parses, ·, named⟩) (⟨parses, ·, named⟩))
      · cases found
  · cases found

theorem getStunMessage_request
    (names : Names data MessageType.bindingRequest (usernameFrag ++ remoteUsername) msg) :
    getStunMessage usernameFrag data = some (.message msg remoteUsername) := by
  simp [getStunMessage, names.parses, names.type, names.username]

theorem getStunMessage_response
    (names : Names data MessageType.bindingResponse (remoteUsername ++ usernameFrag) msg) :
    getStunMessage usernameFrag data = some (.message msg remoteUsername) := by
  have notRequest : MessageType.bindingResponse ≠ MessageType.bindingRequest := by decide
  have notError : MessageType.bindingResponse ≠ MessageType.bindingErrorResponse := by decide
  simp [getStunMessage, names.parses, names.type, names.username, notRequest, notError]

end Found

/-! ## What is sent -/

/-- A ping and its answer fit in the 16 bits of a length field. -/
def Fits (username : List UInt8) (addr : SocketAddress) : Prop :=
  4 + username.length + paddingLength username.length + 4 + (addressLength addr).toNat ≤ 65535

theorem Fits.short {username : List UInt8} {addr : SocketAddress} (fits : Fits username addr) :
    username.length < 2 ^ 16 := by
  unfold Fits at fits
  omega

theorem usernameAttribute_eq {username : List UInt8} (short : username.length < 2 ^ 16) :
    usernameAttribute username =
      ⟨AttributeType.username, UInt16.ofNat username.length, .byteString username⟩ := by
  have whole : (UInt16.ofNat username.length).toNat = username.length := by
    rw [UInt16.toNat_ofNat', Nat.mod_eq_of_lt short]
  rw [usernameAttribute, Attribute.byteString, whole, List.take_length]

theorem complete_username (id username : List UInt8) : Complete id (usernameAttribute username) :=
  .byteString (.inl rfl) username

theorem length_write_username {username : List UInt8} (short : username.length < 2 ^ 16)
    (id : List UInt8) : ((usernameAttribute username).write id).length =
      4 + (username.length + paddingLength username.length) := by
  have whole : (UInt16.ofNat username.length).toNat = username.length := by
    rw [UInt16.toNat_ofNat', Nat.mod_eq_of_lt short]
  rw [usernameAttribute_eq short]
  simp [Attribute.write, Attribute.writeValue, whole]
  omega

theorem length_write_mapped {addr : SocketAddress} (set : addr.ip ≠ .unspec) (id : List UInt8) :
    ((mappedAddress addr).write id).length = 4 + (addressLength addr).toNat := by
  obtain ⟨ip, port⟩ := addr
  cases ip with
  | unspec => exact absurd rfl set
  | v4 ip => rfl
  | v6 ip => rfl

/-- A message that starts with a username has this name. -/
theorem names_build {type : UInt16} {id username : List UInt8} {rest : List Attribute}
    (type_lt : type < 0x8000) (valid : id.length = transactionIdLength)
    (short : username.length < 2 ^ 16) (complete : ∀ attr ∈ rest, Complete id attr)
    (fits : ((usernameAttribute username :: rest).flatMap (Attribute.write id)).length ≤ 65535) :
    Names (Message.build type id (usernameAttribute username :: rest)).write type username
        (Message.build type id (usernameAttribute username :: rest)) ∧
      (Message.build type id (usernameAttribute username :: rest)).transactionId = id := by
  have all : ∀ attr ∈ usernameAttribute username :: rest, Complete id attr := by
    intro attr member
    obtain rfl | member := List.mem_cons.mp member
    · exact complete_username id username
    · exact complete attr member
  obtain ⟨length, built, read⟩ := Message.read_build type_lt (.inl valid) all fits
  refine ⟨⟨read, congrArg Message.type built, ?_⟩, congrArg Message.transactionId built⟩
  rw [Message.getByteString, Message.getAttribute, congrArg Message.attrs built,
    usernameAttribute_eq short]
  rfl

theorem ping_names {remoteUsername : String} {usernameFrag id : List UInt8} {addr : SocketAddress}
    (valid : id.length = transactionIdLength)
    (fits : Fits (stdBytes remoteUsername ++ usernameFrag) addr) :
    Names (pingMessage remoteUsername usernameFrag id).write MessageType.bindingRequest
      (stdBytes remoteUsername ++ usernameFrag) (pingMessage remoteUsername usernameFrag id) ∧
      (pingMessage remoteUsername usernameFrag id).transactionId = id := by
  refine names_build (by decide) valid fits.short nofun ?_
  have length := length_write_username fits.short id
  unfold Fits at fits
  simp only [List.flatMap_cons, List.flatMap_nil, List.append_nil, length]
  omega

/-- The answer to a request has its username and its id. -/
theorem response_names {data username : List UInt8} {request : Message} {addr : SocketAddress}
    (names : Names data MessageType.bindingRequest username request)
    (valid : request.transactionId.length = transactionIdLength) (set : addr.ip ≠ .unspec)
    (fits : Fits username addr) :
    ∃ response, bindingResponse request addr = some response ∧
      Names response.write MessageType.bindingResponse username response ∧
      response.transactionId = request.transactionId := by
  refine ⟨_, by rw [bindingResponse, names.username]; rfl, ?_⟩
  refine names_build (by decide) valid fits.short (fun attr member => ?_) ?_
  · obtain rfl := List.mem_singleton.mp member
    exact .address (.inl rfl) set
  · have first := length_write_username fits.short request.transactionId
    have second := length_write_mapped set request.transactionId
    unfold Fits at fits
    simp only [List.flatMap_cons, List.flatMap_nil, List.append_nil, List.length_append, first,
      second]
    omega

end Libjingle.P2P
