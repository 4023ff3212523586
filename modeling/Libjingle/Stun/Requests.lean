import Libjingle.Stun.Framing

/-!
# Outstanding requests

`StunRequestManager`, from `talk/p2p/base/stunrequest.cc`: the requests that wait for a response,
by their transaction ids. A response is given as a message, or as the bytes of one. The bytes
are looked up by the twelve bytes at the place of an RFC 5389 id, before they are parsed.
-/

namespace Libjingle.Stun

open Libjingle.Std Libjingle.Base

structure StunRequest where
  id : List UInt8
  type : UInt16
  deriving DecidableEq, Repr

/-- A handler of a request, with the response that it is called with. -/
inductive Callback where
  | onResponse (request : StunRequest) (response : Message)
  | onErrorResponse (request : StunRequest) (response : Message)
  deriving DecidableEq, Repr

/-- Requests with different ids. -/
structure StunRequestManager where
  requests : List UInt8 → Option StunRequest
  keyed : ∀ id request, requests id = some request →
    request.id = id ∧ isValidTransactionId id = true

namespace StunRequestManager

def new : StunRequestManager where
  requests _ := none
  keyed _ _ found := nomatch found

/-- `Send` of a request whose id is not in use. -/
def send (m : StunRequestManager) (request : StunRequest)
    (valid : isValidTransactionId request.id = true) : StunRequestManager where
  requests := Function.update m.requests request.id (some request)
  keyed id other found := by
    by_cases same : id = request.id
    · subst same
      rw [Function.update_self] at found
      rw [← Option.some.inj found]
      exact ⟨rfl, valid⟩
    · rw [Function.update_of_ne same] at found
      exact m.keyed id other found

def remove (m : StunRequestManager) (request : StunRequest) : StunRequestManager where
  requests := Function.update m.requests request.id none
  keyed id other found := by
    by_cases same : id = request.id
    · rw [same, Function.update_self] at found
      exact nomatch found
    · rw [Function.update_of_ne same] at found
      exact m.keyed id other found

/-- `CheckResponse` of a message: the callback that is called, if one is, after which the request
is deleted. -/
def checkResponse (m : StunRequestManager) (msg : Message) :
    Option Callback × StunRequestManager :=
  match m.requests msg.transactionId with
  | none => (none, m)
  | some request =>
      if msg.type = responseType request.type then
        (some (.onResponse request msg), m.remove request)
      else if msg.type = errorResponseType request.type then
        (some (.onErrorResponse request msg), m.remove request)
      else (none, m)

/-- The id that `CheckResponse` of bytes looks up, from `kStunTransactionIdOffset` on. -/
def slice (data : List UInt8) : List UInt8 :=
  (data.drop 8).take transactionIdLength

/-- `CheckResponse` of bytes. -/
def checkResponseBytes (m : StunRequestManager) (data : List UInt8) :
    Option Callback × StunRequestManager :=
  if data.length < 20 then (none, m)
  else
    match m.requests (slice data) with
    | none => (none, m)
    | some _ =>
        match Message.new.read data with
        | (false, _, _) => (none, m)
        | (true, msg, _) => m.checkResponse msg

/-- The bytes are parsed, and the message is checked. -/
def checkParsed (m : StunRequestManager) (data : List UInt8) :
    Option Callback × StunRequestManager :=
  match Message.new.read data with
  | (false, _, _) => (none, m)
  | (true, msg, _) => m.checkResponse msg

/-- A message with an id of RFC 3489 answers a request, and the last twelve bytes of its id are
not the id of a request of their own. -/
structure Missed (m : StunRequestManager) (data : List UInt8) : Prop where
  parses : (Message.new.read data).1 = true
  legacy : (data.drop 4).take 4 ≠ ByteBuffer.uint32Bytes magicCookie
  unknown : m.requests (slice data) = none
  answers : ∃ request, m.requests ((data.drop 4).take 16) = some request ∧
    ((Message.new.read data).2.1.type = responseType request.type ∨
      (Message.new.read data).2.1.type = errorResponseType request.type)

theorem take_of_readBytes {count : Nat} {buf bytes rest : List UInt8}
    (read : ByteBuffer.readBytes count buf = some (bytes, rest)) : bytes = buf.take count := by
  obtain ⟨rfl, rfl⟩ := ByteBuffer.readBytes_eq_some read
  simp

/-- The id that `Read` finds. -/
theorem transactionId_of_read (fresh : Message) (data : List UInt8) :
    (fresh.read data).1 = false ∨
      20 ≤ data.length ∧ (fresh.read data).2.1.transactionId =
        Message.headerId ((data.drop 4).take 4) (slice data) := by
  unfold Message.read
  split
  · exact .inl rfl
  · next type buf1 first =>
    simp only
    split
    · exact .inl rfl
    · split
      · exact .inl rfl
      · next length buf2 second =>
        split
        · exact .inl rfl
        · next cookie buf3 third =>
          split
          · exact .inl rfl
          · next id buf4 fourth =>
            split
            · exact .inl rfl
            · obtain ⟨-, rfl⟩ := (readUInt16_takes first).trans (readUInt16_takes second)
              obtain ⟨enough, rfl⟩ := (readBytes_takes third).trans (readBytes_takes fourth)
              obtain ⟨-, rfl⟩ := readBytes_takes third
              obtain ⟨attrs, same⟩ := Message.readAttributes_msg
                (List.drop (4 + transactionIdLength) (List.drop (2 + 2) data)).length
                ⟨type, length, Message.headerId cookie id, []⟩
                (List.drop (4 + transactionIdLength) (List.drop (2 + 2) data))
              rw [same, take_of_readBytes third, take_of_readBytes fourth]
              refine .inr ⟨?_, ?_⟩
              · rw [List.length_drop] at enough
                have twelve : transactionIdLength = 12 := rfl
                omega
              · simp [slice, List.drop_drop]

theorem checkResponse_answers {m : StunRequestManager} {msg : Message} {request : StunRequest}
    (found : m.requests msg.transactionId = some request)
    (type : msg.type = responseType request.type ∨ msg.type = errorResponseType request.type) :
    (m.checkResponse msg).1.isSome = true := by
  unfold checkResponse
  rw [found]
  simp only
  split
  · rfl
  · next other => rw [if_pos (type.resolve_left other)]; rfl

theorem checkResponse_ignores {m : StunRequestManager} {msg : Message}
    (ignores : ∀ request, m.requests msg.transactionId = some request →
      msg.type ≠ responseType request.type ∧ msg.type ≠ errorResponseType request.type) :
    m.checkResponse msg = (none, m) := by
  unfold checkResponse
  split
  · rfl
  · next request found =>
    obtain ⟨response, error⟩ := ignores request found
    rw [if_neg response, if_neg error]

/-- A response given as bytes is matched, completed and removed as the message that they parse to,
unless it answers a request with an id of RFC 3489 that the twelve bytes do not lead to. -/
theorem checkResponseBytes_iff (m : StunRequestManager) (data : List UInt8) :
    m.checkResponseBytes data = m.checkParsed data ↔ ¬m.Missed data := by
  rcases isRead : Message.new.read data with ⟨parses, msg, rest⟩
  have header := transactionId_of_read Message.new data
  rw [isRead] at header
  cases parses with
  | false =>
    -- What is not parsed is matched by neither.
    have bytes : m.checkResponseBytes data = (none, m) := by
      unfold checkResponseBytes
      rw [isRead]
      split
      · rfl
      · split <;> rfl
    have parsed : m.checkParsed data = (none, m) := by
      unfold checkParsed
      rw [isRead]
    rw [bytes, parsed]
    exact ⟨fun _ missed => by simpa [isRead] using missed.parses, fun _ => rfl⟩
  | true =>
    obtain ⟨enough, id⟩ := header.resolve_left nofun
    have id : msg.transactionId = Message.headerId ((data.drop 4).take 4) (slice data) := id
    have parsed : m.checkParsed data = m.checkResponse msg := by
      unfold checkParsed
      rw [isRead]
    have bytes : m.checkResponseBytes data =
        if (m.requests (slice data)).isSome then m.checkResponse msg else (none, m) := by
      unfold checkResponseBytes
      rw [if_neg (not_lt.mpr enough), isRead]
      cases m.requests (slice data) <;> rfl
    have whole : (data.drop 4).take 4 ++ slice data = (data.drop 4).take 16 := by
      have split := List.take_add (l := data.drop 4) (i := 4) (j := 12)
      rw [List.drop_drop] at split
      exact split.symm
    rw [parsed, bytes]
    constructor
    · intro agree missed
      obtain ⟨request, found, type⟩ := missed.answers
      rw [missed.unknown, Option.isSome_none, if_neg Bool.false_ne_true] at agree
      have same : msg.transactionId = (data.drop 4).take 16 := by
        rw [id, Message.headerId, if_neg missed.legacy, whole]
      rw [isRead] at type
      have answers := checkResponse_answers (same ▸ found) type
      rw [← agree] at answers
      exact nomatch answers
    · intro caught
      split
      · rfl
      · next unknown =>
        have unknown : m.requests (slice data) = none := Option.not_isSome_iff_eq_none.mp unknown
        refine (checkResponse_ignores fun request found => ?_).symm
        rw [id] at found
        by_cases legacy : (data.drop 4).take 4 = ByteBuffer.uint32Bytes magicCookie
        · rw [Message.headerId, if_pos legacy, unknown] at found
          exact nomatch found
        · rw [Message.headerId, if_neg legacy, whole] at found
          rw [← not_or]
          intro type
          exact caught ⟨by rw [isRead], legacy, unknown, request, found, by rw [isRead]; exact type⟩

/-- A binding request with the id of a new message. -/
def legacyRequest : StunRequest :=
  ⟨emptyTransactionId, MessageType.bindingRequest⟩

/-- The response to it. -/
def legacyResponse : List UInt8 :=
  ((Message.new.setType MessageType.bindingResponse).setTransactionId emptyTransactionId).write

/-- The response is found when it is parsed, and not by its bytes. -/
theorem legacy_response_missed :
    ((new.send legacyRequest (by decide)).checkParsed legacyResponse).1.isSome = true ∧
      ((new.send legacyRequest (by decide)).checkResponseBytes legacyResponse).1 = none := by
  decide +kernel

end StunRequestManager

end Libjingle.Stun
