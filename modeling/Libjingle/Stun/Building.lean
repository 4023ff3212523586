import Libjingle.Stun.RoundTrip

/-!
# Building a message

A message is built by calls of its public methods and of those of its attributes. An attribute
stays with the caller, who can change it after `AddAttribute`; the length of the message counts
what the attribute was when it was added.
-/

namespace Libjingle.Stun

open Libjingle.Std Libjingle.Base

/-! ## Attributes and their setters -/

namespace Attribute

/-- `CreateAddress`, with the default address. -/
def createAddress (type : UInt16) : Option Attribute :=
  if type = AttributeType.mappedAddress ∨ type = AttributeType.destinationAddress ∨
      type = AttributeType.sourceAddress2 then
    some ⟨type, sizeIp4, .address .nil⟩
  else if type = AttributeType.xorMappedAddress then some ⟨type, sizeIp4, .xorAddress .nil⟩
  else none

def createUInt32 (type : UInt16) : Option Attribute :=
  if type = AttributeType.lifetime ∨ type = AttributeType.bandwidth ∨
      type = AttributeType.options then
    some ⟨type, 4, .uint32 0⟩
  else none

def createByteString (type : UInt16) : Option Attribute :=
  if type = AttributeType.username ∨ type = AttributeType.messageIntegrity ∨
      type = AttributeType.data ∨ type = AttributeType.magicCookie then
    some ⟨type, 0, .byteString []⟩
  else none

def createErrorCode : Attribute :=
  ⟨AttributeType.errorCode, 4, .errorCode 0 0 []⟩

def createUnknownAttributes : Attribute :=
  ⟨AttributeType.unknownAttributes, 0, .uint16List []⟩

/-- The factories. -/
inductive Factory where
  | address (type : UInt16)
  | uint32 (type : UInt16)
  | byteString (type : UInt16)
  | errorCode
  | unknownAttributes

def Factory.make : Factory → Option Attribute
  | .address type => createAddress type
  | .uint32 type => createUInt32 type
  | .byteString type => createByteString type
  | .errorCode => some createErrorCode
  | .unknownAttributes => some createUnknownAttributes

/-- The public setters of the classes. -/
inductive Setter where
  | setAddress (addr : SocketAddress)
  | setIp (ip : IPAddress)
  | setPort (port : BitVec 16)
  | setValue (bits : UInt32)
  | setBit (index : UInt32) (value : Bool)
  /-- `SetBytes` too, which takes the bytes as they are. -/
  | copyBytes (bytes : List UInt8)
  | setByte (index : Nat) (value : UInt8)
  | setErrorCode (code : UInt32)
  | setErrorClass (cls : UInt8)
  | setNumber (number : UInt8)
  | setReason (reason : List UInt8)
  | setType (index : Nat) (value : UInt16)
  | addType (value : UInt16)

/-- A setter of another class cannot be called. -/
def set (attr : Attribute) (setter : Setter) : Attribute :=
  match attr.value, setter with
  | .address _, .setAddress addr => { attr with length := addressLength addr, value := .address addr }
  | .address addr, .setIp ip =>
      { attr with length := addressLength { addr with ip }, value := .address { addr with ip } }
  | .address addr, .setPort port => { attr with value := .address { addr with port } }
  | .xorAddress _, .setAddress addr =>
      { attr with length := addressLength addr, value := .xorAddress addr }
  | .xorAddress addr, .setIp ip =>
      { attr with length := addressLength { addr with ip }, value := .xorAddress { addr with ip } }
  | .xorAddress addr, .setPort port => { attr with value := .xorAddress { addr with port } }
  | .uint32 _, .setValue bits => { attr with value := .uint32 bits }
  | .uint32 bits, .setBit index value =>
      let cleared := bits &&& ~~~(1 <<< index)
      { attr with value := .uint32 (if value then cleared ||| (1 <<< index) else cleared) }
  | .byteString _, .copyBytes bytes =>
      let length := UInt16.ofNat bytes.length
      { attr with length, value := .byteString (bytes.take length.toNat) }
  | .byteString bytes, .setByte index value =>
      { attr with value := .byteString (bytes.set index value) }
  | .errorCode _ _ reason, .setErrorCode code =>
      { attr with
        value := .errorCode ((code >>> 8) &&& 0x7).toUInt8 (code &&& 0xff).toUInt8 reason }
  | .errorCode _ number reason, .setErrorClass cls =>
      { attr with value := .errorCode cls number reason }
  | .errorCode cls _ reason, .setNumber number =>
      { attr with value := .errorCode cls number reason }
  | .errorCode cls number _, .setReason reason =>
      { attr with
        length := 4 + UInt16.ofNat reason.length
        value := .errorCode cls number reason }
  | .uint16List types, .setType index value =>
      { attr with value := .uint16List (types.set index value) }
  | .uint16List types, .addType value =>
      { attr with
        length := UInt16.ofNat ((types ++ [value]).length * 2)
        value := .uint16List (types ++ [value]) }
  | _, _ => attr

/-- The length goes with the value. -/
def LengthKept (attr : Attribute) : Prop :=
  match attr.value with
  | .address addr => attr.length = addressLength addr
  | .xorAddress addr => attr.length = addressLength addr
  | .uint32 _ => attr.length = 4
  | .byteString bytes => attr.length.toNat = bytes.length
  | .errorCode _ _ reason => attr.length = 4 + UInt16.ofNat reason.length
  | .uint16List types => attr.length = UInt16.ofNat (types.length * 2)

theorem lengthKept_make {made : Factory} {attr : Attribute} (is : made.make = some attr) :
    attr.LengthKept := by
  cases made with
  | address type =>
    unfold Factory.make createAddress at is
    simp only at is
    split at is
    · obtain rfl := Option.some.inj is
      rfl
    · split at is
      · obtain rfl := Option.some.inj is
        rfl
      · exact nomatch is
  | uint32 type =>
    unfold Factory.make createUInt32 at is
    simp only at is
    split at is
    · obtain rfl := Option.some.inj is
      rfl
    · exact nomatch is
  | byteString type =>
    unfold Factory.make createByteString at is
    simp only at is
    split at is
    · obtain rfl := Option.some.inj is
      rfl
    · exact nomatch is
  | errorCode =>
    obtain rfl := Option.some.inj is
    rfl
  | unknownAttributes =>
    obtain rfl := Option.some.inj is
    rfl

theorem lengthKept_set {attr : Attribute} (kept : attr.LengthKept) (setter : Setter) :
    (attr.set setter).LengthKept := by
  obtain ⟨type, length, value⟩ := attr
  cases value with
  | address addr => cases setter <;> first | exact kept | rfl
  | xorAddress addr => cases setter <;> first | exact kept | rfl
  | uint32 bits => cases setter <;> exact kept
  | errorCode cls number reason => cases setter <;> first | exact kept | rfl
  | byteString bytes =>
    cases setter with
    | copyBytes bytes =>
      have le : (UInt16.ofNat bytes.length).toNat ≤ bytes.length := by
        rw [UInt16.toNat_ofNat']
        exact Nat.mod_le _ _
      simp only [set, LengthKept, List.length_take]
      omega
    | setByte index byte =>
      simp only [set, LengthKept, List.length_set]
      exact kept
    | _ => exact kept
  | uint16List types =>
    cases setter with
    | setType index value =>
      simp only [set, LengthKept, List.length_set]
      exact kept
    | addType value => rfl
    | _ => exact kept

/-! ## The value and its length -/

/-- What `Write` emits before the padding. -/
def valueBytes (transactionId : List UInt8) (attr : Attribute) : List UInt8 :=
  match attr.value with
  | .byteString bytes => bytes.take attr.length.toNat
  | .errorCode cls number reason =>
      ByteBuffer.uint32Bytes (cls.toUInt32 <<< 8 ||| number.toUInt32) ++ reason
  | .uint16List types => types.flatMap ByteBuffer.uint16Bytes
  | _ => attr.writeValue transactionId

/-- The length field counts the value. -/
def Counted (transactionId : List UInt8) (attr : Attribute) : Prop :=
  (attr.valueBytes transactionId).length = attr.length.toNat

/-- An XOR-mapped IPv6 address is masked with an id of twelve bytes. -/
def Masked (transactionId : List UInt8) (attr : Attribute) : Prop :=
  ∀ ip port, attr.value = .xorAddress ⟨.v6 ip, port⟩ → transactionId.length = transactionIdLength

theorem length_valueBytes_le (id : List UInt8) (attr : Attribute) :
    (attr.valueBytes id).length ≤ (attr.writeValue id).length := by
  unfold valueBytes writeValue
  cases attr.value <;> simp

/-- A kept length counts the value, unless it wraps, or the value has no mask. -/
theorem counted_iff {id : List UInt8} {attr : Attribute} (kept : attr.LengthKept)
    (small : (attr.valueBytes id).length < 2 ^ 16) : attr.Counted id ↔ attr.Masked id := by
  obtain ⟨type, length, value⟩ := attr
  unfold Counted Masked
  cases value with
  | address addr =>
    refine ⟨fun _ ip port is => (by cases is), fun _ => ?_⟩
    obtain rfl : length = addressLength addr := kept
    obtain ⟨ip, port⟩ := addr
    cases ip <;> rfl
  | xorAddress addr =>
    obtain rfl : length = addressLength addr := kept
    obtain ⟨ip, port⟩ := addr
    cases ip with
    | unspec => exact ⟨fun _ ip port is => (by cases is), fun _ => rfl⟩
    | v4 ip => exact ⟨fun _ ip port is => (by cases is), fun _ => rfl⟩
    | v6 ip =>
      by_cases twelve : id.length = transactionIdLength
      · have written : (valueBytes id ⟨type, addressLength ⟨.v6 ip, port⟩,
            .xorAddress ⟨.v6 ip, port⟩⟩).length = 20 := by
          simp only [valueBytes, writeValue, xoredIp, if_pos twelve, familyByte,
            List.length_append, ByteBuffer.length_uint16Bytes, length_ipBytes_v6,
            List.length_cons, List.length_nil]
        exact ⟨fun _ _ _ _ => twelve, fun _ => written⟩
      · -- Without a mask only the family and the port are written.
        have written : (valueBytes id ⟨type, addressLength ⟨.v6 ip, port⟩,
            .xorAddress ⟨.v6 ip, port⟩⟩).length = 4 := by
          simp only [valueBytes, writeValue, xoredIp, if_neg twelve, familyByte,
            List.length_append, ByteBuffer.length_uint16Bytes, ipBytes,
            List.length_cons, List.length_nil]
        rw [written]
        exact ⟨fun counted => (by cases counted), fun masked => absurd (masked ip port rfl) twelve⟩
  | uint32 bits =>
    obtain rfl : length = 4 := kept
    exact ⟨fun _ ip port is => (by cases is), fun _ => rfl⟩
  | byteString bytes =>
    have kept : length.toNat = bytes.length := kept
    refine ⟨fun _ ip port is => (by cases is), fun _ => ?_⟩
    simp [valueBytes, kept]
  | errorCode cls number reason =>
    obtain rfl : length = 4 + UInt16.ofNat reason.length := kept
    refine ⟨fun _ ip port is => (by cases is), fun _ => ?_⟩
    simp only [valueBytes, List.length_append, ByteBuffer.length_uint32Bytes] at small ⊢
    have four : (4 : UInt16).toNat = 4 := rfl
    rw [UInt16.toNat_add, UInt16.toNat_ofNat', four]
    omega
  | uint16List types =>
    obtain rfl : length = UInt16.ofNat (types.length * 2) := kept
    refine ⟨fun _ ip port is => (by cases is), fun _ => ?_⟩
    simp only [valueBytes, length_flatMap_uint16Bytes] at small ⊢
    rw [UInt16.toNat_ofNat', Nat.mod_eq_of_lt small]

/-- What `AddAttribute` counts for a length: the padded value and its header. -/
def recordSize (length : UInt16) : Nat :=
  length.toNat + paddingLength length.toNat + 4

theorem length_write (id : List UInt8) (attr : Attribute) :
    (attr.write id).length = 4 + (attr.writeValue id).length := by
  simp [write]
  omega

theorem paddingLength_addressLength (addr : SocketAddress) :
    paddingLength (addressLength addr).toNat = 0 := by
  have unspec : paddingLength (0 : UInt16).toNat = 0 := by decide
  have ip4 : paddingLength sizeIp4.toNat = 0 := by decide
  have ip6 : paddingLength sizeIp6.toNat = 0 := by decide
  obtain ⟨ip, port⟩ := addr
  cases ip with
  | unspec => exact unspec
  | v4 ip => exact ip4
  | v6 ip => exact ip6

/-- An attribute whose length is right takes the place that is counted for its length. -/
theorem Counted.length_write {id : List UInt8} {attr : Attribute} (counted : attr.Counted id)
    (kept : attr.LengthKept) : (attr.write id).length = recordSize attr.length := by
  rw [Attribute.length_write, recordSize]
  obtain ⟨type, length, value⟩ := attr
  unfold Counted at counted
  cases value with
  | address addr =>
    have aligned : paddingLength length.toNat = 0 := by
      obtain rfl : length = addressLength addr := kept
      exact paddingLength_addressLength addr
    have value : valueBytes id ⟨type, length, .address addr⟩ =
        writeValue id ⟨type, length, .address addr⟩ := rfl
    rw [value] at counted
    rw [counted, aligned]
    omega
  | xorAddress addr =>
    have aligned : paddingLength length.toNat = 0 := by
      obtain rfl : length = addressLength addr := kept
      exact paddingLength_addressLength addr
    have value : valueBytes id ⟨type, length, .xorAddress addr⟩ =
        writeValue id ⟨type, length, .xorAddress addr⟩ := rfl
    rw [value] at counted
    rw [counted, aligned]
    omega
  | uint32 bits =>
    obtain rfl : length = 4 := kept
    have padding : paddingLength (4 : UInt16).toNat = 0 := by decide
    rw [padding]
    rfl
  | byteString bytes =>
    simp only [valueBytes, writeValue, List.length_append, length_writePadding] at counted ⊢
    omega
  | errorCode cls number reason =>
    simp only [valueBytes, writeValue, List.length_append, length_writePadding] at counted ⊢
    omega
  | uint16List types =>
    simp only [valueBytes, writeValue, List.length_append, length_writePadding] at counted ⊢
    omega

end Attribute

/-! ## The calls -/

/-- A message, and the attributes that the caller has made. The attributes of the message are
positions among these. -/
structure Builder where
  type : UInt16
  length : UInt16
  transactionId : List UInt8
  made : List Attribute
  attrs : List Nat

/-- The calls on the message and on the attributes. -/
inductive Call where
  | setType (type : UInt16)
  | setTransactionId (id : List UInt8)
  | create (factory : Attribute.Factory)
  | set (index : Nat) (setter : Attribute.Setter)
  | addAttribute (index : Nat)

namespace Builder

def new : Builder where
  type := 0
  length := 0
  transactionId := emptyTransactionId
  made := []
  attrs := []

def step (builder : Builder) : Call → Builder
  | .setType type => { builder with type }
  | .setTransactionId id =>
      if isValidTransactionId id then { builder with transactionId := id } else builder
  | .create factory => { builder with made := builder.made ++ factory.make.toList }
  | .set index setter => { builder with made := builder.made.modify index (·.set setter) }
  | .addAttribute index =>
      match builder.made[index]? with
      | none => builder
      | some attr =>
          { builder with
            attrs := builder.attrs ++ [index]
            length := builder.length + .ofNat (Attribute.recordSize attr.length) }

def run (builder : Builder) (calls : List Call) : Builder :=
  calls.foldl step builder

/-- The message as `Write` finds it. -/
def message (builder : Builder) : Message where
  type := builder.type
  length := builder.length
  transactionId := builder.transactionId
  attrs := builder.attrs.filterMap fun index => builder.made[index]?

/-- The lengths that the attributes have when they are added. -/
def addedLengths (builder : Builder) : List Call → List UInt16
  | [] => []
  | .addAttribute index :: calls =>
      (builder.made[index]?).toList.map (·.length) ++
        addedLengths (builder.step (.addAttribute index)) calls
  | call :: calls => addedLengths (builder.step call) calls

/-! ## What the calls keep -/

/-- The id is valid, and the attributes have the lengths of their values. -/
structure Kept (builder : Builder) : Prop where
  id : isValidTransactionId builder.transactionId = true
  lengths : ∀ attr ∈ builder.made, attr.LengthKept

theorem new_kept : Kept new where
  id := by decide
  lengths := fun _ mem => nomatch mem

theorem step_kept {builder : Builder} (kept : Kept builder) (call : Call) :
    Kept (builder.step call) := by
  cases call with
  | setType type => exact ⟨kept.id, kept.lengths⟩
  | setTransactionId id =>
    rw [step]
    split
    · next valid => exact ⟨valid, kept.lengths⟩
    · exact kept
  | create factory =>
    refine ⟨kept.id, fun attr mem => ?_⟩
    rcases List.mem_append.mp mem with old | new
    · exact kept.lengths attr old
    · exact Attribute.lengthKept_make (Option.mem_toList.mp new)
  | set index setter =>
    refine ⟨kept.id, fun attr mem => ?_⟩
    obtain ⟨place, there⟩ := List.mem_iff_getElem?.mp mem
    rw [step, List.getElem?_modify] at there
    obtain ⟨old, at_place, rfl⟩ := Option.map_eq_some_iff.mp there
    have before := kept.lengths old (List.mem_of_getElem? at_place)
    split
    · exact Attribute.lengthKept_set before setter
    · exact before
  | addAttribute index =>
    rw [step]
    split
    · exact kept
    · exact ⟨kept.id, kept.lengths⟩

theorem run_kept {builder : Builder} (kept : Kept builder) (calls : List Call) :
    Kept (builder.run calls) := by
  induction calls generalizing builder with
  | nil => exact kept
  | cons call calls ih => exact ih (step_kept kept call)

theorem Kept.message {builder : Builder} (kept : Kept builder) :
    ∀ attr ∈ builder.message.attrs, attr.LengthKept := by
  intro attr mem
  obtain ⟨index, -, there⟩ := List.mem_filterMap.mp mem
  exact kept.lengths attr (List.mem_of_getElem? there)

theorem toNat_length_run (builder : Builder) (calls : List Call) :
    (builder.run calls).length.toNat =
      (builder.length.toNat +
        ((addedLengths builder calls).map Attribute.recordSize).sum) % 2 ^ 16 := by
  induction calls generalizing builder with
  | nil => exact (Nat.mod_eq_of_lt builder.length.toNat_lt).symm
  | cons call calls ih =>
    have rest := ih (builder.step call)
    cases call with
    | addAttribute index =>
      rw [run, List.foldl_cons, ← run, rest, addedLengths]
      cases there : builder.made[index]? with
      | none => simp [step, there]
      | some attr =>
        simp only [step, there, UInt16.toNat_add, UInt16.toNat_ofNat', Option.toList_some,
          List.map_cons, List.map_nil, List.cons_append, List.nil_append, List.sum_cons]
        omega
    | setTransactionId id =>
      rw [run, List.foldl_cons, ← run, rest, addedLengths, step]
      · split <;> rfl
      · exact fun _ is => nomatch is
    | _ => exact rest

end Builder

/-! ## The framing -/

/-- The length of the message counts the bytes after the header of twenty bytes, and that of
each attribute its value. -/
structure Message.FramedBy (msg : Message) : Prop where
  header : msg.write.length = 20 + msg.length.toNat
  attributes : ∀ attr ∈ msg.attrs, attr.Counted msg.transactionId

/-- Each XOR-mapped IPv6 address has its mask, and the attributes are, together, as long as when
they were added. -/
structure Builder.Fits (builder : Builder) (calls : List Call) : Prop where
  masked : ∀ attr ∈ (builder.run calls).message.attrs,
    attr.Masked (builder.run calls).transactionId
  steady : ((builder.addedLengths calls).map Attribute.recordSize).sum % 2 ^ 16 =
    ((builder.run calls).message.attrs.map fun attr => Attribute.recordSize attr.length).sum %
      2 ^ 16

namespace Message

theorem length_write {msg : Message} (valid : isValidTransactionId msg.transactionId = true) :
    msg.write.length = 20 + (msg.attrs.flatMap (Attribute.write msg.transactionId)).length := by
  simp only [write, isLegacy, List.length_append, ByteBuffer.length_uint16Bytes]
  rcases of_decide_eq_true valid with length | length
  · simp [length, transactionIdLength, legacyTransactionIdLength]
  · simp [length, legacyTransactionIdLength]

theorem length_flatMap_write {id : List UInt8} {attrs : List Attribute}
    (kept : ∀ attr ∈ attrs, attr.LengthKept) (counted : ∀ attr ∈ attrs, attr.Counted id) :
    (attrs.flatMap (Attribute.write id)).length =
      (attrs.map fun attr => Attribute.recordSize attr.length).sum := by
  induction attrs with
  | nil => rfl
  | cons attr attrs ih =>
    rw [List.flatMap_cons, List.length_append, List.map_cons, List.sum_cons,
      (counted attr (List.mem_cons_self ..)).length_write (kept attr (List.mem_cons_self ..)),
      ih (fun attr mem => kept attr (List.mem_cons_of_mem _ mem))
        fun attr mem => counted attr (List.mem_cons_of_mem _ mem)]

end Message

/-- The writer frames a message exactly if its attributes have their masks and are as long as
when they were added. -/
theorem Builder.framedBy_iff_fits (calls : List Call)
    (size : (new.run calls).message.write.length ≤ 65535) :
    (new.run calls).message.FramedBy ↔ new.Fits calls := by
  have kept := run_kept new_kept calls
  have written : (new.run calls).message.write.length = _ := Message.length_write kept.id
  have counted_iff : ∀ attr ∈ (new.run calls).message.attrs,
      (attr.Counted (new.run calls).transactionId ↔ attr.Masked (new.run calls).transactionId) := by
    intro attr mem
    refine Attribute.counted_iff (kept.message attr mem) ?_
    have value := attr.length_valueBytes_le (new.run calls).transactionId
    have part := Message.length_writeValue_lt (new.run calls).transactionId mem
    have same : (new.run calls).message.transactionId = (new.run calls).transactionId := rfl
    rw [same] at written
    omega
  have length := toNat_length_run new calls
  have empty : new.length.toNat = 0 := rfl
  constructor
  · intro framed
    have total := Message.length_flatMap_write kept.message framed.attributes
    refine ⟨fun attr mem => (counted_iff attr mem).mp (framed.attributes attr mem), ?_⟩
    have header := framed.header
    have here : (new.run calls).message.length = (new.run calls).length := rfl
    rw [here] at header
    omega
  · intro fits
    have counted : ∀ attr ∈ (new.run calls).message.attrs,
        attr.Counted (new.run calls).message.transactionId := fun attr mem =>
      (counted_iff attr mem).mpr (fits.masked attr mem)
    have total := Message.length_flatMap_write kept.message counted
    have steady := fits.steady
    have here : (new.run calls).message.length = (new.run calls).length := rfl
    refine ⟨?_, counted⟩
    rw [here]
    omega

/-- A mapped address, set after it is added. -/
theorem Builder.framedBy_iff_fits_mapped :
    (new.run [.create (.address AttributeType.mappedAddress), .addAttribute 0,
      .set 0 (.setPort 7)]).message.FramedBy ↔
    new.Fits [.create (.address AttributeType.mappedAddress), .addAttribute 0,
      .set 0 (.setPort 7)] :=
  framedBy_iff_fits _ (by decide)

/-- An XOR-mapped IPv6 address within a message that keeps its first id. -/
theorem Builder.not_framedBy :
    ¬ ∀ calls : List Call, (new.run calls).message.write.length ≤ 65535 →
      (new.run calls).message.FramedBy := by
  intro framed
  have header := (framed [.create (.address AttributeType.xorMappedAddress),
    .set 0 (.setAddress ⟨.v6 1, 7⟩), .addAttribute 0] (by decide)).header
  revert header
  decide

end Libjingle.Stun
