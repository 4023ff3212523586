import Libjingle.Stun.Message

/-!
# What is written is read back

Each class of attributes has one lemma for its value; a message then comes back
attribute by attribute, in the order in which they were added.
-/

namespace Libjingle.Stun

open Libjingle.Std Libjingle.Base

/-! ## Padding -/

@[simp] theorem length_writePadding (length : UInt16) :
    (writePadding length).length = paddingLength length.toNat := by
  simp [writePadding]

@[simp] theorem consumePadding_append (length : UInt16) (rest : List UInt8) :
    consumePadding length (writePadding length ++ rest) = rest := by
  have consumed := ByteBuffer.consume_append (writePadding length) rest
  rw [length_writePadding] at consumed
  rw [consumePadding, consumed]
  rfl

/-! ## Addresses -/

theorem length_ipBytes_v4 (addr : BitVec 32) : (ipBytes (.v4 addr)).length = 4 :=
  BigEndian.length_toBytes 4 _

theorem length_ipBytes_v6 (addr : BitVec 128) : (ipBytes (.v6 addr)).length = 16 :=
  BigEndian.length_toBytes 16 _

theorem ofBytes_ipBytes_v4 (addr : BitVec 32) :
    BitVec.ofNat 32 (BigEndian.ofBytes (ipBytes (.v4 addr))) = addr := by
  rw [ipBytes, BigEndian.ofBytes_toBytes_of_lt addr.isLt, BitVec.ofNat_toNat, BitVec.setWidth_eq]

theorem ofBytes_ipBytes_v6 (addr : BitVec 128) :
    BitVec.ofNat 128 (BigEndian.ofBytes (ipBytes (.v6 addr))) = addr := by
  rw [ipBytes, BigEndian.ofBytes_toBytes_of_lt addr.isLt, BitVec.ofNat_toNat, BitVec.setWidth_eq]

theorem readAddress_v4 (addr : BitVec 32) (port : BitVec 16) (rest : List UInt8) :
    readAddress sizeIp4 ([0, 1] ++ ByteBuffer.uint16Bytes (.ofBitVec port) ++
      ipBytes (.v4 addr) ++ rest) = some (⟨.v4 addr, port⟩, rest) := by
  simp [readAddress, List.append_assoc, ByteBuffer.readBytes_append_of_length
    (length_ipBytes_v4 addr), ofBytes_ipBytes_v4]

theorem readAddress_v6 (addr : BitVec 128) (port : BitVec 16) (rest : List UInt8) :
    readAddress sizeIp6 ([0, 2] ++ ByteBuffer.uint16Bytes (.ofBitVec port) ++
      ipBytes (.v6 addr) ++ rest) = some (⟨.v6 addr, port⟩, rest) := by
  simp [readAddress, List.append_assoc, ByteBuffer.readBytes_append_of_length
    (length_ipBytes_v6 addr), ofBytes_ipBytes_v6]

@[simp] theorem xoredPort_xoredPort (port : BitVec 16) : xoredPort (xoredPort port) = port := by
  simp [xoredPort, BitVec.xor_assoc]

theorem xoredIp_v4 (id : List UInt8) (addr : BitVec 32) :
    xoredIp id (xoredIp id (.v4 addr)) = .v4 addr := by
  simp [xoredIp, BitVec.xor_assoc]

theorem xoredIp_v6 {id : List UInt8} (length : id.length = transactionIdLength)
    (addr : BitVec 128) : xoredIp id (xoredIp id (.v6 addr)) = .v6 addr := by
  simp [xoredIp, length, BitVec.xor_assoc]

/-! ## Lists and error codes -/

theorem length_flatMap_uint16Bytes (types : List UInt16) :
    (types.flatMap ByteBuffer.uint16Bytes).length = types.length * 2 := by
  induction types with
  | nil => rfl
  | cons type types ih =>
    simp only [List.flatMap_cons, List.length_append, ByteBuffer.length_uint16Bytes, ih,
      List.length_cons]
    omega

theorem readUInt16s_append (types : List UInt16) (rest : List UInt8) :
    readUInt16s types.length (types.flatMap ByteBuffer.uint16Bytes ++ rest) =
      some (types, rest) := by
  induction types with
  | nil => rfl
  | cons type types ih => simp [readUInt16s, List.append_assoc, ih]

theorem errorCode_toNat (cls number : UInt8) :
    (cls.toUInt32 <<< 8 ||| number.toUInt32).toNat = cls.toNat * 256 + number.toNat := by
  have small : number.toNat < 2 ^ 8 := number.toNat_lt
  have cls_lt : cls.toNat < 2 ^ 8 := cls.toNat_lt
  have shifted : (cls.toUInt32 <<< 8).toNat = 2 ^ 8 * cls.toNat := by
    simp [UInt32.toNat_shiftLeft, Nat.shiftLeft_eq]
    omega
  rw [UInt32.toNat_or, shifted, UInt8.toNat_toUInt32, ← Nat.two_pow_add_eq_or_of_lt small]
  omega

theorem errorCode_class {cls : UInt8} (lt : cls < 8) (number : UInt8) :
    (((cls.toUInt32 <<< 8 ||| number.toUInt32) >>> 8) &&& 0x7).toUInt8 = cls := by
  have small : number.toNat < 2 ^ 8 := number.toNat_lt
  have lt : cls.toNat < 8 := lt
  have code := errorCode_toNat cls number
  generalize cls.toUInt32 <<< 8 ||| number.toUInt32 = val at code ⊢
  apply UInt8.toNat.inj
  have low := Nat.and_two_pow_sub_one_eq_mod (val.toNat >>> 8) 3
  rw [UInt32.toNat_toUInt8, UInt32.toNat_and, UInt32.toNat_shiftRight]
  simp only [UInt32.reduceToNat, Nat.reduceMod]
  rw [low, Nat.shiftRight_eq_div_pow, code]
  omega

theorem errorCode_number (cls number : UInt8) :
    ((cls.toUInt32 <<< 8 ||| number.toUInt32) &&& 0xff).toUInt8 = number := by
  have small : number.toNat < 2 ^ 8 := number.toNat_lt
  have code := errorCode_toNat cls number
  generalize cls.toUInt32 <<< 8 ||| number.toUInt32 = val at code ⊢
  apply UInt8.toNat.inj
  have low := Nat.and_two_pow_sub_one_eq_mod val.toNat 8
  rw [UInt32.toNat_toUInt8, UInt32.toNat_and]
  simp only [UInt32.reduceToNat]
  rw [low, code]
  omega

/-! ## Attributes -/

/-- An attribute that a factory and its setters make, with all it needs to be written
in a message with the transaction id. -/
inductive Complete (id : List UInt8) : Attribute → Prop where
  | address {type : UInt16} {addr : SocketAddress}
      (types : type = AttributeType.mappedAddress ∨ type = AttributeType.destinationAddress ∨
        type = AttributeType.sourceAddress2)
      (set : addr.ip ≠ .unspec) : Complete id (.address type addr)
  | xorAddress {addr : SocketAddress} (set : addr.ip ≠ .unspec)
      (masked : ∀ ip, addr.ip = .v6 ip → id.length = transactionIdLength) :
      Complete id (.xorAddress addr)
  | uint32 {type : UInt16}
      (types : type = AttributeType.lifetime ∨ type = AttributeType.bandwidth ∨
        type = AttributeType.options) (bits : UInt32) : Complete id (.uint32 type bits)
  | byteString {type : UInt16}
      (types : type = AttributeType.username ∨ type = AttributeType.magicCookie ∨
        type = AttributeType.data) (bytes : List UInt8) : Complete id (.byteString type bytes)
  | messageIntegrity {bytes : List UInt8} (length : bytes.length = 20) :
      Complete id (.byteString AttributeType.messageIntegrity bytes)
  | errorCode {cls : UInt8} (lt : cls < 8) (number : UInt8) (reason : List UInt8) :
      Complete id (.errorCode cls number reason)
  | uint16List (types : List UInt16) : Complete id (.uint16List types)

/-- The value of an attribute is read back, and its length field is right. -/
structure ReadsBack (id : List UInt8) (attr : Attribute) : Prop where
  read : ∃ cls, Attribute.create attr.type attr.length = some cls ∧
    ∀ rest, Attribute.read id cls attr.type attr.length (attr.writeValue id ++ rest) =
      some (attr, rest)
  length : (attr.writeValue id).length = attr.length.toNat + paddingLength attr.length.toNat

theorem create_address {type length : UInt16}
    (types : type = AttributeType.mappedAddress ∨ type = AttributeType.destinationAddress ∨
      type = AttributeType.sourceAddress2) (size : length = sizeIp4 ∨ length = sizeIp6) :
    Attribute.create type length = some .address := by
  rw [Attribute.create, if_pos types]
  rcases size with rfl | rfl <;> rfl

theorem address_readsBack (id : List UInt8) {type : UInt16} {addr : SocketAddress}
    (types : type = AttributeType.mappedAddress ∨ type = AttributeType.destinationAddress ∨
      type = AttributeType.sourceAddress2) (set : addr.ip ≠ .unspec) :
    ReadsBack id (.address type addr) := by
  obtain ⟨ip, port⟩ := addr
  cases ip with
  | unspec => exact absurd rfl set
  | v4 ip =>
    refine ⟨⟨.address, create_address types (Or.inl rfl), fun rest => ?_⟩, ?_⟩
    · have read := readAddress_v4 ip port rest
      simp only [List.append_assoc, List.cons_append, List.nil_append] at read
      simp [Attribute.read, Attribute.address, Attribute.writeValue, familyByte, addressLength,
        read]
    · simp [Attribute.writeValue, Attribute.address, familyByte, addressLength,
        length_ipBytes_v4, sizeIp4, paddingLength]
  | v6 ip =>
    refine ⟨⟨.address, create_address types (Or.inr rfl), fun rest => ?_⟩, ?_⟩
    · have read := readAddress_v6 ip port rest
      simp only [List.append_assoc, List.cons_append, List.nil_append] at read
      simp [Attribute.read, Attribute.address, Attribute.writeValue, familyByte, addressLength,
        read]
    · simp [Attribute.writeValue, Attribute.address, familyByte, addressLength,
        length_ipBytes_v6, sizeIp6, paddingLength]

theorem xorAddress_readsBack {id : List UInt8} {addr : SocketAddress}
    (set : addr.ip ≠ .unspec)
    (masked : ∀ ip, addr.ip = .v6 ip → id.length = transactionIdLength) :
    ReadsBack id (.xorAddress addr) := by
  obtain ⟨ip, port⟩ := addr
  cases ip with
  | unspec => exact absurd rfl set
  | v4 ip =>
    have back := xoredIp_v4 id ip
    simp only [xoredIp] at back
    refine ⟨⟨.xorAddress, rfl, fun rest => ?_⟩, ?_⟩
    · have read := readAddress_v4 (ip ^^^ magicCookie.toBitVec) (xoredPort port) rest
      simp only [List.append_assoc, List.cons_append, List.nil_append] at read
      simp [Attribute.read, Attribute.xorAddress, Attribute.writeValue, familyByte, xoredIp,
        addressLength, read, BitVec.xor_assoc]
    · simp [Attribute.writeValue, Attribute.xorAddress, familyByte, addressLength, xoredIp,
        length_ipBytes_v4, sizeIp4, paddingLength]
  | v6 ip =>
    have length := masked ip rfl
    have back := xoredIp_v6 length ip
    simp only [xoredIp, length, if_true] at back
    refine ⟨⟨.xorAddress, rfl, fun rest => ?_⟩, ?_⟩
    · have read := readAddress_v6 (ip ^^^ BitVec.ofNat 128
        (BigEndian.ofBytes (ByteBuffer.uint32Bytes magicCookie ++ id))) (xoredPort port) rest
      simp only [List.append_assoc, List.cons_append, List.nil_append] at read
      simp [Attribute.read, Attribute.xorAddress, Attribute.writeValue, familyByte, xoredIp,
        length, addressLength, read, BitVec.xor_assoc]
    · simp [Attribute.writeValue, Attribute.xorAddress, familyByte, addressLength, xoredIp,
        length, length_ipBytes_v6, sizeIp6, paddingLength]

theorem uint32_readsBack (id : List UInt8) {type : UInt16}
    (types : type = AttributeType.lifetime ∨ type = AttributeType.bandwidth ∨
      type = AttributeType.options) (bits : UInt32) : ReadsBack id (.uint32 type bits) := by
  refine ⟨⟨.uint32, ?_, fun rest => ?_⟩, ?_⟩
  · rcases types with rfl | rfl | rfl <;> rfl
  · simp [Attribute.read, Attribute.uint32, Attribute.writeValue]
  · simp [Attribute.writeValue, Attribute.uint32, paddingLength]

theorem byteString_readsBack (id : List UInt8) {type : UInt16} {bytes : List UInt8}
    (created : Attribute.create type (UInt16.ofNat bytes.length) = some .byteString) :
    ReadsBack id (.byteString type bytes) := by
  have length : (bytes.take (UInt16.ofNat bytes.length).toNat).length =
      (UInt16.ofNat bytes.length).toNat := by
    simp [Nat.mod_le]
  refine ⟨⟨.byteString, created, fun rest => ?_⟩, ?_⟩
  · have read := ByteBuffer.readBytes_append_of_length length
      (writePadding (UInt16.ofNat bytes.length) ++ rest)
    simp only [Attribute.read, Attribute.byteString, Attribute.writeValue, List.take_take,
      Nat.min_self, List.append_assoc, read]
    simp
  · simp only [Attribute.writeValue, Attribute.byteString, List.take_take, Nat.min_self,
      List.length_append, length, length_writePadding]

theorem create_errorCode (length : UInt16) :
    Attribute.create AttributeType.errorCode length =
      if length < 4 then none else some .errorCode := rfl

theorem create_uint16List (length : UInt16) :
    Attribute.create AttributeType.unknownAttributes length =
      if length % 2 = 0 then some .uint16List else none := rfl

theorem errorCode_readsBack (id : List UInt8) {cls : UInt8} (lt : cls < 8) (number : UInt8)
    {reason : List UInt8} (fits : reason.length + 4 < 2 ^ 16) :
    ReadsBack id (.errorCode cls number reason) := by
  have length : (4 + UInt16.ofNat reason.length).toNat = 4 + reason.length := by
    simp [UInt16.toNat_add]
    omega
  refine ⟨⟨.errorCode, ?_, fun rest => ?_⟩, ?_⟩
  · have enough : ¬ 4 + UInt16.ofNat reason.length < 4 := by
      rw [UInt16.lt_iff_toNat_lt, length]
      exact Nat.not_lt.mpr (Nat.le_add_right 4 _)
    exact (create_errorCode _).trans (if_neg enough)
  · have read := ByteBuffer.readBytes_append reason
      (writePadding (4 + UInt16.ofNat reason.length) ++ rest)
    have size : (4 + UInt16.ofNat reason.length).toNat - 4 = reason.length := by
      rw [length, Nat.add_sub_cancel_left]
    simp only [Attribute.errorCode, Attribute.writeValue, Attribute.read, List.append_assoc,
      ByteBuffer.readUInt32_append, Option.bind_eq_bind, Option.bind_some, size, read,
      errorCode_class lt, errorCode_number, consumePadding_append]
  · simp [Attribute.writeValue, Attribute.errorCode, length, Nat.add_assoc]

theorem uint16List_readsBack (id : List UInt8) {types : List UInt16}
    (fits : types.length * 2 < 2 ^ 16) : ReadsBack id (.uint16List types) := by
  have length : (UInt16.ofNat (types.length * 2)).toNat = types.length * 2 := by
    simp
    omega
  have written := length_flatMap_uint16Bytes types
  unfold Attribute.uint16List
  generalize UInt16.ofNat (types.length * 2) = len at length ⊢
  have count : len.toNat / 2 = types.length := by omega
  refine ⟨⟨.uint16List, ?_, fun rest => ?_⟩, ?_⟩
  · have even : len % 2 = 0 := by
      apply UInt16.toNat.inj
      rw [UInt16.toNat_mod, length]
      simp
    exact (create_uint16List len).trans (if_pos even)
  · have read := readUInt16s_append types (writePadding len ++ rest)
    simp [Attribute.read, Attribute.writeValue, count, read, List.append_assoc]
  · simp only [Attribute.writeValue, List.length_append, written, length, length_writePadding]

/-- A complete attribute that fits in a message is read back. -/
theorem Complete.readsBack {id : List UInt8} {attr : Attribute} (complete : Complete id attr)
    (fits : (attr.writeValue id).length < 2 ^ 16) : ReadsBack id attr := by
  cases complete with
  | address types set => exact address_readsBack id types set
  | xorAddress set masked => exact xorAddress_readsBack set masked
  | uint32 types bits => exact uint32_readsBack id types bits
  | byteString types bytes =>
    refine byteString_readsBack id ?_
    rcases types with rfl | rfl | rfl <;> rfl
  | messageIntegrity length =>
    refine byteString_readsBack id ?_
    rw [length]
    rfl
  | errorCode lt number reason =>
    refine errorCode_readsBack id lt number ?_
    simp only [Attribute.writeValue, Attribute.errorCode, List.length_append,
      ByteBuffer.length_uint32Bytes] at fits
    omega
  | uint16List types =>
    refine uint16List_readsBack id ?_
    simp only [Attribute.writeValue, Attribute.uint16List, List.length_append,
      length_flatMap_uint16Bytes] at fits
    omega

/-- The length of an attribute in a message. -/
theorem ReadsBack.length_write {id : List UInt8} {attr : Attribute} (back : ReadsBack id attr) :
    (attr.write id).length = attr.length.toNat + paddingLength attr.length.toNat + 4 := by
  simp [Attribute.write, back.length]
  omega

/-! ## Messages -/

namespace Message

theorem readAttributes_cons {msg : Message} {attr : Attribute}
    (back : ReadsBack msg.transactionId attr) (fuel : Nat) (rest : List UInt8) :
    readAttributes (fuel + 1) msg (attr.write msg.transactionId ++ rest) =
      readAttributes fuel { msg with attrs := msg.attrs ++ [attr] } rest := by
  obtain ⟨cls, created, read⟩ := back.read
  have filled : (attr.write msg.transactionId ++ rest).isEmpty = false := by
    simp [Attribute.write, ByteBuffer.uint16Bytes, BigEndian.toBytes]
  rw [readAttributes, filled]
  simp only [Attribute.write, List.append_assoc, ByteBuffer.readUInt16_append, created, read]
  rfl

/-- The loop reads the attributes that are written, and leaves nothing. -/
theorem readAttributes_written (attrs : List Attribute) (msg : Message) (fuel : Nat)
    (back : ∀ attr ∈ attrs, ReadsBack msg.transactionId attr) (enough : attrs.length ≤ fuel) :
    readAttributes fuel msg (attrs.flatMap (Attribute.write msg.transactionId)) =
      (true, { msg with attrs := msg.attrs ++ attrs }, []) := by
  induction attrs generalizing msg fuel with
  | nil => cases fuel <;> simp [readAttributes]
  | cons attr attrs ih =>
    obtain ⟨fuel, rfl⟩ : ∃ n, fuel = n + 1 := ⟨fuel - 1, by simp at enough; omega⟩
    have rest := ih { msg with attrs := msg.attrs ++ [attr] } fuel
      (fun attr mem => back attr (List.mem_cons_of_mem _ mem)) (by simpa using enough)
    rw [List.flatMap_cons, readAttributes_cons (back attr (List.mem_cons_self ..))]
    simpa [List.append_assoc] using rest

/-- The bytes after the header. -/
def body (msg : Message) : List UInt8 :=
  msg.attrs.flatMap (Attribute.write msg.transactionId)

/-- A message with its attributes, added in this order. -/
def build (type : UInt16) (id : List UInt8) (attrs : List Attribute) : Message :=
  attrs.foldl addAttribute ((new.setType type).setTransactionId id)

theorem foldl_addAttribute (attrs : List Attribute) (msg : Message) :
    attrs.foldl addAttribute msg =
      { msg with
        attrs := msg.attrs ++ attrs
        length := attrs.foldl (fun length attr => length +
          .ofNat (attr.length.toNat + paddingLength attr.length.toNat + 4)) msg.length } := by
  induction attrs generalizing msg with
  | nil => simp
  | cons attr attrs ih =>
    rw [List.foldl_cons, ih]
    simp [addAttribute]

/-- The length of a message counts the bytes of its attributes, in 16 bits. -/
theorem foldl_length {id : List UInt8} (attrs : List Attribute) (length : UInt16)
    (back : ∀ attr ∈ attrs, ReadsBack id attr) :
    (attrs.foldl (fun length attr => length +
      .ofNat (attr.length.toNat + paddingLength attr.length.toNat + 4)) length).toNat =
      (length.toNat + (attrs.flatMap (Attribute.write id)).length) % 2 ^ 16 := by
  induction attrs generalizing length with
  | nil => simp [Nat.mod_eq_of_lt length.toNat_lt]
  | cons attr attrs ih =>
    have here := (back attr (List.mem_cons_self ..)).length_write
    rw [List.foldl_cons, ih _ fun attr mem => back attr (List.mem_cons_of_mem _ mem),
      List.flatMap_cons, List.length_append, here, UInt16.toNat_add, UInt16.toNat_ofNat']
    omega

/-- An id that a reader tells from one of the other version. -/
def Distinct (id : List UInt8) : Prop :=
  id.length = transactionIdLength ∨
    id.length = legacyTransactionIdLength ∧ id.take 4 ≠ ByteBuffer.uint32Bytes magicCookie

theorem isValidTransactionId_of_distinct {id : List UInt8} (distinct : Distinct id) :
    isValidTransactionId id = true := by
  rcases distinct with length | ⟨length, -⟩
  · simp [isValidTransactionId, length]
  · simp [isValidTransactionId, length]

theorem and_sign_eq_zero {type : UInt16} (lt : type < 0x8000) : type &&& 0x8000 = 0 := by
  have lt : type.toNat < 2 ^ 15 := lt
  apply UInt16.toNat.inj
  rw [UInt16.toNat_and]
  apply Nat.eq_of_testBit_eq
  intro bit
  have sign : (0x8000 : UInt16).toNat = 2 ^ 15 := rfl
  rw [Nat.testBit_and, sign, Nat.testBit_two_pow]
  by_cases high : 15 = bit
  · subst high
    simp [Nat.testBit_lt_two_pow lt]
  · simp [high]

/-- The places of the cookie and of the id in the header of a written message. -/
theorem header_eq {id : List UInt8} (distinct : Distinct id) :
    ∃ cookie rest, (if id.length = legacyTransactionIdLength then []
        else ByteBuffer.uint32Bytes magicCookie) ++ id = cookie ++ rest ∧
      cookie.length = 4 ∧ rest.length = transactionIdLength ∧ headerId cookie rest = id := by
  rcases distinct with length | ⟨length, different⟩
  · refine ⟨ByteBuffer.uint32Bytes magicCookie, id, ?_, rfl, length, if_pos rfl⟩
    rw [if_neg]
    rw [length]
    decide
  · refine ⟨id.take 4, id.drop 4, ?_, by simp [length, legacyTransactionIdLength],
      by simp [length, legacyTransactionIdLength, transactionIdLength], ?_⟩
    · rw [if_pos length, List.nil_append, List.take_append_drop]
    · rw [headerId, if_neg different, List.take_append_drop]

theorem length_le_flatMap_write (id : List UInt8) (attrs : List Attribute) :
    attrs.length ≤ (attrs.flatMap (Attribute.write id)).length := by
  induction attrs with
  | nil => exact Nat.le_refl 0
  | cons attr attrs ih =>
    have header : 4 ≤ (attr.write id).length := by simp [Attribute.write]; omega
    simp only [List.length_cons, List.flatMap_cons, List.length_append]
    omega

theorem length_writeValue_lt (id : List UInt8) {attrs : List Attribute} {attr : Attribute}
    (mem : attr ∈ attrs) :
    (attr.writeValue id).length < (attrs.flatMap (Attribute.write id)).length := by
  have part : (attr.write id).length ≤ (attrs.flatMap (Attribute.write id)).length :=
    (List.infix_of_mem_flatten (List.mem_map_of_mem mem)).length_le
  have header : (attr.write id).length = 4 + (attr.writeValue id).length := by
    simp [Attribute.write]
    omega
  omega

/-- A written message is read as far as its attributes, if its length field counts them. -/
theorem read_write_header (fresh msg : Message) (type : msg.type < 0x8000)
    (distinct : Distinct msg.transactionId) :
    fresh.read msg.write =
      if msg.length.toNat ≠ msg.body.length then
        (false, { msg with attrs := fresh.attrs }, msg.body)
      else readAttributes msg.body.length { msg with attrs := [] } msg.body := by
  obtain ⟨cookie, id, header, cookie_length, id_length, named⟩ := header_eq distinct
  have legacy : (if msg.isLegacy then [] else ByteBuffer.uint32Bytes magicCookie) ++
      msg.transactionId = cookie ++ id := by
    rw [← header]
    simp [isLegacy]
  have written : msg.write = ByteBuffer.uint16Bytes msg.type ++
      (ByteBuffer.uint16Bytes msg.length ++ (cookie ++ (id ++ msg.body))) := by
    rw [← List.append_assoc cookie, ← legacy]
    simp [write, body]
  rw [written]
  simp only [read, ByteBuffer.readUInt16_append, and_sign_eq_zero type,
    ByteBuffer.readBytes_append_of_length cookie_length,
    ByteBuffer.readBytes_append_of_length id_length, named, ne_eq, not_true_eq_false, if_false]

/-- A message whose length field counts its attributes is read back. -/
theorem read_write (fresh msg : Message) (type : msg.type < 0x8000)
    (distinct : Distinct msg.transactionId)
    (back : ∀ attr ∈ msg.attrs, ReadsBack msg.transactionId attr)
    (length : msg.length.toNat = msg.body.length) : fresh.read msg.write = (true, msg, []) := by
  have enough := length_le_flatMap_write msg.transactionId msg.attrs
  have attributes := readAttributes_written msg.attrs { msg with attrs := [] } msg.body.length
    back enough
  rw [List.nil_append] at attributes
  rw [read_write_header fresh msg type distinct, if_neg (not_not.mpr length)]
  exact attributes

/-- Where a written message is read at all, it is read back. -/
theorem eq_of_read_write {fresh msg parsed : Message} {rest : List UInt8}
    (type : msg.type < 0x8000) (distinct : Distinct msg.transactionId)
    (back : ∀ attr ∈ msg.attrs, ReadsBack msg.transactionId attr)
    (read : fresh.read msg.write = (true, parsed, rest)) : parsed = msg := by
  by_cases length : msg.length.toNat = msg.body.length
  · rw [read_write fresh msg type distinct back length] at read
    cases read
    rfl
  · rw [read_write_header fresh msg type distinct, if_pos length] at read
    cases read

theorem type_readAttributes (fuel : Nat) (msg : Message) (buf : List UInt8) :
    (readAttributes fuel msg buf).2.1.type = msg.type := by
  induction fuel generalizing msg buf with
  | zero => rfl
  | succ fuel ih =>
    unfold readAttributes
    repeat' split
    all_goals first | rfl | exact ih _ _

/-- Whatever else is written, the type is what is read. -/
theorem type_of_read_write {fresh msg parsed : Message} {rest : List UInt8}
    (read : fresh.read msg.write = (true, parsed, rest)) : parsed.type = msg.type := by
  have written : ∃ tail, msg.write = ByteBuffer.uint16Bytes msg.type ++ tail := by
    simp only [write, List.append_assoc]
    exact ⟨_, rfl⟩
  obtain ⟨tail, written⟩ := written
  have parsed_type : (fresh.read msg.write).2.1.type = msg.type := by
    rw [written, Message.read, ByteBuffer.readUInt16_append]
    simp only
    repeat' split
    all_goals first | rfl | exact type_readAttributes _ _ _
  rw [read] at parsed_type
  exact parsed_type

theorem build_eq (type : UInt16) {id : List UInt8} (distinct : Distinct id)
    (attrs : List Attribute) :
    ∃ length, build type id attrs = ⟨type, length, id, attrs⟩ ∧
      ((∀ attr ∈ attrs, ReadsBack id attr) →
        length.toNat = (attrs.flatMap (Attribute.write id)).length % 2 ^ 16) := by
  have start : (new.setType type).setTransactionId id = ⟨type, 0, id, []⟩ := by
    simp [setTransactionId, isValidTransactionId_of_distinct distinct, setType, new]
  rw [build, start, foldl_addAttribute attrs ⟨type, 0, id, []⟩]
  refine ⟨_, rfl, fun back => ?_⟩
  have length := foldl_length attrs 0 back
  rwa [UInt16.toNat_zero, Nat.zero_add] at length

/-- A message is read back, or not at all where it is too long for its length field. -/
theorem eq_of_read_build {type : UInt16} {id rest : List UInt8} {attrs : List Attribute}
    {parsed : Message} (type_lt : type < 0x8000) (distinct : Distinct id)
    (back : ∀ attr ∈ attrs, ReadsBack id attr)
    (read : new.read (build type id attrs).write = (true, parsed, rest)) :
    parsed.type = type ∧ parsed.transactionId = id ∧ parsed.attrs = attrs := by
  obtain ⟨length, built, -⟩ := build_eq type distinct attrs
  rw [built] at read
  have same : parsed = ⟨type, length, id, attrs⟩ :=
    eq_of_read_write type_lt distinct back read
  rw [same]
  exact ⟨rfl, rfl, rfl⟩

/-- A message that is built of complete attributes and not too long reads back. -/
theorem read_build {type : UInt16} {id : List UInt8} {attrs : List Attribute}
    (type_lt : type < 0x8000) (distinct : Distinct id) (complete : ∀ attr ∈ attrs, Complete id attr)
    (fits : (attrs.flatMap (Attribute.write id)).length ≤ 65535) :
    ∃ length, build type id attrs = ⟨type, length, id, attrs⟩ ∧
      new.read (build type id attrs).write = (true, build type id attrs, []) := by
  have back : ∀ attr ∈ attrs, ReadsBack id attr := fun attr mem =>
    (complete attr mem).readsBack (by have lt := length_writeValue_lt id mem; omega)
  obtain ⟨length, built, counts⟩ := build_eq type distinct attrs
  have exact_length := counts back
  rw [Nat.mod_eq_of_lt (by omega)] at exact_length
  refine ⟨length, built, ?_⟩
  rw [built]
  exact read_write _ _ type_lt distinct back exact_length

/-- What a message is written as is read back: its type, its id and its attributes in
their order. -/
theorem read_write_build {type : UInt16} {id : List UInt8} {attrs : List Attribute}
    (type_lt : type < 0x8000) (distinct : Distinct id) (complete : ∀ attr ∈ attrs, Complete id attr)
    (fits : (attrs.flatMap (Attribute.write id)).length ≤ 65535) :
    let msg := build type id attrs
    new.read msg.write = (true, msg, []) ∧
      msg.type = type ∧ msg.transactionId = id ∧ msg.attrs = attrs := by
  obtain ⟨length, built, read⟩ := read_build type_lt distinct complete fits
  refine ⟨read, ?_⟩
  rw [built]
  exact ⟨rfl, rfl, rfl⟩

/-- An instance with an attribute of each class. -/
theorem read_write_build_instance :
    let id := List.replicate 12 0
    let attrs := [Attribute.address AttributeType.mappedAddress ⟨.v4 0x7F000001, 80⟩,
      .xorAddress ⟨.v6 1, 80⟩, .uint32 AttributeType.lifetime 600,
      .byteString AttributeType.username [0x61, 0x62], .errorCode 4 30 [0x63],
      .uint16List [1, 2, 3]]
    let msg := build MessageType.bindingResponse id attrs
    new.read msg.write = (true, msg, []) ∧
      msg.type = MessageType.bindingResponse ∧ msg.transactionId = id ∧ msg.attrs = attrs := by
  refine read_write_build (by decide) (Or.inl rfl) (fun attr mem => ?_) (by decide)
  simp only [List.mem_cons, List.not_mem_nil, or_false] at mem
  rcases mem with rfl | rfl | rfl | rfl | rfl | rfl
  · exact .address (Or.inl rfl) nofun
  · exact .xorAddress nofun fun _ _ => rfl
  · exact .uint32 (Or.inl rfl) 600
  · exact .byteString (Or.inl rfl) _
  · exact .errorCode (by decide) 30 _
  · exact .uint16List _

end Message

end Libjingle.Stun
