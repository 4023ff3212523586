import Libjingle.Std.BigEndian

/-!
# `ByteBuffer`

`talk/base/bytebuffer.cc` in network order. The buffer is the list of the bytes
that have yet to be read; a read takes them from the front, or fails and takes
nothing. Writing appends.
-/

namespace Libjingle.Base.ByteBuffer

open Libjingle.Std

def readBytes (len : Nat) (buf : List UInt8) : Option (List UInt8 × List UInt8) :=
  if buf.length < len then none else some (buf.take len, buf.drop len)

def readUInt8 (buf : List UInt8) : Option (UInt8 × List UInt8) :=
  (readBytes 1 buf).map fun (bytes, rest) => (UInt8.ofNat (BigEndian.ofBytes bytes), rest)

def readUInt16 (buf : List UInt8) : Option (UInt16 × List UInt8) :=
  (readBytes 2 buf).map fun (bytes, rest) => (UInt16.ofNat (BigEndian.ofBytes bytes), rest)

def readUInt32 (buf : List UInt8) : Option (UInt32 × List UInt8) :=
  (readBytes 4 buf).map fun (bytes, rest) => (UInt32.ofNat (BigEndian.ofBytes bytes), rest)

def consume (size : Nat) (buf : List UInt8) : Option (List UInt8) :=
  if buf.length < size then none else some (buf.drop size)

def uint16Bytes (value : UInt16) : List UInt8 :=
  BigEndian.toBytes 2 value.toNat

def uint32Bytes (value : UInt32) : List UInt8 :=
  BigEndian.toBytes 4 value.toNat

@[simp] theorem length_uint16Bytes (value : UInt16) : (uint16Bytes value).length = 2 :=
  BigEndian.length_toBytes 2 _

@[simp] theorem length_uint32Bytes (value : UInt32) : (uint32Bytes value).length = 4 :=
  BigEndian.length_toBytes 4 _

/-! ## Reading what was written -/

@[simp] theorem readBytes_append (bytes rest : List UInt8) :
    readBytes bytes.length (bytes ++ rest) = some (bytes, rest) := by
  simp [readBytes]

theorem readBytes_append_of_length {bytes : List UInt8} {len : Nat} (length : bytes.length = len)
    (rest : List UInt8) : readBytes len (bytes ++ rest) = some (bytes, rest) :=
  length ▸ readBytes_append bytes rest

@[simp] theorem readUInt8_cons (byte : UInt8) (rest : List UInt8) :
    readUInt8 (byte :: rest) = some (byte, rest) := by
  simp [readUInt8, readBytes, BigEndian.ofBytes]

@[simp] theorem readUInt16_append (value : UInt16) (rest : List UInt8) :
    readUInt16 (uint16Bytes value ++ rest) = some (value, rest) := by
  have back : BigEndian.ofBytes (uint16Bytes value) = value.toNat :=
    BigEndian.ofBytes_toBytes_of_lt value.toNat_lt
  rw [readUInt16, readBytes_append_of_length (length_uint16Bytes value)]
  simp [back]

@[simp] theorem readUInt32_append (value : UInt32) (rest : List UInt8) :
    readUInt32 (uint32Bytes value ++ rest) = some (value, rest) := by
  have back : BigEndian.ofBytes (uint32Bytes value) = value.toNat :=
    BigEndian.ofBytes_toBytes_of_lt value.toNat_lt
  rw [readUInt32, readBytes_append_of_length (length_uint32Bytes value)]
  simp [back]

@[simp] theorem consume_append (bytes rest : List UInt8) :
    consume bytes.length (bytes ++ rest) = some rest := by
  simp [consume]

/-! ## What a read takes -/

theorem readBytes_eq_some {len : Nat} {buf bytes rest : List UInt8}
    (read : readBytes len buf = some (bytes, rest)) :
    buf = bytes ++ rest ∧ bytes.length = len := by
  unfold readBytes at read
  split at read
  · cases read
  · next enough =>
    cases read
    exact ⟨(List.take_append_drop len buf).symm, by simp; omega⟩

end Libjingle.Base.ByteBuffer
