import Libjingle.Base.ByteBuffer
import Mathlib.Algebra.Order.Ring.Nat
import Mathlib.Data.List.Basic

/-!
# The memory of a `ByteBuffer`

`talk/base/bytebuffer.cc` with its allocation, its offsets and its byte order. `memcpy` and
`memmove` answer nothing where they would leave the memory of a block, so that an operation that
answers has copied inside the allocations. What `new char[]` holds at first is a parameter of every
operation that allocates.
-/

namespace Libjingle.Base.ByteBuffer

open Libjingle.Std

/-- The order of the bytes of the host's integers. -/
inductive HostOrder
  | littleEndian
  | bigEndian
  deriving DecidableEq, Repr

namespace HostOrder

/-- The `count` bytes of an integer in memory. -/
def image (host : HostOrder) (count value : Nat) : List UInt8 :=
  match host with
  | .littleEndian => (BigEndian.toBytes count value).reverse
  | .bigEndian => BigEndian.toBytes count value

/-- The integer that bytes in memory are. -/
def value (host : HostOrder) (bytes : List UInt8) : Nat :=
  match host with
  | .littleEndian => BigEndian.ofBytes bytes.reverse
  | .bigEndian => BigEndian.ofBytes bytes

/-- Whether the first byte of the `int` 1 is 0. -/
def isHostBigEndian (host : HostOrder) : Bool :=
  (host.image 4 1).head? == some 0

/-- `HostToNetwork` and `NetworkToHost` of `count` bytes: the bytes in memory read as a big-endian
integer where the host is not one itself. -/
def swap (host : HostOrder) (count n : Nat) : Nat :=
  if host.isHostBigEndian then n else BigEndian.ofBytes (host.image count n)

@[simp] theorem length_image (host : HostOrder) (count n : Nat) :
    (host.image count n).length = count := by
  cases host <;> simp [image]

@[simp] theorem isHostBigEndian_littleEndian : littleEndian.isHostBigEndian = false := by
  decide

@[simp] theorem isHostBigEndian_bigEndian : bigEndian.isHostBigEndian = true := by
  decide

/-- A swapped integer lies in memory the most significant byte first. -/
theorem image_swap (host : HostOrder) (count n : Nat) :
    host.image count (host.swap count n) = BigEndian.toBytes count n := by
  cases host with
  | littleEndian =>
    have back := BigEndian.toBytes_ofBytes (BigEndian.toBytes count n).reverse
    rw [List.length_reverse, BigEndian.length_toBytes] at back
    simp [swap, image, back]
  | bigEndian => simp [swap, image]

theorem value_image {host : HostOrder} {count n : Nat} (fits : n < 256 ^ count) :
    host.value (host.image count n) = n := by
  cases host <;> simp [value, image, BigEndian.ofBytes_toBytes_of_lt fits]

theorem image_value (host : HostOrder) (bytes : List UInt8) :
    host.image bytes.length (host.value bytes) = bytes := by
  cases host with
  | littleEndian =>
    have back := BigEndian.toBytes_ofBytes bytes.reverse
    rw [List.length_reverse] at back
    simp [value, image, back]
  | bigEndian => exact BigEndian.toBytes_ofBytes bytes

/-- What lies in memory the most significant byte first is the swapped integer. -/
theorem swap_value (host : HostOrder) (bytes : List UInt8) :
    host.swap bytes.length (host.value bytes) = BigEndian.ofBytes bytes := by
  cases host with
  | littleEndian =>
    rw [swap, isHostBigEndian_littleEndian, if_neg (by decide), image_value]
  | bigEndian => rw [swap, isHostBigEndian_bigEndian, if_pos rfl, value]

end HostOrder

inductive ByteOrder
  | orderNetwork
  | orderHost
  deriving DecidableEq, Repr

/-! ## Copies between blocks -/

/-- What `new char[size]` holds. -/
def allocate (junk : Nat → UInt8) (size : Nat) : List UInt8 :=
  (List.range size).map junk

/-- The `len` bytes of a block from `offset` on. -/
def load (block : List UInt8) (offset len : Nat) : Option (List UInt8) :=
  if offset + len ≤ block.length then some ((block.drop offset).take len) else none

/-- The block with `source` from `offset` on. -/
def memcpy (block : List UInt8) (offset : Nat) (source : List UInt8) : Option (List UInt8) :=
  if offset + source.length ≤ block.length then
    some (block.take offset ++ source ++ block.drop (offset + source.length))
  else none

@[simp] theorem length_allocate (junk : Nat → UInt8) (size : Nat) :
    (allocate junk size).length = size := by
  simp [allocate]

theorem load_of_le {block : List UInt8} {offset len : Nat} (inside : offset + len ≤ block.length) :
    load block offset len = some ((block.drop offset).take len) :=
  if_pos inside

theorem memcpy_of_le {block source : List UInt8} {offset : Nat}
    (inside : offset + source.length ≤ block.length) :
    memcpy block offset source =
      some (block.take offset ++ source ++ block.drop (offset + source.length)) :=
  if_pos inside

/-! ## The buffer -/

/-- The fields of a `ByteBuffer`: `bytes` is the allocation `bytes_`, of `size_` bytes. -/
structure Storage where
  bytes : List UInt8
  size : Nat
  start : Nat
  stop : Nat
  byteOrder : ByteOrder
  deriving DecidableEq, Repr

namespace Storage

def length (b : Storage) : Nat := b.stop - b.start

def capacity (b : Storage) : Nat := b.size - b.start

/-- `Construct`; there are no bytes where the pointer is null. -/
def construct (junk : Nat → UInt8) (bytes : Option (List UInt8)) (len : Nat) (byteOrder : ByteOrder) :
    Option Storage := do
  let fresh := allocate junk len
  match bytes with
  | some source =>
      let copied ← memcpy fresh 0 (← load source 0 len)
      return { bytes := copied, size := len, start := 0, stop := len, byteOrder }
  | none => return { bytes := fresh, size := len, start := 0, stop := 0, byteOrder }

def resize (junk : Nat → UInt8) (size : Nat) (b : Storage) : Option Storage := do
  let size := if b.size < size then max size (3 * b.size / 2) else size
  let len := min (b.stop - b.start) size
  let copied ← memcpy (allocate junk size) 0 (← load b.bytes b.start len)
  return { b with bytes := copied, size, start := 0, stop := len }

def writeBytes (junk : Nat → UInt8) (val : List UInt8) (b : Storage) : Option Storage := do
  let roomy := if b.capacity < b.length + val.length then b.resize junk (b.length + val.length) else some b
  let b ← roomy
  let copied ← memcpy b.bytes b.stop val
  return { b with bytes := copied, stop := b.stop + val.length }

def writeString (junk : Nat → UInt8) (val : List UInt8) (b : Storage) : Option Storage :=
  b.writeBytes junk val

/-- `ReadBytes`, which stores nothing where it returns false. -/
def readBytes (len : Nat) (b : Storage) : Option (Option (List UInt8) × Storage) := do
  if b.length < len then
    return (none, b)
  else
    let val ← load b.bytes b.start len
    return (some val, { b with start := b.start + len })

/-- `ReadString`, which appends to `val`. -/
def readString (val : Option (List UInt8)) (len : Nat) (b : Storage) :
    Option (Bool × Option (List UInt8) × Storage) :=
  match val with
  | none => some (false, none, b)
  | some text =>
      if b.length < len then
        some (false, some text, b)
      else do
        let chunk ← load b.bytes b.start len
        return (true, some (text ++ chunk), { b with start := b.start + len })

def consume (size : Nat) (b : Storage) : Bool × Storage :=
  if b.length < size then (false, b) else (true, { b with start := b.start + size })

def shift (size : Nat) (b : Storage) : Option (Bool × Storage) :=
  if b.length < size then
    some (false, b)
  else do
    let stop := b.length - size
    let moved ← memcpy b.bytes 0 (← load b.bytes (b.start + size) stop)
    return (true, { b with bytes := moved, start := 0, stop })

/-! ### Integers

`HostToNetwork` and `NetworkToHost` are one conversion. The pointer into the four bytes of a 24-bit
value skips the byte that comes first where the most significant byte comes first. -/

/-- An integer of `count` bytes before it is stored, or after it is loaded. -/
def convert (host : HostOrder) (count n : Nat) (b : Storage) : Nat :=
  if b.byteOrder = .orderNetwork then host.swap count n else n

/-- Where the three bytes of a 24-bit value start among its four bytes. -/
def readInto24 (host : HostOrder) (b : Storage) : Nat :=
  if b.byteOrder = .orderNetwork ∨ host.isHostBigEndian then 1 else 0

def writeWord (host : HostOrder) (junk : Nat → UInt8) (count val : Nat) (b : Storage) : Option Storage :=
  b.writeBytes junk (host.image count (b.convert host count val))

def writeUInt8 (host : HostOrder) (junk : Nat → UInt8) (val : UInt8) (b : Storage) : Option Storage :=
  b.writeBytes junk (host.image 1 val.toNat)

def writeUInt16 (host : HostOrder) (junk : Nat → UInt8) (val : UInt16) (b : Storage) : Option Storage :=
  b.writeWord host junk 2 val.toNat

def writeUInt24 (host : HostOrder) (junk : Nat → UInt8) (val : UInt32) (b : Storage) : Option Storage := do
  let v := host.image 4 (b.convert host 4 val.toNat)
  b.writeBytes junk (← load v (b.readInto24 host) 3)

def writeUInt32 (host : HostOrder) (junk : Nat → UInt8) (val : UInt32) (b : Storage) : Option Storage :=
  b.writeWord host junk 4 val.toNat

def writeUInt64 (host : HostOrder) (junk : Nat → UInt8) (val : UInt64) (b : Storage) : Option Storage :=
  b.writeWord host junk 8 val.toNat

/-- A read of `count` bytes into the integer that `val` points at. -/
def readWord {α : Type} (count : Nat) (decode : List UInt8 → Option α) (val : Option α) (b : Storage) :
    Option (Bool × Option α × Storage) :=
  match val with
  | none => some (false, none, b)
  | some old => do
      match ← b.readBytes count with
      | (none, b) => return (false, some old, b)
      | (some bytes, b) => return (true, ← (decode bytes).map some, b)

def readUInt8 (host : HostOrder) (val : Option UInt8) (b : Storage) :
    Option (Bool × Option UInt8 × Storage) :=
  b.readWord 1 (fun bytes => some (.ofNat (host.value bytes))) val

def readUInt16 (host : HostOrder) (val : Option UInt16) (b : Storage) :
    Option (Bool × Option UInt16 × Storage) :=
  b.readWord 2 (fun bytes => some (.ofNat (b.convert host 2 (host.value bytes)))) val

/-- The three bytes of a 24-bit value are read into a zero. -/
def word24 (host : HostOrder) (bytes : List UInt8) (b : Storage) : Option Nat := do
  let v ← memcpy (host.image 4 0) (b.readInto24 host) bytes
  return b.convert host 4 (host.value v)

def readUInt24 (host : HostOrder) (val : Option UInt32) (b : Storage) :
    Option (Bool × Option UInt32 × Storage) :=
  b.readWord 3 (fun bytes => (b.word24 host bytes).map .ofNat) val

def readUInt32 (host : HostOrder) (val : Option UInt32) (b : Storage) :
    Option (Bool × Option UInt32 × Storage) :=
  b.readWord 4 (fun bytes => some (.ofNat (b.convert host 4 (host.value bytes)))) val

def readUInt64 (host : HostOrder) (val : Option UInt64) (b : Storage) :
    Option (Bool × Option UInt64 × Storage) :=
  b.readWord 8 (fun bytes => some (.ofNat (b.convert host 8 (host.value bytes)))) val

/-! ## What the memory holds -/

/-- The bytes that have been written and not taken. -/
def content (b : Storage) : List UInt8 := (b.bytes.drop b.start).take b.length

/-- The offsets lie in order inside the allocation. -/
structure Sound (b : Storage) : Prop where
  size : b.bytes.length = b.size
  start : b.start ≤ b.stop
  stop : b.stop ≤ b.size

/-- An operation copies inside the allocations, and leaves a sound buffer with these bytes. -/
def Becomes (made : Option Storage) (byteOrder : ByteOrder) (content : List UInt8) : Prop :=
  ∃ b, made = some b ∧ b.Sound ∧ b.byteOrder = byteOrder ∧ b.content = content

variable {b : Storage}

theorem Sound.length_content (sound : b.Sound) : b.content.length = b.length := by
  have size := sound.size
  have stop := sound.stop
  simp only [content, length, List.length_take, List.length_drop]
  omega

/-- Bytes that are copied to the front of a block. -/
theorem memcpy_front {block source : List UInt8} (fits : source.length ≤ block.length) :
    ∃ copied, memcpy block 0 source = some copied ∧ copied.length = block.length ∧
      copied.take source.length = source := by
  refine ⟨_, memcpy_of_le (by omega), ?_, ?_⟩
  · simp only [List.take_zero, List.nil_append, List.length_append, List.length_drop]
    omega
  · simp

theorem construct_spec (junk : Nat → UInt8) {bytes : Option (List UInt8)} {len : Nat}
    (byteOrder : ByteOrder) (enough : ∀ source ∈ bytes, len ≤ source.length) :
    Becomes (construct junk bytes len byteOrder) byteOrder ((bytes.getD []).take len) := by
  cases bytes with
  | none =>
    exact ⟨_, rfl, ⟨length_allocate junk len, le_refl 0, Nat.zero_le len⟩, rfl, by simp [content, length]⟩
  | some source =>
    have fits := enough source rfl
    have loaded : load source 0 len = some (source.take len) := by
      rw [load_of_le (by omega), List.drop_zero]
    have taken : (source.take len).length = len := List.length_take_of_le fits
    obtain ⟨copied, made, allocated, front⟩ := @memcpy_front (allocate junk len) (source.take len) (by simp)
    rw [length_allocate] at allocated
    rw [taken] at front
    refine ⟨{ bytes := copied, size := len, start := 0, stop := len, byteOrder }, ?_,
      ⟨allocated, Nat.zero_le len, le_refl len⟩, rfl, ?_⟩
    · simp only [construct, loaded, Option.bind_eq_bind, Option.bind_some, made]
      rfl
    · simpa [content, length] using front

/-- A resize drops what lies behind the new size, and takes the bytes to the front. -/
theorem resize_spec (sound : b.Sound) (junk : Nat → UInt8) (size : Nat) :
    ∃ c, b.resize junk size = some c ∧ c.Sound ∧ c.byteOrder = b.byteOrder ∧
      c.content = b.content.take size ∧ c.start = 0 ∧ size ≤ c.size := by
  obtain ⟨allocated, startInside, stopInside⟩ := sound
  obtain ⟨grown, grows, large⟩ : ∃ grown,
      (if b.size < size then max size (3 * b.size / 2) else size) = grown ∧
        (grown = size ∨ b.size < size ∧ size ≤ grown) := by
    refine ⟨_, rfl, ?_⟩
    split
    · next more => exact .inr ⟨more, le_max_left _ _⟩
    · exact .inl rfl
  have atLeast : size ≤ grown := by omega
  obtain ⟨len, isLen⟩ : ∃ len, min (b.stop - b.start) grown = len := ⟨_, rfl⟩
  have loaded : load b.bytes b.start len = some ((b.bytes.drop b.start).take len) :=
    load_of_le (by omega)
  have taken : ((b.bytes.drop b.start).take len).length = len := by
    rw [List.length_take, List.length_drop]
    omega
  obtain ⟨copied, made, copiedLength, front⟩ :=
    @memcpy_front (allocate junk grown) _ (taken.trans_le (by rw [length_allocate]; omega))
  rw [length_allocate] at copiedLength
  rw [taken] at front
  refine ⟨{ b with bytes := copied, size := grown, start := 0, stop := len },
    ?_, ⟨copiedLength, Nat.zero_le _, by dsimp only; omega⟩, rfl, ?_, rfl, atLeast⟩
  · simp only [resize, grows, isLen, loaded, Option.bind_eq_bind, Option.bind_some, made]
    rfl
  · simp only [content, length, List.drop_zero, Nat.sub_zero]
    rw [front, List.take_take]
    congr 1
    omega

theorem writeBytes_spec (sound : b.Sound) (junk : Nat → UInt8) (val : List UInt8) :
    Becomes (b.writeBytes junk val) b.byteOrder (b.content ++ val) := by
  -- After the resize there is room behind the end.
  obtain ⟨c, resized, roomy, order, same, room⟩ : ∃ c,
      (if b.capacity < b.length + val.length then b.resize junk (b.length + val.length)
        else some b) = some c ∧ c.Sound ∧ c.byteOrder = b.byteOrder ∧ c.content = b.content ∧
        c.stop + val.length ≤ c.size := by
    have counted := sound.length_content
    split
    · obtain ⟨c, resized, roomy, order, kept, front, large⟩ :=
        resize_spec sound junk (b.length + val.length)
      have same : c.content = b.content := by
        rw [kept, List.take_of_length_le (by omega)]
      have stop := roomy.length_content
      rw [same, counted, length, length, front] at stop
      exact ⟨c, resized, roomy, order, same, by rw [length] at large; omega⟩
    · next enough =>
      have start := sound.start
      have stop := sound.stop
      rw [capacity, length] at enough
      exact ⟨b, rfl, sound, rfl, rfl, by omega⟩
  obtain ⟨allocated, startInside, stopInside⟩ := roomy
  have made : memcpy c.bytes c.stop val = some _ := memcpy_of_le (by omega)
  refine ⟨{ c with bytes := c.bytes.take c.stop ++ val ++ c.bytes.drop (c.stop + val.length)
                   stop := c.stop + val.length }, ?_, ⟨?_, by dsimp only; omega, by dsimp only; omega⟩,
    order, ?_⟩
  · simp only [writeBytes, resized, Option.bind_eq_bind, Option.bind_some, made]
    rfl
  · simp only [List.length_append, List.length_take, List.length_drop]
    omega
  · have front : (c.bytes.take c.stop).length = c.stop := List.length_take_of_le (by omega)
    rw [← same]
    simp only [content, length]
    rw [List.append_assoc, List.drop_append_of_le_length (by omega), List.drop_take,
      ← List.append_assoc, List.take_append_of_le_length
        (by simp only [List.length_append, List.length_take, List.length_drop]; omega),
      List.take_of_length_le
        (by simp only [List.length_append, List.length_take, List.length_drop]; omega)]

theorem Sound.advance (sound : b.Sound) {count : Nat} (fits : count ≤ b.length) :
    Storage.Sound { b with start := b.start + count } ∧
      Storage.content { b with start := b.start + count } = b.content.drop count := by
  have start := sound.start
  rw [length] at fits
  refine ⟨⟨sound.size, by dsimp only; omega, sound.stop⟩, ?_⟩
  simp only [content, length, List.drop_take, List.drop_drop]
  congr 1
  omega

/-- Bytes are taken from the front where there are enough, and nothing happens otherwise. -/
theorem readBytes_spec (sound : b.Sound) (len : Nat) :
    if b.content.length < len then b.readBytes len = some (none, b)
    else ∃ c, b.readBytes len = some (some (b.content.take len), c) ∧ c.Sound ∧
      c.byteOrder = b.byteOrder ∧ c.content = b.content.drop len := by
  rw [sound.length_content]
  split
  · next short => rw [readBytes, if_pos short]; rfl
  · next enough =>
    have fits : len ≤ b.length := not_lt.mp enough
    have advanced := sound.advance fits
    have inside : b.start + len ≤ b.bytes.length := by
      have size := sound.size
      have start := sound.start
      have stop := sound.stop
      rw [length] at fits
      omega
    refine ⟨{ b with start := b.start + len }, ?_, advanced.1, rfl, advanced.2⟩
    rw [readBytes, if_neg enough, load_of_le inside, content, List.take_take, Nat.min_eq_left fits]
    rfl

theorem consume_spec (sound : b.Sound) (size : Nat) :
    if b.content.length < size then b.consume size = (false, b)
    else ∃ c, b.consume size = (true, c) ∧ c.Sound ∧ c.byteOrder = b.byteOrder ∧
      c.content = b.content.drop size := by
  rw [sound.length_content]
  split
  · next short => rw [consume, if_pos short]
  · next enough =>
    have advanced := sound.advance (not_lt.mp enough)
    exact ⟨_, if_neg enough, advanced.1, rfl, advanced.2⟩

theorem shift_spec (sound : b.Sound) (size : Nat) :
    if b.content.length < size then b.shift size = some (false, b)
    else ∃ c, b.shift size = some (true, c) ∧ c.Sound ∧ c.byteOrder = b.byteOrder ∧
      c.content = b.content.drop size := by
  rw [sound.length_content]
  split
  · next short => rw [shift, if_pos short]
  · next enough =>
    obtain ⟨allocated, startInside, stopInside⟩ := sound
    obtain ⟨stop, isStop⟩ : ∃ stop, b.length - size = stop := ⟨_, rfl⟩
    have spans : size + stop = b.stop - b.start := by
      rw [length] at enough isStop
      omega
    have loaded : load b.bytes (b.start + size) stop = some ((b.bytes.drop (b.start + size)).take stop) :=
      load_of_le (by omega)
    have taken : ((b.bytes.drop (b.start + size)).take stop).length = stop := by
      rw [List.length_take, List.length_drop]
      omega
    obtain ⟨moved, made, movedLength, front⟩ := @memcpy_front b.bytes _ (taken.trans_le (by omega))
    rw [taken] at front
    refine ⟨{ b with bytes := moved, start := 0, stop := stop }, ?_,
      ⟨movedLength.trans allocated, Nat.zero_le stop, by dsimp only; omega⟩, rfl, ?_⟩
    · simp only [shift, if_neg enough, isStop, loaded, Option.bind_eq_bind, Option.bind_some, made]
      rfl
    · simp only [content, length, List.drop_zero, Nat.sub_zero]
      rw [front, List.drop_take, List.drop_drop]
      congr 1
      omega

end Storage

/-! ## The bytes of an integer -/

/-- The `count` bytes of an integer in the order of a buffer. -/
def wordImage (host : HostOrder) (byteOrder : ByteOrder) (count n : Nat) : List UInt8 :=
  if byteOrder = .orderNetwork then BigEndian.toBytes count n else host.image count n

/-- The integer that bytes in the order of a buffer are. -/
def wordValue (host : HostOrder) (byteOrder : ByteOrder) (bytes : List UInt8) : Nat :=
  if byteOrder = .orderNetwork then BigEndian.ofBytes bytes else host.value bytes

@[simp] theorem length_wordImage (host : HostOrder) (byteOrder : ByteOrder) (count n : Nat) :
    (wordImage host byteOrder count n).length = count := by
  unfold wordImage
  split <;> simp

theorem wordValue_wordImage {host : HostOrder} {byteOrder : ByteOrder} {count n : Nat}
    (fits : n < 256 ^ count) : wordValue host byteOrder (wordImage host byteOrder count n) = n := by
  unfold wordValue wordImage
  split
  · exact BigEndian.ofBytes_toBytes_of_lt fits
  · exact HostOrder.value_image fits

namespace Storage

variable {b : Storage} (host : HostOrder)

theorem image_convert (count n : Nat) :
    host.image count (b.convert host count n) = wordImage host b.byteOrder count n := by
  unfold convert wordImage
  split
  · exact host.image_swap count n
  · rfl

theorem convert_value (bytes : List UInt8) :
    b.convert host bytes.length (host.value bytes) = wordValue host b.byteOrder bytes := by
  unfold convert wordValue
  split
  · exact host.swap_value bytes
  · rfl

/-- The three bytes of a 24-bit value are the last three of four where the most significant byte comes
first, and the first three otherwise. -/
theorem load_image24 (n : Nat) :
    load (host.image 4 (b.convert host 4 n)) (b.readInto24 host) 3 =
      some (wordImage host b.byteOrder 3 n) := by
  rw [image_convert]
  unfold readInto24 wordImage
  by_cases network : b.byteOrder = .orderNetwork
  · simp only [network, if_true, true_or]
    simp [load, BigEndian.toBytes]
  · cases host <;> simp [network, load, HostOrder.image, BigEndian.toBytes]

theorem word24_eq {bytes : List UInt8} (three : bytes.length = 3) :
    b.word24 host bytes = some (wordValue host b.byteOrder bytes) := by
  obtain ⟨x, y, z, rfl⟩ := List.length_eq_three.mp three
  have zeros : host.image 4 0 = [0, 0, 0, 0] := by cases host <;> decide
  by_cases first : b.byteOrder = .orderNetwork ∨ host.isHostBigEndian
  · have value := convert_value (b := b) host [0, x, y, z]
    have copied : memcpy (host.image 4 0) 1 [x, y, z] = some [0, x, y, z] := by
      rw [zeros]
      rfl
    simp only [word24, readInto24, if_pos first, copied, Option.bind_eq_bind, Option.bind_some]
    rw [show (4 : Nat) = [0, x, y, z].length from rfl, value]
    unfold wordValue
    obtain network | big := first
    · simp [network, BigEndian.ofBytes]
    · cases host
      · simp at big
      · simp [HostOrder.value, BigEndian.ofBytes]
  · have value := convert_value (b := b) host [x, y, z, 0]
    have copied : memcpy (host.image 4 0) 0 [x, y, z] = some [x, y, z, 0] := by
      rw [zeros]
      rfl
    simp only [word24, readInto24, if_neg first, copied, Option.bind_eq_bind, Option.bind_some]
    rw [show (4 : Nat) = [x, y, z, 0].length from rfl, value]
    rw [not_or] at first
    unfold wordValue
    cases host
    · simp [first.1, HostOrder.value, BigEndian.ofBytes]
    · simp at first

end Storage

end Libjingle.Base.ByteBuffer
