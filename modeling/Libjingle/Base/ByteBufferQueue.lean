import Libjingle.Base.ByteBufferMemory
import Mathlib.Algebra.Order.Ring.Nat

/-!
# `ByteBuffer` as a queue

The operations of a buffer on its memory, next to the same operations on the bytes alone. The memory
follows the queue through every run, whatever new allocations hold.
-/

namespace Libjingle.Base.ByteBuffer

/-- The operations of a buffer. A read has what its pointer points at, if it is not null. -/
inductive Call
  | writeUInt8 (val : UInt8)
  | writeUInt16 (val : UInt16)
  | writeUInt24 (val : UInt32)
  | writeUInt32 (val : UInt32)
  | writeUInt64 (val : UInt64)
  | writeString (val : List UInt8)
  | writeBytes (val : List UInt8)
  | readUInt8 (val : Option UInt8)
  | readUInt16 (val : Option UInt16)
  | readUInt24 (val : Option UInt32)
  | readUInt32 (val : Option UInt32)
  | readUInt64 (val : Option UInt64)
  | readString (val : Option (List UInt8)) (len : Nat)
  | readBytes (len : Nat)
  | consume (size : Nat)
  | shift (size : Nat)
  | resize (size : Nat)

/-- What an operation returns, and what its pointer points at then. -/
inductive Answer
  | done
  | uint8 (ok : Bool) (val : Option UInt8)
  | uint16 (ok : Bool) (val : Option UInt16)
  | uint24 (ok : Bool) (val : Option UInt32)
  | uint32 (ok : Bool) (val : Option UInt32)
  | uint64 (ok : Bool) (val : Option UInt64)
  | string (ok : Bool) (val : Option (List UInt8))
  | bytes (val : Option (List UInt8))
  | result (ok : Bool)
  deriving DecidableEq, Repr

/-- An operation on the memory; nothing where a copy would leave it. -/
def Storage.call (host : HostOrder) (junk : Nat → UInt8) (b : Storage) :
    Call → Option (Answer × Storage)
  | .writeUInt8 val => (b.writeUInt8 host junk val).map (.done, ·)
  | .writeUInt16 val => (b.writeUInt16 host junk val).map (.done, ·)
  | .writeUInt24 val => (b.writeUInt24 host junk val).map (.done, ·)
  | .writeUInt32 val => (b.writeUInt32 host junk val).map (.done, ·)
  | .writeUInt64 val => (b.writeUInt64 host junk val).map (.done, ·)
  | .writeString val => (b.writeString junk val).map (.done, ·)
  | .writeBytes val => (b.writeBytes junk val).map (.done, ·)
  | .readUInt8 val => (b.readUInt8 host val).map fun r => (.uint8 r.1 r.2.1, r.2.2)
  | .readUInt16 val => (b.readUInt16 host val).map fun r => (.uint16 r.1 r.2.1, r.2.2)
  | .readUInt24 val => (b.readUInt24 host val).map fun r => (.uint24 r.1 r.2.1, r.2.2)
  | .readUInt32 val => (b.readUInt32 host val).map fun r => (.uint32 r.1 r.2.1, r.2.2)
  | .readUInt64 val => (b.readUInt64 host val).map fun r => (.uint64 r.1 r.2.1, r.2.2)
  | .readString val len => (b.readString val len).map fun r => (.string r.1 r.2.1, r.2.2)
  | .readBytes len => (b.readBytes len).map fun r => (.bytes r.1, r.2)
  | .consume size => some (.result (b.consume size).1, (b.consume size).2)
  | .shift size => (b.shift size).map fun r => (.result r.1, r.2)
  | .resize size => (b.resize junk size).map (.done, ·)

/-- Operations in a row, each with what its new allocation holds. -/
def Storage.run (host : HostOrder) : List ((Nat → UInt8) × Call) → Storage → Option (List Answer × Storage)
  | [], b => some ([], b)
  | (junk, call) :: rest, b => do
      let (answer, b) ← b.call host junk call
      let (answers, b) ← run host rest b
      return (answer :: answers, b)

/-! ## The queue -/

/-- The bytes that an operation writes. -/
def Call.appends (host : HostOrder) (byteOrder : ByteOrder) : Call → List UInt8
  | .writeUInt8 val => [val]
  | .writeUInt16 val => wordImage host byteOrder 2 val.toNat
  | .writeUInt24 val => wordImage host byteOrder 3 val.toNat
  | .writeUInt32 val => wordImage host byteOrder 4 val.toNat
  | .writeUInt64 val => wordImage host byteOrder 8 val.toNat
  | .writeString val => val
  | .writeBytes val => val
  | _ => []

/-- How many bytes an operation asks for. -/
def Call.asks : Call → Nat
  | .readUInt8 _ => 1
  | .readUInt16 _ => 2
  | .readUInt24 _ => 3
  | .readUInt32 _ => 4
  | .readUInt64 _ => 8
  | .readString _ len => len
  | .readBytes len => len
  | .consume size => size
  | .shift size => size
  | _ => 0

/-- Whether an operation reads through a null pointer. -/
def Call.isNull : Call → Bool
  | .readUInt8 val => val.isNone
  | .readUInt16 val => val.isNone
  | .readUInt24 val => val.isNone
  | .readUInt32 val => val.isNone
  | .readUInt64 val => val.isNone
  | .readString val _ => val.isNone
  | _ => false

/-- The answer where nothing is taken. -/
def Call.refusal : Call → Answer
  | .readUInt8 val => .uint8 false val
  | .readUInt16 val => .uint16 false val
  | .readUInt24 val => .uint24 false val
  | .readUInt32 val => .uint32 false val
  | .readUInt64 val => .uint64 false val
  | .readString val _ => .string false val
  | .readBytes _ => .bytes none
  | .consume _ => .result false
  | .shift _ => .result false
  | _ => .done

/-- The answer where `bytes` are taken. -/
def Call.success (host : HostOrder) (byteOrder : ByteOrder) (bytes : List UInt8) : Call → Answer
  | .readUInt8 _ => .uint8 true (some (.ofNat (wordValue host byteOrder bytes)))
  | .readUInt16 _ => .uint16 true (some (.ofNat (wordValue host byteOrder bytes)))
  | .readUInt24 _ => .uint24 true (some (.ofNat (wordValue host byteOrder bytes)))
  | .readUInt32 _ => .uint32 true (some (.ofNat (wordValue host byteOrder bytes)))
  | .readUInt64 _ => .uint64 true (some (.ofNat (wordValue host byteOrder bytes)))
  | .readString val _ => .string true (val.map (· ++ bytes))
  | .readBytes _ => .bytes (some bytes)
  | .consume _ => .result true
  | .shift _ => .result true
  | _ => .done

/-- Whether an operation takes what it asks for out of `length` bytes. -/
def Call.Takes (call : Call) (length : Nat) : Prop :=
  call.isNull = false ∧ call.asks ≤ length

instance Call.decidableTakes (call : Call) (length : Nat) : Decidable (call.Takes length) :=
  inferInstanceAs (Decidable (_ ∧ _))

/-- What an operation leaves of the bytes. -/
def Call.leaves (q : List UInt8) : Call → List UInt8
  | .resize size => q.take size
  | call => q.drop call.asks

/-- An operation on a queue of bytes. -/
def Call.serve (host : HostOrder) (byteOrder : ByteOrder) (call : Call) (q : List UInt8) :
    Answer × List UInt8 :=
  if call.Takes q.length then
    (call.success host byteOrder (q.take call.asks), call.leaves q ++ call.appends host byteOrder)
  else (call.refusal, q)

/-! ## The memory follows the queue -/

namespace Storage

variable {b : Storage} {host : HostOrder} {byteOrder : ByteOrder} {q : List UInt8}

/-- A sound buffer with these bytes. -/
structure Holds (b : Storage) (byteOrder : ByteOrder) (q : List UInt8) : Prop where
  sound : b.Sound
  byteOrder : b.byteOrder = byteOrder
  content : b.content = q

/-- An operation answers and leaves the memory as the queue says. -/
def Follows (made : Option (Answer × Storage)) (byteOrder : ByteOrder) (expected : Answer × List UInt8) : Prop :=
  ∃ c, made = some (expected.1, c) ∧ c.Holds byteOrder expected.2

theorem Becomes.follows {made : Option Storage} (becomes : Becomes made byteOrder q) :
    Follows (made.map (Answer.done, ·)) byteOrder (.done, q) := by
  obtain ⟨c, rfl, sound, order, content⟩ := becomes
  exact ⟨c, rfl, sound, order, content⟩

theorem Holds.write (holds : b.Holds byteOrder q) (junk : Nat → UInt8) (val : List UInt8) :
    Follows ((b.writeBytes junk val).map (Answer.done, ·)) byteOrder (.done, q ++ val) := by
  obtain ⟨sound, rfl, rfl⟩ := holds
  exact (writeBytes_spec sound junk val).follows

theorem Holds.writeWord (holds : b.Holds byteOrder q) (junk : Nat → UInt8) (count val : Nat) :
    Follows ((b.writeWord host junk count val).map (Answer.done, ·)) byteOrder
      (.done, q ++ wordImage host byteOrder count val) := by
  rw [Storage.writeWord, image_convert, holds.byteOrder]
  exact holds.write junk _

theorem Holds.writeUInt24 (holds : b.Holds byteOrder q) (junk : Nat → UInt8) (val : UInt32) :
    Follows ((b.writeUInt24 host junk val).map (Answer.done, ·)) byteOrder
      (.done, q ++ wordImage host byteOrder 3 val.toNat) := by
  simp only [Storage.writeUInt24, load_image24, Option.bind_eq_bind, Option.bind_some, holds.byteOrder]
  exact holds.write junk _

/-- A read of an integer follows the queue where its bytes are decoded. -/
theorem Holds.readWord {α : Type} {decode : List UInt8 → Option α} (holds : b.Holds byteOrder q)
    (count : Nat) (value : List UInt8 → α) (answer : Bool → Option α → Answer) (val : Option α)
    (decodes : ∀ bytes, bytes.length = count → decode bytes = some (value bytes)) :
    Follows ((b.readWord count decode val).map fun r => (answer r.1 r.2.1, r.2.2)) byteOrder
      (if val.isNone = false ∧ count ≤ q.length then
        (answer true (some (value (q.take count))), q.drop count) else (answer false val, q)) := by
  cases val with
  | none => exact ⟨b, by simp [Storage.readWord], holds⟩
  | some old =>
    obtain ⟨sound, rfl, rfl⟩ := holds
    have read := readBytes_spec sound count
    split at read
    · next short =>
      rw [if_neg fun takes => absurd takes.2 (not_le.mpr short)]
      exact ⟨b, by simp [Storage.readWord, read], sound, rfl, rfl⟩
    · next enough =>
      obtain ⟨c, read, sound', order, rest⟩ := read
      rw [if_pos ⟨rfl, not_lt.mp enough⟩]
      have decoded := decodes (b.content.take count) (List.length_take_of_le (not_lt.mp enough))
      exact ⟨c, by simp [Storage.readWord, read, decoded], sound', order, rest⟩

/-- An operation that asks for nothing is served. -/
theorem serve_of_asks_zero {call : Call} (asks : call.asks = 0) (given : call.isNull = false) :
    call.serve host byteOrder q =
      (call.success host byteOrder [], call.leaves q ++ call.appends host byteOrder) := by
  rw [Call.serve, if_pos ⟨given, asks ▸ Nat.zero_le _⟩, asks, List.take_zero]

/-- An operation that writes nothing. -/
theorem serve_of_appends_nil {call : Call} (appends : call.appends host byteOrder = []) :
    call.serve host byteOrder q =
      if call.isNull = false ∧ call.asks ≤ q.length then
        (call.success host byteOrder (q.take call.asks), call.leaves q)
      else (call.refusal, q) := by
  rw [Call.serve, appends, List.append_nil]
  rfl

theorem Holds.readString (holds : b.Holds byteOrder q) (val : Option (List UInt8)) (len : Nat) :
    Follows ((b.readString val len).map fun r => (Answer.string r.1 r.2.1, r.2.2)) byteOrder
      (if val.isNone = false ∧ len ≤ q.length then
        (.string true (val.map (· ++ q.take len)), q.drop len) else (.string false val, q)) := by
  cases val with
  | none => exact ⟨b, by simp [Storage.readString], holds⟩
  | some text =>
    obtain ⟨sound, rfl, rfl⟩ := holds
    have read := readBytes_spec sound len
    rw [Storage.readBytes, ← sound.length_content] at read
    rw [Storage.readString, ← sound.length_content]
    split at read
    · next short =>
      rw [if_pos short, if_neg fun takes => absurd takes.2 (not_le.mpr short)]
      exact ⟨b, rfl, sound, rfl, rfl⟩
    · next enough =>
      obtain ⟨c, read, sound', order, rest⟩ := read
      rw [if_neg enough, if_pos ⟨rfl, not_lt.mp enough⟩]
      obtain ⟨chunk, loaded, made⟩ := Option.bind_eq_some_iff.mp read
      cases made
      exact ⟨_, by rw [loaded]; rfl, sound', order, rest⟩

variable (host) in
/-- Every operation copies inside the allocations, and follows the queue. -/
theorem Holds.call (holds : b.Holds byteOrder q) (junk : Nat → UInt8) (call : Call) :
    Follows (b.call host junk call) byteOrder (call.serve host byteOrder q) := by
  have converts (count : Nat) (bytes : List UInt8) (length : bytes.length = count) :
      b.convert host count (host.value bytes) = wordValue host byteOrder bytes := by
    rw [← length, convert_value, holds.byteOrder]
  cases call with
  | writeUInt8 val =>
    have image : host.image 1 val.toNat = [val] := by
      cases host <;> simp [HostOrder.image, Std.BigEndian.toBytes]
    rw [serve_of_asks_zero rfl rfl, Storage.call, writeUInt8, image]
    exact holds.write junk _
  | writeUInt16 val =>
    rw [serve_of_asks_zero rfl rfl]
    exact holds.writeWord junk 2 val.toNat
  | writeUInt24 val =>
    rw [serve_of_asks_zero rfl rfl]
    exact holds.writeUInt24 junk val
  | writeUInt32 val =>
    rw [serve_of_asks_zero rfl rfl]
    exact holds.writeWord junk 4 val.toNat
  | writeUInt64 val =>
    rw [serve_of_asks_zero rfl rfl]
    exact holds.writeWord junk 8 val.toNat
  | writeString val =>
    rw [serve_of_asks_zero rfl rfl]
    exact holds.write junk val
  | writeBytes val =>
    rw [serve_of_asks_zero rfl rfl]
    exact holds.write junk val
  | readUInt8 val =>
    rw [serve_of_appends_nil rfl]
    refine holds.readWord 1 (fun bytes => .ofNat (wordValue host byteOrder bytes)) .uint8 val
      fun bytes one => ?_
    obtain ⟨x, rfl⟩ := List.length_eq_one_iff.mp one
    cases host <;> simp [wordValue, HostOrder.value, Std.BigEndian.ofBytes]
  | readUInt16 val =>
    rw [serve_of_appends_nil rfl]
    refine holds.readWord 2 (fun bytes => .ofNat (wordValue host byteOrder bytes)) .uint16 val
      fun bytes two => ?_
    rw [converts 2 bytes two]
  | readUInt24 val =>
    rw [serve_of_appends_nil rfl]
    refine holds.readWord 3 (fun bytes => .ofNat (wordValue host byteOrder bytes)) .uint24 val
      fun bytes three => ?_
    rw [word24_eq host three, holds.byteOrder, Option.map_some]
  | readUInt32 val =>
    rw [serve_of_appends_nil rfl]
    refine holds.readWord 4 (fun bytes => .ofNat (wordValue host byteOrder bytes)) .uint32 val
      fun bytes four => ?_
    rw [converts 4 bytes four]
  | readUInt64 val =>
    rw [serve_of_appends_nil rfl]
    refine holds.readWord 8 (fun bytes => .ofNat (wordValue host byteOrder bytes)) .uint64 val
      fun bytes eight => ?_
    rw [converts 8 bytes eight]
  | readString val len =>
    rw [serve_of_appends_nil rfl]
    exact holds.readString val len
  | readBytes len =>
    rw [serve_of_appends_nil rfl]
    obtain ⟨sound, rfl, rfl⟩ := holds
    have read := readBytes_spec sound len
    split at read
    · next short =>
      rw [if_neg fun takes => absurd takes.2 (not_le.mpr short)]
      exact ⟨b, by rw [Storage.call, read]; rfl, sound, rfl, rfl⟩
    · next enough =>
      obtain ⟨c, read, sound', order, rest⟩ := read
      rw [if_pos ⟨rfl, not_lt.mp enough⟩]
      exact ⟨c, by rw [Storage.call, read]; rfl, sound', order, rest⟩
  | consume size =>
    rw [serve_of_appends_nil rfl]
    obtain ⟨sound, rfl, rfl⟩ := holds
    have consumed := consume_spec sound size
    split at consumed
    · next short =>
      rw [if_neg fun takes => absurd takes.2 (not_le.mpr short)]
      exact ⟨b, by rw [Storage.call, consumed]; rfl, sound, rfl, rfl⟩
    · next enough =>
      obtain ⟨c, consumed, sound', order, rest⟩ := consumed
      rw [if_pos ⟨rfl, not_lt.mp enough⟩]
      exact ⟨c, by rw [Storage.call, consumed]; rfl, sound', order, rest⟩
  | shift size =>
    rw [serve_of_appends_nil rfl]
    obtain ⟨sound, rfl, rfl⟩ := holds
    have shifted := shift_spec sound size
    split at shifted
    · next short =>
      rw [if_neg fun takes => absurd takes.2 (not_le.mpr short)]
      exact ⟨b, by rw [Storage.call, shifted]; rfl, sound, rfl, rfl⟩
    · next enough =>
      obtain ⟨c, shifted, sound', order, rest⟩ := shifted
      rw [if_pos ⟨rfl, not_lt.mp enough⟩]
      exact ⟨c, by rw [Storage.call, shifted]; rfl, sound', order, rest⟩
  | resize size =>
    rw [serve_of_asks_zero rfl rfl]
    obtain ⟨sound, rfl, rfl⟩ := holds
    obtain ⟨c, resized, sound', order, kept, -, -⟩ := resize_spec sound junk size
    exact ⟨c, by rw [Storage.call, resized]; rfl, sound', order, kept.trans (List.append_nil _).symm⟩

/-- An operation that asks for more than there is returns false, and changes nothing. -/
theorem call_refused {call : Call} (more : b.length < call.asks) (junk : Nat → UInt8) :
    b.call host junk call = some (call.refusal, b) := by
  have word {α : Type} (count : Nat) (short : b.length < count) (decode : List UInt8 → Option α)
      (val : Option α) : b.readWord count decode val = some (false, val, b) := by
    cases val with
    | none => rfl
    | some old => simp [readWord, readBytes, short]
  cases call with
  | readUInt8 val => rw [Storage.call, readUInt8, word 1 more]; rfl
  | readUInt16 val => rw [Storage.call, readUInt16, word 2 more]; rfl
  | readUInt24 val => rw [Storage.call, readUInt24, word 3 more]; rfl
  | readUInt32 val => rw [Storage.call, readUInt32, word 4 more]; rfl
  | readUInt64 val => rw [Storage.call, readUInt64, word 8 more]; rfl
  | readString val len =>
    cases val with
    | none => rfl
    | some text =>
      have short : b.length < len := more
      rw [Storage.call, Storage.readString, if_pos short]
      rfl
  | readBytes len =>
    have short : b.length < len := more
    rw [Storage.call, readBytes, if_pos short]
    rfl
  | consume size =>
    have short : b.length < size := more
    rw [Storage.call, consume, if_pos short]
    rfl
  | shift size =>
    have short : b.length < size := more
    rw [Storage.call, shift, if_pos short]
    rfl
  | _ => exact absurd more (Nat.not_lt_zero _)

end Storage

/-! ## Runs -/

variable (host : HostOrder) (byteOrder : ByteOrder)

/-- Operations in a row on a queue. -/
def serves : List Call → List UInt8 → List Answer × List UInt8
  | [], q => ([], q)
  | call :: rest, q =>
      ((call.serve host byteOrder q).1 :: (serves rest (call.serve host byteOrder q).2).1,
        (serves rest (call.serve host byteOrder q).2).2)

/-- The bytes that operations write. -/
def written (calls : List Call) : List UInt8 :=
  calls.flatMap (Call.appends host byteOrder)

/-- How many bytes an operation takes out of `length`. -/
def Call.takes (call : Call) (length : Nat) : Nat :=
  if call.Takes length then call.asks else 0

/-- How many bytes there are after an operation on `length`. -/
def Call.lengthAfter (call : Call) (length : Nat) : Nat :=
  length - call.takes length + (call.appends host byteOrder).length

/-- How many bytes operations take, starting with `length`. -/
def taken : List Call → Nat → Nat
  | [], _ => 0
  | call :: rest, length => call.takes length + taken rest (call.lengthAfter host byteOrder length)

/-- A resize has room for the bytes there are. -/
def Call.Grows (length : Nat) : Call → Prop
  | .resize size => length ≤ size
  | _ => True

def Growing : List Call → Nat → Prop
  | [], _ => True
  | call :: rest, length => call.Grows length ∧ Growing rest (call.lengthAfter host byteOrder length)

variable {host byteOrder} {q : List UInt8}

/-- An operation takes bytes from the front, and writes behind the others. -/
theorem Call.serve_snd {call : Call} (grows : call.Grows q.length) :
    (call.serve host byteOrder q).2 = q.drop (call.takes q.length) ++ call.appends host byteOrder := by
  unfold serve takes
  split
  · cases call with
    | resize size => simp [leaves, asks, List.take_of_length_le grows]
    | _ => rfl
  · next refused =>
    have silent : call.appends host byteOrder = [] := by
      cases call with
      | writeUInt8 | writeUInt16 | writeUInt24 | writeUInt32 | writeUInt64 | writeString | writeBytes =>
        exact absurd ⟨rfl, Nat.zero_le _⟩ refused
      | _ => rfl
    rw [silent, List.append_nil, List.drop_zero]

theorem Call.takes_le (call : Call) (length : Nat) : call.takes length ≤ length := by
  unfold takes
  split
  · next takes => exact takes.2
  · exact Nat.zero_le length

theorem Call.length_serve_snd {call : Call} (grows : call.Grows q.length) :
    (call.serve host byteOrder q).2.length = call.lengthAfter host byteOrder q.length := by
  rw [serve_snd grows, List.length_append, List.length_drop, lengthAfter]

/-- The queue holds what it started with and all that was written, less what was taken. -/
theorem serves_snd {calls : List Call} (growing : Growing host byteOrder calls q.length) :
    (serves host byteOrder calls q).2 =
        (q ++ written host byteOrder calls).drop (taken host byteOrder calls q.length) ∧
      taken host byteOrder calls q.length ≤ (q ++ written host byteOrder calls).length := by
  induction calls generalizing q with
  | nil => exact ⟨by simp [serves, written, taken], Nat.zero_le _⟩
  | cons call rest ih =>
    obtain ⟨grows, growing⟩ := growing
    rw [← Call.length_serve_snd grows] at growing
    obtain ⟨same, bounded⟩ := ih growing
    have fits := call.takes_le q.length
    have split : written host byteOrder (call :: rest) =
        call.appends host byteOrder ++ written host byteOrder rest := rfl
    have joined : (call.serve host byteOrder q).2 ++ written host byteOrder rest =
        (q ++ written host byteOrder (call :: rest)).drop (call.takes q.length) := by
      rw [Call.serve_snd grows, split, List.drop_append_of_le_length fits, List.append_assoc]
    rw [joined, Call.length_serve_snd grows] at same bounded
    rw [List.length_drop] at bounded
    rw [taken, serves]
    refine ⟨by rw [same, List.drop_drop], ?_⟩
    have longer : q.length ≤ (q ++ written host byteOrder (call :: rest)).length := by simp
    omega

variable (host) in
theorem Storage.Holds.run {b : Storage} (holds : b.Holds byteOrder q)
    (calls : List ((Nat → UInt8) × Call)) :
    ∃ c, b.run host calls = some ((serves host byteOrder (calls.map Prod.snd) q).1, c) ∧
      c.Holds byteOrder (serves host byteOrder (calls.map Prod.snd) q).2 := by
  induction calls generalizing b q with
  | nil => exact ⟨b, rfl, holds⟩
  | cons step rest ih =>
    obtain ⟨c, made, holds⟩ := holds.call host step.1 step.2
    obtain ⟨d, ran, holds⟩ := ih holds
    refine ⟨d, ?_, holds⟩
    simp only [Storage.run, made, ran, Option.bind_eq_bind, Option.bind_some]
    rfl

/-! ## Reading back -/

/-- A read of the width of a write, and the answer with the value. -/
inductive ReadsBack : Call → Call → Answer → Prop
  | uint8 (val old : UInt8) : ReadsBack (.writeUInt8 val) (.readUInt8 (some old)) (.uint8 true (some val))
  | uint16 (val old : UInt16) :
      ReadsBack (.writeUInt16 val) (.readUInt16 (some old)) (.uint16 true (some val))
  | uint24 (val old : UInt32) (fits : val.toNat < 2 ^ 24) :
      ReadsBack (.writeUInt24 val) (.readUInt24 (some old)) (.uint24 true (some val))
  | uint32 (val old : UInt32) :
      ReadsBack (.writeUInt32 val) (.readUInt32 (some old)) (.uint32 true (some val))
  | uint64 (val old : UInt64) :
      ReadsBack (.writeUInt64 val) (.readUInt64 (some old)) (.uint64 true (some val))

/-- A value is read back where its bytes are at the front. -/
theorem ReadsBack.serve {write read : Call} {answer : Answer} (back : ReadsBack write read answer)
    (rest : List UInt8) :
    (read.serve host byteOrder (write.appends host byteOrder ++ rest)).1 = answer := by
  have word (count : Nat) {n : Nat} (fits : n < 256 ^ count) :
      wordValue host byteOrder ((wordImage host byteOrder count n ++ rest).take count) = n := by
    rw [List.take_left' (length_wordImage host byteOrder count n), wordValue_wordImage fits]
  have long (count n : Nat) : count ≤ (wordImage host byteOrder count n ++ rest).length := by
    simp
  cases back with
  | uint8 val old =>
    have one : wordValue host byteOrder [val] = val.toNat := by
      cases host <;> simp [wordValue, HostOrder.value, Std.BigEndian.ofBytes]
    rw [Call.serve, if_pos ⟨rfl, Nat.le_add_left 1 _⟩]
    simp [Call.success, Call.asks, Call.appends, one]
  | uint16 val old =>
    rw [Call.serve, if_pos ⟨rfl, long 2 _⟩]
    simp only [Call.success, Call.asks, Call.appends, word 2 val.toNat_lt, UInt16.ofNat_toNat]
  | uint24 val old fits =>
    rw [Call.serve, if_pos ⟨rfl, long 3 _⟩]
    simp only [Call.success, Call.asks, Call.appends, word 3 fits, UInt32.ofNat_toNat]
  | uint32 val old =>
    rw [Call.serve, if_pos ⟨rfl, long 4 _⟩]
    simp only [Call.success, Call.asks, Call.appends, word 4 val.toNat_lt, UInt32.ofNat_toNat]
  | uint64 val old =>
    rw [Call.serve, if_pos ⟨rfl, long 8 _⟩]
    simp only [Call.success, Call.asks, Call.appends, word 8 val.toNat_lt, UInt64.ofNat_toNat]

/-- The bytes that a buffer is made with. -/
def given (bytes : Option (List UInt8)) (len : Nat) : List UInt8 :=
  (bytes.getD []).take len

/-- Through every run the buffer is the queue of its first bytes and those written: nothing is copied
past an allocation, a call that asks for too much does nothing, and an integer is read back where as
many bytes have been taken as there were before it. -/
theorem refines_queue (host : HostOrder) (junk : Nat → UInt8) {bytes : Option (List UInt8)} {len : Nat}
    (byteOrder : ByteOrder) (enough : ∀ source ∈ bytes, len ≤ source.length)
    (calls : List ((Nat → UInt8) × Call))
    (growing : Growing host byteOrder (calls.map Prod.snd) (given bytes len).length) :
    ∃ b answers c, Storage.construct junk bytes len byteOrder = some b ∧
      b.run host calls = some (answers, c) ∧
      answers = (serves host byteOrder (calls.map Prod.snd) (given bytes len)).1 ∧
      c.content = (given bytes len ++ written host byteOrder (calls.map Prod.snd)).drop
        (taken host byteOrder (calls.map Prod.snd) (given bytes len).length) ∧
      (∀ junk call, c.length < call.asks → c.call host junk call = some (call.refusal, c)) ∧
      ∀ before write between read answer, calls.map Prod.snd = before ++ write :: between →
        taken host byteOrder (calls.map Prod.snd) (given bytes len).length =
          (given bytes len ++ written host byteOrder before).length →
        ReadsBack write read answer → ∀ junk, ∃ d, c.call host junk read = some (answer, d) := by
  obtain ⟨b, made, sound, order, holds⟩ := Storage.construct_spec junk byteOrder enough
  obtain ⟨c, ran, holds⟩ := Storage.Holds.run host ⟨sound, order, holds⟩ calls
  have content := (serves_snd growing).1
  refine ⟨b, _, c, made, ran, rfl, holds.content.trans content, fun junk call more =>
    Storage.call_refused more junk, fun before write between read answer split place back junk => ?_⟩
  obtain ⟨d, answered, -⟩ := holds.call host junk read
  have front : (serves host byteOrder (calls.map Prod.snd) (given bytes len)).2 =
      write.appends host byteOrder ++ written host byteOrder between := by
    have parts : written host byteOrder (before ++ write :: between) =
        written host byteOrder before ++ (write.appends host byteOrder ++ written host byteOrder between) := by
      simp [written]
    rw [content, place, split, parts, ← List.append_assoc, List.drop_left]
  change c.call host junk read =
    some ((read.serve host byteOrder (serves host byteOrder (calls.map Prod.snd) (given bytes len)).2).1,
      d) at answered
  rw [front, back.serve] at answered
  exact ⟨d, answered⟩

/-- A 24-bit value is written behind two bytes, and read back when these have been consumed. -/
theorem refines_queue_of_consumed :
    ∃ b answers c, Storage.construct (fun _ => 0) (some [1, 2]) 2 .orderHost = some b ∧
      b.run .littleEndian [(fun _ => 0, .writeUInt24 70000), (fun _ => 0, .consume 2)] = some (answers, c) ∧
      ∃ d, c.call .littleEndian (fun _ => 0) (.readUInt24 (some 0)) = some (.uint24 true (some 70000), d) := by
  obtain ⟨b, answers, c, made, ran, -, -, -, back⟩ :=
    @refines_queue .littleEndian (fun _ => 0) (some [1, 2]) 2 .orderHost (by simp)
      [(fun _ => 0, .writeUInt24 70000), (fun _ => 0, .consume 2)] (by simp [Growing, Call.Grows])
  exact ⟨b, answers, c, made, ran,
    back [] _ [.consume 2] _ _ rfl (by decide) (.uint24 70000 0 (by decide)) _⟩

end Libjingle.Base.ByteBuffer
