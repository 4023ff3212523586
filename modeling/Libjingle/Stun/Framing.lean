import Libjingle.Stun.Message

/-!
# The frames of a message

The reader goes through the body of a message in rounds, one for each attribute. The
body is well framed when every round starts at a record: a type, a length, a value of
that length and its padding. The reader strays in two ways. The padding of the last
attribute may be missing, and a skip over more than 65532 bytes wraps to none.
-/

namespace Libjingle.Stun

open Libjingle.Std Libjingle.Base

/-- The buffer after a round of the reader. -/
def afterRound (id buf : List UInt8) : Option (List UInt8) := do
  let (type, buf) ← ByteBuffer.readUInt16 buf
  let (length, buf) ← ByteBuffer.readUInt16 buf
  match Attribute.create type length with
  | none => ByteBuffer.consume (skipLength length).toNat buf
  | some cls => (Attribute.read id cls type length buf).map (·.2)

/-- The buffers that the rounds of a reader start with, who goes through all of it. -/
inductive Rounds (id : List UInt8) : List UInt8 → List (List UInt8) → Prop where
  | nil : Rounds id [] []
  | cons {buf rest : List UInt8} {starts : List (List UInt8)} (filled : buf ≠ [])
      (round : afterRound id buf = some rest) (rounds : Rounds id rest starts) :
      Rounds id buf (buf :: starts)

/-- A sequence of records, with the buffers that they start. -/
inductive Framed : List UInt8 → List (List UInt8) → Prop where
  | nil : Framed [] []
  | cons {type length : UInt16} {value padding rest : List UInt8} {starts : List (List UInt8)}
      (value_length : value.length = length.toNat)
      (padding_length : padding.length = paddingLength length.toNat)
      (framed : Framed rest starts) :
      Framed
        (ByteBuffer.uint16Bytes type ++ (ByteBuffer.uint16Bytes length ++
          (value ++ (padding ++ rest))))
        ((ByteBuffer.uint16Bytes type ++ (ByteBuffer.uint16Bytes length ++
          (value ++ (padding ++ rest)))) :: starts)

/-- The reader skips this attribute, and its length wraps. -/
def Strays (start : List UInt8) : Prop :=
  ∃ type length rest,
    start = ByteBuffer.uint16Bytes type ++ (ByteBuffer.uint16Bytes length ++ rest) ∧
      Attribute.create type length = none ∧ 65532 < length.toNat

/-! ## Rounds -/

theorem uint16Bytes_of_readUInt16 {buf rest : List UInt8} {value : UInt16}
    (read : ByteBuffer.readUInt16 buf = some (value, rest)) :
    buf = ByteBuffer.uint16Bytes value ++ rest := by
  obtain ⟨⟨bytes, rest'⟩, taken, same⟩ := Option.map_eq_some_iff.mp read
  obtain ⟨split, length⟩ := ByteBuffer.readBytes_eq_some taken
  simp only [Prod.mk.injEq] at same
  obtain ⟨rfl, rfl⟩ := same
  have lt : BigEndian.ofBytes bytes < 2 ^ 16 := by
    have lt := BigEndian.ofBytes_lt bytes
    rwa [length] at lt
  rw [split, ByteBuffer.uint16Bytes, UInt16.toNat_ofNat', Nat.mod_eq_of_lt lt, ← length,
    BigEndian.toBytes_ofBytes]

/-- A read that takes a number of bytes from the front. -/
def Takes (count : Nat) (buf rest : List UInt8) : Prop :=
  count ≤ buf.length ∧ rest = buf.drop count

theorem Takes.trans {m n : Nat} {buf mid rest : List UInt8} (first : Takes m buf mid)
    (second : Takes n mid rest) : Takes (m + n) buf rest := by
  obtain ⟨enough, rfl⟩ := first
  obtain ⟨enough', rfl⟩ := second
  rw [List.length_drop] at enough'
  exact ⟨by omega, List.drop_drop⟩

theorem readBytes_takes {count : Nat} {buf bytes rest : List UInt8}
    (read : ByteBuffer.readBytes count buf = some (bytes, rest)) : Takes count buf rest := by
  obtain ⟨rfl, rfl⟩ := ByteBuffer.readBytes_eq_some read
  exact ⟨by simp, by simp⟩

theorem map_readBytes_takes {α : Type} {count : Nat} {f : List UInt8 → α} {buf rest : List UInt8}
    {value : α}
    (read : (ByteBuffer.readBytes count buf).map (fun (bytes, rest) => (f bytes, rest)) =
      some (value, rest)) : Takes count buf rest := by
  obtain ⟨⟨bytes, rest'⟩, taken, same⟩ := Option.map_eq_some_iff.mp read
  simp only [Prod.mk.injEq] at same
  exact same.2 ▸ readBytes_takes taken

theorem readUInt8_takes {buf rest : List UInt8} {value : UInt8}
    (read : ByteBuffer.readUInt8 buf = some (value, rest)) : Takes 1 buf rest :=
  map_readBytes_takes (f := fun bytes => UInt8.ofNat (BigEndian.ofBytes bytes)) read

theorem readUInt16_takes {buf rest : List UInt8} {value : UInt16}
    (read : ByteBuffer.readUInt16 buf = some (value, rest)) : Takes 2 buf rest :=
  map_readBytes_takes (f := fun bytes => UInt16.ofNat (BigEndian.ofBytes bytes)) read

theorem readUInt32_takes {buf rest : List UInt8} {value : UInt32}
    (read : ByteBuffer.readUInt32 buf = some (value, rest)) : Takes 4 buf rest :=
  map_readBytes_takes (f := fun bytes => UInt32.ofNat (BigEndian.ofBytes bytes)) read

theorem consume_takes {count : Nat} {buf rest : List UInt8}
    (read : ByteBuffer.consume count buf = some rest) : Takes count buf rest := by
  unfold ByteBuffer.consume at read
  split at read
  · cases read
  · next enough => exact ⟨Nat.le_of_not_lt enough, (Option.some.inj read).symm⟩

theorem readAddress_takes {length : UInt16} {buf rest : List UInt8} {addr : SocketAddress}
    (read : readAddress length buf = some (addr, rest)) :
    length.toNat % 4 = 0 ∧ Takes length.toNat buf rest := by
  unfold readAddress at read
  simp only [Option.bind_eq_bind, Option.bind_eq_some_iff] at read
  obtain ⟨⟨_, buf1⟩, first, ⟨family, buf2⟩, second, ⟨port, buf3⟩, third, read⟩ := read
  have header : Takes 4 buf buf3 :=
    ((readUInt8_takes first).trans (readUInt8_takes second)).trans (readUInt16_takes third)
  split_ifs at read with v4 size v6 size
  · obtain ⟨⟨bytes, after⟩, taken, same⟩ := Option.bind_eq_some_iff.mp read
    cases same
    rw [not_not.mp size]
    exact ⟨rfl, header.trans (readBytes_takes taken)⟩
  · obtain ⟨⟨bytes, after⟩, taken, same⟩ := Option.bind_eq_some_iff.mp read
    cases same
    rw [not_not.mp size]
    exact ⟨rfl, header.trans (readBytes_takes taken)⟩

theorem readUInt16s_takes {count : Nat} {buf rest : List UInt8} {values : List UInt16}
    (read : readUInt16s count buf = some (values, rest)) : Takes (2 * count) buf rest := by
  induction count generalizing buf values with
  | zero =>
    cases read
    exact ⟨Nat.zero_le _, rfl⟩
  | succ count ih =>
    simp only [readUInt16s, Option.bind_eq_bind, Option.bind_eq_some_iff] at read
    obtain ⟨⟨value, mid⟩, first, ⟨values', after⟩, second, same⟩ := read
    cases same
    have both := (readUInt16_takes first).trans (ih second)
    rwa [show 2 + 2 * count = 2 * (count + 1) by omega] at both

/-- Without padding nothing is consumed. -/
theorem consumePadding_of_aligned {length : UInt16} (aligned : length.toNat % 4 = 0)
    (buf : List UInt8) : consumePadding length buf = buf := by
  simp [consumePadding, paddingLength, aligned, ByteBuffer.consume]

theorem create_cases {type length : UInt16} {cls : AttributeClass}
    (created : Attribute.create type length = some cls) :
    match cls with
    | .address | .xorAddress | .byteString => True
    | .uint32 => length = 4
    | .errorCode => ¬ length < 4
    | .uint16List => length % 2 = 0 := by
  unfold Attribute.create at created
  split_ifs at created <;> cases created <;> simp_all

/-- A created attribute takes its length, and the padding if it can. -/
theorem read_takes {id buf rest : List UInt8} {cls : AttributeClass} {type length : UInt16}
    {attr : Attribute} (created : Attribute.create type length = some cls)
    (read : Attribute.read id cls type length buf = some (attr, rest)) :
    ∃ after, Takes length.toNat buf after ∧ rest = consumePadding length after := by
  have sizes := create_cases created
  cases cls with
  | address =>
    simp only [Attribute.read, Option.bind_eq_bind, Option.bind_eq_some_iff] at read
    obtain ⟨⟨addr, after⟩, taken, same⟩ := read
    cases same
    obtain ⟨aligned, takes⟩ := readAddress_takes taken
    exact ⟨after, takes, (consumePadding_of_aligned aligned after).symm⟩
  | xorAddress =>
    simp only [Attribute.read, Option.bind_eq_bind, Option.bind_eq_some_iff] at read
    obtain ⟨⟨addr, after⟩, taken, same⟩ := read
    cases same
    obtain ⟨aligned, takes⟩ := readAddress_takes taken
    exact ⟨after, takes, (consumePadding_of_aligned aligned after).symm⟩
  | uint32 =>
    simp only [Attribute.read, Option.bind_eq_bind, Option.bind_eq_some_iff] at read
    obtain ⟨⟨bits, after⟩, taken, same⟩ := read
    cases same
    have size : length = 4 := sizes
    subst size
    exact ⟨after, readUInt32_takes taken, (consumePadding_of_aligned rfl after).symm⟩
  | byteString =>
    simp only [Attribute.read, Option.bind_eq_bind, Option.bind_eq_some_iff] at read
    obtain ⟨⟨bytes, after⟩, taken, same⟩ := read
    cases same
    exact ⟨after, readBytes_takes taken, rfl⟩
  | errorCode =>
    simp only [Attribute.read, Option.bind_eq_bind, Option.bind_eq_some_iff] at read
    obtain ⟨⟨val, mid⟩, first, ⟨reason, after⟩, second, same⟩ := read
    cases same
    have size : ¬ length.toNat < 4 := sizes
    have both := (readUInt32_takes first).trans (readBytes_takes second)
    rw [Nat.add_sub_cancel' (Nat.le_of_not_lt size)] at both
    exact ⟨after, both, rfl⟩
  | uint16List =>
    simp only [Attribute.read, Option.bind_eq_bind, Option.bind_eq_some_iff] at read
    obtain ⟨⟨types, after⟩, taken, same⟩ := read
    cases same
    have even : length.toNat % 2 = 0 := congrArg UInt16.toNat sizes
    have takes := readUInt16s_takes taken
    rw [Nat.mul_div_cancel' (Nat.dvd_of_mod_eq_zero even)] at takes
    exact ⟨after, takes, rfl⟩

/-- What a round does with the record at its start. -/
theorem afterRound_cases {id buf rest : List UInt8} (round : afterRound id buf = some rest) :
    ∃ type length tail,
      buf = ByteBuffer.uint16Bytes type ++ (ByteBuffer.uint16Bytes length ++ tail) ∧
      (Attribute.create type length = none ∧ Takes (skipLength length).toNat tail rest ∨
        ∃ after, Attribute.create type length ≠ none ∧ Takes length.toNat tail after ∧
          rest = consumePadding length after) := by
  simp only [afterRound, Option.bind_eq_bind, Option.bind_eq_some_iff] at round
  obtain ⟨⟨type, buf1⟩, first, ⟨length, tail⟩, second, round⟩ := round
  refine ⟨type, length, tail, ?_, ?_⟩
  · have second : ByteBuffer.readUInt16 buf1 = some (length, tail) := second
    rw [uint16Bytes_of_readUInt16 first, uint16Bytes_of_readUInt16 second]
  · cases created : Attribute.create type length with
    | none =>
      simp only [created] at round
      exact Or.inl ⟨rfl, consume_takes round⟩
    | some cls =>
      simp only [created] at round
      obtain ⟨⟨attr, rest'⟩, read, same⟩ := Option.map_eq_some_iff.mp round
      obtain ⟨after, takes, padded⟩ := read_takes created read
      exact Or.inr ⟨after, nofun, takes, same ▸ padded⟩

theorem Rounds.mem_of_filled {id buf : List UInt8} {starts : List (List UInt8)}
    (rounds : Rounds id buf starts) (filled : buf ≠ []) : buf ∈ starts := by
  cases rounds with
  | nil => exact absurd rfl filled
  | cons => exact List.mem_cons_self ..

theorem Rounds.unique {id buf : List UInt8} {starts starts' : List (List UInt8)}
    (rounds : Rounds id buf starts) (rounds' : Rounds id buf starts') : starts = starts' := by
  induction rounds generalizing starts' with
  | nil =>
    cases rounds' with
    | nil => rfl
    | cons filled => exact absurd rfl filled
  | cons filled round rounds ih =>
    cases rounds' with
    | nil => exact absurd rfl filled
    | cons _ round' rounds' =>
      cases round.symm.trans round'
      rw [ih rounds']

/-! ## Framed rounds -/

theorem skipLength_of_le {length : UInt16} (le : length.toNat ≤ 65532) :
    (skipLength length).toNat = length.toNat + paddingLength length.toNat := by
  have remainder : (length % 4).toNat = length.toNat % 4 := UInt16.toNat_mod length 4
  unfold skipLength paddingLength
  split
  · next unaligned =>
    have nonzero : length.toNat % 4 ≠ 0 := fun zero =>
      unaligned (UInt16.toNat.inj (remainder.trans zero))
    have le4 : length % 4 ≤ 4 := by
      rw [UInt16.le_iff_toNat_le, remainder]
      exact (Nat.mod_lt _ (by decide)).le
    have four : (4 : UInt16).toNat = 4 := rfl
    rw [UInt16.toNat_add, UInt16.toNat_sub_of_le _ _ le4, remainder, four]
    omega
  · next aligned =>
    have zero : length.toNat % 4 = 0 := by
      rw [← remainder, not_not.mp aligned]
      rfl
    simp [zero]

/-- A record, from what is taken of the buffer behind its header. -/
theorem framed_cons {type length : UInt16} {tail rest : List UInt8} {starts : List (List UInt8)}
    (takes : Takes (length.toNat + paddingLength length.toNat) tail rest)
    (framed : Framed rest starts) :
    Framed (ByteBuffer.uint16Bytes type ++ (ByteBuffer.uint16Bytes length ++ tail))
      ((ByteBuffer.uint16Bytes type ++ (ByteBuffer.uint16Bytes length ++ tail)) :: starts) := by
  obtain ⟨enough, rfl⟩ := takes
  have split : tail = tail.take length.toNat ++ ((tail.drop length.toNat).take
      (paddingLength length.toNat) ++ tail.drop (length.toNat + paddingLength length.toNat)) := by
    rw [← List.drop_drop, List.take_append_drop, List.take_append_drop]
  have record := @Framed.cons type length (tail.take length.toNat)
    ((tail.drop length.toNat).take (paddingLength length.toNat)) _ _
    (by simp; omega) (by simp; omega) framed
  rwa [← split] at record

/-- A round that does not stray goes on to the end of the record, if the records are to
end with the message. -/
theorem framed_of_rounds {id buf : List UInt8} {starts : List (List UInt8)}
    (rounds : Rounds id buf starts) (aligned : buf.length % 4 = 0)
    (straight : ∀ start ∈ starts, ¬ Strays start) : Framed buf starts := by
  induction rounds with
  | nil => exact .nil
  | @cons buf rest starts filled round rounds ih =>
    have later := fun start mem => straight start (List.mem_cons_of_mem _ mem)
    obtain ⟨type, length, tail, rfl, ⟨skipped, takes⟩ | ⟨after, created, takes, padded⟩⟩ :=
      afterRound_cases round
    · have le : length.toNat ≤ 65532 := Nat.le_of_not_lt fun wraps =>
        straight _ (List.mem_cons_self ..) ⟨type, length, tail, rfl, skipped, wraps⟩
      rw [skipLength_of_le le] at takes
      refine framed_cons takes (ih ?_ later)
      obtain ⟨enough, rfl⟩ := takes
      simp only [List.length_append, ByteBuffer.length_uint16Bytes, List.length_drop,
        paddingLength] at aligned enough ⊢
      omega
    · -- What is left behind the value is a whole number of records and the padding.
      obtain ⟨enough, rfl⟩ := takes
      have room : paddingLength length.toNat ≤ (tail.drop length.toNat).length := by
        simp only [List.length_append, ByteBuffer.length_uint16Bytes, List.length_drop,
          paddingLength] at aligned ⊢
        omega
      have rest_eq : rest = tail.drop (length.toNat + paddingLength length.toNat) := by
        rw [padded, consumePadding, ByteBuffer.consume, if_neg (Nat.not_lt.mpr room)]
        exact List.drop_drop
      have takes : Takes (length.toNat + paddingLength length.toNat) tail rest :=
        ⟨by simp only [List.length_drop] at room; omega, rest_eq⟩
      refine framed_cons takes (ih ?_ later)
      rw [rest_eq]
      simp only [List.length_append, ByteBuffer.length_uint16Bytes, List.length_drop,
        paddingLength] at aligned room ⊢
      omega

theorem Framed.aligned {buf : List UInt8} {starts : List (List UInt8)}
    (framed : Framed buf starts) : buf.length % 4 = 0 := by
  induction framed with
  | nil => rfl
  | cons value_length padding_length framed ih =>
    simp only [List.length_append, ByteBuffer.length_uint16Bytes, value_length, padding_length,
      paddingLength]
    omega

/-- A framed buffer has room for its records, so none of them makes the reader stray. -/
theorem Framed.straight {buf : List UInt8} {starts : List (List UInt8)}
    (framed : Framed buf starts) (small : buf.length < 2 ^ 16) :
    ∀ start ∈ starts, ¬ Strays start := by
  induction framed with
  | nil => exact fun _ mem => absurd mem List.not_mem_nil
  | @cons type length value padding rest starts value_length padding_length framed ih =>
    simp only [List.length_append, ByteBuffer.length_uint16Bytes] at small
    intro start mem
    rcases List.mem_cons.mp mem with rfl | mem
    · rintro ⟨type', length', rest', same, -, wraps⟩
      have tails := (List.append_inj same (by simp)).2
      have read := congrArg ByteBuffer.readUInt16 tails
      simp only [ByteBuffer.readUInt16_append, Option.some.injEq, Prod.mk.injEq] at read
      rw [← read.1] at wraps
      omega
    · exact ih (by omega) start mem

/-! ## The reader -/

namespace Message

/-- The first round of the loop, if there is one. -/
theorem readAttributes_succ (msg : Message) {buf : List UInt8} (filled : buf ≠ []) :
    (∃ rest attrs, afterRound msg.transactionId buf = some rest ∧ ∀ fuel,
        readAttributes (fuel + 1) msg buf = readAttributes fuel { msg with attrs } rest) ∨
      ∃ result, afterRound msg.transactionId buf = none ∧ result.1 = false ∧ ∀ fuel,
        readAttributes (fuel + 1) msg buf = result := by
  have nonempty : buf.isEmpty = false := by simpa using filled
  simp only [readAttributes, nonempty, Bool.false_eq_true, if_false, afterRound,
    Option.bind_eq_bind]
  cases ByteBuffer.readUInt16 buf with
  | none => exact Or.inr ⟨_, rfl, rfl, fun _ => rfl⟩
  | some header =>
    obtain ⟨type, buf⟩ := header
    simp only [Option.bind_some]
    cases ByteBuffer.readUInt16 buf with
    | none => exact Or.inr ⟨_, rfl, rfl, fun _ => rfl⟩
    | some header =>
      obtain ⟨length, buf⟩ := header
      simp only [Option.bind_some]
      cases Attribute.create type length with
      | none =>
        cases skipped : ByteBuffer.consume (skipLength length).toNat buf with
        | none => exact Or.inr ⟨_, rfl, rfl, fun _ => rfl⟩
        | some rest => exact Or.inl ⟨rest, msg.attrs, rfl, fun _ => rfl⟩
      | some cls =>
        simp only
        cases Attribute.read msg.transactionId cls type length buf with
        | none => exact Or.inr ⟨_, rfl, rfl, fun _ => rfl⟩
        | some result => exact Or.inl ⟨result.2, msg.attrs ++ [result.1], rfl, fun _ => rfl⟩

end Message

/-- Each round takes the header of an attribute at least. -/
theorem length_afterRound {id buf rest : List UInt8} (round : afterRound id buf = some rest) :
    rest.length + 4 ≤ buf.length := by
  obtain ⟨type, length, tail, rfl, ⟨-, enough, rfl⟩ | ⟨after, -, ⟨enough, rfl⟩, rfl⟩⟩ :=
    afterRound_cases round
  · simp
    omega
  · have shorter : (consumePadding length (tail.drop length.toNat)).length ≤
        (tail.drop length.toNat).length := by
      unfold consumePadding ByteBuffer.consume
      split
      · exact Nat.le_refl _
      · exact (List.length_drop).le.trans (Nat.sub_le _ _)
    simp only [List.length_append, ByteBuffer.length_uint16Bytes, List.length_drop] at shorter ⊢
    omega

namespace Message

/-- The loop succeeds exactly when its rounds lead to the end of the buffer. -/
theorem readAttributes_iff {fuel : Nat} (msg : Message) {buf : List UInt8}
    (enough : buf.length ≤ fuel) :
    (readAttributes fuel msg buf).1 = true ↔ ∃ starts, Rounds msg.transactionId buf starts := by
  induction fuel generalizing msg buf with
  | zero =>
    obtain rfl : buf = [] := List.length_eq_zero_iff.mp (Nat.le_zero.mp enough)
    exact ⟨fun _ => ⟨[], .nil⟩, fun _ => rfl⟩
  | succ fuel ih =>
    by_cases filled : buf = []
    · subst filled
      exact ⟨fun _ => ⟨[], .nil⟩, fun _ => rfl⟩
    rcases readAttributes_succ msg filled with
      ⟨rest, attrs, round, same⟩ | ⟨result, round, fails, same⟩
    · have shorter := length_afterRound round
      rw [same, ih { msg with attrs } (by omega)]
      constructor
      · rintro ⟨starts, rounds⟩
        exact ⟨buf :: starts, .cons filled round rounds⟩
      · rintro ⟨starts, rounds⟩
        cases rounds with
        | nil => exact absurd rfl filled
        | cons _ round' rounds =>
          cases round.symm.trans round'
          exact ⟨_, rounds⟩
    · rw [same, fails]
      refine ⟨nofun, ?_⟩
      rintro ⟨starts, rounds⟩
      cases rounds with
      | nil => exact absurd rfl filled
      | cons _ round' _ => exact nomatch round.symm.trans round'

/-- The loop ends by itself: more fuel than the buffer has bytes changes nothing. -/
theorem readAttributes_fuel {fuel more : Nat} (msg : Message) {buf : List UInt8}
    (enough : buf.length ≤ fuel) (enough' : buf.length ≤ more) :
    readAttributes fuel msg buf = readAttributes more msg buf := by
  induction fuel generalizing more msg buf with
  | zero =>
    obtain rfl : buf = [] := List.length_eq_zero_iff.mp (Nat.le_zero.mp enough)
    cases more <;> rfl
  | succ fuel ih =>
    by_cases filled : buf = []
    · subst filled
      cases more <;> rfl
    have positive : 0 < buf.length := List.length_pos_of_ne_nil filled
    obtain ⟨more, rfl⟩ : ∃ n, more = n + 1 := ⟨more - 1, by omega⟩
    rcases readAttributes_succ msg filled with
      ⟨rest, attrs, round, same⟩ | ⟨result, round, fails, same⟩
    · have shorter := length_afterRound round
      rw [same, same]
      exact ih _ (by omega) (by omega)
    · rw [same, same]

/-- The loop adds attributes and changes nothing else. -/
theorem readAttributes_msg (fuel : Nat) (msg : Message) (buf : List UInt8) :
    ∃ attrs, (readAttributes fuel msg buf).2.1 = { msg with attrs } := by
  induction fuel generalizing msg buf with
  | zero => exact ⟨msg.attrs, rfl⟩
  | succ fuel ih =>
    rw [readAttributes]
    split
    · exact ⟨msg.attrs, rfl⟩
    · split
      · exact ⟨msg.attrs, rfl⟩
      · split
        · exact ⟨msg.attrs, rfl⟩
        · split
          · split
            · exact ⟨msg.attrs, rfl⟩
            · exact ih msg _
          · split
            · exact ⟨msg.attrs, rfl⟩
            · exact ih { msg with attrs := msg.attrs ++ [_] } _

/-- What `Read` finds in the header of bytes, and when it accepts them. -/
theorem read_cases (fresh : Message) (bytes : List UInt8) :
    (fresh.read bytes).1 = false ∨
      20 ≤ bytes.length ∧ (fresh.read bytes).2.1.length.toNat = bytes.length - 20 ∧
        ((fresh.read bytes).1 = true ↔
          ∃ starts, Rounds (fresh.read bytes).2.1.transactionId (bytes.drop 20) starts) := by
  unfold read
  split
  · exact Or.inl rfl
  · next type buf1 first =>
    simp only
    split
    · exact Or.inl rfl
    · split
      · exact Or.inl rfl
      · next length buf2 second =>
        split
        · exact Or.inl rfl
        · next cookie buf3 third =>
          split
          · exact Or.inl rfl
          · next id buf4 fourth =>
            split
            · exact Or.inl rfl
            · next counts =>
              have header : Takes 20 bytes buf4 :=
                (((readUInt16_takes first).trans (readUInt16_takes second)).trans
                  (readBytes_takes third)).trans (readBytes_takes fourth)
              obtain ⟨enough, rfl⟩ := header
              obtain ⟨attrs, same⟩ := readAttributes_msg (bytes.drop 20).length
                ⟨type, length, headerId cookie id, []⟩ (bytes.drop 20)
              rw [same]
              refine Or.inr ⟨enough, ?_, readAttributes_iff _ (Nat.le_refl _)⟩
              simpa using counts

/-- What a reader of a byte string should do: come to an end, and accept only a length
field that counts whole records, at which all its rounds start. -/
structure WellFramed (bytes : List UInt8) : Prop where
  ends : ∀ msg fuel, (bytes.drop 20).length ≤ fuel →
    readAttributes fuel msg (bytes.drop 20) =
      readAttributes (bytes.drop 20).length msg (bytes.drop 20)
  header : (new.read bytes).1 = true →
    20 ≤ bytes.length ∧ (new.read bytes).2.1.length.toNat = bytes.length - 20 ∧
      (new.read bytes).2.1.length.toNat % 4 = 0
  body : (new.read bytes).1 = true →
    ∃ starts, Rounds (new.read bytes).2.1.transactionId (bytes.drop 20) starts ∧
      Framed (bytes.drop 20) starts

/-- The reader rejects the bytes, or they end with a record and none of its skips wraps. -/
def StaysOnRecords (bytes : List UInt8) : Prop :=
  (new.read bytes).1 = true →
    bytes.length % 4 = 0 ∧
      ∀ starts, Rounds (new.read bytes).2.1.transactionId (bytes.drop 20) starts →
        ∀ start ∈ starts, ¬ Strays start

theorem wellFramed_iff (bytes : List UInt8) : WellFramed bytes ↔ StaysOnRecords bytes := by
  have ends (msg : Message) (fuel : Nat) (enough : (bytes.drop 20).length ≤ fuel) :=
    readAttributes_fuel msg enough (Nat.le_refl (bytes.drop 20).length)
  rcases read_cases new bytes with rejects | ⟨header, length, accepts⟩
  · have never : ¬ (new.read bytes).1 = true := by simp [rejects]
    exact ⟨fun _ accepted => absurd accepted never,
      fun _ => ⟨ends, fun accepted => absurd accepted never,
        fun accepted => absurd accepted never⟩⟩
  have small : (bytes.drop 20).length < 2 ^ 16 := by
    rw [List.length_drop, ← length]
    exact UInt16.toNat_lt _
  constructor
  · intro framed accepted
    obtain ⟨starts, rounds, records⟩ := framed.body accepted
    refine ⟨?_, fun starts' rounds' => ?_⟩
    · have aligned := records.aligned
      rw [List.length_drop] at aligned
      omega
    · rw [rounds'.unique rounds]
      exact records.straight small
  · intro stays
    refine ⟨ends, fun accepted => ⟨header, length, ?_⟩, fun accepted => ?_⟩
    · have aligned := (stays accepted).1
      omega
    · obtain ⟨starts, rounds⟩ := accepts.mp accepted
      refine ⟨starts, rounds, framed_of_rounds rounds ?_ ((stays accepted).2 starts rounds)⟩
      have aligned := (stays accepted).1
      rw [List.length_drop]
      omega

/-- A binding request whose body is the one given. -/
def sampleRequest (body : List UInt8) : List UInt8 :=
  ByteBuffer.uint16Bytes MessageType.bindingRequest ++
    ByteBuffer.uint16Bytes (.ofNat body.length) ++ List.replicate 16 0 ++ body

/-- A username of one byte without its padding, and an unknown attribute of 65535 bytes
that the reader enters, are accepted. -/
theorem not_wellFramed :
    ¬ WellFramed (sampleRequest [0x00, 0x06, 0x00, 0x01, 0x61]) ∧
      ¬ WellFramed (sampleRequest [0x77, 0x77, 0xFF, 0xFF, 0x00, 0x06, 0x00, 0x00]) := by
  constructor
  · intro framed
    have aligned := (framed.header (by decide)).2.2
    revert aligned
    decide
  · intro framed
    obtain ⟨starts, rounds, records⟩ := framed.body (by decide)
    have straight := records.straight (by decide) _ (rounds.mem_of_filled (by decide))
    exact straight ⟨0x7777, 0xFFFF, [0x00, 0x06, 0x00, 0x00], rfl, rfl, by decide⟩

end Message

end Libjingle.Stun
