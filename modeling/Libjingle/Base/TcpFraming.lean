import Libjingle.Base.AsyncTcpSocket

/-!
# Framing of packets over TCP

The bytes that the sender's socket takes are the frames of the packets that were
not dropped, and the peer reads packets from the front of them however they
arrive. A length prefix holds packets of less than 2^16 bytes, one byte less than
what `Send` accepts.
-/

namespace Libjingle.Base

open Libjingle.Std

/-! ## One packet -/

theorem length_frame (packet : List UInt8) :
    (frame packet).length = pktLenSize + packet.length := by
  rw [frame, List.length_append, ByteBuffer.length_uint16Bytes, pktLenSize]

theorem frame_ne_nil (packet : List UInt8) : frame packet ≠ [] := by
  intro empty
  have length := length_frame packet
  rw [empty, pktLenSize, List.length_nil] at length
  omega

/-- A packet that the prefix can describe is read back from its frame. -/
theorem nextPacket_frame {packet : List UInt8} (small : packet.length < 2 ^ 16)
    (rest : List UInt8) : nextPacket (frame packet ++ rest) = some (packet, rest) := by
  have header : (ByteBuffer.uint16Bytes (UInt16.ofNat packet.length)).length = pktLenSize :=
    ByteBuffer.length_uint16Bytes _
  have value : BigEndian.ofBytes (ByteBuffer.uint16Bytes (UInt16.ofNat packet.length)) =
      packet.length := by
    rw [ByteBuffer.uint16Bytes, UInt16.toNat_ofNat', Nat.mod_eq_of_lt small]
    exact BigEndian.ofBytes_toBytes_of_lt small
  rw [frame, List.append_assoc]
  generalize ByteBuffer.uint16Bytes (UInt16.ofNat packet.length) = bytes at header value
  have room : bytes.length + packet.length ≤ (bytes ++ (packet ++ rest)).length := by
    simp only [List.length_append]
    omega
  rw [nextPacket, ← header, List.take_left, value, List.drop_left]
  dsimp only
  rw [if_neg (by omega), if_neg (by omega), ← List.drop_drop, List.drop_left, List.take_left,
    List.drop_left]

/-- A packet is read only from its own frame. -/
theorem eq_frame_of_nextPacket {data packet rest : List UInt8}
    (found : nextPacket data = some (packet, rest)) :
    data = frame packet ++ rest ∧ packet.length < 2 ^ 16 := by
  unfold nextPacket at found
  split at found
  · cases found
  next prefixed =>
  dsimp only at found
  split at found
  · cases found
  next whole =>
  cases found
  have header : (data.take pktLenSize).length = 2 := by
    rw [List.length_take]
    exact Nat.min_eq_left (Nat.le_of_not_lt prefixed)
  have bound := BigEndian.ofBytes_lt (data.take pktLenSize)
  have back := BigEndian.toBytes_ofBytes (data.take pktLenSize)
  rw [header] at bound back
  generalize BigEndian.ofBytes (data.take pktLenSize) = pktLen at whole bound back ⊢
  have length : ((data.drop pktLenSize).take pktLen).length = pktLen := by
    rw [List.length_take, List.length_drop]
    omega
  refine ⟨?_, by omega⟩
  rw [frame, ByteBuffer.uint16Bytes, length, UInt16.toNat_ofNat', Nat.mod_eq_of_lt (by omega),
    back, List.append_assoc, ← List.drop_drop, List.take_append_drop, List.take_append_drop]

/-- Data without a whole packet leaves room in the buffer. -/
theorem length_lt_of_nextPacket {data : List UInt8} (waiting : nextPacket data = none) :
    data.length < bufSize := by
  unfold nextPacket at waiting
  split at waiting
  · next short =>
    simp only [pktLenSize, bufSize, maxPacketSize] at *
    omega
  next prefixed =>
  dsimp only at waiting
  split at waiting
  · next short =>
    have bound := BigEndian.ofBytes_lt (data.take pktLenSize)
    rw [List.length_take, Nat.min_eq_left (Nat.le_of_not_lt prefixed)] at bound
    simp only [pktLenSize, bufSize, maxPacketSize] at *
    omega
  · cases waiting

/-! ## The loop of `ProcessInput` -/

/-- The packets at the front of a stream, as `ProcessInput` reads them. -/
def packetReader : Reader Unit UInt8 (List UInt8) where
  read _ data := (nextPacket data).map fun (packet, rest) => (packet, (), rest)
  more {_ buf packet _ rest} found tail := by
    simp only [Option.map_eq_some_iff, Prod.mk.injEq, true_and, Prod.exists] at found ⊢
    obtain ⟨packet, rest, found, rfl, rfl⟩ := found
    obtain ⟨rfl, small⟩ := eq_frame_of_nextPacket found
    refine ⟨packet, rest ++ tail, ?_, rfl, rfl⟩
    rw [List.append_assoc]
    exact nextPacket_frame small _
  takes {_ buf packet _ rest} found := by
    simp only [Option.map_eq_some_iff, Prod.mk.injEq, true_and, Prod.exists] at found
    obtain ⟨packet, rest, found, rfl, rfl⟩ := found
    obtain ⟨rfl, small⟩ := eq_frame_of_nextPacket found
    exact ⟨frame packet, frame_ne_nil packet, rfl⟩

theorem packetReader_read {data packet rest : List UInt8} :
    packetReader.read () data = some (packet, (), rest) ↔ nextPacket data = some (packet, rest) := by
  simp [packetReader]

theorem packetReader_read_none {data : List UInt8} :
    packetReader.read () data = none ↔ nextPacket data = none := by
  simp [packetReader]

theorem processInput_eq_drain (turns : Nat) (data : List UInt8) :
    AsyncTCPSocket.processInput turns data =
      ((packetReader.drain turns () data).1, (packetReader.drain turns () data).2.2) := by
  induction turns generalizing data with
  | zero => rfl
  | succ turns ih =>
    rw [AsyncTCPSocket.processInput, Reader.drain]
    cases found : nextPacket data with
    | none => rw [packetReader_read_none.mpr found]
    | some read =>
      obtain ⟨packet, rest⟩ := read
      rw [packetReader_read.mpr found]
      simp only [ih]

/-- The frames of packets that the prefix can describe are read to the end. -/
theorem reads_frames {packets : List (List UInt8)} (small : ∀ packet ∈ packets, packet.length < 2 ^ 16) :
    packetReader.Reads () (packets.flatMap frame) packets () [] := by
  induction packets with
  | nil => exact .refl _ _
  | cons packet packets ih =>
    rw [List.flatMap_cons]
    refine .step ?_ (ih fun other listed => small other (.tail _ listed))
    exact packetReader_read.mpr (nextPacket_frame (small packet (.head _)) _)

/-! ## One call -/

namespace AsyncTCPSocket

variable {s : AsyncTCPSocket} {packet : List UInt8} {answer : WriteAnswer}

theorem flush_spec (s : AsyncTCPSocket) (answer : WriteAnswer) :
    (s.flush answer).bytes ++ (s.flush answer).socket.outbuf = s.outbuf ∧
      (s.flush answer).socket.inbuf = s.inbuf ∧
      (s.flush answer).result = answer.result s.outbuf.length := by
  have atMost : (answer.result s.outbuf.length).toNat ≤ s.outbuf.length := by
    cases answer with
    | error => exact Nat.zero_le _
    | takes count =>
      rw [WriteAnswer.result]
      omega
  unfold flush
  dsimp only
  split
  · exact ⟨rfl, rfl, rfl⟩
  · exact ⟨List.take_append_drop _ _, rfl, rfl⟩

/-- A dropped packet sends nothing and leaves the socket as it was. -/
theorem send_dropped (dropped : s.Drops packet answer) :
    (s.send packet answer).bytes = [] ∧ (s.send packet answer).socket = s := by
  unfold send
  split
  · exact ⟨rfl, rfl⟩
  next fits =>
  split
  · exact ⟨rfl, rfl⟩
  next idle =>
  have idle : s.outbuf = [] := not_not.mp idle
  have stuck : answer.result (frame packet).length ≤ 0 := by
    rcases dropped with large | blocked | stuck
    · exact absurd large fits
    · exact absurd idle blocked
    · exact stuck
  have flushed : flush { s with outbuf := frame packet } answer =
      { result := answer.result (frame packet).length, bytes := [],
        socket := { s with outbuf := frame packet } } := by
    simp only [flush]
    rw [if_pos stuck]
  dsimp only
  rw [flushed, if_pos stuck]
  exact ⟨rfl, by rw [← idle]⟩

/-- A packet that is not dropped goes out behind what was already under way. -/
theorem send_kept (kept : ¬ s.Drops packet answer) :
    (s.send packet answer).bytes ++ (s.send packet answer).socket.outbuf =
        s.outbuf ++ frame packet ∧
      (s.send packet answer).socket.inbuf = s.inbuf := by
  simp only [Drops, not_or, not_not] at kept
  obtain ⟨fits, idle, moved⟩ := kept
  obtain ⟨bytes, inbuf, result⟩ := flush_spec { s with outbuf := frame packet } answer
  simp only [send, if_neg fits, if_neg (not_not.mpr idle)]
  rw [result, if_neg moved, idle]
  exact ⟨bytes, inbuf⟩

theorem onWriteEvent_spec (s : AsyncTCPSocket) (answer : WriteAnswer) :
    (s.onWriteEvent answer).bytes ++ (s.onWriteEvent answer).socket.outbuf = s.outbuf ∧
      (s.onWriteEvent answer).socket.inbuf = s.inbuf := by
  unfold onWriteEvent
  split
  · obtain ⟨bytes, inbuf, -⟩ := flush_spec s answer
    exact ⟨bytes, inbuf⟩
  · exact ⟨rfl, rfl⟩

/-- A read event signals the packets of the data and never finds the buffer full. -/
theorem onReadEvent_spec (s : AsyncTCPSocket) (arrived : Option (List UInt8)) :
    packetReader.Reads () (s.inbuf ++ arrived.getD []) (s.onReadEvent arrived).packets ()
        (s.onReadEvent arrived).socket.inbuf ∧
      (s.onReadEvent arrived).overflow = false := by
  cases arrived with
  | none => exact ⟨by simpa using .refl _ _, rfl⟩
  | some bytes =>
    have reads := packetReader.drain_reads (s.inbuf ++ bytes).length () (s.inbuf ++ bytes)
    have room := length_lt_of_nextPacket
      (packetReader_read_none.mp (packetReader.drain_stuck (s := ()) (Nat.le_refl (s.inbuf ++ bytes).length)))
    simp only [onReadEvent, processInput_eq_drain, if_neg (Nat.not_le_of_lt room)]
    exact ⟨reads, trivial⟩

end AsyncTCPSocket

/-! ## Every run -/

namespace TcpLink

/-- What the two ends and the bytes between them have in common. -/
structure Framed (l : TcpLink) : Prop where
  frames : l.sent ++ l.sender.outbuf = l.kept.flatMap frame
  stream : ∃ received, l.sent = received ++ l.wire ∧
    packetReader.Reads () received l.signalled () l.peer.inbuf
  room : l.overflowed = false

namespace Framed

variable {l : TcpLink}

theorem initial : Framed {} where
  frames := rfl
  stream := ⟨[], rfl, .refl _ _⟩
  room := rfl

/-- Bytes that go out join the end of the stream. -/
theorem stream_wrote (framed : Framed l) (written : Written) :
    ∃ received, (l.wrote written).sent = received ++ (l.wrote written).wire ∧
      packetReader.Reads () received l.signalled () l.peer.inbuf := by
  obtain ⟨received, sent, reads⟩ := framed.stream
  exact ⟨received, by simp only [wrote, sent, List.append_assoc], reads⟩

theorem step_send (framed : Framed l) (packet : List UInt8) (answer : WriteAnswer) :
    Framed (l.step (.send packet answer)) where
  frames := by
    simp only [step, wrote]
    split
    · next dropped =>
      obtain ⟨nothing, same⟩ := AsyncTCPSocket.send_dropped dropped
      rw [nothing, same, List.append_nil]
      exact framed.frames
    · next kept =>
      rw [List.append_assoc, (AsyncTCPSocket.send_kept kept).1, ← List.append_assoc, framed.frames]
      simp
  stream := framed.stream_wrote _
  room := framed.room

theorem step_writeEvent (framed : Framed l) (answer : WriteAnswer) :
    Framed (l.step (.writeEvent answer)) where
  frames := by
    simp only [step, wrote]
    rw [List.append_assoc, (l.sender.onWriteEvent_spec answer).1]
    exact framed.frames
  stream := framed.stream_wrote _
  room := framed.room

theorem step_readEvent (framed : Framed l) (answer : ReadAnswer) :
    Framed (l.step (.readEvent answer)) where
  frames := framed.frames
  stream := by
    obtain ⟨received, sent, reads⟩ := framed.stream
    obtain ⟨read, -⟩ := l.peer.onReadEvent_spec (l.arriving answer)
    refine ⟨received ++ (l.arriving answer).getD [], ?_, (reads.more _).trans read⟩
    have front : (l.arriving answer).getD [] ++ l.wire.drop ((l.arriving answer).getD []).length =
        l.wire := by
      cases answer with
      | error => rfl
      | delivers count =>
        simp only [arriving, Option.getD_some, List.length_take]
        rw [List.take_eq_take_min]
        exact List.take_append_drop _ _
    simp only [step]
    rw [List.append_assoc, front]
    exact sent
  room := by
    simp only [step, framed.room, (l.peer.onReadEvent_spec (l.arriving answer)).2, Bool.or_self]

theorem step (framed : Framed l) : (step : TcpStep) → Framed (l.step step)
  | .send packet answer => framed.step_send packet answer
  | .writeEvent answer => framed.step_writeEvent answer
  | .readEvent answer => framed.step_readEvent answer

/-- Only what belongs to a packet that was kept goes out. -/
theorem sent_prefix (framed : Framed l) : l.sent <+: l.kept.flatMap frame :=
  ⟨l.sender.outbuf, framed.frames⟩

/-- Where the prefix can describe every packet, the packets come back in order. -/
theorem signalled_prefix (framed : Framed l)
    (small : ∀ packet ∈ l.kept, packet.length < 2 ^ 16) : l.signalled <+: l.kept := by
  obtain ⟨received, sent, reads⟩ := framed.stream
  have all := reads.more (l.wire ++ l.sender.outbuf)
  rw [← List.append_assoc, ← sent, framed.frames] at all
  obtain ⟨missing, kept, -⟩ := all.catch_up (reads_frames small) rfl
  exact ⟨missing, kept.symm⟩

end Framed

/-- The packet is dropped, or the length prefix can describe it. -/
def Describes (l : TcpLink) : TcpStep → Prop
  | .send packet answer => l.sender.Drops packet answer ∨ packet.length ≠ maxPacketSize
  | _ => True

instance (l : TcpLink) : (step : TcpStep) → Decidable (l.Describes step)
  | .send packet answer =>
      inferInstanceAs (Decidable (l.sender.Drops packet answer ∨ packet.length ≠ maxPacketSize))
  | .writeEvent _ | .readEvent _ => .isTrue trivial

theorem kept_small {l : TcpLink} {input : TcpStep} (describes : l.Describes input)
    (small : ∀ packet ∈ l.kept, packet.length < 2 ^ 16) :
    ∀ packet ∈ (l.step input).kept, packet.length < 2 ^ 16 := by
  cases input with
  | writeEvent answer => exact small
  | readEvent answer => exact small
  | send packet answer =>
    simp only [step]
    split
    · exact small
    · next kept =>
      have size : packet.length ≠ maxPacketSize := describes.resolve_left kept
      have accepted : packet.length ≤ maxPacketSize := Nat.le_of_not_lt fun large => kept (.inl large)
      intro other listed
      rcases List.mem_append.mp listed with earlier | this
      · exact small other earlier
      · obtain rfl := List.mem_singleton.mp this
        rw [maxPacketSize] at size accepted
        omega

/-- The peer signals a front part of the packets that were not dropped, a dropped
packet sends nothing, and the input buffer never overflows. -/
theorem packets_delivered {steps : List TcpStep} (describes : Along step Describes {} steps) :
    (run {} steps).signalled <+: (run {} steps).kept ∧
      (run {} steps).sent <+: (run {} steps).kept.flatMap frame ∧
      (∀ packet answer, (run {} steps).sender.Drops packet answer →
        ((run {} steps).sender.send packet answer).bytes = [] ∧
          ((run {} steps).sender.send packet answer).socket = (run {} steps).sender) ∧
      (run {} steps).overflowed = false := by
  obtain ⟨framed, small⟩ := describes.invariant
    (P := fun l => Framed l ∧ ∀ packet ∈ l.kept, packet.length < 2 ^ 16)
    (fun l input describes ⟨framed, small⟩ => ⟨framed.step input, kept_small describes small⟩)
    ⟨Framed.initial, fun _ listed => absurd listed List.not_mem_nil⟩
  exact ⟨framed.signalled_prefix small, framed.sent_prefix,
    fun _ _ dropped => AsyncTCPSocket.send_dropped dropped, framed.room⟩

/-- Two packets, the second one dropped, in pieces of three bytes. -/
theorem packets_delivered_sample :
    (run {} [.send [1, 2] (.takes 3), .send [3] (.takes 3), .readEvent (.delivers 3),
      .writeEvent (.takes 3), .readEvent (.delivers 3)]).signalled <+: [[1, 2]] :=
  (@packets_delivered [.send [1, 2] (.takes 3), .send [3] (.takes 3),
    .readEvent (.delivers 3), .writeEvent (.takes 3), .readEvent (.delivers 3)] (by decide)).1

/-- The prefix of a packet of 2^16 bytes is zero. -/
theorem frame_largest {packet : List UInt8} (large : packet.length = maxPacketSize) :
    frame packet = 0 :: 0 :: packet := by
  rw [frame, large]
  rfl

/-- The first two bytes of a packet of 2^16 bytes go out. -/
theorem send_largest {packet : List UInt8} (large : packet.length = maxPacketSize) :
    step {} (.send packet (.takes 2)) =
      { sender := { outbuf := packet }, wire := [0, 0], sent := [0, 0], kept := [packet] } := by
  have taken : (WriteAnswer.takes 2).result (frame packet).length = 2 := by
    rw [length_frame, large]
    rfl
  have kept : ¬ AsyncTCPSocket.Drops {} packet (.takes 2) := by
    simp only [AsyncTCPSocket.Drops, taken, large]
    decide
  have accepted : ¬ maxPacketSize < packet.length := by omega
  have whole : Int.toNat 2 ≤ (frame packet).length := by
    rw [length_frame, large]
    decide
  have flushed : AsyncTCPSocket.flush { outbuf := frame packet } (.takes 2) =
      { result := 2, bytes := [0, 0], socket := { outbuf := packet } } := by
    simp only [AsyncTCPSocket.flush, taken]
    rw [if_neg (by decide), if_pos whole, frame_largest large]
    rfl
  simp only [step, wrote, if_neg kept, AsyncTCPSocket.send, if_neg accepted, flushed]
  rfl

theorem largest_packet_lost :
    ¬ (run {} [.send (.replicate maxPacketSize 0) (.takes 2),
        .readEvent (.delivers 2)]).signalled <+:
      (run {} [.send (.replicate maxPacketSize 0) (.takes 2), .readEvent (.delivers 2)]).kept := by
  have large : (List.replicate maxPacketSize (0 : UInt8)).length = maxPacketSize :=
    List.length_replicate
  generalize List.replicate maxPacketSize (0 : UInt8) = packet at large ⊢
  rw [run, runInputs_cons, send_largest large]
  intro same
  have first : ([] : List UInt8) = packet := by
    simpa [step, arriving, AsyncTCPSocket.onReadEvent, AsyncTCPSocket.processInput, nextPacket,
      pktLenSize, bufSize, maxPacketSize, BigEndian.ofBytes] using same
  rw [← first] at large
  cases large

end TcpLink

end Libjingle.Base
