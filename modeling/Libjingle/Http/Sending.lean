import Libjingle.Std.CString
import Libjingle.Std.Loop
import Libjingle.Strings.Codecs
import Mathlib.Data.Prod.Lex

/-!
# Sending

`HttpBase::flush_data` in `talk/base/httpbase.cc`: headers and pieces of the source document are
queued until the buffer is full, and the buffer is written to the network. A blocked write ends the
loop only where nothing more can be queued, which is not noticed if there is no document.
-/

namespace Libjingle.Http.Sending

open Libjingle.Std

/-! ## Streams -/

/-- What a read of the document gives. -/
inductive ReadResult
  | success (data : List UInt8)
  | block
  | eos
  | error

/-- What a write to the network gives. -/
inductive WriteResult
  | success (written : Nat)
  | block
  | error
  deriving DecidableEq

/-- How the streams answer during a call: the document by the number of the read and the room for it,
the network by the number of the write and the bytes that are offered. -/
structure Streams where
  document : Option (Nat → Nat → ReadResult)
  write : Nat → List UInt8 → WriteResult

/-- The document delivers finitely many pieces, which are not empty. The network accepts a byte at
least of what it is offered, or fails, or blocks from then on. -/
structure Streams.Lawful (streams : Streams) : Prop where
  finite : ∀ read, streams.document = some read →
    ∃ last, ∀ k, last ≤ k → ∀ room data, read k room ≠ .success data
  pieces : ∀ read, streams.document = some read →
    ∀ k room data, read k room = .success data → data ≠ [] ∧ data.length ≤ room
  accepts : ∀ k buffer written, streams.write k buffer = .success written →
    written ≤ buffer.length ∧ (buffer ≠ [] → 0 < written)
  keeps : ∀ k buffer, streams.write k buffer = .block →
    ∀ k', k < k' → ∀ buffer', streams.write k' buffer' = .block

/-! ## The loop -/

def kBufferSize : Nat := 32 * 1024

def kChunkDigits : Nat := 8

/-- What the loop works on: the buffer up to `len_`, the headers from `header_` on, and how often the
streams were called. -/
structure Flush where
  buffer : List UInt8
  headers : List (List UInt8 × List UInt8)
  chunkData : Bool
  sendRequired : Bool
  reads : Nat
  writes : Nat

/-- How the loop is left. -/
inductive Left
  | complete
  | readError
  | writeError
  | waits

/-- `sprintfn` of a text. -/
def sprintfn (buflen : Nat) (text : List UInt8) : List UInt8 :=
  text.take (buflen - 1)

def crlf : List UInt8 := [0x0D, 0x0A]

/-- A header as it is printed. -/
def headerLine (header : List UInt8 × List UInt8) : List UInt8 :=
  CString.terminated header.1 ++ CString.ofString ": " ++ CString.terminated header.2 ++ crlf

/-- `queue_headers`: the buffer, the headers left, and whether the network has to be written to
first. -/
def queueHeaders (buffer : List UInt8) :
    List (List UInt8 × List UInt8) → List UInt8 × List (List UInt8 × List UInt8) × Bool
  | [] => (buffer ++ crlf, [], false)
  | header :: headers =>
      let line := sprintfn (kBufferSize - buffer.length) (headerLine header)
      if buffer.length + line.length < kBufferSize - 3 then queueHeaders (buffer ++ line) headers
      else if buffer.length = 0 then queueHeaders buffer headers
      else (buffer, header :: headers, true)

/-- The first part of a round: more header data. -/
def queued (s : Flush) : Flush :=
  if ¬ s.sendRequired ∧ s.headers ≠ [] then
    { s with
      buffer := (queueHeaders s.buffer s.headers).1
      headers := (queueHeaders s.buffer s.headers).2.1
      sendRequired := (queueHeaders s.buffer s.headers).2.2 }
  else s

/-- The length of a chunk, in eight digits. -/
def chunkLength : Nat → Nat → List UInt8
  | 0, _ => []
  | digits + 1, n => chunkLength digits (n / 16) ++ [Strings.hexEncodeChar (UInt8.ofNat (n % 16))]

/-- Where the data of a read stand behind what is queued, and how much of the buffer they do not
get. -/
def chunkOffset (s : Flush) : Nat :=
  if s.chunkData then s.buffer.length + kChunkDigits + 2 else s.buffer.length

def chunkReserve (s : Flush) : Nat :=
  if s.chunkData then chunkOffset s + 2 else chunkOffset s

/-- The data of a read, as a chunk if the data go in chunks. -/
def chunk (chunkData : Bool) (data : List UInt8) : List UInt8 :=
  if chunkData then chunkLength kChunkDigits data.length ++ crlf ++ data ++ crlf else data

/-- The second part of a round: document data. -/
def drawn (streams : Streams) (s : Flush) : Except Left Flush :=
  match streams.document with
  | some read =>
      if s.sendRequired then .ok s
      else if kBufferSize ≤ chunkReserve s then .ok { s with sendRequired := true }
      else
        match read s.reads (kBufferSize - chunkReserve s) with
        | .success data =>
            .ok { s with buffer := s.buffer ++ chunk s.chunkData data, reads := s.reads + 1 }
        | .block => .ok { s with sendRequired := true, reads := s.reads + 1 }
        | .eos =>
            if s.chunkData then
              .ok { s with
                buffer := s.buffer ++ (0x30 :: crlf ++ crlf)
                chunkData := false
                sendRequired := true
                reads := s.reads + 1 }
            else if s.buffer.length = 0 then .error .complete
            else .ok { s with sendRequired := true, reads := s.reads + 1 }
        | .error => .error .readError
  | none => .ok s

/-- The third part of a round: what is queued goes to the network. -/
def sent (streams : Streams) (s : Flush) : Except Left Flush :=
  if s.buffer.length = 0 then
    .error (if streams.document.isNone then .complete else .waits)
  else
    match streams.write s.writes s.buffer with
    | .success written =>
        .ok { s with
          buffer := s.buffer.drop written
          sendRequired := false
          writes := s.writes + 1 }
    | .block =>
        if s.sendRequired then .error .waits else .ok { s with writes := s.writes + 1 }
    | .error => .error .writeError

/-- A round of the loop. -/
def round (streams : Streams) (s : Flush) : Except Left Flush :=
  (drawn streams (queued s)).bind (sent streams)

/-- The state in which `flush_data` enters its loop. -/
def enter (buffer : List UInt8) (headers : List (List UInt8 × List UInt8)) (chunkData : Bool) :
    Flush :=
  { buffer, headers, chunkData, sendRequired := kBufferSize ≤ buffer.length, reads := 0, writes := 0 }

/-- The network or the document blocks in a round. -/
def Blocked (streams : Streams) (s : Flush) : Prop :=
  (∃ buffer, streams.write s.writes buffer = .block) ∨
    ∃ read room, streams.document = some read ∧ read s.reads room = .block

/-- `flush_data` leaves its loop, and if it waits, the network or the document blocks. -/
def Leaves (streams : Streams) : Flush → Prop :=
  Loop.Leaves (round streams) fun s left => left = .waits → Blocked streams s

/-- The network blocks in a round where there is no document, no header is left, and the buffer is
not known to be full. -/
def Spins (streams : Streams) (s : Flush) : Prop :=
  streams.document = none ∧ (queued s).headers = [] ∧ (queued s).sendRequired = false ∧
    (queued s).buffer ≠ [] ∧ streams.write s.writes (queued s).buffer = .block

variable {streams : Streams} {last : Nat} {s t s' : Flush} {left : Left}

/-! ## The parts of a round -/

theorem queueHeaders_ne_nil (buffer : List UInt8) (headers : List (List UInt8 × List UInt8)) :
    (queueHeaders buffer headers).1 ≠ [] := by
  fun_induction queueHeaders buffer headers with
  | case1 buffer => exact List.append_ne_nil_of_right_ne_nil _ (by decide)
  | case2 buffer header headers line room ih => exact ih
  | case3 buffer header headers line room bare ih => exact ih
  | case4 buffer header headers line room some_bytes =>
    exact fun none => some_bytes (List.length_eq_zero_iff.mpr none)

theorem queueHeaders_headers (buffer : List UInt8) (headers : List (List UInt8 × List UInt8)) :
    (queueHeaders buffer headers).2.1.length ≤ headers.length ∧
      ((queueHeaders buffer headers).2.2 = false → (queueHeaders buffer headers).2.1 = []) := by
  fun_induction queueHeaders buffer headers with
  | case1 buffer => exact ⟨Nat.le_refl _, fun _ => rfl⟩
  | case2 buffer header headers line room ih => exact ⟨Nat.le_succ_of_le ih.1, ih.2⟩
  | case3 buffer header headers line room bare ih => exact ⟨Nat.le_succ_of_le ih.1, ih.2⟩
  | case4 buffer header headers line room some_bytes => exact ⟨Nat.le_refl _, nofun⟩

/-- No header is queued only if the first one is held back. -/
theorem queueHeaders_held {buffer : List UInt8} {headers : List (List UInt8 × List UInt8)}
    (some_headers : headers ≠ [])
    (held : (queueHeaders buffer headers).2.1.length = headers.length) :
    (queueHeaders buffer headers).1 = buffer := by
  cases headers with
  | nil => exact absurd rfl some_headers
  | cons header headers =>
    have fewer : ∀ buffer', (queueHeaders buffer' headers).2.1.length ≠ (header :: headers).length :=
      fun buffer' same => by
        have fewer := (queueHeaders_headers buffer' headers).1
        rw [List.length_cons] at same
        omega
    simp only [queueHeaders] at held ⊢
    split at held
    · exact absurd held (fewer _)
    · next full =>
      rw [if_neg full]
      split at held
      · exact absurd held (fewer _)
      · next some_bytes => rw [if_neg some_bytes]

/-- What the first part leaves alone, and what it comes to. -/
theorem queued_spec (s : Flush) :
    ((queued s).chunkData = s.chunkData ∧ (queued s).reads = s.reads ∧
      (queued s).writes = s.writes) ∧
      ((queued s).headers.length < s.headers.length ∨
        (queued s).headers.length = s.headers.length ∧ (queued s).buffer = s.buffer) ∧
      ((queued s).sendRequired = false → (queued s).headers = []) := by
  have length := (queueHeaders_headers s.buffer s.headers).1
  unfold queued
  split
  · next queues =>
    refine ⟨⟨rfl, rfl, rfl⟩, ?_, (queueHeaders_headers s.buffer s.headers).2⟩
    rcases Nat.lt_or_eq_of_le length with fewer | held
    · exact .inl fewer
    · exact .inr ⟨held, queueHeaders_held queues.2 held⟩
  · next rests =>
    refine ⟨⟨rfl, rfl, rfl⟩, .inr ⟨rfl, rfl⟩, fun free => ?_⟩
    by_contra some_headers
    exact rests ⟨by rw [free]; decide, some_headers⟩

theorem queued_buffer (s : Flush) (inv : s.sendRequired = true → s.buffer ≠ []) :
    (queued s).sendRequired = true → (queued s).buffer ≠ [] := by
  unfold queued
  split
  · exact fun _ => queueHeaders_ne_nil _ _
  · exact inv

/-- What the second part can come to. -/
inductive Draws (streams : Streams) (s : Flush) : Except Left Flush → Prop
  | bare (document : streams.document = none) : Draws streams s (.ok s)
  | required (required : s.sendRequired = true) : Draws streams s (.ok s)
  | full (full : kBufferSize ≤ chunkReserve s) : Draws streams s (.ok { s with sendRequired := true })
  | piece {read data} (document : streams.document = some read)
      (result : read s.reads (kBufferSize - chunkReserve s) = .success data) :
      Draws streams s
        (.ok { s with buffer := s.buffer ++ chunk s.chunkData data, reads := s.reads + 1 })
  | block {read} (document : streams.document = some read)
      (result : read s.reads (kBufferSize - chunkReserve s) = .block) :
      Draws streams s (.ok { s with sendRequired := true, reads := s.reads + 1 })
  | lastChunk (chunks : s.chunkData = true) :
      Draws streams s (.ok { s with
        buffer := s.buffer ++ (0x30 :: crlf ++ crlf)
        chunkData := false
        sendRequired := true
        reads := s.reads + 1 })
  | complete : Draws streams s (.error .complete)
  | eos (some_bytes : s.buffer.length ≠ 0) :
      Draws streams s (.ok { s with sendRequired := true, reads := s.reads + 1 })
  | error : Draws streams s (.error .readError)

theorem draws_drawn (streams : Streams) (s : Flush) : Draws streams s (drawn streams s) := by
  unfold drawn
  split
  · next read document =>
    split
    · next required => exact .required required
    split
    · next full => exact .full full
    split
    · next data result => exact .piece document result
    · next result => exact .block document result
    · split
      · next chunks => exact .lastChunk chunks
      split
      · exact .complete
      · next some_bytes => exact .eos some_bytes
    · exact .error
  · next document => exact .bare document

/-- The second part reads a piece that is not the last one, or ends the chunks, or leaves what is
queued alone. -/
theorem drawn_spec (final : ∀ read, streams.document = some read →
      ∀ k, last ≤ k → ∀ room data, read k room ≠ .success data)
    (draws : drawn streams s = .ok t) :
    (t.writes = s.writes ∧ t.headers = s.headers) ∧
      (last - t.reads < last - s.reads ∨ last - t.reads = last - s.reads ∧
        (t.chunkData.toNat < s.chunkData.toNat ∨ t.chunkData = s.chunkData ∧ t.buffer = s.buffer ∧
          (t.sendRequired = true ∨ streams.document = none ∧ t = s))) := by
  have fewer : last - (s.reads + 1) < last - s.reads ∨ last - (s.reads + 1) = last - s.reads := by
    omega
  have cases := draws_drawn streams s
  rw [draws] at cases
  cases cases with
  | bare document => exact ⟨⟨rfl, rfl⟩, .inr ⟨rfl, .inr ⟨rfl, rfl, .inr ⟨document, rfl⟩⟩⟩⟩
  | required required => exact ⟨⟨rfl, rfl⟩, .inr ⟨rfl, .inr ⟨rfl, rfl, .inl required⟩⟩⟩
  | full full => exact ⟨⟨rfl, rfl⟩, .inr ⟨rfl, .inr ⟨rfl, rfl, .inl rfl⟩⟩⟩
  | piece document result =>
    have early : ¬ last ≤ s.reads := fun late => final _ document _ late _ _ result
    exact ⟨⟨rfl, rfl⟩, .inl (by dsimp only; omega)⟩
  | block document result =>
    exact ⟨⟨rfl, rfl⟩, fewer.imp_right fun same => ⟨same, .inr ⟨rfl, rfl, .inl rfl⟩⟩⟩
  | lastChunk chunks =>
    exact ⟨⟨rfl, rfl⟩, fewer.imp_right fun same => ⟨same, .inl (by rw [chunks]; exact Nat.one_pos)⟩⟩
  | eos some_bytes =>
    exact ⟨⟨rfl, rfl⟩, fewer.imp_right fun same => ⟨same, .inr ⟨rfl, rfl, .inl rfl⟩⟩⟩

/-- The third part sends some of the buffer, or goes on in spite of a network that blocks. -/
theorem sent_spec (lawful : streams.Lawful) (sends : sent streams t = .ok s') :
    s'.chunkData = t.chunkData ∧ s'.headers = t.headers ∧ s'.reads = t.reads ∧
      s'.sendRequired = false ∧ t.buffer ≠ [] ∧
      (s'.buffer.length < t.buffer.length ∨
        s'.buffer = t.buffer ∧ t.sendRequired = false ∧
          streams.write t.writes t.buffer = .block) := by
  unfold sent at sends
  split at sends
  · cases sends
  · next some_bytes =>
    have some_buffer : t.buffer ≠ [] := fun none => some_bytes (List.length_eq_zero_iff.mpr none)
    split at sends
    · next written result =>
      obtain rfl := Except.ok.inj sends
      have positive := (lawful.accepts _ _ _ result).2 some_buffer
      refine ⟨rfl, rfl, rfl, rfl, some_buffer, .inl ?_⟩
      rw [List.length_drop]
      omega
    · next result =>
      split at sends
      · cases sends
      · next free =>
        obtain rfl := Except.ok.inj sends
        have free : t.sendRequired = false := Bool.eq_false_iff.mpr free
        exact ⟨rfl, rfl, rfl, free, some_buffer, .inr ⟨rfl, free, result⟩⟩
    · cases sends

/-! ## The measure -/

/-- What is left: pieces of the document, the end of the chunks, headers, bytes in the buffer. -/
def ahead (last : Nat) (s : Flush) : ℕ ×ₗ ℕ ×ₗ ℕ ×ₗ ℕ :=
  toLex (last - s.reads, toLex (s.chunkData.toNat, toLex (s.headers.length, s.buffer.length)))

theorem ahead_lt_iff : ahead last s' < ahead last s ↔
    last - s'.reads < last - s.reads ∨ last - s'.reads = last - s.reads ∧
      (s'.chunkData.toNat < s.chunkData.toNat ∨ s'.chunkData.toNat = s.chunkData.toNat ∧
        (s'.headers.length < s.headers.length ∨ s'.headers.length = s.headers.length ∧
          s'.buffer.length < s.buffer.length)) := by
  simp only [ahead, Prod.Lex.toLex_lt_toLex]

theorem round_parts (next : round streams s = .ok s') :
    ∃ t, drawn streams (queued s) = .ok t ∧ sent streams t = .ok s' := by
  unfold round at next
  cases draws : drawn streams (queued s) with
  | error left =>
    rw [draws] at next
    cases next
  | ok t =>
    rw [draws] at next
    exact ⟨t, rfl, next⟩

/-- A round comes closer to the end, or blocks with nothing left to queue. -/
theorem round_falls (lawful : streams.Lawful)
    (final : ∀ read, streams.document = some read →
      ∀ k, last ≤ k → ∀ room data, read k room ≠ .success data)
    (next : round streams s = .ok s') : Spins streams s ∨ ahead last s' < ahead last s := by
  obtain ⟨t, draws, sends⟩ := round_parts next
  obtain ⟨⟨chunks, reads, writes⟩, headers, free⟩ := queued_spec s
  obtain ⟨⟨t_writes, t_headers⟩, drawing⟩ := drawn_spec final draws
  obtain ⟨s_chunks, s_headers, s_reads, -, some_buffer, sending⟩ := sent_spec lawful sends
  rw [ahead_lt_iff, s_chunks, s_headers, s_reads, t_headers, ← reads, ← chunks]
  rcases drawing with piece | ⟨same_reads, ended | ⟨same_chunks, same_buffer, held⟩⟩
  · exact .inr (.inl piece)
  · exact .inr (.inr ⟨same_reads, .inl ended⟩)
  rw [same_buffer] at sending
  rcases headers with fewer | ⟨same_headers, buffer⟩
  · exact .inr (.inr ⟨same_reads, .inr ⟨by rw [same_chunks], .inl fewer⟩⟩)
  rcases sending with shorter | ⟨-, t_free, blocks⟩
  · rw [buffer] at shorter
    exact .inr (.inr ⟨same_reads, .inr ⟨by rw [same_chunks], .inr ⟨same_headers, shorter⟩⟩⟩)
  rcases held with required | ⟨bare, rfl⟩
  · rw [required] at t_free
    cases t_free
  · rw [writes] at blocks
    exact .inl ⟨bare, free t_free, t_free, some_buffer, blocks⟩


/-! ## Leaving the loop -/

/-- Only a buffer with something in it has to be sent first. -/
def Inv (s : Flush) : Prop :=
  s.sendRequired = true → s.buffer ≠ []

theorem inv_of_round (lawful : streams.Lawful) (next : round streams s = .ok s') : Inv s' := by
  obtain ⟨t, -, sends⟩ := round_parts next
  intro required
  rw [(sent_spec lawful sends).2.2.2.1] at required
  cases required

theorem enter_inv (buffer : List UInt8) (headers : List (List UInt8 × List UInt8))
    (chunkData : Bool) : Inv (enter buffer headers chunkData) := by
  rintro full rfl
  have none_free : kBufferSize ≤ 0 := of_decide_eq_true full
  exact absurd none_free (by decide)

theorem sent_waits (waits : sent streams t = .error .waits) :
    (t.buffer = [] ∧ streams.document ≠ none) ∨ streams.write t.writes t.buffer = .block := by
  unfold sent at waits
  split at waits
  · next none_left =>
    refine .inl ⟨List.length_eq_zero_iff.mp none_left, fun bare => ?_⟩
    rw [bare] at waits
    cases waits
  · split at waits
    · cases waits
    · next blocks => exact .inr blocks
    · cases waits

theorem drawn_writes (draws : drawn streams s = .ok t) : t.writes = s.writes := by
  have cases := draws_drawn streams s
  rw [draws] at cases
  cases cases <;> rfl

theorem drawn_ne_waits (streams : Streams) (s : Flush) : drawn streams s ≠ .error .waits := by
  intro waits
  have cases := draws_drawn streams s
  rw [waits] at cases
  cases cases

/-- Nothing is queued only if the document blocks. -/
theorem drawn_nil (lawful : streams.Lawful) (inv : s.sendRequired = true → s.buffer ≠ [])
    (draws : drawn streams s = .ok t) (none_left : t.buffer = [])
    (some_document : streams.document ≠ none) :
    ∃ read room, streams.document = some read ∧ read s.reads room = .block := by
  have cases := draws_drawn streams s
  rw [draws] at cases
  cases cases with
  | bare document => exact absurd document some_document
  | required required => exact absurd none_left (inv required)
  | full full =>
    have none_left : s.buffer = [] := none_left
    simp only [chunkReserve, chunkOffset, none_left, kBufferSize, kChunkDigits] at full
    split at full <;> simp at full
  | piece document result =>
    have no_data := (List.append_eq_nil_iff.mp none_left).2
    unfold chunk at no_data
    split at no_data
    · simp [crlf] at no_data
    · exact absurd no_data (lawful.pieces _ document _ _ _ result).1
  | block document result => exact ⟨_, _, document, result⟩
  | lastChunk chunks => simp at none_left
  | eos some_bytes => exact absurd (List.length_eq_zero_iff.mpr none_left) some_bytes

/-- A round that leaves the loop to wait is one in which the network or the document blocks. -/
theorem round_waits (lawful : streams.Lawful) (inv : Inv s) (waits : round streams s = .error .waits) :
    Blocked streams s := by
  obtain ⟨⟨-, reads, writes⟩, -, -⟩ := queued_spec s
  unfold round at waits
  cases draws : drawn streams (queued s) with
  | error left =>
    rw [draws] at waits
    cases waits
    exact absurd draws (drawn_ne_waits streams _)
  | ok t =>
    rw [draws] at waits
    rcases sent_waits waits with ⟨none_left, some_document⟩ | blocks
    · have blocks := drawn_nil lawful (queued_buffer s inv) draws none_left some_document
      rw [reads] at blocks
      exact .inr blocks
    · rw [drawn_writes draws, writes] at blocks
      exact .inl ⟨_, blocks⟩

/-- Where the network blocks and nothing is left to queue, the next round is the same. -/
theorem spins_stays (lawful : streams.Lawful) (s : Flush) (spins : Spins streams s) :
    ∃ s', round streams s = .ok s' ∧ Spins streams s' := by
  obtain ⟨bare, no_headers, free, some_buffer, blocks⟩ := spins
  obtain ⟨⟨-, -, writes⟩, -, -⟩ := queued_spec s
  have some_bytes : (queued s).buffer.length ≠ 0 := fun none =>
    some_buffer (List.length_eq_zero_iff.mp none)
  have goes_on : round streams s = .ok { queued s with writes := s.writes + 1 } := by
    simp [round, drawn, bare, Except.bind, sent, some_bytes, blocks, free, writes]
  have rests : queued { queued s with writes := s.writes + 1 } =
      { queued s with writes := s.writes + 1 } := by
    rw [queued, if_neg]
    exact fun queues => queues.2 no_headers
  refine ⟨_, goes_on, bare, ?_⟩
  rw [rests]
  exact ⟨no_headers, free, some_buffer,
    lawful.keeps _ _ blocks _ (Nat.lt_succ_self _) _⟩

/-- `flush_data` leaves its loop if there is a document, or the network does not block where no
header is left, and only then. -/
theorem flush_leaves_iff (lawful : streams.Lawful) (buffer : List UInt8)
    (headers : List (List UInt8 × List UInt8)) (chunkData : Bool) :
    Leaves streams (enter buffer headers chunkData) ↔ streams.document ≠ none ∨
      ∀ n s, Loop.before (round streams) n (enter buffer headers chunkData) = some s →
        ¬ Spins streams s := by
  have some_last : ∃ last, ∀ read, streams.document = some read →
      ∀ k, last ≤ k → ∀ room data, read k room ≠ .success data := by
    cases document : streams.document with
    | none => exact ⟨0, nofun⟩
    | some read =>
      obtain ⟨last, final⟩ := lawful.finite read document
      exact ⟨last, fun _ same => Option.some.inj same ▸ final⟩
  obtain ⟨last, final⟩ := some_last
  have waits : ∀ s left, Inv s → round streams s = .error left →
      (left = .waits → Blocked streams s) := by
    rintro s _ inv leaving rfl
    exact round_waits lawful inv leaving
  have left := Loop.leaves_iff (ahead last) (fun _ _ _ next => inv_of_round lawful next)
    (fun _ _ _ next => round_falls lawful final next) waits
    (spins_stays lawful) (enter_inv buffer headers chunkData)
  refine left.trans ⟨.inr, ?_⟩
  rintro (some_document | free)
  · exact fun _ _ _ spins => some_document spins.1
  · exact free

/-- A network that blocks. -/
def deaf (document : Option (Nat → Nat → ReadResult)) : Streams :=
  ⟨document, fun _ _ => .block⟩

theorem deaf_lawful {document : Option (Nat → Nat → ReadResult)}
    (no_pieces : ∀ read, document = some read → ∀ k room data, read k room ≠ .success data) :
    (deaf document).Lawful where
  finite read some_document := ⟨0, fun k _ => no_pieces read some_document k⟩
  pieces read some_document k room data piece :=
    absurd piece (no_pieces read some_document k room data)
  accepts _ _ _ taken := by cases taken
  keeps _ _ _ _ _ _ := rfl

/-- A request whose document has ended waits for the network. -/
theorem leaves_ended :
    Leaves (deaf (some fun _ _ => .eos)) (enter (CString.ofString "PUT /a HTTP/1.1\r\n")
      [(CString.ofString "Host", CString.ofString "b")] false) := by
  have no_pieces : ∀ read : Nat → Nat → ReadResult, some (fun _ _ => .eos) = some read →
      ∀ k room data, read k room ≠ .success data := by
    rintro _ same k room data
    obtain rfl := Option.some.inj same
    nofun
  exact (flush_leaves_iff (deaf_lawful no_pieces) _ _ _).mpr (.inl nofun)

/-- A request without a document is offered to a network that blocks again and again. -/
theorem bare_spins :
    ¬ ∀ streams : Streams, streams.Lawful → ∀ buffer headers chunkData,
      Leaves streams (enter buffer headers chunkData) := by
  intro all
  have lawful : (deaf none).Lawful := deaf_lawful nofun
  refine Loop.not_leaves_of_trap (spins_stays lawful) ?_
    (all _ lawful (CString.ofString "GET /a HTTP/1.1\r\n")
      [(CString.ofString "Host", CString.ofString "b")] false)
  exact ⟨rfl, by decide +kernel, by decide +kernel, by decide +kernel, rfl⟩

end Libjingle.Http.Sending
