import Libjingle.Base.FifoBuffer
import Libjingle.Std.CString
import Libjingle.Std.Trace

/-!
# Multipart streams

`MultipartStream` in `talk/base/multipart.cc`, over the memory streams of `talk/base/stream.cc`.
-/

namespace Libjingle.Base

open Libjingle.Std CString

/-! ## Memory streams -/

/-- A `MemoryStream` that is only read. -/
structure MemoryStream where
  data : List UInt8
  seekPosition : Nat
  inside : seekPosition ≤ data.length
  deriving DecidableEq

namespace MemoryStream

/-- `SetData`. -/
def ofData (data : List UInt8) : MemoryStream :=
  ⟨data, 0, Nat.zero_le _⟩

def getSize (s : MemoryStream) : Nat :=
  s.data.length

def getAvailable (s : MemoryStream) : Nat :=
  s.data.length - s.seekPosition

/-- The bytes from the position on. -/
def remaining (s : MemoryStream) : List UInt8 :=
  s.data.drop s.seekPosition

def read (s : MemoryStream) (bytes : Nat) : StreamResult × List UInt8 × MemoryStream :=
  if s.data.length ≤ s.seekPosition then (.eos, [], s)
  else
    (.success, s.remaining.take bytes,
      { s with
        seekPosition := s.seekPosition + min bytes (s.data.length - s.seekPosition)
        inside := by have := s.inside; omega })

def setPosition (s : MemoryStream) (position : Nat) : Bool × MemoryStream :=
  if inside : position ≤ s.data.length then (true, ⟨s.data, position, inside⟩) else (false, s)

/-- `Rewind`. -/
def rewind (s : MemoryStream) : Bool × MemoryStream :=
  s.setPosition 0

/-- A stream is at its end, or bytes come off the front of what remains. -/
theorem read_cases (s : MemoryStream) (bytes : Nat) :
    (s.read bytes = (.eos, [], s) ∧ s.remaining = []) ∨
      ∃ taken part, s.read bytes = (.success, taken, part) ∧ part.data = s.data ∧
        s.remaining = taken ++ part.remaining ∧ s.remaining ≠ [] ∧ taken.length ≤ bytes ∧
        (0 < bytes → taken ≠ []) := by
  by_cases ended : s.data.length ≤ s.seekPosition
  · exact .inl ⟨if_pos ended, List.drop_eq_nil_of_le ended⟩
  · refine .inr ⟨_, _, if_neg ended, rfl, ?_, mt List.drop_eq_nil_iff.mp ended, ?_, ?_⟩
    · have split := List.take_append_drop (min bytes (s.data.length - s.seekPosition)) s.remaining
      have enough : s.remaining.take bytes =
          s.remaining.take (min bytes (s.data.length - s.seekPosition)) := by
        rw [← List.length_drop]
        exact List.take_eq_take_min
      rw [enough]
      rw [remaining, List.drop_drop] at split
      exact split.symm
    · exact List.length_take_le _ _
    · intro some_room taken_none
      have length := congrArg List.length taken_none
      rw [List.length_take, remaining, List.length_drop, List.length_nil] at length
      omega

end MemoryStream

/-! ## Multipart streams -/

/-- The fields of the class, but for the type. -/
structure MultipartStream where
  boundary : List UInt8
  parts : List MemoryStream
  adding : Bool
  current : Nat
  position : Nat

namespace MultipartStream

/-- The constructor. -/
def new (boundary : List UInt8) : MultipartStream :=
  { boundary, parts := [], adding := true, current := 0, position := 0 }

def crlf : List UInt8 := [0x0D, 0x0A]

/-- `--`. -/
def dashes : List UInt8 := [0x2D, 0x2D]

/-- The line of a header, which is omitted if it is empty. -/
def headerLine (name : String) (value : List UInt8) : List UInt8 :=
  if value.isEmpty then [] else ofString name ++ [0x3A, 0x20] ++ value ++ crlf

/-- What ends the part in front, if there is one. -/
def separator (m : MultipartStream) : List UInt8 :=
  if m.parts.isEmpty then [] else crlf

/-- What stands in front of the data of a part. -/
def opening (boundary contentDisposition contentType : List UInt8) : List UInt8 :=
  dashes ++ boundary ++ crlf ++ headerLine "Content-Disposition" contentDisposition ++
    headerLine "Content-Type" contentType ++ crlf

/-- `AddPart` of a string. -/
def addPart (m : MultipartStream) (data contentDisposition contentType : List UInt8) :
    Bool × MultipartStream :=
  if !m.adding then (false, m)
  else
    let text := m.separator ++ opening m.boundary contentDisposition contentType ++ data
    (true, { m with parts := m.parts ++ [.ofData text] })

/-- `AddPart` of a stream. -/
def addStreamPart (m : MultipartStream) (dataStream : MemoryStream)
    (contentDisposition contentType : List UInt8) : Bool × MultipartStream :=
  match m.addPart [] contentDisposition contentType with
  | (false, m) => (false, m)
  | (true, m) => (true, { m with parts := m.parts ++ [dataStream] })

def endParts (m : MultipartStream) : MultipartStream :=
  if !m.adding then m
  else
    let text := m.separator ++ dashes ++ m.boundary ++ dashes ++ crlf
    { m with parts := m.parts ++ [.ofData text], adding := false }

def headerSize (name : String) (value : List UInt8) : Nat :=
  if value.isEmpty then 0 else (ofString name).length + 2 + value.length + 2

def separatorSize (m : MultipartStream) : Nat :=
  if m.parts.isEmpty then 0 else 2

def getPartSize (m : MultipartStream) (data contentDisposition contentType : List UInt8) : Nat :=
  m.separatorSize + (m.boundary.length + 4) +
    headerSize "Content-Disposition" contentDisposition +
    headerSize "Content-Type" contentType + (2 + data.length)

def getEndPartSize (m : MultipartStream) : Nat :=
  m.separatorSize + (m.boundary.length + 6)

/-- The loop of `Read`, from the current part on. -/
def readParts (m : MultipartStream) (bufferLen : Nat) :
    StreamResult × List UInt8 × MultipartStream :=
  if inside : m.current < m.parts.length then
    match m.parts[m.current].read bufferLen with
    | (.eos, _, _) => readParts { m with current := m.current + 1 } bufferLen
    | (.success, bytes, part) =>
        (.success, bytes,
          { m with
            parts := m.parts.set m.current part
            position := m.position + bytes.length })
    | (result, bytes, part) => (result, bytes, { m with parts := m.parts.set m.current part })
  else (.eos, [], m)
termination_by m.parts.length - m.current

def read (m : MultipartStream) (bufferLen : Nat) : StreamResult × List UInt8 × MultipartStream :=
  if m.adding then (.block, [], m) else m.readParts bufferLen

/-- The first part that reaches beyond a position: its index, and where in it the position is. -/
def findPart (position : Nat) : List MemoryStream → Nat → Nat → Option (Nat × MemoryStream × Nat)
  | [], _, _ => none
  | part :: parts, i, partOffset =>
      if position < partOffset + part.getSize then some (i, part, position - partOffset)
      else findPart position parts (i + 1) (partOffset + part.getSize)

/-- The parts between two indices are rewound. -/
def rewindParts (first last : Nat) (parts : List MemoryStream) : List MemoryStream :=
  parts.mapIdx fun j part => if first ≤ j ∧ j < last then part.rewind.2 else part

def setPosition (m : MultipartStream) (position : Nat) : Bool × MultipartStream :=
  if m.adding then (false, m)
  else
    match findPart position m.parts 0 0 with
    | none => (false, m)
    | some (i, part, offset) =>
        let rewound := rewindParts (i + 1) (min m.parts.length (m.current + 1)) m.parts
        match part.setPosition offset with
        | (false, _) => (false, { m with parts := rewound })
        | (true, moved) =>
            (true, { m with parts := rewound.set i moved, current := i, position })

def getSize (m : MultipartStream) : Nat :=
  (m.parts.map MemoryStream.getSize).sum

def getAvailable (m : MultipartStream) : Option Nat :=
  if m.adding then none else some ((m.parts.drop m.current).map MemoryStream.getAvailable).sum

/-! ## Parts -/

inductive Body
  | data (bytes : List UInt8)
  | stream (dataStream : MemoryStream)

/-- The arguments of an `AddPart`. -/
structure Part where
  body : Body
  contentDisposition : List UInt8
  contentType : List UInt8

def Body.content : Body → List UInt8
  | .data bytes => bytes
  | .stream dataStream => dataStream.data

/-- A stream stands at its beginning. -/
def Body.AtStart : Body → Prop
  | .data _ => True
  | .stream dataStream => dataStream.seekPosition = 0

instance (body : Body) : Decidable body.AtStart := by
  cases body <;> unfold Body.AtStart <;> infer_instance

def add (m : MultipartStream) (part : Part) : Bool × MultipartStream :=
  match part.body with
  | .data data => m.addPart data part.contentDisposition part.contentType
  | .stream dataStream => m.addStreamPart dataStream part.contentDisposition part.contentType

/-- The size of a part before it is added; a stream comes on top of its headers. -/
def predictedSize (m : MultipartStream) (part : Part) : Nat :=
  match part.body with
  | .data data => m.getPartSize data part.contentDisposition part.contentType
  | .stream dataStream =>
      m.getPartSize [] part.contentDisposition part.contentType + dataStream.getSize

def addParts (boundary : List UInt8) (added : List Part) : MultipartStream :=
  added.foldl (fun m part => (m.add part).2) (new boundary)

/-- A boundary line, headers and content. -/
def partText (boundary : List UInt8) (part : Part) : List UInt8 :=
  opening boundary part.contentDisposition part.contentType ++ part.body.content

def endText (boundary : List UInt8) : List UInt8 :=
  dashes ++ boundary ++ dashes ++ crlf

/-- The concatenation of all parts. -/
def wholeText (boundary : List UInt8) (added : List Part) : List UInt8 :=
  crlf.intercalate (added.map (partText boundary) ++ [endText boundary])

/-! ## Adding -/

/-- The data of all parts. -/
def text (m : MultipartStream) : List UInt8 :=
  (m.parts.map MemoryStream.data).flatten

theorem getSize_eq (m : MultipartStream) : m.getSize = m.text.length := by
  rw [getSize, text, List.length_flatten, List.map_map]
  rfl

theorem length_headerLine (name : String) (value : List UInt8) :
    (headerLine name value).length = headerSize name value := by
  unfold headerLine headerSize
  split
  · rfl
  · simp [crlf]
    omega

theorem length_separator (m : MultipartStream) : m.separator.length = m.separatorSize := by
  unfold separator separatorSize
  split <;> rfl

/-- What a part adds: its bytes come behind the parts so far, and stand at their beginning if the
part's stream does. -/
theorem add_spec {m : MultipartStream} (part : Part) (adding : m.adding = true) :
    ∃ more, m.add part = (true, { m with parts := m.parts ++ more }) ∧ more ≠ [] ∧
      (more.map MemoryStream.data).flatten = m.separator ++ partText m.boundary part ∧
      (part.body.AtStart → ∀ piece ∈ more, piece.seekPosition = 0) := by
  obtain ⟨body, contentDisposition, contentType⟩ := part
  cases body with
  | data bytes =>
    let text := m.separator ++ opening m.boundary contentDisposition contentType ++ bytes
    refine ⟨[.ofData text], ?_, List.cons_ne_nil _ _, ?_, ?_⟩
    · simp [add, addPart, adding, text]
    · simp [text, MemoryStream.ofData, partText, Body.content]
    · rintro - piece (_ | ⟨_, ⟨⟩⟩)
      rfl
  | stream dataStream =>
    let text := m.separator ++ opening m.boundary contentDisposition contentType ++ []
    refine ⟨[.ofData text, dataStream], ?_, List.cons_ne_nil _ _, ?_, ?_⟩
    · simp [add, addStreamPart, addPart, adding, text]
    · simp [text, MemoryStream.ofData, partText, Body.content]
    · rintro start piece (_ | ⟨_, _ | ⟨_, ⟨⟩⟩⟩)
      · rfl
      · exact start

theorem add_text {m : MultipartStream} (part : Part) (adding : m.adding = true) :
    (m.add part).2.text = m.text ++ (m.separator ++ partText m.boundary part) := by
  obtain ⟨more, added, -, bytes, -⟩ := add_spec part adding
  rw [added, text, List.map_append, List.flatten_append, bytes]
  rfl

theorem endParts_text {m : MultipartStream} (adding : m.adding = true) :
    m.endParts.text = m.text ++ (m.separator ++ endText m.boundary) := by
  simp [endParts, adding, text, endText, MemoryStream.ofData]

/-- The size of a part is known before it is added. -/
theorem add_getSize {m : MultipartStream} (part : Part) (adding : m.adding = true) :
    (m.add part).2.getSize = m.getSize + m.predictedSize part := by
  rw [getSize_eq, getSize_eq, add_text part adding, List.length_append, List.length_append,
    length_separator]
  obtain ⟨body, contentDisposition, contentType⟩ := part
  cases body <;>
    simp only [partText, opening, predictedSize, getPartSize, length_headerLine, dashes, crlf, Body.content,
      MemoryStream.getSize, List.length_append, List.length_cons, List.length_nil] <;>
    omega

/-- The end adds the size that is known before. -/
theorem endParts_getSize {m : MultipartStream} (adding : m.adding = true) :
    m.endParts.getSize = m.getSize + m.getEndPartSize := by
  rw [getSize_eq, getSize_eq, endParts_text adding, List.length_append, List.length_append, length_separator]
  simp only [endText, getEndPartSize, dashes, crlf, List.length_append, List.length_cons,
    List.length_nil]
  omega

/-- What the stream is while parts are added. -/
structure Gathered (boundary : List UInt8) (added : List Part) (m : MultipartStream) : Prop where
  adding : m.adding = true
  text : m.text = crlf.intercalate (added.map (partText boundary))
  boundary : m.boundary = boundary
  current : m.current = 0
  position : m.position = 0
  empty : m.parts.isEmpty = added.isEmpty
  atStart : (∀ part ∈ added, part.body.AtStart) → ∀ piece ∈ m.parts, piece.seekPosition = 0

theorem intercalate_concat (first : List UInt8) (texts : List (List UInt8)) (last : List UInt8) :
    first.intercalate (texts ++ [last]) =
      first.intercalate texts ++ ((if texts.isEmpty then [] else first) ++ last) := by
  induction texts with
  | nil => simp
  | cons text texts ih =>
    cases texts with
    | nil => simp
    | cons next texts =>
      rw [List.cons_append, List.intercalate_cons_of_ne_nil (by simp), ih]
      simp

theorem addParts_gathered (boundary : List UInt8) (added : List Part) :
    Gathered boundary added (addParts boundary added) := by
  induction added using List.reverseRecOn with
  | nil =>
    refine ⟨rfl, rfl, rfl, rfl, rfl, rfl, ?_⟩
    rintro - piece ⟨⟩
  | append_singleton before part ih =>
    obtain ⟨more, step, some_more, bytes, atStart⟩ := add_spec part ih.adding
    have parts : addParts boundary (before ++ [part]) =
        { addParts boundary before with parts := (addParts boundary before).parts ++ more } := by
      rw [addParts, List.foldl_append]
      exact congrArg Prod.snd step
    have texts : (addParts boundary (before ++ [part])).text =
        (addParts boundary before).text ++
          ((addParts boundary before).separator ++ partText boundary part) := by
      rw [parts, MultipartStream.text, List.map_append, List.flatten_append, bytes, ih.boundary]
      rfl
    constructor
    · rw [parts]
      exact ih.adding
    · rw [texts, List.map_append, List.map_singleton, intercalate_concat, ih.text, separator,
        ih.empty]
      simp
    · rw [parts]
      exact ih.boundary
    · rw [parts]
      exact ih.current
    · rw [parts]
      exact ih.position
    · rw [parts]
      rw [List.isEmpty_eq_false_iff.mpr (List.append_ne_nil_of_right_ne_nil _ some_more),
        List.isEmpty_eq_false_iff.mpr (List.append_ne_nil_of_right_ne_nil _ (List.cons_ne_nil _ _))]
    · intro start piece piece_mem
      rw [parts] at piece_mem
      rcases List.mem_append.mp piece_mem with before_mem | more_mem
      · exact ih.atStart (fun other other_mem => start other (List.mem_append_left _ other_mem))
          piece before_mem
      · exact atStart (start part (by simp)) piece more_mem

/-- The text of the stream once the parts have ended. -/
theorem endParts_wholeText (boundary : List UInt8) (added : List Part) :
    (addParts boundary added).endParts.text = wholeText boundary added := by
  have gathered := addParts_gathered boundary added
  rw [endParts_text gathered.adding, gathered.text, gathered.boundary, separator, gathered.empty,
    wholeText, intercalate_concat]
  simp

/-! ## One text -/

/-- The parts that have ended are one text: the parts from the current one on hold what is behind
the position, and no part behind the current one has been touched. -/
structure Sound (text : List UInt8) (m : MultipartStream) : Prop where
  adding : m.adding = false
  whole : m.text = text
  behind : ∀ part ∈ m.parts.drop (m.current + 1), part.seekPosition = 0
  ahead : text.drop m.position = ((m.parts.drop m.current).map MemoryStream.remaining).flatten
  inside : m.position ≤ text.length

theorem remaining_of_atStart {parts : List MemoryStream}
    (atStart : ∀ part ∈ parts, part.seekPosition = 0) :
    parts.map MemoryStream.remaining = parts.map MemoryStream.data := by
  apply List.map_congr_left
  intro part part_mem
  rw [MemoryStream.remaining, atStart part part_mem, List.drop_zero]

/-- The stream is sound at its start. -/
theorem endParts_sound {boundary : List UInt8} {added : List Part}
    (start : ∀ part ∈ added, part.body.AtStart) :
    Sound (wholeText boundary added) (addParts boundary added).endParts := by
  have gathered := addParts_gathered boundary added
  have atStart : ∀ part ∈ (addParts boundary added).endParts.parts, part.seekPosition = 0 := by
    intro part part_mem
    simp only [endParts, gathered.adding, Bool.not_true, Bool.false_eq_true, if_false] at part_mem
    rcases List.mem_append.mp part_mem with before_mem | end_mem
    · exact gathered.atStart start part before_mem
    · rw [List.mem_singleton.mp end_mem]
      rfl
  have fields : (addParts boundary added).endParts.adding = false ∧
      (addParts boundary added).endParts.current = 0 ∧
      (addParts boundary added).endParts.position = 0 := by
    simp [endParts, gathered.adding, gathered.current, gathered.position]
  obtain ⟨adding, current, position⟩ := fields
  refine ⟨adding, endParts_wholeText boundary added, ?_, ?_, ?_⟩
  · intro part part_mem
    exact atStart part (List.mem_of_mem_drop part_mem)
  · rw [position, current, List.drop_zero, List.drop_zero, remaining_of_atStart atStart,
      ← endParts_wholeText]
    rfl
  · rw [position]
    exact Nat.zero_le _

/-- The position of a sound stream and what is available add up to its size. -/
theorem Sound.getAvailable {text : List UInt8} {m : MultipartStream} (sound : Sound text m) :
    m.getAvailable = some (m.getSize - m.position) := by
  have size : m.getSize = text.length := by rw [getSize_eq, sound.whole]
  have lengths : MemoryStream.getAvailable = fun part : MemoryStream => part.remaining.length := by
    funext part
    rw [MemoryStream.getAvailable, MemoryStream.remaining, List.length_drop]
  have ahead := congrArg List.length sound.ahead
  rw [List.length_drop, List.length_flatten, List.map_map] at ahead
  rw [MultipartStream.getAvailable, sound.adding, if_neg Bool.false_ne_true, size, ahead, lengths]
  rfl

/-! ## Reading -/

/-- What `Read` answers at a position of a text: bytes that follow, at least one into a buffer that
is not empty, or the end exactly at the end. -/
def Reads (text : List UInt8) (position bufferLen : Nat) :
    StreamResult × List UInt8 × MultipartStream → Prop
  | (.success, bytes, m) =>
      position < text.length ∧ bytes <+: text.drop position ∧ bytes.length ≤ bufferLen ∧
        (0 < bufferLen → bytes ≠ []) ∧ m.position = position + bytes.length
  | (.eos, bytes, m) => position = text.length ∧ bytes = [] ∧ m.position = position
  | _ => False

/-- A part at its end has nothing ahead. -/
theorem Sound.next {text : List UInt8} {m : MultipartStream} (sound : Sound text m)
    (inside : m.current < m.parts.length) (ended : m.parts[m.current].remaining = []) :
    Sound text { m with current := m.current + 1 } := by
  refine ⟨sound.adding, sound.whole, ?_, ?_, sound.inside⟩
  · intro part part_mem
    rw [← List.drop_drop] at part_mem
    exact sound.behind part (List.mem_of_mem_drop part_mem)
  · rw [sound.ahead, List.drop_eq_getElem_cons inside, List.map_cons, List.flatten_cons, ended,
      List.nil_append]

/-- Bytes taken from the current part. -/
theorem Sound.taken {text : List UInt8} {m : MultipartStream} (sound : Sound text m)
    (inside : m.current < m.parts.length) {bytes : List UInt8} {part : MemoryStream}
    (same : part.data = m.parts[m.current].data)
    (split : m.parts[m.current].remaining = bytes ++ part.remaining) :
    bytes <+: text.drop m.position ∧
      Sound text { m with
        parts := m.parts.set m.current part
        position := m.position + bytes.length } := by
  have here := sound.ahead
  rw [List.drop_eq_getElem_cons inside, List.map_cons, List.flatten_cons, split,
    List.append_assoc] at here
  refine ⟨⟨_, here.symm⟩, sound.adding, ?_, ?_, ?_, ?_⟩
  · have unchanged : (m.parts.set m.current part).map MemoryStream.data =
        m.parts.map MemoryStream.data := by
      rw [List.map_set, same, ← List.map_set, List.set_getElem_self]
    rw [MultipartStream.text, unchanged]
    exact sound.whole
  · intro other other_mem
    rw [List.drop_set_of_lt (Nat.lt_succ_self _)] at other_mem
    exact sound.behind other other_mem
  · have current : m.current < (m.parts.set m.current part).length := by simpa using inside
    dsimp only
    rw [← List.drop_drop, here, List.drop_left, List.drop_eq_getElem_cons current,
      List.getElem_set_self, List.drop_set_of_lt (Nat.lt_succ_self _), List.map_cons,
      List.flatten_cons]
  · have length := congrArg List.length here
    have := sound.inside
    rw [List.length_drop, List.length_append] at length
    dsimp only
    omega

theorem readParts_reads {text : List UInt8} {m : MultipartStream} (sound : Sound text m)
    (bufferLen : Nat) :
    Reads text m.position bufferLen (m.readParts bufferLen) ∧
      Sound text (m.readParts bufferLen).2.2 := by
  fun_induction readParts m bufferLen with
  | case1 m inside _ _ read ih =>
    rcases m.parts[m.current].read_cases bufferLen with ⟨-, ended⟩ | ⟨_, _, success, -⟩
    · exact ih (sound.next inside ended)
    · rw [read] at success
      cases success
  | case2 m inside bytes part read =>
    rcases m.parts[m.current].read_cases bufferLen with ⟨eos, -⟩ |
        ⟨_, _, success, same, split, more, fits, some⟩
    · rw [read] at eos
      cases eos
    · rw [read] at success
      cases success
      obtain ⟨front, after⟩ := sound.taken inside same split
      refine ⟨⟨?_, front, fits, some, rfl⟩, after⟩
      by_contra ended
      have nothing := sound.ahead
      rw [List.drop_eq_nil_of_le (Nat.le_of_not_lt ended), List.drop_eq_getElem_cons inside,
        List.map_cons, List.flatten_cons] at nothing
      exact more (List.append_eq_nil_iff.mp nothing.symm).1
  | case3 m inside result bytes part not_eos not_success read =>
    rcases m.parts[m.current].read_cases bufferLen with ⟨eos, -⟩ | ⟨_, _, success, -⟩
    · rw [read] at eos
      cases eos
      exact absurd rfl not_eos
    · rw [read] at success
      cases success
      exact absurd rfl not_success
  | case4 m outside =>
    have none_left := sound.ahead
    rw [List.drop_eq_nil_of_le (Nat.le_of_not_lt outside), List.map_nil, List.flatten_nil,
      List.drop_eq_nil_iff] at none_left
    exact ⟨⟨Nat.le_antisymm sound.inside none_left, rfl, rfl⟩, sound⟩

/-- What `Read` answers, and that it keeps the stream sound. -/
theorem read_reads {text : List UInt8} {m : MultipartStream} (sound : Sound text m)
    (bufferLen : Nat) :
    Reads text m.position bufferLen (m.read bufferLen) ∧ Sound text (m.read bufferLen).2.2 := by
  rw [read, sound.adding, if_neg Bool.false_ne_true]
  exact readParts_reads sound bufferLen

/-! ## Seeking -/

/-- A position inside the parts lies in one of them. -/
theorem findPart_spec {position partOffset : Nat} (parts : List MemoryStream) (i : Nat)
    (reached : partOffset ≤ position)
    (inside : position < partOffset + (parts.map MemoryStream.data).flatten.length) :
    ∃ before part after offset, parts = before ++ part :: after ∧
      findPart position parts i partOffset = some (i + before.length, part, offset) ∧
      offset ≤ part.data.length ∧
      (parts.map MemoryStream.data).flatten.drop (position - partOffset) =
        part.data.drop offset ++ (after.map MemoryStream.data).flatten := by
  induction parts generalizing i partOffset with
  | nil => exact absurd inside (Nat.not_lt_of_le reached)
  | cons part parts ih =>
    rw [List.map_cons, List.flatten_cons] at inside ⊢
    by_cases here : position < partOffset + part.getSize
    · refine ⟨[], part, parts, position - partOffset, rfl, if_pos here, ?_, ?_⟩
      · rw [MemoryStream.getSize] at here
        omega
      · rw [List.drop_append_of_le_length]
        rw [MemoryStream.getSize] at here
        omega
    · have further : partOffset + part.getSize ≤ position := Nat.le_of_not_lt here
      rw [List.length_append, ← Nat.add_assoc] at inside
      obtain ⟨before, found, after, offset, rfl, finds, fits, behind⟩ := ih (i + 1) further inside
      refine ⟨part :: before, found, after, offset, rfl, ?_, fits, ?_⟩
      · rw [findPart, if_neg here, finds, List.length_cons]
        congr 2
        omega
      · rw [← behind, List.drop_append, List.drop_eq_nil_of_le, List.nil_append, Nat.sub_sub]
        · rfl
        · rw [MemoryStream.getSize] at further
          omega

theorem rewind_data (part : MemoryStream) : part.rewind.2.data = part.data := by
  rfl

/-- Rewinding changes no data. -/
theorem map_data_rewindParts (first last : Nat) (parts : List MemoryStream) :
    (rewindParts first last parts).map MemoryStream.data = parts.map MemoryStream.data := by
  apply List.ext_getElem
  · simp [rewindParts]
  · intro j _ _
    simp only [rewindParts, List.getElem_map, List.getElem_mapIdx]
    split
    · exact rewind_data _
    · rfl

/-- Once the parts up to the current one are rewound, no part behind `first` is touched. -/
theorem rewindParts_behind {m : MultipartStream} (first : Nat)
    (behind : ∀ part ∈ m.parts.drop (m.current + 1), part.seekPosition = 0) :
    ∀ part ∈ (rewindParts first (min m.parts.length (m.current + 1)) m.parts).drop first,
      part.seekPosition = 0 := by
  intro part part_mem
  obtain ⟨j, j_lt, rfl⟩ := List.mem_iff_getElem.mp part_mem
  simp only [rewindParts, List.getElem_drop, List.getElem_mapIdx]
  simp only [rewindParts, List.length_drop, List.length_mapIdx] at j_lt
  split
  · rfl
  · next untouched =>
    have later : m.current + 1 ≤ first + j := by omega
    apply behind
    rw [List.mem_iff_getElem]
    refine ⟨first + j - (m.current + 1), by rw [List.length_drop]; omega, ?_⟩
    rw [List.getElem_drop]
    congr 1
    omega

/-- A position inside the text is taken. -/
theorem setPosition_sound {text : List UInt8} {m : MultipartStream} {position : Nat}
    (sound : Sound text m) (inside : position < text.length) :
    (m.setPosition position).1 = true ∧ (m.setPosition position).2.position = position ∧
      Sound text (m.setPosition position).2 := by
  have lies : position < 0 + (m.parts.map MemoryStream.data).flatten.length := by
    rwa [Nat.zero_add, ← MultipartStream.text, sound.whole]
  obtain ⟨before, part, after, offset, parts, finds, fits, ahead⟩ :=
    findPart_spec m.parts 0 (Nat.zero_le _) lies
  rw [Nat.zero_add] at finds
  rw [Nat.sub_zero] at ahead
  unfold setPosition
  rw [sound.adding, if_neg Bool.false_ne_true, finds]
  simp only [MemoryStream.setPosition, dif_pos fits]
  let rewound := rewindParts (before.length + 1) (min m.parts.length (m.current + 1)) m.parts
  have behind : ∀ other ∈ rewound.drop (before.length + 1), other.seekPosition = 0 :=
    rewindParts_behind _ sound.behind
  refine ⟨trivial, trivial, rfl, ?_, ?_, ?_, Nat.le_of_lt inside⟩
  · have unchanged : (m.parts.map MemoryStream.data).set before.length part.data =
        m.parts.map MemoryStream.data := by
      rw [parts, List.map_append, List.map_cons, List.set_append_right _ _ (by simp)]
      simp
    rw [MultipartStream.text, List.map_set, map_data_rewindParts, unchanged]
    exact sound.whole
  · intro other other_mem
    rw [List.drop_set_of_lt (Nat.lt_succ_self _)] at other_mem
    exact behind other other_mem
  · have index : before.length < rewound.length := by
      simp [rewound, rewindParts, parts]
    have later : (rewound.drop (before.length + 1)).map MemoryStream.remaining =
        after.map MemoryStream.data := by
      rw [remaining_of_atStart behind, List.map_drop, map_data_rewindParts, parts, List.map_append,
        List.map_cons, List.append_cons, List.drop_left' (by simp)]
    have moved : (rewound.set before.length ⟨part.data, offset, fits⟩).drop before.length =
        ⟨part.data, offset, fits⟩ :: rewound.drop (before.length + 1) := by
      have inside : before.length < (rewound.set before.length ⟨part.data, offset, fits⟩).length := by
        simpa using index
      rw [List.drop_eq_getElem_cons inside, List.getElem_set_self,
        List.drop_set_of_lt (Nat.lt_succ_self _)]
    rw [← sound.whole, MultipartStream.text, ahead, moved, List.map_cons, later, List.flatten_cons]
    rfl

/-! ## Calls -/

inductive Call
  | read (bufferLen : Nat)
  | setPosition (position : Nat)

/-- A position below the size. -/
def Call.Inside (text : List UInt8) : Call → Prop
  | .read _ => True
  | .setPosition position => position < text.length

def step (m : MultipartStream) : Call → MultipartStream
  | .read bufferLen => (m.read bufferLen).2.2
  | .setPosition position => (m.setPosition position).2

/-- What a call answers is what one text would answer. -/
def Right (text : List UInt8) (m : MultipartStream) : Call → Prop
  | .read bufferLen => Reads text m.position bufferLen (m.read bufferLen)
  | .setPosition position =>
      (m.setPosition position).1 = true ∧ (m.setPosition position).2.position = position

theorem calls_right {text : List UInt8} {m : MultipartStream} (sound : Sound text m)
    {calls : List Call} (inside : ∀ call ∈ calls, call.Inside text) :
    Along step (Right text) m calls ∧ Sound text (runInputs step m calls) := by
  induction calls generalizing m with
  | nil => exact ⟨trivial, sound⟩
  | cons call calls ih =>
    obtain ⟨here, later⟩ := List.forall_mem_cons.mp inside
    have step_right : Right text m call ∧ Sound text (step m call) := by
      cases call with
      | read bufferLen => exact read_reads sound bufferLen
      | setPosition position =>
        obtain ⟨taken, follows, after⟩ := setPosition_sound sound here
        exact ⟨⟨taken, follows⟩, after⟩
    obtain ⟨right, after⟩ := ih step_right.2 later
    exact ⟨⟨step_right.1, right⟩, after⟩

/-- The bytes of `Read` calls one after another, and where they leave the stream. -/
def readAll (m : MultipartStream) : List Nat → List UInt8 × MultipartStream
  | [] => ([], m)
  | bufferLen :: sizes =>
      let answer := m.read bufferLen
      let more := readAll answer.2.2 sizes
      (answer.2.1 ++ more.1, more.2)

/-- A read splits what is behind the position. -/
theorem Reads.split {text : List UInt8} {position bufferLen : Nat}
    {answer : StreamResult × List UInt8 × MultipartStream}
    (reads : Reads text position bufferLen answer) :
    answer.2.1 ++ text.drop answer.2.2.position = text.drop position := by
  obtain ⟨result, bytes, m⟩ := answer
  cases result with
  | success =>
    obtain ⟨-, front, -, -, follows⟩ := reads
    rw [follows, ← List.drop_drop]
    exact List.prefix_iff_eq_append.mp front
  | eos =>
    obtain ⟨-, rfl, stays⟩ := reads
    rw [stays, List.nil_append]
  | block => exact reads.elim
  | error => exact reads.elim

theorem readAll_split {text : List UInt8} {m : MultipartStream} (sound : Sound text m)
    (sizes : List Nat) :
    (m.readAll sizes).1 ++ text.drop (m.readAll sizes).2.position = text.drop m.position := by
  induction sizes generalizing m with
  | nil => rfl
  | cons bufferLen sizes ih =>
    obtain ⟨reads, after⟩ := read_reads sound bufferLen
    rw [readAll, List.append_assoc, ih after, reads.split]

/-- A multipart stream is the concatenation of its parts. -/
structure Concatenates (boundary : List UInt8) (added : List Part) : Prop where
  /-- Every part adds the size that is known before. -/
  partSize : ∀ before part after, added = before ++ part :: after →
    ((addParts boundary before).add part).1 = true ∧
      ((addParts boundary before).add part).2.getSize =
        (addParts boundary before).getSize + (addParts boundary before).predictedSize part
  endPartSize : (addParts boundary added).endParts.getSize =
    (addParts boundary added).getSize + (addParts boundary added).getEndPartSize
  /-- The size stays that of the concatenation. -/
  size : ∀ calls : List Call, (∀ call ∈ calls, call.Inside (wholeText boundary added)) →
    (runInputs step (addParts boundary added).endParts calls).getSize =
      (wholeText boundary added).length
  /-- All calls answer as the concatenation does. -/
  answers : ∀ calls : List Call, (∀ call ∈ calls, call.Inside (wholeText boundary added)) →
    Along step (Right (wholeText boundary added)) (addParts boundary added).endParts calls
  /-- What is read from a position on, and what is left then, is the suffix from that position. -/
  suffix : ∀ calls : List Call, (∀ call ∈ calls, call.Inside (wholeText boundary added)) →
    ∀ sizes : List Nat,
      let m := runInputs step (addParts boundary added).endParts calls
      (m.readAll sizes).1 ++ (wholeText boundary added).drop (m.readAll sizes).2.position =
        (wholeText boundary added).drop m.position

/-- A multipart stream is the concatenation of its parts if its streams are added at their
beginning. -/
theorem concatenates (boundary : List UInt8) (added : List Part)
    (start : ∀ part ∈ added, part.body.AtStart) : Concatenates boundary added := by
  have sound : Sound (wholeText boundary added) (addParts boundary added).endParts :=
    endParts_sound start
  constructor
  · rintro before part after rfl
    have adding := (addParts_gathered boundary before).adding
    obtain ⟨more, taken, -⟩ := add_spec part adding
    exact ⟨congrArg Prod.fst taken, add_getSize part adding⟩
  · exact endParts_getSize (addParts_gathered boundary added).adding
  · intro calls inside
    rw [getSize_eq, (calls_right sound inside).2.whole]
  · intro calls inside
    exact (calls_right sound inside).1
  · intro calls inside sizes
    exact readAll_split (calls_right sound inside).2 sizes

/-- A string and a stream. -/
theorem hi_concatenates :
    Concatenates (ofString "x")
      [⟨.data (ofString "hi"), ofString "form-data", []⟩,
        ⟨.stream (.ofData (ofString "there")), [], ofString "text/plain"⟩] :=
  concatenates _ _ (by decide)

/-- A stream that stands behind its first byte: that byte is not read. -/
theorem moved_skipped : ¬ ∀ boundary added, Concatenates boundary added := by
  intro all
  let moved : Part := ⟨.stream ⟨[0x61, 0x62], 1, by decide⟩, [], []⟩
  let start := (addParts [] [moved]).endParts
  let read := { start with
    parts := start.parts.set 0 ⟨[0x2D, 0x2D, 0x0D, 0x0A, 0x0D, 0x0A], 6, by decide⟩
    position := 6 }
  have opening : start.read 6 = (.success, [0x2D, 0x2D, 0x0D, 0x0A, 0x0D, 0x0A], read) := by
    rw [MultipartStream.read, if_neg (by decide), readParts]
    rfl
  have next : read.readParts 1 = readParts { read with current := 1 } 1 := by
    rw [readParts]
    rfl
  have content : read.read 1 = (.success, [0x62],
      { read with
        parts := read.parts.set 1 ⟨[0x61, 0x62], 2, by decide⟩
        current := 1
        position := 7 }) := by
    rw [MultipartStream.read, if_neg (by decide), next, readParts]
    rfl
  have suffix : (start.readAll [6, 1]).1 ++
      (wholeText [] [moved]).drop (start.readAll [6, 1]).2.position = wholeText [] [moved] :=
    (all [] [moved]).suffix [] (by simp) [6, 1]
  rw [readAll, opening] at suffix
  dsimp only at suffix
  rw [readAll, content] at suffix
  exact absurd suffix (by decide)

end MultipartStream

end Libjingle.Base
