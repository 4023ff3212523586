import Libjingle.Base.ProxyTunnel

/-!
# `AsyncHttpsProxySocket`

The client side of an HTTP proxy in `talk/base/socketadapters.cc`. The answer of
the proxy is read line by line; a refused request may be repeated, on the same
connection or on a new one. `HttpAuthenticate` is a parameter: only what it answers
decides how the adapter goes on.
-/

namespace Libjingle.Base

open Libjingle.Std

def ascii (s : String) : List UInt8 :=
  s.toList.map fun c => UInt8.ofNat c.toNat

def crlf : List UInt8 := [13, 10]

/-! ## Reading numbers and names off a line -/

/-- A line as a C string ends at its first zero byte. -/
def cString (line : List UInt8) : List UInt8 :=
  line.takeWhile (· ≠ 0)

def isSpace (b : UInt8) : Bool := b = 32 ∨ (9 ≤ b ∧ b ≤ 13)

/-- A letter counts as a digit from ten up. -/
def digitValue (b : UInt8) : Nat :=
  if 48 ≤ b ∧ b ≤ 57 then b.toNat - 48
  else if 97 ≤ b ∧ b ≤ 122 then b.toNat - 87
  else if 65 ≤ b ∧ b ≤ 90 then b.toNat - 55
  else 36

def toLower (b : UInt8) : UInt8 := if 65 ≤ b ∧ b ≤ 90 then b + 32 else b

/-- `_strnicmp(data, name, strlen(name)) == 0`. -/
def startsWithNoCase (data name : List UInt8) : Bool :=
  (data.take name.length).map toLower = name.map toLower

/-- Base zero asks for the base that the digits begin with. -/
def numberBase (base : Nat) (data : List UInt8) : Nat × List UInt8 :=
  if base ≠ 0 then (base, data)
  else if data.head? ≠ some 48 then (10, data)
  else if (data.tail.take 1).map toLower = [120] ∧ (data.drop 2).head?.any (fun b => digitValue b < 16) then
    (16, data.drop 2)
  else (8, data)

/-- `strtoul`, with the text behind the number: blanks, a sign and digits. A number
that does not fit becomes the largest one. -/
def strtoul (base : Nat) (data : List UInt8) : Option (Nat × List UInt8) :=
  let data := data.dropWhile isSpace
  let negative := data.head? = some 45
  let data := if negative ∨ data.head? = some 43 then data.tail else data
  let (base, data) := numberBase base data
  let digits := data.takeWhile fun b => digitValue b < base
  if digits = [] then none
  else
    let value := digits.foldl (fun value digit => base * value + digitValue digit) 0
    let value :=
      if 2 ^ 32 ≤ value then 2 ^ 32 - 1
      else if negative then (2 ^ 32 - value) % 2 ^ 32
      else value
    some (value, data.drop digits.length)

/-- `sscanf(data, "HTTP/%*u.%*u %u", &code)`. -/
def scanStatus (data : List UInt8) : Option Nat :=
  if ascii "HTTP/" <+: data then
    (strtoul 10 (data.drop 5)).bind fun (_, rest) =>
      if rest.head? = some 46 then
        (strtoul 10 rest.tail).bind fun (_, rest) => (strtoul 10 rest).map Prod.fst
      else none
  else none

/-! ## The adapter -/

inductive HttpsState
  | init
  | leader
  | authenticate
  | skipHeaders
  | errorHeaders
  | tunnelHeaders
  | skipBody
  | tunnel
  | waitClose
  | error
  deriving DecidableEq, Repr

/-- `state_ < PS_TUNNEL`. -/
def HttpsState.beforeTunnel : HttpsState → Bool
  | .tunnel | .waitClose | .error => false
  | _ => true

inductive HttpAuthResult
  | ignore
  | response
  | credentials
  | error
  deriving DecidableEq, Repr

/-- The answer of `HttpAuthenticate`, with the context it leaves. -/
structure HttpAuthAnswer (Γ : Type) where
  result : HttpAuthResult
  context : Option Γ
  response : List UInt8
  authMethod : List UInt8

structure HttpsConfig (Γ : Type) where
  agent : List UInt8
  /-- `dest_.ToString()` and `dest_.IPAsString()`. -/
  dest : List UInt8
  host : List UInt8
  port : UInt16
  forceConnect : Bool
  httpAuthenticate : List UInt8 → Option Γ → HttpAuthAnswer Γ

structure HttpsProxy (Γ : Type) where
  state : HttpsState
  contentLength : Nat := 0
  deferError : Int := 0
  expectClose : Bool := true
  headers : List UInt8 := []
  unknownMechanisms : List UInt8 := []
  context : Option Γ := none

variable {Γ : Type}

def HttpsConfig.shouldIssueConnect (config : HttpsConfig Γ) : Bool :=
  config.forceConnect || config.port ≠ 80

namespace HttpsProxy

variable (config : HttpsConfig Γ) (s : HttpsProxy Γ)

def sendRequest : HttpsProxy Γ × List BaseCall :=
  ({ s with state := .leader, expectClose := true, contentLength := 0, headers := [] },
    [.directSend (ascii "CONNECT " ++ config.dest ++ ascii " HTTP/1.0" ++ crlf ++
      ascii "User-Agent: " ++ config.agent ++ crlf ++ ascii "Host: " ++ config.host ++ crlf ++
      ascii "Content-Length: 0" ++ crlf ++ ascii "Proxy-Connection: Keep-Alive" ++ crlf ++
      s.headers ++ crlf)])

/-- `Connect`, to the same destination. -/
def connect : HttpsProxy Γ × List BaseCall :=
  ({ s with state := .init },
    (if config.shouldIssueConnect then [.bufferInput true] else []) ++ [.connect])

/-- The answer is over: the request is repeated, on a new connection if need be. -/
def endResponse : HttpsProxy Γ × List BaseCall :=
  if ¬ s.expectClose then s.sendRequest config
  else
    let (s, calls) := { s with state := .error }.connect config
    (s, .close :: calls)

def fail (error : Int) : HttpsProxy Γ × List BaseCall :=
  ({ s with headers := [], state := .error, context := none },
    [.bufferInput false, .close, .signalCloseEvent error])

def socketEacces : Int := 13

/-- An answer of `HttpAuthenticate` to the challenge of the proxy. -/
def authenticate (answer : HttpAuthAnswer Γ) : HttpsProxy Γ :=
  let s := { s with context := answer.context }
  match answer.result with
  | .ignore =>
    { s with
      unknownMechanisms :=
        (if s.unknownMechanisms = [] then [] else s.unknownMechanisms ++ ascii ", ") ++
          answer.authMethod }
  | .response =>
    { s with
      headers := ascii "Proxy-Authorization: " ++ answer.response ++ crlf
      state := .skipHeaders
      unknownMechanisms := [] }
  | .credentials =>
    { s with deferError := socketEacces, state := .errorHeaders, unknownMechanisms := [] }
  | .error => { s with deferError := 0, state := .errorHeaders, unknownMechanisms := [] }

/-- The empty line at the end of the headers. -/
def endHeaders : HttpsProxy Γ × List BaseCall :=
  match s.state with
  | .tunnelHeaders => ({ s with state := .tunnel }, [])
  | .errorHeaders => s.fail s.deferError
  | .skipHeaders =>
    if s.contentLength ≠ 0 then ({ s with state := .skipBody }, []) else s.endResponse config
  | _ => s.fail 0

/-- The status line. -/
def statusLine (data : List UInt8) : HttpsProxy Γ × List BaseCall :=
  match scanStatus data with
  | none => s.fail 0
  | some code =>
    if code = 200 then ({ s with state := .tunnelHeaders }, [])
    else if code = 407 then ({ s with state := .authenticate }, [])
    else ({ s with deferError := 0, state := .errorHeaders }, [])

def headerLine (data : List UInt8) : HttpsProxy Γ :=
  if s.state = .authenticate ∧ startsWithNoCase data (ascii "Proxy-Authenticate:") then
    s.authenticate (config.httpAuthenticate (data.drop 19) s.context)
  else if startsWithNoCase data (ascii "Content-Length:") then
    { s with contentLength := (strtoul 0 (data.drop 15)).elim 0 Prod.fst }
  else if startsWithNoCase data (ascii "Proxy-Connection: Keep-Alive") then
    { s with expectClose := false }
  else s

def processLine (line : List UInt8) : HttpsProxy Γ × List BaseCall :=
  if line = [] then s.endHeaders config
  else if s.state = .leader then s.statusLine (cString line)
  else (s.headerLine config (cString line), [])

end HttpsProxy

/-! ## `ProcessInput` -/

/-- The first line of the data and what is behind its end. -/
def takeLine : List UInt8 → Option (List UInt8 × List UInt8)
  | [] => none
  | b :: data =>
    if b = 10 then some ([], data) else (takeLine data).map fun (line, rest) => (b :: line, rest)

/-- A carriage return before the end of the line is not part of it. -/
def chomp (line : List UInt8) : List UInt8 :=
  if line.getLast? = some 13 then line.dropLast else line

namespace HttpsProxy

variable (config : HttpsConfig Γ) (s : HttpsProxy Γ)

/-- Some bytes of a body that is not wanted. -/
def skip (consume : Nat) : HttpsProxy Γ × List BaseCall :=
  let s := { s with contentLength := s.contentLength - consume }
  if s.contentLength = 0 then s.endResponse config else (s, [])

/-- A turn of the loop that gets to the end of a line, or through what there is of a body. -/
def turn (data : List UInt8) : Option (List BaseCall × HttpsProxy Γ × List UInt8) :=
  if ¬ s.state.beforeTunnel ∨ data = [] then none
  else if s.state = .skipBody then
    let consume := min data.length s.contentLength
    let (s, calls) := s.skip config consume
    some (calls, s, data.drop consume)
  else
    (takeLine data).map fun (line, rest) =>
      let (s, calls) := s.processLine config (chomp line)
      (calls, s, rest)

def loop : Nat → HttpsProxy Γ → List UInt8 → List BaseCall → ProcessedInput (HttpsProxy Γ)
  | 0, s, data, calls => { state := s, left := data, calls }
  | turns + 1, s, data, calls =>
    match turn config s data with
    | none => { state := s, left := data, calls }
    | some (more, t, rest) => loop turns t rest (calls ++ more)

/-- A turn takes at least a byte, but the first one may find a body at its end. -/
def processInput (data : List UInt8) : ProcessedInput (HttpsProxy Γ) :=
  let out := loop config (data.length + 1) s data []
  if out.state.state ≠ .tunnel then out
  else
    { out with
      calls := out.calls ++ [.bufferInput false, .signalConnectEvent] ++
        if out.left ≠ [] then [.signalReadEvent] else [] }

def onConnectEvent : HttpsProxy Γ × List BaseCall :=
  if ¬ config.shouldIssueConnect then ({ s with state := .tunnel }, [.signalConnectEvent])
  else s.sendRequest config

end HttpsProxy

def HttpsConfig.protocol (config : HttpsConfig Γ) : ProxyProtocol (HttpsProxy Γ) where
  onConnectEvent := HttpsProxy.onConnectEvent config
  processInput := HttpsProxy.processInput config

/-- After `Connect`. -/
def httpsStart (config : HttpsConfig Γ) : ProxiedSocket (HttpsProxy Γ) :=
  .start { state := .init } config.shouldIssueConnect

def HttpsProxy.up (s : HttpsProxy Γ) : Bool := s.state = .tunnel

/-! ## What a line may do -/

/-- The calls stop the buffering and close the socket, whatever came before. -/
def Closes (calls : List BaseCall) : Prop :=
  (∀ buffering, calls.foldl BufferedReadAdapter.buffers buffering = false) ∧
    ∀ u, (calls.foldl UnderlyingSocket.apply u).state = .closed

theorem Closes.after {calls : List BaseCall} (closes : Closes calls) (before : List BaseCall) :
    Closes (before ++ calls) := by
  constructor
  · intro buffering
    rw [List.foldl_append]
    exact closes.1 _
  · intro u
    rw [List.foldl_append]
    exact closes.2 _

namespace HttpsProxy

variable {config : HttpsConfig Γ} {s : HttpsProxy Γ}

/-- The adapter has not failed, and a body that it skips has bytes to come. -/
def Sound (s : HttpsProxy Γ) : Prop :=
  s.state ≠ .error ∧ (s.state = .skipBody → s.contentLength ≠ 0)

/-- The adapter goes on, or it has failed and closed the socket. -/
def GoesOn (out : HttpsProxy Γ × List BaseCall) : Prop :=
  out.1.Sound ∨ out.1.state = .error ∧ Closes out.2

theorem goesOn_of_state {calls : List BaseCall} (fine : s.state ≠ .error)
    (noBody : s.state ≠ .skipBody) : GoesOn (s, calls) :=
  .inl ⟨fine, fun body => absurd body noBody⟩

theorem fail_goesOn (s : HttpsProxy Γ) (error : Int) : GoesOn (s.fail error) :=
  .inr ⟨rfl, fun _ => rfl, fun _ => rfl⟩

theorem endResponse_goesOn (s : HttpsProxy Γ) : GoesOn (s.endResponse config) := by
  unfold endResponse
  split
  · exact goesOn_of_state (by simp) (by simp)
  · exact goesOn_of_state (by simp) (by simp)

theorem endHeaders_goesOn (s : HttpsProxy Γ) : GoesOn (s.endHeaders config) := by
  unfold endHeaders
  split
  · exact goesOn_of_state (by simp) (by simp)
  · exact fail_goesOn s _
  · split
    · next body => exact .inl ⟨by simp, fun _ => body⟩
    · exact endResponse_goesOn s
  · exact fail_goesOn s _

theorem statusLine_goesOn (s : HttpsProxy Γ) (data : List UInt8) :
    GoesOn (s.statusLine data) := by
  unfold statusLine
  split
  · exact fail_goesOn s _
  · split
    · exact goesOn_of_state (by simp) (by simp)
    split <;> exact goesOn_of_state (by simp) (by simp)

theorem headerLine_goesOn (data : List UInt8) (fine : s.state ≠ .error)
    (noBody : s.state ≠ .skipBody) : GoesOn (s.headerLine config data, []) := by
  unfold headerLine
  split
  · unfold authenticate
    split
    · exact goesOn_of_state fine noBody
    all_goals exact goesOn_of_state (by simp) (by simp)
  split
  · exact goesOn_of_state fine noBody
  split <;> exact goesOn_of_state fine noBody

theorem processLine_goesOn (line : List UInt8) (fine : s.state ≠ .error)
    (noBody : s.state ≠ .skipBody) : GoesOn (s.processLine config line) := by
  unfold processLine
  split
  · exact endHeaders_goesOn s
  split
  · exact statusLine_goesOn s _
  · exact headerLine_goesOn _ fine noBody

theorem skip_goesOn (consume : Nat) (fine : s.state ≠ .error) :
    GoesOn (s.skip config consume) := by
  simp only [skip]
  split
  · exact endResponse_goesOn _
  · next more => exact .inl ⟨fine, fun _ => more⟩

theorem turn_goesOn {data rest : List UInt8} {calls : List BaseCall} {t : HttpsProxy Γ}
    (sound : s.Sound) (turned : turn config s data = some (calls, t, rest)) :
    GoesOn (t, calls) := by
  unfold turn at turned
  split at turned
  · cases turned
  split at turned
  · cases turned
    exact skip_goesOn _ sound.1
  · next noBody =>
    simp only [Option.map_eq_some_iff, Prod.mk.injEq, Prod.exists] at turned
    obtain ⟨line, rest, -, rfl, rfl, rfl⟩ := turned
    exact processLine_goesOn _ sound.1 noBody

/-- A failed adapter takes no further turn. -/
theorem loop_failed (failed : s.state = .error) (turns : Nat) (data : List UInt8)
    (calls : List BaseCall) :
    loop config turns s data calls = { state := s, left := data, calls } := by
  cases turns with
  | zero => rfl
  | succ turns =>
    have stops : turn config s data = none := by
      rw [turn, if_pos (.inl (by rw [failed]; decide))]
    rw [loop, stops]

/-- The loop ends in a sound state, or with the socket closed. -/
theorem loop_goesOn (turns : Nat) {data : List UInt8} {before : List BaseCall} (sound : s.Sound) :
    (loop config turns s data before).state.Sound ∨
      (loop config turns s data before).state.state = .error ∧
        Closes (loop config turns s data before).calls := by
  induction turns generalizing s data before with
  | zero => exact .inl sound
  | succ turns ih =>
    rw [loop]
    split
    · exact .inl sound
    next calls t rest turned =>
    rcases turn_goesOn sound turned with later | ⟨failed, closes⟩
    · exact ih later
    · rw [loop_failed failed]
      exact .inr ⟨failed, closes.after before⟩

/-! ## The handshake as items of a stream -/

theorem takeLine_spec {data line rest : List UInt8} (taken : takeLine data = some (line, rest)) :
    (∃ eaten, eaten ≠ [] ∧ data = eaten ++ rest) ∧
      ∀ tail, takeLine (data ++ tail) = some (line, rest ++ tail) := by
  induction data generalizing line with
  | nil => cases taken
  | cons b data ih =>
    simp only [takeLine, List.cons_append] at taken ⊢
    split at taken
    · next newline =>
      cases taken
      exact ⟨⟨[b], by simp⟩, fun _ => by rw [if_pos newline]⟩
    · next inside =>
      simp only [Option.map_eq_some_iff, Prod.mk.injEq, Prod.exists] at taken
      obtain ⟨line, rest, taken, rfl, rfl⟩ := taken
      obtain ⟨⟨eaten, -, rfl⟩, more⟩ := ih taken
      exact ⟨⟨b :: eaten, by simp⟩, fun tail => by rw [if_neg inside, more tail, Option.map_some]⟩

/-- A line, or one byte of a body that is skipped. -/
def nextItem (config : HttpsConfig Γ) (s : HttpsProxy Γ) (data : List UInt8) :
    Option (List BaseCall × HttpsProxy Γ × List UInt8) :=
  if ¬ s.state.beforeTunnel then none
  else if s.state = .skipBody then
    match data with
    | [] => none
    | _ :: rest => some ((s.skip config 1).2, (s.skip config 1).1, rest)
  else
    (takeLine data).map fun (line, rest) =>
      ((s.processLine config (chomp line)).2, (s.processLine config (chomp line)).1, rest)

end HttpsProxy

/-- The lines and the bodies of the answer, up to the end of the headers that bring the
tunnel up. -/
def HttpsConfig.reader (config : HttpsConfig Γ) :
    Reader (HttpsProxy Γ) UInt8 (List BaseCall) where
  read := HttpsProxy.nextItem config
  more {s buf item t rest} found tail := by
    unfold HttpsProxy.nextItem at found ⊢
    split at found
    · cases found
    next before =>
    rw [if_neg before]
    split at found
    · next body =>
      rw [if_pos body]
      match buf with
      | [] => cases found
      | b :: buf =>
        cases found
        rfl
    · next lines =>
      rw [if_neg lines]
      simp only [Option.map_eq_some_iff, Prod.mk.injEq, Prod.exists] at found ⊢
      obtain ⟨line, rest, taken, rfl, rfl, rfl⟩ := found
      exact ⟨line, _, (HttpsProxy.takeLine_spec taken).2 tail, rfl, rfl, rfl⟩
  takes {s buf item t rest} found := by
    unfold HttpsProxy.nextItem at found
    split at found
    · cases found
    split at found
    · match buf with
      | [] => cases found
      | b :: buf =>
        cases found
        exact ⟨[b], by simp⟩
    · simp only [Option.map_eq_some_iff, Prod.mk.injEq, Prod.exists] at found
      obtain ⟨line, rest, taken, rfl, rfl, rfl⟩ := found
      exact (HttpsProxy.takeLine_spec taken).1

namespace HttpsProxy

variable {config : HttpsConfig Γ} {s : HttpsProxy Γ}

variable (config) in
theorem read_body (body : s.state = .skipBody) (b : UInt8) (rest : List UInt8) :
    config.reader.read s (b :: rest) = some ((s.skip config 1).2, (s.skip config 1).1, rest) := by
  simp only [HttpsConfig.reader, nextItem, body]
  rfl

variable (config) in
/-- Skipping some bytes of a body is skipping them one by one. -/
theorem skip_reads {bytes : List UInt8} (body : s.state = .skipBody) (nonempty : bytes ≠ [])
    (inside : bytes.length ≤ s.contentLength) (rest : List UInt8) :
    ∃ items, config.reader.Reads s (bytes ++ rest) items (s.skip config bytes.length).1 rest := by
  induction bytes generalizing s with
  | nil => exact absurd rfl nonempty
  | cons b bytes ih =>
    match bytes with
    | [] => exact ⟨_, .one (read_body config body b rest)⟩
    | c :: bytes =>
      simp only [List.length_cons] at inside
      have first := read_body config body b (c :: bytes ++ rest)
      have more : (s.skip config 1).1 = { s with contentLength := s.contentLength - 1 } := by
        simp only [skip]
        rw [if_neg (by omega)]
      have whole : skip config { s with contentLength := s.contentLength - 1 } (c :: bytes).length =
          s.skip config (b :: c :: bytes).length := by
        simp only [skip, List.length_cons, Nat.sub_sub]
        rw [Nat.add_comm 1]
      rw [more] at first
      obtain ⟨items, reads⟩ := @ih { s with contentLength := s.contentLength - 1 } body (by simp)
        (by simp only [List.length_cons]; omega)
      rw [whole] at reads
      exact ⟨_, .step first reads⟩

/-- A turn reads items of the stream. -/
theorem turn_reads {data rest : List UInt8} {calls : List BaseCall} {t : HttpsProxy Γ}
    (sound : s.Sound) (turned : turn config s data = some (calls, t, rest)) :
    ∃ items, config.reader.Reads s data items t rest := by
  unfold turn at turned
  split at turned
  · cases turned
  next going =>
  obtain ⟨before, something⟩ := not_or.mp going
  split at turned
  · next body =>
    cases turned
    have bytes := List.length_pos_iff.mpr something
    have toCome := sound.2 body
    have consumed : (data.take (min data.length s.contentLength)).length =
        min data.length s.contentLength := by
      rw [List.length_take]
      omega
    obtain ⟨items, reads⟩ := skip_reads config body
      (List.length_pos_iff.mp (by rw [consumed]; omega)) (by rw [consumed]; omega)
      (data.drop (min data.length s.contentLength))
    rw [List.take_append_drop, consumed] at reads
    exact ⟨items, reads⟩
  · next lines =>
    simp only [Option.map_eq_some_iff, Prod.mk.injEq, Prod.exists] at turned
    obtain ⟨line, rest, taken, rfl, rfl, rfl⟩ := turned
    refine ⟨[(s.processLine config (chomp line)).2], .one ?_⟩
    simp only [HttpsConfig.reader, nextItem, if_neg before, if_neg lines, taken, Option.map_some]

theorem loop_reads (turns : Nat) {data : List UInt8} {before : List BaseCall} (sound : s.Sound) :
    ∃ items, config.reader.Reads s data items (loop config turns s data before).state
      (loop config turns s data before).left := by
  induction turns generalizing s data before with
  | zero => exact ⟨[], .refl _ _⟩
  | succ turns ih =>
    rw [loop]
    split
    · exact ⟨[], .refl _ _⟩
    next calls t rest turned =>
    obtain ⟨first, read⟩ := turn_reads sound turned
    rcases turn_goesOn sound turned with later | ⟨failed, -⟩
    · obtain ⟨items, reads⟩ := @ih t rest (before ++ calls) later
      exact ⟨first ++ items, read.trans reads⟩
    · rw [loop_failed failed]
      exact ⟨first, read⟩

end HttpsProxy

theorem https_readsItems (config : HttpsConfig Γ) :
    ReadsItems config.protocol config.reader HttpsProxy.Sound where
  connects s sound := by
    simp only [HttpsConfig.protocol, HttpsProxy.onConnectEvent]
    split
    · exact ⟨by simp, by simp⟩
    · exact ⟨by simp [HttpsProxy.sendRequest], by simp [HttpsProxy.sendRequest]⟩
  processes s data sound _ := by
    simp only [HttpsConfig.protocol, HttpsProxy.processInput]
    split <;> exact HttpsProxy.loop_reads _ sound
  givesUp s data sound later := by
    simp only [HttpsConfig.protocol, HttpsProxy.processInput] at later ⊢
    have ends := @HttpsProxy.loop_goesOn _ config _ (data.length + 1) data [] sound
    split at later
    · next notUp =>
      obtain ⟨-, closes⟩ := ends.resolve_left later
      rw [if_pos notUp]
      exact ⟨closes.1 true, closes.2⟩
    · next up =>
      obtain ⟨failed, -⟩ := ends.resolve_left later
      exact absurd (fun up => by rw [failed] at up; cases up) up

/-- Behind an HTTP proxy no byte of the tunnel is lost, as long as no read event finds
the buffer full of one line, unless `Recv` has bytes of the buffer to report and finds
the socket empty. -/
theorem https_keepsTunnelData {config : HttpsConfig Γ} {steps : List ProxyStep}
    (lossless : Along (ProxiedSocket.step config.protocol)
      (fun c step => c.Served step ∧ c.Roomy step) (httpsStart config) steps) :
    ((httpsStart config).run config.protocol steps).KeepsTunnelData config.reader HttpsProxy.up := by
  have intact := lossless.invariant (P := fun c => c.Intact config.reader HttpsProxy.Sound)
    (fun c input ⟨served, roomy⟩ intact => intact.step (https_readsItems config) input served roomy)
    (.start ⟨by simp, by simp⟩)
  refine intact.keepsTunnelData (fun s buf up => ?_) (fun s up => ?_)
  · have tunnel : s.state = .tunnel := by simpa [HttpsProxy.up] using up
    simp only [HttpsConfig.reader, HttpsProxy.nextItem]
    rw [if_pos (by rw [tunnel]; decide)]
  · have tunnel : s.state = .tunnel := by simpa [HttpsProxy.up] using up
    exact ⟨by simp [tunnel], by simp [tunnel]⟩

end Libjingle.Base
