import Libjingle.P2P.Connection
import Libjingle.Stun.Resending
import Mathlib.Data.List.Nodup

/-!
# A port with a STUN server

`StunPort` asks its server for the address that it has behind a NAT, and asks again to keep the
binding alive. Every answer takes the path of the first one: its address becomes a candidate, and
the port says that it is ready.

The address of the server is resolved, and what a packet of anyone else is for is left out. The ids
of new requests, which are random, come with the inputs.
-/

namespace Libjingle.Stun

open Libjingle.Std Resending

/-- 10 seconds, in milliseconds. -/
def keepaliveDelay : Nat := 10 * 1000

def retryDelay : Nat := 50

def retryTimeout : Nat := 50 * 1000

structure StunPortBindingRequest where
  keepAlive : Bool
  serverAddr : SocketAddress
  startTime : Nat

/-- What a candidate of a port has of the port. -/
structure PortInfo (ρ : Type) where
  name : String
  preference : ρ
  usernameFrag : String
  password : String
  generation : UInt32

def stunPortType : String := "stun"

/-- `SignalAddressReady`, with the candidates that the port has then, and `SignalAddressError`. -/
inductive PortSignal (ρ : Type) where
  | addressReady (candidates : List (P2P.Candidate ρ))
  | addressError

structure StunPort (ρ : Type) where
  info : PortInfo ρ
  serverAddr : SocketAddress
  serverAddr2 : SocketAddress
  requests : Manager StunPortBindingRequest
  candidates : List (P2P.Candidate ρ)
  signals : List (PortSignal ρ)

inductive StunPortInput where
  | prepareAddress (id : List UInt8)
  | prepareSecondaryAddress (id : List UInt8)
  /-- A posted message comes. -/
  | message (place : Nat) (id : List UInt8)
  | readPacket (remoteAddr : SocketAddress) (data : List UInt8) (id : List UInt8)
  | elapse (ms : Nat)

namespace StunPort

variable {ρ : Type}

def new (info : PortInfo ρ) (serverAddr serverAddr2 : SocketAddress) : StunPort ρ :=
  ⟨info, serverAddr, serverAddr2, .new, [], []⟩

/-- The candidate that `Port::AddAddress` makes. -/
def candidate (p : StunPort ρ) (address : SocketAddress) (protocol : String) : P2P.Candidate ρ where
  name := p.info.name
  protocol := protocol
  address := address
  preference := p.info.preference
  username := p.info.usernameFrag
  password := p.info.password
  type := stunPortType
  generation := p.info.generation

/-- `Port::AddAddress` of an address that is the last one. -/
def addAddress (p : StunPort ρ) (address : SocketAddress) (protocol : String) : StunPort ρ :=
  let candidates := p.candidates ++ [p.candidate address protocol]
  { p with candidates := candidates, signals := p.signals ++ [.addressReady candidates] }

/-- A request that is created now. -/
def request (p : StunPort ρ) (keepAlive : Bool) (serverAddr : SocketAddress) (id : List UInt8)
    (delay : Nat) : NewRequest StunPortBindingRequest :=
  ⟨id, MessageType.bindingRequest, ⟨keepAlive, serverAddr, p.requests.now⟩, delay⟩

/-- The address that a binding response reports. -/
def mappedAddress (msg : Message) : Option SocketAddress :=
  (msg.getAddress AttributeType.mappedAddress).filter fun addr => addr.ip.isV4

/-- `OnResponse` of a request, with the request that it sends. -/
def onResponse (p : StunPort ρ) (request : StunPortBindingRequest) (msg : Message)
    (id : List UInt8) : StunPort ρ × List (NewRequest StunPortBindingRequest) :=
  (match mappedAddress msg with
    | none => p
    | some addr => p.addAddress addr "udp",
   if request.keepAlive then [p.request true request.serverAddr id keepaliveDelay] else [])

def addressError (p : StunPort ρ) : StunPort ρ :=
  { p with signals := p.signals ++ [.addressError] }

/-- A request is tried again, for some time. -/
def retry (p : StunPort ρ) (request : StunPortBindingRequest) (id : List UInt8) (delay : Nat) :
    List (NewRequest StunPortBindingRequest) :=
  if request.keepAlive ∧ p.requests.now - request.startTime ≤ retryTimeout then
    [p.request true request.serverAddr id delay]
  else []

/-- The request and the message of a response that `CheckResponse` finds. -/
def found (m : Manager StunPortBindingRequest) (data : List UInt8) :
    Option (Request StunPortBindingRequest × Message) :=
  if data.length < 20 then none
  else
    match m.requests.index (StunRequestManager.slice data), Message.new.read data with
    | some _, (true, msg, _) =>
        ((m.requests.index msg.transactionId).bind m.requests.objects).map (·, msg)
    | _, _ => none

/-- The callback of a request that a packet leads to, and the requests that it sends. -/
def onPacket (p : StunPort ρ) (data id : List UInt8) :
    StunPort ρ × List (NewRequest StunPortBindingRequest) :=
  match found p.requests data with
  | none => (p, [])
  | some (object, msg) =>
      if msg.type = responseType object.type then p.onResponse object.body msg id
      else if msg.type = errorResponseType object.type then
        (p.addressError, p.retry object.body id keepaliveDelay)
      else (p, [])

/-- The callback of a request whose message comes, if it is timed out. -/
def onTimeout (p : StunPort ρ) (place : Nat) (id : List UInt8) :
    StunPort ρ × List (NewRequest StunPortBindingRequest) :=
  match (p.requests.queue[place]?).bind fun posted =>
      if posted.due ≤ p.requests.now then p.requests.requests.objects posted.request else none with
  | none => (p, [])
  | some object =>
      if object.timeout then (p.addressError, p.retry object.body id retryDelay) else (p, [])

/-- The manager takes an input. -/
def manage (p : StunPort ρ) (input : Resending.Input StunPortBindingRequest) : StunPort ρ :=
  { p with requests := p.requests.step (fun _ => getNextDelay) input }

def step (p : StunPort ρ) : StunPortInput → StunPort ρ
  | .prepareAddress id => p.manage (.send (p.request true p.serverAddr id 0))
  | .prepareSecondaryAddress id => p.manage (.send (p.request false p.serverAddr2 id 0))
  | .message place id => (p.onTimeout place id).1.manage (.message place (p.onTimeout place id).2)
  | .readPacket remoteAddr data id =>
      if remoteAddr = p.serverAddr ∨ remoteAddr = p.serverAddr2 then
        (p.onPacket data id).1.manage (.bytes data (p.onPacket data id).2)
      else p
  | .elapse ms => p.manage (.elapse ms)

/-! ## What is announced -/

/-- The address that a response brings to the port. -/
def brings (p : StunPort ρ) : StunPortInput → Option SocketAddress
  | .readPacket remoteAddr data _ =>
      if remoteAddr = p.serverAddr ∨ remoteAddr = p.serverAddr2 then
        (found p.requests data).bind fun (object, msg) =>
          if msg.type = responseType object.type then mappedAddress msg else none
      else none
  | _ => none

/-- The addresses that come in a run. -/
def mapped (p : StunPort ρ) : List StunPortInput → List SocketAddress
  | [] => []
  | input :: inputs => (p.brings input).toList ++ (p.step input).mapped inputs

/-- After the responses that brought these addresses, no two candidates are equivalent, and each
address was appended once and announced. -/
structure AnnouncesOnce (p : StunPort ρ) (addresses : List SocketAddress) : Prop where
  distinct : p.candidates.Pairwise fun a b => a.isEquivalent b = false
  once : ∀ address ∈ addresses, (p.candidates.filter fun c => c.address = address).length = 1
  announced : ∀ address ∈ addresses, ∃ earlier,
    .addressReady (earlier ++ [p.candidate address "udp"]) ∈ p.signals

/-- The address that comes is not that of a candidate. -/
def Unannounced (p : StunPort ρ) (input : StunPortInput) : Prop :=
  ∀ address, p.brings input = some address → ∀ c ∈ p.candidates, c.address ≠ address

variable {p : StunPort ρ} {input : StunPortInput} {address : SocketAddress}

/-- What an input does to the candidates and the signals is what its response brings. -/
theorem step_cases (p : StunPort ρ) (input : StunPortInput) :
    (p.step input).info = p.info ∧
      ((p.brings input = none ∧ (p.step input).candidates = p.candidates ∧
          ∃ more, (p.step input).signals = p.signals ++ more) ∨
        ∃ address, p.brings input = some address ∧
          (p.step input).candidates = (p.addAddress address "udp").candidates ∧
          (p.step input).signals = (p.addAddress address "udp").signals) := by
  cases input with
  | prepareAddress id => exact ⟨rfl, .inl ⟨rfl, rfl, [], (List.append_nil _).symm⟩⟩
  | prepareSecondaryAddress id => exact ⟨rfl, .inl ⟨rfl, rfl, [], (List.append_nil _).symm⟩⟩
  | elapse ms => exact ⟨rfl, .inl ⟨rfl, rfl, [], (List.append_nil _).symm⟩⟩
  | message place id =>
    have timeout : (p.onTimeout place id).1 = p ∨ (p.onTimeout place id).1 = p.addressError := by
      unfold onTimeout
      split
      · exact .inl rfl
      · split
        · exact .inr rfl
        · exact .inl rfl
    have same : (p.step (.message place id)).info = (p.onTimeout place id).1.info ∧
        (p.step (.message place id)).candidates = (p.onTimeout place id).1.candidates ∧
        (p.step (.message place id)).signals = (p.onTimeout place id).1.signals := ⟨rfl, rfl, rfl⟩
    rcases timeout with timeout | timeout <;> rw [timeout] at same
    · exact ⟨same.1, .inl ⟨rfl, same.2.1, [], same.2.2.trans (List.append_nil _).symm⟩⟩
    · exact ⟨same.1, .inl ⟨rfl, same.2.1, _, same.2.2⟩⟩
  | readPacket remoteAddr data id =>
    by_cases server : remoteAddr = p.serverAddr ∨ remoteAddr = p.serverAddr2
    · have stepped : p.step (.readPacket remoteAddr data id) =
          (p.onPacket data id).1.manage (.bytes data (p.onPacket data id).2) := if_pos server
      have brought : p.brings (.readPacket remoteAddr data id) =
          (found p.requests data).bind fun (object, msg) =>
            if msg.type = responseType object.type then mappedAddress msg else none := if_pos server
      have same : (p.step (.readPacket remoteAddr data id)).info = (p.onPacket data id).1.info ∧
          (p.step (.readPacket remoteAddr data id)).candidates =
            (p.onPacket data id).1.candidates ∧
          (p.step (.readPacket remoteAddr data id)).signals = (p.onPacket data id).1.signals := by
        rw [stepped]
        exact ⟨rfl, rfl, rfl⟩
      rw [same.1, same.2.1, same.2.2, brought]
      clear stepped brought same
      unfold onPacket
      cases found p.requests data with
      | none => exact ⟨rfl, .inl ⟨rfl, rfl, [], (List.append_nil _).symm⟩⟩
      | some answer =>
        obtain ⟨object, msg⟩ := answer
        dsimp only [Option.bind_some]
        split
        · unfold onResponse
          cases mappedAddress msg with
          | none => exact ⟨rfl, .inl ⟨rfl, rfl, [], (List.append_nil _).symm⟩⟩
          | some address => exact ⟨rfl, .inr ⟨address, rfl, rfl, rfl⟩⟩
        · split
          · exact ⟨rfl, .inl ⟨rfl, rfl, _, rfl⟩⟩
          · exact ⟨rfl, .inl ⟨rfl, rfl, [], (List.append_nil _).symm⟩⟩
    · have stepped : p.step (.readPacket remoteAddr data id) = p := if_neg server
      have brought : p.brings (.readPacket remoteAddr data id) = none := if_neg server
      rw [stepped, brought]
      exact ⟨rfl, .inl ⟨rfl, rfl, [], (List.append_nil _).symm⟩⟩

theorem candidates_step (p : StunPort ρ) (input : StunPortInput) :
    (p.step input).candidates =
      p.candidates ++ (p.brings input).toList.map (p.candidate · "udp") := by
  obtain ⟨-, ⟨none, same, -⟩ | ⟨address, some, same, -⟩⟩ := p.step_cases input
  · rw [none, same]
    exact (List.append_nil _).symm
  · rw [some, same]
    rfl

theorem candidate_of_info {q : StunPort ρ} (same : q.info = p.info) (address : SocketAddress)
    (protocol : String) : q.candidate address protocol = p.candidate address protocol := by
  unfold candidate
  rw [same]

/-- The candidates are made of the addresses that came, in their order. -/
theorem candidates_run (p : StunPort ρ) (inputs : List StunPortInput) :
    (runInputs step p inputs).info = p.info ∧ (runInputs step p inputs).candidates =
      p.candidates ++ (p.mapped inputs).map (p.candidate · "udp") := by
  induction inputs generalizing p with
  | nil => exact ⟨rfl, (List.append_nil _).symm⟩
  | cons input inputs ih =>
    obtain ⟨info, candidates⟩ := ih (p.step input)
    have same := (p.step_cases input).1
    refine ⟨info.trans same, candidates.trans ?_⟩
    rw [candidates_step, mapped, List.map_append, List.append_assoc]
    congr 2
    exact List.map_congr_left fun address _ => candidate_of_info same address "udp"

/-- What was announced stays so, and each address is announced when it comes. -/
theorem announced_run (p : StunPort ρ) (inputs : List StunPortInput) :
    (∀ signal ∈ p.signals, signal ∈ (runInputs step p inputs).signals) ∧
      ∀ address ∈ p.mapped inputs, ∃ earlier,
        .addressReady (earlier ++ [p.candidate address "udp"]) ∈ (runInputs step p inputs).signals := by
  induction inputs generalizing p with
  | nil => exact ⟨fun _ mem => mem, fun _ mem => by cases mem⟩
  | cons input inputs ih =>
    obtain ⟨kept, later⟩ := ih (p.step input)
    obtain ⟨info, effect⟩ := p.step_cases input
    have here : ∀ signal ∈ p.signals, signal ∈ (p.step input).signals := by
      intro signal mem
      rcases effect with ⟨-, -, more, same⟩ | ⟨address, -, -, same⟩
      · rw [same]
        exact List.mem_append_left more mem
      · rw [same]
        exact List.mem_append_left _ mem
    refine ⟨fun signal mem => kept signal (here signal mem), fun address mem => ?_⟩
    rcases List.mem_append.mp mem with now | mem
    · rcases effect with ⟨none, -⟩ | ⟨address', some, -, same⟩
      · rw [none] at now
        cases now
      · rw [some, Option.toList_some, List.mem_singleton] at now
        subst now
        refine ⟨p.candidates, kept _ ?_⟩
        rw [same]
        exact List.mem_append_right _ List.mem_cons_self
    · obtain ⟨earlier, announced⟩ := later address mem
      rw [candidate_of_info info] at announced
      exact ⟨earlier, announced⟩

/-- Every address that comes is new to the port exactly if none comes twice. -/
theorem along_unannounced_iff (p : StunPort ρ) (inputs : List StunPortInput) :
    Along step Unannounced p inputs ↔ (p.mapped inputs).Nodup ∧
      ∀ address ∈ p.mapped inputs, ∀ c ∈ p.candidates, c.address ≠ address := by
  induction inputs generalizing p with
  | nil => exact iff_of_true trivial ⟨List.nodup_nil, fun _ mem => by cases mem⟩
  | cons input inputs ih =>
    have rest := ih (p.step input)
    rw [candidates_step] at rest
    rw [Along, rest, mapped]
    cases brought : p.brings input with
    | none =>
      rw [brought] at rest
      simp [Unannounced, brought]
    | some address =>
      simp only [Unannounced, brought, Option.toList_some, List.map_cons, List.map_nil,
        List.singleton_append, List.nodup_cons, List.mem_append, List.mem_cons, List.not_mem_nil,
        or_false, Option.some.injEq]
      constructor
      · rintro ⟨here, distinct, later⟩
        refine ⟨⟨fun again => ?_, distinct⟩, ?_⟩
        · exact later address again _ (.inr rfl) rfl
        · rintro other (rfl | mem) c known
          · exact here other rfl c known
          · exact later other mem c (.inl known)
      · rintro ⟨⟨once, distinct⟩, apart⟩
        refine ⟨?_, distinct, ?_⟩
        · rintro _ rfl c known
          exact apart address (.inl rfl) c known
        · rintro other mem c (known | rfl)
          · exact apart other (.inr mem) c known
          · exact fun same => once ((show address = other from same) ▸ mem)

theorem isEquivalent_candidate (a b : SocketAddress) :
    (p.candidate a "udp").isEquivalent (p.candidate b "udp") = decide (a = b) := by
  simp [P2P.Candidate.isEquivalent, candidate]

/-- The port announces each address once, and no candidate twice, exactly if every address that
comes is not yet that of a candidate. -/
theorem announcesOnce_iff (info : PortInfo ρ) (serverAddr serverAddr2 : SocketAddress)
    (inputs : List StunPortInput) :
    (runInputs step (new info serverAddr serverAddr2) inputs).AnnouncesOnce
        ((new info serverAddr serverAddr2).mapped inputs) ↔
      Along step Unannounced (new info serverAddr serverAddr2) inputs := by
  generalize begins : new info serverAddr serverAddr2 = p
  obtain ⟨same, candidates⟩ := p.candidates_run inputs
  have none : p.candidates = [] := by rw [← begins]; rfl
  rw [none, List.nil_append] at candidates
  rw [along_unannounced_iff, none]
  constructor
  · intro announces
    have distinct := announces.distinct
    rw [candidates, List.pairwise_map] at distinct
    refine ⟨distinct.imp fun apart equal => ?_, fun _ _ _ known => by cases known⟩
    rw [isEquivalent_candidate, decide_eq_false_iff_not] at apart
    exact apart equal
  · rintro ⟨distinct, -⟩
    refine ⟨?_, fun address mem => ?_, fun address mem => ?_⟩
    · rw [candidates, List.pairwise_map]
      refine distinct.imp fun apart => ?_
      rw [isEquivalent_candidate, decide_eq_false_iff_not]
      exact apart
    · rw [candidates, List.filter_map, List.length_map]
      have counts : (p.mapped inputs).count address = 1 := List.count_eq_one_of_mem distinct mem
      rw [← counts, List.count_eq_length_filter]
      congr 2
    · obtain ⟨earlier, announced⟩ := (p.announced_run inputs).2 address mem
      refine ⟨earlier, ?_⟩
      rwa [candidate_of_info same]

/-! ## The keep-alive -/

private def somePort : PortInfo Unit :=
  ⟨"rtp", (), "username", "password", 0⟩

private def server : SocketAddress :=
  ⟨.v4 0xC0000201, 3478⟩

private def someId (number : UInt8) : List UInt8 :=
  List.replicate 11 0x41 ++ [number]

/-- The response to the request of a number, with the mapped address 203.0.113.5:40000. -/
private def answer (number : UInt8) : List UInt8 :=
  (((Message.new.setType MessageType.bindingResponse).setTransactionId (someId number)).addAttribute
    (Attribute.address AttributeType.mappedAddress ⟨.v4 0xCB007105, 40000⟩)).write

/-- The second answer reports the address of the first. -/
theorem not_announcesOnce_keepalive : ¬ ∀ (info : PortInfo Unit) (serverAddr serverAddr2 : SocketAddress)
    (inputs : List StunPortInput),
    (runInputs step (new info serverAddr serverAddr2) inputs).AnnouncesOnce
      ((new info serverAddr serverAddr2).mapped inputs) := by
  intro announces
  have distinct := (announces somePort server .nil [.prepareAddress (someId 1),
    .message 0 [], .readPacket server (answer 1) (someId 2), .elapse 10000, .message 0 [],
    .readPacket server (answer 2) (someId 3)]).distinct
  exact absurd distinct (by decide +kernel)

end StunPort

end Libjingle.Stun
