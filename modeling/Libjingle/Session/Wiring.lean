import Mathlib.Algebra.Order.Ring.Nat
import Mathlib.Data.List.Basic

/-!
# Contents and their transports

`TransportProxy` of `talk/p2p/base/session.cc` with the part of `Transport` that
a session uses: the channels, the candidates that come in and whether it is
writable. A session owns a map from content names to proxies, kept sorted like
the `std::map` of the source; a proxy refers to its transport by number, since
several proxies share one after muxing.
-/

namespace Libjingle

namespace Session

/-- What `VerifyCandidate` learns about a socket address. Whether an address is
local depends on the host. -/
structure Address where
  isLocalIP : Bool
  isAny : Bool
  isPrivateIP : Bool
  port : Nat
  deriving DecidableEq, Repr

structure Candidate where
  /-- The name of the channel the candidate is for. -/
  name : String
  address : Address
  deriving DecidableEq, Repr

structure TransportInfo where
  contentName : String
  transportType : String
  candidates : List Candidate
  deriving DecidableEq, Repr

/-- The content names are sorted, as in a `std::set`. -/
structure ContentGroup where
  semantics : String
  contentNames : List String
  deriving DecidableEq, Repr

/-- The names stand for the contents. -/
structure SessionDescription where
  contents : List String
  groups : List ContentGroup
  deriving DecidableEq, Repr

inductive ProxyState where
  | init
  | connecting
  | negotiated
  deriving DecidableEq, Repr

structure Transport where
  channels : List String
  connectRequested : Bool
  writable : Bool
  allowLocalIps : Bool
  /-- The candidates of the peer that were handed over. -/
  remoteCandidates : List Candidate
  deriving DecidableEq, Repr

structure TransportProxy where
  contentName : String
  /-- The number of the transport. -/
  transport : Nat
  state : ProxyState
  channels : List String
  sentCandidates : List Candidate
  unsentCandidates : List Candidate
  deriving DecidableEq, Repr

/-- The transports of a session and the proxies that refer to them. -/
structure Wiring where
  transportType : String
  allowLocalIps : Bool
  proxies : List TransportProxy
  transports : List Transport
  deriving DecidableEq, Repr

/-! ## Transports -/

namespace Transport

def new (allowLocalIps : Bool) : Transport where
  channels := []
  connectRequested := false
  writable := false
  allowLocalIps := allowLocalIps
  remoteCandidates := []

def hasChannel (t : Transport) (name : String) : Bool :=
  t.channels.contains name

def hasChannels (t : Transport) : Bool :=
  !t.channels.isEmpty

/-- `GetOrCreateImpl`. -/
def getOrCreateImpl (t : Transport) (name : String) : Transport :=
  if t.hasChannel name then t else { t with channels := t.channels ++ [name] }

def connectChannels (t : Transport) : Transport :=
  if t.connectRequested ∨ ¬ t.hasChannels then t else { t with connectRequested := true }

/-- The text of the error, or nothing when the candidate is fine. -/
def verifyCandidate (t : Transport) (cand : Candidate) : Option String :=
  if cand.address.isLocalIP ∧ ¬ t.allowLocalIps then
    some "candidate has local IP address"
  else if cand.address.isAny then
    some "candidate has address of zero"
  else if cand.address.port < 1024 then
    if cand.address.port ≠ 80 ∧ cand.address.port ≠ 443 then
      some "candidate has port below 1024, but not 80 or 443"
    else if cand.address.isPrivateIP then
      some "candidate has port of 80 or 443 with private IP address"
    else none
  else none

/-- Candidates for unknown channels are ignored. -/
def onRemoteCandidates (t : Transport) (candidates : List Candidate) : Transport :=
  { t with
    remoteCandidates := t.remoteCandidates ++ candidates.filter fun cand => t.hasChannel cand.name }

end Transport

/-! ## Proxies -/

namespace TransportProxy

def new (contentName : String) (transport : Nat) : TransportProxy where
  contentName := contentName
  transport := transport
  state := .init
  channels := []
  sentCandidates := []
  unsentCandidates := []

def addChannel (p : TransportProxy) (name : String) : TransportProxy :=
  if p.channels.contains name then p else { p with channels := p.channels ++ [name] }

def negotiated (p : TransportProxy) : Bool :=
  p.state = .negotiated

/-- The channels of the proxy exist in its transport, and connect. -/
def connect (p : TransportProxy) (t : Transport) : Transport :=
  (p.channels.foldl Transport.getOrCreateImpl t).connectChannels

end TransportProxy

/-- Insertion into the sorted map; the content has no proxy yet. -/
def insertProxy (proxy : TransportProxy) : List TransportProxy → List TransportProxy
  | [] => [proxy]
  | head :: tail =>
      if head.contentName < proxy.contentName then head :: insertProxy proxy tail
      else proxy :: head :: tail

namespace Wiring

/-- `GetTransportProxy` by content name. -/
def getTransportProxy (w : Wiring) (contentName : String) : Option TransportProxy :=
  w.proxies.find? fun p => p.contentName = contentName

/-- `GetTransportProxy` by transport: the first in the order of the map. -/
def getTransportProxyOf (w : Wiring) (transport : Nat) : Option TransportProxy :=
  w.proxies.find? fun p => p.transport = transport

def modifyProxy (w : Wiring) (contentName : String) (f : TransportProxy → TransportProxy) :
    Wiring :=
  { w with proxies := w.proxies.map fun p => if p.contentName = contentName then f p else p }

def modifyTransport (w : Wiring) (transport : Nat) (f : Transport → Transport) : Wiring :=
  { w with transports := w.transports.modify transport f }

/-- The transport of a proxy. -/
def transportOf (w : Wiring) (p : TransportProxy) : Transport :=
  w.transports.getD p.transport (.new w.allowLocalIps)

def getOrCreateTransportProxy (w : Wiring) (contentName : String) : Wiring :=
  if (w.getTransportProxy contentName).isSome then w
  else
    { w with
      proxies := insertProxy (.new contentName w.transports.length) w.proxies
      transports := w.transports ++ [.new w.allowLocalIps] }

/-- `CreateTransportProxies`, up to the first content with an unsupported
transport; the flag tells whether there was none. -/
def createTransportProxies (w : Wiring) : List TransportInfo → Bool × Wiring
  | [] => (true, w)
  | tinfo :: rest =>
      if tinfo.transportType ≠ w.transportType then (false, w)
      else (w.getOrCreateTransportProxy tinfo.contentName).createTransportProxies rest

/-- `CreateChannel`. -/
def createChannel (w : Wiring) (contentName channelName : String) : Wiring :=
  let w := w.getOrCreateTransportProxy contentName
  match w.getTransportProxy contentName with
  | none => w
  | some p =>
      let w := w.modifyProxy contentName fun p => p.addChannel channelName
      if p.state = .init then w
      else w.modifyTransport p.transport fun t => t.getOrCreateImpl channelName

/-- `SpeculativelyConnectAllTransportChannels`. -/
def speculativelyConnectAll (w : Wiring) : Wiring :=
  let w := w.proxies.foldl (fun w p => w.modifyTransport p.transport p.connect) w
  { w with proxies := w.proxies.map fun p => { p with state := .connecting } }

def completeNegotiation (w : Wiring) (contentName : String) : Wiring :=
  match w.getTransportProxy contentName with
  | none => w
  | some p =>
      if p.negotiated then w
      else
        (w.modifyProxy contentName fun p => { p with state := .negotiated }).modifyTransport
          p.transport p.connect

/-- The first candidate of a content that is refused, and why. -/
def refusedCandidate (t : Transport) (contentName : String) : List Candidate → Option String
  | [] => none
  | cand :: rest =>
      match t.verifyCandidate cand with
      | some text => some text
      | none =>
          if t.hasChannel cand.name then refusedCandidate t contentName rest
          else some ("channel named in candidate does not exist: " ++ cand.name ++
            " for content: " ++ contentName)

/-- `OnRemoteCandidates`: one content after the other, up to the first that is
refused; nothing stands for success. -/
def onRemoteCandidates (w : Wiring) : List TransportInfo → Option String × Wiring
  | [] => (none, w)
  | tinfo :: rest =>
      match w.getTransportProxy tinfo.contentName with
      | none => (some ("Unknown content name: " ++ tinfo.contentName), w)
      | some p =>
          let w := w.completeNegotiation tinfo.contentName
          match refusedCandidate (w.transportOf p) tinfo.contentName tinfo.candidates with
          | some text => (some text, w)
          | none =>
              (w.modifyTransport p.transport fun t =>
                t.onRemoteCandidates tinfo.candidates).onRemoteCandidates rest

/-- `SetSelectedProxy`: every other content of the group moves to the transport
of the selected one. -/
def setSelectedProxy (w : Wiring) (contentName : String) (group : ContentGroup) : Wiring :=
  match w.getTransportProxy contentName with
  | none => w
  | some selected =>
      { w with
        proxies := w.proxies.map fun p =>
          if p.contentName ≠ contentName ∧ p.contentName ∈ group.contentNames then
            { p with transport := selected.transport }
          else p }

end Wiring

/-- `GetGroupByName`. -/
def SessionDescription.getGroupByName (d : SessionDescription) (name : String) :
    Option ContentGroup :=
  d.groups.find? fun group => group.semantics = name

/-- `GROUP_TYPE_BUNDLE`. -/
def groupTypeBundle : String := "BUNDLE"

/-- `MaybeEnableMuxingSupport`. -/
def Wiring.maybeEnableMuxingSupport (w : Wiring) (localDescription remoteDescription :
    Option SessionDescription) : Wiring :=
  match localDescription, remoteDescription with
  | some here, some there =>
      match here.getGroupByName groupTypeBundle, there.getGroupByName groupTypeBundle with
      | some group, some _ =>
          match group.contentNames.head? with
          | some contentName =>
              if contentName ∈ here.contents then w.setSelectedProxy contentName group else w
          | none => w
      | _, _ => w
  | _, _ => w

end Session

end Libjingle
