import Libjingle.Relay.Registration

/-!
# How long a binding lives

A binding is granted a lifetime by the first ALLOCATE request, each use of it sets the time
from which that counts, and when its timer finds it exceeded the disposal of the binding is
posted. The lifetime and the deadline are computed in 32 bits, and nothing takes the disposal back.
-/

namespace Libjingle.Relay

open Libjingle.Stun Libjingle.Std

/-- What no packet changes about a binding. -/
def RelayServerBinding.terms (b : RelayServerBinding) : UInt32 × Bool :=
  (b.lifetime, b.disposing)

namespace RelayServer

/-! ## What a packet does to the bindings -/

/-- At most one binding is used. -/
structure Uses (username : List UInt8) (s s' : RelayServer) : Prop where
  others : ∀ other, other ≠ username → s'.bindings other = s.bindings other
  terms : (s'.bindings username).map (·.terms) = (s.bindings username).map (·.terms)

namespace Uses

variable {username : List UInt8} {s s' s'' : RelayServer}

theorem same (bindings : s'.bindings = s.bindings) : Uses username s s' where
  others other _ := congrFun bindings other
  terms := by rw [bindings]

theorem refl (username : List UInt8) (s : RelayServer) : Uses username s s :=
  same rfl

theorem trans (first : Uses username s s') (second : Uses username s' s'') :
    Uses username s s'' where
  others other ne := (second.others other ne).trans (first.others other ne)
  terms := second.terms.trans first.terms

theorem modifyBinding (s : RelayServer) (username : List UInt8)
    {f : RelayServerBinding → RelayServerBinding} (terms : ∀ b, (f b).terms = b.terms) :
    Uses username s (s.modifyBinding username f) where
  others other ne := by rw [bindings_modifyBinding, if_neg ne]
  terms := by
    rw [bindings_modifyBinding, if_pos rfl, Option.map_map]
    exact congrArg (fun g => (s.bindings username).map g) (funext terms)

theorem noteUsed (s : RelayServer) (username : List UInt8) (now : UInt32) :
    Uses username s (s.noteUsed username now) :=
  modifyBinding s username fun _ => rfl

theorem addConnection (s : RelayServer) (conn : RelayServerConnection)
    {list : RelayServerBinding → RelayServerBinding} (terms : ∀ b, (list b).terms = b.terms)
    (now : UInt32) : Uses conn.binding s (s.addConnection conn list now) where
  others other ne := by rw [bindings_addConnection, if_neg ne]
  terms := by
    rw [bindings_addConnection, if_pos rfl, Option.map_map]
    exact congrArg (fun g => (s.bindings conn.binding).map g)
      (funext fun b => terms { b with lastUsed := now })

theorem addInternalConnection (s : RelayServer) (username : List UInt8) (ap : AddressPair)
    (now : UInt32) : Uses username s (s.addInternalConnection username ap now) := by
  have terms : ∀ b : RelayServerBinding,
      { b with internalConnections := b.internalConnections ++ [s.connections.next] }.terms =
        b.terms := fun _ => rfl
  exact addConnection s ⟨username, ap, false, .nil⟩ terms now

theorem addExternalConnection (s : RelayServer) (username : List UInt8) (ap : AddressPair)
    (locked : Bool) (now : UInt32) :
    Uses username s (s.addExternalConnection username ap locked now) := by
  have terms : ∀ b : RelayServerBinding,
      { b with externalConnections := b.externalConnections ++ [s.connections.next] }.terms =
        b.terms := fun _ => rfl
  exact addConnection s ⟨username, ap, locked, .nil⟩ terms now

theorem forward (s : RelayServer) (username bytes : List UInt8) (extAddr : SocketAddress)
    (now : UInt32) : Uses username s (s.forward username bytes extAddr now).1 := by
  unfold RelayServer.forward
  split
  · exact refl username s
  · exact noteUsed s username now

theorem answerAllocate (s : RelayServer) (username : List UInt8) (ap : AddressPair)
    (request : Message) (now : UInt32) :
    Uses username s (s.answerAllocate username ap request now).1 := by
  unfold RelayServer.answerAllocate
  split
  · exact refl username s
  · exact noteUsed s username now

theorem sendExternal (s : RelayServer) (username : List UInt8) (extAddr : SocketAddress)
    (bytes : List UInt8) (now : UInt32) :
    Uses username s (s.sendExternal username extAddr bytes now).1 := by
  unfold RelayServer.sendExternal
  split
  · exact refl username s
  · split
    · exact noteUsed s username now
    · exact refl username s

theorem ensureExternalConnection (s : RelayServer) (username : List UInt8)
    (extAddr : SocketAddress) (now : UInt32) :
    Uses username s (s.ensureExternalConnection username extAddr now) := by
  unfold RelayServer.ensureExternalConnection
  split
  · exact refl username s
  · exact addExternalConnection s username _ false now

theorem lockTo (s : RelayServer) (conn : Nat) (c : RelayServerConnection)
    (extAddr : SocketAddress) (request : Message) (now : UInt32) :
    Uses c.binding s (s.lockTo conn c extAddr request now).1 := by
  have locked : Uses c.binding s (s.modifyConnection conn fun c =>
      { c with defaultDestination := extAddr, locked := true }) := same rfl
  exact locked.trans (noteUsed _ c.binding now)

theorem handleStunSend (s : RelayServer) (conn : Nat) (c : RelayServerConnection)
    (request : Message) (now : UInt32) :
    Uses c.binding s (s.handleStunSend conn c request now).1 := by
  unfold RelayServer.handleStunSend
  split
  · next extAddr data _ _ =>
    have sent := (ensureExternalConnection s c.binding extAddr now).trans
      (sendExternal (s.ensureExternalConnection c.binding extAddr now) c.binding extAddr data now)
    simp only
    split
    · exact sent
    · split
      · exact sent
      · exact sent.trans (lockTo _ conn c extAddr request now)
  · exact refl c.binding s

theorem handleStun (s : RelayServer) (conn : Nat) (c : RelayServerConnection)
    (bytes : List UInt8) (now : UInt32) : Uses c.binding s (s.handleStun conn c bytes now).1 := by
  unfold RelayServer.handleStun
  split
  · exact refl c.binding s
  · split_ifs
    · exact refl c.binding s
    · exact handleStunSend s conn c _ now
    · exact answerAllocate s c.binding c.addrPair _ now
    · exact refl c.binding s

end Uses

/-- The ALLOCATE request that makes a binding. -/
def allocates (s : RelayServer) (ap : AddressPair) (bytes : List UInt8) :
    Option (List UInt8 × Message) :=
  if ap.destination = s.externalSocket ∨ (s.find ap).isSome then none
  else
    match parseStun bytes with
    | .error _ => none
    | .ok (username, request) =>
        if request.type = MessageType.allocateRequest ∧ s.bindings username = none then
          some (username, request)
        else none

/-- The username of the binding that a packet is for. -/
def addressee (s : RelayServer) (ap : AddressPair) (bytes : List UInt8) : Option (List UInt8) :=
  match s.find ap with
  | some conn => (s.connection conn).map (·.binding)
  | none =>
      if ap.destination = s.externalSocket then
        match Message.new.read bytes with
        | (false, _, _) => none
        | (true, msg, _) =>
            (msg.getByteString AttributeType.username).map fun username => username.take usernameLength
      else
        match parseStun bytes with
        | .error _ => none
        | .ok (username, _) => some username

/-- The server with the binding that a packet makes. -/
def founded (s : RelayServer) (ap : AddressPair) (bytes : List UInt8) (now : UInt32) :
    RelayServer :=
  match s.allocates ap bytes with
  | none => s
  | some (username, request) => s.addBinding username (requestedLifetime request) now

theorem addressee_of_allocates {s : RelayServer} {ap : AddressPair} {bytes username : List UInt8}
    {request : Message} (allocates : s.allocates ap bytes = some (username, request)) :
    s.addressee ap bytes = some username := by
  unfold RelayServer.allocates at allocates
  split at allocates
  · exact nomatch allocates
  · next inside =>
    obtain ⟨inside, unknown⟩ := not_or.mp inside
    unfold addressee
    rw [Option.not_isSome_iff_eq_none.mp unknown]
    simp only [inside, if_false]
    cases parsed : parseStun bytes with
    | error response => simp [parsed] at allocates
    | ok result =>
      simp only [parsed] at allocates
      split at allocates
      · exact congrArg (fun r : List UInt8 × Message => some r.1) (Option.some.inj allocates)
      · exact nomatch allocates

/-- A packet uses the binding that it is for, or none. -/
theorem next_packet (s : RelayServer) (ap : AddressPair) (bytes : List UInt8) (now : UInt32) :
    match s.addressee ap bytes with
    | none => (s.next (.packet ap bytes now)).bindings = s.bindings
    | some username => Uses username (s.founded ap bytes now) (s.next (.packet ap bytes now)) := by
  have external : ap.destination = s.externalSocket → s.founded ap bytes now = s := by
    intro outside
    unfold founded allocates
    rw [if_pos (.inl outside)]
  have found : ∀ conn, s.find ap = some conn → s.founded ap bytes now = s := by
    intro conn is
    unfold founded allocates
    rw [if_pos (.inr (by rw [is]; rfl))]
  unfold addressee next step
  cases isFound : s.find ap with
  | some conn =>
    rw [found conn isFound]
    simp only
    cases isConn : s.connection conn with
    | none =>
      simp only [Option.map_none]
      split
      · simp only [onExternalPacket, isFound, isConn]
      · simp only [onInternalPacket, isFound, isConn]
    | some c =>
      simp only [Option.map_some]
      split
      · simp only [onExternalPacket, isFound, isConn]
        exact (Uses.forward s c.binding bytes ap.source now).trans (.same rfl)
      · simp only [onInternalPacket, isFound, isConn]
        split_ifs
        · exact Uses.handleStun s conn c bytes now
        · exact Uses.sendExternal s c.binding c.defaultDestination bytes now
        · exact Uses.refl c.binding s
  | none =>
    simp only
    by_cases outside : ap.destination = s.externalSocket
    · rw [external outside, if_pos outside, if_pos outside]
      simp only [onExternalPacket, isFound]
      rcases isRead : Message.new.read bytes with ⟨_ | _, msg, rest⟩
      · rfl
      · simp only
        cases isNamed : msg.getByteString AttributeType.username with
        | none => rfl
        | some name =>
          simp only [Option.map_some]
          split
          · exact Uses.refl _ s
          · exact (Uses.addExternalConnection s _ ap true now).trans (Uses.forward _ _ bytes ap.source now)
    · rw [if_neg outside, if_neg outside]
      simp only [onInternalPacket, isFound, handleStunAllocate]
      cases parsed : parseStun bytes with
      | error response => rfl
      | ok result =>
        obtain ⟨username, request⟩ := result
        simp only
        have unknown : ¬(ap.destination = s.externalSocket ∨ (s.find ap).isSome = true) := by
          simp [outside, isFound]
        by_cases isAllocate : request.type = MessageType.allocateRequest
        · rw [if_neg (not_not.mpr isAllocate)]
          have founds : ∀ s', Uses username s'
              ((s'.addInternalConnection username ap now).answerAllocate username ap request now).1 :=
            fun s' => (Uses.addInternalConnection s' username ap now).trans
              (Uses.answerAllocate _ username ap request now)
          unfold founded allocates
          rw [if_neg unknown, parsed]
          cases bound : s.bindings username with
          | some b =>
            simp only [isAllocate, bound, reduceCtorEq, and_false, if_false]
            exact founds s
          | none =>
            simp only [isAllocate, bound, and_self, if_true]
            exact founds (s.addBinding username (requestedLifetime request) now)
        · rw [if_pos isAllocate]
          have same : s.founded ap bytes now = s := by
            unfold founded allocates
            rw [if_neg unknown, parsed]
            simp [isAllocate]
          rw [same]
          exact Uses.refl username s

/-! ## Lifetime and deadline in 32 bits -/

/-- The lifetime that a request asks for, without a wrap. -/
def exactLifetime (request : Message) : Nat :=
  match request.getUInt32 AttributeType.lifetime with
  | none => maxLifetime.toNat
  | some value => min maxLifetime.toNat (value.toNat * 1000)

/-- The product of a long lifetime wraps to less than the longest one. -/
def WrapsShort (request : Message) : Prop :=
  ∃ value, request.getUInt32 AttributeType.lifetime = some value ∧
    900 < value.toNat ∧ value.toNat * 1000 % 2 ^ 32 < maxLifetime.toNat

theorem requestedLifetime_exact_iff (request : Message) :
    (requestedLifetime request).toNat = exactLifetime request ↔ ¬WrapsShort request := by
  unfold requestedLifetime exactLifetime WrapsShort
  cases request.getUInt32 AttributeType.lifetime with
  | none => simp
  | some value =>
    have isMax : maxLifetime.toNat = 900000 := rfl
    have product : (value * 1000).toNat = value.toNat * 1000 % 2 ^ 32 := UInt32.toNat_mul _ _
    have least : (min maxLifetime (value * 1000)).toNat =
        min maxLifetime.toNat (value * 1000).toNat := by
      rw [show min maxLifetime (value * 1000) =
        if maxLifetime ≤ value * 1000 then maxLifetime else value * 1000 from rfl]
      split
      · next le => rw [min_eq_left (UInt32.le_iff_toNat_le.mp le)]
      · next gt =>
        rw [UInt32.le_iff_toNat_le] at gt
        rw [min_eq_right (not_le.mp gt).le]
    simp only [Option.some.injEq, exists_eq_left']
    rw [least, product, isMax]
    by_cases short : value.toNat ≤ 900
    · rw [Nat.mod_eq_of_lt (by omega)]
      simp [not_lt.mpr short]
    · have long : 900 < value.toNat := not_le.mp short
      rw [min_eq_left (a := 900000) (b := value.toNat * 1000) (by omega)]
      simp only [long, true_and, not_lt]
      exact min_eq_left_iff

/-- The time of the last use is at most the time, and the deadline has wrapped. -/
def WrapsEarly (b : RelayServerBinding) (now : UInt32) : Prop :=
  2 ^ 32 ≤ b.lastUsed.toNat + b.lifetime.toNat ∧ b.lastUsed.toNat ≤ now.toNat

theorem deadline_iff (b : RelayServerBinding) (now : UInt32) :
    (b.lastUsed + b.lifetime ≤ now → b.lifetime ≤ now - b.lastUsed) ↔ ¬WrapsEarly b now := by
  have boundUsed := b.lastUsed.toNat_lt
  have boundLifetime := b.lifetime.toNat_lt
  have boundNow := now.toNat_lt
  unfold WrapsEarly
  simp only [UInt32.le_iff_toNat_le, UInt32.toNat_add, UInt32.toNat_sub]
  omega

/-! ## Runs -/

/-- A server, with the exact lifetimes that were asked for, and for a binding that is signalled
when it was used before that. -/
structure Watched where
  server : RelayServer
  granted : List UInt8 → Nat
  expired : List UInt8 → UInt32

namespace Watched

def new (externalSocket : SocketAddress) : Watched where
  server := .new externalSocket
  granted _ := 0
  expired _ := 0

/-- The timer of a binding signals its timeout. -/
def signals (s : RelayServer) (username : List UInt8) (now : UInt32) : Option UInt32 :=
  match s.bindings username with
  | none => none
  | some b => if b.lastUsed + b.lifetime ≤ now ∧ b.disposing = false then some b.lastUsed else none

def step (w : Watched) (input : Input) : Watched where
  server := w.server.next input
  granted :=
    match input with
    | .packet ap bytes _ =>
        match w.server.allocates ap bytes with
        | none => w.granted
        | some (username, request) =>
            Function.update w.granted username (exactLifetime request)
    | _ => w.granted
  expired :=
    match input with
    | .timer username now =>
        match signals w.server username now with
        | none => w.expired
        | some used => Function.update w.expired username used
    | _ => w.expired

/-- A binding has the lifetime that was asked for, it is signalled only when that has passed since
its last use, and it is destroyed only when it was not used since it was signalled. -/
def OutlivesUse (w : Watched) (input : Input) : Prop :=
  (∀ username b, (w.step input).server.bindings username = some b →
    b.lifetime.toNat = (w.step input).granted username) ∧
  match input with
  | .packet _ _ _ => True
  | .timer username now => ∀ b, w.server.bindings username = some b → b.disposing = false →
      (∃ b', (w.step input).server.bindings username = some b' ∧ b'.disposing = true) →
      b.lifetime ≤ now - b.lastUsed
  | .dispose username => ∀ b, w.server.bindings username = some b →
      (w.step input).server.bindings username = none → b.lastUsed = w.expired username

/-- Neither product nor deadline wraps, and no packet is for a binding that is signalled. -/
def Unwrapped (w : Watched) (input : Input) : Prop :=
  match input with
  | .packet ap bytes _ =>
      (∀ username request, w.server.allocates ap bytes = some (username, request) →
        ¬WrapsShort request) ∧
      ∀ username b, w.server.addressee ap bytes = some username →
        w.server.bindings username = some b → b.disposing = false
  | .timer username now => ∀ b, w.server.bindings username = some b → ¬WrapsEarly b now
  | .dispose _ => True

/-- What is true of every binding of a run without wraps. -/
def Kept (w : Watched) : Prop :=
  ∀ username b, w.server.bindings username = some b →
    b.lifetime.toNat = w.granted username ∧ (b.disposing = true → b.lastUsed = w.expired username)

theorem Kept.packet {w : Watched} (kept : w.Kept) {ap : AddressPair} {bytes : List UInt8}
    {now : UInt32} (unwrapped : w.Unwrapped (.packet ap bytes now)) :
    (w.step (.packet ap bytes now)).Kept := by
  obtain ⟨exact, calm⟩ := unwrapped
  have handled := w.server.next_packet ap bytes now
  intro username b' after
  have after : (w.server.next (.packet ap bytes now)).bindings username = some b' := after
  cases isFor : w.server.addressee ap bytes with
  | none =>
    simp only [isFor] at handled
    have none : w.server.allocates ap bytes = none := by
      cases makes : w.server.allocates ap bytes with
      | none => rfl
      | some made => exact nomatch (addressee_of_allocates makes).symm.trans isFor
    rw [handled] at after
    have same : (w.step (.packet ap bytes now)).granted = w.granted := by
      simp only [step, none]
    rw [same]
    exact kept username b' after
  | some used =>
    simp only [isFor] at handled
    cases makes : w.server.allocates ap bytes with
    | none =>
      have same : (w.step (.packet ap bytes now)).granted = w.granted := by
        simp only [step, makes]
      have founded : w.server.founded ap bytes now = w.server := by
        unfold RelayServer.founded
        rw [makes]
      rw [founded] at handled
      rw [same]
      by_cases isUsed : username = used
      · subst isUsed
        have terms := handled.terms
        rw [after, Option.map_some] at terms
        obtain ⟨b, before, terms⟩ := Option.map_eq_some_iff.mp terms.symm
        have idle := calm username b isFor before
        refine ⟨(congrArg (·.1.toNat) terms).symm.trans (kept username b before).1, fun disposing => ?_⟩
        have same : b.disposing = b'.disposing := congrArg Prod.snd terms
        exact nomatch (disposing.symm.trans same.symm).trans idle
      · rw [handled.others username isUsed] at after
        exact kept username b' after
    | some made =>
      obtain ⟨made, request⟩ := made
      obtain rfl : made = used :=
        Option.some.inj ((addressee_of_allocates makes).symm.trans isFor)
      have founded : w.server.founded ap bytes now =
          w.server.addBinding made (requestedLifetime request) now := by
        unfold RelayServer.founded
        rw [makes]
      rw [founded] at handled
      have granted : (w.step (.packet ap bytes now)).granted =
          Function.update w.granted made (exactLifetime request) := by
        simp only [step, makes]
      rw [granted]
      by_cases isMade : username = made
      · subst isMade
        have terms := handled.terms
        simp only [addBinding, Function.update_self, Option.map_some, after, Option.some.injEq] at terms
        have lifetime : b'.lifetime = requestedLifetime request := congrArg Prod.fst terms
        have idle : b'.disposing = false := congrArg Prod.snd terms
        rw [Function.update_self, lifetime]
        exact ⟨(requestedLifetime_exact_iff request).mpr (exact username request makes),
          fun disposing => nomatch disposing.symm.trans idle⟩
      · rw [handled.others username isMade] at after
        simp only [addBinding, Function.update_of_ne isMade] at after
        rw [Function.update_of_ne isMade]
        exact kept username b' after

theorem Kept.timer {w : Watched} (kept : w.Kept) (username : List UInt8) (now : UInt32) :
    (w.step (.timer username now)).Kept := by
  intro other b' after
  have after : (w.server.onTimer username now).bindings other = some b' := after
  unfold onTimer at after
  rw [bindings_modifyBinding] at after
  split at after
  · next same =>
    subst same
    obtain ⟨b, before, isB'⟩ := Option.map_eq_some_iff.mp after
    obtain ⟨lifetime, expired⟩ := kept other b before
    have marks : (w.step (.timer other now)).expired =
        if b.lastUsed + b.lifetime ≤ now ∧ b.disposing = false then
          Function.update w.expired other b.lastUsed
        else w.expired := by
      by_cases due : b.lastUsed + b.lifetime ≤ now ∧ b.disposing = false
      · simp only [step, signals, before, if_pos due]
      · simp only [step, signals, before, if_neg due]
    rw [marks]
    split at isB'
    · next due =>
      subst isB'
      refine ⟨lifetime, fun _ => ?_⟩
      cases state : b.disposing with
      | false => simp [due]
      | true => simpa using expired state
    · next early =>
      subst isB'
      rw [if_neg fun due => early due.1]
      exact ⟨lifetime, expired⟩
  · next ne =>
    obtain ⟨lifetime, expired⟩ := kept other b' after
    refine ⟨lifetime, fun disposing => (expired disposing).trans ?_⟩
    have marks : (w.step (.timer username now)).expired other = w.expired other := by
      cases due : signals w.server username now with
      | none => simp only [step, due]
      | some used => simp only [step, due, Function.update_of_ne ne]
    exact marks.symm

theorem Kept.dispose {w : Watched} (kept : w.Kept) (username : List UInt8) :
    (w.step (.dispose username)).Kept := by
  intro other b' after
  have after : (w.server.onDispose username).bindings other = some b' := after
  unfold onDispose at after
  split at after
  · exact kept other b' after
  · split at after
    · rw [bindings_destroyBinding] at after
      split at after
      · exact nomatch after
      · exact kept other b' after
    · exact kept other b' after

theorem Kept.step {w : Watched} (kept : w.Kept) {input : Input} (unwrapped : w.Unwrapped input) :
    (w.step input).Kept := by
  cases input with
  | packet ap bytes now => exact kept.packet unwrapped
  | timer username now => exact kept.timer username now
  | dispose username => exact kept.dispose username

theorem outlivesUse_of_unwrapped {w : Watched} (kept : w.Kept) {input : Input}
    (unwrapped : w.Unwrapped input) : w.OutlivesUse input := by
  refine ⟨fun username b bound => (kept.step unwrapped username b bound).1, ?_⟩
  cases input with
  | packet ap bytes now => trivial
  | timer username now =>
    intro b bound idle ⟨b', after, disposing⟩
    refine (deadline_iff b now).mpr (unwrapped b bound) ?_
    have after : (w.server.onTimer username now).bindings username = some b' := after
    unfold onTimer at after
    rw [bindings_modifyBinding, if_pos rfl, bound, Option.map_some, Option.some.injEq] at after
    split at after
    · next due => exact due
    · exact nomatch (after ▸ disposing).symm.trans idle
  | dispose username =>
    intro b bound destroyed
    refine (kept username b bound).2 ?_
    have destroyed : (w.server.onDispose username).bindings username = none := destroyed
    unfold onDispose at destroyed
    rw [bound] at destroyed
    simp only at destroyed
    split at destroyed
    · next disposing => exact disposing
    · exact nomatch bound.symm.trans destroyed

/-- The lifetime granted is the exact one if and only if the product does not wrap to less than the
longest lifetime, and a timeout is signalled only after the lifetime if and only if the deadline
has not wrapped ahead of the clock. In every run in which neither happens, and no packet
comes for a binding that is signalled, bindings live as long as they were granted after each use. -/
theorem bindings_outlive_use (externalSocket : SocketAddress) (inputs : List Input) :
    (∀ request, (requestedLifetime request).toNat = exactLifetime request ↔ ¬WrapsShort request) ∧
    (∀ (b : RelayServerBinding) now,
      (b.lastUsed + b.lifetime ≤ now → b.lifetime ≤ now - b.lastUsed) ↔ ¬WrapsEarly b now) ∧
    (Along step Unwrapped (new externalSocket) inputs →
      Along step OutlivesUse (new externalSocket) inputs) := by
  refine ⟨requestedLifetime_exact_iff, deadline_iff, fun unwrapped => ?_⟩
  have start : (new externalSocket).Kept := nofun
  exact unwrapped.of_invariant (fun _ _ unwrapped kept => kept.step unwrapped)
    (fun _ _ unwrapped kept => outlivesUse_of_unwrapped kept unwrapped) start

/-- An ALLOCATE request that asks for a lifetime in seconds. -/
def requestFor (seconds : UInt32) : Message :=
  (allocateRequest sampleId [0x41]).addAttribute (.uint32 AttributeType.lifetime seconds)

def allocateFor (seconds : UInt32) : Input :=
  .packet ⟨sampleAddress 2, ⟨.v4 1, 3478⟩⟩ (requestFor seconds).write 0

theorem bindings_outlive_use_two_seconds :
    Along step OutlivesUse (new ⟨.v4 1, 3479⟩)
      [allocateFor 2, .timer [0x41] 2000, .dispose [0x41]] := by
  refine (bindings_outlive_use ⟨.v4 1, 3479⟩ _).2.2 ⟨⟨?_, ?_⟩, ?_, trivial, trivial⟩
  · intro username request makes
    have made : (new ⟨.v4 1, 3479⟩).server.allocates ⟨sampleAddress 2, ⟨.v4 1, 3478⟩⟩
        (requestFor 2).write = some ([0x41], requestFor 2) := by decide +kernel
    obtain rfl : requestFor 2 = request := congrArg Prod.snd (Option.some.inj (made.symm.trans makes))
    exact (requestedLifetime_exact_iff _).mp (by decide +kernel)
  · exact fun username b _ bound => nomatch bound
  · intro b bound
    have made : ((new ⟨.v4 1, 3479⟩).step (allocateFor 2)).server.bindings [0x41] =
        some ⟨2000, 0, [0], [], false⟩ := by decide +kernel
    obtain rfl := Option.some.inj (made.symm.trans bound)
    exact (deadline_iff _ _).mp (by decide)

/-- A client that asks for 4294968 seconds is given 704 milliseconds. -/
theorem long_lifetime_wraps :
    ¬Along step OutlivesUse (new ⟨.v4 1, 3479⟩) [allocateFor 4294968] := by
  rintro ⟨⟨lifetimes, -⟩, -⟩
  have given := lifetimes [0x41] ⟨704, 0, [0], [], false⟩ (by decide +kernel)
  revert given
  decide +kernel

end Watched

end RelayServer

end Libjingle.Relay
