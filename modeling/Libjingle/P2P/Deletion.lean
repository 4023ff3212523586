import Libjingle.P2P.StateTimeouts

/-!
# When a connection is destroyed

`MSG_DELETE` is posted when both states of a connection have timed out, and it is never taken back:
the connection that it finds is destroyed, whatever its states have become. Every destroyed
connection was dead when the message was posted, and still is unless a ping or the response to one
came in between.
-/

namespace Libjingle.P2P

open Libjingle.Std

variable {ρ : Type}

namespace Connection

/-- What is called on a connection between the deliveries of `MSG_DELETE`. -/
inductive Change where
  | receivedPing (now : UInt32)
  | packet (packet : Packet) (now : UInt32)
  | updateState (now : UInt32)
  | prune
  | destroy
  | ping (request : Nat) (now : UInt32)
  | requestMessage (request : Nat) (now : UInt32)
  | connected
  | closed

def apply (c : Connection ρ) : Change → Connection ρ
  | .receivedPing now => c.receivedPing now
  | .packet packet now => c.onReadPacket packet now
  | .updateState now => c.updateState now
  | .prune => c.prune
  | .destroy => c.destroy
  | .ping request now => c.ping request now
  | .requestMessage request now => c.onRequestMessage request now
  | .connected => c.onConnect
  | .closed => c.onClose

/-- Both states have timed out. -/
structure Dead (c : Connection ρ) : Prop where
  read : c.readState = .readTimeout
  write : c.writeState = .writeTimeout

/-- A ping is received, or the response to one. -/
def Change.Revives : Change → Prop
  | .receivedPing _ => True
  | .packet .bindingRequest _ => True
  | .packet (.bindingResponse _) _ => True
  | _ => False

/-! ## One change -/

/-- The message is posted of a connection that has died. -/
def Posts (c c' : Connection ρ) : Prop :=
  c'.deletes = c.deletes ∨ c'.Dead

/-- The message is posted of a connection that has died, and a dead connection is not revived. -/
structure Wanes (c c' : Connection ρ) : Prop where
  posts : Posts c c'
  dead : c.Dead → c'.Dead

namespace Wanes

variable {c c' c'' : Connection ρ}

theorem refl (c : Connection ρ) : Wanes c c :=
  ⟨.inl rfl, fun dead => dead⟩

theorem of_same (deletes : c'.deletes = c.deletes) (readState : c'.readState = c.readState)
    (writeState : c'.writeState = c.writeState) : Wanes c c' where
  posts := .inl deletes
  dead dead := ⟨readState.trans dead.read, writeState.trans dead.write⟩

/-- What a connection that has died goes through later does not revive it. -/
theorem posts_trans (first : Posts c c') (second : Wanes c' c'') : Posts c c'' := by
  rcases first with same | died
  · exact second.posts.imp_left fun unchanged => unchanged.trans same
  · exact .inr (second.dead died)

theorem trans (first : Wanes c c') (second : Wanes c' c'') : Wanes c c'' where
  posts := posts_trans first.posts second
  dead dead := second.dead (first.dead dead)

theorem ite {p : Prop} [Decidable p] (wanes : p → Wanes c c') : Wanes c (if p then c' else c) := by
  split
  · next holds => exact wanes holds
  · exact .refl c

end Wanes

theorem posts_checkTimeout (c : Connection ρ) : Posts c c.checkTimeout := by
  unfold checkTimeout
  split
  · next timedOut => exact .inr ⟨timedOut.1, timedOut.2⟩
  · exact .inl rfl

theorem posts_setReadState (c : Connection ρ) (value : ReadState) :
    Posts c (c.setReadState value) := by
  unfold setReadState
  split
  · exact posts_checkTimeout { c with readState := value, signalled := true }
  · exact .inl rfl

theorem posts_setWriteState (c : Connection ρ) (value : WriteState) :
    Posts c (c.setWriteState value) := by
  unfold setWriteState
  split
  · exact posts_checkTimeout { c with writeState := value, signalled := true }
  · exact .inl rfl

theorem wanes_setReadState (c : Connection ρ) : Wanes c (c.setReadState .readTimeout) where
  posts := posts_setReadState c _
  dead dead := ⟨setReadState_readState c _, (setReadState_writeState c _).trans dead.write⟩

theorem wanes_setWriteState (c : Connection ρ) : Wanes c (c.setWriteState .writeTimeout) where
  posts := posts_setWriteState c _
  dead dead := ⟨(setWriteState_readState c _).trans dead.read, setWriteState_writeState c _⟩

/-- What happens to a connection that is not dead revives none. -/
theorem wanes_of_alive {c c' : Connection ρ} (posts : Posts c c') (alive : ¬ c.Dead) : Wanes c c' :=
  ⟨posts, fun dead => absurd dead alive⟩

theorem wanes_updateState (c : Connection ρ) (now : UInt32) : Wanes c (c.updateState now) := by
  unfold updateState
  refine .trans (.ite fun _ => wanes_setReadState c) (.trans (.ite fun unwritable => ?_) (.ite fun _ =>
    wanes_setWriteState _))
  exact wanes_of_alive (posts_setWriteState _ _) fun dead => nomatch unwritable.1.symm.trans dead.write

theorem wanes_prune (c : Connection ρ) : Wanes c c.prune := by
  unfold prune
  split
  · exact .refl c
  · have cleared : Wanes c { c with pruned := true, requests := [] } := .of_same rfl rfl rfl
    exact cleared.trans (wanes_setWriteState _)

theorem wanes_onClose (c : Connection ρ) : Wanes c c.onClose := by
  have disconnected : Wanes c { c with connected := false } := .of_same rfl rfl rfl
  exact disconnected.trans (wanes_setWriteState _)

theorem wanes_onRequestMessage (c : Connection ρ) (request : Nat) (now : UInt32) :
    Wanes c (c.onRequestMessage request now) := by
  unfold onRequestMessage
  split
  · exact .refl c
  · split <;> exact .of_same rfl rfl rfl

theorem wanes_onConnectionRequestErrorResponse (c : Connection ρ) (errorCode : Option Nat) :
    Wanes c (c.onConnectionRequestErrorResponse errorCode) := by
  unfold onConnectionRequestErrorResponse
  dsimp only
  split
  · exact .refl c
  · split
    · exact .refl c
    · exact wanes_setWriteState c

theorem posts_restart (c : Connection ρ) : Posts c c.restart := by
  unfold restart
  split
  · exact posts_setWriteState c _
  · exact .inl rfl

/-- A readable connection is not dead, so that it may start checks of its writability again. -/
theorem restart_of_readable {c : Connection ρ} (readable : c.readState = .readable) :
    Wanes c c.restart :=
  wanes_of_alive (posts_restart c) fun dead => nomatch readable.symm.trans dead.read

theorem receivedPing_readable (c : Connection ρ) (now : UInt32) :
    (c.receivedPing now).readState = .readable :=
  setReadState_readState _ _

theorem posts_receivedPing (c : Connection ρ) (now : UInt32) : Posts c (c.receivedPing now) :=
  posts_setReadState { c with lastPingReceived := now } .readable

theorem posts_onConnectionRequestResponse (c : Connection ρ) (r : ConnectionRequest) (now : UInt32) :
    Posts c (c.onConnectionRequestResponse r now) := by
  have noted : Wanes (c.setWriteState .writable) (c.onConnectionRequestResponse r now) :=
    .of_same rfl rfl rfl
  exact Wanes.posts_trans (posts_setWriteState c .writable) noted

/-- A packet that is neither a ping nor the response to one. -/
theorem wanes_onReadPacket (c : Connection ρ) {packet : Packet} (now : UInt32)
    (other : ¬ (Change.packet packet now).Revives) : Wanes c (c.onReadPacket packet now) := by
  cases packet with
  | data =>
    have noted : Wanes c { c with lastDataReceived := now } := .of_same rfl rfl rfl
    exact .ite fun readable => noted.trans (restart_of_readable readable)
  | handled | foreign => exact .refl c
  | bindingRequest => exact absurd trivial other
  | bindingResponse request => exact absurd trivial other
  | bindingErrorResponse request errorCode =>
    simp only [onReadPacket]
    split
    · exact .refl c
    · have removed : Wanes (c.onConnectionRequestErrorResponse errorCode)
          ((c.onConnectionRequestErrorResponse errorCode).removeRequest request) :=
        .of_same rfl rfl rfl
      exact (wanes_onConnectionRequestErrorResponse c errorCode).trans removed

theorem wanes_apply (c : Connection ρ) {change : Change} (other : ¬ change.Revives) :
    Wanes c (c.apply change) := by
  cases change with
  | receivedPing now => exact absurd trivial other
  | packet packet now => exact wanes_onReadPacket c now other
  | updateState now => exact wanes_updateState c now
  | prune => exact wanes_prune c
  | destroy => exact (wanes_setReadState c).trans (wanes_setWriteState _)
  | ping request now => exact .of_same rfl rfl rfl
  | requestMessage request now => exact wanes_onRequestMessage c request now
  | connected => exact .of_same rfl rfl rfl
  | closed => exact wanes_onClose c

/-- A ping or a response that comes in does not post the message of a connection that it revives. -/
theorem posts_apply (c : Connection ρ) (change : Change) : Posts c (c.apply change) := by
  by_cases revives : change.Revives
  · unfold Change.Revives at revives
    split at revives
    · next now => exact posts_receivedPing c now
    · next now =>
      exact Wanes.posts_trans (posts_receivedPing c now)
        (restart_of_readable (receivedPing_readable c now))
    · next request now =>
      simp only [apply, onReadPacket]
      split
      · exact .inl rfl
      · next r found =>
        have removed : Wanes (c.onConnectionRequestResponse r now)
            ((c.onConnectionRequestResponse r now).removeRequest request) := .of_same rfl rfl rfl
        exact Wanes.posts_trans (posts_onConnectionRequestResponse c r now) removed
    · exact revives.elim
  · exact (wanes_apply c revives).posts

end Connection

/-! ## The life of a connection -/

inductive Life (ρ : Type) where
  | alive (c : Connection ρ)
  | destroyed

namespace Life

open Connection

inductive Event where
  | call (change : Change)
  /-- `OnMessage`, of a message that was posted. -/
  | delete

def Event.Revives : Event → Prop
  | .call change => change.Revives
  | .delete => False

def step : Life ρ → Event → Life ρ
  | .alive c, .call change => .alive (c.apply change)
  | .alive c, .delete => if c.deletes = 0 then .alive c else .destroyed
  | .destroyed, _ => .destroyed

variable {start c c' : Connection ρ} {past : List Event} {event : Event}

/-- After some events, a change posts the first message of a connection, which is dead then. -/
def PostedFirst (start : Connection ρ) (earlier : List Event) (change : Change) : Prop :=
  ∃ c : Connection ρ, runInputs step (.alive start) earlier = .alive c ∧ c.deletes = 0 ∧
    (c.apply change).deletes ≠ 0 ∧ (c.apply change).Dead

/-- The connection was dead when its first message was posted, and it is unless it was revived. -/
def DeadOrRevived (start : Connection ρ) (past : List Event) (c : Connection ρ) : Prop :=
  ∃ earlier change later, past = earlier ++ .call change :: later ∧
    PostedFirst start earlier change ∧ (c.Dead ∨ ∃ event ∈ later, event.Revives)

/-- The connection that a message finds was dead when the message was posted. -/
theorem deadOrRevived_of_posted (clean : start.deletes = 0)
    (reached : runInputs step (.alive start) past = .alive c) (posted : c.deletes ≠ 0) :
    DeadOrRevived start past c := by
  have invariant := @history_invariant (Life ρ) Event step
    (fun past life => runInputs step (.alive start) past = life ∧
      ∀ c, life = .alive c → c.deletes ≠ 0 → DeadOrRevived start past c)
    (.alive start) ⟨rfl, ?_⟩ ?_ past
  · exact invariant.2 c reached posted
  · rintro c ⟨rfl⟩ posted
    exact absurd clean posted
  · rintro past life event ⟨here, before⟩
    refine ⟨by rw [runInputs_append, here]; rfl, ?_⟩
    rintro c' after posted
    cases life with
    | destroyed => cases after
    | alive c =>
      cases event with
      | delete =>
        simp only [step] at after
        split at after
        · next none =>
          cases after
          exact absurd none posted
        · cases after
      | call change =>
        cases after
        by_cases none : c.deletes = 0
        · -- The first message is posted.
          have died := (posts_apply c change).resolve_left fun same => posted (same.trans none)
          exact ⟨past, change, [], rfl, ⟨c, here, none, posted, died⟩, .inl died⟩
        · obtain ⟨earlier, first, later, rfl, postedFirst, state⟩ := before c rfl none
          refine ⟨earlier, first, later ++ [.call change], by simp, postedFirst, ?_⟩
          rcases state with dead | ⟨event, event_mem, revives⟩
          · by_cases revives : change.Revives
            · exact .inr ⟨.call change, by simp, revives⟩
            · exact .inl ((wanes_apply c revives).dead dead)
          · exact .inr ⟨event, List.mem_append_left _ event_mem, revives⟩

/-- A connection that is destroyed was dead when the message that destroys it was posted, and it
still is unless it was revived since. -/
theorem destroyed_deadOrRevived {id : Nat} {port : Port ρ} {remote : Candidate ρ} {connected : Bool}
    (reached : runInputs step (.alive (.new id port remote connected)) past = .alive c)
    (destroyed : step (.alive c) event = .destroyed) :
    DeadOrRevived (.new id port remote connected) past c := by
  cases event with
  | call change => cases destroyed
  | delete =>
    refine deadOrRevived_of_posted rfl reached fun none => ?_
    simp only [step, if_pos none] at destroyed
    cases destroyed

/-- A ping without a response for more than 15 seconds, at which writability times out, and a ping
of the other side that comes in before the message is delivered. -/
def revived : List Event :=
  [.call (.ping 1 0), .call (.requestMessage 1 0), .call (.updateState 15001),
    .call (.packet .bindingRequest 15002)]

def made : Connection Nat := (Timed.start 0).connection

def afterRevival : Connection Nat :=
  (((made.ping 1 0).onRequestMessage 1 0).updateState 15001).onReadPacket .bindingRequest 15002

theorem destroyed_deadOrRevived_revived : DeadOrRevived made revived afterRevival := by
  have destroyed : step (.alive afterRevival) .delete = .destroyed := rfl
  exact destroyed_deadOrRevived rfl destroyed

/-- A connection that was revived is destroyed. -/
theorem destroyed_revived :
    ¬ ∀ (id : Nat) (port : Port Nat) (remote : Candidate Nat) (connected : Bool) (past : List Event)
      (c : Connection Nat) (event : Event),
      runInputs step (.alive (.new id port remote connected)) past = .alive c →
      step (.alive c) event = .destroyed → c.Dead := by
  intro all
  have dead := all _ _ _ _ revived afterRevival .delete rfl rfl
  exact nomatch dead.read

end Life

end Libjingle.P2P
