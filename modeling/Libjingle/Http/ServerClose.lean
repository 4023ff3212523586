import Libjingle.Http.Server
import Libjingle.Std.Trace

/-!
# Closing the connections of a server

A close that waits for the request in progress is noted in `close_`, which `Respond` overwrites
by what the answer says about the connection. Where this note is not lost, and no connection is
removed under a call that still uses it, every requested close is honoured and every `CloseAll`
is answered once.
-/

namespace Libjingle.Http

open Libjingle.Std CString

/-- The application has the request, or the answer is being sent or was just sent. -/
def Connection.InProgress (c : Connection) : Prop :=
  c.requestInProgress = true ∨ c.signalling = true

namespace HttpServer

/-- A call that is going on still uses the connection. -/
def Used (frames : List Frame) (id : Nat) : Prop :=
  .httpRequestHeader id ∈ frames ∨ ∃ rest force, .closeAll rest force ∈ frames ∧ id ∈ rest

/-- `CloseAll` still comes to the connection. -/
def Pending (frames : List Frame) (id : Nat) : Prop :=
  ∃ rest force, .closeAll rest force ∈ frames ∧ id ∈ rest

/-- What the server owes to those who close its connections. -/
structure Honoured (s : HttpServer) (input : ServerInput) : Prop where
  intact : (s.step input).broken = false
  /-- A connection whose close was requested lives only for the request in progress. -/
  removed : ∀ id c, (s.step input).connections.get id = some c →
    (s.step input).requested id = true → c.InProgress
  /-- `CloseAll` requests the close of every connection. -/
  swept : ∀ id c, (s.step input).connections.get id = some c → id < (s.step input).swept →
    (s.step input).requested id = true ∨ Pending (s.step input).stack id
  refused : ∀ transaction,
    (s.input input).2 = some (.httpRequest transaction) ∨
      (s.input input).2 = some (.httpRequestHeader transaction) →
    s.requested transaction.connectionId = false
  once : ∀ id, (s.step input).closed id =
    if 0 < id ∧ id < (s.step input).nextConnectionId ∧ (s.step input).connections.get id = none
    then 1 else 0
  complete : (s.input input).2 = some .closeAllComplete →
    (s.awaited = true ∨ ∃ force, input = .closeAll force) ∧
      (s.step input).connections.isEmpty = true ∧ (s.step input).awaited = false
  completed : (s.step input).stack = [] → (s.step input).awaited = true →
    (s.step input).connections.isEmpty = false

/-! ## When it is honoured -/

/-- The connection that the loops of `CloseAll` next on the stack remove, and what is left on
the stack then. -/
def nextRemoval (s : HttpServer) : List Frame → Option (Nat × List Frame)
  | .closeAll rest force :: frames =>
      match rest.dropWhile fun id => !(s.connections.get id).any (·.closesNow force) with
      | id :: rest => some (id, .closeAll rest force :: frames)
      | [] => s.nextRemoval frames
  | _ => none

/-- The connection that is removed when the handlers of the last signal return. -/
def removalOnReturn (s : HttpServer) : Option (Nat × List Frame) :=
  match s.stack with
  | .connectionClosed _ :: frames =>
      if s.closing && s.connections.isEmpty then none else s.nextRemoval frames
  | .httpRequestComplete id err :: frames =>
      match s.connections.get id with
      | none => none
      | some c =>
          if c.close || err ≠ .none || !c.isConnected then some (id, frames)
          else
            -- It receives again, and a loop of `CloseAll` may come to it.
            (s.set id { c with mode := .recv, signalling := false }).nextRemoval frames
  | .httpRequestHeader _ :: frames => s.nextRemoval frames
  | .httpRequest :: frames => s.nextRemoval frames
  | .closeAllComplete :: frames => s.nextRemoval frames
  | _ => none

/-- The connection that an input removes, and what is left on the stack then. -/
def removal (s : HttpServer) : ServerInput → Option (Nat × List Frame)
  | .close id force =>
      if (s.connections.get id).any (·.closesNow force) then some (id, s.stack) else none
  | .closeAll force =>
      if s.connections.isEmpty then none
      else s.nextRemoval (.closeAll s.connections.keys force :: s.stack)
  | .respond transaction =>
      if s.held transaction.connectionId &&
          (s.connections.get transaction.connectionId).any (!·.isConnected) then
        some (transaction.connectionId, s.stack)
      else none
  | .complete id err =>
      if !s.parsing id && (s.connections.get id).any fun c =>
          c.mode = .recv && err ≠ .none ||
          c.mode = .connect && (err ≠ .none || !c.isConnected) then
        some (id, s.stack)
      else none
  | .streamClosed id =>
      if (s.connections.get id).any fun c => c.mode = .none && c.current.isNone then
        some (id, s.stack)
      else none
  | .returned => s.removalOnReturn
  | _ => none

/-- Where the note of a requested close counts, it was not lost. -/
def Noted (s : HttpServer) : ServerInput → Prop
  | .returned =>
      match s.stack with
      | .httpRequestComplete id .none :: _ =>
          ∀ c ∈ s.connections.get id, c.isConnected = true → s.requested id = true → c.close = true
      | _ => True
  | _ => True

/-- `CloseAll` is not called where the last connection is just signaled as closed, and the
`CloseAll` before it waits for that. -/
def InTurn (s : HttpServer) : ServerInput → Prop
  | .closeAll _ => s.connections.isEmpty = true → s.closing = false
  | _ => True

structure Orderly (s : HttpServer) (input : ServerInput) : Prop where
  noted : s.Noted input
  spared : ∀ removed ∈ s.removal input, ¬ Used removed.2 removed.1
  inTurn : s.InTurn input

/-- The loop of `CloseAll` still comes to the connection. -/
def pends (id : Nat) : Frame → Bool
  | .closeAll rest _ => id ∈ rest
  | _ => false

theorem pending_iff (frames : List Frame) (id : Nat) :
    (∃ frame ∈ frames, pends id frame = true) ↔ Pending frames id := by
  constructor
  · rintro ⟨frame, listed, awaits⟩
    cases frame <;> simp only [pends, Bool.false_eq_true, decide_eq_true_eq] at awaits
    exact ⟨_, _, listed, awaits⟩
  · rintro ⟨rest, force, listed, inRest⟩
    exact ⟨_, listed, by simpa [pends] using inRest⟩

instance (frames : List Frame) (id : Nat) : Decidable (Used frames id) :=
  have : Decidable (∃ rest force, .closeAll rest force ∈ frames ∧ id ∈ rest) :=
    decidable_of_iff _ (pending_iff frames id)
  inferInstanceAs (Decidable (_ ∨ _))

instance (s : HttpServer) : (input : ServerInput) → Decidable (s.Noted input)
  | .returned => by
      unfold Noted
      dsimp only
      split <;> infer_instance
  | .handleConnection _ | .respond _ | .close _ _ | .closeAll _ | .streamState _ _
  | .headerComplete _ _ _ | .complete _ _ | .streamClosed _ => .isTrue trivial

instance (s : HttpServer) : (input : ServerInput) → Decidable (s.InTurn input)
  | .closeAll _ => inferInstanceAs (Decidable (_ → _))
  | .returned | .handleConnection _ | .respond _ | .close _ _ | .streamState _ _
  | .headerComplete _ _ _ | .complete _ _ | .streamClosed _ => .isTrue trivial

instance (s : HttpServer) (input : ServerInput) : Decidable (s.Orderly input) :=
  decidable_of_iff
    (s.Noted input ∧ (∀ removed ∈ s.removal input, ¬ Used removed.2 removed.1) ∧ s.InTurn input)
    ⟨fun ⟨noted, spared, inTurn⟩ => ⟨noted, spared, inTurn⟩,
      fun orderly => ⟨orderly.noted, orderly.spared, orderly.inTurn⟩⟩

/-! ## The invariant -/

/-- The modes of a connection. -/
structure Shape (id : Nat) (c : Connection) : Prop where
  idle : c.mode = .none → c.signalling = true ∨ c.current = none
  sent : c.signalling = true → c.mode = .none ∧ c.current.isSome = true
  busy : c.mode ≠ .none → c.current.isSome = true
  own : ∀ transaction, c.current = some transaction → transaction.connectionId = id

/-- What a call that is going on relies on. -/
def FrameOk (s : HttpServer) : Frame → Prop
  | .httpRequestHeader id => ∃ c, s.connections.get id = some c ∧ c.mode = .recv
  | .httpRequestComplete id _ => ∃ c, s.connections.get id = some c ∧ c.signalling = true
  | .closeAll rest _ => ∀ id ∈ rest, (s.connections.get id).isSome = true
  | _ => True

/-- The connection whose answer is signaled as sent. -/
def sentBy : Frame → Option Nat
  | .httpRequestComplete id _ => some id
  | _ => none

structure Inv (s : HttpServer) : Prop where
  intact : s.broken = false
  shape : ∀ id c, s.connections.get id = some c → Shape id c
  inProgress : ∀ id c, s.connections.get id = some c → s.requested id = true → c.InProgress
  held : ∀ id c, s.connections.get id = some c → s.held id = true → c.current = none
  frames : ∀ frame ∈ s.stack, s.FrameOk frame
  sent : (s.stack.filterMap sentBy).Nodup
  rests : ∀ rest force, .closeAll rest force ∈ s.stack → rest.Nodup
  numbers : ∀ id c, s.connections.get id = some c → 0 < id ∧ id < s.nextConnectionId
  next : 0 < s.nextConnectionId
  fresh : ∀ id, s.nextConnectionId ≤ id → s.requested id = false ∧ s.held id = false
  once : ∀ id, s.closed id =
    if 0 < id ∧ id < s.nextConnectionId ∧ s.connections.get id = none then 1 else 0
  swept : ∀ id c, s.connections.get id = some c → id < s.swept →
    s.requested id = true ∨ Pending s.stack id
  sweptBelow : s.swept ≤ s.nextConnectionId
  awaited : s.awaited = s.closing
  completed : s.closing = true → s.connections.isEmpty = false ∨ ∃ id, .connectionClosed id ∈ s.stack

theorem Inv.new : HttpServer.new.Inv where
  intact := rfl
  shape := by simp [HttpServer.new]
  inProgress := by simp [HttpServer.new]
  held := by simp [HttpServer.new]
  frames := by simp [HttpServer.new]
  sent := .nil
  rests := by simp [HttpServer.new]
  numbers := by simp [HttpServer.new]
  next := by simp [HttpServer.new]
  fresh := by simp [HttpServer.new]
  once := by
    intro id
    rw [if_neg]
    · rfl
    · simp only [HttpServer.new]
      omega
  swept := by simp [HttpServer.new]
  sweptBelow := by simp [HttpServer.new]
  awaited := rfl
  completed := by simp [HttpServer.new]

variable {s : HttpServer} {id : Nat} {c : Connection} {frames : List Frame}

theorem get_set (s : HttpServer) (id other : Nat) (c : Connection) :
    (s.set id c).connections.get other = if other = id then some c else s.connections.get other :=
  s.connections.get_insert id other c

/-- A server with connections has a first one. -/
theorem isEmpty_of_get (s : HttpServer) (id : Nat) (present : s.connections.get id = some c) :
    s.connections.isEmpty = false := by
  cases empty : s.connections.isEmpty with
  | false => rfl
  | true =>
    rw [OrderedMap.get_of_isEmpty empty] at present
    cases present

/-- One connection changes. -/
theorem Inv.set {old : Connection} (inv : s.Inv) (present : s.connections.get id = some old)
    (shape : Shape id c) (inProgress : s.requested id = true → c.InProgress)
    (held : s.held id = true → c.current = none)
    (reading : .httpRequestHeader id ∈ s.stack → c.mode = .recv)
    (signalling : ∀ err, .httpRequestComplete id err ∈ s.stack → c.signalling = true) :
    (s.set id c).Inv where
  intact := inv.intact
  shape := by
    intro other found
    rw [get_set]
    split
    · next same =>
      rintro ⟨⟩
      exact same ▸ shape
    · exact inv.shape other found
  inProgress := by
    intro other found
    rw [get_set]
    split
    · next same =>
      rintro ⟨⟩
      exact fun requested => inProgress (same ▸ requested)
    · exact inv.inProgress other found
  held := by
    intro other found
    rw [get_set]
    split
    · next same =>
      rintro ⟨⟩
      exact fun isHeld => held (same ▸ isHeld)
    · exact inv.held other found
  frames := by
    intro frame listed
    have ok := inv.frames frame listed
    cases frame with
    | connectionClosed | httpRequest | closeAllComplete => trivial
    | httpRequestHeader other =>
      obtain ⟨found, here, mode⟩ := ok
      simp only [FrameOk, get_set]
      split
      · next same => exact ⟨c, rfl, reading (same ▸ listed)⟩
      · exact ⟨found, here, mode⟩
    | httpRequestComplete other err =>
      obtain ⟨found, here, signals⟩ := ok
      simp only [FrameOk, get_set]
      split
      · next same => exact ⟨c, rfl, signalling err (same ▸ listed)⟩
      · exact ⟨found, here, signals⟩
    | closeAll rest force =>
      intro other listed
      rw [get_set]
      split
      · rfl
      · exact ok other listed
  sent := inv.sent
  rests := inv.rests
  numbers := by
    intro other found
    rw [get_set]
    split
    · next same =>
      rintro ⟨⟩
      exact same ▸ inv.numbers id old present
    · exact inv.numbers other found
  next := inv.next
  fresh := inv.fresh
  once := by
    intro other
    rw [get_set]
    have before := inv.once other
    split
    · next same =>
      rw [same, present] at before
      rw [same, if_neg (by simp)]
      exact before.trans (if_neg (by simp))
    · exact before
  swept := by
    intro other found
    rw [get_set]
    split
    · next same =>
      rintro ⟨⟩
      exact same ▸ inv.swept id old present
    · exact inv.swept other found
  sweptBelow := inv.sweptBelow
  awaited := inv.awaited
  completed := by
    intro closing
    exact .inl (isEmpty_of_get (s.set id c) id (c := c) (by rw [get_set, if_pos rfl]))

/-- A close is requested of a connection with a request in progress, or that is gone. -/
theorem Inv.request (inv : s.Inv) (number : id < s.nextConnectionId)
    (inProgress : ∀ c, s.connections.get id = some c → c.InProgress) : (s.request id).Inv where
  intact := inv.intact
  shape := inv.shape
  inProgress := by
    intro other found here requested
    by_cases same : other = id
    · exact inProgress found (same ▸ here)
    · exact inv.inProgress other found here (by
        simpa [HttpServer.request, Function.update_of_ne same] using requested)
  held := inv.held
  frames := inv.frames
  sent := inv.sent
  rests := inv.rests
  numbers := inv.numbers
  next := inv.next
  fresh := by
    intro other above
    have differs : other ≠ id := by
      rintro rfl
      exact absurd number (Nat.not_lt.mpr above)
    refine ⟨?_, (inv.fresh other above).2⟩
    simp only [HttpServer.request, Function.update_of_ne differs]
    exact (inv.fresh other above).1
  once := inv.once
  swept := by
    intro other found here below
    rcases inv.swept other found here below with requested | pending
    · left
      simp only [HttpServer.request, Function.update_apply, requested]
      split <;> rfl
    · exact .inr pending
  sweptBelow := inv.sweptBelow
  awaited := inv.awaited
  completed := inv.completed

/-- A connection is removed, and what is left on the stack does not use it. -/
theorem Inv.removeLeaving {l : List Frame} (inv : s.Inv) (present : s.connections.get id = some c)
    (silent : c.signalling = false) (spared : ¬ Used l id)
    (frames : ∀ frame ∈ l, s.FrameOk frame) (sent : (l.filterMap sentBy).Nodup)
    (rests : ∀ rest force, .closeAll rest force ∈ l → rest.Nodup)
    (pending : ∀ other, other ≠ id → Pending s.stack other → Pending l other) :
    (HttpServer.remove { s with stack := l } id).1.Inv where
  intact := inv.intact
  shape := by
    intro other found
    simp only [HttpServer.remove, OrderedMap.get_erase]
    split
    · rintro ⟨⟩
    · exact inv.shape other found
  inProgress := by
    intro other found
    simp only [HttpServer.remove, OrderedMap.get_erase]
    split
    · rintro ⟨⟩
    · exact inv.inProgress other found
  held := by
    intro other found
    simp only [HttpServer.remove, OrderedMap.get_erase]
    split
    · rintro ⟨⟩
    · exact inv.held other found
  frames := by
    intro frame listed
    rcases List.mem_cons.mp listed with rfl | older
    · trivial
    have ok := frames frame older
    cases frame with
    | connectionClosed | httpRequest | closeAllComplete => trivial
    | httpRequestHeader other =>
      have differs : other ≠ id := by
        rintro rfl
        exact spared (.inl older)
      simpa only [FrameOk, HttpServer.remove, OrderedMap.get_erase, if_neg differs] using ok
    | httpRequestComplete other err =>
      have differs : other ≠ id := by
        rintro rfl
        obtain ⟨found, here, signals⟩ := ok
        rw [show found = c from Option.some.inj (here.symm.trans present), silent] at signals
        cases signals
      simpa only [FrameOk, HttpServer.remove, OrderedMap.get_erase, if_neg differs] using ok
    | closeAll rest force =>
      intro other inRest
      have differs : other ≠ id := by
        rintro rfl
        exact spared (.inr ⟨rest, force, older, inRest⟩)
      simpa only [HttpServer.remove, OrderedMap.get_erase, if_neg differs] using ok other inRest
  sent := sent
  rests := by
    intro rest force listed
    rcases List.mem_cons.mp listed with same | older
    · cases same
    · exact rests rest force older
  numbers := by
    intro other found
    simp only [HttpServer.remove, OrderedMap.get_erase]
    split
    · rintro ⟨⟩
    · exact inv.numbers other found
  next := inv.next
  fresh := inv.fresh
  once := by
    intro other
    simp only [HttpServer.remove, OrderedMap.get_erase, Function.update_apply]
    by_cases same : other = id
    · subst same
      have before := inv.once other
      rw [present] at before
      obtain ⟨low, high⟩ := inv.numbers other c present
      rw [if_pos rfl, if_pos rfl, if_pos ⟨low, high, rfl⟩, before]
      simp
    · rw [if_neg same, if_neg same]
      exact inv.once other
  swept := by
    intro other found
    simp only [HttpServer.remove, OrderedMap.get_erase]
    split
    · rintro ⟨⟩
    · next differs =>
      intro here below
      rcases inv.swept other found here below with requested | awaits
      · exact .inl requested
      · obtain ⟨rest, force, older, inRest⟩ := pending other differs awaits
        exact .inr ⟨rest, force, List.mem_cons_of_mem _ older, inRest⟩
  sweptBelow := inv.sweptBelow
  awaited := inv.awaited
  completed := fun _ => .inr ⟨id, List.mem_cons_self⟩

/-- A connection that no call uses is removed. -/
theorem Inv.remove (inv : s.Inv) (present : s.connections.get id = some c)
    (silent : c.signalling = false) (spared : ¬ Used s.stack id) : (s.remove id).1.Inv :=
  inv.removeLeaving present silent spared inv.frames inv.sent inv.rests fun _ _ awaits => awaits

/-- The handlers of a signal begin. -/
theorem Inv.push {frame : Frame} (inv : s.Inv) (ok : s.FrameOk frame)
    (sent : ∀ id, sentBy frame = some id → id ∉ s.stack.filterMap sentBy)
    (rests : ∀ rest force, frame = .closeAll rest force → rest.Nodup) : (s.push frame).Inv where
  intact := inv.intact
  shape := inv.shape
  inProgress := inv.inProgress
  held := inv.held
  frames := by
    intro other listed
    rcases List.mem_cons.mp listed with rfl | older
    · exact ok
    · exact inv.frames other older
  sent := by
    simp only [HttpServer.push]
    cases by_frame : sentBy frame with
    | none =>
      rw [List.filterMap_cons_none by_frame]
      exact inv.sent
    | some id =>
      rw [List.filterMap_cons_some by_frame]
      exact List.nodup_cons.mpr ⟨sent id by_frame, inv.sent⟩
  rests := by
    intro rest force listed
    rcases List.mem_cons.mp listed with same | older
    · exact rests rest force same.symm
    · exact inv.rests rest force older
  numbers := inv.numbers
  next := inv.next
  fresh := inv.fresh
  once := inv.once
  swept := by
    intro id found here below
    rcases inv.swept id found here below with requested | ⟨rest, force, listed, inRest⟩
    · exact .inl requested
    · exact .inr ⟨rest, force, List.mem_cons_of_mem _ listed, inRest⟩
  sweptBelow := inv.sweptBelow
  awaited := inv.awaited
  completed := by
    intro closing
    rcases inv.completed closing with some | ⟨id, listed⟩
    · exact .inl some
    · exact .inr ⟨id, List.mem_cons_of_mem _ listed⟩

/-- The first frame is done with. -/
theorem Inv.pop {frame : Frame} (inv : s.Inv) (stack : s.stack = frame :: frames)
    (swept : ∀ rest force, frame = .closeAll rest force → ∀ id ∈ rest, s.requested id = true)
    (closed : ∀ id, frame = .connectionClosed id → s.closing = true →
      s.connections.isEmpty = false) : Inv { s with stack := frames } where
  intact := inv.intact
  shape := inv.shape
  inProgress := inv.inProgress
  held := inv.held
  frames := fun other listed => inv.frames other (by rw [stack]; exact List.mem_cons_of_mem _ listed)
  sent := by
    have nodup := inv.sent
    rw [stack] at nodup
    exact nodup.sublist ((List.sublist_cons_self frame frames).filterMap sentBy)
  rests := fun rest force listed =>
    inv.rests rest force (by rw [stack]; exact List.mem_cons_of_mem _ listed)
  numbers := inv.numbers
  next := inv.next
  fresh := inv.fresh
  once := inv.once
  swept := by
    intro id found here below
    rcases inv.swept id found here below with requested | ⟨rest, force, listed, inRest⟩
    · exact .inl requested
    · rw [stack] at listed
      rcases List.mem_cons.mp listed with same | listed
      · exact .inl (swept rest force same.symm id inRest)
      · exact .inr ⟨rest, force, listed, inRest⟩
  sweptBelow := inv.sweptBelow
  awaited := inv.awaited
  completed := by
    intro closing
    rcases inv.completed closing with some | ⟨id, listed⟩
    · exact .inl some
    · rw [stack] at listed
      rcases List.mem_cons.mp listed with same | listed
      · exact .inl (closed id same.symm closing)
      · exact .inr ⟨id, listed⟩

/-! ## Loops -/

theorem inProgress_of_stays {force : Bool} (stays : c.closesNow force = false) :
    c.InProgress := by
  unfold Connection.closesNow at stays
  unfold Connection.InProgress
  cases signalling : c.signalling with
  | true => exact .inr rfl
  | false =>
    left
    simp only [signalling, Bool.not_false, Bool.true_and, Bool.or_eq_false_iff,
      Bool.not_eq_false'] at stays
    exact stays.2

/-- A connection that stays notes the wish to close. -/
theorem Inv.note (inv : s.Inv) (present : s.connections.get id = some c) (force : Bool)
    (stays : c.closesNow force = false) : ((s.request id).set id { c with close := true }).Inv := by
  have inProgress := inProgress_of_stays stays
  have requested := inv.request (inv.numbers id c present).2 (fun found here => by
    rw [show found = c from Option.some.inj (here.symm.trans present)]
    exact inProgress)
  have shape := inv.shape id c present
  refine requested.set present ⟨shape.idle, shape.sent, shape.busy, shape.own⟩
    (fun _ => inProgress) (inv.held id c present) (fun listed => ?_) (fun err listed => ?_)
  · obtain ⟨found, here, mode⟩ := inv.frames _ listed
    rwa [show found = c from Option.some.inj (here.symm.trans present)] at mode
  · obtain ⟨found, here, signals⟩ := inv.frames _ listed
    rwa [show found = c from Option.some.inj (here.symm.trans present)] at signals

/-- A loop has gone on behind a connection that knows of it. -/
theorem Inv.visited {rest : List Nat} {force : Bool} (inv : s.Inv)
    (stack : s.stack = .closeAll (id :: rest) force :: frames)
    (requested : s.requested id = true) :
    Inv { s with stack := .closeAll rest force :: frames } := by
  obtain ⟨intact, shape, inProgress, held, frameOk, sent, rests, numbers, next, fresh, once, swept,
    sweptBelow, awaited, completed⟩ := inv
  rw [stack] at frameOk sent rests swept completed
  refine ⟨intact, shape, inProgress, held, ?_, sent, ?_, numbers, next, fresh, once, ?_, sweptBelow,
    awaited, ?_⟩
  · intro frame listed
    rcases List.mem_cons.mp listed with rfl | older
    · exact fun other inRest =>
        frameOk _ List.mem_cons_self other (List.mem_cons_of_mem _ inRest)
    · exact frameOk frame (List.mem_cons_of_mem _ older)
  · intro others kind listed
    rcases List.mem_cons.mp listed with same | older
    · cases same
      exact (List.nodup_cons.mp (rests _ _ List.mem_cons_self)).2
    · exact rests others kind (List.mem_cons_of_mem _ older)
  · intro other found here below
    rcases swept other found here below with known | ⟨others, kind, listed, inRest⟩
    · exact .inl known
    · rcases List.mem_cons.mp listed with same | older
      · cases same
        rcases List.mem_cons.mp inRest with rfl | inRest
        · exact .inl requested
        · exact .inr ⟨rest, force, List.mem_cons_self, inRest⟩
      · exact .inr ⟨others, kind, List.mem_cons_of_mem _ older, inRest⟩
  · intro closing
    rcases completed closing with some | ⟨other, listed⟩
    · exact .inl some
    · rcases List.mem_cons.mp listed with same | older
      · cases same
      · exact .inr ⟨other, List.mem_cons_of_mem _ older⟩

/-- The loops look at nothing but which connections close now. -/
theorem nextRemoval_congr {t : HttpServer}
    (same : ∀ id force, (t.connections.get id).any (·.closesNow force) =
      (s.connections.get id).any (·.closesNow force)) (frames : List Frame) :
    t.nextRemoval frames = s.nextRemoval frames := by
  induction frames with
  | nil => rfl
  | cons frame frames ih =>
    cases frame with
    | closeAll rest force => simp only [nextRemoval, same, ih]
    | connectionClosed | httpRequest | httpRequestComplete | httpRequestHeader | closeAllComplete =>
      rfl

/-- Notes of a wish to close change no loop. -/
theorem nextRemoval_note (present : s.connections.get id = some c) (frames : List Frame) :
    ((s.request id).set id { c with close := true }).nextRemoval frames = s.nextRemoval frames := by
  refine nextRemoval_congr (fun other force => ?_) frames
  rw [get_set]
  split
  · next equal =>
    rw [equal, present]
    rfl
  · rfl

theorem unwind_inv (frames : List Frame) (s : HttpServer) (inv : Inv { s with stack := frames })
    (spared : ∀ id left, s.nextRemoval frames = some (id, left) → ¬ Used left id) :
    (s.unwind frames).1.Inv := by
  induction frames generalizing s with
  | nil =>
    simp only [unwind]
    exact inv
  | cons frame frames ih =>
    cases frame with
    | connectionClosed | httpRequest | httpRequestComplete | httpRequestHeader | closeAllComplete =>
      simp only [unwind]
      exact inv
    | closeAll rest force =>
      induction rest generalizing s with
      | nil =>
        simp only [unwind, visit]
        refine ih s (inv.pop rfl ?_ ?_) fun id left next => spared id left (by
          simpa [nextRemoval] using next)
        · rintro rest force ⟨⟩ id ⟨⟩
        · rintro id ⟨⟩
      | cons id rest ihRest =>
        obtain ⟨c, present⟩ := Option.isSome_iff_exists.mp
          (inv.frames _ List.mem_cons_self id List.mem_cons_self)
        have present : s.connections.get id = some c := present
        have nodup := inv.rests _ _ List.mem_cons_self
        cases closes : c.closesNow force with
        | true =>
          have next : s.nextRemoval (.closeAll (id :: rest) force :: frames) =
              some (id, .closeAll rest force :: frames) := by
            simp [nextRemoval, present, closes]
          have free := spared id _ next
          have silent : c.signalling = false := by
            cases signalling : c.signalling with
            | false => rfl
            | true => simp [Connection.closesNow, signalling] at closes
          simp only [unwind, visit, present, closes, if_true]
          have removed := inv.removeLeaving (l := .closeAll rest force :: frames) present silent
            free ?_ inv.sent ?_ ?_
          · refine removed.request (inv.numbers id c present).2 fun found here => ?_
            simp [HttpServer.remove, OrderedMap.get_erase] at here
          · intro frame listed
            rcases List.mem_cons.mp listed with rfl | older
            · exact fun other inRest =>
                inv.frames _ List.mem_cons_self other (List.mem_cons_of_mem _ inRest)
            · exact inv.frames frame (List.mem_cons_of_mem _ older)
          · intro others kind listed
            rcases List.mem_cons.mp listed with same | older
            · cases same
              exact (List.nodup_cons.mp nodup).2
            · exact inv.rests others kind (List.mem_cons_of_mem _ older)
          · rintro other differs ⟨others, kind, listed, inRest⟩
            rcases List.mem_cons.mp listed with same | older
            · cases same
              rcases List.mem_cons.mp inRest with rfl | inRest
              · exact absurd rfl differs
              · exact ⟨rest, force, List.mem_cons_self, inRest⟩
            · exact ⟨others, kind, List.mem_cons_of_mem _ older, inRest⟩
        | false =>
          have noted := ihRest ((s.request id).set id { c with close := true }) ?_ ?_
          · simpa only [unwind, visit, present, closes, Bool.false_eq_true, if_false] using noted
          · exact (inv.note present force closes).visited rfl (by
              simp [HttpServer.request, HttpServer.set])
          · intro other left next
            rw [nextRemoval_note present] at next
            refine spared other left ?_
            simpa [nextRemoval, present, closes] using next

end HttpServer

end Libjingle.Http
