import Libjingle.Http.ServerClose

/-!
# Every close is honoured

What each input does keeps the invariant of a server whose inputs are orderly, and the signals
it emits are those that the invariant allows.
-/

namespace Libjingle.Http

open Libjingle.Std CString

namespace HttpServer

variable {s : HttpServer} {id : Nat} {c : Connection} {frames : List Frame}

/-! ## Steps -/

theorem remove_set (s : HttpServer) (id : Nat) (c : Connection) :
    (s.set id c).remove id = s.remove id := by
  have same : (s.connections.insert id c).erase id = s.connections.erase id := by
    refine OrderedMap.ext_get fun other => ?_
    rw [OrderedMap.get_erase, OrderedMap.get_erase, OrderedMap.get_insert]
    split <;> rfl
  simp only [HttpServer.remove, HttpServer.set, same]

theorem Inv.not_reading (inv : s.Inv) (present : s.connections.get id = some c)
    (mode : c.mode ≠ .recv) : .httpRequestHeader id ∉ s.stack := by
  intro listed
  obtain ⟨found, here, reading⟩ := inv.frames _ listed
  rw [show found = c from Option.some.inj (here.symm.trans present)] at reading
  exact mode reading

theorem Inv.not_signalling (inv : s.Inv) (present : s.connections.get id = some c)
    (silent : c.signalling = false) (err : HttpError) : .httpRequestComplete id err ∉ s.stack := by
  intro listed
  obtain ⟨found, here, signals⟩ := inv.frames _ listed
  rw [show found = c from Option.some.inj (here.symm.trans present), silent] at signals
  cases signals

/-- A connection that receives, or connects, is asked by nobody to close. -/
theorem Inv.not_requested (inv : s.Inv) (present : s.connections.get id = some c)
    (waits : c.mode = .recv ∨ c.mode = .connect) :
    s.requested id = false ∧ s.held id = false ∧ c.signalling = false ∧ c.current.isSome = true := by
  have shape := inv.shape id c present
  have busy : c.mode ≠ .none := by
    rcases waits with mode | mode <;> simp [mode]
  have silent : c.signalling = false :=
    Bool.eq_false_iff.mpr fun signals => busy (shape.sent signals).1
  have some := shape.busy busy
  refine ⟨Bool.eq_false_iff.mpr fun requested => ?_, Bool.eq_false_iff.mpr fun held => ?_, silent,
    some⟩
  · rcases inv.inProgress id c present requested with inProgress | signals
    · rcases waits with mode | mode <;>
        simp [Connection.requestInProgress, mode, Option.isNone_eq_false_iff.mpr some] at inProgress
    · rw [silent] at signals
      cases signals
  · rw [inv.held id c present held] at some
    cases some

/-- A new connection. -/
theorem Inv.insert (inv : s.Inv) (shape : Shape s.nextConnectionId c) :
    (HttpServer.set { s with nextConnectionId := s.nextConnectionId + 1 } s.nextConnectionId
      c).Inv where
  intact := inv.intact
  shape := by
    intro other found
    rw [get_set]
    split
    · next same =>
      rintro ⟨⟩
      exact same ▸ shape
    · exact inv.shape other found
  inProgress := by
    intro other found
    rw [get_set]
    split
    · next same =>
      intro _ (requested : s.requested other = true)
      rw [same, (inv.fresh _ (Nat.le_refl _)).1] at requested
      cases requested
    · exact inv.inProgress other found
  held := by
    intro other found
    rw [get_set]
    split
    · next same =>
      intro _ (held : s.held other = true)
      rw [same, (inv.fresh _ (Nat.le_refl _)).2] at held
      cases held
    · exact inv.held other found
  frames := by
    have known : ∀ other found, s.connections.get other = some found →
        other ≠ s.nextConnectionId := fun other found here =>
      Nat.ne_of_lt (inv.numbers other found here).2
    intro frame listed
    have ok := inv.frames frame listed
    cases frame with
    | connectionClosed | httpRequest | closeAllComplete => trivial
    | httpRequestHeader other | httpRequestComplete other err =>
      obtain ⟨found, here, fact⟩ := ok
      exact ⟨found, by rw [get_set, if_neg (known other found here)]; exact here, fact⟩
    | closeAll rest force =>
      intro other inRest
      rw [get_set]
      split
      · rfl
      · exact ok other inRest
  sent := inv.sent
  rests := inv.rests
  numbers := by
    intro other found
    rw [get_set]
    split
    · next same =>
      intro _
      rw [same]
      exact ⟨inv.next, Nat.lt_succ_self _⟩
    · intro here
      have number := inv.numbers other found here
      exact ⟨number.1, Nat.lt_succ_of_lt number.2⟩
  next := Nat.succ_pos _
  fresh := fun other above => inv.fresh other (Nat.le_of_succ_le above)
  once := by
    intro other
    rw [get_set]
    have before := inv.once other
    split
    · next same =>
      rw [if_neg (by simp)]
      refine before.trans (if_neg fun inside => ?_)
      exact absurd inside.2.1 (by rw [same]; exact Nat.lt_irrefl _)
    · next differs =>
      have below : other < s.nextConnectionId + 1 ↔ other < s.nextConnectionId := by omega
      simp only [HttpServer.set, below]
      exact before
  swept := by
    intro other found
    rw [get_set]
    split
    · next same =>
      intro _ (below : other < s.swept)
      exact absurd (Nat.lt_of_lt_of_le below inv.sweptBelow) (by rw [same]; exact Nat.lt_irrefl _)
    · exact inv.swept other found
  sweptBelow := Nat.le_succ_of_le inv.sweptBelow
  awaited := inv.awaited
  completed := by
    intro closing
    exact .inl (isEmpty_of_get (HttpServer.set _ s.nextConnectionId c) s.nextConnectionId
      (c := c) (by rw [get_set, if_pos rfl]))

theorem inv_handleConnection (inv : s.Inv) (stream : StreamState) :
    (s.handleConnection stream).1.Inv := by
  have shape : ∀ mode isConnected, mode ≠ .none →
      Shape s.nextConnectionId ⟨mode, isConnected, some (.new s.nextConnectionId), false, false⟩ := by
    intro mode isConnected busy
    refine ⟨fun idle => absurd idle busy, fun signals => (nomatch signals), fun _ => rfl, ?_⟩
    rintro transaction ⟨⟩
    rfl
  unfold handleConnection
  cases stream with
  | opening => exact inv.insert (shape .connect false (by simp))
  | opened => exact inv.insert (shape .recv true (by simp))
  | closed =>
    simp only [recv, reduceCtorEq, if_false, decide_false, Bool.false_eq_true]
    rw [remove_set, ← remove_set _ _
      ⟨.connect, false, some (.new s.nextConnectionId), false, false⟩]
    refine (inv.insert (shape .connect false (by simp))).remove (by rw [get_set, if_pos rfl]) rfl ?_
    have gone : s.connections.get s.nextConnectionId = none := by
      refine Option.eq_none_iff_forall_ne_some.mpr fun c here => ?_
      exact absurd (inv.numbers _ c here).2 (Nat.lt_irrefl _)
    rintro (listed | ⟨rest, force, listed, inRest⟩)
    · obtain ⟨c, here, -⟩ := inv.frames _ listed
      rw [gone] at here
      cases here
    · have live := inv.frames _ listed _ inRest
      rw [gone] at live
      cases live

/-- The application gives a transaction back. -/
theorem Inv.giveBack (inv : s.Inv) (id : Nat) :
    Inv { s with held := Function.update s.held id false } where
  intact := inv.intact
  shape := inv.shape
  inProgress := inv.inProgress
  held := by
    intro other found here held
    simp only [Function.update_apply] at held
    split at held
    · cases held
    · exact inv.held other found here held
  frames := inv.frames
  sent := inv.sent
  rests := inv.rests
  numbers := inv.numbers
  next := inv.next
  fresh := by
    intro other above
    refine ⟨(inv.fresh other above).1, ?_⟩
    simp only [Function.update_apply]
    split
    · rfl
    · exact (inv.fresh other above).2
  once := inv.once
  swept := inv.swept
  sweptBelow := inv.sweptBelow
  awaited := inv.awaited
  completed := inv.completed

theorem inv_respond (inv : s.Inv) (transaction : HttpServerTransaction)
    (spared : ∀ id left, s.removal (.respond transaction) = some (id, left) → ¬ Used left id) :
    (s.respond transaction).1.Inv := by
  unfold HttpServer.respond
  dsimp only
  split
  · next held =>
    have back := inv.giveBack transaction.connectionId
    split
    · exact back
    · next c present =>
      have present : s.connections.get transaction.connectionId = some c := present
      have shape := inv.shape _ c present
      have none := inv.held _ c present held
      have silent : c.signalling = false := Bool.eq_false_iff.mpr fun signals => by
        have some := (shape.sent signals).2
        rw [none] at some
        cases some
      have idle : c.mode = .none := by
        by_contra busy
        have some := shape.busy busy
        rw [none] at some
        cases some
      split
      · refine back.set present ⟨fun mode => (nomatch mode), fun signals => ?_, fun _ => rfl, ?_⟩
          (fun _ => .inl rfl) (fun held => by simp at held)
          (fun listed => absurd listed (inv.not_reading present (by simp [idle])))
          (fun err listed => absurd listed (inv.not_signalling present silent err))
        · rw [show c.signalling = true from signals] at silent
          cases silent
        · rintro answer ⟨⟩
          simp only [Connection.prepareResponse]
          split <;> rfl
      · next closed =>
        rw [remove_set]
        refine back.remove present silent (spared _ _ ?_)
        have closed : c.isConnected = false := Bool.eq_false_iff.mpr closed
        simp [removal, held, present, closed]
  · exact inv

theorem inv_close (inv : s.Inv) (id : Nat) (force : Bool)
    (spared : ∀ other left, s.removal (.close id force) = some (other, left) → ¬ Used left other) :
    (s.close id force).1.Inv := by
  unfold HttpServer.close
  split
  · exact inv
  · next c present =>
    dsimp only
    split
    · next closes =>
      have silent : c.signalling = false := by
        cases signalling : c.signalling with
        | false => rfl
        | true => simp [Connection.closesNow, signalling] at closes
      have removed := inv.remove present silent (spared id s.stack (by simp [removal, present, closes]))
      refine removed.request (inv.numbers id c present).2 fun found here => ?_
      simp [HttpServer.remove, OrderedMap.get_erase] at here
    · next stays => exact inv.note present force (Bool.eq_false_iff.mpr stays)

theorem inv_closeAll (inv : s.Inv) (force : Bool)
    (spared : ∀ id left, s.removal (.closeAll force) = some (id, left) → ¬ Used left id)
    (inTurn : s.connections.isEmpty = true → s.closing = false) : (s.closeAll force).1.Inv := by
  unfold HttpServer.closeAll
  split
  · next empty =>
    obtain ⟨intact, shape, inProgress, held, frames, sent, rests, numbers, next, fresh, once, swept,
      sweptBelow, awaited, completed⟩ := inv
    refine Inv.push (s := { s with swept := s.nextConnectionId, awaited := false })
      ⟨intact, shape, inProgress, held, frames, sent, rests, numbers, next, fresh, once, ?_,
        Nat.le_refl _, (inTurn empty).symm, completed⟩ trivial (by simp [sentBy]) (by simp)
    intro id c here
    rw [OrderedMap.get_of_isEmpty empty] at here
    cases here
  · next some =>
    refine unwind_inv _ _ ?_ fun id left next => spared id left (Eq.trans ?_ next)
    · obtain ⟨intact, shape, inProgress, held, frames, sent, rests, numbers, next, fresh, once,
        swept, sweptBelow, awaited, completed⟩ := inv
      refine ⟨intact, shape, inProgress, held, ?_, sent, ?_, numbers, next, fresh, once, ?_,
        Nat.le_refl _, rfl, fun _ => .inl (Bool.eq_false_iff.mpr some)⟩
      · intro frame listed
        rcases List.mem_cons.mp listed with rfl | older
        · intro id inKeys
          obtain ⟨c, here⟩ := OrderedMap.mem_keys.mp inKeys
          exact Option.isSome_iff_exists.mpr ⟨c, here⟩
        · exact frames frame older
      · intro rest kind listed
        rcases List.mem_cons.mp listed with same | older
        · cases same
          exact s.connections.keys_nodup
        · exact rests rest kind older
      · intro id c here _
        exact .inr ⟨_, force, List.mem_cons_self, OrderedMap.mem_keys.mpr ⟨c, here⟩⟩
    · simp only [removal, some, if_false, Bool.false_eq_true]
      symm
      apply nextRemoval_congr
      exact fun _ _ => rfl

theorem inv_removed {closedId : Nat} (inv : s.Inv) (stack : s.stack = .connectionClosed closedId :: frames)
    (spared : ∀ id left, s.removal .returned = some (id, left) → ¬ Used left id) :
    (s.removed frames).1.Inv := by
  unfold HttpServer.removed
  split
  · next last =>
    obtain ⟨closing, empty⟩ := (Bool.and_eq_true _ _).mp last
    obtain ⟨intact, shape, inProgress, held, frameOk, sent, rests, numbers, next, fresh, once, swept,
      sweptBelow, awaited, completed⟩ := inv
    rw [stack] at frameOk sent rests swept
    refine ⟨intact, shape, inProgress, held, ?_, sent, ?_, numbers, next, fresh, once, ?_, sweptBelow,
      rfl, nofun⟩
    · intro frame listed
      rcases List.mem_cons.mp listed with rfl | older
      · trivial
      · exact frameOk frame (List.mem_cons_of_mem _ older)
    · intro rest force listed
      rcases List.mem_cons.mp listed with same | older
      · cases same
      · exact rests rest force (List.mem_cons_of_mem _ older)
    · intro id c here
      rw [OrderedMap.get_of_isEmpty empty] at here
      cases here
  · next more =>
    refine unwind_inv frames s (inv.pop stack nofun fun id _ closing => ?_) fun id left next =>
      spared id left ?_
    · cases empty : s.connections.isEmpty with
      | false => rfl
      | true => exact absurd (by rw [closing, empty]; rfl) more
    · simp only [removal, removalOnReturn, stack, more]
      exact next

/-- A signal that leaves nothing to do but the loops. -/
theorem inv_unwind {frame : Frame} (inv : s.Inv) (stack : s.stack = frame :: frames)
    (plain : (∀ rest force, frame ≠ .closeAll rest force) ∧ ∀ id, frame ≠ .connectionClosed id)
    (spared : ∀ id left, s.nextRemoval frames = some (id, left) → ¬ Used left id) :
    (s.unwind frames).1.Inv :=
  unwind_inv frames s
    (inv.pop stack (fun rest force same => absurd same (plain.1 rest force))
      fun id same => absurd same (plain.2 id)) spared

theorem requestCompleted_eq {err : HttpError} (present : s.connections.get id = some c) :
    s.requestCompleted id err frames =
      if c.close || err ≠ .none || !c.isConnected then HttpServer.remove { s with stack := frames } id
      else (s.set id { c.clearTransaction with mode := .recv, signalling := false }).unwind frames := by
  unfold HttpServer.requestCompleted
  rw [present]
  obtain ⟨mode, isConnected, current, signalling, close⟩ := c
  cases close with
  | true => simp [remove_set]
  | false =>
    by_cases failed : err = .none
    · cases isConnected <;> simp [failed, remove_set, Connection.clearTransaction]
    · simp [failed, remove_set]

theorem inv_requestCompleted {err : HttpError} (inv : s.Inv)
    (stack : s.stack = .httpRequestComplete id err :: frames) (noted : s.Noted .returned)
    (spared : ∀ other left, s.removal .returned = some (other, left) → ¬ Used left other) :
    (s.requestCompleted id err frames).1.Inv := by
  have top : .httpRequestComplete id err ∈ s.stack := by
    rw [stack]
    exact List.mem_cons_self
  obtain ⟨c, present, signals⟩ := inv.frames _ top
  have popped : Inv { s with stack := frames } := inv.pop stack nofun nofun
  have once : ∀ err, .httpRequestComplete id err ∉ frames := by
    intro other again
    have nodup := inv.sent
    rw [stack, List.filterMap_cons_some (f := sentBy) (b := id) rfl, List.nodup_cons] at nodup
    exact nodup.1 (List.mem_filterMap.mpr ⟨_, again, rfl⟩)
  have shape := inv.shape id c present
  obtain ⟨idle, current⟩ := shape.sent signals
  have unread : .httpRequestHeader id ∉ frames := fun listed =>
    inv.not_reading present (by simp [idle]) (by rw [stack]; exact List.mem_cons_of_mem _ listed)
  have notHeld : s.held id = false := Bool.eq_false_iff.mpr fun held => by
    rw [inv.held id c present held] at current
    cases current
  rw [requestCompleted_eq present]
  split
  · next gone =>
    -- As one that sends the connection could be removed just as well.
    have sending : Inv (HttpServer.set { s with stack := frames } id
        { c with mode := .send, signalling := false }) :=
      popped.set present ⟨nofun, nofun, fun _ => current, shape.own⟩ (fun _ => .inl rfl)
        (fun held => by rw [show s.held id = true from held] at notHeld; cases notHeld)
        (fun listed => absurd listed unread) (fun err listed => absurd listed (once err))
    rw [← remove_set _ _ { c with mode := .send, signalling := false }]
    refine sending.remove (by rw [get_set, if_pos rfl]) rfl (spared id frames ?_)
    simp only [removal, removalOnReturn, stack, present, gone, if_true]
  · next stays =>
    have stays := stays
    simp only [Bool.or_eq_true, not_or, Bool.not_eq_true, decide_eq_false_iff_not, not_not,
      Bool.not_eq_false'] at stays
    obtain ⟨⟨kept, rfl⟩, connected⟩ := stays
    have notRequested : s.requested id = false := Bool.eq_false_iff.mpr fun requested => by
      simp only [Noted, stack] at noted
      rw [noted c present connected requested] at kept
      cases kept
    refine unwind_inv frames _ ?_ fun other left next => spared other left (Eq.trans ?_ next)
    · refine popped.set present ⟨nofun, nofun, fun _ => ?_, ?_⟩
        (fun requested => by
          rw [show s.requested id = true from requested] at notRequested
          cases notRequested)
        (fun held => by rw [show s.held id = true from held] at notHeld; cases notHeld)
        (fun _ => rfl) (fun err listed => absurd listed (once err))
      · simpa [Connection.clearTransaction] using current
      · intro transaction same
        obtain ⟨before, was, rfl⟩ := Option.map_eq_some_iff.mp same
        exact shape.own before was
    · simp only [removal, removalOnReturn, stack, present]
      rw [if_neg (by simp [kept, connected])]
      refine nextRemoval_congr (fun other force => ?_) frames
      rw [get_set, get_set]
      split
      · simp [Connection.closesNow, Connection.requestInProgress, Connection.clearTransaction]
      · rfl

theorem inv_returned (inv : s.Inv) (noted : s.Noted .returned)
    (spared : ∀ id left, s.removal .returned = some (id, left) → ¬ Used left id) :
    s.returned.1.Inv := by
  unfold HttpServer.returned
  cases stack : s.stack with
  | nil => exact inv
  | cons frame frames =>
    cases frame with
    | connectionClosed id => exact inv_removed inv stack spared
    | httpRequestComplete id err => exact inv_requestCompleted inv stack noted spared
    | closeAll rest force => exact inv
    | httpRequest | closeAllComplete =>
      refine inv_unwind inv stack ⟨nofun, nofun⟩ fun id left next => spared id left ?_
      simp only [removal, removalOnReturn, stack]
      exact next
    | httpRequestHeader id =>
      obtain ⟨c, present, -⟩ := inv.frames (.httpRequestHeader id) (by rw [stack]; exact List.mem_cons_self)
      dsimp only
      rw [if_pos (by rw [present]; rfl)]
      refine inv_unwind inv stack ⟨nofun, nofun⟩ fun id left next => spared id left ?_
      simp only [removal, removalOnReturn, stack]
      exact next

theorem inv_streamState (inv : s.Inv) (id : Nat) (isConnected : Bool) :
    (s.streamState id isConnected).Inv := by
  unfold HttpServer.streamState
  cases present : s.connections.get id with
  | none =>
    rw [OrderedMap.modify_absent present]
    exact inv
  | some c =>
    simp only [OrderedMap.modify, present]
    have shape := inv.shape id c present
    refine inv.set present ⟨shape.idle, shape.sent, shape.busy, shape.own⟩
      (inv.inProgress id c present) (inv.held id c present) (fun listed => ?_) fun err listed => ?_
    · obtain ⟨found, here, mode⟩ := inv.frames _ listed
      rwa [show found = c from Option.some.inj (here.symm.trans present)] at mode
    · obtain ⟨found, here, signals⟩ := inv.frames _ listed
      rwa [show found = c from Option.some.inj (here.symm.trans present)] at signals

theorem inv_headerComplete (inv : s.Inv) (id : Nat) (request : HttpRequestData)
    (headers : HeaderMap) : (s.headerComplete id request headers).1.Inv := by
  unfold HttpServer.headerComplete
  split
  · next isConnected transaction signalling close present =>
    obtain ⟨notRequested, notHeld, silent, -⟩ := inv.not_requested present (.inl rfl)
    have shape := inv.shape id _ present
    split
    · exact inv
    · refine Inv.push (inv.set present ⟨nofun, shape.sent, fun _ => rfl, ?_⟩ ?_ ?_ (fun _ => rfl) ?_)
        ⟨_, by rw [get_set, if_pos rfl], rfl⟩ (by simp [sentBy]) nofun
      · rintro changed ⟨⟩
        exact shape.own transaction rfl
      · intro requested
        rw [notRequested] at requested
        cases requested
      · intro held
        rw [notHeld] at held
        cases held
      · intro err listed
        exact absurd listed (inv.not_signalling present silent err)
  · exact inv

theorem inv_recv (inv : s.Inv) (present : s.connections.get id = some c) (connects : c.mode = .connect)
    (spared : c.isConnected = false → ¬ Used s.stack id) :
    (s.recv id { c with mode := .none }).1.Inv := by
  obtain ⟨notRequested, notHeld, silent, current⟩ := inv.not_requested present (.inr connects)
  unfold HttpServer.recv
  dsimp only
  split
  · refine inv.set present ⟨nofun, ?_, fun _ => current, (inv.shape id c present).own⟩ ?_ ?_
      (fun _ => rfl) fun err listed => absurd listed (inv.not_signalling present silent err)
    · intro signals
      rw [show c.signalling = true from signals] at silent
      cases silent
    · intro requested
      rw [notRequested] at requested
      cases requested
    · intro held
      rw [notHeld] at held
      cases held
  · next closed =>
    rw [remove_set]
    exact inv.remove present silent (spared (Bool.eq_false_iff.mpr closed))

/-- A request was received and is given to the application. -/
theorem Inv.handOut (inv : s.Inv) (present : s.connections.get id = some c) (receives : c.mode = .recv)
    (unread : .httpRequestHeader id ∉ s.stack) :
    Inv (HttpServer.set { s with held := Function.update s.held id true } id
      { c with mode := .none, current := none }) := by
  obtain ⟨notRequested, -, silent, -⟩ := inv.not_requested present (.inl receives)
  have given := inv.set (c := { c with mode := .none, current := none }) present
    ⟨fun _ => .inr rfl, fun signals => ?_, nofun, nofun⟩ ?_ (fun _ => rfl)
    (fun listed => absurd listed unread)
    fun err listed => absurd listed (inv.not_signalling present silent err)
  · obtain ⟨intact, shape, inProgress, held, frames, sent, rests, numbers, next, fresh, once, swept,
      sweptBelow, awaited, completed⟩ := given
    refine ⟨intact, shape, inProgress, ?_, frames, sent, rests, numbers, next, ?_, once, swept,
      sweptBelow, awaited, completed⟩
    · intro other found here isHeld
      by_cases same : other = id
      · rw [get_set, if_pos same] at here
        cases here
        rfl
      · exact held other found here (by simpa [HttpServer.set, Function.update_of_ne same] using isHeld)
    · intro other above
      have differs : other ≠ id := by
        rintro rfl
        exact absurd (inv.numbers other c present).2 (Nat.not_lt.mpr above)
      simpa [HttpServer.set, Function.update_of_ne differs] using fresh other above
  · rw [show c.signalling = true from signals] at silent
    cases silent
  · intro requested
    rw [notRequested] at requested
    cases requested

theorem inv_complete (inv : s.Inv) (id : Nat) (err : HttpError)
    (spared : ∀ other left, s.removal (.complete id err) = some (other, left) → ¬ Used left other) :
    (s.complete id err).1.Inv := by
  unfold HttpServer.complete
  split
  · exact inv
  · next c present =>
    have shape := inv.shape id c present
    split
    · exact inv
    · next quiet =>
      have quiet : s.parsing id = false := Bool.eq_false_iff.mpr quiet
      have unread : .httpRequestHeader id ∉ s.stack := by
        simpa [HttpServer.parsing] using quiet
      split
      · next transaction mode current =>
        have silent : c.signalling = false := Bool.eq_false_iff.mpr fun signals => by
          have idle := (shape.sent signals).1
          rw [mode] at idle
          cases idle
        refine Inv.push (inv.set present ⟨fun _ => .inl rfl, fun _ => ⟨rfl, by rw [current]; rfl⟩,
          nofun, shape.own⟩ (fun _ => .inr rfl) (inv.held id c present)
          (fun listed => absurd listed unread) fun _ _ => rfl)
          ⟨_, by rw [get_set, if_pos rfl], rfl⟩ ?_ nofun
        rintro _ ⟨⟩ listed
        obtain ⟨frame, inStack, sent⟩ := List.mem_filterMap.mp listed
        cases frame <;> simp only [sentBy, reduceCtorEq, Option.some.injEq] at sent
        subst sent
        exact inv.not_signalling present silent _ inStack
      · next mode =>
        have removal : err ≠ .none ∨ c.isConnected = false →
            s.removal (.complete id err) = some (id, s.stack) := by
          intro cause
          simp only [removal, quiet, present, Option.any_some, mode]
          rcases cause with failed | closed
          · simp [failed]
          · simp [closed]
        obtain ⟨-, -, silent, -⟩ := inv.not_requested present (.inr mode)
        split
        · next failed =>
          rw [remove_set]
          exact inv.remove present silent (spared id s.stack (removal (.inl failed)))
        · exact inv_recv inv present mode fun closed => spared id s.stack (removal (.inr closed))
      · next transaction mode current =>
        obtain ⟨-, -, silent, -⟩ := inv.not_requested present (.inl mode)
        split
        · next failed =>
          rw [remove_set]
          refine inv.remove present silent (spared id s.stack ?_)
          simp [removal, quiet, present, mode, failed]
        · exact (inv.handOut present mode unread).push trivial (by simp [sentBy]) nofun
      · exact inv

theorem inv_streamClosed (inv : s.Inv) (id : Nat)
    (spared : ∀ other left, s.removal (.streamClosed id) = some (other, left) → ¬ Used left other) :
    (s.streamClosed id).1.Inv := by
  unfold HttpServer.streamClosed
  split
  · next isConnected signalling close present =>
    have silent : signalling = false := by
      cases signalling with
      | false => rfl
      | true => simpa using ((inv.shape id _ present).sent rfl).2
    exact inv.remove present silent (spared id s.stack (by simp [removal, present]))
  · exact inv

theorem inv_step (inv : s.Inv) (input : ServerInput) (orderly : s.Orderly input) :
    (s.step input).Inv := by
  cases input with
  | handleConnection stream => exact inv_handleConnection inv stream
  | respond transaction => exact inv_respond inv transaction fun id left removal => orderly.spared (id, left) removal
  | close id force => exact inv_close inv id force fun other left removal => orderly.spared (other, left) removal
  | closeAll force => exact inv_closeAll inv force (fun id left removal => orderly.spared (id, left) removal) orderly.inTurn
  | returned => exact inv_returned inv orderly.noted fun id left removal => orderly.spared (id, left) removal
  | streamState id isConnected => exact inv_streamState inv id isConnected
  | headerComplete id request headers => exact inv_headerComplete inv id request headers
  | complete id err => exact inv_complete inv id err fun other left removal => orderly.spared (other, left) removal
  | streamClosed id => exact inv_streamClosed inv id fun other left removal => orderly.spared (other, left) removal

/-! ## What is signaled -/

/-- When a signal is emitted. -/
inductive Emitted (s : HttpServer) (input : ServerInput) : ServerSignal → Prop where
  | connectionClosed (id : Nat) : Emitted s input (.connectionClosed id)
  | httpRequestComplete (transaction : HttpServerTransaction) (err : HttpError) :
      Emitted s input (.httpRequestComplete transaction err)
  | httpRequestHeader {transaction : HttpServerTransaction} {c : Connection}
      (present : s.connections.get transaction.connectionId = some c) (mode : c.mode = .recv) :
      Emitted s input (.httpRequestHeader transaction)
  | httpRequest {transaction : HttpServerTransaction} {c : Connection}
      (present : s.connections.get transaction.connectionId = some c) (mode : c.mode = .recv) :
      Emitted s input (.httpRequest transaction)
  | closeAllComplete (asked : s.awaited = true ∨ ∃ force, input = .closeAll force)
      (empty : (s.step input).connections.isEmpty = true)
      (answered : (s.step input).awaited = false) : Emitted s input .closeAllComplete

theorem emitted_unwind {input : ServerInput} {signal : ServerSignal} (t : HttpServer)
    (frames : List Frame) (told : (t.unwind frames).2 = some signal) : s.Emitted input signal := by
  induction frames generalizing t with
  | nil => cases told
  | cons frame frames ih =>
    cases frame with
    | connectionClosed | httpRequest | httpRequestComplete | httpRequestHeader | closeAllComplete =>
      cases told
    | closeAll rest force =>
      simp only [unwind] at told
      split at told
      · cases told
        exact .connectionClosed _
      · exact ih _ told

theorem emitted_recv {input : ServerInput} {signal : ServerSignal} {t : HttpServer}
    (told : (t.recv id c).2 = some signal) : s.Emitted input signal := by
  unfold HttpServer.recv at told
  split at told
  · cases told
  · cases told
    exact .connectionClosed _

theorem emitted_returned (inv : s.Inv) {signal : ServerSignal}
    (told : s.returned.2 = some signal) : s.Emitted .returned signal := by
  unfold HttpServer.returned at told
  split at told
  · cases told
  · next closedId frames stack =>
    unfold HttpServer.removed at told
    split at told
    · next last =>
      cases told
      obtain ⟨closing, empty⟩ := (Bool.and_eq_true _ _).mp last
      have after : s.step .returned =
          { s with closing := false, awaited := false, stack := .closeAllComplete :: frames } := by
        simp only [HttpServer.step, HttpServer.input, HttpServer.returned, stack,
          HttpServer.removed, last, if_true]
      refine .closeAllComplete (.inl (inv.awaited.trans closing)) ?_ ?_
      · rw [after]
        exact empty
      · rw [after]
    · exact emitted_unwind _ _ told
  · next id err frames stack =>
    obtain ⟨c, present, -⟩ := inv.frames (.httpRequestComplete id err) (by
      rw [stack]
      exact List.mem_cons_self)
    rw [requestCompleted_eq present] at told
    split at told
    · cases told
      exact .connectionClosed _
    · exact emitted_unwind _ _ told
  · split at told
    · exact emitted_unwind _ _ told
    · cases told
  · exact emitted_unwind _ _ told
  · exact emitted_unwind _ _ told
  · cases told

theorem emitted (inv : s.Inv) {input : ServerInput} {signal : ServerSignal}
    (told : (s.input input).2 = some signal) : s.Emitted input signal := by
  cases input with
  | handleConnection stream =>
    simp only [HttpServer.input, HttpServer.handleConnection] at told
    split at told
    · cases told
    · exact emitted_recv told
  | respond transaction =>
    simp only [HttpServer.input, HttpServer.respond] at told
    split at told
    · split at told
      · cases told
      · split at told
        · cases told
        · cases told
          exact .connectionClosed _
    · cases told
  | close id force =>
    simp only [HttpServer.input, HttpServer.close] at told
    split at told
    · cases told
    · split at told
      · cases told
        exact .connectionClosed _
      · cases told
  | closeAll force =>
    simp only [HttpServer.input, HttpServer.closeAll] at told
    split at told
    · next empty =>
      cases told
      refine .closeAllComplete (.inr ⟨force, rfl⟩) ?_ ?_
      · simp only [HttpServer.step, HttpServer.input, HttpServer.closeAll, empty, if_true]
        exact empty
      · simp only [HttpServer.step, HttpServer.input, HttpServer.closeAll, empty, if_true]
        rfl
    · exact emitted_unwind _ _ told
  | returned => exact emitted_returned inv told
  | streamState id isConnected => cases told
  | headerComplete id request headers =>
    simp only [HttpServer.input, HttpServer.headerComplete] at told
    split at told
    · next isConnected transaction signalling close present =>
      split at told
      · cases told
      · cases told
        have own : transaction.connectionId = id := (inv.shape id _ present).own transaction rfl
        exact .httpRequestHeader (by rw [own]; exact present) rfl
    · cases told
  | complete id err =>
    simp only [HttpServer.input, HttpServer.complete] at told
    split at told
    · cases told
    · next c present =>
      split at told
      · cases told
      · split at told
        · cases told
          exact .httpRequestComplete _ _
        · split at told
          · cases told
            exact .connectionClosed _
          · exact emitted_recv told
        · next transaction mode current =>
          split at told
          · cases told
            exact .connectionClosed _
          · cases told
            have own := (inv.shape id c present).own transaction current
            exact .httpRequest (by rw [own]; exact present) mode
        · cases told
  | streamClosed id =>
    simp only [HttpServer.input, HttpServer.streamClosed] at told
    split at told
    · cases told
      exact .connectionClosed _
    · cases told

/-- From a sound state on, an orderly input is honoured. -/
theorem honoured_of_orderly (inv : s.Inv) (input : ServerInput) (orderly : s.Orderly input) :
    s.Honoured input := by
  have after := inv_step inv input orderly
  refine ⟨after.intact, after.inProgress, after.swept, fun transaction told => ?_, after.once,
    fun told => ?_, fun idle awaited => ?_⟩
  · rcases told with told | told
    · cases emitted inv told with
      | httpRequest present mode => exact (inv.not_requested present (.inl mode)).1
    · cases emitted inv told with
      | httpRequestHeader present mode => exact (inv.not_requested present (.inl mode)).1
  · cases emitted inv told with
    | closeAllComplete asked empty answered => exact ⟨asked, empty, answered⟩
  · rcases after.completed (after.awaited.symm.trans awaited) with some | ⟨id, listed⟩
    · exact some
    · rw [idle] at listed
      cases listed

/-- Where every input is orderly, every close is honoured. -/
theorem closes_honoured {inputs : List ServerInput}
    (orderly : Along step Orderly .new inputs) : Along step Honoured .new inputs :=
  orderly.of_invariant (fun _ input orderly inv => inv_step inv input orderly)
    (fun _ input orderly inv => honoured_of_orderly inv input orderly) Inv.new

/-! ## A close that is lost -/

/-- A request of HTTP/1.1 came and waits for its answer. -/
private def firstRequest : List ServerInput :=
  [.handleConnection .opened, .headerComplete 1 ⟨.v11, .get, ofString "/"⟩ [], .returned,
   .complete 1 .none, .returned]

/-- The answer says nothing about the connection. -/
private def answer : HttpServerTransaction :=
  ⟨1, ⟨.v11, .get, ofString "/"⟩, [], ⟨.v11, 200, []⟩, [(hhContentLength, ofString "0")]⟩

/-- A close during the answer removes the connection once this is sent. -/
theorem closes_honoured_sending :
    Along step Orderly .new
      (firstRequest ++ [.respond answer, .close 1 false, .complete 1 .none, .returned, .returned]) ∧
    Along step Honoured .new
      (firstRequest ++ [.respond answer, .close 1 false, .complete 1 .none, .returned, .returned]) :=
  ⟨by decide +kernel, closes_honoured (by decide +kernel)⟩

/-- A close before the answer is forgotten by it, and the connection receives again. -/
theorem respond_forgets_close :
    ¬ ∀ inputs, Along step Honoured .new inputs := by
  intro claim
  have last := (claim ((firstRequest ++ [.close 1 false, .respond answer, .complete 1 .none]) ++
    [.returned])).last
  have receives : ((runInputs step .new
      (firstRequest ++ [.close 1 false, .respond answer, .complete 1 .none])).step .returned).connections.get
        1 = some ⟨.recv, true, some (.new 1), false, false⟩ := by
    decide +kernel
  have asked : ((runInputs step .new
      (firstRequest ++ [.close 1 false, .respond answer, .complete 1 .none])).step .returned).requested
        1 = true := by
    decide +kernel
  have inProgress := last.removed 1 _ receives asked
  simp [Connection.InProgress, Connection.requestInProgress] at inProgress

end HttpServer

end Libjingle.Http
