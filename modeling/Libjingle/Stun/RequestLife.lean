import Libjingle.Stun.Resending

/-!
# The life of a request

A request waits for its message, with some number of sends behind it, until it has ended. `Waits`
and `Ended` say which events a request has seen in either case. `Sound` is the invariant of the
manager: the map leads to the requests that wait, each of which has one message posted, and those
that have ended have none.
-/

namespace Libjingle.Stun.Resending

open Libjingle.Std

variable {β : Type} {nextDelay : NextDelay β} {r : Nat}

/-! ## Lives -/

/-- The events of a request that waits for the message that comes at `due`. -/
inductive Waits (nextDelay : NextDelay β) (r : Nat) (id : List UInt8) (body : β) :
    Nat → Bool → Nat → List (Event β) → Prop
  | started (due : Nat) : Waits nextDelay r id body 0 false due [.started r id body due]
  | sent {count due : Nat} {events : List (Event β)} (time : Nat) (reached : due ≤ time)
      (earlier : Waits nextDelay r id body count false due events) :
      Waits nextDelay r id body (nextDelay body count false).2.1 (nextDelay body count false).2.2
        (time + (nextDelay body count false).1)
        (events ++ [.sent r time, .posted r (time + (nextDelay body count false).1)])

/-- The events of a request that has ended; after a timeout it was to be sent no more. -/
inductive Ended (nextDelay : NextDelay β) (r : Nat) : List (Event β) → Prop
  | response {id : List UInt8} {body : β} {count due : Nat} {timeout : Bool}
      {events : List (Event β)} (waits : Waits nextDelay r id body count timeout due events) :
      Ended nextDelay r (events ++ [.onResponse r])
  | errorResponse {id : List UInt8} {body : β} {count due : Nat} {timeout : Bool}
      {events : List (Event β)} (waits : Waits nextDelay r id body count timeout due events) :
      Ended nextDelay r (events ++ [.onErrorResponse r])
  | timeout {id : List UInt8} {body : β} {count due : Nat} {events : List (Event β)} (time : Nat)
      (reached : due ≤ time) (waits : Waits nextDelay r id body count true due events) :
      Ended nextDelay r (events ++ [.onTimeout r time])
  | removed {id : List UInt8} {body : β} {count due : Nat} {timeout : Bool}
      {events : List (Event β)} (waits : Waits nextDelay r id body count timeout due events) :
      Ended nextDelay r (events ++ [.removed r])

namespace Manager

/-- The events of a request. -/
def history (m : Manager β) (r : Nat) : List (Event β) :=
  m.log.filter fun event => event.request = r

/-- The times of the messages that are posted for a request. -/
def pending (m : Manager β) (r : Nat) : List Nat :=
  (m.queue.filter fun posted => posted.request = r).map Posted.due

/-- A request is not known yet, or it waits for its one message, or it has ended. -/
structure Lives (nextDelay : NextDelay β) (m : Manager β) (r : Nat) : Prop where
  waits : ∀ object, m.requests.objects r = some object →
    ∃ due, Waits nextDelay r object.id object.body object.count object.timeout due (m.history r) ∧
      m.pending r = [due]
  quiet : m.requests.objects r = none → m.pending r = []
  ended : m.requests.objects r = none → r < m.requests.next → Ended nextDelay r (m.history r)
  unknown : m.requests.next ≤ r → m.history r = []

structure Sound (nextDelay : NextDelay β) (m : Manager β) : Prop where
  indexed : m.requests.Indexed Request.id
  lives : ∀ r, m.Lives nextDelay r

/-- A request has ended and is about to be deleted. -/
structure Ending (nextDelay : NextDelay β) (m : Manager β) (r : Nat) : Prop where
  indexed : m.requests.Indexed Request.id
  lives : ∀ other, other ≠ r → m.Lives nextDelay other
  known : r < m.requests.next
  ended : Ended nextDelay r (m.history r)

variable {m m' : Manager β} {request : NewRequest β}

theorem Sound.new : Sound nextDelay (new : Manager β) where
  indexed := .empty
  lives r :=
    { waits := fun object found => by cases found
      quiet := fun _ => rfl
      ended := fun _ known => absurd known (Nat.not_lt_zero r)
      unknown := fun _ => rfl }

/-- What is not looked at may change. -/
theorem Lives.of_same (lives : m.Lives nextDelay r)
    (objects : m'.requests.objects r = m.requests.objects r) (pending : m'.pending r = m.pending r)
    (history : m'.history r = m.history r)
    (next : r < m'.requests.next ↔ r < m.requests.next) : m'.Lives nextDelay r where
  waits := by
    rw [objects, pending, history]
    exact lives.waits
  quiet := by
    rw [objects, pending]
    exact lives.quiet
  ended := by
    rw [objects, history, next]
    exact lives.ended
  unknown := by
    rw [← Nat.not_lt, next, history, Nat.not_lt]
    exact lives.unknown

/-! ## Sending -/

theorem history_sendDelayed (r : Nat) : (m.sendDelayed request).history r = m.history r ++
    if r = m.requests.next then
      [.started m.requests.next request.id request.body (m.now + request.delay)] else [] := by
  have appended : (m.sendDelayed request).history r = m.history r ++ _ := List.filter_append ..
  rw [appended]
  by_cases here : m.requests.next = r
  · simp [Event.request, here]
  · simp [Event.request, here, Ne.symm here]

theorem pending_sendDelayed (r : Nat) : (m.sendDelayed request).pending r = m.pending r ++
    if r = m.requests.next then [m.now + request.delay] else [] := by
  unfold pending sendDelayed
  rw [List.filter_append, List.map_append]
  by_cases here : m.requests.next = r
  · simp [here]
  · simp [here, Ne.symm here]

theorem Lives.sendDelayed (indexed : m.requests.Indexed Request.id) (lives : m.Lives nextDelay r) :
    (m.sendDelayed request).Lives nextDelay r := by
  by_cases here : r = m.requests.next
  · have history : (m.sendDelayed request).history r =
        [.started r request.id request.body (m.now + request.delay)] := by
      rw [history_sendDelayed, if_pos here, lives.unknown (Nat.le_of_eq here.symm), here]
      rfl
    have pending : (m.sendDelayed request).pending r = [m.now + request.delay] := by
      rw [pending_sendDelayed, if_pos here, lives.quiet (indexed.fresh r (Nat.le_of_eq here.symm))]
      rfl
    have added : (m.sendDelayed request).requests.objects r =
        some ⟨request.id, request.type, request.body, 0, false⟩ :=
      (Registry.objects_add r).trans (if_pos here)
    refine ⟨fun object found => ⟨_, ?_, pending⟩, fun gone => ?_, fun gone => ?_, fun later => ?_⟩
    · cases added.symm.trans found
      rw [history]
      exact .started _
    · cases added.symm.trans gone
    · cases added.symm.trans gone
    · have later : m.requests.next + 1 ≤ r := later
      omega
  · refine lives.of_same ((Registry.objects_add r).trans (if_neg here)) ?_ ?_ ?_
    · rw [pending_sendDelayed, if_neg here, List.append_nil]
    · rw [history_sendDelayed, if_neg here, List.append_nil]
    · have grown : (m.sendDelayed request).requests.next = m.requests.next + 1 := rfl
      omega

theorem Sound.sendDelayed (sound : m.Sound nextDelay) (free : m.requests.index request.id = none) :
    (m.sendDelayed request).Sound nextDelay :=
  ⟨sound.indexed.add free, fun r => (sound.lives r).sendDelayed sound.indexed⟩

theorem Ending.sendDelayed (ending : m.Ending nextDelay r)
    (free : m.requests.index request.id = none) : (m.sendDelayed request).Ending nextDelay r where
  indexed := ending.indexed.add free
  lives other apart := (ending.lives other apart).sendDelayed ending.indexed
  known := Nat.lt_succ_of_lt ending.known
  ended := by
    rw [history_sendDelayed, if_neg (Nat.ne_of_lt ending.known), List.append_nil]
    exact ending.ended

theorem Ending.sendAll {calls : List (NewRequest β)} (ending : m.Ending nextDelay r)
    (distinct : (calls.map NewRequest.id).Nodup)
    (free : ∀ call ∈ calls, m.requests.index call.id = none) :
    (m.sendAll calls).Ending nextDelay r := by
  induction calls generalizing m with
  | nil => exact ending
  | cons call calls ih =>
    rw [List.map_cons, List.nodup_cons] at distinct
    refine ih (ending.sendDelayed (free call List.mem_cons_self)) distinct.2 fun later mem => ?_
    have apart : later.id ≠ call.id :=
      fun same => distinct.1 (same ▸ List.mem_map_of_mem mem)
    exact (Registry.index_add _).trans
      ((if_neg apart).trans (free later (List.mem_cons_of_mem call mem)))

/-! ## Ending -/

theorem next_remove : (m.remove r).requests.next = m.requests.next := by
  unfold remove Registry.remove
  dsimp only
  split <;> rfl

theorem Ending.remove (ending : m.Ending nextDelay r) : (m.remove r).Sound nextDelay where
  indexed := ending.indexed.remove
  lives other := by
    have objects : (m.remove r).requests.objects other =
        if other = r then none else m.requests.objects other := Registry.objects_remove_eq r other
    by_cases here : other = r
    · subst here
      rw [if_pos rfl] at objects
      refine ⟨fun object found => ?_, fun _ => ?_, fun _ _ => ending.ended, fun later => ?_⟩
      · cases objects.symm.trans found
      · simp [pending, Manager.remove, List.filter_filter]
      · rw [next_remove] at later
        exact absurd ending.known (Nat.not_lt.mpr later)
    · rw [if_neg here] at objects
      refine (ending.lives other here).of_same objects ?_ rfl (by rw [next_remove])
      unfold pending Manager.remove
      rw [List.filter_filter]
      congr 2
      funext posted
      by_cases own : posted.request = other <;> simp [own, here]

/-- A request that waits ends. -/
theorem Sound.ending {object : Request β} (sound : m.Sound nextDelay) (event : Event β)
    (found : m.requests.objects event.request = some object)
    (ends : Ended nextDelay event.request (m.history event.request ++ [event])) :
    (m.record event).Ending nextDelay event.request where
  indexed := sound.indexed
  lives other apart := by
    refine (sound.lives other).of_same rfl rfl ?_ Iff.rfl
    have recorded : (m.record event).history other = m.history other ++ _ := List.filter_append ..
    rw [recorded]
    simp [Ne.symm apart]
  known := by
    by_contra unknown
    cases found.symm.trans (sound.indexed.fresh _ (Nat.le_of_not_lt unknown))
  ended := by
    have recorded : (m.record event).history event.request = m.history event.request ++ _ :=
      List.filter_append ..
    rw [recorded]
    simpa using ends

theorem Sound.finish {calls : List (NewRequest β)} {object : Request β}
    (sound : m.Sound nextDelay) (event : Event β) (found : m.requests.objects event.request = some object)
    (ends : Ended nextDelay event.request (m.history event.request ++ [event]))
    (distinct : (calls.map NewRequest.id).Nodup)
    (free : ∀ call ∈ calls, m.requests.index call.id = none) :
    (m.finish event calls).Sound nextDelay :=
  ((sound.ending event found ends).sendAll distinct free).remove

theorem Sound.removeCall (sound : m.Sound nextDelay) (r : Nat) :
    (m.removeCall r).Sound nextDelay := by
  unfold Manager.removeCall
  split
  · next present =>
    obtain ⟨object, found⟩ := Option.isSome_iff_exists.mp present
    obtain ⟨due, waits, -⟩ := (sound.lives r).waits object found
    exact (sound.ending (.removed r) found (.removed waits)).remove
  · exact sound

theorem Sound.clear (sound : m.Sound nextDelay) : m.clear.Sound nextDelay := by
  unfold Manager.clear
  generalize m.outstanding = requests
  induction requests generalizing m with
  | nil => exact sound
  | cons first rest ih => exact ih (sound.removeCall first)

theorem Sound.checkResponse {msg : Message} {calls : List (NewRequest β)} (sound : m.Sound nextDelay)
    (distinct : (calls.map NewRequest.id).Nodup)
    (free : ∀ call ∈ calls, m.requests.index call.id = none) :
    (m.checkResponse msg calls).2.Sound nextDelay := by
  unfold Manager.checkResponse
  split
  · exact sound
  · next request leads =>
    split
    · exact sound
    · next object found =>
      obtain ⟨due, waits, -⟩ := (sound.lives request).waits object found
      split
      · exact sound.finish (.onResponse request) found (.response waits) distinct free
      · split
        · exact sound.finish (.onErrorResponse request) found (.errorResponse waits)
            distinct free
        · exact sound

theorem Sound.checkResponseBytes {data : List UInt8} {calls : List (NewRequest β)}
    (sound : m.Sound nextDelay) (distinct : (calls.map NewRequest.id).Nodup)
    (free : ∀ call ∈ calls, m.requests.index call.id = none) :
    (m.checkResponseBytes data calls).2.Sound nextDelay := by
  unfold Manager.checkResponseBytes
  split
  · exact sound
  · split
    · exact sound
    · split
      · exact sound
      · exact sound.checkResponse distinct free

/-! ## Messages -/

/-- A message of a request is taken from the queue. -/
theorem pending_eraseIdx {place : Nat} {posted : Posted} (at_ : m.queue[place]? = some posted) :
    ∃ before behind, m.queue = before ++ posted :: behind ∧
      m.queue.eraseIdx place = before ++ behind := by
  obtain ⟨inside, same⟩ := List.getElem?_eq_some_iff.mp at_
  refine ⟨m.queue.take place, m.queue.drop (place + 1), ?_, List.eraseIdx_eq_take_drop_succ ..⟩
  rw [← same, List.getElem_cons_drop inside, List.take_append_drop]

/-- A message that comes belongs to a request that waits for it, and is its only one. -/
theorem Sound.message {place : Nat} {posted : Posted} (sound : m.Sound nextDelay)
    (at_ : m.queue[place]? = some posted) :
    ∃ object, m.requests.objects posted.request = some object ∧
      Waits nextDelay posted.request object.id object.body object.count object.timeout
        posted.due (m.history posted.request) ∧
      ∀ other, pending { m with queue := m.queue.eraseIdx place } other =
        if other = posted.request then [] else m.pending other := by
  obtain ⟨before, behind, queue, erased⟩ := pending_eraseIdx at_
  have whole : ∀ other, m.pending other =
      ((before.filter fun p => p.request = other).map Posted.due) ++
        (if posted.request = other then [posted.due] else []) ++
        ((behind.filter fun p => p.request = other).map Posted.due) := by
    intro other
    unfold pending
    rw [queue, List.filter_append, List.filter_cons, List.map_append]
    by_cases own : posted.request = other <;> simp [own]
  have rest : ∀ other, pending { m with queue := m.queue.eraseIdx place } other =
      ((before.filter fun p => p.request = other).map Posted.due) ++
        ((behind.filter fun p => p.request = other).map Posted.due) := by
    intro other
    unfold pending
    rw [erased, List.filter_append, List.map_append]
  have own := whole posted.request
  rw [if_pos rfl] at own
  cases found : m.requests.objects posted.request with
  | none =>
    rw [(sound.lives posted.request).quiet found] at own
    simp at own
  | some object =>
    obtain ⟨due, waits, one⟩ := (sound.lives posted.request).waits object found
    rw [one] at own
    have lengths := congrArg List.length own
    simp only [List.length_append, List.length_singleton] at lengths
    have none_before : (before.filter fun p => p.request = posted.request).map Posted.due = [] :=
      List.length_eq_zero_iff.mp (by omega)
    have none_behind : (behind.filter fun p => p.request = posted.request).map Posted.due = [] :=
      List.length_eq_zero_iff.mp (by omega)
    rw [none_before, none_behind] at own
    have same : due = posted.due := by simpa using own
    refine ⟨object, rfl, same ▸ waits, fun other => ?_⟩
    rw [rest]
    split
    · next here => rw [here, none_before, none_behind, List.append_nil]
    · next apart => rw [whole, if_neg (Ne.symm apart), List.append_nil]

/-- A request whose message has come, and that is not timed out, is sent. -/
theorem lives_sendNow {object : Request β} {due : Nat} (found : m.requests.objects r = some object)
    (reached : due ≤ m.now) (again : object.timeout = false) (known : r < m.requests.next)
    (waits : Waits nextDelay r object.id object.body object.count object.timeout due (m.history r))
    (taken : m.pending r = []) : (m.sendNow nextDelay r object).Lives nextDelay r := by
  rw [again] at waits
  have after := waits.sent m.now reached
  rw [← again] at after
  have history : (m.sendNow nextDelay r object).history r = m.history r ++ _ :=
    List.filter_append ..
  have pending : (m.sendNow nextDelay r object).pending r =
      [m.now + (nextDelay object.body object.count object.timeout).1] := by
    have appended : (m.sendNow nextDelay r object).pending r = m.pending r ++ _ :=
      (congrArg (List.map Posted.due) (List.filter_append ..)).trans (List.map_append ..)
    rw [appended, taken]
    simp
  have objects : (m.sendNow nextDelay r object).requests.objects r = some { object with
      count := (nextDelay object.body object.count object.timeout).2.1
      timeout := (nextDelay object.body object.count object.timeout).2.2 } := by
    refine (Registry.objects_modify ..).trans ?_
    rw [if_pos rfl, found]
    rfl
  refine ⟨fun other same => ⟨_, ?_, pending⟩, fun gone => ?_, fun gone => ?_, fun later => ?_⟩
  · cases objects.symm.trans same
    rw [history]
    simpa [Event.request] using after
  · cases objects.symm.trans gone
  · cases objects.symm.trans gone
  · exact absurd known (Nat.not_lt.mpr later)

/-- The others do not notice. -/
theorem Lives.sendNow {object : Request β} {other : Nat} (lives : m.Lives nextDelay other)
    (apart : other ≠ r) : (m.sendNow nextDelay r object).Lives nextDelay other := by
  refine lives.of_same ((Registry.objects_modify ..).trans (if_neg apart)) ?_ ?_ Iff.rfl
  · have appended : (m.sendNow nextDelay r object).pending other = m.pending other ++ _ :=
      (congrArg (List.map Posted.due) (List.filter_append ..)).trans (List.map_append ..)
    rw [appended]
    simp [Ne.symm apart]
  · have history : (m.sendNow nextDelay r object).history other = m.history other ++ _ :=
      List.filter_append ..
    rw [history]
    simp [Event.request, Ne.symm apart]

theorem Sound.onMessage {place : Nat} {posted : Posted} {calls : List (NewRequest β)}
    (sound : m.Sound nextDelay) (at_ : m.queue[place]? = some posted) (reached : posted.due ≤ m.now)
    (distinct : (calls.map NewRequest.id).Nodup)
    (free : ∀ call ∈ calls, m.requests.index call.id = none) :
    ({ m with queue := m.queue.eraseIdx place }.onMessage nextDelay posted.request
      calls).Sound nextDelay := by
  obtain ⟨object, found, waits, pending⟩ := sound.message at_
  have known : posted.request < m.requests.next := by
    by_contra unknown
    cases found.symm.trans (sound.indexed.fresh _ (Nat.le_of_not_lt unknown))
  have others : ∀ other, other ≠ posted.request →
      { m with queue := m.queue.eraseIdx place }.Lives nextDelay other := by
    intro other apart
    exact (sound.lives other).of_same rfl ((pending other).trans (if_neg apart)) rfl Iff.rfl
  unfold Manager.onMessage
  rw [found]
  dsimp only
  split
  · next timeout =>
    -- The message behind the last send.
    rw [timeout] at waits
    have ending := sound.ending (.onTimeout posted.request m.now) found
      (.timeout m.now reached waits)
    have taken : (record { m with queue := m.queue.eraseIdx place }
        (.onTimeout posted.request m.now)).Ending nextDelay posted.request := by
      refine ⟨ending.indexed, fun other apart => ?_, ending.known, ending.ended⟩
      refine (ending.lives other apart).of_same rfl ?_ rfl Iff.rfl
      exact (pending other).trans (if_neg apart)
    exact (taken.sendAll distinct free).remove
  · next again =>
    refine ⟨sound.indexed.modify fun _ _ => rfl, fun other => ?_⟩
    by_cases here : other = posted.request
    · rw [here]
      exact lives_sendNow found reached (Bool.not_eq_true _ ▸ again) known waits
        ((pending posted.request).trans (if_pos rfl))
    · exact (others other here).sendNow here

/-! ## Runs -/

theorem Sound.step {input : Input β} (sound : m.Sound nextDelay) (fresh : m.FreshIds input) :
    (m.step nextDelay input).Sound nextDelay := by
  obtain ⟨distinct, free⟩ := fresh
  cases input with
  | send request => exact sound.sendDelayed (free request List.mem_cons_self)
  | message place calls =>
    unfold Manager.step
    dsimp only
    split
    · exact sound
    · next posted at_ =>
      split
      · next reached => exact sound.onMessage at_ reached distinct free
      · exact sound
  | response msg calls => exact sound.checkResponse distinct free
  | bytes data calls => exact sound.checkResponseBytes distinct free
  | remove request => exact sound.removeCall request
  | clear => exact sound.clear
  | elapse ms => exact ⟨sound.indexed, fun r => (sound.lives r).of_same rfl rfl rfl Iff.rfl⟩

theorem sound_run {inputs : List (Input β)}
    (fresh : Along (step nextDelay) FreshIds (new : Manager β) inputs) :
    (runInputs (step nextDelay) new inputs).Sound nextDelay :=
  fresh.invariant (fun _ _ fresh sound => sound.step fresh) .new

end Manager

/-! ## Plain requests -/

/-- The events of a plain request that was sent `count` times: 100 ms after the first send, 200 ms
after the second, at last 1600 ms, it is sent again or, after the ninth send, timed out. -/
inductive PlainWaits (r : Nat) (id : List UInt8) (body : β) : Nat → Nat → List (Event β) → Prop
  | started (due : Nat) : PlainWaits r id body 0 due [.started r id body due]
  | sent {count due : Nat} {events : List (Event β)} (time : Nat) (reached : due ≤ time)
      (fewer : count < 9) (earlier : PlainWaits r id body count due events) :
      PlainWaits r id body (count + 1) (time + 100 * min (2 ^ count) 16)
        (events ++ [.sent r time, .posted r (time + 100 * min (2 ^ count) 16)])

inductive PlainEnded (r : Nat) (id : List UInt8) (body : β) : List (Event β) → Prop
  | response {count due : Nat} {events : List (Event β)}
      (waits : PlainWaits r id body count due events) :
      PlainEnded r id body (events ++ [.onResponse r])
  | errorResponse {count due : Nat} {events : List (Event β)}
      (waits : PlainWaits r id body count due events) :
      PlainEnded r id body (events ++ [.onErrorResponse r])
  | timeout {due : Nat} {events : List (Event β)} (time : Nat) (reached : due ≤ time)
      (waits : PlainWaits r id body 9 due events) :
      PlainEnded r id body (events ++ [.onTimeout r time])
  | removed {count due : Nat} {events : List (Event β)}
      (waits : PlainWaits r id body count due events) :
      PlainEnded r id body (events ++ [.removed r])

variable {id : List UInt8} {body : β} {count due : Nat} {timeout : Bool} {events : List (Event β)}

/-- The start is the first event, and there is one start. -/
theorem Waits.start_unique {id' : List UInt8} {body' : β} {due' : Nat}
    (waits : Waits nextDelay r id body count timeout due events)
    (mem : .started r id' body' due' ∈ events) : id' = id ∧ body' = body := by
  induction waits with
  | started due =>
    cases List.mem_singleton.mp mem
    exact ⟨rfl, rfl⟩
  | sent time reached earlier ih =>
    rcases List.mem_append.mp mem with mem | mem
    · exact ih mem
    · simp at mem

theorem Waits.start_mem (waits : Waits nextDelay r id body count timeout due events) :
    ∃ first, .started r id body first ∈ events := by
  induction waits with
  | started due => exact ⟨due, List.mem_singleton_self _⟩
  | sent time reached earlier ih =>
    obtain ⟨first, mem⟩ := ih
    exact ⟨first, List.mem_append_left _ mem⟩

theorem Waits.plain (waits : Waits nextDelay r id body count timeout due events)
    (plain : nextDelay body = getNextDelay) :
    PlainWaits r id body count due events ∧ count ≤ 9 ∧ (timeout = true ↔ count = 9) := by
  induction waits with
  | started due => exact ⟨.started due, by omega, by simp⟩
  | @sent count due events time reached earlier ih =>
    obtain ⟨waits, bound, last⟩ := ih
    have fewer : count < 9 := by
      have other : count ≠ 9 := fun nine => Bool.noConfusion (last.mpr nine)
      omega
    rw [plain]
    have again := waits.sent time reached fewer
    refine ⟨?_, fewer, ?_⟩
    · simpa [getNextDelay, delayUnit, delayMaxFactor, Nat.one_shiftLeft] using again
    · simp [getNextDelay, maxSends]

theorem Ended.plain {due' : Nat} (ended : Ended nextDelay r events)
    (mem : .started r id body due' ∈ events) (plain : nextDelay body = getNextDelay) :
    PlainEnded r id body events := by
  cases ended with
  | response waits =>
    obtain ⟨rfl, rfl⟩ := waits.start_unique ((List.mem_append.mp mem).resolve_right (by simp))
    exact .response (waits.plain plain).1
  | errorResponse waits =>
    obtain ⟨rfl, rfl⟩ := waits.start_unique ((List.mem_append.mp mem).resolve_right (by simp))
    exact .errorResponse (waits.plain plain).1
  | timeout time reached waits =>
    obtain ⟨rfl, rfl⟩ := waits.start_unique ((List.mem_append.mp mem).resolve_right (by simp))
    obtain ⟨waits, -, last⟩ := waits.plain plain
    exact .timeout time reached (last.mp rfl ▸ waits)
  | removed waits =>
    obtain ⟨rfl, rfl⟩ := waits.start_unique ((List.mem_append.mp mem).resolve_right (by simp))
    exact .removed (waits.plain plain).1

namespace Manager

/-- What a plain request is to have seen, and where it is to be found. -/
def PlainLife (m : Manager β) (r : Nat) (id : List UInt8) (body : β) : Prop :=
  (m.requests.index id = some r ∧ ∃ count due,
      PlainWaits r id body count due (m.history r) ∧ m.pending r = [due]) ∨
    ((∀ other, m.requests.index other ≠ some r) ∧
      PlainEnded r id body (m.history r) ∧ m.pending r = [])

theorem Sound.plainLife {m : Manager β} (sound : m.Sound nextDelay)
    (started : .started r id body due ∈ m.log) (plain : nextDelay body = getNextDelay) :
    m.PlainLife r id body := by
  have mem : .started r id body due ∈ m.history r :=
    List.mem_filter.mpr ⟨started, decide_eq_true rfl⟩
  have known : r < m.requests.next := by
    by_contra unknown
    rw [(sound.lives r).unknown (Nat.le_of_not_lt unknown)] at mem
    cases mem
  cases found : m.requests.objects r with
  | some object =>
    obtain ⟨due, waits, one⟩ := (sound.lives r).waits object found
    obtain ⟨rfl, rfl⟩ := waits.start_unique mem
    exact .inl ⟨sound.indexed.reachable r object found, _, due, (waits.plain plain).1, one⟩
  | none =>
    refine .inr ⟨fun other leads => ?_, ((sound.lives r).ended found known).plain mem plain,
      (sound.lives r).quiet found⟩
    obtain ⟨object, here, -⟩ := sound.indexed.live other r leads
    cases found.symm.trans here

/-- In every run each plain request is in the map under its id and waits for its one message, or it
is not in the map and has ended in one of four ways, and the map leads to nothing else. -/
theorem plain_requests_live {inputs : List (Input β)}
    (fresh : Along (step nextDelay) FreshIds (new : Manager β) inputs) :
    (∀ r id body due, .started r id body due ∈ (runInputs (step nextDelay) new inputs).log →
      nextDelay body = getNextDelay →
        (runInputs (step nextDelay) new inputs).PlainLife r id body) ∧
    ∀ id r, (runInputs (step nextDelay) new inputs).requests.index id = some r →
      ∃ body due, .started r id body due ∈ (runInputs (step nextDelay) new inputs).log := by
  have sound := sound_run fresh
  refine ⟨fun r id body due started plain => sound.plainLife started plain, fun id r leads => ?_⟩
  obtain ⟨object, found, rfl⟩ := sound.indexed.live id r leads
  obtain ⟨due, waits, -⟩ := (sound.lives r).waits object found
  obtain ⟨first, mem⟩ := waits.start_mem
  exact ⟨object.body, first, (List.mem_filter.mp mem).1⟩

/-- A request that is answered after it was sent twice, and another that the answer brings. -/
theorem plain_requests_live_two :
    let inputs : List (Input Unit) := [.send ⟨[1], MessageType.bindingRequest, (), 0⟩,
      .message 0 [], .elapse 100, .message 0 [],
      .response ⟨MessageType.bindingResponse, 0, [1], []⟩
        [⟨[2], MessageType.bindingRequest, (), 10000⟩]]
    let m := runInputs (step fun _ => getNextDelay) new inputs
    m.PlainLife 0 [1] () ∧ m.PlainLife 1 [2] () := by
  intro inputs m
  have fresh : Along (step fun _ => getNextDelay) FreshIds (new : Manager Unit) inputs := by decide
  have lives := (plain_requests_live fresh).1
  exact ⟨lives 0 [1] () 0 (by decide) rfl, lives 1 [2] () 10100 (by decide) rfl⟩

end Manager

end Libjingle.Stun.Resending
