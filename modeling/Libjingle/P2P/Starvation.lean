import Libjingle.P2P.Pruning
import Libjingle.P2P.Stamps
import Mathlib.Data.Finset.Card

/-!
# Which connection is pinged

`OnPing` pings the connection that was pinged longest ago, unless the best connection is writable
and was not pinged for 900 milliseconds. As the timer runs every 10 seconds, such a best connection
is pinged every time. Where it does not push forward, and the clock does not wrap, every connection
has its turn.
-/

namespace Libjingle.P2P

open Libjingle.Std

variable {ρ : Type}

namespace Channel

/-- The connections that are considered for a ping. -/
def pingables (ch : Channel ρ) : Finset Nat :=
  ((ch.connections.filter fun c => ch.isPingable c).map (·.id)).toFinset

theorem mem_pingables {ch : Channel ρ} {id : Nat} :
    id ∈ ch.pingables ↔ ∃ c ∈ ch.connections, ch.isPingable c = true ∧ c.id = id := by
  simp [pingables, and_assoc]

/-! ## The oldest one -/

/-- The scan finds a connection, none of them being older, unless all were pinged too late. -/
theorem oldestPingable_spec (ch : Channel ρ) (l : List (Connection ρ)) (oldest : Option Nat)
    (time : UInt32) :
    (ch.oldestPingable l oldest time = oldest ∧
      ∀ c ∈ l, ch.isPingable c = true → time.toNat ≤ c.lastPingSent.toNat) ∨
    ∃ c ∈ l, ch.isPingable c = true ∧ ch.oldestPingable l oldest time = some c.id ∧
      c.lastPingSent.toNat < time.toNat ∧
      ∀ c' ∈ l, ch.isPingable c' = true → c.lastPingSent.toNat ≤ c'.lastPingSent.toNat := by
  induction l generalizing oldest time with
  | nil => exact .inl ⟨rfl, fun _ mem => absurd mem List.not_mem_nil⟩
  | cons first rest ih =>
    unfold oldestPingable
    split
    · next older =>
      obtain ⟨pingable, older⟩ := older
      have older := UInt32.lt_iff_toNat_lt.mp older
      right
      rcases ih (some first.id) first.lastPingSent with ⟨result, late⟩ | ⟨c, mem, is, result, lt, least⟩
      · refine ⟨first, List.mem_cons_self, pingable, result, older, fun c' mem' is' => ?_⟩
        rcases List.mem_cons.mp mem' with rfl | mem'
        · exact le_rfl
        · exact late c' mem' is'
      · refine ⟨c, List.mem_cons_of_mem _ mem, is, result, lt.trans older, fun c' mem' is' => ?_⟩
        rcases List.mem_cons.mp mem' with rfl | mem'
        · exact lt.le
        · exact least c' mem' is'
    · next passed =>
      have late : ch.isPingable first = true → time.toNat ≤ first.lastPingSent.toNat := by
        intro pingable
        by_contra older
        exact passed ⟨pingable, UInt32.lt_iff_toNat_lt.mpr (not_le.mp older)⟩
      rcases ih oldest time with ⟨result, lates⟩ | ⟨c, mem, is, result, lt, least⟩
      · exact .inl ⟨result, List.forall_mem_cons.mpr ⟨late, lates⟩⟩
      · refine .inr ⟨c, List.mem_cons_of_mem _ mem, is, result, lt, List.forall_mem_cons.mpr ⟨?_, least⟩⟩
        exact fun pingable => (lt.le).trans (late pingable)

/-! ## Stamps -/

/-- When the connection with an id was pinged last. -/
def sentAt (ch : Channel ρ) (id : Nat) : Option UInt32 :=
  (ch.find id).map (·.lastPingSent)

theorem sentAt_eq {ch : Channel ρ} (valid : ch.Valid) {c : Connection ρ} (mem : c ∈ ch.connections) :
    ch.sentAt c.id = some c.lastPingSent := by
  unfold sentAt
  rw [(find_eq_some_iff valid.nodup).mpr ⟨mem, rfl⟩]
  rfl

theorem Keeps.sentAt {ch ch' : Channel ρ} (keeps : Keeps ch ch') (valid : ch.Valid)
    (valid' : ch'.Valid) {id : Nat} (old : id < ch.nextConnection) (mem : id ∈ ch'.ids) :
    ch'.sentAt id = ch.sentAt id := by
  obtain ⟨c', listed', rfl⟩ := List.mem_map.mp mem
  rcases keeps.sent c' listed' with ⟨c, listed, same⟩ | fresh
  · have named : c'.id = c.id := congrArg Prod.fst same
    rw [sentAt_eq valid' listed', named, sentAt_eq valid listed]
    exact congrArg some (congrArg Prod.snd same)
  · exact absurd old (not_lt.mpr fresh)

theorem sentAt_modify_ping {ch : Channel ρ} {pinged : Nat} (mem : pinged ∈ ch.ids)
    (request : Nat) (now : UInt32) (id : Nat) :
    (ch.modify pinged (·.ping request now)).sentAt id =
      if id = pinged then some now else ch.sentAt id := by
  have found := find_map ch (fun c => if c.id = pinged then c.ping request now else c)
    (fun c => by split <;> rfl) id
  have mapped : (ch.modify pinged (·.ping request now)).find id = _ := found
  unfold sentAt
  rw [mapped]
  cases is : ch.find id with
  | none =>
    split
    · next same =>
      subst same
      obtain ⟨c, listed, named⟩ := List.mem_map.mp mem
      unfold find at is
      exact absurd named (by simpa using List.find?_eq_none.mp is c listed)
    · rfl
  | some c =>
    have named : c.id = id := by simpa using List.find?_some is
    simp only [Option.map_some, named]
    split <;> rfl

end Channel

/-! ## Ticks of the timer -/

open Channel

/-- The delay with which `OnPing` posts the next ping. -/
def onPingDelay : UInt32 := 10000

/-- A channel, and when its timer runs next. -/
structure Pinger (ρ : Type) where
  channel : Channel ρ
  now : UInt32

/-- What happens up to a tick of the timer, and the id of the request that the tick sends. -/
structure Tick (ρ : Type) where
  between : List (Stimulus ρ)
  request : Nat

namespace Pinger

variable [Mul ρ] [LT ρ] [DecidableLT ρ]

def waited (p : Pinger ρ) (tick : Tick ρ) : Channel ρ :=
  runInputs Channel.step p.channel tick.between

/-- The channel from which a connection is chosen. -/
def due (p : Pinger ρ) (tick : Tick ρ) : Channel ρ :=
  (p.waited tick).updateConnectionStates p.now

/-- The connection that is pinged. -/
def pinged (p : Pinger ρ) (tick : Tick ρ) : Option Nat :=
  (p.due tick).findNextPingableConnection p.now

def step (p : Pinger ρ) (tick : Tick ρ) : Pinger ρ where
  channel := (p.waited tick).step ⟨.ping tick.request, p.now⟩
  now := p.now + onPingDelay

/-- A connection is pinged at one of the ticks. -/
def PingedIn (id : Nat) : Pinger ρ → List (Tick ρ) → Prop
  | _, [] => False
  | p, tick :: rest => p.pinged tick = some id ∨ PingedIn id (p.step tick) rest

instance decidablePingedIn (id : Nat) :
    (p : Pinger ρ) → (ticks : List (Tick ρ)) → Decidable (PingedIn id p ticks)
  | _, [] => .isFalse not_false
  | p, tick :: rest =>
      have : Decidable (PingedIn id (p.step tick) rest) := decidablePingedIn id (p.step tick) rest
      inferInstanceAs (Decidable (_ ∨ _))

/-- The timer alone makes pings, and the connections to be pinged are the same at every tick. -/
structure Steady (pingables : Finset Nat) (p : Pinger ρ) (tick : Tick ρ) : Prop where
  own : ∀ stimulus ∈ tick.between, isPing stimulus.event = false
  same : (p.due tick).pingables = pingables

/-- The clock has not wrapped since any of the connections was pinged, and a best connection that
is pinged out of turn would have its turn anyway. -/
structure Fair (p : Pinger ρ) (tick : Tick ρ) : Prop where
  behind : ∀ c ∈ (p.due tick).connections, (p.due tick).isPingable c = true →
    c.lastPingSent ≤ p.now ∧ c.lastPingSent < 0xFFFFFFFF
  turn : ∀ best ∈ (p.due tick).best, best.writeState = .writable →
    best.lastPingSent + maxCurrentWritableDelay ≤ p.now →
    (p.due tick).isPingable best = true ∧ ∀ c ∈ (p.due tick).connections,
      (p.due tick).isPingable c = true → best.lastPingSent ≤ c.lastPingSent

instance (pingables : Finset Nat) (p : Pinger ρ) (tick : Tick ρ) :
    Decidable (Steady pingables p tick) :=
  decidable_of_iff ((∀ stimulus ∈ tick.between, isPing stimulus.event = false) ∧
      (p.due tick).pingables = pingables)
    ⟨fun ⟨own, same⟩ => ⟨own, same⟩, fun steady => ⟨steady.own, steady.same⟩⟩

instance (p : Pinger ρ) (tick : Tick ρ) : Decidable (Fair p tick) :=
  decidable_of_iff ((∀ c ∈ (p.due tick).connections, (p.due tick).isPingable c = true →
      c.lastPingSent ≤ p.now ∧ c.lastPingSent < 0xFFFFFFFF) ∧
    ∀ best ∈ (p.due tick).best, best.writeState = .writable →
      best.lastPingSent + maxCurrentWritableDelay ≤ p.now →
      (p.due tick).isPingable best = true ∧ ∀ c ∈ (p.due tick).connections,
        (p.due tick).isPingable c = true → best.lastPingSent ≤ c.lastPingSent)
    ⟨fun ⟨behind, turn⟩ => ⟨behind, turn⟩, fun fair => ⟨fair.behind, fair.turn⟩⟩

variable {pingables : Finset Nat} {p : Pinger ρ} {tick : Tick ρ}

theorem valid_waited (valid : p.channel.Valid) (tick : Tick ρ) : (p.waited tick).Valid := by
  unfold waited
  generalize p.channel = ch at valid
  induction tick.between generalizing ch with
  | nil => exact valid
  | cons stimulus rest ih => exact ih _ (valid.step stimulus)

theorem valid_due (valid : p.channel.Valid) (tick : Tick ρ) : (p.due tick).Valid :=
  (sameMembers_updateConnectionStates _ _).valid (valid_waited valid tick)

theorem valid_step (valid : p.channel.Valid) (tick : Tick ρ) : (p.step tick).channel.Valid :=
  (valid_waited valid tick).step ⟨.ping tick.request, p.now⟩

/-- One of the connections that wait longest is pinged. -/
theorem pinged_oldest (steady : Steady pingables p tick) (fair : Fair p tick)
    (some : pingables.Nonempty) :
    ∃ c ∈ (p.due tick).connections, (p.due tick).isPingable c = true ∧ p.pinged tick = .some c.id ∧
      ∀ c' ∈ (p.due tick).connections, (p.due tick).isPingable c' = true →
        c.lastPingSent.toNat ≤ c'.lastPingSent.toNat := by
  obtain ⟨id, mem⟩ := some
  rw [← steady.same, mem_pingables] at mem
  obtain ⟨candidate, listed, pingable, -⟩ := mem
  have scanned : ∃ c ∈ (p.due tick).connections, (p.due tick).isPingable c = true ∧
      (p.due tick).oldestPingable (p.due tick).connections none 0xFFFFFFFF = .some c.id ∧
      ∀ c' ∈ (p.due tick).connections, (p.due tick).isPingable c' = true →
        c.lastPingSent.toNat ≤ c'.lastPingSent.toNat := by
    rcases (p.due tick).oldestPingable_spec (p.due tick).connections none 0xFFFFFFFF with
      ⟨-, late⟩ | ⟨c, mem, is, result, -, least⟩
    · have before := UInt32.lt_iff_toNat_lt.mp (fair.behind candidate listed pingable).2
      exact absurd before (not_lt.mpr (late candidate listed pingable))
    · exact ⟨c, mem, is, result, least⟩
  unfold pinged findNextPingableConnection
  cases best : (p.due tick).best with
  | none => exact scanned
  | some b =>
    simp only
    split
    · next pushed =>
      obtain ⟨is, least⟩ := fair.turn b best pushed.1 pushed.2
      exact ⟨b, mem_of_best best, is, rfl, fun c mem is => UInt32.le_iff_toNat_le.mp (least c mem is)⟩
    · exact scanned

/-- A tick sets one stamp, and the time up to the next one sets none. -/
theorem sentAt_due_step {next : Tick ρ} (valid : p.channel.Valid) (steady : Steady pingables p tick)
    (steady' : Steady pingables (p.step tick) next) {chosen : Nat}
    (pinged : p.pinged tick = some chosen) (listed : chosen ∈ (p.due tick).ids) {id : Nat}
    (mem : id ∈ pingables) :
    ((p.step tick).due next).sentAt id =
      if id = chosen then some p.now else (p.due tick).sentAt id := by
  have after : (p.step tick).channel = (p.due tick).modify chosen (·.ping tick.request p.now) := by
    have stepped : (p.step tick).channel = (p.waited tick).onPing tick.request p.now := rfl
    have choice : ((p.waited tick).updateConnectionStates p.now).findNextPingableConnection p.now =
        some chosen := pinged
    rw [stepped]
    unfold onPing
    simp only [choice]
    rfl
  have validDue := valid_due valid tick
  have same := sameMembers_modify (p.due tick) chosen (·.ping tick.request p.now)
    fun c => c.ping_identity tick.request p.now
  rw [← after] at same
  have keeps : Keeps (p.step tick).channel ((p.step tick).due next) :=
    (Keeps.run _ steady'.own).trans (Keeps.updateConnectionStates _ _)
  obtain ⟨c, listedC, -, rfl⟩ := mem_pingables.mp (steady.same ▸ mem)
  obtain ⟨c', listedC', -, named⟩ := mem_pingables.mp (steady'.same ▸ mem)
  have old : c.id < (p.step tick).channel.nextConnection := by
    rw [same.next]
    exact validDue.fresh _ (List.mem_map_of_mem listedC)
  have here : c.id ∈ ((p.step tick).due next).ids := named ▸ List.mem_map_of_mem listedC'
  rw [keeps.sentAt (valid_step valid tick) (valid_due (valid_step valid tick) next) old here, after,
    sentAt_modify_ping listed]

/-- The stamp that a tick sets is not ahead of the clock at the next one, which has moved on. -/
theorem now_lt_step {next : Tick ρ} (valid : p.channel.Valid) (steady : Steady pingables p tick)
    (fair : Fair p tick) (steady' : Steady pingables (p.step tick) next)
    (fair' : Fair (p.step tick) next) (some : pingables.Nonempty) :
    p.now.toNat < (p.step tick).now.toNat := by
  obtain ⟨c, listed, pingable, pinged, -⟩ := pinged_oldest steady fair some
  have memC : c.id ∈ pingables := steady.same ▸ mem_pingables.mpr ⟨c, listed, pingable, rfl⟩
  have set := sentAt_due_step valid steady steady' pinged (List.mem_map_of_mem listed) memC
  obtain ⟨c', listed', pingable', named⟩ := mem_pingables.mp (steady'.same ▸ memC)
  rw [if_pos rfl, ← named, sentAt_eq (valid_due (valid_step valid tick) next) listed'] at set
  have le := UInt32.le_iff_toNat_le.mp (fair'.behind c' listed' pingable').1
  rw [Option.some.inj set] at le
  have moved : (p.step tick).now.toNat = (p.now.toNat + 10000) % 2 ^ 32 := UInt32.toNat_add _ _
  omega

/-- The connections that are to be pinged before one of them, or with it. -/
def ahead (pingables : Finset Nat) (stamp : Nat → UInt32) (id : Nat) : Finset Nat :=
  pingables.filter fun other => (stamp other).toNat ≤ (stamp id).toNat

/-- A connection that is not pinged has ever fewer ahead of it. -/
theorem length_le_ahead {ticks : List (Tick ρ)} {stamp : Nat → UInt32} {id : Nat}
    (valid : p.channel.Valid) (steady : Along step (Steady pingables) p ticks)
    (fair : Along step Fair p ticks)
    (stamps : ∀ tick ∈ ticks.head?, ∀ other ∈ pingables,
      (p.due tick).sentAt other = some (stamp other))
    (mem : id ∈ pingables) (before : ticks ≠ [] → (stamp id).toNat < p.now.toNat)
    (missed : ¬PingedIn id p ticks) : ticks.length ≤ (ahead pingables stamp id).card := by
  induction ticks generalizing p stamp with
  | nil => exact Nat.zero_le _
  | cons tick rest ih =>
    obtain ⟨steady, steadyRest⟩ := steady
    obtain ⟨fair, fairRest⟩ := fair
    obtain ⟨notNow, notLater⟩ := not_or.mp missed
    have stamped := stamps tick rfl
    have behind := before (List.cons_ne_nil _ _)
    have validDue := valid_due valid tick
    have stampOf : ∀ c ∈ (p.due tick).connections, (p.due tick).isPingable c = true →
        c.lastPingSent = stamp c.id := by
      intro c listed pingable
      have mem : c.id ∈ pingables := steady.same ▸ mem_pingables.mpr ⟨c, listed, pingable, rfl⟩
      exact Option.some.inj ((sentAt_eq validDue listed).symm.trans (stamped c.id mem))
    obtain ⟨c, listed, pingable, pinged, least⟩ := pinged_oldest steady fair ⟨id, mem⟩
    have memC : c.id ∈ pingables := steady.same ▸ mem_pingables.mpr ⟨c, listed, pingable, rfl⟩
    have other : id ≠ c.id := fun same => notNow (same ▸ pinged)
    have first : (stamp c.id).toNat ≤ (stamp id).toNat := by
      obtain ⟨target, listedId, pingableId, rfl⟩ := mem_pingables.mp (steady.same ▸ mem)
      rw [← stampOf c listed pingable, ← stampOf target listedId pingableId]
      exact least target listedId pingableId
    let stamp' : Nat → UInt32 := fun x => if x = c.id then p.now else stamp x
    have shorter : ahead pingables stamp' id ⊆ (ahead pingables stamp id).erase c.id := by
      intro x memX
      obtain ⟨memX, le⟩ := Finset.mem_filter.mp memX
      simp only [stamp', if_neg other] at le
      by_cases isChosen : x = c.id
      · rw [if_pos isChosen] at le
        omega
      · rw [if_neg isChosen] at le
        exact Finset.mem_erase.mpr ⟨isChosen, Finset.mem_filter.mpr ⟨memX, le⟩⟩
    have memAhead : c.id ∈ ahead pingables stamp id := Finset.mem_filter.mpr ⟨memC, first⟩
    have card := (Finset.card_le_card shorter).trans_eq (Finset.card_erase_of_mem memAhead)
    have pos : 0 < (ahead pingables stamp id).card := Finset.card_pos.mpr ⟨_, memAhead⟩
    have stamps' : ∀ next ∈ rest.head?, ∀ x ∈ pingables,
        ((p.step tick).due next).sentAt x = some (stamp' x) := by
      intro next isNext x memX
      obtain ⟨later, rfl⟩ := List.head?_eq_some_iff.mp isNext
      rw [sentAt_due_step valid steady steadyRest.1 pinged (List.mem_map_of_mem listed) memX]
      simp only [stamp']
      split
      · rfl
      · exact stamped x memX
    have before' : rest ≠ [] → (stamp' id).toNat < (p.step tick).now.toNat := by
      intro more
      obtain ⟨next, others, rfl⟩ := List.exists_cons_of_ne_nil more
      have later := now_lt_step valid steady fair steadyRest.1 fairRest.1 ⟨id, mem⟩
      simp only [stamp', if_neg other]
      exact behind.trans later
    have length := ih (valid_step valid tick) steadyRest fairRest stamps' before' notLater
    rw [List.length_cons]
    omega

def connectionOf (id : Nat) (writeState : WriteState) : Connection Nat :=
  { Connection.new id ⟨0, 0, 1, 0, fun _ _ => some true⟩
      ⟨"rtp", "udp", .nil, 1, "", "", "local", 0⟩ true with writeState := writeState }

/-- The best connection is writable, and there may be others. -/
def pingerOf (others : List (Connection Nat)) : Pinger Nat where
  channel :=
    { new false with
      connections := connectionOf 0 .writable :: others
      bestConnection := some 0
      nextConnection := others.length + 1
      writable := true }
  now := 1000000

/-- Each ping of the best connection is answered before the next one. -/
def answered (request : Nat) : Tick Nat :=
  ⟨[⟨.packet 0 (.bindingResponse request), 1000000⟩], request + 1⟩

end Pinger

end Libjingle.P2P
