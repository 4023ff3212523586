import Libjingle.Allocator.Moves
import Mathlib.Data.List.Nodup

/-!
# Which candidates a session has announced

A candidate of a live port is announced once its port is ready and the sequence of the
port has enabled its protocol, whichever comes last. Both scans pick the candidates that
the port has at that moment: a candidate that a port gets after both is never announced.
-/

namespace Libjingle.Allocator

open Libjingle.Std

variable {α : Type}

namespace Session

def announced (s : Session α) : List (Announcement α) := s.candidatesReady.flatten

/-- The port of the candidate lives and is ready, and the protocol of the candidate is enabled. -/
def Open (s : Session α) (a : Announcement α) : Prop :=
  ∃ pd ∈ s.ports, pd.port.serial = a.port ∧ pd.port.candidates[a.index]? = some a.candidate ∧
    pd.ready ∧ s.enables pd.sequence a.candidate.protocol

structure Sound (s : Session α) : Prop where
  numbered : s.Numbered
  distinct : s.serials.Nodup
  once : s.announced.Nodup
  known : ∀ a ∈ s.announced, a.port < s.portsAdded
  /-- Of the candidates of live ports, the open ones have been announced. -/
  gate : ∀ a, a.port ∈ s.serials → (a ∈ s.announced ↔ s.Open a)

theorem announced_signalCandidatesReady (s : Session α) (candidates : List (Announcement α)) :
    (s.signalCandidatesReady candidates).announced = s.announced ++ candidates := by
  unfold signalCandidatesReady
  split
  · next nothing => rw [nothing, List.append_nil]
  · exact List.flatten_concat

theorem mem_picked {pd : PortData α} {pick : Candidate α → Bool} {a : Announcement α} :
    a ∈ pd.picked pick ↔ pd.port.serial = a.port ∧
      pd.port.candidates[a.index]? = some a.candidate ∧ pick a.candidate := by
  simp only [PortData.picked, List.mem_map, List.mem_filter, Prod.exists]
  constructor
  · rintro ⟨c, i, ⟨there, picks⟩, rfl⟩
    exact ⟨rfl, List.mem_zipIdx_iff_getElem?.mp there, picks⟩
  · rintro ⟨serial, there, picks⟩
    refine ⟨a.candidate, a.index, ⟨List.mem_zipIdx_iff_getElem?.mpr there, picks⟩, ?_⟩
    rw [serial]

theorem nodup_picked (pd : PortData α) (pick : Candidate α → Bool) : (pd.picked pick).Nodup := by
  have indices : (pd.port.candidates.zipIdx.map Prod.snd).Nodup := by
    rw [List.zipIdx_map_snd]
    exact List.nodup_range' _
  have filtered : ((pd.port.candidates.zipIdx.filter fun c => pick c.1).map Prod.snd).Nodup :=
    indices.sublist (List.filter_sublist.map _)
  refine List.Nodup.of_map Announcement.index ?_
  rw [PortData.picked, List.map_map]
  exact filtered

theorem mem_candidatesOf {s : Session α} {seq : Nat} {proto : ProtocolType} {a : Announcement α} :
    a ∈ s.candidatesOf seq proto ↔ ∃ pd ∈ s.ports, pd.port.serial = a.port ∧
      pd.port.candidates[a.index]? = some a.candidate ∧ pd.ready ∧ pd.sequence = seq ∧
      stringToProto a.candidate.protocol = some proto := by
  rw [candidatesOf, List.mem_flatMap]
  refine exists_congr fun pd => and_congr_right fun _ => ?_
  split
  · next skipped =>
    rw [Bool.or_eq_true, Bool.not_eq_true', decide_eq_true_iff] at skipped
    constructor
    · nofun
    · rintro ⟨-, -, ready, same, -⟩
      exact absurd skipped (by simp [ready, same])
  · next scanned =>
    rw [Bool.or_eq_true, Bool.not_eq_true', decide_eq_true_iff, not_or, not_not,
      Bool.not_eq_false] at scanned
    simp [mem_picked, scanned]

theorem nodup_candidatesOf {s : Session α} (distinct : s.serials.Nodup) (seq : Nat)
    (proto : ProtocolType) : (s.candidatesOf seq proto).Nodup := by
  refine List.nodup_flatMap.mpr ⟨fun pd _ => ?_, ?_⟩
  · split
    · exact .nil
    · exact nodup_picked _ _
  · have apart := List.pairwise_map.mp distinct
    refine apart.imp fun {first second} different a one two => different ?_
    -- Both lists name the port they are from.
    have port {pd : PortData α} (member : a ∈ if !pd.ready || pd.sequence ≠ seq then []
        else pd.picked fun c => stringToProto c.protocol = some proto) :
        pd.port.serial = a.port := by
      split at member
      · cases member
      · exact (mem_picked.mp member).1
    exact (port one).trans (port two).symm

/-- The candidate is open in `t` because it was open, or it has just been announced. -/
structure Opening (s t : Session α) (new : List (Announcement α)) : Prop where
  serials : t.serials = s.serials
  portsAdded : t.portsAdded = s.portsAdded
  announced : t.announced = s.announced ++ new
  distinct : new.Nodup
  opened : ∀ a, t.Open a ↔ s.Open a ∨ a ∈ new
  closed : ∀ a ∈ new, ¬ s.Open a

theorem Open.live {s : Session α} {a : Announcement α} (isOpen : s.Open a) :
    a.port ∈ s.serials := by
  obtain ⟨pd, member, serial, -⟩ := isOpen
  exact serial ▸ List.mem_map_of_mem member

/-- To announce what has just been opened keeps the invariant. -/
theorem Sound.opening {s t : Session α} {new : List (Announcement α)} (sound : Sound s)
    (opening : Opening s t new) : Sound t where
  numbered serial member := by
    rw [opening.portsAdded]
    exact sound.numbered serial (opening.serials ▸ member)
  distinct := opening.serials ▸ sound.distinct
  once := by
    rw [opening.announced]
    refine sound.once.append opening.distinct fun a before isNew => ?_
    have live : a.port ∈ s.serials :=
      opening.serials ▸ ((opening.opened a).mpr (.inr isNew)).live
    exact opening.closed a isNew ((sound.gate a live).mp before)
  known a member := by
    rw [opening.portsAdded]
    rw [opening.announced, List.mem_append] at member
    obtain before | isNew := member
    · exact sound.known a before
    · exact sound.numbered _ (opening.serials ▸ ((opening.opened a).mpr (.inr isNew)).live)
  gate a live := by
    rw [opening.announced, List.mem_append, opening.opened,
      sound.gate a (opening.serials ▸ live)]

namespace Opening

variable {s t : Session α}

theorem quiet (quiet : Quiet s t) : Opening s t [] where
  serials := congrArg (List.map _) quiet.ports
  portsAdded := quiet.portsAdded
  announced := by rw [Session.announced, quiet.candidatesReady, List.append_nil]; rfl
  distinct := .nil
  opened a := by simp [Open, quiet.ports, quiet.enables]
  closed := nofun

/-- A change of ports that keeps the open candidates. -/
theorem modifyPort (serial : Nat) {f : PortData α → PortData α}
    (keeps : ∀ pd, (f pd).port.serial = pd.port.serial)
    (same : ∀ pd ∈ s.ports, pd.port.serial = serial → ∀ (i : Nat) (c : Candidate α),
      ((f pd).port.candidates[i]? = some c ∧ (f pd).ready ∧ s.enables (f pd).sequence c.protocol ↔
        pd.port.candidates[i]? = some c ∧ pd.ready ∧ s.enables pd.sequence c.protocol)) :
    Opening s (s.modifyPort serial f) [] where
  serials := serials_modifyPort s serial keeps
  portsAdded := rfl
  announced := (List.append_nil _).symm
  distinct := .nil
  opened a := by
    have enables (seq protocol) : (s.modifyPort serial f).enables seq protocol =
      s.enables seq protocol := rfl
    simp only [Open, enables, List.not_mem_nil, or_false]
    constructor
    · rintro ⟨pd, member, port, candidate⟩
      obtain ⟨old, live, rfl⟩ := List.mem_map.mp member
      refine ⟨old, live, ?_⟩
      split at port
      · next here =>
        rw [if_pos here] at candidate
        exact ⟨(keeps old).symm.trans port, (same old live here _ _).mp candidate⟩
      · next elsewhere =>
        rw [if_neg elsewhere] at candidate
        exact ⟨port, candidate⟩
    · rintro ⟨pd, member, port, candidate⟩
      refine ⟨_, List.mem_map_of_mem member, ?_⟩
      split
      · next here => exact ⟨(keeps pd).trans port, (same pd member here _ _).mpr candidate⟩
      · exact ⟨port, candidate⟩
  closed := nofun

theorem relayReady (s : Session α) (serial : Nat) :
    Opening s (s.modifyPort serial fun pd => { pd with port.relayReady := true }) [] :=
  .modifyPort serial (fun _ => rfl) fun _ _ _ _ _ => Iff.rfl

/-- A candidate of a closed port is not open. -/
theorem candidate {serial : Nat} (address : α) {protocol : String}
    (closed : s.Closed serial protocol) :
    Opening s (s.addAddress serial address protocol false) [] := by
  refine .modifyPort serial (fun _ => rfl) fun pd member here i c => ?_
  have shut := closed pd member here
  dsimp only
  rw [List.getElem?_append]
  constructor
  · rintro ⟨there, ready, enabled⟩
    split at there
    · exact ⟨there, ready, enabled⟩
    · obtain rfl : (⟨pd.port.name, protocol, address⟩ : Candidate α) = c := by
        rw [List.getElem?_singleton] at there
        split at there
        · exact Option.some.inj there
        · cases there
      exact absurd ⟨ready, enabled⟩ shut
  · rintro ⟨there, ready, enabled⟩
    have inside := (List.getElem?_eq_some_iff.mp there).1
    rw [if_pos inside]
    exact ⟨there, ready, enabled⟩

end Opening

/-- Live ports have different numbers. -/
theorem Sound.unique {s : Session α} (sound : Sound s) {pd pd' : PortData α}
    (first : pd ∈ s.ports) (second : pd' ∈ s.ports)
    (same : pd.port.serial = pd'.port.serial) : pd = pd' :=
  List.inj_on_of_nodup_map sound.distinct first second same

namespace Sound

variable {s : Session α}

/-- The candidates that `OnAddressReady` announces have just been opened. -/
theorem opening_ready (sound : Sound s) (serial : Nat) :
    ∃ new, Opening s (s.onAddressReady serial) new := by
  obtain same | ⟨pd, found, unready, same⟩ := onAddressReady_cases s serial
  · rw [same]
    exact ⟨[], .quiet (.of_sequences rfl rfl rfl rfl rfl rfl)⟩
  obtain ⟨live, rfl⟩ := findPort_eq_some found
  have only (pd') (member : pd' ∈ s.ports) (here : pd'.port.serial = pd.port.serial) : pd' = pd :=
    sound.unique member live here
  rw [same]
  refine ⟨_, ⟨?_, ?_, announced_signalCandidatesReady _ _, nodup_picked _ _, fun a => ?_, ?_⟩⟩
  · rw [serials, ports_signalCandidatesReady]
    exact serials_modifyPort s _ fun _ => rfl
  · exact portsAdded_signalCandidatesReady _ _
  · have enables (seq protocol) : enables (signalCandidatesReady
        { s.modifyPort pd.port.serial fun pd => { pd with ready := true } with
          portReady := s.portReady ++ [pd.port.serial] }
        (pd.picked fun c => s.enables pd.sequence c.protocol)) seq protocol =
        s.enables seq protocol := by
      simp only [Session.enables, sequences_signalCandidatesReady]
      rfl
    simp only [Open, enables, ports_signalCandidatesReady, mem_picked]
    constructor
    · rintro ⟨pd', member, port, candidate, ready, enabled⟩
      obtain ⟨old, oldLive, rfl⟩ := List.mem_map.mp member
      split at port
      · next here =>
        obtain rfl := only old oldLive here
        rw [if_pos rfl] at candidate enabled
        exact .inr ⟨port, candidate, enabled⟩
      · next elsewhere =>
        rw [if_neg elsewhere] at candidate ready enabled
        exact .inl ⟨old, oldLive, port, candidate, ready, enabled⟩
    · rintro (⟨old, oldLive, port, candidate, ready, enabled⟩ | ⟨port, candidate, enabled⟩)
      · refine ⟨_, List.mem_map_of_mem oldLive, ?_⟩
        split
        · exact ⟨port, candidate, rfl, enabled⟩
        · exact ⟨port, candidate, ready, enabled⟩
      · refine ⟨_, List.mem_map_of_mem live, ?_⟩
        rw [if_pos rfl]
        exact ⟨port, candidate, rfl, enabled⟩
  · rintro a picked ⟨pd', member, port, -, ready, -⟩
    obtain ⟨serial, -⟩ := mem_picked.mp picked
    rw [only pd' member (port.trans serial.symm), unready] at ready
    cases ready

/-- The candidates that `OnProtocolEnabled` announces have just been opened. -/
theorem opening_enable (sound : Sound s) {seq : Nat} (proto : ProtocolType)
    (made : seq < s.sequences.length) : ∃ new, Opening s (s.enableProtocol seq proto) new := by
  obtain same | ⟨disabled, same⟩ := enableProtocol_cases s seq proto
  · rw [same]
    exact ⟨[], .quiet (.of_sequences rfl rfl rfl rfl rfl rfl)⟩
  have enables_iff (seq' protocol) : (s.enableProtocol seq proto).enables seq' protocol ↔
      s.enables seq' protocol ∨ seq' = seq ∧ stringToProto protocol = some proto := by
    rw [same]
    simp only [Session.enables, sequences_signalCandidatesReady, modifySequence,
      List.getElem?_modify]
    cases stringToProto protocol with
    | none => simp
    | some p =>
      by_cases here : seq = seq'
      · subst here
        obtain ⟨q, found⟩ : ∃ q, s.sequences[seq]? = some q := ⟨_, List.getElem?_eq_getElem made⟩
        simp [found, AllocationSequence.protocolEnabled]
      · simp [here, Ne.symm here]
  have ports : (s.enableProtocol seq proto).ports = s.ports := by
    rw [same, ports_signalCandidatesReady]
    rfl
  refine ⟨s.candidatesOf seq proto, congrArg (List.map _) ports, ?_, ?_,
    nodup_candidatesOf sound.distinct seq proto, fun a => ?_, fun a isNew => ?_⟩
  · rw [same, portsAdded_signalCandidatesReady]
    rfl
  · rw [same]
    exact announced_signalCandidatesReady _ _
  · rw [mem_candidatesOf, Open, Open, ports, ← exists_or]
    refine exists_congr fun pd => ?_
    rw [enables_iff]
    tauto
  · rintro ⟨pd, member, port, -, -, enabled⟩
    obtain ⟨pd', member', port', -, -, rfl, named⟩ := mem_candidatesOf.mp isNew
    obtain rfl := sound.unique member member' (port.trans port'.symm)
    rw [Session.enables, named, Option.any_some, disabled] at enabled
    cases enabled

theorem open_addAllocatedPort (s : Session α) (seq : Nat) (a : Announcement α) :
    (s.addAllocatedPort seq).Open a ↔ s.Open a := by
  constructor
  · rintro ⟨pd, member, port, candidate, gates⟩
    obtain old | new := List.mem_append.mp member
    · exact ⟨pd, old, port, candidate, gates⟩
    · -- The new port has no candidates.
      obtain rfl := List.mem_singleton.mp new
      exact absurd candidate nofun
  · rintro ⟨pd, member, gates⟩
    exact ⟨pd, List.mem_append_left _ member, gates⟩

theorem addAllocatedPort (sound : Sound s) (seq : Nat) : Sound (s.addAllocatedPort seq) where
  numbered := (Move.port s seq : Move True s _).numbered sound.numbered
  distinct := by
    have new : s.portsAdded ∉ s.serials := fun member => absurd (sound.numbered _ member) (by simp)
    have added : (s.addAllocatedPort seq).serials = s.serials ++ [s.portsAdded] := List.map_append
    rw [added]
    exact sound.distinct.append (List.nodup_singleton _) (by simpa using new)
  once := sound.once
  known a member := Nat.lt_succ_of_lt (sound.known a member)
  gate a live := by
    rw [open_addAllocatedPort]
    by_cases old : a.port ∈ s.serials
    · exact sound.gate a old
    · have number : a.port = s.portsAdded := by
        have added : (s.addAllocatedPort seq).serials = s.serials ++ [s.portsAdded] :=
          List.map_append
        rw [added] at live
        simpa [old] using live
      constructor
      · intro member
        exact absurd (sound.known a member) (by omega)
      · exact fun isOpen => absurd isOpen.live old

theorem onPortDestroyed (sound : Sound s) (serial : Nat) : Sound (s.onPortDestroyed serial) := by
  have kept : (s.onPortDestroyed serial).serials.Sublist s.serials := List.filter_sublist.map _
  refine ⟨fun k member => sound.numbered k (kept.subset member), sound.distinct.sublist kept,
    sound.once, sound.known, fun a live => ?_⟩
  have other : a.port ≠ serial := by
    obtain ⟨pd, member, port⟩ := List.mem_map.mp live
    exact port ▸ of_decide_eq_true (List.mem_filter.mp member).2
  refine (sound.gate a (kept.subset live)).trans ⟨?_, ?_⟩
  · rintro ⟨pd, member, port, gates⟩
    exact ⟨pd, List.mem_filter.mpr ⟨member, decide_eq_true (port ▸ other)⟩, port, gates⟩
  · rintro ⟨pd, member, gates⟩
    exact ⟨pd, (List.mem_filter.mp member).1, gates⟩

end Sound

/-- What `t` has announced beyond `s` is open in `t`, and what was open stays open. -/
def Grows (s t : Session α) : Prop :=
  ∃ new, t.announced = s.announced ++ new ∧ ∀ a, s.Open a ∨ a ∈ new → t.Open a

theorem Opening.grows {s t : Session α} {new : List (Announcement α)} (opening : Opening s t new) :
    Grows s t :=
  ⟨new, opening.announced, fun a => (opening.opened a).mpr⟩

theorem Grows.trans {s t u : Session α} (first : Grows s t) (second : Grows t u) : Grows s u := by
  obtain ⟨new, announced, isOpen⟩ := first
  obtain ⟨more, announced', isOpen'⟩ := second
  refine ⟨new ++ more, by rw [announced', announced, List.append_assoc], fun a => ?_⟩
  rw [List.mem_append, ← or_assoc]
  exact fun before => isOpen' a (before.imp_left (isOpen a))

theorem Move.sound {s t : Session α} (move : Move True s t) (sound : Sound s) :
    Sound t ∧ Grows s t := by
  cases move with
  | quiet quiet => exact ⟨sound.opening (.quiet quiet), (Opening.quiet quiet).grows⟩
  | relayReady serial =>
    have opening := Opening.relayReady s serial
    exact ⟨sound.opening opening, opening.grows⟩
  | port seq =>
    refine ⟨sound.addAllocatedPort seq, [], (List.append_nil _).symm, fun a => ?_⟩
    rintro (isOpen | none)
    · exact (Sound.open_addAllocatedPort s seq a).mpr isOpen
    · cases none
  | candidate address closed =>
    have opening := Opening.candidate address (closed trivial)
    exact ⟨sound.opening opening, opening.grows⟩
  | ready serial =>
    obtain ⟨new, opening⟩ := sound.opening_ready serial
    exact ⟨sound.opening opening, opening.grows⟩
  | enable proto made =>
    obtain ⟨new, opening⟩ := sound.opening_enable proto made
    exact ⟨sound.opening opening, opening.grows⟩

theorem Moves.sound {s t : Session α} (moves : Moves True s t) (sound : Sound s) :
    Sound t ∧ Grows s t := by
  induction moves with
  | refl => exact ⟨sound, [], (List.append_nil _).symm, by simp⟩
  | tail _ move ih =>
    obtain ⟨sound', grows⟩ := move.sound ih.1
    exact ⟨sound', ih.2.trans grows⟩

section Runs

variable [DecidableEq α]

theorem Sound.step {s : Session α} {step : Step α} (sound : Sound s) (timely : s.Timely step) :
    Sound (s.step step) ∧ ∃ new, (s.step step).announced = s.announced ++ new ∧
      ∀ a ∈ new, (s.step step).Open a := by
  cases step with
  | call call =>
    have begun : Sound { s with running := call.getting s.running } :=
      ⟨sound.numbered, sound.distinct, sound.once, sound.known, sound.gate⟩
    obtain ⟨sound', new, announced, isOpen⟩ := (call_moves True sound.numbered call).sound begun
    exact ⟨sound', new, announced, fun a member => isOpen a (.inr member)⟩
  | event event =>
    obtain ⟨serial, rfl⟩ | moves := event_cases True sound.numbered fun _ => timely
    · exact ⟨sound.onPortDestroyed serial, [], (List.append_nil _).symm, nofun⟩
    · obtain ⟨sound', new, announced, isOpen⟩ := moves.sound sound
      exact ⟨sound', new, announced, fun a member => isOpen a (.inr member)⟩

omit [DecidableEq α] in
theorem Sound.start (name : String) (flags : Flags) (allocator : BasicPortAllocator α) :
    Sound (start name flags allocator) :=
  ⟨nofun, .nil, .nil, nofun, nofun⟩

/-- Each candidate of a live port whose two gates are open has been announced once, and no other
candidate of a live port has been announced. -/
def AnnouncesOnce (s : Session α) : Prop :=
  ∀ pd ∈ s.ports, ∀ a : Announcement α, a.port = pd.port.serial →
    s.announced.count a = if pd.port.candidates[a.index]? = some a.candidate ∧ pd.ready ∧
      s.enables pd.sequence a.candidate.protocol then 1 else 0

theorem Sound.announcesOnce {s : Session α} (sound : Sound s) : s.AnnouncesOnce := by
  intro pd member a port
  have gate := sound.gate a (port ▸ List.mem_map_of_mem member)
  split
  · next isOpen =>
    exact List.count_eq_one_of_mem sound.once (gate.mpr ⟨pd, member, port.symm, isOpen⟩)
  · next shut =>
    refine List.count_eq_zero.mpr fun before => shut ?_
    obtain ⟨pd', member', port', isOpen⟩ := gate.mp before
    obtain rfl := sound.unique member member' (port.symm.trans port'.symm)
    exact isOpen

theorem Sound.run {s : Session α} {steps : List (Step α)} (sound : Sound s)
    (timely : Along Session.step Timely s steps) : Sound (runInputs Session.step s steps) :=
  timely.invariant (fun _ _ timely sound => (sound.step timely).1) sound

/-- In a run in which no port gets a candidate after both of its gates have opened, every
candidate of a live port is announced exactly once when its gates are open, and what a step
announces is open after it. -/
theorem announced_exactly_once (name : String) (flags : Flags) (allocator : BasicPortAllocator α)
    (steps : List (Step α))
    (timely : Along Session.step Timely (start name flags allocator) steps) :
    (runInputs Session.step (start name flags allocator) steps).AnnouncesOnce ∧
      ∀ before last after, steps = before ++ last :: after →
        ∃ new, (runInputs Session.step (start name flags allocator) (before ++ [last])).announced =
          (runInputs Session.step (start name flags allocator) before).announced ++ new ∧
          ∀ a ∈ new,
            (runInputs Session.step (start name flags allocator) (before ++ [last])).Open a := by
  have sound := Sound.start name flags allocator
  refine ⟨(sound.run timely).announcesOnce, ?_⟩
  rintro before last after rfl
  have upTo : Along Session.step Timely (Session.start name flags allocator) (before ++ [last]) := by
    have whole : Along Session.step Timely (Session.start name flags allocator)
        (before ++ [last] ++ after) := by
      rwa [List.append_assoc]
    exact whole.front
  rw [runInputs_append]
  exact ((sound.run upTo.front).step upTo.last).2

end Runs

/-- An allocator with one relay server, which has been writable at the relay phase. -/
def relayAllocator : BasicPortAllocator Nat where
  relayAddressUdp := some 9
  bestWritable := some 1

/-- One network with a UDP port and a relay port, whose relay has given it an address. -/
def relayConnected : List (Step Nat) :=
  [.call .getInitialPorts, .event (.networksChanged []), .event (.handle 0 [] {}),
    .event (.handle 0 [] {}),
    .event (.handle 0 [(⟨0, 4⟩, { udp := some (some 5), relays := [true] })] {}),
    .event (.relayConnect 1 20)]

theorem announced_exactly_once_relay :
    (runInputs Session.step (start "rtp" {} relayAllocator) relayConnected).AnnouncesOnce :=
  (announced_exactly_once "rtp" {} relayAllocator relayConnected (by decide +kernel)).1

/-- The second entry of the relay port connects after the port is ready: its address is a
candidate of the port that is never announced. -/
theorem later_entry_unannounced : ¬ ∀ steps : List (Step Nat),
    (runInputs Session.step (start "rtp" {} relayAllocator) steps).AnnouncesOnce := by
  intro every
  have once := every (relayConnected ++ [.event (.relayConnect 1 21)])
  have port : ∃ pd ∈ (runInputs Session.step (start "rtp" {} relayAllocator)
      (relayConnected ++ [.event (.relayConnect 1 21)])).ports, pd.port.serial = 1 ∧
      pd.port.candidates[2]? = some ⟨"rtp", "udp", 21⟩ ∧ pd.ready ∧
      enables (runInputs Session.step (start "rtp" {} relayAllocator)
        (relayConnected ++ [.event (.relayConnect 1 21)])) pd.sequence "udp" := by
    decide +kernel
  have unannounced : (runInputs Session.step (start "rtp" {} relayAllocator)
      (relayConnected ++ [.event (.relayConnect 1 21)])).announced.count
        ⟨1, 2, ⟨"rtp", "udp", 21⟩⟩ = 0 := by
    decide +kernel
  obtain ⟨pd, member, number, isOpen⟩ := port
  have counted := once pd member ⟨1, 2, ⟨"rtp", "udp", 21⟩⟩ number.symm
  rw [unannounced, if_pos isOpen] at counted
  cases counted

end Session

end Libjingle.Allocator
