import Libjingle.Channels.Transport
import Libjingle.Std.Trace

/-!
# Connecting the channels of a transport

`ConnectChannels` is to connect all current and future channels, each once, and from
then on the candidates of the channels are passed on. Two calls break this. The
request is dropped when there is no channel yet, and creating a channel of a name
already in use connects the channel again, and connects the transport's handlers again
to its signals.
-/

namespace Libjingle.Channels

open Libjingle.Std

variable {σ γ : Type}

/-- A transport and what its user has seen. -/
structure ObservedTransport (σ γ : Type) where
  transport : Transport σ γ := {}
  /-- `ConnectChannels` has been called. -/
  asked : Bool := false
  /-- The candidates that channels have reported, in order. -/
  reported : List γ := []
  /-- The candidates in `SignalCandidatesReady`, in order. -/
  passed : List γ := []

inductive TransportStep (γ : Type) where
  | createChannel (name contentType : String)
  | destroyChannel (name : String)
  | connectChannels
  /-- The channel of this name reports a candidate. -/
  | candidateReady (name : String) (candidate : γ)
  | signalingTurn
deriving DecidableEq

def TransportSignal.candidates : TransportSignal γ → List γ
  | .candidatesReady candidates => candidates
  | _ => []

/-- One message passes the candidates that are ready. -/
theorem Transport.passed_candidateReady (t : Transport σ γ) :
    (t.onMessage .candidateReady).1.flatMap TransportSignal.candidates = t.readyCandidates := by
  simp only [Transport.onMessage]
  split
  · simp [TransportSignal.candidates]
  · next empty => simp [not_not.mp empty]

/-- The other messages pass none, and only the transport's own state may change. -/
theorem Transport.onMessage_other (t : Transport σ γ) {id : MessageId} (other : id ≠ .candidateReady) :
    (t.onMessage id).1.flatMap TransportSignal.candidates = [] ∧
      ∃ readable writable, (t.onMessage id).2 = { t with readable, writable } := by
  cases id with
  | candidateReady => exact absurd rfl other
  | readState =>
    refine ⟨?_, t.getTransportState true, t.writable, rfl⟩
    simp only [Transport.onMessage]
    split <;> rfl
  | writeState =>
    refine ⟨?_, t.readable, t.getTransportState false, rfl⟩
    simp only [Transport.onMessage]
    split <;> rfl
  | connecting => exact ⟨rfl, t.readable, t.writable, rfl⟩

namespace ObservedTransport

def step (o : ObservedTransport σ γ) : TransportStep γ → ObservedTransport σ γ
  | .createChannel name contentType =>
    { o with transport := o.transport.createChannel name contentType }
  | .destroyChannel name => { o with transport := o.transport.destroyChannel name }
  | .connectChannels => { o with transport := o.transport.connectChannels, asked := true }
  | .candidateReady name candidate =>
    { o with
      transport := o.transport.signalCandidateReady name candidate
      reported := o.reported ++ [candidate] }
  | .signalingTurn =>
    { o with
      transport := o.transport.signalingTurn.2
      passed := o.passed ++ o.transport.signalingTurn.1.flatMap TransportSignal.candidates }

def run (steps : List (TransportStep γ)) : ObservedTransport σ γ := runInputs step {} steps

/-- Only channels that have been connected report candidates. -/
def Reports (o : ObservedTransport σ γ) : TransportStep γ → Prop
  | .candidateReady name _ => (o.transport.getChannel name).any fun impl => 0 < impl.connects
  | _ => True

/-- A new channel gets a new name, and comes before `ConnectChannels` was called or after it
took effect. -/
def Fits (o : ObservedTransport σ γ) : TransportStep γ → Prop
  | .createChannel name _ =>
    o.transport.hasChannel name = false ∧ (o.asked → o.transport.connectRequested)
  | _ => True

instance (o : ObservedTransport σ γ) (input : TransportStep γ) :
    Decidable (o.Reports input ∧ o.Fits input) := by
  unfold Reports Fits
  cases input <;> infer_instance

/-- The signaling thread works through `count` messages. -/
def turns (o : ObservedTransport σ γ) (count : Nat) : ObservedTransport σ γ :=
  (fun o => o.step .signalingTurn)^[count] o

/-- What a transport owes its user. -/
structure Lawful (o : ObservedTransport σ γ) : Prop where
  connected : o.asked → ∀ name, ∀ impl ∈ o.transport.getChannel name, impl.connects = 1
  inOrder : o.passed <+: o.reported
  afterAsked : o.asked = false → o.passed = []
  /-- Once the messages to the signaling thread are handled, every candidate has been passed. -/
  passesAll : (o.turns o.transport.posted.length).passed = o.reported

structure Sound (o : ObservedTransport σ γ) : Prop where
  asked : o.transport.connectRequested → o.asked
  /-- A request that was dropped found no channel, and none has come since. -/
  dropped : o.asked → o.transport.connectRequested = false →
    ∀ name, o.transport.channels.get name = none
  entries : ∀ name, ∀ e ∈ o.transport.channels.get name,
    e.impl.listens = 1 ∧ e.impl.connects = if o.transport.connectRequested then 1 else 0
  handedOver : o.passed ++ o.transport.readyCandidates = o.reported
  held : o.transport.connectRequested = false → o.reported = []
  toCome : o.transport.readyCandidates ≠ [] → .candidateReady ∈ o.transport.posted

namespace Sound

variable {o : ObservedTransport σ γ}

theorem initial : Sound ({} : ObservedTransport σ γ) where
  asked := nofun
  dropped := nofun
  entries := nofun
  handedOver := rfl
  held _ := rfl
  toCome none := absurd rfl none

theorem createChannel (sound : Sound o) {name contentType : String}
    (fits : o.Fits (.createChannel name contentType)) :
    Sound (o.step (.createChannel name contentType)) := by
  obtain ⟨requested, candidates, posted⟩ := o.transport.posts_createChannel name contentType
  obtain ⟨fresh, effective⟩ := fits
  simp only [step]
  refine { asked := ?_, dropped := ?_, entries := ?_, handedOver := ?_, held := ?_, toCome := ?_ }
  · rw [requested]
    exact sound.asked
  · rw [requested]
    intro asked notYet
    rw [effective asked] at notYet
    cases notYet
  · intro other e live
    rw [requested]
    rw [Option.mem_def, Transport.get_createChannel] at live
    split at live
    · cases live
      have absent : o.transport.channels.get name = none := by
        simpa [Transport.hasChannel] using fresh
      simp only [Transport.opened, Transport.found, absent, Option.getD_none]
      split <;> exact ⟨rfl, rfl⟩
    · exact sound.entries other e live
  · rw [candidates]
    exact sound.handedOver
  · rw [requested]
    exact sound.held
  · rw [candidates]
    exact fun some => posted.subset (sound.toCome some)

theorem destroyChannel (sound : Sound o) (name : String) : Sound (o.step (.destroyChannel name)) := by
  obtain ⟨requested, candidates, posted⟩ := o.transport.posts_destroyChannel name
  have left (other : String) (e : ChannelMapEntry σ)
      (live : (o.transport.destroyChannel name).channels.get other = some e) :
      ∃ before, o.transport.channels.get other = some before ∧ before.impl = e.impl := by
    cases here : o.transport.channels.get name with
    | none => exact ⟨e, by rwa [Transport.destroyChannel, here] at live, rfl⟩
    | some before =>
      rw [Transport.get_destroyChannel _ _ here] at live
      split at live
      · next same =>
        subst same
        split at live
        · cases live
        · cases live
          exact ⟨before, here, rfl⟩
      · exact ⟨e, live, rfl⟩
  simp only [step]
  refine { asked := ?_, dropped := ?_, entries := ?_, handedOver := ?_, held := ?_, toCome := ?_ }
  · rw [requested]
    exact sound.asked
  · rw [requested]
    intro asked notYet other
    refine Option.eq_none_iff_forall_ne_some.mpr fun e live => ?_
    obtain ⟨before, found, -⟩ := left other e live
    rw [sound.dropped asked notYet other] at found
    cases found
  · intro other e live
    obtain ⟨before, found, same⟩ := left other e live
    rw [requested, ← same]
    exact sound.entries other before found
  · rw [candidates]
    exact sound.handedOver
  · rw [requested]
    exact sound.held
  · rw [candidates]
    exact fun some => posted.subset (sound.toCome some)

theorem connectChannels (sound : Sound o) : Sound (o.step .connectChannels) := by
  simp only [step]
  have live := fun name => o.transport.get_connectChannels name
  by_cases idle : o.transport.connectRequested ∨ o.transport.channels.isEmpty
  · have same : o.transport.connectChannels = o.transport := by
      rw [Transport.connectChannels, if_pos idle]
    rw [same]
    refine { sound with asked := fun _ => rfl, dropped := fun _ notYet name => ?_ }
    refine OrderedMap.get_of_isEmpty (idle.resolve_left fun asked => ?_) name
    rw [asked] at notYet
    cases notYet
  · obtain ⟨notYet, -⟩ := not_or.mp idle
    have started : o.transport.connectChannels.connectRequested ∧
        o.transport.connectChannels.readyCandidates = o.transport.readyCandidates ∧
        .candidateReady ∈ o.transport.connectChannels.posted := by
      rw [Transport.connectChannels, if_neg idle]
      dsimp only
      split <;> exact ⟨rfl, rfl, by simp [Transport.post]⟩
    obtain ⟨requested, candidates, posted⟩ := started
    refine { asked := fun _ => rfl, dropped := ?_, entries := ?_, handedOver := ?_, held := ?_, toCome := ?_ }
    · intro _ other
      rw [requested] at other
      cases other
    · intro name e listed
      rw [Option.mem_def, live, if_neg notYet] at listed
      obtain ⟨before, found, rfl⟩ := Option.map_eq_some_iff.mp listed
      obtain ⟨once, never⟩ := sound.entries name before found
      rw [if_neg notYet] at never
      rw [requested, if_pos rfl]
      exact ⟨once, by simp only [ChannelImpl.connect, never]⟩
    · rw [candidates]
      exact sound.handedOver
    · intro other
      rw [requested] at other
      cases other
    · exact fun _ => posted

theorem candidateReady (sound : Sound o) {name : String} {candidate : γ}
    (reports : o.Reports (.candidateReady name candidate)) :
    Sound (o.step (.candidateReady name candidate)) := by
  obtain ⟨impl, live, connected⟩ := (Option.any_eq_true _ _).mp reports
  obtain ⟨e, found, rfl⟩ := Option.map_eq_some_iff.mp live
  replace connected := of_decide_eq_true connected
  obtain ⟨once, connects⟩ := sound.entries name e found
  have requested : o.transport.connectRequested := by
    by_contra notYet
    rw [connects, if_neg notYet] at connected
    exact absurd connected (lt_irrefl 0)
  have served : o.transport.signalCandidateReady name candidate =
      { o.transport with
        readyCandidates := o.transport.readyCandidates ++ [candidate]
        posted := o.transport.posted ++ [.candidateReady] } := by
    simp only [Transport.signalCandidateReady, live, once, Function.iterate_one,
      Transport.onChannelCandidateReady, requested, if_true, Transport.post]
  simp only [step, served]
  exact { sound with
    handedOver := by rw [← List.append_assoc, sound.handedOver]
    held := fun notYet => absurd requested (Bool.eq_false_iff.mp notYet)
    toCome := fun _ => by simp }

theorem signalingTurn (sound : Sound o) : Sound (o.step .signalingTurn) := by
  simp only [step]
  cases waiting : o.transport.posted with
  | nil =>
    have same : o.transport.signalingTurn = ([], o.transport) := by
      rw [Transport.signalingTurn, waiting]
    rw [same, List.flatMap_nil, List.append_nil]
    exact sound
  | cons id rest =>
    have taken : o.transport.signalingTurn = { o.transport with posted := rest }.onMessage id := by
      rw [Transport.signalingTurn, waiting]
    have pending := sound.toCome
    rw [waiting] at pending
    rw [taken]
    by_cases ready : id = .candidateReady
    · subst ready
      rw [Transport.passed_candidateReady]
      exact { sound with
        handedOver := by rw [← sound.handedOver]; exact List.append_nil _
        toCome := fun some => absurd rfl some }
    · obtain ⟨nothing, readable, writable, same⟩ :=
        Transport.onMessage_other { o.transport with posted := rest } ready
      rw [nothing, same, List.append_nil]
      refine { sound with toCome := fun some => ?_ }
      exact (List.mem_cons.mp (pending some)).resolve_left (Ne.symm ready)

theorem step (sound : Sound o) {input : TransportStep γ} (reports : o.Reports input)
    (fits : o.Fits input) : Sound (o.step input) := by
  cases input with
  | createChannel => exact sound.createChannel fits
  | destroyChannel name => exact sound.destroyChannel name
  | connectChannels => exact sound.connectChannels
  | candidateReady => exact sound.candidateReady reports
  | signalingTurn => exact sound.signalingTurn

theorem turns (sound : Sound o) (count : Nat) : Sound (o.turns count) := by
  induction count generalizing o with
  | zero => exact sound
  | succ count ih => exact ih sound.signalingTurn

end Sound

/-- A turn handles one message and posts none. -/
theorem posted_signalingTurn (o : ObservedTransport σ γ) :
    (o.step .signalingTurn).transport.posted = o.transport.posted.tail := by
  simp only [step]
  cases waiting : o.transport.posted with
  | nil => rw [Transport.signalingTurn, waiting, waiting]; rfl
  | cons id rest =>
    rw [Transport.signalingTurn, waiting]
    cases id <;> rfl

theorem posted_turns (o : ObservedTransport σ γ) (count : Nat) :
    (o.turns count).transport.posted = o.transport.posted.drop count := by
  induction count generalizing o with
  | zero => rfl
  | succ count ih =>
    have turned : o.turns (count + 1) = (o.step .signalingTurn).turns count := rfl
    rw [turned, ih, posted_signalingTurn, List.drop_tail]

theorem reported_turns (o : ObservedTransport σ γ) (count : Nat) :
    (o.turns count).reported = o.reported := by
  induction count generalizing o with
  | zero => rfl
  | succ count ih => exact ih _

theorem Sound.lawful {o : ObservedTransport σ γ} (sound : Sound o) : Lawful o where
  connected asked name impl live := by
    rw [Option.mem_def] at live
    obtain ⟨e, found, rfl⟩ := Option.map_eq_some_iff.mp live
    have requested : o.transport.connectRequested := by
      by_contra notYet
      rw [sound.dropped asked (by simpa using notYet) name] at found
      cases found
    rw [(sound.entries name e found).2, if_pos requested]
  inOrder := ⟨_, sound.handedOver⟩
  afterAsked notYet := by
    have idle : o.transport.connectRequested = false := by
      by_contra requested
      rw [sound.asked (by simpa using requested)] at notYet
      cases notYet
    have flow := sound.handedOver
    rw [sound.held idle] at flow
    exact (List.append_eq_nil_iff.mp flow).1
  passesAll := by
    have later := sound.turns o.transport.posted.length
    have handled := posted_turns o o.transport.posted.length
    rw [List.drop_length] at handled
    have none : (o.turns o.transport.posted.length).transport.readyCandidates = [] := by
      by_contra some
      have toCome := later.toCome some
      rw [handled] at toCome
      cases toCome
    have flow := later.handedOver
    rwa [none, List.append_nil, reported_turns] at flow

/-- Where new channels get new names and no request is dropped before them, every channel
is connected once and every candidate passed once. -/
theorem lawful_of_steps {steps : List (TransportStep γ)}
    (fits : Along step (fun (o : ObservedTransport σ γ) input => o.Reports input ∧ o.Fits input)
      {} steps) :
    Lawful (run steps : ObservedTransport σ γ) :=
  (fits.invariant (P := Sound) (fun _ _ ok sound => sound.step ok.1 ok.2) .initial).lawful

/-- Two channels, one from before the request, one from after it. -/
def sampleSteps : List (TransportStep Nat) :=
  [.createChannel "rtp" "audio", .connectChannels, .createChannel "rtcp" "audio",
    .candidateReady "rtp" 1, .signalingTurn, .candidateReady "rtcp" 2, .destroyChannel "rtp"]

theorem lawful_of_sampleSteps : Lawful (run sampleSteps : ObservedTransport Unit Nat) :=
  lawful_of_steps (by decide)

/-- A name used again connects the channel twice; a request before the first channel
connects none. -/
theorem created_again_or_asked_early :
    ¬ Lawful (run [.createChannel "rtp" "audio", .connectChannels,
      .createChannel "rtp" "audio"] : ObservedTransport Unit Nat) ∧
    ¬ Lawful (run [.connectChannels, .createChannel "rtp" "audio"] : ObservedTransport Unit Nat) := by
  constructor
  · intro lawful
    have once := lawful.connected (by decide) "rtp" _ rfl
    revert once
    decide
  · intro lawful
    have once := lawful.connected (by decide) "rtp" _ rfl
    revert once
    decide

end ObservedTransport

end Libjingle.Channels
