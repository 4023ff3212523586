import Libjingle.Xmpp.Closing
import Mathlib.Data.List.Nodup

/-!
# The delivery of a stanza

`IncomingStanza` walks through the lists of handlers by an index while the handlers add to
the lists and remove from them. A handler that is removed from a place that the index has
passed moves those after it up, and one of them is passed over.
-/

namespace Libjingle.Xmpp

open Libjingle.Xml

variable {σ τ : Type} (env : Environment σ τ)

/-- A handler at the level where it stands. -/
abbrev Registration := HandlerLevel × Nat

namespace Engine

variable (e : Engine σ τ)

/-- The levels after one. -/
def below : HandlerLevel → List HandlerLevel
  | .peek => [.single, .sender, .type, .all]
  | .single => [.sender, .type, .all]
  | .sender => [.type, .all]
  | .type => [.all]
  | .all => []

/-- Who stands at some levels. -/
def standing (levels : List HandlerLevel) : List Registration :=
  levels.flatMap fun level => (e.stanzaHandlers level).map (level, ·)

/-- All handlers in the order in which they are called. -/
def registered : List Registration :=
  e.standing levels

/-- Who stands at a level from a place on, and at the levels after it. -/
def ahead (level : HandlerLevel) (index : Nat) : List Registration :=
  ((e.stanzaHandlers level).drop index).map (level, ·) ++ e.standing (below level)

theorem registered_eq : e.registered = e.ahead .peek 0 := rfl

/-- The levels from one on begin with it, and the next one begins at its first handler. -/
theorem levelsFrom_eq (level : HandlerLevel) (index : Nat) :
    levelsFrom level index = (level, index) :: (below level).map (·, 0) := by
  cases level <;> rfl

/-- The next handler is the first of those ahead. -/
inductive Next (level : HandlerLevel) (index : Nat) : Prop where
  | nobody (none : e.nextHandler (levelsFrom level index) = none)
      (ahead : e.ahead level index = [])
  | found (level' : HandlerLevel) (index' handler : Nat)
      (some : e.nextHandler (levelsFrom level index) = some (level', index', handler))
      (ahead : e.ahead level index = (level', handler) :: e.ahead level' (index' + 1))

/-- At a level with no more handlers the next one comes. -/
theorem next_of_below {level : HandlerLevel} (index : Nat)
    (later : below level = [] ∨ ∃ next, below level = next :: below next ∧ e.Next next 0) :
    e.Next level index := by
  cases here : (e.stanzaHandlers level)[index]? with
  | some handler =>
    obtain ⟨inside, at_⟩ := List.getElem?_eq_some_iff.mp here
    refine .found level index handler ?_ ?_
    · rw [levelsFrom_eq, nextHandler, here]
    · unfold ahead
      rw [← List.getElem_cons_drop inside, at_]
      rfl
  | none =>
    have past : (e.stanzaHandlers level).drop index = [] :=
      List.drop_eq_nil_iff.mpr (List.getElem?_eq_none_iff.mp here)
    have skip : e.nextHandler (levelsFrom level index) =
        e.nextHandler ((below level).map (·, 0)) := by
      rw [levelsFrom_eq, nextHandler, here]
    obtain last | ⟨next, follows, nextOne⟩ := later
    · refine .nobody ?_ ?_
      · rw [skip, last]
        rfl
      · rw [ahead, past, last]
        rfl
    · have same : e.ahead level index = e.ahead next 0 := by
        rw [ahead, past, follows]
        rfl
      rw [follows, List.map_cons, ← levelsFrom_eq] at skip
      cases nextOne with
      | nobody none ahead => exact .nobody (skip.trans none) (same.trans ahead)
      | found level' index' handler some ahead =>
        exact .found level' index' handler (skip.trans some) (same.trans ahead)

theorem next (level : HandlerLevel) (index : Nat) : e.Next level index := by
  have all (index : Nat) : e.Next .all index := e.next_of_below index (.inl rfl)
  have type (index : Nat) : e.Next .type index :=
    e.next_of_below index (.inr ⟨.all, rfl, all 0⟩)
  have sender (index : Nat) : e.Next .sender index :=
    e.next_of_below index (.inr ⟨.type, rfl, type 0⟩)
  have single (index : Nat) : e.Next .single index :=
    e.next_of_below index (.inr ⟨.sender, rfl, sender 0⟩)
  cases level
  · exact e.next_of_below index (.inr ⟨.single, rfl, single 0⟩)
  · exact single index
  · exact sender index
  · exact type index
  · exact all index

end Engine

/-! ## A delivery as it goes on -/

/-- The delivery of a stanza: who has been given it, with the answer, who has been removed, and
what the engine has replied. -/
structure Delivering (σ τ : Type) where
  progress : Engine.Progress σ τ
  given : List (Registration × Bool)
  removed : List Nat
  replies : List XmlElement

def Engine.Progress.isFinished : Engine.Progress σ τ → Bool
  | .waiting _ => false
  | .finished _ => true

/-- The engine that waits for a handler. -/
def Engine.Progress.waits : Engine.Progress σ τ → Option (Engine σ τ)
  | .waiting e => some e
  | .finished _ => none

def Engine.Progress.engine : Engine.Progress σ τ → Engine σ τ
  | .waiting e => e
  | .finished e => e

namespace Delivering

open Engine

/-- A stanza comes in. -/
def start (e : Engine σ τ) (d : Delivery) : Delivering σ τ where
  progress := e.incomingStanza env d
  given := []
  removed := []
  replies := (e.incomingStanza env d).engine.accepted.drop e.accepted.length

def registration : Position → List Registration
  | .handler level _ handler => [(level, handler)]
  | .iqHandler => []

/-- A handler calls the engine, or it returns. -/
def step (s : Delivering σ τ) (input : Input) : Delivering σ τ :=
  match s.progress, input with
  | .finished _, _ => s
  | .waiting _, .handleInput _ => s
  | .waiting e, .call call =>
      { s with
        progress := .waiting (e.perform env call)
        removed := match call with
          | .removeStanzaHandler handler => s.removed ++ [handler]
          | _ => s.removed }
  | .waiting e, .handlerReturns handled =>
      match e.delivery with
      | none => s
      | some d =>
          let progress := e.returned env d handled
          { s with
            progress := progress
            given := s.given ++ (registration d.position).map (·, handled)
            replies := s.replies ++ progress.engine.accepted.drop e.accepted.length }

def run (s : Delivering σ τ) (inputs : List Input) : Delivering σ τ :=
  inputs.foldl (fun s input => s.step env input) s

variable (registered : List Registration) (s : Delivering σ τ)

/-- The handlers that were registered and have not been removed. -/
def survivors : List Registration :=
  registered.filter (·.2 ∉ s.removed)

/-- The handler that is called. -/
def current : List Registration :=
  match s.progress with
  | .waiting e => (e.delivery.map (registration ·.position)).getD []
  | .finished _ => []

def received : List Registration :=
  s.given.map (·.1) ++ s.current

/-- An answer with which the delivery ends. -/
def handles (answer : Registration × Bool) : Bool :=
  answer.1.1 ≠ .peek ∧ answer.2 = true

/-- What a call adds. -/
def adds : Call → Option Registration
  | .addStanzaHandler handler level => some (level, handler)
  | _ => none

/-- No survivor is added again to a level that is still to be walked through. When a handler
returns that does not end the delivery, none of the survivors up to its place in the list is
without the stanza. -/
def SteadyAt (e : Engine σ τ) (position : Position) (input : Input) : Prop :=
  match position, input with
  | .handler level _ _, .call call =>
      ∀ r ∈ adds call, e.state = .closed ∨ r ∉ s.survivors registered ∨
        r.1 ∉ level :: below level
  | .handler level index handler, .handlerReturns handled =>
      handles ((level, handler), handled) ∨
        ∀ other ∈ (e.stanzaHandlers level).take (index + 1),
          (level, other) ∈ s.survivors registered → (level, other) ∈ s.received
  | .handler _ _ _, .handleInput _ => True
  | .iqHandler, _ => True

def Steady (input : Input) : Prop :=
  ∀ e ∈ s.progress.waits, ∀ d ∈ e.delivery, s.SteadyAt registered e d.position input

def AllSteady (s : Delivering σ τ) : List Input → Prop
  | [] => True
  | input :: inputs => s.Steady registered input ∧ AllSteady (s.step env input) inputs

instance instDecidableSteadyAt (e : Engine σ τ) (position : Position) (input : Input) :
    Decidable (s.SteadyAt registered e position input) :=
  match position, input with
  | .handler _ _ _, .call _ => inferInstanceAs (Decidable (∀ _ ∈ _, _))
  | .handler _ _ _, .handlerReturns _ => inferInstanceAs (Decidable (_ ∨ _))
  | .handler _ _ _, .handleInput _ => isTrue trivial
  | .iqHandler, _ => isTrue trivial

instance instDecidableAllSteady (s : Delivering σ τ) (inputs : List Input) :
    Decidable (s.AllSteady env registered inputs) :=
  match inputs with
  | [] => isTrue trivial
  | input :: inputs =>
      have : Decidable ((s.step env input).AllSteady env registered inputs) :=
        instDecidableAllSteady (s.step env input) inputs
      inferInstanceAs (Decidable ((∀ e ∈ s.progress.waits, ∀ d ∈ e.delivery,
        s.SteadyAt registered e d.position input) ∧ _))

/-- What is promised of a delivery. -/
structure Orderly (stanza : XmlElement) : Prop where
  order : s.received.filter (· ∈ s.survivors registered) <+: s.survivors registered
  once : ∀ r ∈ s.survivors registered, s.received.count r ≤ 1
  stops : ∀ before answer after, s.given = before ++ answer :: after → handles answer →
    after = [] ∧ ∃ e, s.progress = .finished e
  peeks : ∀ e, s.progress = .finished e → ∀ r ∈ s.survivors registered, r.1 = .peek →
    s.received.count r = 1
  others : ∀ e, s.progress = .finished e → (∀ answer ∈ s.given, ¬ handles answer) →
    ∀ r ∈ s.survivors registered, s.received.count r = 1
  replies : s.replies ≠ [] → (∃ e, s.progress = .finished e) ∧
    (∀ answer ∈ s.given, ¬ handles answer) ∧ stanza.name = qnIq ∧
      stanza.attr qnType ≠ "error" ∧ stanza.attr qnType ≠ "result"

/-! ## What stays to be done -/

/-- What is true of a delivery. -/
inductive Accounted (stanza : XmlElement) (s : Delivering σ τ) : Prop where
  /-- Those who have the stanza and those who stand after some place, which the index has not
  passed by, are all the survivors. -/
  | waiting (e : Engine σ τ) (d : Delivery) (level : HandlerLevel) (index handler : Nat)
      (progress : s.progress = .waiting e) (delivery : e.delivery = some d)
      (position : d.position = .handler level index handler) (same : d.stanza = stanza)
      (before after : List Nat) (here : e.stanzaHandlers level = before ++ after)
      (passed : before.length ≤ index + 1)
      (complete : (s.received ++ (after.map (level, ·) ++ e.standing (below level))).filter
        (· ∈ s.survivors registered) = s.survivors registered)
      (unhandled : ∀ answer ∈ s.given, ¬ handles answer) (quiet : s.replies = [])
  | exhausted (e : Engine σ τ) (progress : s.progress = .finished e)
      (complete : s.received.filter (· ∈ s.survivors registered) = s.survivors registered)
      (unhandled : ∀ answer ∈ s.given, ¬ handles answer)
      (replies : s.replies ≠ [] → stanza.name = qnIq ∧ stanza.attr qnType ≠ "error" ∧
        stanza.attr qnType ≠ "result")
  | handled (e : Engine σ τ) (progress : s.progress = .finished e)
      (before : List (Registration × Bool)) (answer : Registration × Bool)
      (given : s.given = before ++ [answer]) (handled : handles answer)
      (unhandled : ∀ answer ∈ before, ¬ handles answer) (rest : List Registration)
      (complete : (s.received ++ rest).filter (· ∈ s.survivors registered) =
        s.survivors registered)
      (others : ∀ r ∈ rest, r.1 ≠ .peek) (quiet : s.replies = [])

variable {registered} {s} {stanza : XmlElement}

theorem count_of_complete {xs survivors : List Registration} (distinct : survivors.Nodup)
    (complete : xs.filter (· ∈ survivors) = survivors) {r : Registration}
    (survives : r ∈ survivors) : xs.count r = 1 := by
  have filtered : (xs.filter (· ∈ survivors)).count r = xs.count r :=
    List.count_filter (by simpa using survives)
  rw [← filtered, complete]
  exact List.count_eq_one_of_mem distinct survives

theorem Accounted.orderly (accounted : Accounted registered stanza s)
    (distinct : registered.Nodup) : Orderly registered s stanza := by
  have distinct : (s.survivors registered).Nodup := distinct.filter _
  have ordered {rest : List Registration}
      (complete : (s.received ++ rest).filter (· ∈ s.survivors registered) =
        s.survivors registered) :
      s.received.filter (· ∈ s.survivors registered) <+: s.survivors registered ∧
        ∀ r ∈ s.survivors registered, s.received.count r ≤ 1 := by
    refine ⟨⟨_, (List.filter_append ..).symm.trans complete⟩, fun r survives => ?_⟩
    have one := count_of_complete distinct complete survives
    rw [List.count_append] at one
    omega
  cases accounted with
  | waiting e d level index handler progress _ _ _ _ _ _ _ complete unhandled quiet =>
    obtain ⟨order, once⟩ := ordered complete
    refine ⟨order, once, fun before answer after given handled => ?_, fun e' finished => ?_,
      fun e' finished => ?_, fun replied => absurd quiet replied⟩
    · exact absurd handled (unhandled answer (by simp [given]))
    · cases progress.symm.trans finished
    · cases progress.symm.trans finished
  | exhausted e progress complete unhandled replies =>
    have all := (List.append_nil s.received).symm ▸ complete
    obtain ⟨order, once⟩ := ordered all
    refine ⟨order, once, fun before answer after given handled => ?_, fun _ _ r survives _ => ?_,
      fun _ _ _ r survives => ?_, fun replied => ⟨⟨e, progress⟩, unhandled, replies replied⟩⟩
    · exact absurd handled (unhandled answer (by simp [given]))
    · exact count_of_complete distinct complete survives
    · exact count_of_complete distinct complete survives
  | handled e progress before answer given handled unhandled rest complete others quiet =>
    obtain ⟨order, once⟩ := ordered complete
    refine ⟨order, once, fun before' answer' after given' handled' => ?_,
      fun _ _ r survives peek => ?_, fun _ _ none => ?_, fun replied => absurd quiet replied⟩
    · refine ⟨?_, e, progress⟩
      obtain last | ⟨init, last, rfl⟩ := List.eq_nil_or_concat after
      · exact last
      · have same : before ++ [answer] = (before' ++ answer' :: init) ++ [last] := by
          rw [← given, given', List.concat_eq_append, List.append_assoc, List.cons_append]
        have earlier : answer' ∈ before := by
          rw [(List.append_inj' same rfl).1]
          exact List.mem_append_right _ (List.mem_cons_self ..)
        exact absurd handled' (unhandled answer' earlier)
    · have one := count_of_complete distinct complete survives
      rw [List.count_append, List.count_eq_zero.mpr fun member => others r member peek] at one
      exact one
    · exact absurd handled (none answer (by simp [given]))

/-! ## Calls of a handler -/

/-- A removal takes a handler from those who are to be given the stanza, and from all the
lists. -/
theorem filter_removed (xs survivors : List Registration) (handler : Nat) :
    xs.filter (· ∈ survivors.filter (·.2 ≠ handler)) =
      (xs.filter (· ∈ survivors)).filter (·.2 ≠ handler) := by
  rw [List.filter_filter]
  refine List.filter_congr fun r _ => ?_
  simp [List.mem_filter, and_comm]

theorem survivors_removed (handler : Nat) {s' : Delivering σ τ}
    (removed : s'.removed = s.removed ++ [handler]) :
    s'.survivors registered = (s.survivors registered).filter (·.2 ≠ handler) := by
  unfold survivors
  rw [removed, List.filter_filter]
  refine List.filter_congr fun r _ => ?_
  simp [List.mem_append, not_or, and_comm]

theorem standing_removed {e e' : Engine σ τ} (handler : Nat)
    (handlers : ∀ level, e'.stanzaHandlers level = (e.stanzaHandlers level).filter (· ≠ handler))
    (levels : List HandlerLevel) :
    e'.standing levels = (e.standing levels).filter (·.2 ≠ handler) := by
  unfold standing
  rw [List.filter_flatMap]
  refine List.flatMap_congr fun level _ => ?_
  rw [handlers, List.filter_map]
  rfl

theorem standing_added {e e' : Engine σ τ} {level : HandlerLevel} {handler : Nat}
    (handlers : ∀ l, e'.stanzaHandlers l =
      if l = level then e.stanzaHandlers l ++ [handler] else e.stanzaHandlers l)
    (levels : List HandlerLevel) (p : Registration → Bool)
    (other : level ∈ levels → p (level, handler) = false) :
    (e'.standing levels).filter p = (e.standing levels).filter p := by
  unfold standing
  rw [List.filter_flatMap, List.filter_flatMap]
  refine List.flatMap_congr fun l member => ?_
  rw [handlers]
  split
  · next same =>
    subst same
    rw [List.map_append, List.filter_append, List.map_singleton, List.filter_singleton,
      other member]
    simp
  · rfl

theorem complete_removed {xs ys survivors : List Registration} (handler : Nat)
    (complete : (xs ++ ys).filter (· ∈ survivors) = survivors) :
    (xs ++ ys.filter (·.2 ≠ handler)).filter (· ∈ survivors.filter (·.2 ≠ handler)) =
      survivors.filter (·.2 ≠ handler) := by
  have twice : ((ys.filter (·.2 ≠ handler)).filter (· ∈ survivors)).filter (·.2 ≠ handler) =
      (ys.filter (· ∈ survivors)).filter (·.2 ≠ handler) := by
    rw [List.filter_filter, List.filter_filter, List.filter_filter]
    refine List.filter_congr fun r _ => ?_
    cases decide (r.2 ≠ handler) <;> cases decide (r ∈ survivors) <;> rfl
  rw [filter_removed, List.filter_append, List.filter_append, twice, ← List.filter_append,
    ← List.filter_append, complete]

theorem step_finished {e : Engine σ τ} (progress : s.progress = .finished e) (input : Input) :
    s.step env input = s := by
  unfold step
  rw [progress]

theorem step_call {e : Engine σ τ} (progress : s.progress = .waiting e) (call : Call) :
    s.step env (.call call) = { s with
      progress := .waiting (e.perform env call)
      removed := match call with
        | .removeStanzaHandler handler => s.removed ++ [handler]
        | _ => s.removed } := by
  unfold step
  rw [progress]

/-- What a handler calls keeps the account. -/
theorem Accounted.call (accounted : Accounted registered stanza s) (call : Call)
    (steady : s.Steady registered (.call call)) :
    Accounted registered stanza (s.step env (.call call)) := by
  cases accounted with
  | exhausted e progress complete unhandled replies =>
    rw [step_finished env progress]
    exact .exhausted e progress complete unhandled replies
  | handled e progress before answer given handled unhandled rest complete others quiet =>
    rw [step_finished env progress]
    exact .handled e progress before answer given handled unhandled rest complete others quiet
  | waiting e d level index handler progress delivery position same before after here passed
      complete unhandled quiet =>
    obtain ⟨handlers, kept⟩ := perform_handlers env e call
    rw [step_call env progress]
    have received (removed : List Nat) : received { s with
        progress := .waiting (e.perform env call), removed := removed } = s.received := by
      unfold Delivering.received current
      dsimp only
      rw [progress, kept]
    -- The lists of handlers and the survivors decide.
    have next (removed : List Nat) (before' after' : List Nat)
        (here' : (e.perform env call).stanzaHandlers level = before' ++ after')
        (passed' : before'.length ≤ index + 1)
        (complete' : (s.received ++ (after'.map (level, ·) ++
            (e.perform env call).standing (below level))).filter
          (· ∈ registered.filter (·.2 ∉ removed)) = registered.filter (·.2 ∉ removed)) :
        Accounted registered stanza { s with
          progress := .waiting (e.perform env call), removed := removed } :=
      .waiting _ d level index handler rfl (kept.trans delivery) position same before' after'
        here' passed' ((received removed).symm ▸ complete') unhandled quiet
    have unchanged (handlers : (e.perform env call).stanzaHandlers = e.stanzaHandlers) :
        Accounted registered stanza { s with
          progress := .waiting (e.perform env call), removed := s.removed } := by
      refine next s.removed before after (by rw [handlers, here]) passed ?_
      unfold standing
      rw [handlers]
      exact complete
    cases call with
    | removeStanzaHandler other =>
      refine next _ (before.filter (· ≠ other)) (after.filter (· ≠ other)) ?_ ?_ ?_
      · rw [handlers, ← List.filter_append, ← here]
        rfl
      · exact Nat.le_trans (List.length_filter_le ..) passed
      · have relisted : (after.filter (· ≠ other)).map (level, ·) =
            (after.map (level, ·)).filter (·.2 ≠ other) := by
          rw [List.filter_map]
          rfl
        have fewer : survivors registered { s with removed := s.removed ++ [other] } =
            (s.survivors registered).filter (·.2 ≠ other) := survivors_removed other rfl
        unfold survivors at fewer
        rw [standing_removed other (fun l => congrFun handlers l) (below level), relisted,
          ← List.filter_append, fewer]
        exact complete_removed other complete
    | addStanzaHandler other level' =>
      have steady := steady e (by rw [progress]; rfl) d delivery
      rw [position] at steady
      have steady := steady (level', other) rfl
      by_cases closed : e.state = .closed
      · refine unchanged (handlers.trans (funext fun l => ?_))
        rw [handlersAfter, if_neg fun both => both.1 closed]
      · have added (l : HandlerLevel) :
            (e.perform env (.addStanzaHandler other level')).stanzaHandlers l =
              if l = level' then e.stanzaHandlers l ++ [other] else e.stanzaHandlers l := by
          rw [handlers, handlersAfter]
          simp [closed]
        have fresh (member : level' ∈ level :: below level) :
            decide ((level', other) ∈ s.survivors registered) = false :=
          decide_eq_false ((steady.resolve_left closed).resolve_right (not_not.mpr member))
        have later := standing_added added (below level) (· ∈ s.survivors registered)
          fun member => fresh (List.mem_cons_of_mem _ member)
        by_cases there : level = level'
        · subst there
          refine next s.removed before (after ++ [other]) ?_ passed ?_
          · rw [added, if_pos rfl, here, List.append_assoc]
          · have new : ([other].map (level, ·)).filter (· ∈ s.survivors registered) = [] := by
              simpa using fresh (List.mem_cons_self ..)
            refine Eq.trans ?_ complete
            rw [List.map_append, List.filter_append, List.filter_append, List.filter_append]
            unfold survivors at new later ⊢
            rw [new, later, List.append_nil, ← List.filter_append, ← List.filter_append]
        · refine next s.removed before after ?_ passed ?_
          · rw [added, if_neg there, here]
          · refine Eq.trans ?_ complete
            rw [List.filter_append, List.filter_append]
            unfold survivors at later ⊢
            rw [later, ← List.filter_append, ← List.filter_append]
    | sendStanza | sendRaw | sendIq | removeIqHandler | sendStanzaError | nextId | connect
    | disconnect | connectionClosed => exact unchanged handlers

/-! ## Handlers that are called and return -/

theorem unhandled_reply {e : Engine σ τ} (stanza : XmlElement)
    (replied : (e.unhandled env stanza).accepted.drop e.accepted.length ≠ []) :
    stanza.name = qnIq ∧ stanza.attr qnType ≠ "error" ∧ stanza.attr qnType ≠ "result" := by
  unfold unhandled at replied
  dsimp only at replied
  split at replied
  · next asked => exact ⟨asked.1, not_or.mp asked.2⟩
  · exact absurd (List.drop_length ..) replied

/-- The next handler is called, or nobody is left. -/
theorem Accounted.deliver {e : Engine σ τ} {d : Delivery} {level : HandlerLevel} {index : Nat}
    (progress : s.progress = e.deliver env d (levelsFrom level index))
    (complete : (s.given.map (·.1) ++ e.ahead level index).filter
      (· ∈ s.survivors registered) = s.survivors registered)
    (unhandled : ∀ answer ∈ s.given, ¬ handles answer)
    (replies : s.replies =
      (e.deliver env d (levelsFrom level index)).engine.accepted.drop e.accepted.length) :
    Accounted registered d.stanza s := by
  unfold Engine.deliver at progress replies
  cases e.next level index with
  | nobody none ahead =>
    rw [none] at progress replies
    rw [ahead, List.append_nil] at complete
    refine .exhausted _ progress ?_ unhandled fun replied => unhandled_reply env _ (replies ▸ replied)
    unfold received current
    rw [progress, List.append_nil]
    exact complete
  | found level' index' handler some ahead =>
    rw [some] at progress replies
    have quiet : s.replies = [] := replies.trans (List.drop_length ..)
    refine .waiting _ _ level' index' handler progress rfl rfl rfl _ _
      (List.take_append_drop (index' + 1) _).symm (List.length_take_le ..) ?_ unhandled quiet
    unfold received current
    rw [progress, List.append_assoc]
    rw [ahead] at complete
    exact complete

theorem not_peek_of_below {level level' : HandlerLevel} (member : level' ∈ below level) :
    level' ≠ .peek := by
  cases level <;> cases level' <;> simp_all [below]

/-- Those who stand up to the place of the index have the stanza, so nobody has been passed by. -/
theorem complete_ahead {e : Engine σ τ} {xs survivors : List Registration}
    (distinct : survivors.Nodup) {level : HandlerLevel} {index : Nat} {before after : List Nat}
    (here : e.stanzaHandlers level = before ++ after) (passed : before.length ≤ index)
    (complete : (xs ++ (after.map (level, ·) ++ e.standing (below level))).filter
      (· ∈ survivors) = survivors)
    (served : ∀ other ∈ (e.stanzaHandlers level).take index,
      (level, other) ∈ survivors → (level, other) ∈ xs) :
    (xs ++ e.ahead level index).filter (· ∈ survivors) = survivors := by
  have split : after = after.take (index - before.length) ++
      (e.stanzaHandlers level).drop index := by
    rw [here, List.drop_append, List.drop_eq_nil_of_le passed, List.nil_append,
      List.take_append_drop]
  have skipped : ((after.take (index - before.length)).map (level, ·)).filter
      (· ∈ survivors) = [] := by
    refine List.filter_eq_nil_iff.mpr fun r member survives => ?_
    obtain ⟨other, taken, rfl⟩ := List.mem_map.mp member
    have survives : (level, other) ∈ survivors := by simpa using survives
    have up : other ∈ (e.stanzaHandlers level).take index := by
      rw [here, List.take_append]
      exact List.mem_append_right _ taken
    have has := served other up survives
    -- Nobody is among the survivors twice.
    have one := count_of_complete distinct complete survives
    rw [List.count_append, List.count_append] at one
    have first := List.count_pos_iff.mpr has
    have second : 0 < (after.map (level, ·)).count (level, other) :=
      List.count_pos_iff.mpr (List.mem_map_of_mem (List.mem_of_mem_take taken))
    omega
  have relisted : after.map (level, ·) = (after.take (index - before.length)).map (level, ·) ++
      ((e.stanzaHandlers level).drop index).map (level, ·) := by
    rw [← List.map_append, ← split]
  refine Eq.trans ?_ complete
  rw [relisted, ahead]
  simp only [List.filter_append, skipped, List.nil_append]

theorem step_returns {e : Engine σ τ} {d : Delivery} (progress : s.progress = .waiting e)
    (delivery : e.delivery = some d) (handled : Bool) :
    s.step env (.handlerReturns handled) = { s with
      progress := e.returned env d handled
      given := s.given ++ (registration d.position).map (·, handled)
      replies := s.replies ++
        (e.returned env d handled).engine.accepted.drop e.accepted.length } := by
  unfold step
  simp only [progress, delivery]

/-- A handler that returns keeps the account. -/
theorem Accounted.handlerReturns (accounted : Accounted registered stanza s) (handled : Bool)
    (distinct : registered.Nodup) (steady : s.Steady registered (.handlerReturns handled)) :
    Accounted registered stanza (s.step env (.handlerReturns handled)) := by
  cases accounted with
  | exhausted e progress complete unhandled replies =>
    rw [step_finished env progress]
    exact .exhausted e progress complete unhandled replies
  | handled e progress before answer given handled' unhandled rest complete others quiet =>
    rw [step_finished env progress]
    exact .handled e progress before answer given handled' unhandled rest complete others quiet
  | waiting e d level index handler progress delivery position same before after here passed
      complete unhandled quiet =>
    have received : s.received = s.given.map (·.1) ++ [(level, handler)] := by
      simp [Delivering.received, current, progress, delivery, registration, position]
    rw [step_returns env progress delivery, position, quiet]
    have steady := steady e (by rw [progress]; rfl) d delivery
    rw [position] at steady
    by_cases final : level ≠ .peek ∧ handled
    · have ends : e.returned env d handled = .finished e := by
        unfold returned
        rw [position]
        exact if_pos final
      rw [ends]
      refine .handled e rfl s.given ((level, handler), handled) rfl (decide_eq_true final) unhandled
        (after.map (level, ·) ++ e.standing (below level)) ?_ ?_ (List.drop_length ..)
      · refine Eq.trans (congrArg (List.filter (· ∈ s.survivors registered)) ?_) complete
        rw [received]
        simp [Delivering.received, current, registration]
      · intro r member
        obtain here | later := List.mem_append.mp member
        · obtain ⟨_, _, rfl⟩ := List.mem_map.mp here
          exact final.1
        · obtain ⟨level', deeper, there⟩ := List.mem_flatMap.mp later
          obtain ⟨_, _, rfl⟩ := List.mem_map.mp there
          exact not_peek_of_below deeper
    · have goes : e.returned env d handled = e.deliver env d (levelsFrom level (index + 1)) := by
        unfold returned
        rw [position]
        exact if_neg final
      have served := steady.resolve_left fun handles => final (of_decide_eq_true handles)
      have ahead := complete_ahead (distinct.filter _) here passed complete served
      rw [goes, ← same]
      refine .deliver env rfl ?_ ?_ (List.nil_append _)
      · refine Eq.trans (congrArg (List.filter (· ∈ s.survivors registered)) ?_) ahead
        rw [received]
        simp [registration]
      · intro answer member
        obtain earlier | now := List.mem_append.mp member
        · exact unhandled answer earlier
        · rw [List.mem_singleton.mp now]
          exact fun handles => final (of_decide_eq_true handles)

/-! ## Runs of a delivery -/

theorem Accounted.step (accounted : Accounted registered stanza s) (distinct : registered.Nodup)
    {input : Input} (steady : s.Steady registered input) :
    Accounted registered stanza (s.step env input) := by
  cases input with
  | call call => exact accounted.call env call steady
  | handlerReturns handled => exact accounted.handlerReturns env handled distinct steady
  | handleInput bytes =>
    have same : s.step env (.handleInput bytes) = s := by
      unfold Delivering.step
      split <;> first | rfl | contradiction
    rw [same]
    exact accounted

theorem Accounted.run (accounted : Accounted registered stanza s) (distinct : registered.Nodup)
    {inputs : List Input} (steady : s.AllSteady env registered inputs) :
    Accounted registered stanza (s.run env inputs) := by
  induction inputs generalizing s with
  | nil => exact accounted
  | cons input inputs ih => exact ih (accounted.step env distinct steady.1) steady.2

variable {env} {allowed : Engine σ τ → Bool → Prop} {config : Config} {sasl : σ}

/-- A stanza that comes in to an open engine. -/
theorem accounted_start {entered : State} {rest : List ParseEvent} {e : Engine σ τ}
    (reached : Reached env allowed config sasl (.handling entered (.stanza stanza :: rest)) e)
    (opened : e.state = .opened) (unasked : e.findIqEntry stanza = none)
    (fine : stanza.name ≠ qnStreamError) :
    Accounted e.registered stanza (start env e ⟨.iqHandler, stanza, rest, entered⟩) := by
  have handling := reached.holds.1
  obtain ⟨finished, settled⟩ := handling.opened opened
  have able : ¬ (e.hasError ∨ e.raisedReset) := by
    simp [hasError, handling.error (by simp [opened]), settled]
  have delivers : e.incomingStanza env ⟨.iqHandler, stanza, rest, entered⟩ =
      e.deliver env ⟨.iqHandler, stanza, rest, entered⟩ (levelsFrom .peek 0) := by
    unfold incomingStanza
    rw [if_neg able, if_neg fine, finished]
    dsimp only
    rw [unasked]
  have all : e.registered.filter (·.2 ∉ ([] : List Nat)) = e.registered := by simp
  unfold start
  rw [delivers]
  refine .deliver env (d := ⟨.iqHandler, stanza, rest, entered⟩) rfl ?_ ?_ ?_
  · unfold survivors
    dsimp only
    rw [all, List.map_nil, List.nil_append, ← registered_eq]
    exact List.filter_eq_self.mpr fun r member => decide_eq_true member
  · intro answer member
    cases member
  · rfl

/-- Where no handler is added again and none is passed by, the survivors are given the stanza
in their order, up to the first that handles it. -/
theorem delivered_in_order {entered : State} {rest : List ParseEvent} {e : Engine σ τ}
    (reached : Reached env allowed config sasl (.handling entered (.stanza stanza :: rest)) e)
    (opened : e.state = .opened) (unasked : e.findIqEntry stanza = none)
    (fine : stanza.name ≠ qnStreamError) (distinct : e.registered.Nodup) (inputs : List Input)
    (steady : (start env e ⟨.iqHandler, stanza, rest, entered⟩).AllSteady env e.registered
      inputs) :
    ((start env e ⟨.iqHandler, stanza, rest, entered⟩).run env inputs).Orderly e.registered
      stanza :=
  ((accounted_start reached opened unasked fine).run env distinct steady).orderly distinct

/-- A user has logged in, and two handlers peek. -/
def twoPeek : List Input :=
  Sample.login ++ [.call (.addStanzaHandler 1 .peek), .call (.addStanzaHandler 2 .peek)]

/-- The engine when a message comes. -/
def atMessage : Engine Unit Unit :=
  { (Sample.engine .disabled twoPeek).enter with parser := () }

/-- The delivery of the message. -/
def ofMessage (inputs : List Input) : Delivering Unit Unit :=
  (start Sample.server atMessage ⟨.iqHandler, Sample.message, [], .opened⟩).run Sample.server
    inputs

/-- The second handler removes itself. -/
theorem delivered_in_order_second :
    (ofMessage [.handlerReturns false, .call (.removeStanzaHandler 2),
      .handlerReturns false]).Orderly atMessage.registered Sample.message := by
  have opened : (Sample.engine .disabled twoPeek).state = .opened := by decide +kernel
  have idle : resting (Sample.engine .disabled twoPeek) = .idle := by
    have none : (Sample.engine .disabled twoPeek).delivery.isNone = true := by decide +kernel
    rw [resting, Option.isNone_iff_eq_none.mp none]
  have reached : Reached Sample.server (fun _ _ => True) (Sample.config .disabled) ()
      (resting (Sample.engine .disabled twoPeek)) (Sample.engine .disabled twoPeek) :=
    reached_run twoPeek (returns_any _ _)
  rw [idle] at reached
  have handling := reached.handleInput (Sample.bytes Sample.messageText) (by rw [opened]; decide)
  have events (t : Unit) : (Sample.server.parse t (Sample.bytes Sample.messageText)).1 =
      [.stanza Sample.message] := rfl
  rw [opened, events] at handling
  have arrived : Reached Sample.server (fun _ _ => True) (Sample.config .disabled) ()
      (.handling .opened [.stanza Sample.message]) atMessage := handling
  exact delivered_in_order arrived (by decide +kernel)
    (Option.isNone_iff_eq_none.mp (by decide +kernel)) (by decide +kernel) (by decide +kernel) _
    (by decide +kernel)

/-- The first handler removes itself, and the second is passed by. -/
theorem not_delivered_in_order_first :
    atMessage.state = .opened ∧ (atMessage.findIqEntry Sample.message).isNone ∧
      atMessage.registered.Nodup ∧
      ¬ (ofMessage [.call (.removeStanzaHandler 1), .handlerReturns false]).Orderly
        atMessage.registered Sample.message := by
  refine ⟨by decide +kernel, by decide +kernel, by decide +kernel, fun orderly => ?_⟩
  have finished : (ofMessage [.call (.removeStanzaHandler 1),
      .handlerReturns false]).progress.isFinished = true := by decide +kernel
  have none : (ofMessage [.call (.removeStanzaHandler 1), .handlerReturns false]).received.count
      (HandlerLevel.peek, 2) = 0 := by decide +kernel
  cases progress : (ofMessage [.call (.removeStanzaHandler 1), .handlerReturns false]).progress with
  | waiting e =>
    rw [progress] at finished
    cases finished
  | finished e =>
    have one := orderly.peeks e progress (.peek, 2) (by decide +kernel) rfl
    rw [none] at one
    cases one

end Delivering

end Libjingle.Xmpp
