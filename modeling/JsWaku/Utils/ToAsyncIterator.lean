import JsWaku.Lib.Transition
import Mathlib.Data.Int.Notation
import Mathlib.Data.Option.Basic

/-!
# Subscriptions as iterators

`toAsyncIterator` of `packages/utils/src/common/to_async_iterator.ts`, subscribed. The generator has its loop cut at its
two kinds of await: the wait of each round, and the await of a value on its way to the caller. Calls of `next` queue up
and are served in order; `stop` awaits `unsubscribe` and then forgets it.

Without a timeout, what the results carry is a prefix of what was delivered, and all of it once one of them is done
(`values_eq_delivered`): what was delivered is what was returned, what is on its way and what is queued (`Invariant`).
-/

namespace JsWaku.ToAsyncIterator

open Transition

variable {T : Type}

/-! ## Data -/

/-- An `IteratorResult`. -/
structure IteratorResult (T : Type) where
  value : Option T
  done : Bool
  deriving DecidableEq, Repr

/-- Where the generator is: not running, in `wait(iteratorDelay)`, with a value to yield or return, or at its end. -/
inductive Generator (T : Type)
  | suspended
  | waiting
  | yielding (message : Option T)
  | returning (message : Option T)
  | completed
  deriving DecidableEq, Repr

/-- The variables of the iterator, what the receiver still does, and what callers have seen. -/
structure State (T : Type) where
  messages : List T
  generator : Generator T
  /-- `unsubscribe` is defined. -/
  unsubscribe : Bool
  /-- Calls of `stop` that await `unsubscribe`. -/
  unsubscribing : ℕ
  /-- Calls of `stop` for which it has completed. -/
  unsubscribed : ℕ
  /-- A call of `stop` has completed. -/
  stopped : Bool
  /-- No call of `unsubscribe` has completed. -/
  receiving : Bool
  /-- Milliseconds since the start. -/
  elapsed : ℕ
  /-- Calls of `next` without a result. -/
  requests : ℕ
  /-- The results, in the order of their calls. -/
  results : List (IteratorResult T)
  /-- The messages the receiver has delivered, in order. -/
  delivered : List T

/-- The receiver, the callers and the promises in between. -/
inductive Event (T : Type)
  | deliver (message : T)
  | next
  | stop
  /-- The time of the round is over. -/
  | waited
  /-- The value is there for the caller. -/
  | settled
  | unsubscribed
  | unsubscribeRejected
  | stopResumed
  | passed (milliseconds : ℕ)

/-- Subscribed, with nothing delivered. -/
def init : State T where
  messages := []
  generator := .suspended
  unsubscribe := true
  unsubscribing := 0
  unsubscribed := 0
  stopped := false
  receiving := true
  elapsed := 0
  requests := 0
  results := []
  delivered := []

/-! ## The code -/

variable (timeoutMs : Option ℤ)

/-- The loop up to its first await, with the timeout if it is an integer. -/
def loop (s : State T) : State T :=
  match timeoutMs with
  | some timeoutMs =>
    if (s.elapsed : ℤ) ≥ timeoutMs then { s with generator := .returning none } else { s with generator := .waiting }
  | none => { s with generator := .waiting }

/-- The loop from its first await on. -/
def resume (s : State T) : State T :=
  let message := s.messages.head?
  let s := { s with messages := s.messages.tail }
  if !s.unsubscribe && s.messages.isEmpty then { s with generator := .returning message }
  else if message.isNone && s.unsubscribe then loop timeoutMs s
  else { s with generator := .yielding message }

/-- One thing happens. -/
def step (s : State T) : Event T → Option (State T)
  | .deliver message => do
    guard s.receiving
    some { s with messages := s.messages ++ [message], delivered := s.delivered ++ [message] }
  | .next =>
    match s.generator with
    | .completed => some { s with results := s.results ++ [⟨none, true⟩] }
    | .suspended => some (loop timeoutMs { s with requests := s.requests + 1 })
    | _ => some { s with requests := s.requests + 1 }
  | .waited =>
    match s.generator with
    | .waiting => some (resume timeoutMs s)
    | _ => none
  | .settled =>
    match s.generator with
    | .yielding message =>
      let s := { s with results := s.results ++ [⟨message, false⟩], requests := s.requests - 1 }
      if s.requests = 0 then some { s with generator := .suspended } else some (loop timeoutMs s)
    | .returning message =>
      -- the calls that wait behind it are done as well
      some { s with
        results := s.results ++ ⟨message, true⟩ :: List.replicate (s.requests - 1) ⟨none, true⟩
        requests := 0
        generator := .completed }
    | _ => none
  | .stop =>
    if s.unsubscribe then some { s with unsubscribing := s.unsubscribing + 1 } else some { s with stopped := true }
  | .unsubscribed => do
    guard (0 < s.unsubscribing)
    some { s with
      unsubscribing := s.unsubscribing - 1
      unsubscribed := s.unsubscribed + 1
      receiving := false }
  | .unsubscribeRejected => do
    guard (0 < s.unsubscribing)
    some { s with unsubscribing := s.unsubscribing - 1 }
  | .stopResumed => do
    guard (0 < s.unsubscribed)
    some { s with unsubscribed := s.unsubscribed - 1, unsubscribe := false, stopped := true }
  | .passed milliseconds => some { s with elapsed := s.elapsed + milliseconds }

/-! ## Where the messages are -/

/-- The message on its way to a caller. -/
def Generator.inFlight : Generator T → List T
  | .yielding message | .returning message => message.toList
  | _ => []

/-- The generator is past its loop. -/
def Generator.Ended : Generator T → Prop
  | .returning _ | .completed => True
  | _ => False

/-- The defined values of the results. -/
def State.values (s : State T) : List T := s.results.filterMap (·.value)

/-- A result is done. -/
def State.IsDone (s : State T) : Prop := ∃ result ∈ s.results, result.done = true

/-- What was delivered was returned, is on its way or is queued; nothing is delivered once `unsubscribe` has completed,
and the generator ends after that, with nothing queued. -/
structure Invariant (s : State T) : Prop where
  delivered : s.delivered = s.values ++ s.generator.inFlight ++ s.messages
  quiet : 0 < s.unsubscribed ∨ s.unsubscribe = false → s.receiving = false
  stopped : s.unsubscribe = false → s.stopped = true
  ended : s.generator.Ended → s.unsubscribe = false ∧ s.messages = []
  completed : s.IsDone → s.generator = .completed

theorem init_invariant : Invariant (init : State T) where
  delivered := rfl
  quiet := by simp [init]
  stopped := by simp [init]
  ended := False.elim
  completed := by simp [init, State.IsDone]

/-! ## Steps -/

/-- Without a timeout the loop comes to its wait. -/
theorem loop_none (s : State T) : loop none s = { s with generator := .waiting } := rfl

/-- A generator that is at its wait again, or has nothing to do, ends nothing. -/
theorem Invariant.idle {s : State T} (h : Invariant s) {generator : Generator T} (hnot : ¬s.generator.Ended)
    (hin : s.generator.inFlight = []) (hin' : generator.inFlight = []) (hnot' : ¬generator.Ended) (requests : ℕ) :
    Invariant { s with generator, requests } where
  delivered := by
    have hdelivered := h.delivered
    rw [hin] at hdelivered
    change _ = s.values ++ generator.inFlight ++ _
    rw [hin', hdelivered]
  quiet := h.quiet
  stopped := h.stopped
  ended := fun hended => absurd hended hnot'
  completed := fun hdone => by
    have hended : s.generator.Ended := by rw [h.completed hdone]; trivial
    exact absurd hended hnot

/-- A round that was waited for takes the first message out of the queue and keeps it. -/
theorem Invariant.resume {s : State T} (h : Invariant s) (hwaiting : s.generator = .waiting) :
    Invariant (resume none s) := by
  have hdelivered : s.delivered = s.values ++ (s.messages.head?.toList ++ s.messages.tail) := by
    have hd := h.delivered
    rw [hwaiting] at hd
    rw [hd]
    cases s.messages <;> simp [Generator.inFlight]
  have hnotDone : ¬s.IsDone := fun hdone => by
    have hcompleted := h.completed hdone
    rw [hwaiting] at hcompleted
    cases hcompleted
  unfold ToAsyncIterator.resume
  dsimp only
  split
  case isTrue hend =>
    obtain ⟨hunsubscribe, hempty⟩ := Bool.and_eq_true _ _ ▸ hend
    have hends : s.unsubscribe = false ∧ s.messages.tail = [] := ⟨by simpa using hunsubscribe, by simpa using hempty⟩
    refine ⟨?_, h.quiet, h.stopped, fun _ => hends, fun hdone => absurd hdone hnotDone⟩
    simpa [State.values, Generator.inFlight] using hdelivered
  case isFalse =>
    split
    case isTrue hnone =>
      obtain ⟨hnone, -⟩ := Bool.and_eq_true _ _ ▸ hnone
      rw [loop_none]
      refine ⟨?_, h.quiet, h.stopped, False.elim, fun hdone => absurd hdone hnotDone⟩
      simpa [State.values, Generator.inFlight, Option.isNone_iff_eq_none.1 hnone] using hdelivered
    case isFalse =>
      refine ⟨?_, h.quiet, h.stopped, False.elim, fun hdone => absurd hdone hnotDone⟩
      simpa [State.values, Generator.inFlight] using hdelivered

/-- A value that has arrived becomes a result. -/
theorem Invariant.settled {s s' : State T} (h : Invariant s) (hstep : step none s .settled = some s') :
    Invariant s' := by
  have hd := h.delivered
  have hcompleted := h.completed
  have hended := h.ended
  dsimp only [step] at hstep
  split at hstep
  case h_1 message hyielding =>
    rw [hyielding] at hd hcompleted
    -- the state with the result, at its wait or without a call
    have hthen : ∀ generator : Generator T, generator.inFlight = [] → ¬generator.Ended →
        Invariant { s with
          results := s.results ++ [⟨message, false⟩]
          requests := s.requests - 1
          generator } := by
      intro generator hin hnot
      refine ⟨?_, h.quiet, h.stopped, fun hyes => absurd hyes hnot, ?_⟩
      · change _ = State.values _ ++ generator.inFlight ++ _
        rw [hin, hd]
        cases message <;> simp [State.values, Generator.inFlight]
      · rintro ⟨result, hmem, hdone⟩
        rcases List.mem_append.1 hmem with hmem | hmem
        · cases hcompleted ⟨result, hmem, hdone⟩
        · cases List.mem_singleton.1 hmem
          cases hdone
    split at hstep
    · cases hstep
      exact hthen .suspended rfl id
    · cases hstep
      exact hthen .waiting rfl id
  case h_2 message hreturning =>
    cases hstep
    rw [hreturning] at hd hended
    refine ⟨?_, h.quiet, h.stopped, fun _ => hended trivial, fun _ => rfl⟩
    rw [hd]
    cases message <;> simp [State.values, Generator.inFlight]
  case h_3 => cases hstep

/-- A call of `next` has its result at once, or starts a round, or waits. -/
theorem Invariant.next {s s' : State T} (h : Invariant s) (hstep : step none s .next = some s') : Invariant s' := by
  have hd := h.delivered
  dsimp only [step] at hstep
  split at hstep
  case h_1 hcompleted =>
    cases hstep
    rw [hcompleted] at hd
    have hended : s.generator.Ended := by
      rw [hcompleted]
      trivial
    refine ⟨?_, h.quiet, h.stopped, fun _ => h.ended hended, fun _ => hcompleted⟩
    simpa [State.values, Generator.inFlight, hcompleted] using hd
  case h_2 hsuspended =>
    cases hstep
    rw [loop_none]
    exact h.idle (by rw [hsuspended]; exact id) (by rw [hsuspended]; rfl) rfl id _
  case h_3 =>
    cases hstep
    exact ⟨hd, h.quiet, h.stopped, h.ended, h.completed⟩

/-- Every step keeps the invariant. -/
theorem step_invariant (s : State T) (e : Event T) (s' : State T) (h : Invariant s) (hstep : step none s e = some s') :
    Invariant s' := by
  cases e with
  | deliver message =>
    obtain ⟨_, hguard, hstep⟩ := Option.bind_eq_some_iff.1 hstep
    have hreceiving : s.receiving = true := (Option.guard_eq_some' _).1 hguard
    cases hstep
    refine ⟨?_, h.quiet, h.stopped, fun hended => ?_, h.completed⟩
    · simp [State.values, h.delivered]
    · -- the receiver is quiet at the end
      have hquiet := h.quiet (.inr (h.ended hended).1)
      rw [hreceiving] at hquiet
      cases hquiet
  | next => exact h.next hstep
  | stop =>
    dsimp only [step] at hstep
    split at hstep
    · cases hstep
      exact ⟨h.delivered, h.quiet, h.stopped, h.ended, h.completed⟩
    · cases hstep
      exact ⟨h.delivered, h.quiet, fun _ => rfl, h.ended, h.completed⟩
  | waited =>
    dsimp only [step] at hstep
    split at hstep
    case h_1 hwaiting =>
      cases hstep
      exact h.resume hwaiting
    case h_2 => cases hstep
  | settled => exact h.settled hstep
  | unsubscribed =>
    obtain ⟨-, -, hstep⟩ := Option.bind_eq_some_iff.1 hstep
    cases hstep
    exact ⟨h.delivered, fun _ => rfl, h.stopped, h.ended, h.completed⟩
  | unsubscribeRejected =>
    obtain ⟨-, -, hstep⟩ := Option.bind_eq_some_iff.1 hstep
    cases hstep
    exact ⟨h.delivered, h.quiet, h.stopped, h.ended, h.completed⟩
  | stopResumed =>
    obtain ⟨_, hguard, hstep⟩ := Option.bind_eq_some_iff.1 hstep
    have hunsubscribed : 0 < s.unsubscribed := (Option.guard_eq_some' _).1 hguard
    cases hstep
    exact ⟨h.delivered, fun _ => h.quiet (.inl hunsubscribed), fun _ => rfl, fun hended => ⟨rfl, (h.ended hended).2⟩,
      h.completed⟩
  | passed milliseconds =>
    cases hstep
    exact ⟨h.delivered, h.quiet, h.stopped, h.ended, h.completed⟩

/-! ## Runs -/

/-- **Without a timeout the values of the results are the messages delivered first, in order, and once a call of `stop`
has completed and a result is done they are all of them.** -/
theorem values_eq_delivered (es : List (Event T)) {s : State T} (hrun : run (step none) init es = some s) :
    s.values <+: s.delivered ∧ (s.stopped = true → s.IsDone → s.values = s.delivered) := by
  have h := run_invariant step_invariant es init_invariant hrun
  refine ⟨⟨s.generator.inFlight ++ s.messages, by rw [h.delivered, List.append_assoc]⟩, fun _ hdone => ?_⟩
  have hcompleted := h.completed hdone
  have hd := h.delivered
  have hempty := (h.ended (by rw [hcompleted]; trivial)).2
  rw [hcompleted, hempty] at hd
  simpa [Generator.inFlight] using hd.symm

/-- Two messages come, the first is taken, the rest after a stop. -/
def stoppedRun : List (Event ℕ) :=
  [.deliver 7, .next, .deliver 8, .waited, .settled, .stop, .unsubscribed, .next, .stopResumed, .waited, .settled]

theorem values_eq_delivered_stoppedRun :
    ∃ s, run (step none) init stoppedRun = some s ∧ s.results = [⟨some 7, false⟩, ⟨some 8, true⟩] ∧
      s.values = s.delivered :=
  ⟨_, rfl, rfl, (values_eq_delivered stoppedRun rfl).2 rfl ⟨⟨some 8, true⟩, by decide, rfl⟩⟩

end JsWaku.ToAsyncIterator
