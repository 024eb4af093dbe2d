import JsWaku.Core.ConnectionManager.Model

/-!
# Parallel dials and the dial queue

A ledger forgets of the connection manager all but the dial count, the queue, and how many attempts and dials are under
way. Every step of the code is a step of the ledger (`step_ledger`), except that a dial is abandoned where the log of its
error throws: it ends with the count as it was and without a look at the queue (`ledger_abandoned`). The ledger carries
the invariants:

- the count is the number of active dials and of those abandoned, and never exceeds the maximum, so that it is the number
  of active dials exactly in the runs that abandon none (`dials_bounded`);
- while no attempt or dial ends without a look at the queue, with peers queued and nothing else under way, a non-empty
  queue has an attempt or a dial that will process it, so that it is empty at rest (`queue_empty_at_rest`). A step that
  breaks the condition strands the queue (`stranded`): a queue entry is taken only when a dial completes.
-/

namespace JsWaku.ConnectionManager

open Transition

/-! ## The ledger -/

/-- The dial count, the queue, the attempts that have not come to dialing, and the dials between their increment and
their decrement of the count. -/
structure Ledger where
  count : ℤ
  queue : List PeerId
  attempts : ℕ
  active : ℕ

namespace Ledger

/-- What `processDialQueue` does: the first peer of the queue becomes an attempt, below the maximum. -/
def processed (max : ℕ) (l : Ledger) : Ledger :=
  if l.queue.length > 0 ∧ l.count < max then { l with queue := l.queue.tail, attempts := l.attempts + 1 } else l

/-- The steps of a ledger; an attempt is turned down only where `down` allows it, and queued only where `queued` does. -/
inductive Step (max : ℕ) (down queued : Prop) : Ledger → Ledger → Prop
  | start (l : Ledger) (n : ℕ) : Step max down queued l { l with attempts := l.attempts + n }
  | turnDown (l : Ledger) (h : down) : Step max down queued { l with attempts := l.attempts + 1 } l
  | enqueue (l : Ledger) (peerId : PeerId) (h : queued) :
      Step max down queued { l with attempts := l.attempts + 1 } { l with queue := l.queue ++ [peerId] }
  | dial (l : Ledger) (h : l.count < max) :
      Step max down queued { l with attempts := l.attempts + 1 } { l with count := l.count + 1, active := l.active + 1 }
  | finish (l : Ledger) :
      Step max down queued { l with active := l.active + 1 } (processed max { l with count := l.count - 1 })
  | dialNothing (l : Ledger) (h : l.count < max) :
      Step max down queued { l with attempts := l.attempts + 1 } (processed max l)

/-- The count counts the active dials and those abandoned, and is at most the maximum. -/
def Accounted (max abandoned : ℕ) (l : Ledger) : Prop := l.count = l.active + abandoned ∧ l.count ≤ max

/-- Whoever is queued has an attempt or a dial under way that will process the queue. -/
def Served (l : Ledger) : Prop := l.queue = [] ∨ 0 < l.attempts + l.active

theorem accounted_processed {max n : ℕ} {l : Ledger} (h : l.Accounted max n) : (l.processed max).Accounted max n := by
  rw [processed]
  split <;> exact h

theorem served_processed {max : ℕ} {l : Ledger} (h : l.count < max) : (l.processed max).Served := by
  rw [processed]
  split
  · exact Or.inr (by simp only; omega)
  · rename_i hno
    refine Or.inl (List.length_eq_zero_iff.1 ?_)
    have : ¬(l.queue.length > 0 ∧ l.count < max) := hno
    omega

/-- Every step keeps the account. -/
theorem Step.accounted {max n : ℕ} {down queued : Prop} {l l' : Ledger} (h : Step max down queued l l')
    (hacc : l.Accounted max n) : l'.Accounted max n := by
  cases h with
  | start m => exact hacc
  | turnDown l hturn => exact hacc
  | enqueue l peerId h => exact hacc
  | dial l h =>
    obtain ⟨hcount, hle⟩ := hacc
    simp only [Accounted] at *
    omega
  | finish l =>
    refine accounted_processed ?_
    obtain ⟨hcount, hle⟩ := hacc
    simp only [Accounted] at *
    omega
  | dialNothing l h => exact accounted_processed hacc

/-- Every step keeps the queue served, if an attempt is turned down only with an empty queue or with another attempt or
dial under way, and queued only with another under way. -/
theorem Step.served {max n : ℕ} {down queued : Prop} {l l' : Ledger} (h : Step max down queued l l')
    (hacc : l.Accounted max n) (hserved : l.Served) (hdown : down → l.queue = [] ∨ 2 ≤ l.attempts + l.active)
    (hqueued : queued → 2 ≤ l.attempts + l.active) : l'.Served := by
  cases h with
  | start n =>
    rcases hserved with hempty | hpos
    · exact Or.inl hempty
    · exact Or.inr (by simp only; omega)
  | turnDown l hturn =>
    rcases hdown hturn with hempty | htwo
    · exact Or.inl hempty
    · exact Or.inr (by simp only at htwo; omega)
  | enqueue l peerId h =>
    have htwo := hqueued h
    exact Or.inr (by simp only at htwo ⊢; omega)
  | dial l h => exact Or.inr (by simp only; omega)
  | finish l =>
    obtain ⟨hcount, hle⟩ := hacc
    simp only at hcount hle
    exact served_processed (by simp only; omega)
  | dialNothing l hlt => exact served_processed hlt

end Ledger

/-! ## The ledger of a state -/

/-- The ledger of a state. -/
def State.ledger (s : State) : Ledger :=
  ⟨s.currentActiveParallelDialCount, s.pendingPeerDialQueue, s.tasks.countP Task.isAttempt,
    s.tasks.countP Task.isActiveDial⟩

section

variable {options : Options} {s s' : State} {t : Task}

theorem ledger_spawn (s : State) (t : Task) : (s.spawn t).ledger =
    { s.ledger with attempts := s.ledger.attempts + (if t.isAttempt then 1 else 0),
                    active := s.ledger.active + (if t.isActiveDial then 1 else 0) } := by
  simp [State.ledger, State.spawn, List.countP_append, List.countP_singleton]

theorem ledger_resume (h : s.resume t = some s') : s.ledger =
    { s'.ledger with attempts := s'.ledger.attempts + (if t.isAttempt then 1 else 0),
                     active := s'.ledger.active + (if t.isActiveDial then 1 else 0) } := by
  obtain ⟨tasks, htake, rfl⟩ := Option.map_eq_some_iff.1 h
  simp only [State.ledger]
  rw [countP_take htake, countP_take htake]

/-- The first segment of `attemptDial` adds an attempt. -/
theorem ledger_attemptDial (s : State) (peerId : PeerId) :
    (s.attemptDial peerId).ledger = { s.ledger with attempts := s.ledger.attempts + 1 } := by
  rw [State.attemptDial]
  split <;> exact ledger_spawn s _

theorem ledger_foldl_attemptDial (peers : List PeerId) (s : State) :
    (peers.foldl State.attemptDial s).ledger = { s.ledger with attempts := s.ledger.attempts + peers.length } := by
  induction peers generalizing s with
  | nil => rfl
  | cons p peers ih =>
    rw [List.foldl_cons, ih, ledger_attemptDial, List.length_cons]
    simp only [Nat.add_assoc, Nat.add_comm 1]

theorem ledger_processDialQueue (s : State) :
    (s.processDialQueue options).ledger = s.ledger.processed options.maxParallelDials := by
  by_cases h : s.pendingPeerDialQueue.length > 0 ∧ s.currentActiveParallelDialCount < options.maxParallelDials
  · have h' : s.ledger.queue.length > 0 ∧ s.ledger.count < options.maxParallelDials := h
    rw [State.processDialQueue, if_pos h, Ledger.processed, if_pos h']
    cases hq : s.pendingPeerDialQueue with
    | nil => simp [hq] at h
    | cons p rest =>
      simp only [ledger_attemptDial]
      simp [State.ledger, hq]
  · have h' : ¬(s.ledger.queue.length > 0 ∧ s.ledger.count < options.maxParallelDials) := h
    rw [State.processDialQueue, if_neg h, Ledger.processed, if_neg h']

theorem ledger_finishDial (s : State) : (s.finishDial options).ledger =
    { s.ledger with count := s.ledger.count - 1 }.processed options.maxParallelDials :=
  ledger_processDialQueue _

theorem ledger_forget (s : State) (peerId : PeerId) (connected : Bool) :
    (s.forget peerId connected).ledger = s.ledger := by
  rw [State.forget]
  split
  · rfl
  · split <;> exact ledger_spawn _ _
  · split <;> exact ledger_spawn _ _

/-- The loop of `dialPeer` goes on dialing, or finishes. -/
theorem ledger_dialLoop (options : Options) (s : State) (peerId : PeerId) (dialAttempt : ℕ) (connected : Bool) :
    (s.dialLoop options peerId dialAttempt connected).ledger = { s.ledger with active := s.ledger.active + 1 } ∨
      (s.dialLoop options peerId dialAttempt connected).ledger =
        { s.ledger with count := s.ledger.count - 1 }.processed options.maxParallelDials := by
  rw [State.dialLoop]
  split
  · exact Or.inl (ledger_spawn s _)
  · exact Or.inr (by rw [ledger_forget, ledger_finishDial])

/-- An attempt is turned down, or fails before dialing. -/
def turnsDown (options : Options) : Event → Bool
  | .shardLookedUp _ lookup => !(isPeerTopicConfigured options lookup).toBool
  | .shardWarned _ lookup => !(getPeerShardInfo lookup).toBool
  | .answered _ shouldDial => !shouldDial
  | _ => false

/-- An attempt is not dialed at once, but queued. -/
def queues (options : Options) (s : State) : Event → Bool
  | .answered _ shouldDial => shouldDial && s.currentActiveParallelDialCount ≥ options.maxParallelDials
  | _ => false

/-- The log of the error of an attempt throws, which abandons the dial. -/
def abandonsDial : Event → Bool
  | .dialRejected _ _ _ error | .tagged _ _ _ (.error error) => !error.logged.toBool
  | _ => false

/-- Taking a call up and suspending it at another place of the same kind changes nothing. -/
theorem ledger_step_same {down queued : Prop} {max : ℕ} {l l' : Ledger} (h : l' = l) :
    Ledger.Step max down queued l l' := by
  subst h
  exact Ledger.Step.start l' 0

/-- `attemptDial` after `shouldDialPeer` ends the attempt in one of four ways. -/
theorem ledger_attemptDialAnswered (s : State) (peerId : PeerId) (shouldDial : Bool) :
    Ledger.Step options.maxParallelDials ((!shouldDial) = true) (queues options s (.answered peerId shouldDial) = true)
      { s.ledger with attempts := s.ledger.attempts + 1 } (s.attemptDialAnswered options peerId shouldDial).ledger := by
  cases shouldDial with
  | false => exact Ledger.Step.turnDown s.ledger rfl
  | true =>
    by_cases hmax : s.currentActiveParallelDialCount ≥ options.maxParallelDials
    · have heq : s.attemptDialAnswered options peerId true =
          { s with pendingPeerDialQueue := s.pendingPeerDialQueue ++ [peerId] } := by
        simp [State.attemptDialAnswered, hmax]
      rw [heq]
      exact Ledger.Step.enqueue s.ledger peerId (by simp [queues, hmax])
    · have heq : s.attemptDialAnswered options peerId true = s.dialPeer options peerId := by
        simp [State.attemptDialAnswered, hmax]
      have hlt : s.ledger.count < options.maxParallelDials := not_le.1 hmax
      rw [heq, State.dialPeer]
      rcases ledger_dialLoop options
        { s with currentActiveParallelDialCount := s.currentActiveParallelDialCount + 1 } peerId 0 false with h | h
      · rw [h]
        exact Ledger.Step.dial s.ledger hlt
      · have hcount : s.currentActiveParallelDialCount + 1 - 1 = s.currentActiveParallelDialCount := by omega
        simp only [State.ledger, hcount] at h
        simp only [State.ledger, h]
        exact Ledger.Step.dialNothing s.ledger hlt

/-- A failed dial goes on with its next attempt, or finishes, if its error can be logged. -/
theorem ledger_dialFailed {down queued : Prop} (s : State) (peerId : PeerId) (dialAttempt : ℕ) (connected : Bool)
    {error : Caught} (hlog : error.logged.toBool = true) :
    Ledger.Step options.maxParallelDials down queued { s.ledger with active := s.ledger.active + 1 }
      (s.dialFailed options peerId dialAttempt connected error).ledger := by
  obtain ⟨text, htext⟩ := exists_of_toBool hlog
  rw [State.dialFailed, htext]
  rcases ledger_dialLoop options (s.recordFailure peerId dialAttempt error) peerId (dialAttempt + 1) connected with h | h
  · exact ledger_step_same h
  · simp only [h]
    exact Ledger.Step.finish s.ledger

/-- A failed dial whose error cannot be logged is left as it is. -/
theorem dialFailed_of_not_logged (s : State) (peerId : PeerId) (dialAttempt : ℕ) (connected : Bool) {error : Caught}
    (hlog : error.logged.toBool = false) : s.dialFailed options peerId dialAttempt connected error = s := by
  rw [State.dialFailed]
  cases hlogged : error.logged with
  | error _ => rfl
  | ok _ => rw [hlogged] at hlog; cases hlog

/-- A dial that is abandoned ends, and nothing else changes. -/
theorem ledger_abandoned {e : Event} (h : step options s e = some s') (habandons : abandonsDial e = true) :
    s.ledger = { s'.ledger with active := s'.ledger.active + 1 } := by
  cases e with
  | dialRejected peerId dialAttempt connected error =>
    obtain ⟨s₀, hs₀, rfl⟩ := Option.map_eq_some_iff.1 h
    rw [ledger_resume hs₀, dialFailed_of_not_logged s₀ _ _ _ (by simpa [abandonsDial] using habandons)]
    rfl
  | tagged peerId dialAttempt tagNames keepAlive =>
    obtain ⟨s₀, hs₀, rfl⟩ := Option.map_eq_some_iff.1 h
    cases keepAlive with
    | ok => cases habandons
    | error error =>
      simp only [ledger_resume hs₀,
        dialFailed_of_not_logged (s₀.recordDial peerId tagNames) _ _ _ (by simpa [abandonsDial] using habandons)]
      rfl
  | _ => cases habandons

/-- **The code refines the ledger.** Every step of the connection manager that abandons no dial is a step of its
ledger. -/
theorem step_ledger {e : Event} (h : step options s e = some s') (hkeeps : abandonsDial e = false) :
    Ledger.Step options.maxParallelDials (turnsDown options e = true) (queues options s e = true) s.ledger
      s'.ledger := by
  cases e with
  | attemptDial peerId =>
    cases h
    rw [ledger_attemptDial]
    exact Ledger.Step.start _ 1
  | discovered peerId => cases h; exact ledger_step_same (ledger_spawn s _)
  | listed peers =>
    obtain ⟨s₀, hs₀, rfl⟩ := Option.map_eq_some_iff.1 h
    rw [ledger_resume hs₀, ledger_foldl_attemptDial]
    exact Ledger.Step.start _ _
  | dispatched peerId =>
    obtain ⟨s₀, hs₀, rfl⟩ := Option.map_eq_some_iff.1 h
    rw [ledger_resume hs₀, ledger_attemptDial]
    exact Ledger.Step.start _ 1
  | shardLookedUp peerId lookup =>
    obtain ⟨s₀, hs₀, rfl⟩ := Option.map_eq_some_iff.1 h
    rw [ledger_resume hs₀]
    cases hc : isPeerTopicConfigured options lookup with
    | error e => exact Ledger.Step.turnDown _ (by rw [turnsDown, hc]; rfl)
    | ok b => cases b <;> exact ledger_step_same (ledger_spawn s₀ _)
  | shardWarned peerId lookup =>
    obtain ⟨s₀, hs₀, rfl⟩ := Option.map_eq_some_iff.1 h
    rw [ledger_resume hs₀]
    cases hc : getPeerShardInfo lookup with
    | error e => exact Ledger.Step.turnDown _ (by rw [turnsDown, hc]; rfl)
    | ok info => exact ledger_step_same (ledger_spawn s₀ _)
  | bootstrapLookedUp peerId tagNames =>
    obtain ⟨s₀, hs₀, rfl⟩ := Option.map_eq_some_iff.1 h
    rw [ledger_resume hs₀]
    exact ledger_step_same (ledger_spawn s₀ _)
  | bootstrapChecked peerId isPreferred =>
    obtain ⟨s₀, hs₀, rfl⟩ := Option.map_eq_some_iff.1 h
    rw [ledger_resume hs₀]
    exact ledger_step_same (ledger_spawn s₀ _)
  | answered peerId shouldDial =>
    obtain ⟨s₀, hs₀, rfl⟩ := Option.map_eq_some_iff.1 h
    have hcount : queues options s (.answered peerId shouldDial) = queues options s₀ (.answered peerId shouldDial) := by
      rw [queues, queues, (resume_eq hs₀).2]
    rw [ledger_resume hs₀, hcount]
    exact ledger_attemptDialAnswered s₀ peerId shouldDial
  | dialResolved peerId dialAttempt connected =>
    obtain ⟨s₀, hs₀, rfl⟩ := Option.map_eq_some_iff.1 h
    rw [ledger_resume hs₀]
    exact ledger_step_same (ledger_spawn s₀ _)
  | dialRejected peerId dialAttempt connected error =>
    obtain ⟨s₀, hs₀, rfl⟩ := Option.map_eq_some_iff.1 h
    rw [ledger_resume hs₀]
    exact ledger_dialFailed s₀ peerId dialAttempt connected (by simpa [abandonsDial] using hkeeps)
  | tagged peerId dialAttempt tagNames keepAlive =>
    obtain ⟨s₀, hs₀, rfl⟩ := Option.map_eq_some_iff.1 h
    rw [ledger_resume hs₀]
    cases keepAlive with
    | ok =>
      simp only [ledger_finishDial]
      exact Ledger.Step.finish s₀.ledger
    | error error =>
      exact ledger_dialFailed (s₀.recordDial peerId tagNames) peerId dialAttempt true
        (by simpa [abandonsDial] using hkeeps)
  | deleted peerId outcome =>
    obtain ⟨s₀, hs₀, rfl⟩ := Option.map_eq_some_iff.1 h
    rw [ledger_resume hs₀]
    cases outcome with
    | ok => exact ledger_step_same (ledger_spawn s₀ _)
    | error e => exact ledger_step_same rfl
  | dnsDiscovered peerId outcome =>
    rw [ledger_resume h]
    exact ledger_step_same rfl
  | connectionOpened conn keepAlive =>
    refine ledger_step_same ?_
    rw [step] at h
    split at h
    · cases h
    · split at h
      · cases h; exact ledger_spawn _ _
      · cases h; rfl
  | connectionClosed conn =>
    refine ledger_step_same ?_
    rw [step] at h
    split at h
    · simp only at h
      split at h
      · cases h; rw [State.setP2PNetworkDisconnected]; split <;> rfl
      · cases h; rfl
    · cases h
  | connectLookedUp peerId tagNames =>
    obtain ⟨s₀, hs₀, rfl⟩ := Option.map_eq_some_iff.1 h
    rw [ledger_resume hs₀]
    refine ledger_step_same ?_
    rw [State.connectLookedUp]
    split
    · exact ledger_spawn s₀ _
    · rfl
  | dropped peerId =>
    obtain ⟨s₀, hs₀, rfl⟩ := Option.map_eq_some_iff.1 h
    rw [ledger_resume hs₀]
    exact ledger_step_same rfl

/-! ## Runs -/

theorem accounted_init (options : Options) (connections : List Connection) :
    (init connections).ledger.Accounted options.maxParallelDials 0 :=
  ⟨rfl, Int.natCast_nonneg _⟩

/-- A step keeps the account; what it abandons stays counted. -/
theorem step_accounted {e : Event} {n : ℕ} (hacc : s.ledger.Accounted options.maxParallelDials n)
    (h : step options s e = some s') :
    s'.ledger.Accounted options.maxParallelDials (if abandonsDial e then n + 1 else n) := by
  cases habandons : abandonsDial e with
  | false => exact (step_ledger h habandons).accounted hacc
  | true =>
    rw [ledger_abandoned h habandons] at hacc
    obtain ⟨hcount, hle⟩ := hacc
    simp only [Ledger.Accounted, if_true] at *
    omega

/-- Every run keeps the account of what it has abandoned. -/
theorem run_accounted {es : List Event} {n : ℕ} (hacc : s.ledger.Accounted options.maxParallelDials n)
    (hrun : run (step options) s es = some s') :
    s'.ledger.Accounted options.maxParallelDials (n + es.countP abandonsDial) := by
  induction es generalizing s n with
  | nil =>
    cases hrun
    exact hacc
  | cons e es ih =>
    obtain ⟨s₁, hstep, hrun⟩ := run_cons.1 hrun
    have hthen := ih (step_accounted hacc hstep) hrun
    rw [List.countP_cons]
    split at hthen <;> simp_all [Nat.add_comm, Nat.add_left_comm]

/-- **Parallel dials are bounded, and accounted for unless one is abandoned.** In every state reached, the dial count is
not negative and does not exceed `maxParallelDials`; and it is the number of `dialPeer` calls between their increment and
their decrement if and only if no step so far was the failure of an attempt whose error cannot be logged. -/
theorem dials_bounded (options : Options) (connections : List Connection) (es : List Event) (s : State)
    (hrun : run (step options) (init connections) es = some s) :
    (s.currentActiveParallelDialCount = s.tasks.countP Task.isActiveDial ↔ ∀ e ∈ es, abandonsDial e = false) ∧
      0 ≤ s.currentActiveParallelDialCount ∧ s.currentActiveParallelDialCount ≤ options.maxParallelDials := by
  obtain ⟨hcount, hle⟩ := run_accounted (accounted_init options connections) hrun
  simp only [State.ledger] at hcount hle
  have hnone : es.countP abandonsDial = 0 ↔ ∀ e ∈ es, abandonsDial e = false := by simp [List.countP_eq_zero]
  refine ⟨?_, by omega, hle⟩
  rw [← hnone]
  omega

/-- An attempt is turned down, and a dial abandoned, only with an empty queue or with another attempt or active dial under
way; and an attempt is queued only with another attempt or active dial under way. -/
structure Rescued (options : Options) (s : State) (e : Event) : Prop where
  ended : turnsDown options e ∨ abandonsDial e → s.pendingPeerDialQueue = [] ∨
    2 ≤ s.tasks.countP Task.isAttempt + s.tasks.countP Task.isActiveDial
  queued : queues options s e → 2 ≤ s.tasks.countP Task.isAttempt + s.tasks.countP Task.isActiveDial

instance (options : Options) (s : State) (e : Event) : Decidable (Rescued options s e) :=
  decidable_of_iff
    ((turnsDown options e ∨ abandonsDial e → s.pendingPeerDialQueue = [] ∨
        2 ≤ s.tasks.countP Task.isAttempt + s.tasks.countP Task.isActiveDial) ∧
      (queues options s e → 2 ≤ s.tasks.countP Task.isAttempt + s.tasks.countP Task.isActiveDial))
    ⟨fun h => ⟨h.1, h.2⟩, fun h => ⟨h.ended, h.queued⟩⟩

/-- At rest there is no attempt and no dial. -/
theorem countP_of_quiescent (h : s.Quiescent) :
    s.tasks.countP Task.isAttempt = 0 ∧ s.tasks.countP Task.isActiveDial = 0 :=
  ⟨List.countP_eq_zero.2 fun t ht => (h t ht).1, List.countP_eq_zero.2 fun t ht => (h t ht).2.1⟩

/-- A step keeps the queue served, if it is rescued. -/
theorem served_step {e : Event} {n : ℕ} (hacc : s.ledger.Accounted options.maxParallelDials n) (hserved : s.ledger.Served)
    (hrescued : Rescued options s e) (h : step options s e = some s') : s'.ledger.Served := by
  cases habandons : abandonsDial e with
  | false =>
    exact (step_ledger h habandons).served hacc hserved (fun hturn => hrescued.ended (.inl hturn)) hrescued.queued
  | true =>
    have hended := hrescued.ended (.inr habandons)
    have hleft := ledger_abandoned h habandons
    simp only [State.ledger, Ledger.mk.injEq] at hleft
    obtain ⟨-, hqueue, hattempts, hactive⟩ := hleft
    simp only [Ledger.Served, State.ledger]
    rcases hended with hempty | htwo
    · exact Or.inl (hqueue.symm.trans hempty)
    · exact Or.inr (by omega)

/-- **The dial queue is empty at rest.** In every run whose steps turn an attempt down and abandon a dial only with an
empty queue or with another attempt or active dial under way, and queue an attempt only with another under way, every
state reached with no `dialPeer` and no `attemptDial` call in progress has an empty queue. -/
theorem queue_empty_at_rest (options : Options) (connections : List Connection) (es : List Event) (s : State)
    (hrescued : Meets (step options) (Rescued options) (init connections) es)
    (hrun : run (step options) (init connections) es = some s) (hrest : s.Quiescent) :
    s.pendingPeerDialQueue = [] := by
  have hinv : (∃ n, s.ledger.Accounted options.maxParallelDials n) ∧ s.ledger.Served := by
    refine run_invariant_of_meets (C := Rescued options)
      (P := fun s => (∃ n, s.ledger.Accounted options.maxParallelDials n) ∧ s.ledger.Served) ?_ es ?_ hrescued hrun
    · rintro s e s' ⟨⟨n, hacc⟩, hserved⟩ hC hstep
      exact ⟨⟨_, step_accounted hacc hstep⟩, served_step hacc hserved hC hstep⟩
    · exact ⟨⟨0, accounted_init options connections⟩, Or.inl rfl⟩
  obtain ⟨hattempts, hactive⟩ := countP_of_quiescent hrest
  rcases hinv.2 with hempty | hpos
  · exact hempty
  · simp only [State.ledger] at hpos
    omega

/-- The calls that have decreased the count can finish; nothing else changes. -/
theorem cleanup_finishes (options : Options) : ∀ (n : ℕ) (s : State), s.tasks.countP Task.isCleanup = n →
    ∃ es s', run (step options) s es = some s' ∧ s'.tasks.countP Task.isCleanup = 0 ∧ s'.ledger = s.ledger
  | 0, s, h => ⟨[], s, rfl, h, rfl⟩
  | n + 1, s, h => by
    obtain ⟨t, ht, hclean⟩ := List.countP_pos_iff.1 (by omega : 0 < s.tasks.countP Task.isCleanup)
    have hresume := resume_of_mem ht
    have hcount := countP_resume hresume Task.isCleanup
    rw [h, if_pos hclean] at hcount
    simp only at hcount
    obtain ⟨es, s', hrun, hdone, hsame⟩ :=
      cleanup_finishes options n { s with tasks := s.tasks.erase t } (by simp only; omega)
    have hledger := ledger_resume hresume
    cases t with
    | deleting p =>
      refine ⟨.deleted p (.error .typeError) :: es, s', ?_, hdone, hsame.trans hledger.symm⟩
      simp [run, step, hresume, hrun]
    | dnsDiscovery p =>
      refine ⟨.dnsDiscovered p (.ok ()) :: es, s', ?_, hdone, hsame.trans hledger.symm⟩
      simp [run, step, hresume, hrun]
    | _ => simp [Task.isCleanup] at hclean

/-- Turning an attempt down ends it and does nothing else. -/
theorem ledger_turnsDown {e : Event} (h : step options s e = some s') (hturn : turnsDown options e) :
    s.ledger = { s'.ledger with attempts := s'.ledger.attempts + 1 } := by
  cases e with
  | shardLookedUp peerId lookup =>
    obtain ⟨s₀, hs₀, rfl⟩ := Option.map_eq_some_iff.1 h
    rw [ledger_resume hs₀]
    cases hc : isPeerTopicConfigured options lookup with
    | error e => rfl
    | ok b => simp [turnsDown, hc, Except.toBool] at hturn
  | shardWarned peerId lookup =>
    obtain ⟨s₀, hs₀, rfl⟩ := Option.map_eq_some_iff.1 h
    rw [ledger_resume hs₀]
    cases hc : getPeerShardInfo lookup with
    | error e => rfl
    | ok info => simp [turnsDown, hc, Except.toBool] at hturn
  | answered peerId shouldDial =>
    obtain ⟨s₀, hs₀, rfl⟩ := Option.map_eq_some_iff.1 h
    cases shouldDial with
    | false => exact ledger_resume hs₀
    | true => cases hturn
  | _ => cases hturn

/-- Queueing an attempt ends it and does nothing else. -/
theorem ledger_queues {e : Event} (h : step options s e = some s') (hqueues : queues options s e) :
    ∃ p, s'.ledger.queue = s.ledger.queue ++ [p] ∧ s.ledger.attempts = s'.ledger.attempts + 1 ∧
      s.ledger.active = s'.ledger.active := by
  cases e with
  | answered peerId shouldDial =>
    obtain ⟨s₀, hs₀, rfl⟩ := Option.map_eq_some_iff.1 h
    simp only [queues, Bool.and_eq_true, decide_eq_true_eq] at hqueues
    obtain ⟨rfl, hfull⟩ := hqueues
    have hfull₀ : s₀.currentActiveParallelDialCount ≥ options.maxParallelDials := by
      rw [(resume_eq hs₀).2]
      exact hfull
    rw [ledger_resume hs₀]
    exact ⟨peerId, by simp [State.attemptDialAnswered, hfull₀, State.ledger, Task.isAttempt, Task.isActiveDial]⟩
  | _ => cases hqueues

/-- With no attempt and no active dial, and with peers in the queue, the calls still in progress can finish, and all is at
rest with the queue as it was. -/
theorem stranded_of_idle (hattempts : s.tasks.countP Task.isAttempt = 0) (hactive : s.tasks.countP Task.isActiveDial = 0)
    (hqueue : s.pendingPeerDialQueue ≠ []) :
    ∃ es s', run (step options) s es = some s' ∧ s'.Quiescent ∧ s'.pendingPeerDialQueue ≠ [] := by
  obtain ⟨es, s', hrun, hclean, hsame⟩ := cleanup_finishes options _ s rfl
  simp only [State.ledger, Ledger.mk.injEq] at hsame
  obtain ⟨-, hqueue', hattempts', hactive'⟩ := hsame
  rw [hattempts, List.countP_eq_zero] at hattempts'
  rw [hactive, List.countP_eq_zero] at hactive'
  rw [List.countP_eq_zero] at hclean
  exact ⟨es, s', hrun, fun t ht => ⟨hattempts' t ht, hactive' t ht, hclean t ht⟩, hqueue' ▸ hqueue⟩

/-- A step that breaks the condition strands the queue: the calls still in progress can finish, and then all is at rest
with a queue that is not empty. -/
theorem stranded {e : Event} (hstep : step options s e = some s') (hbroken : ¬Rescued options s e) :
    ∃ es s'', run (step options) s' es = some s'' ∧ s''.Quiescent ∧ s''.pendingPeerDialQueue ≠ [] := by
  by_cases hqueues : queues options s e ∧ ¬2 ≤ s.tasks.countP Task.isAttempt + s.tasks.countP Task.isActiveDial
  · obtain ⟨hqueues, hfew⟩ := hqueues
    obtain ⟨p, hqueue, hattempts, hactive⟩ := ledger_queues hstep hqueues
    simp only [State.ledger] at hqueue hattempts hactive
    exact stranded_of_idle (by omega) (by omega) (by simp [hqueue])
  · have hended : (turnsDown options e ∨ abandonsDial e) ∧ ¬(s.pendingPeerDialQueue = [] ∨
        2 ≤ s.tasks.countP Task.isAttempt + s.tasks.countP Task.isActiveDial) := by
      rw [← Classical.not_imp]
      exact fun hended => hbroken ⟨hended, fun h => not_not.1 fun hfew => hqueues ⟨h, hfew⟩⟩
    obtain ⟨hends, hfew⟩ := hended
    rcases hends with hturn | habandons
    · have hdown := ledger_turnsDown hstep hturn
      simp only [State.ledger, Ledger.mk.injEq] at hdown
      obtain ⟨-, hqueue, hattempts, hactive⟩ := hdown
      exact stranded_of_idle (by omega) (by omega) fun hempty => hfew (.inl (hqueue.trans hempty))
    · have hleft := ledger_abandoned hstep habandons
      simp only [State.ledger, Ledger.mk.injEq] at hleft
      obtain ⟨-, hqueue, hattempts, hactive⟩ := hleft
      exact stranded_of_idle (by omega) (by omega) fun hempty => hfew (.inl (hqueue.trans hempty))

end

/-! ## Three runs -/

/-- One parallel dial and one attempt for each peer. -/
def sampleOptions : Options :=
  { pubsubTopics := [], maxDialAttemptsForPeer := 1, maxBootstrapPeersAllowed := 1, maxParallelDials := 1 }

/-- An attempt that reaches the end of `shouldDialPeer` and is not turned down. -/
def passes (peerId : PeerId) : List Event :=
  [.shardLookedUp peerId (.ok none), .bootstrapLookedUp peerId [], .bootstrapChecked peerId true, .answered peerId true]

/-- While `a` is dialed, `b` is queued and `c` turned down. The dial of `a` takes up `b`, and all come to rest. -/
def rescuedRun : List Event :=
  [.listed ["a", "b", "c"]] ++ passes "a" ++ passes "b" ++
    [.shardLookedUp "c" (.error (.error "not found")), .dialResolved "a" 0 false, .tagged "a" 0 [] (.ok ())] ++
    passes "b" ++ [.dialRejected "b" 0 false (.error "refused"), .dnsDiscovered "b" (.ok ())]

/-- While `a` is dialed, `b` and `c` are queued. The dial of `a` takes up `b`, which another dial has connected in the
meantime: it is turned down, and `c` stays in the queue. -/
def strandedRun : List Event :=
  [.listed ["a", "b", "c"]] ++ passes "a" ++ passes "b" ++ passes "c" ++
    [.connectionOpened ⟨0, "b", []⟩ (.ok ()), .dialResolved "a" 0 false, .tagged "a" 0 [] (.ok ()),
      .answered "b" false]

/-- An `AggregateError` of an object without a conversion to a string. -/
def unloggable : Caught := .aggregate (some [⟨.error .typeError, .ok (some "{}")⟩])

/-- The dial of `a` rejects with an error that cannot be logged. -/
def abandonedRun : List Event := [.attemptDial "a"] ++ passes "a" ++ [.dialRejected "a" 0 false unloggable]

/-- While `a` is dialed and `b` queued, the one dial is counted. -/
theorem dials_bounded_rescuedRun :
    ∃ s, run (step sampleOptions) (init []) (rescuedRun.take 9) = some s ∧ s.pendingPeerDialQueue = ["b"] ∧
      s.currentActiveParallelDialCount = s.tasks.countP Task.isActiveDial ∧
      0 ≤ s.currentActiveParallelDialCount ∧ s.currentActiveParallelDialCount ≤ 1 := by
  have hrun : (run (step sampleOptions) (init []) (rescuedRun.take 9)).isSome = true := by decide
  obtain ⟨s, hs⟩ := Option.isSome_iff_exists.1 hrun
  have hqueue : ∀ s ∈ run (step sampleOptions) (init []) (rescuedRun.take 9), s.pendingPeerDialQueue = ["b"] := by decide
  have hkeeps : ∀ e ∈ rescuedRun.take 9, abandonsDial e = false := by decide
  obtain ⟨hcount, hbounds⟩ := dials_bounded sampleOptions [] (rescuedRun.take 9) s hs
  exact ⟨s, hs, hqueue s hs, hcount.2 hkeeps, hbounds⟩

/-- With no dial under way, one is counted. -/
theorem dials_not_accounted :
    ¬∀ (es : List Event) (s : State), run (step sampleOptions) (init []) es = some s →
      s.currentActiveParallelDialCount = s.tasks.countP Task.isActiveDial ∧
        0 ≤ s.currentActiveParallelDialCount ∧ s.currentActiveParallelDialCount ≤ sampleOptions.maxParallelDials := by
  intro h
  have hrun : (run (step sampleOptions) (init []) abandonedRun).isSome = true := by decide
  obtain ⟨s, hs⟩ := Option.isSome_iff_exists.1 hrun
  have hcounted : ∀ s ∈ run (step sampleOptions) (init []) abandonedRun,
      s.currentActiveParallelDialCount = 1 ∧ s.tasks.countP Task.isActiveDial = 0 := by decide
  obtain ⟨hone, hnone⟩ := hcounted s hs
  have hcount := (h abandonedRun s hs).1
  rw [hone, hnone] at hcount
  cases hcount

/-- The run that turns `c` down during a dial ends at rest with an empty queue. -/
theorem queue_empty_at_rest_rescuedRun :
    ((run (step sampleOptions) (init []) rescuedRun).map State.pendingPeerDialQueue) = some [] := by
  have hrun : (run (step sampleOptions) (init []) rescuedRun).isSome = true := by decide
  obtain ⟨s, hs⟩ := Option.isSome_iff_exists.1 hrun
  have hrest : ∀ s ∈ run (step sampleOptions) (init []) rescuedRun, s.Quiescent := by decide
  rw [hs, Option.map_some, queue_empty_at_rest sampleOptions [] rescuedRun s (by decide) hs (hrest s hs)]

/-- A run at rest with a peer in the queue. -/
theorem queue_not_empty_at_rest :
    ¬∀ (es : List Event) (s : State), run (step sampleOptions) (init []) es = some s → s.Quiescent →
      s.pendingPeerDialQueue = [] := by
  intro h
  have hrun : (run (step sampleOptions) (init []) strandedRun).isSome = true := by decide
  obtain ⟨s, hs⟩ := Option.isSome_iff_exists.1 hrun
  have hrest : ∀ s ∈ run (step sampleOptions) (init []) strandedRun, s.Quiescent ∧ s.pendingPeerDialQueue = ["c"] := by
    decide
  have := h strandedRun s hs (hrest s hs).1
  rw [(hrest s hs).2] at this
  cases this

end JsWaku.ConnectionManager
