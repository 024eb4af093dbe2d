import JsWaku.Core.Codecs
import JsWaku.Discovery.PeerExchange.Query
import JsWaku.Lib.Transition

/-!
# Recurring peer-exchange queries

`PeerExchangeDiscovery` of `packages/discovery/src/peer-exchange/waku_peer_exchange_discovery.ts`: the identify listener,
`start` and `stop`, and the loop that queries a peer again after a timer. A query is its program, suspended at one of its
awaits; what it awaits is answered in any order and in any way.

The loop arms its timer only where the query has not thrown, so that each peer in `queryingPeers` has a query in flight or
a timer if and only if no query throws (`queried_iff`). `start` never sets `isStarted`, without which `stop` does nothing:
after a `start` the listener stays registered in every run (`listening_run`).
-/

namespace JsWaku.PeerExchange

open Async Transition

/-! ## Data -/

/-- A pending `setTimeout` of `startRecurringQueries`. -/
structure Timer where
  peerId : PeerId
  currentAttempt : ℕ
  delay : ℕ
  deriving DecidableEq, Repr

/-- The fields of `PeerExchangeDiscovery`, whether the identify listener is registered, the pending timers, the queries in
flight, and the peers a query was sent to. -/
structure State where
  isStarted : Bool
  listening : Bool
  queryingPeers : List PeerId
  queryAttempts : Map PeerId ℕ
  timers : List Timer
  queries : List (PeerId × Prog PeerExchangeQueryResult)
  sent : List PeerId

/-- A new discovery. -/
def init : State where
  isStarted := false
  listening := false
  queryingPeers := []
  queryAttempts := Map.empty
  timers := []
  queries := []
  sent := []

/-- A call, a `peer:identify`, a timer, or an answer to what one of the queries awaits. -/
inductive Event
  | start
  | stop
  | identify (protocols : List String) (peerId : PeerId)
  | timeout (timer : Timer)
  | answered (index : ℕ) (answer : (c : Call) → Except JsError c.Result)

/-! ## The code -/

namespace State

variable (options : Options) (s : State)

/-- `startRecurringQueries` up to its `await`. -/
def startRecurringQueries (peerId : PeerId) : State :=
  { s with queries := s.queries ++ [(peerId, query options peerId)], sent := s.sent ++ [peerId] }

/-- `handleDiscoveredPeer`. -/
def handleDiscoveredPeer (protocols : List String) (peerId : PeerId) : State :=
  if !protocols.contains PeerExchangeCodec || s.queryingPeers.contains peerId then s
  else startRecurringQueries options { s with queryingPeers := s.queryingPeers ++ [peerId] } peerId

/-- `start`. -/
def start : State := if s.isStarted then s else { s with listening := true }

/-- `stop`. -/
def stop : State :=
  if !s.isStarted then s else { s with isStarted := false, queryingPeers := [], listening := false }

/-- `abortQueriesForPeer`. -/
def abortQueriesForPeer (peerId : PeerId) : State :=
  { s with queryingPeers := s.queryingPeers.filter (· ≠ peerId), queryAttempts := s.queryAttempts.delete peerId }

/-- `startRecurringQueries` once the query has returned. -/
def queried (peerId : PeerId) : State :=
  let currentAttempt := (s.queryAttempts.get peerId).getD 1
  if currentAttempt > options.maxRetries.getD DEFAULT_MAX_RETRIES then s.abortQueriesForPeer peerId
  else
    let delay := options.queryInterval.getD DEFAULT_PEER_EXCHANGE_QUERY_INTERVAL_MS * currentAttempt
    { s with timers := s.timers ++ [⟨peerId, currentAttempt, delay⟩] }

/-- A query that was answered goes on, or returns, or throws, which is only logged. -/
def goOn (peerId : PeerId) : Prog PeerExchangeQueryResult → State
  | .await c resume => { s with queries := s.queries ++ [(peerId, .await c resume)] }
  | .pure _ => s.queried options peerId
  | .throw _ => s

/-- What becomes of the query at the index with an answer to its call. -/
def resumed (index : ℕ) (answer : (c : Call) → Except JsError c.Result) :
    Option (PeerId × Prog PeerExchangeQueryResult) :=
  match s.queries[index]? with
  | some (peerId, .await c resume) => some (peerId, resume (answer c))
  | _ => none

end State

/-- One thing happens. -/
def step (options : Options) (s : State) : Event → Option State
  | .start => some s.start
  | .stop => some s.stop
  | .identify protocols peerId => some (if s.listening then s.handleDiscoveredPeer options protocols peerId else s)
  | .timeout timer => do
    let timers ← take timer s.timers
    some (State.startRecurringQueries options
      { s with timers, queryAttempts := s.queryAttempts.set timer.peerId (timer.currentAttempt + 1) } timer.peerId)
  | .answered index answer => do
    let (peerId, program) ← s.resumed index answer
    some (State.goOn options { s with queries := s.queries.eraseIdx index } peerId program)

/-! ## Queries and timers of a peer -/

/-- How many queries are in flight for a peer. -/
def State.inFlight (s : State) (p : PeerId) : ℕ := s.queries.countP fun entry => entry.1 = p

/-- How many timers are pending for a peer. -/
def State.pending (s : State) (p : PeerId) : ℕ := s.timers.countP fun timer => timer.peerId = p

/-- Each peer that is being queried has a query in flight or a pending timer, and not more. -/
def State.Queried (s : State) : Prop := ∀ p ∈ s.queryingPeers, s.inFlight p + s.pending p = 1

/-- A query that is answered does not throw. -/
def DoesNotThrow (s : State) : Event → Prop
  | .answered index answer => (s.resumed index answer).all fun r => !r.2.throws
  | _ => True

instance (s : State) : ∀ e : Event, Decidable (DoesNotThrow s e)
  | .answered index answer => inferInstanceAs (Decidable ((s.resumed index answer).all (fun r => !r.2.throws) = true))
  | .start | .stop | .identify .. | .timeout _ => isTrue trivial

/-- How many queries and timers there are for a peer. -/
def State.load (s : State) (p : PeerId) : ℕ := s.inFlight p + s.pending p

/-- Nothing is done for a peer that is not being queried, and the discovery does not count as started. -/
structure Idle (s : State) : Prop where
  isStarted : s.isStarted = false
  others : ∀ p, p ∉ s.queryingPeers → s.load p = 0

variable (options : Options) {s s' : State}

theorem load_startRecurringQueries (s : State) (peerId p : PeerId) :
    (s.startRecurringQueries options peerId).load p = s.load p + if peerId = p then 1 else 0 := by
  simp only [State.load, State.inFlight, State.pending, State.startRecurringQueries, List.countP_append,
    List.countP_singleton, decide_eq_true_eq]
  omega

/-- A query that is taken out was counted. -/
theorem load_eraseIdx {index : ℕ} {answer : (c : Call) → Except JsError c.Result}
    {r : PeerId × Prog PeerExchangeQueryResult} (h : s.resumed index answer = some r) (p : PeerId) :
    s.load p = State.load { s with queries := s.queries.eraseIdx index } p + if r.1 = p then 1 else 0 := by
  unfold State.resumed at h
  split at h
  case h_1 peerId c resume hentry =>
    cases h
    obtain ⟨hlt, hget⟩ := List.getElem?_eq_some_iff.1 hentry
    have hcount := (List.getElem_cons_eraseIdx_perm hlt).countP_eq fun entry => decide (entry.1 = p)
    rw [hget, List.countP_cons] at hcount
    simp only [decide_eq_true_eq] at hcount
    simp only [State.load, State.inFlight, State.pending]
    omega
  case h_2 => cases h

/-- A query that goes on or returns keeps the load of its peer, unless the peer is given up. -/
theorem load_goOn (s : State) (peerId : PeerId) {program : Prog PeerExchangeQueryResult}
    (hthrows : program.throws = false) :
    (s.goOn options peerId program).isStarted = s.isStarted ∧
      ((s.goOn options peerId program).queryingPeers = s.queryingPeers ∧
        (∀ p, (s.goOn options peerId program).load p = s.load p + if peerId = p then 1 else 0) ∨
      (s.goOn options peerId program).queryingPeers = s.queryingPeers.filter (· ≠ peerId) ∧
        ∀ p, (s.goOn options peerId program).load p = s.load p) := by
  cases program with
  | throw error => cases hthrows
  | await c resume =>
    refine ⟨rfl, .inl ⟨rfl, fun p => ?_⟩⟩
    simp only [State.goOn, State.load, State.inFlight, State.pending, List.countP_append, List.countP_singleton,
      decide_eq_true_eq]
    omega
  | pure result =>
    rw [State.goOn]
    unfold State.queried
    dsimp only
    split
    · exact ⟨rfl, .inr ⟨rfl, fun p => rfl⟩⟩
    · refine ⟨rfl, .inl ⟨rfl, fun p => ?_⟩⟩
      simp only [State.load, State.inFlight, State.pending, List.countP_append, List.countP_singleton,
        decide_eq_true_eq]
      omega

/-- A peer that is discovered gets a query. -/
theorem queried_handleDiscoveredPeer (protocols : List String) (peerId : PeerId) (hidle : Idle s)
    (hqueried : s.Queried) :
    (s.handleDiscoveredPeer options protocols peerId).Queried ∧
      Idle (s.handleDiscoveredPeer options protocols peerId) := by
  unfold State.handleDiscoveredPeer
  split
  case isTrue => exact ⟨hqueried, hidle⟩
  case isFalse hnew =>
    have hnot : peerId ∉ s.queryingPeers := by
      intro hmem
      simp [hmem] at hnew
    have hload := load_startRecurringQueries options
      { s with queryingPeers := s.queryingPeers ++ [peerId] } peerId
    refine ⟨fun p hp => (hload p).trans ?_, hidle.isStarted, fun p hp => ?_⟩
    · change s.load p + _ = 1
      rcases List.mem_append.1 hp with hp | hp
      · have hne : peerId ≠ p := fun heq => hnot (heq ▸ hp)
        rw [if_neg hne]
        exact hqueried p hp
      · obtain rfl := List.mem_singleton.1 hp
        rw [hidle.others p hnot, if_pos rfl]
    · have hp' : p ∉ s.queryingPeers ∧ p ≠ peerId := by simpa [State.startRecurringQueries] using hp
      refine (hload p).trans ?_
      rw [if_neg (Ne.symm hp'.2)]
      exact hidle.others p hp'.1

/-- A timer becomes a query. -/
theorem load_timeout {timer : Timer} {timers : List Timer} (htake : take timer s.timers = some timers) (p : PeerId) :
    State.load (State.startRecurringQueries options { s with
      timers, queryAttempts := s.queryAttempts.set timer.peerId (timer.currentAttempt + 1) } timer.peerId) p =
      s.load p := by
  rw [load_startRecurringQueries]
  have hcount := countP_take htake fun timer => decide (timer.peerId = p)
  simp only [decide_eq_true_eq] at hcount
  simp only [State.load, State.inFlight, State.pending]
  omega

section

variable {index : ℕ} {answer : (c : Call) → Except JsError c.Result} {peerId : PeerId}
  {program : Prog PeerExchangeQueryResult}

/-- The peer of a query in flight is being queried. -/
theorem mem_of_resumed (hidle : Idle s) (hresumed : s.resumed index answer = some (peerId, program)) :
    peerId ∈ s.queryingPeers := by
  by_contra hnot
  have hzero := hidle.others peerId hnot
  rw [load_eraseIdx hresumed peerId, if_pos rfl] at hzero
  omega

/-- A query that goes on or returns keeps its peer queried, or gives it up. -/
theorem queried_goOn (hidle : Idle s) (hqueried : s.Queried)
    (hresumed : s.resumed index answer = some (peerId, program)) (hthrows : program.throws = false) :
    State.Queried (State.goOn options { s with queries := s.queries.eraseIdx index } peerId program) ∧
      Idle (State.goOn options { s with queries := s.queries.eraseIdx index } peerId program) := by
  have hload := load_eraseIdx hresumed
  obtain ⟨hstarted, hcases⟩ :=
    load_goOn options { s with queries := s.queries.eraseIdx index } peerId hthrows
  rcases hcases with ⟨hpeers, hthen⟩ | ⟨hpeers, hthen⟩
  · have hsame : ∀ p, State.load _ p = s.load p := fun p => (hthen p).trans (hload p).symm
    refine ⟨fun p hp => (hsame p).trans ?_, hstarted.trans hidle.isStarted, fun p hp => (hsame p).trans ?_⟩
    · rw [hpeers] at hp
      exact hqueried p hp
    · rw [hpeers] at hp
      exact hidle.others p hp
  · -- the peer is given up: its query was the only one
    refine ⟨fun p hp => ?_, hstarted.trans hidle.isStarted, fun p hp => ?_⟩
    · rw [hpeers] at hp
      obtain ⟨hp, hne⟩ := List.mem_filter.1 hp
      have hsum := hload p
      rw [if_neg (Ne.symm (of_decide_eq_true hne))] at hsum
      exact ((hthen p).trans hsum.symm).trans (hqueried p hp)
    · rw [hpeers, List.mem_filter, not_and] at hp
      rw [hthen p]
      have hsum := hload p
      by_cases hin : p ∈ s.queryingPeers
      · obtain rfl : p = peerId := by simpa using hp hin
        have hone : s.load p = 1 := hqueried p hin
        rw [if_pos rfl] at hsum
        omega
      · have hzero := hidle.others p hin
        omega

/-- A query that throws leaves its peer with nothing. -/
theorem not_queried_goOn (hidle : Idle s) (hqueried : s.Queried)
    (hresumed : s.resumed index answer = some (peerId, program)) (hthrows : program.throws = true) :
    ¬State.Queried (State.goOn options { s with queries := s.queries.eraseIdx index } peerId program) := by
  have hmem := mem_of_resumed hidle hresumed
  have hone : s.load peerId = 1 := hqueried peerId hmem
  have hsum := load_eraseIdx hresumed peerId
  rw [if_pos rfl] at hsum
  cases program with
  | throw error =>
    intro hthen
    have hstill : State.load { s with queries := s.queries.eraseIdx index } peerId = 1 := hthen peerId hmem
    omega
  | await c resume => cases hthrows
  | pure result => cases hthrows

end

/-- A step keeps each peer queried exactly if it is no query that throws. -/
theorem queried_step (s : State) (e : Event) (s' : State) (hidle : Idle s) (hqueried : s.Queried)
    (h : step options s e = some s') : (s'.Queried ↔ DoesNotThrow s e) ∧ (DoesNotThrow s e → Idle s') := by
  cases e with
  | start =>
    cases h
    rw [State.start, hidle.isStarted]
    exact ⟨iff_of_true hqueried trivial, fun _ => ⟨rfl, hidle.others⟩⟩
  | stop =>
    cases h
    rw [State.stop, hidle.isStarted]
    exact ⟨iff_of_true hqueried trivial, fun _ => hidle⟩
  | identify protocols peerId =>
    cases h
    split
    · obtain ⟨hthen, hidle'⟩ := queried_handleDiscoveredPeer options protocols peerId hidle hqueried
      exact ⟨iff_of_true hthen trivial, fun _ => hidle'⟩
    · exact ⟨iff_of_true hqueried trivial, fun _ => hidle⟩
  | timeout timer =>
    obtain ⟨timers, htake, h⟩ := Option.bind_eq_some_iff.1 h
    cases h
    have hsame := load_timeout options htake
    exact ⟨iff_of_true (fun p hp => (hsame p).trans (hqueried p hp)) trivial,
      fun _ => ⟨hidle.isStarted, fun p hp => (hsame p).trans (hidle.others p hp)⟩⟩
  | answered index answer =>
    obtain ⟨⟨peerId, program⟩, hresumed, h⟩ := Option.bind_eq_some_iff.1 h
    cases h
    cases hthrows : program.throws with
    | true =>
      have hcond : ¬DoesNotThrow s (.answered index answer) := by simp [DoesNotThrow, hresumed, hthrows]
      exact ⟨iff_of_false (not_queried_goOn options hidle hqueried hresumed hthrows) hcond, fun hyes => absurd hyes hcond⟩
    | false =>
      have hcond : DoesNotThrow s (.answered index answer) := by simp [DoesNotThrow, hresumed, hthrows]
      obtain ⟨hthen, hidle'⟩ := queried_goOn options hidle hqueried hresumed hthrows
      exact ⟨iff_of_true hthen hcond, fun _ => hidle'⟩

/-! ## Runs -/

/-- **In every state of a run each peer in `queryingPeers` has exactly one of a query in flight and a pending timer, if and
only if no query throws.** -/
theorem queried_iff (options : Options) (es : List Event) {s : State} (hrun : run (step options) init es = some s) :
    (∀ es₁ es₂ u, es = es₁ ++ es₂ → run (step options) init es₁ = some u → u.Queried) ↔
      Meets (step options) DoesNotThrow init es :=
  holds_iff_meets (queried_step options) es ⟨rfl, fun _ _ => rfl⟩ (fun _ hp => absurd hp (List.not_mem_nil)) hrun

/-- The defaults. -/
def defaults : Options := ⟨none, none, none, none⟩

/-- The peer store resolves to no peer, and nothing else succeeds. -/
def noPeer : (c : Call) → Except JsError c.Result
  | .get _ => .ok none
  | .getStream _ | .exchange _ _ | .decode _ | .has _ | .patch _ _ | .merge _ _ | .save _ _ => .error .typeError

/-- A peer is discovered, its query returns an error, and its timer fires. -/
def queriedAgain : List Event :=
  [.start, .identify [PeerExchangeCodec] "p", .answered 0 noPeer, .timeout ⟨"p", 1, 10000⟩]

theorem queried_iff_queriedAgain : ∃ s, run (step defaults) init queriedAgain = some s ∧
    ∀ es₁ es₂ u, queriedAgain = es₁ ++ es₂ → run (step defaults) init es₁ = some u → u.Queried :=
  ⟨_, rfl, (queried_iff defaults queriedAgain rfl).2 (by decide)⟩

/-- A peer is discovered, and the peer store rejects. -/
def rejected : List Event := [.start, .identify [PeerExchangeCodec] "p", .answered 0 fun _ => .error .typeError]

/-- The peer stays in `queryingPeers` with no query and no timer. -/
theorem not_queried :
    ∃ s, run (step defaults) init rejected = some s ∧ s.queryingPeers = ["p"] ∧ s.inFlight "p" = 0 ∧
      s.pending "p" = 0 ∧ ¬s.Queried :=
  ⟨_, rfl, rfl, rfl, rfl, fun h => absurd (h "p" (by decide)) (by decide)⟩

/-! ## Stopping -/

/-- A step never starts the discovery, and leaves the listener registered. -/
theorem listening_step (hstarted : s.isStarted = false) {e : Event} (h : step options s e = some s') :
    s'.isStarted = false ∧ (s.listening = true ∨ e = .start → s'.listening = true) := by
  cases e with
  | start =>
    cases h
    rw [State.start, hstarted]
    exact ⟨rfl, fun _ => rfl⟩
  | stop =>
    cases h
    rw [State.stop, hstarted]
    exact ⟨hstarted, fun hor => hor.resolve_right (by simp)⟩
  | identify protocols peerId =>
    cases h
    have hsame : (s.handleDiscoveredPeer options protocols peerId).isStarted = s.isStarted ∧
        (s.handleDiscoveredPeer options protocols peerId).listening = s.listening := by
      unfold State.handleDiscoveredPeer
      split <;> exact ⟨rfl, rfl⟩
    split
    · exact ⟨hsame.1.trans hstarted, fun hor => hsame.2.trans (hor.resolve_right (by simp))⟩
    · exact ⟨hstarted, fun hor => hor.resolve_right (by simp)⟩
  | timeout timer =>
    obtain ⟨timers, -, h⟩ := Option.bind_eq_some_iff.1 h
    cases h
    exact ⟨hstarted, fun hor => hor.resolve_right (by simp)⟩
  | answered index answer =>
    obtain ⟨⟨peerId, program⟩, -, h⟩ := Option.bind_eq_some_iff.1 h
    cases h
    have hsame : ∀ s₀ : State, (s₀.goOn options peerId program).isStarted = s₀.isStarted ∧
        (s₀.goOn options peerId program).listening = s₀.listening := by
      intro s₀
      cases program with
      | pure result =>
        rw [State.goOn]
        unfold State.queried
        dsimp only
        split <;> exact ⟨rfl, rfl⟩
      | throw error => exact ⟨rfl, rfl⟩
      | await c resume => exact ⟨rfl, rfl⟩
    obtain ⟨hstarted', hlistening'⟩ := hsame { s with queries := s.queries.eraseIdx index }
    exact ⟨hstarted'.trans hstarted, fun hor => hlistening'.trans (hor.resolve_right (by simp))⟩

/-- Once `start` was called the listener is registered in every state. -/
theorem listening_run (options : Options) (es : List Event) {s t : State} (hstarted : s.isStarted = false)
    (hor : s.listening = true ∨ .start ∈ es) (hrun : run (step options) s es = some t) : t.listening = true := by
  induction es generalizing s with
  | nil =>
    cases hrun
    exact hor.resolve_right List.not_mem_nil
  | cons e es ih =>
    obtain ⟨s', he, hrun'⟩ := run_cons.1 hrun
    obtain ⟨hstarted', hlistening'⟩ := listening_step options hstarted he
    refine ih hstarted' ?_ hrun'
    rcases hor with hor | hor
    · exact .inl (hlistening' (.inl hor))
    · rcases List.mem_cons.1 hor with rfl | hor
      · exact .inl (hlistening' (.inr rfl))
      · exact .inr hor

/-- Since the state `t` no query was sent, and the listener is not registered. -/
def State.StoppedSince (t s : State) : Prop := s.listening = false ∧ s.sent = t.sent

/-- **After a `stop` that follows a `start` the discovery is not stopped, in any run.** -/
theorem not_stoppedSince (options : Options) (es₁ es₂ : List Event) {t s : State} (hstart : .start ∈ es₁)
    (hstop : run (step options) init (es₁ ++ [.stop]) = some t) (hrun : run (step options) t es₂ = some s) :
    ¬t.StoppedSince s := by
  rintro ⟨hlistening, -⟩
  have hall : run (step options) init ((es₁ ++ [.stop]) ++ es₂) = some s := by
    rw [run_append, hstop]
    exact hrun
  have htrue := listening_run options _ rfl (.inr (by simp [hstart])) hall
  rw [htrue] at hlistening
  cases hlistening

theorem not_stoppedSince_stopped :
    ∃ t s, run (step defaults) init ([.start] ++ [.stop]) = some t ∧
      run (step defaults) t [.identify [PeerExchangeCodec] "p"] = some s ∧ ¬t.StoppedSince s :=
  ⟨_, _, rfl, rfl, not_stoppedSince defaults [.start] [.identify [PeerExchangeCodec] "p"] List.mem_cons_self rfl rfl⟩

/-- Started, stopped, and a query is sent to a peer that is identified then. -/
theorem sent_after_stop :
    ∃ t s, run (step defaults) init [.start, .stop] = some t ∧
      run (step defaults) t [.identify [PeerExchangeCodec] "p"] = some s ∧ s.listening = true ∧ t.sent = [] ∧
      s.sent = ["p"] :=
  ⟨_, _, rfl, rfl, rfl, rfl, rfl⟩

end JsWaku.PeerExchange
