import JsWaku.Core.RequestMethods
import JsWaku.Lib.Transition
import JsWaku.Sdk.PeerManager
import Mathlib.Data.Set.List

/-!
# Light push

`LightPush.send` and `attemptRetries` of `packages/sdk/src/light_push/light_push.ts` as an event system. A call waits for
the list of peers, sends to each of them and waits at `Promise.allSettled`; its loop over the results then starts chains
of retries, which run on after the call has resolved. The promises settle in any order, and the connections change
meanwhile.

A chain is `Sound` at every moment (`Chain.Inv`): it goes round the peers of its start, not beyond its number of attempts
and not beyond a success. The call accounts for the outcome of every peer (`Accounted`).
-/

namespace JsWaku.LightPush

open Transition PeerManager

/-! ## Data -/

/-- `ProtocolError`: those of the light push itself and those of the protocol. -/
inductive ProtocolError
  | TOPIC_NOT_CONFIGURED
  | NO_PEER_AVAILABLE
  | core (error : RequestMethods.ProtocolError)
  deriving DecidableEq

/-- `Failure`. -/
structure Failure where
  error : ProtocolError
  peerId : Option PeerId
  deriving DecidableEq

/-- The failure of a `CoreProtocolResult`. -/
def Failure.ofCore (failure : RequestMethods.Failure) : Failure := ⟨.core failure.error, failure.peerId⟩

/-- `SDKProtocolResult`. -/
structure SDKProtocolResult where
  successes : List PeerId
  failures : List Failure
  deriving DecidableEq

/-- `CoreProtocolResult`, as its type `ThisOrThat` has it: with one of success and failure. -/
abbrev CoreProtocolResult :=
  { result : RequestMethods.CoreProtocolResult // result.success.isSome = !result.failure.isSome }

/-- How a promise of `protocol.send` settles. -/
abbrev Settled := Except JsError CoreProtocolResult

/-- `ISenderOptions`. -/
structure ISenderOptions where
  autoRetry : Option Bool
  maxAttempts : Option ℕ
  deriving DecidableEq

def DEFAULT_MAX_ATTEMPTS : ℕ := 3

def DEFAULT_SEND_OPTIONS : ISenderOptions := { autoRetry := some false, maxAttempts := some DEFAULT_MAX_ATTEMPTS }

/-! ## Chains of retries -/

/-- Where an `attemptRetries` is suspended. -/
inductive Phase
  | gettingPeers
  /-- At the `await` of round `i`. -/
  | sending (i : ℕ)
  | ended
  deriving DecidableEq

/-- A call of `attemptRetries`, with the peers to which it has sent so far and what came of it. -/
structure Chain where
  maxAttempts : ℕ
  peerIds : List PeerId
  phase : Phase
  sends : List PeerId
  responses : List Settled

/-- `maxAttempts || DEFAULT_MAX_ATTEMPTS`. -/
def attempts : Option ℕ → ℕ
  | none | some 0 => DEFAULT_MAX_ATTEMPTS
  | some maxAttempts => maxAttempts

/-- `attemptRetries`, up to its first `await`: `getPeers` reads the connections at once. -/
def attemptRetries (connections : List Connection) (maxAttempts : Option ℕ) : Chain where
  maxAttempts := attempts maxAttempts
  peerIds := getPeers connections
  phase := .gettingPeers
  sends := []
  responses := []

inductive ChainEvent
  | peers
  | response (settled : Settled)

/-- The head of the `for` of `attemptRetries`, and its body up to the `await`. -/
def Chain.round (c : Chain) (i : ℕ) : Chain :=
  if i < c.maxAttempts then
    { c with sends := c.sends ++ (c.peerIds[i % c.peerIds.length]?).toList, phase := .sending i }
  else { c with phase := .ended }

/-- A segment of `attemptRetries`. A rejected send ends it. -/
def Chain.step (c : Chain) : ChainEvent → Option Chain
  | .peers =>
    match c.phase with
    | .gettingPeers => if c.peerIds.isEmpty then some { c with phase := .ended } else some (c.round 0)
    | _ => none
  | .response settled =>
    match c.phase with
    | .sending i =>
      let c := { c with responses := c.responses ++ [settled] }
      match settled with
      | .error _ => some { c with phase := .ended }
      | .ok response => if response.val.success.isSome then some { c with phase := .ended } else some (c.round (i + 1))
    | _ => none

/-! ## The call -/

/-- Where a `send` is suspended. -/
inductive Call
  | gettingPeers (peerIds : List PeerId)
  /-- At `Promise.allSettled`, with what has settled so far. -/
  | sending (results : List (Option Settled))
  | resolved (result : SDKProtocolResult)

structure State where
  connections : List Connection
  call : Call
  chains : List Chain

inductive Event
  /-- The connections change. -/
  | connections (connections : List Connection)
  | peers
  /-- The send to the peer with index `i` settles. -/
  | settled (i : ℕ) (settled : Settled)
  /-- `Promise.allSettled` resolves. -/
  | collected
  | retrying (k : ℕ) (event : ChainEvent)

/-- `send`, up to its first `await`. -/
def send (pubsubTopics : List String) (pubsubTopic : String) (connections : List Connection) : State where
  connections
  call :=
    if pubsubTopics.contains pubsubTopic then .gettingPeers (getPeers connections)
    else .resolved ⟨[], [⟨.TOPIC_NOT_CONFIGURED, none⟩]⟩
  chains := []

section

variable (connections : List Connection) (options : ISenderOptions)

/-- The body of the loop over the settled results. -/
def sortResult (acc : SDKProtocolResult × List Chain) : Settled → SDKProtocolResult × List Chain
  | .error _ => ({ acc.1 with failures := acc.1.failures ++ [⟨.core .GENERIC_FAIL, none⟩] }, acc.2)
  | .ok value =>
    match value.val.success, value.val.failure with
    | some success, _ => ({ acc.1 with successes := acc.1.successes ++ [success] }, acc.2)
    | none, some failure =>
      ({ acc.1 with failures := acc.1.failures ++ [Failure.ofCore failure] },
        if options.autoRetry = some true then acc.2 ++ [attemptRetries connections options.maxAttempts] else acc.2)
    | none, none => acc

/-- The loop over the settled results. -/
def sortResults (results : List Settled) : SDKProtocolResult × List Chain :=
  results.foldl (sortResult connections options) (⟨[], []⟩, [])

end

/-- One event; an event that cannot happen gives nothing. -/
def step (options : ISenderOptions) (s : State) : Event → Option State
  | .connections connections => some { s with connections }
  | .peers =>
    match s.call with
    | .gettingPeers peerIds =>
      if peerIds.isEmpty then some { s with call := .resolved ⟨[], [⟨.NO_PEER_AVAILABLE, none⟩]⟩ }
      else some { s with call := .sending (peerIds.map fun _ => none) }
    | _ => none
  | .settled i settled =>
    match s.call with
    | .sending results =>
      match results[i]? with
      | some none => some { s with call := .sending (results.set i (some settled)) }
      | _ => none
    | _ => none
  | .collected =>
    match s.call with
    | .sending results => (results.mapM id).map fun results =>
        let (result, chains) := sortResults s.connections options results
        { s with call := .resolved result, chains := s.chains ++ chains }
    | _ => none
  | .retrying k event => do
    let chain ← s.chains[k]?
    let chain ← chain.step event
    return { s with chains := s.chains.set k chain }

/-! ## A chain -/

/-- The promise resolved with a success. -/
def succeeded : Settled → Bool
  | .error _ => false
  | .ok value => value.val.success.isSome

/-- The promise resolved with a failure. -/
def failed : Settled → Bool
  | .error _ => false
  | .ok value => value.val.failure.isSome

theorem failed_ok (value : CoreProtocolResult) : failed (.ok value) = !value.val.success.isSome := by
  rw [value.property, Bool.not_not]
  rfl

/-- The sends go round the peers, at most as many as there are attempts, and each waits for the one before; none follows
a success, and a chain that only meets failures makes all of them. -/
structure Chain.Sound (c : Chain) : Prop where
  roundRobin : ∀ i < c.sends.length, c.sends[i]? = c.peerIds[i % c.peerIds.length]?
  atMost : c.sends.length ≤ c.maxAttempts
  answered : c.responses.length ≤ c.sends.length ∧ c.sends.length ≤ c.responses.length + 1
  stops : ∀ j settled, c.responses[j]? = some settled → succeeded settled = true → c.sends.length = j + 1
  exhausts : c.phase = .ended → c.peerIds ≠ [] → (∀ settled ∈ c.responses, failed settled = true) →
    c.sends.length = c.maxAttempts

/-- What holds of a chain where it is suspended. -/
def Chain.At (c : Chain) : Phase → Prop
  | .gettingPeers => c.sends = [] ∧ c.responses = []
  | .sending i => c.peerIds ≠ [] ∧ c.sends.length = i + 1 ∧ c.responses.length = i ∧
      ∀ settled ∈ c.responses, failed settled = true
  | .ended => c.responses.length = c.sends.length ∧
      (∀ j settled, c.responses[j]? = some settled → succeeded settled = true → c.sends.length = j + 1) ∧
      (c.peerIds ≠ [] → (∀ settled ∈ c.responses, failed settled = true) → c.sends.length = c.maxAttempts)

structure Chain.Inv (c : Chain) : Prop where
  roundRobin : ∀ i < c.sends.length, c.sends[i]? = c.peerIds[i % c.peerIds.length]?
  atMost : c.sends.length ≤ c.maxAttempts
  here : c.At c.phase

theorem succeeded_eq_false_of_failed {settled : Settled} (h : failed settled = true) : succeeded settled = false := by
  cases settled with
  | error e => rfl
  | ok value =>
    rw [failed_ok] at h
    simpa [succeeded] using h

/-- After failures only, no response is a success. -/
theorem not_succeeded_of_failed {responses : List Settled} (h : ∀ settled ∈ responses, failed settled = true) {j : ℕ}
    {settled : Settled} (hj : responses[j]? = some settled) : succeeded settled ≠ true := by
  rw [succeeded_eq_false_of_failed (h settled (List.mem_of_getElem? hj))]
  exact Bool.false_ne_true

theorem Chain.Inv.sound {c : Chain} (h : c.Inv) : c.Sound := by
  obtain ⟨hround, hmost, hat⟩ := h
  cases hphase : c.phase with
  | gettingPeers =>
    rw [hphase] at hat
    obtain ⟨hsends, hresponses⟩ := hat
    refine ⟨hround, hmost, by simp [hsends, hresponses], fun j settled hj => ?_, fun h => by cases hphase.symm.trans h⟩
    simp [hresponses] at hj
  | sending i =>
    rw [hphase] at hat
    obtain ⟨-, hsends, hresponses, hfailed⟩ := hat
    refine ⟨hround, hmost, by omega, fun j settled hj hs => ?_, fun h => by cases hphase.symm.trans h⟩
    exact absurd hs (not_succeeded_of_failed hfailed hj)
  | ended =>
    rw [hphase] at hat
    obtain ⟨hlength, hstops, hexhausts⟩ := hat
    exact ⟨hround, hmost, by omega, hstops, fun _ => hexhausts⟩

/-- The head of a round, reached with failures only. -/
theorem Chain.inv_round {c : Chain} {i : ℕ}
    (hround : ∀ i < c.sends.length, c.sends[i]? = c.peerIds[i % c.peerIds.length]?) (hpeers : c.peerIds ≠ [])
    (hle : i ≤ c.maxAttempts) (hsends : c.sends.length = i) (hresponses : c.responses.length = i)
    (hfailed : ∀ settled ∈ c.responses, failed settled = true) : (c.round i).Inv := by
  unfold Chain.round
  split
  next hlt =>
    have hmod : i % c.peerIds.length < c.peerIds.length := Nat.mod_lt _ (List.length_pos_iff.2 hpeers)
    have hpeer : c.peerIds[i % c.peerIds.length]? = some c.peerIds[i % c.peerIds.length] :=
      List.getElem?_eq_getElem hmod
    have hlength : (c.sends ++ [c.peerIds[i % c.peerIds.length]]).length = i + 1 := by simp [hsends]
    rw [hpeer, Option.toList_some]
    refine ⟨fun j hj => ?_, hlength.trans_le hlt, hpeers, hlength, hresponses, hfailed⟩
    dsimp only at hj ⊢
    rw [hlength] at hj
    rcases Nat.lt_succ_iff_lt_or_eq.1 hj with hj | rfl
    · rw [List.getElem?_append_left (by omega)]
      exact hround j (by omega)
    · rw [List.getElem?_append_right (by omega), hsends, Nat.sub_self, hpeer]
      rfl
  next hge =>
    have hmax : c.sends.length = c.maxAttempts := by omega
    refine ⟨hround, hmax.le, hresponses.trans hsends.symm, fun j settled hj hs => ?_, fun _ _ => hmax⟩
    exact absurd hs (not_succeeded_of_failed hfailed hj)

theorem Chain.inv_attemptRetries (connections : List Connection) (maxAttempts : Option ℕ) :
    (attemptRetries connections maxAttempts).Inv :=
  ⟨fun i hi => absurd hi (Nat.not_lt_zero i), Nat.zero_le _, rfl, rfl⟩

theorem Chain.inv_step {c c' : Chain} {event : ChainEvent} (h : c.Inv) (hstep : c.step event = some c') : c'.Inv := by
  obtain ⟨hround, hmost, hat⟩ := h
  cases event with
  | peers =>
    cases hphase : c.phase with
    | gettingPeers =>
      rw [hphase] at hat
      obtain ⟨hsends, hresponses⟩ := hat
      simp only [Chain.step, hphase] at hstep
      split at hstep
      next hempty =>
        cases hstep
        refine ⟨hround, hmost, by simp [hsends, hresponses], ?_, fun hpeers => ?_⟩
        · simp [hresponses]
        · exact absurd (List.isEmpty_iff.1 hempty) hpeers
      next hne =>
        cases hstep
        have hpeers : c.peerIds ≠ [] := fun h => hne (List.isEmpty_iff.2 h)
        have hnone : c.sends.length = 0 ∧ c.responses.length = 0 := by simp [hsends, hresponses]
        exact inv_round hround hpeers (Nat.zero_le _) hnone.1 hnone.2 (by simp [hresponses])
    | sending i => simp [Chain.step, hphase] at hstep
    | ended => simp [Chain.step, hphase] at hstep
  | response settled =>
    cases hphase : c.phase with
    | gettingPeers => simp [Chain.step, hphase] at hstep
    | ended => simp [Chain.step, hphase] at hstep
    | sending i =>
      rw [hphase] at hat
      obtain ⟨hpeers, hsends, hresponses, hfailed⟩ := hat
      have hlength : (c.responses ++ [settled]).length = c.sends.length := by simp [hsends, hresponses]
      -- a response that is no failure is the last one
      have hlast : failed settled = false → { c with responses := c.responses ++ [settled], phase := .ended }.Inv := by
        intro hnot
        refine ⟨hround, hmost, hlength, fun j settled' hj hs => ?_, fun _ hall => ?_⟩
        · dsimp only at hj
          rcases lt_or_ge j i with hlt | hge
          · rw [List.getElem?_append_left (by omega)] at hj
            exact absurd hs (not_succeeded_of_failed hfailed hj)
          · have := (List.getElem?_eq_some_iff.1 hj).1
            dsimp only
            omega
        · rw [hall settled (by simp)] at hnot
          cases hnot
      simp only [Chain.step, hphase] at hstep
      cases settled with
      | error e =>
        cases hstep
        exact hlast rfl
      | ok response =>
        dsimp only at hstep
        split at hstep
        next hs =>
          cases hstep
          exact hlast (by rw [failed_ok, hs]; rfl)
        next hs =>
          cases hstep
          refine inv_round hround hpeers (hsends ▸ hmost) hsends (hlength.trans hsends) ?_
          intro settled hmem
          rcases List.mem_append.1 hmem with hmem | hmem
          · exact hfailed settled hmem
          · obtain rfl := List.mem_singleton.1 hmem
            simpa [failed_ok] using hs

theorem Chain.round_peerIds (c : Chain) (i : ℕ) : (c.round i).peerIds = c.peerIds := by
  unfold Chain.round
  split <;> rfl

theorem Chain.round_maxAttempts (c : Chain) (i : ℕ) : (c.round i).maxAttempts = c.maxAttempts := by
  unfold Chain.round
  split <;> rfl

/-- A chain keeps its peers and its number of attempts. -/
theorem Chain.step_keeps {c c' : Chain} {event : ChainEvent} (hstep : c.step event = some c') :
    c'.peerIds = c.peerIds ∧ c'.maxAttempts = c.maxAttempts := by
  cases event with
  | peers =>
    rw [Chain.step] at hstep
    split at hstep
    · split at hstep
      · cases hstep
        exact ⟨rfl, rfl⟩
      · cases hstep
        exact ⟨round_peerIds c 0, round_maxAttempts c 0⟩
    · cases hstep
  | response settled =>
    rw [Chain.step] at hstep
    split at hstep
    · dsimp only at hstep
      split at hstep
      · cases hstep
        exact ⟨rfl, rfl⟩
      · split at hstep
        · cases hstep
          exact ⟨rfl, rfl⟩
        · cases hstep
          exact ⟨round_peerIds _ _, round_maxAttempts _ _⟩
    · cases hstep

/-! ## The loop over the results -/

/-- The sends of the protocol resolve, and a success is of the peer that they were made to. -/
theorem exists_settled_send (remote : RequestMethods.Remote) (uuid : String) (encoder : RequestMethods.IEncoder)
    (message : IMessage) (peerId : PeerId) : ∃ value : CoreProtocolResult,
      RequestMethods.send remote uuid encoder message peerId = .ok value.val ∧
        ∀ p, value.val.success = some p → p = peerId := by
  have hreported : RequestMethods.Reported peerId (RequestMethods.Accepted remote uuid (.send encoder message))
      (RequestMethods.send remote uuid encoder message peerId) := RequestMethods.reported_send encoder message
  obtain ⟨result, hresult, hone, hpeer⟩ := hreported
  exact ⟨⟨result, hone⟩, hresult, fun p hp => (hpeer p hp).1⟩

/-- The entry of an outcome in `successes`. -/
def successOf : Settled → Option PeerId
  | .error _ => none
  | .ok value => value.val.success

/-- The entry of an outcome in `failures`. -/
def failureOf : Settled → Option Failure
  | .error _ => some ⟨.core .GENERIC_FAIL, none⟩
  | .ok value => value.val.failure.map Failure.ofCore

/-- An outcome has an entry in one of the lists. -/
theorem isSome_failureOf (settled : Settled) : (failureOf settled).isSome = !(successOf settled).isSome := by
  cases settled with
  | error e => rfl
  | ok value =>
    rw [failureOf, successOf, Option.isSome_map, value.property, Bool.not_not]

section

variable (connections : List Connection) (options : ISenderOptions)

/-- The chains that the loop starts. -/
def retries (results : List Settled) : List Chain :=
  if options.autoRetry = some true then
    List.replicate (results.countP failed) (attemptRetries connections options.maxAttempts)
  else []

theorem retries_cons (settled : Settled) (results : List Settled) :
    retries connections options (settled :: results) =
      retries connections options [settled] ++ retries connections options results := by
  unfold retries
  split
  · rw [List.countP_cons, List.countP_singleton, Nat.add_comm, List.replicate_add]
  · rfl

theorem sortResult_eq (acc : SDKProtocolResult × List Chain) (settled : Settled) :
    sortResult connections options acc settled =
      (⟨acc.1.successes ++ (successOf settled).toList, acc.1.failures ++ (failureOf settled).toList⟩,
        acc.2 ++ retries connections options [settled]) := by
  cases settled with
  | error e => simp [sortResult, successOf, failureOf, retries, failed]
  | ok value =>
    obtain ⟨⟨success, failure⟩, hone⟩ := value
    cases success with
    | some success =>
      cases failure with
      | some failure => cases hone
      | none => simp [sortResult, successOf, failureOf, retries, failed]
    | none =>
      cases failure with
      | none => cases hone
      | some failure =>
        by_cases hretry : options.autoRetry = some true
        · simp [sortResult, successOf, failureOf, retries, failed, hretry]
        · simp [sortResult, successOf, failureOf, retries, hretry]

/-- The loop sorts the outcomes, in order. -/
theorem sortResults_eq (results : List Settled) :
    sortResults connections options results =
      (⟨results.filterMap successOf, results.filterMap failureOf⟩, retries connections options results) := by
  suffices ∀ acc : SDKProtocolResult × List Chain, results.foldl (sortResult connections options) acc =
      (⟨acc.1.successes ++ results.filterMap successOf, acc.1.failures ++ results.filterMap failureOf⟩,
        acc.2 ++ retries connections options results) from this (⟨[], []⟩, [])
  induction results with
  | nil =>
    intro acc
    simp [retries]
  | cons settled results ih =>
    intro acc
    rw [List.foldl_cons, ih, sortResult_eq, retries_cons connections options settled results]
    cases hs : successOf settled <;> cases hf : failureOf settled <;> simp [hs, hf]

end

/-- Every outcome has one entry. -/
theorem length_filterMap_add (results : List Settled) :
    (results.filterMap successOf).length + (results.filterMap failureOf).length = results.length := by
  induction results with
  | nil => rfl
  | cons settled results ih =>
    have hone := isSome_failureOf settled
    cases hs : successOf settled <;> cases hf : failureOf settled <;> rw [hs, hf] at hone
    · cases hone
    · rw [List.filterMap_cons_none hs, List.filterMap_cons_some hf, List.length_cons, List.length_cons]
      omega
    · rw [List.filterMap_cons_some hs, List.filterMap_cons_none hf, List.length_cons, List.length_cons]
      omega
    · cases hone

/-! ## Steps -/

section

variable {options : ISenderOptions} {s s' : State} {event : Event}

/-- Where the chains after a step come from. -/
theorem mem_chains_of_step (h : step options s event = some s') {chain' : Chain} (hmem : chain' ∈ s'.chains) :
    chain' ∈ s.chains ∨ (event = .collected ∧ chain' = attemptRetries s.connections options.maxAttempts) ∨
      ∃ chain ∈ s.chains, ∃ event, chain.step event = some chain' := by
  cases event with
  | connections connections =>
    cases h
    exact .inl hmem
  | peers =>
    simp only [step] at h
    split at h
    · split at h <;> cases h <;> exact .inl hmem
    · cases h
  | settled i settled =>
    simp only [step] at h
    split at h
    · split at h
      · cases h
        exact .inl hmem
      · cases h
    · cases h
  | collected =>
    simp only [step] at h
    split at h
    · obtain ⟨results, -, rfl⟩ := Option.map_eq_some_iff.1 h
      rw [sortResults_eq] at hmem
      rcases List.mem_append.1 hmem with hmem | hmem
      · exact .inl hmem
      · unfold retries at hmem
        split at hmem
        · exact .inr (.inl ⟨rfl, List.eq_of_mem_replicate hmem⟩)
        · cases hmem
    · cases h
  | retrying k event =>
    obtain ⟨chain, hchain, h⟩ := Option.bind_eq_some_iff.1 h
    obtain ⟨next, hnext, h⟩ := Option.bind_eq_some_iff.1 h
    cases h
    rcases List.mem_or_eq_of_mem_set hmem with hmem | rfl
    · exact .inl hmem
    · exact .inr (.inr ⟨chain, List.mem_of_getElem? hchain, event, hnext⟩)

/-- A step of a chain leaves the call alone. -/
theorem step_retrying {k : ℕ} {event : ChainEvent} (h : step options s (.retrying k event) = some s') :
    s'.call = s.call ∧ s'.chains.length = s.chains.length := by
  obtain ⟨chain, -, h⟩ := Option.bind_eq_some_iff.1 h
  obtain ⟨next, -, h⟩ := Option.bind_eq_some_iff.1 h
  cases h
  exact ⟨rfl, List.length_set⟩

/-- Promises that have all settled give the list of their outcomes. -/
theorem mapM_id_eq_some {results : List (Option Settled)} {outcomes : List Settled} :
    results.mapM id = some outcomes ↔ results = outcomes.map some := by
  induction results generalizing outcomes with
  | nil => cases outcomes <;> simp
  | cons result results ih =>
    rw [List.mapM_cons]
    cases outcomes with
    | nil => cases result <;> simp [Option.bind_eq_some_iff]
    | cons outcome outcomes => cases result <;> simp [Option.bind_eq_some_iff, ih, and_comm]

end

/-! ## Runs -/

/-- The chain was started in a run with these events: when the results were there, with the peers of that moment. -/
def Started (options : ISenderOptions) (s₀ : State) (events : List Event) (chain : Chain) : Prop :=
  ∃ before after s, events = before ++ .collected :: after ∧ run (step options) s₀ before = some s ∧
    chain.peerIds = getPeers s.connections ∧ chain.maxAttempts = attempts options.maxAttempts

/-- The outcome of every send has its entry in the result, and the chains are those of the failures. -/
structure Accounted (options : ISenderOptions) (outcomes : List Settled) (chains : List Chain)
    (result : SDKProtocolResult) : Prop where
  successes : result.successes = outcomes.filterMap successOf
  failures : result.failures = outcomes.filterMap failureOf
  total : result.successes.length + result.failures.length = outcomes.length
  chains : chains.length = if options.autoRetry = some true then outcomes.countP failed else 0

/-- What holds of a call to these peers, after these events, where it is suspended. -/
def State.After (s : State) (options : ISenderOptions) (peerIds : List PeerId) (events : List Event) : Call → Prop
  | .gettingPeers peerIds' => peerIds' = peerIds ∧ s.chains = [] ∧ ∀ i settled, .settled i settled ∉ events
  | .sending results => results.length = peerIds.length ∧ s.chains = [] ∧
      ∀ i settled, .settled i settled ∈ events ↔ results[i]? = some (some settled)
  | .resolved result => ∃ outcomes : List Settled, outcomes.length = peerIds.length ∧
      (∀ i settled, .settled i settled ∈ events ↔ outcomes[i]? = some settled) ∧
        Accounted options outcomes s.chains result

section

variable {options : ISenderOptions} {s₀ s s' t : State} {event : Event} {events : List Event} {peerIds : List PeerId}

/-- The chains of a run were started in it, and they are sound. -/
theorem started_of_run (hchains : s₀.chains = []) (h : run (step options) s₀ events = some t) :
    ∀ chain ∈ t.chains, Started options s₀ events chain ∧ chain.Inv := by
  refine run_invariant_of_history (P := fun t events => ∀ chain ∈ t.chains, Started options s₀ events chain ∧ chain.Inv)
    (by simp [hchains]) (fun events s event s' hrun hinv hstep chain' hmem => ?_) events h
  -- a later event leaves the start where it was
  have hlater : ∀ chain, Started options s₀ events chain → ∀ c, c.peerIds = chain.peerIds →
      c.maxAttempts = chain.maxAttempts → Started options s₀ (events ++ [event]) c := by
    rintro chain ⟨before, after, s, rfl, hbefore, hpeers, hmax⟩ c hc hc'
    exact ⟨before, after ++ [event], s, by simp, hbefore, hc.trans hpeers, hc'.trans hmax⟩
  rcases mem_chains_of_step hstep hmem with hold | ⟨rfl, rfl⟩ | ⟨chain, hchain, cevent, hnext⟩
  · exact ⟨hlater chain' (hinv chain' hold).1 chain' rfl rfl, (hinv chain' hold).2⟩
  · exact ⟨⟨events, [], s, rfl, hrun, rfl, rfl⟩, Chain.inv_attemptRetries _ _⟩
  · obtain ⟨hpeers, hmax⟩ := Chain.step_keeps hnext
    exact ⟨hlater chain (hinv chain hchain).1 chain' hpeers hmax, Chain.inv_step (hinv chain hchain).2 hnext⟩

theorem after_retrying {k : ℕ} {cevent : ChainEvent} (h : s.After options peerIds events s.call)
    (hstep : step options s (.retrying k cevent) = some s') :
    s'.After options peerIds (events ++ [.retrying k cevent]) s'.call := by
  obtain ⟨hcall, hlength⟩ := step_retrying hstep
  rw [hcall]
  cases hs : s.call with
  | gettingPeers peerIds' =>
    rw [hs] at h
    obtain ⟨hpeers, hchains, hnone⟩ := h
    rw [hchains] at hlength
    exact ⟨hpeers, List.length_eq_zero_iff.1 hlength, by simpa using hnone⟩
  | sending results =>
    rw [hs] at h
    obtain ⟨hpeers, hchains, hsettled⟩ := h
    rw [hchains] at hlength
    exact ⟨hpeers, List.length_eq_zero_iff.1 hlength, by simpa using hsettled⟩
  | resolved result =>
    rw [hs] at h
    obtain ⟨outcomes, hpeers, hsettled, haccounted⟩ := h
    exact ⟨outcomes, hpeers, by simpa using hsettled, { haccounted with chains := hlength.trans haccounted.chains }⟩

theorem after_settled {i : ℕ} {settled : Settled} (h : s.After options peerIds events s.call)
    (hstep : step options s (.settled i settled) = some s') :
    s'.After options peerIds (events ++ [.settled i settled]) s'.call := by
  simp only [step] at hstep
  split at hstep
  next results hs =>
    rw [hs] at h
    obtain ⟨hpeers, hchains, hsettled⟩ := h
    split at hstep
    next hpending =>
      cases hstep
      refine ⟨List.length_set.trans hpeers, hchains, fun j settled' => ?_⟩
      have hlt : i < results.length := (List.getElem?_eq_some_iff.1 hpending).1
      rw [List.mem_append, hsettled, List.getElem?_set]
      by_cases hij : i = j
      · subst hij
        rw [hpending]
        simp [hlt, eq_comm]
      · simp [hij, Ne.symm hij]
    next => cases hstep
  next => cases hstep

/-- A step keeps what holds of the call. -/
theorem after_step (hpeers : peerIds ≠ []) (h : s.After options peerIds events s.call)
    (hstep : step options s event = some s') : s'.After options peerIds (events ++ [event]) s'.call := by
  cases event with
  | connections connections =>
    cases hstep
    cases hs : s.call <;> rw [hs] at h <;> simpa [State.After] using h
  | retrying k cevent => exact after_retrying h hstep
  | settled i settled => exact after_settled h hstep
  | peers =>
    simp only [step] at hstep
    split at hstep
    next peerIds' hs =>
      rw [hs] at h
      obtain ⟨rfl, hchains, hnone⟩ := h
      rw [if_neg (by simpa using hpeers)] at hstep
      cases hstep
      refine ⟨List.length_map _, hchains, fun i settled => ?_⟩
      simp [hnone i settled, List.getElem?_replicate]
    next => cases hstep
  | collected =>
    simp only [step] at hstep
    split at hstep
    next results hs =>
      rw [hs] at h
      obtain ⟨hlength, hchains, hsettled⟩ := h
      obtain ⟨outcomes, houtcomes, rfl⟩ := Option.map_eq_some_iff.1 hstep
      obtain rfl := mapM_id_eq_some.1 houtcomes
      rw [List.length_map] at hlength
      refine ⟨outcomes, hlength, fun i settled => ?_, ?_⟩
      · simpa using hsettled i settled
      · rw [sortResults_eq]
        refine ⟨rfl, rfl, length_filterMap_add outcomes, ?_⟩
        rw [hchains, retries]
        split <;> simp
    next => cases hstep

/-- A call to peers reaches its first `await`, and what holds there stays. -/
theorem after_run {pubsubTopics : List String} {pubsubTopic : String} {connections : List Connection}
    (htopic : pubsubTopic ∈ pubsubTopics) (hpeers : getPeers connections ≠ [])
    (h : run (step options) (send pubsubTopics pubsubTopic connections) events = some t) :
    t.After options (getPeers connections) events t.call := by
  refine run_invariant_of_history (P := fun t events => t.After options (getPeers connections) events t.call) ?_
    (fun _ _ _ _ _ => after_step hpeers) events h
  rw [send, if_pos (List.contains_iff_mem.2 htopic)]
  exact ⟨rfl, rfl, by simp⟩

end

/-- **A light push accounts for every peer.** On a configured topic with peers, whatever comes of the sends in whatever
order: once all have settled the call resolves, with an entry for each of them, a success or a failure, and with a chain
of retries for each that resolved with a failure if this is asked for. A chain has the peers of its start, goes round them
and makes at most its number of sends, none after a success. -/
theorem send_accounts (options : Option ISenderOptions) (pubsubTopics : List String) (pubsubTopic : String)
    (connections : List Connection) (htopic : pubsubTopic ∈ pubsubTopics) (hpeers : getPeers connections ≠ [])
    (events : List Event) (t : State)
    (hrun : run (step (options.getD DEFAULT_SEND_OPTIONS)) (send pubsubTopics pubsubTopic connections) events = some t) :
    ((∀ i < (getPeers connections).length, ∃ settled, .settled i settled ∈ events) →
      ∃ result, t.call = .resolved result ∨
        ∃ t', step (options.getD DEFAULT_SEND_OPTIONS) t .collected = some t' ∧ t'.call = .resolved result) ∧
    (∀ result, t.call = .resolved result → ∃ outcomes : List Settled, outcomes.length = (getPeers connections).length ∧
      (∀ i settled, .settled i settled ∈ events ↔ outcomes[i]? = some settled) ∧
        Accounted (options.getD DEFAULT_SEND_OPTIONS) outcomes t.chains result) ∧
    ∀ chain ∈ t.chains,
      Started (options.getD DEFAULT_SEND_OPTIONS) (send pubsubTopics pubsubTopic connections) events chain ∧
        chain.Sound := by
  have hafter := after_run htopic hpeers hrun
  refine ⟨fun hall => ?_, fun result hresult => ?_, fun chain hchain => ?_⟩
  · cases hcall : t.call with
    | gettingPeers peerIds =>
      rw [hcall] at hafter
      obtain ⟨settled, hsettled⟩ := hall 0 (List.length_pos_iff.2 hpeers)
      exact absurd hsettled (hafter.2.2 0 settled)
    | resolved result => exact ⟨result, .inl rfl⟩
    | sending results =>
      rw [hcall] at hafter
      obtain ⟨hlength, -, hsettled⟩ := hafter
      obtain ⟨outcomes, rfl⟩ : results ∈ Set.range (List.map some) := by
        rw [Set.range_list_map]
        intro result hmem
        obtain ⟨i, hi⟩ := List.mem_iff_getElem?.1 hmem
        obtain ⟨settled, hin⟩ := hall i (hlength ▸ (List.getElem?_eq_some_iff.1 hi).1)
        exact ⟨settled, Option.some.inj (((hsettled i settled).1 hin).symm.trans hi)⟩
      have hcollected : (outcomes.map some).mapM id = some outcomes := mapM_id_eq_some.2 rfl
      exact ⟨_, .inr ⟨_, by simp only [step, hcall, hcollected]; rfl, rfl⟩⟩
  · rw [hresult] at hafter
    exact hafter
  · obtain ⟨hstarted, hinv⟩ := started_of_run rfl hrun chain hchain
    exact ⟨hstarted, hinv.sound⟩

/-- Of two peers the second fails, before the first succeeds; the chain that this starts sends twice. -/
theorem send_accounts_two_peers : ∃ events t result,
    run (step { autoRetry := some true, maxAttempts := none })
      (send ["t"] "t" [⟨0, "a", [CONNECTION_LOCK_TAG]⟩, ⟨1, "b", [CONNECTION_LOCK_TAG]⟩]) events = some t ∧
    t.call = .resolved result ∧ t.chains.map Chain.sends = [["a", "a"]] ∧
      (∃ outcomes, outcomes.length = 2 ∧
        Accounted { autoRetry := some true, maxAttempts := none } outcomes t.chains result) ∧
          ∀ chain ∈ t.chains, chain.Sound := by
  obtain ⟨events, t, result, hrun, hcall, hsends⟩ : ∃ events t result,
      run (step { autoRetry := some true, maxAttempts := none })
        (send ["t"] "t" [⟨0, "a", [CONNECTION_LOCK_TAG]⟩, ⟨1, "b", [CONNECTION_LOCK_TAG]⟩]) events = some t ∧
      t.call = .resolved result ∧ t.chains.map Chain.sends = [["a", "a"]] :=
    ⟨[.peers, .settled 1 (.ok ⟨RequestMethods.failed .NO_RESPONSE "b", rfl⟩),
        .settled 0 (.ok ⟨RequestMethods.succeeded "a", rfl⟩), .connections [⟨0, "a", [CONNECTION_LOCK_TAG]⟩], .collected,
        .retrying 0 .peers, .retrying 0 (.response (.ok ⟨RequestMethods.failed .NO_RESPONSE "a", rfl⟩)),
        .retrying 0 (.response (.ok ⟨RequestMethods.succeeded "a", rfl⟩))], _, _, rfl, rfl, rfl⟩
  obtain ⟨-, haccounts, hchains⟩ := send_accounts (some { autoRetry := some true, maxAttempts := none }) ["t"] "t"
    [⟨0, "a", [CONNECTION_LOCK_TAG]⟩, ⟨1, "b", [CONNECTION_LOCK_TAG]⟩] (by decide) (by decide) events t hrun
  obtain ⟨outcomes, hlength, -, haccounted⟩ := haccounts result hcall
  exact ⟨events, t, result, hrun, hcall, hsends, ⟨outcomes, hlength, haccounted⟩,
    fun chain hchain => (hchains chain hchain).2⟩

end JsWaku.LightPush
