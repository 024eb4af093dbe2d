import JsWaku.Lib.Transition
import JsWaku.Runtime.Libp2p
import JsWaku.Runtime.Map
import JsWaku.Utils.Sharding
import Mathlib.Logic.Function.Basic

/-!
# The keep-alive manager

`KeepAliveManager` of `packages/core/src/lib/connection_manager/keep_alive_manager.ts`. Its ping timers are kept under
the text of a peer id, its relay timers under the `PeerId` object; `stopAll` clears what `Object.values` lists of the
maps. An interval is a number here: what it runs when it fires, and fires again until it is cleared, changes no timer.

The live intervals are those of the latest start of each peer since its last stop if and only if a peer is started again
and stopped with the object whose timers are recorded, and `stopAll` finds nothing live (`live_iff`).
-/

namespace JsWaku.KeepAliveManager

open Transition Sharding

/-! ## Data -/

/-- A `PeerId` object: its text and its identity. -/
structure PeerIdObject where
  text : PeerId
  object : ℕ
  deriving DecidableEq, Repr

/-- `KeepAliveOptions`, and the pubsub topics of the relay if there is one. -/
structure Env where
  pingKeepAlive : ℕ
  relayKeepAlive : ℕ
  relay : Option (List String)
  deriving DecidableEq, Repr

/-- The fields of the manager, and the intervals that were created and not cleared. -/
structure Manager where
  pingKeepAliveTimers : Map PeerId ℕ
  relayKeepAliveTimers : Map PeerIdObject (List ℕ)
  intervals : List ℕ
  /-- No interval has this number or a larger one. -/
  nextId : ℕ

/-- A new manager. -/
def init : Manager where
  pingKeepAliveTimers := Map.empty
  relayKeepAliveTimers := Map.empty
  intervals := []
  nextId := 0

/-- `Object.values(map)`: the entries of a `Map` are not properties of the object. -/
def objectValues {κ ν : Type} (_ : Map κ ν) : List ν := []

/-! ## The code -/

namespace Manager

variable (env : Env) (mesh : String → List PeerId) (s : Manager)

/-- `setInterval`: the interval is `s.nextId`. -/
def setInterval : Manager := { s with intervals := s.nextId :: s.intervals, nextId := s.nextId + 1 }

/-- `clearInterval`. -/
def clearInterval (timer : ℕ) : Manager := { s with intervals := s.intervals.filter (· ≠ timer) }

/-- `clearInterval` of what `stopAll` has in its list; an array of timers is no timer. -/
def clearValue : ℕ ⊕ List ℕ → Manager
  | .inl timer => s.clearInterval timer
  | .inr _ => s

/-- `stop`. -/
def stop (peerId : PeerIdObject) : Manager :=
  let s :=
    match s.pingKeepAliveTimers.get peerId.text with
    | some timer =>
      { s.clearInterval timer with pingKeepAliveTimers := s.pingKeepAliveTimers.delete peerId.text }
    | none => s
  match s.relayKeepAliveTimers.get peerId with
  | some timers =>
    { timers.foldl clearInterval s with relayKeepAliveTimers := s.relayKeepAliveTimers.delete peerId }
  | none => s

/-- The loop of `scheduleRelayPings`: the intervals it returns. An encoder is made for the topic first, which throws where
the topic does not name a shard. -/
def scheduleRelayPings (peerIdStr : PeerId) : Manager → List ℕ → List String → Manager × Except JsError (List ℕ)
  | s, intervals, [] => (s, .ok intervals)
  | s, intervals, topic :: topics =>
    if !(mesh topic).contains peerIdStr then scheduleRelayPings peerIdStr s intervals topics
    else
      match pubsubTopicToSingleShardInfo topic with
      | .error error => (s, .error error)
      | .ok _ => scheduleRelayPings peerIdStr s.setInterval (intervals ++ [s.nextId]) topics

/-- The ping timer of `start`. -/
def startPing (peerId : PeerIdObject) : Manager :=
  if env.pingKeepAlive ≠ 0 then
    { pingKeepAliveTimers := s.pingKeepAliveTimers.set peerId.text s.nextId
      relayKeepAliveTimers := s.relayKeepAliveTimers
      intervals := s.setInterval.intervals
      nextId := s.setInterval.nextId }
  else s

/-- The relay timers of `start`. -/
def startRelay (peerId : PeerIdObject) : Manager × Except JsError Unit :=
  match env.relay with
  | some pubsubTopics =>
    if env.relayKeepAlive ≠ 0 then
      match scheduleRelayPings mesh peerId.text s [] pubsubTopics with
      | (s, .ok intervals) =>
        ({ s with relayKeepAliveTimers := s.relayKeepAliveTimers.set peerId intervals }, .ok ())
      | (s, .error error) => (s, .error error)
    else (s, .ok ())
  | none => (s, .ok ())

/-- `start`, with the mesh peers of each topic, and what it throws. -/
def start (peerId : PeerIdObject) : Manager × Except JsError Unit :=
  ((s.stop peerId).startPing env peerId).startRelay env mesh peerId

/-- `stopAll`. -/
def stopAll : Manager :=
  let timers := (objectValues s.pingKeepAliveTimers).map Sum.inl ++ (objectValues s.relayKeepAliveTimers).map Sum.inr
  let s := timers.foldl clearValue s
  { s with pingKeepAliveTimers := Map.empty, relayKeepAliveTimers := Map.empty }

end Manager

/-! ## Runs -/

/-- The manager, and for each peer the intervals that its latest start has created, none after a stop. -/
structure State where
  manager : Manager
  started : PeerId → List ℕ

/-- A call; a start with the mesh peers of each topic then. -/
inductive Event
  | start (peerId : PeerIdObject) (mesh : String → List PeerId)
  | stop (peerId : PeerIdObject)
  | stopAll

/-- The intervals created from `s` to `s'`. -/
def created (s s' : Manager) : List ℕ := List.range' s.nextId (s'.nextId - s.nextId)

/-- The peer is started or stopped last: its latest start has created these intervals. -/
def State.restart (s : State) (p : PeerId) (manager : Manager) (timers : List ℕ) : State :=
  ⟨manager, Function.update s.started p timers⟩

/-- A call, and what it makes of the latest starts. -/
def step (env : Env) (s : State) : Event → Option State
  | .start peerId mesh =>
    let manager := (s.manager.start env mesh peerId).1
    some (s.restart peerId.text manager (created s.manager manager))
  | .stop peerId => some (s.restart peerId.text (s.manager.stop peerId) [])
  | .stopAll => some ⟨s.manager.stopAll, fun _ => []⟩

/-- A manager without timers. -/
def State.init : State := ⟨KeepAliveManager.init, fun _ => []⟩

/-- The live intervals are those of the latest starts. -/
def State.Live (s : State) : Prop := ∀ timer, timer ∈ s.manager.intervals ↔ ∃ p, timer ∈ s.started p

/-- The timers that `stop` clears for the object. -/
def Manager.recorded (s : Manager) (peerId : PeerIdObject) : List ℕ :=
  (s.pingKeepAliveTimers.get peerId.text).toList ++ (s.relayKeepAliveTimers.get peerId).getD []

/-- A peer is started and stopped with an object for which all its intervals are recorded, and nothing is live when all
are stopped. -/
def StopsRecorded (s : State) : Event → Prop
  | .start peerId _ | .stop peerId => ∀ timer ∈ s.started peerId.text, timer ∈ s.manager.recorded peerId
  | .stopAll => s.manager.intervals = []

instance (s : State) : ∀ e : Event, Decidable (StopsRecorded s e)
  | .start peerId _ | .stop peerId =>
    inferInstanceAs (Decidable (∀ timer ∈ s.started peerId.text, timer ∈ s.manager.recorded peerId))
  | .stopAll => inferInstanceAs (Decidable (s.manager.intervals = []))

/-! ## What the code does to the timers -/

namespace Manager

@[simp] theorem nextId_setInterval (s : Manager) : s.setInterval.nextId = s.nextId + 1 := rfl

theorem mem_setInterval {s : Manager} {timer : ℕ} :
    timer ∈ s.setInterval.intervals ↔ timer = s.nextId ∨ timer ∈ s.intervals :=
  List.mem_cons

theorem foldl_clearInterval (timers : List ℕ) (s : Manager) :
    timers.foldl clearInterval s = { s with intervals := s.intervals.filter (· ∉ timers) } := by
  induction timers generalizing s with
  | nil => simp
  | cons timer timers ih =>
    rw [List.foldl_cons, ih, clearInterval]
    simp [List.filter_filter, Bool.and_comm]

/-- `stop` clears and forgets what is recorded for the object. -/
theorem stop_eq (s : Manager) (peerId : PeerIdObject) :
    s.stop peerId =
      { s with
        pingKeepAliveTimers := s.pingKeepAliveTimers.delete peerId.text
        relayKeepAliveTimers := s.relayKeepAliveTimers.delete peerId
        intervals := s.intervals.filter (· ∉ s.recorded peerId) } := by
  have hnotRelayed : s.relayKeepAliveTimers.get peerId = none →
      s.relayKeepAliveTimers.delete peerId = s.relayKeepAliveTimers :=
    fun hrelay => Map.delete_of_not_has (by simp [Map.has, hrelay])
  unfold stop recorded
  cases hping : s.pingKeepAliveTimers.get peerId.text with
  | none =>
    have hping' : s.pingKeepAliveTimers.delete peerId.text = s.pingKeepAliveTimers :=
      Map.delete_of_not_has (by simp [Map.has, hping])
    cases hrelay : s.relayKeepAliveTimers.get peerId with
    | none => simp [hping', hrelay, hnotRelayed hrelay]
    | some timers =>
      have hnone : (none : Option ℕ).toList ++ (some timers).getD [] = timers := by simp
      simp only [foldl_clearInterval, hnone, hping', hrelay]
  | some timer =>
    cases hrelay : s.relayKeepAliveTimers.get peerId with
    | none => simp [clearInterval, hrelay, hnotRelayed hrelay]
    | some timers =>
      simp only [clearInterval, hrelay, foldl_clearInterval]
      simp [List.filter_filter, Bool.and_comm]

theorem stopAll_eq (s : Manager) :
    s.stopAll = { s with pingKeepAliveTimers := Map.empty, relayKeepAliveTimers := Map.empty } :=
  rfl

end Manager

@[simp] theorem mem_created {s s' : Manager} {timer : ℕ} :
    timer ∈ created s s' ↔ s.nextId ≤ timer ∧ timer < s'.nextId := by
  rw [created, List.mem_range'_1]
  omega

/-- From `s` to `s'` the peer is started: intervals are created, none is cleared, and what is recorded for the object are
some of those created. -/
structure Starts (peerId : PeerIdObject) (s s' : Manager) : Prop where
  nextId : s.nextId ≤ s'.nextId
  mem : ∀ timer, timer ∈ s'.intervals ↔ timer ∈ s.intervals ∨ timer ∈ created s s'
  ping_ne : ∀ p, p ≠ peerId.text → s'.pingKeepAliveTimers.get p = s.pingKeepAliveTimers.get p
  ping : ∀ timer, s'.pingKeepAliveTimers.get peerId.text = some timer → timer ∈ created s s'
  relay_ne : ∀ o, o ≠ peerId → s'.relayKeepAliveTimers.get o = s.relayKeepAliveTimers.get o
  relay : ∀ timers, s'.relayKeepAliveTimers.get peerId = some timers → ∀ timer ∈ timers, timer ∈ created s s'

namespace Starts

variable {peerId : PeerIdObject} {s₀ s : Manager}

/-- Nothing is started yet. -/
theorem refl (hping : s.pingKeepAliveTimers.get peerId.text = none) (hrelay : s.relayKeepAliveTimers.get peerId = none) :
    Starts peerId s s where
  nextId := le_rfl
  mem timer := by
    rw [mem_created]
    exact (or_iff_left (by omega)).symm
  ping_ne _ _ := rfl
  ping timer htimer := by cases hping.symm.trans htimer
  relay_ne _ _ := rfl
  relay timers htimers := by cases hrelay.symm.trans htimers

/-- One more interval is created. -/
theorem setInterval (h : Starts peerId s₀ s) : Starts peerId s₀ s.setInterval where
  nextId := h.nextId.trans (Nat.le_succ _)
  mem timer := by
    have hle := h.nextId
    rw [Manager.mem_setInterval, h.mem, mem_created, mem_created, Manager.nextId_setInterval, or_left_comm]
    refine or_congr Iff.rfl ⟨?_, ?_⟩
    · rintro (rfl | hold) <;> omega
    · intro hnew
      omega
  ping_ne := h.ping_ne
  ping timer htimer := by
    have hold := h.ping timer htimer
    rw [mem_created] at hold ⊢
    exact ⟨hold.1, Nat.lt_succ_of_lt hold.2⟩
  relay_ne := h.relay_ne
  relay timers htimers timer htimer := by
    have hold := h.relay timers htimers timer htimer
    rw [mem_created] at hold ⊢
    exact ⟨hold.1, Nat.lt_succ_of_lt hold.2⟩

/-- The ping timer is started, if there is to be one. -/
theorem startPing (env : Env) (h : Starts peerId s₀ s) : Starts peerId s₀ (s.startPing env peerId) := by
  unfold Manager.startPing
  split
  · have hset := h.setInterval
    refine ⟨hset.nextId, hset.mem, ?_, ?_, hset.relay_ne, hset.relay⟩
    · intro p hp
      exact (Map.get_set_ne _ _ hp).trans (h.ping_ne p hp)
    · intro timer htimer
      simp only [Map.get_set_self, Option.some.injEq] at htimer
      rw [← htimer, mem_created]
      exact ⟨h.nextId, Nat.lt_succ_self _⟩
  · exact h

/-- The loop of the relay timers creates those that it returns. -/
theorem scheduleRelayPings (mesh : String → List PeerId) (topics : List String) (intervals : List ℕ)
    (h : Starts peerId s₀ s) (hintervals : ∀ timer ∈ intervals, timer ∈ created s₀ s) :
    let r := Manager.scheduleRelayPings mesh peerId.text s intervals topics
    Starts peerId s₀ r.1 ∧ ∀ l, r.2 = .ok l → ∀ timer ∈ l, timer ∈ created s₀ r.1 := by
  induction topics generalizing s intervals with
  | nil =>
    refine ⟨h, ?_⟩
    rintro l ⟨rfl⟩
    exact hintervals
  | cons topic topics ih =>
    rw [Manager.scheduleRelayPings]
    split
    · exact ih intervals h hintervals
    · cases Sharding.pubsubTopicToSingleShardInfo topic with
      | error error =>
        refine ⟨h, ?_⟩
        rintro l ⟨⟩
      | ok shardInfo =>
        refine ih (intervals ++ [s.nextId]) h.setInterval ?_
        intro timer htimer
        rw [mem_created]
        rcases List.mem_append.1 htimer with htimer | htimer
        · have hold := mem_created.1 (hintervals timer htimer)
          exact ⟨hold.1, Nat.lt_succ_of_lt hold.2⟩
        · rw [List.mem_singleton.1 htimer]
          exact ⟨h.nextId, Nat.lt_succ_self _⟩

/-- The relay timers are started, and recorded unless the loop throws. -/
theorem startRelay (env : Env) (mesh : String → List PeerId) (h : Starts peerId s₀ s) :
    Starts peerId s₀ (s.startRelay env mesh peerId).1 := by
  unfold Manager.startRelay
  cases env.relay with
  | none => exact h
  | some topics =>
    simp only
    split
    · obtain ⟨hstarts, hintervals⟩ := scheduleRelayPings mesh topics [] h fun _ hmem => by cases hmem
      split
      · rename_i s' intervals heq
        rw [heq] at hstarts hintervals
        refine ⟨hstarts.nextId, hstarts.mem, hstarts.ping_ne, hstarts.ping, ?_, ?_⟩
        · intro o ho
          exact (Map.get_set_ne _ _ ho).trans (hstarts.relay_ne o ho)
        · intro timers htimers
          simp only [Map.get_set_self, Option.some.injEq] at htimers
          rw [← htimers]
          exact hintervals intervals rfl
      · rename_i s' error heq
        rw [heq] at hstarts
        exact hstarts
    · exact h

end Starts

/-- After its stop, `start` starts the peer. -/
theorem start_spec (env : Env) (mesh : String → List PeerId) (s : Manager) (peerId : PeerIdObject) :
    Starts peerId (s.stop peerId) (s.start env mesh peerId).1 := by
  have hstopped : Starts peerId (s.stop peerId) (s.stop peerId) := by
    rw [Manager.stop_eq]
    exact Starts.refl (Map.get_delete_self _ _) (Map.get_delete_self _ _)
  exact (hstopped.startPing env).startRelay env mesh

/-! ## Steps -/

/-- What is recorded and live was created by the latest start of its peer, and no interval by the starts of two. -/
structure Recorded (s : State) : Prop where
  lt : ∀ p, ∀ timer ∈ s.started p, timer < s.manager.nextId
  unique : ∀ p q timer, timer ∈ s.started p → timer ∈ s.started q → p = q
  recorded_lt : ∀ peerId, ∀ timer ∈ s.manager.recorded peerId, timer < s.manager.nextId
  mem : ∀ peerId, ∀ timer ∈ s.manager.recorded peerId, timer ∈ s.manager.intervals → timer ∈ s.started peerId.text

section

variable {env : Env} {s s' : State} {peerId : PeerIdObject}

@[simp] theorem State.started_restart_self (s : State) (p : PeerId) (m : Manager) (timers : List ℕ) :
    (s.restart p m timers).started p = timers :=
  Function.update_self ..

theorem State.started_restart_ne {p q : PeerId} {m : Manager} {timers : List ℕ} (h : q ≠ p) :
    (s.restart p m timers).started q = s.started q :=
  Function.update_of_ne h ..

theorem recorded_init : Recorded State.init where
  lt p timer hmem := by cases hmem
  unique p q timer hmem := by cases hmem
  recorded_lt peerId timer hmem := by cases hmem
  mem peerId timer hmem := by cases hmem

theorem live_init : State.init.Live := by
  intro timer
  constructor
  · intro hmem
    cases hmem
  · rintro ⟨p, hmem⟩
    cases hmem

/-- A stop records nothing new. -/
theorem mem_recorded_stop {m : Manager} {o : PeerIdObject} {timer : ℕ} (h : timer ∈ (m.stop peerId).recorded o) :
    timer ∈ m.recorded o := by
  rw [Manager.stop_eq, Manager.recorded, List.mem_append] at h
  rw [Manager.recorded, List.mem_append]
  refine h.imp ?_ ?_
  · intro hping
    by_cases hp : o.text = peerId.text
    · rw [hp, Map.get_delete_self] at hping
      cases hping
    · rwa [Map.get_delete_ne _ hp] at hping
  · intro hrelay
    by_cases ho : o = peerId
    · rw [ho, Map.get_delete_self] at hrelay
      cases hrelay
    · rwa [Map.get_delete_ne _ ho] at hrelay

/-- What is live after a stop. -/
theorem mem_intervals_stop {m : Manager} {timer : ℕ} :
    timer ∈ (m.stop peerId).intervals ↔ timer ∈ m.intervals ∧ timer ∉ m.recorded peerId := by
  rw [Manager.stop_eq, List.mem_filter, decide_eq_true_eq]

/-- What follows a stop of the peer: the intervals `fresh` are created. -/
structure Restarts (peerId : PeerIdObject) (s : State) (m : Manager) (fresh : List ℕ) : Prop where
  nextId : s.manager.nextId ≤ m.nextId
  bounds : ∀ timer ∈ fresh, s.manager.nextId ≤ timer ∧ timer < m.nextId
  mem : ∀ timer, timer ∈ m.intervals ↔ timer ∈ (s.manager.stop peerId).intervals ∨ timer ∈ fresh
  recorded : ∀ o, ∀ timer ∈ m.recorded o, timer ∈ s.manager.recorded o ∨ (timer ∈ fresh ∧ o.text = peerId.text)

/-- The intervals of the latest starts are the live ones exactly if those of the peer were recorded for the object. -/
theorem Restarts.live_iff_keeps {m : Manager} {fresh : List ℕ} (h : Restarts peerId s m fresh) (hrec : Recorded s)
    (hlive : s.Live) : (s.restart peerId.text m fresh).Live ↔
      ∀ timer ∈ s.started peerId.text, timer ∈ s.manager.recorded peerId := by
  constructor
  · intro hlive' timer hstarted
    by_contra hnot
    have hmem : timer ∈ m.intervals :=
      (h.mem timer).2 (Or.inl (mem_intervals_stop.2 ⟨(hlive timer).2 ⟨_, hstarted⟩, hnot⟩))
    obtain ⟨q, hq⟩ := (hlive' timer).1 hmem
    by_cases hp : q = peerId.text
    · rw [hp, State.started_restart_self] at hq
      have hlt := hrec.lt _ timer hstarted
      have hge := (h.bounds timer hq).1
      omega
    · rw [State.started_restart_ne hp] at hq
      exact hp (hrec.unique q _ timer hq hstarted)
  · intro hrecorded timer
    show timer ∈ m.intervals ↔ _
    rw [h.mem timer, mem_intervals_stop]
    constructor
    · rintro (⟨hmem, hnot⟩ | hfresh)
      · obtain ⟨q, hq⟩ := (hlive timer).1 hmem
        have hp : q ≠ peerId.text := by
          rintro rfl
          exact hnot (hrecorded timer hq)
        exact ⟨q, by rwa [State.started_restart_ne hp]⟩
      · exact ⟨peerId.text, by rwa [State.started_restart_self]⟩
    · rintro ⟨q, hq⟩
      by_cases hp : q = peerId.text
      · rw [hp, State.started_restart_self] at hq
        exact Or.inr hq
      · rw [State.started_restart_ne hp] at hq
        have hmem := (hlive timer).2 ⟨q, hq⟩
        exact Or.inl ⟨hmem, fun hrecd => hp (hrec.unique q _ timer hq (hrec.mem peerId timer hrecd hmem))⟩

/-- Then the records stay right. -/
theorem Restarts.recorded_of {m : Manager} {fresh : List ℕ} (h : Restarts peerId s m fresh) (hrec : Recorded s)
    (hrecorded : ∀ timer ∈ s.started peerId.text, timer ∈ s.manager.recorded peerId) :
    Recorded (s.restart peerId.text m fresh) where
  lt p timer hmem := by
    by_cases hp : p = peerId.text
    · rw [hp, State.started_restart_self] at hmem
      exact (h.bounds timer hmem).2
    · rw [State.started_restart_ne hp] at hmem
      exact (hrec.lt p timer hmem).trans_le h.nextId
  unique p q timer hp hq := by
    -- what was created before is below what is created now
    have hold : ∀ r, r ≠ peerId.text → timer ∈ (s.restart peerId.text m fresh).started r →
        timer ∈ s.started r ∧ timer ∉ fresh := by
      intro r hr hmem
      rw [State.started_restart_ne hr] at hmem
      refine ⟨hmem, ?_⟩
      intro hfresh
      have hlt := hrec.lt r timer hmem
      have hge := (h.bounds timer hfresh).1
      omega
    by_cases hp' : p = peerId.text
    · by_cases hq' : q = peerId.text
      · rw [hp', hq']
      · rw [hp', State.started_restart_self] at hp
        exact absurd hp (hold q hq' hq).2
    · by_cases hq' : q = peerId.text
      · rw [hq', State.started_restart_self] at hq
        exact absurd hq (hold p hp' hp).2
      · exact hrec.unique p q timer (hold p hp' hp).1 (hold q hq' hq).1
  recorded_lt o timer hmem := by
    rcases h.recorded o timer hmem with hmem | ⟨hfresh, -⟩
    · exact (hrec.recorded_lt o timer hmem).trans_le h.nextId
    · exact (h.bounds timer hfresh).2
  mem o timer hmem hlive := by
    rcases h.recorded o timer hmem with hmem | ⟨hfresh, hp⟩
    · have hlt := hrec.recorded_lt o timer hmem
      rcases (h.mem timer).1 hlive with hstopped | hfresh
      · obtain ⟨hold, hnot⟩ := mem_intervals_stop.1 hstopped
        have hstarted := hrec.mem o timer hmem hold
        have hp : o.text ≠ peerId.text := by
          intro hp
          exact hnot (hrecorded timer (hp ▸ hstarted))
        rwa [State.started_restart_ne hp]
      · have hge := (h.bounds timer hfresh).1
        omega
    · rwa [hp, State.started_restart_self]

theorem restarts_stop (s : State) (peerId : PeerIdObject) : Restarts peerId s (s.manager.stop peerId) [] where
  nextId := by rw [Manager.stop_eq]
  bounds timer hmem := by cases hmem
  mem timer := by simp
  recorded o timer hmem := Or.inl (mem_recorded_stop hmem)

theorem restarts_start (env : Env) (mesh : String → List PeerId) (s : State) (peerId : PeerIdObject) :
    Restarts peerId s (s.manager.start env mesh peerId).1
      (created s.manager (s.manager.start env mesh peerId).1) := by
  have hspec := start_spec env mesh s.manager peerId
  have hnext : (s.manager.stop peerId).nextId = s.manager.nextId := by rw [Manager.stop_eq]
  have hcreated : created (s.manager.stop peerId) (s.manager.start env mesh peerId).1 =
      created s.manager (s.manager.start env mesh peerId).1 := by rw [created, hnext, created]
  refine ⟨hnext ▸ hspec.nextId, fun timer hmem => mem_created.1 hmem, hcreated ▸ hspec.mem, ?_⟩
  intro o timer hmem
  rw [← hcreated]
  rw [Manager.recorded, List.mem_append] at hmem
  rcases hmem with hping | hrelay
  · by_cases hp : o.text = peerId.text
    · rw [hp] at hping
      exact Or.inr ⟨hspec.ping timer (Option.mem_toList.1 hping), hp⟩
    · rw [hspec.ping_ne _ hp] at hping
      exact Or.inl (mem_recorded_stop (List.mem_append_left _ hping))
  · by_cases ho : o = peerId
    · subst ho
      cases hget : (s.manager.start env mesh o).1.relayKeepAliveTimers.get o with
      | none =>
        rw [hget] at hrelay
        cases hrelay
      | some timers =>
        rw [hget] at hrelay
        exact Or.inr ⟨hspec.relay timers hget timer hrelay, rfl⟩
    · rw [hspec.relay_ne _ ho] at hrelay
      exact Or.inl (mem_recorded_stop (List.mem_append_right _ hrelay))

/-- A call leaves the intervals of the latest starts live exactly if it stops what is recorded. -/
theorem live_step {e : Event} (hrec : Recorded s) (hlive : s.Live) (h : step env s e = some s') :
    (s'.Live ↔ StopsRecorded s e) ∧ (StopsRecorded s e → Recorded s') := by
  cases e with
  | start peerId mesh =>
    cases h
    have hrestarts := restarts_start env mesh s peerId
    exact ⟨hrestarts.live_iff_keeps hrec hlive, hrestarts.recorded_of hrec⟩
  | stop peerId =>
    cases h
    have hrestarts := restarts_stop s peerId
    exact ⟨hrestarts.live_iff_keeps hrec hlive, hrestarts.recorded_of hrec⟩
  | stopAll =>
    cases h
    refine ⟨?_, ?_⟩
    · simp only [State.Live, Manager.stopAll_eq, StopsRecorded, List.eq_nil_iff_forall_not_mem]
      refine forall_congr' fun timer => ?_
      simp
    · intro _
      refine ⟨?_, ?_, ?_, ?_⟩
      · intro p timer hmem
        cases hmem
      · intro p q timer hmem
        cases hmem
      · intro o timer hmem
        cases hmem
      · intro o timer hmem
        cases hmem

/-! ## Runs -/

/-- **The live intervals match the peers kept alive** in every state of a run if and only if each call stops what is
recorded: a peer is started again and stopped with the object under which its timers are recorded, and `stopAll` finds
nothing live. -/
theorem live_iff (env : Env) (es : List Event) (s : State) (hrun : run (step env) State.init es = some s) :
    (∀ es₁ es₂ t, es = es₁ ++ es₂ → run (step env) State.init es₁ = some t → t.Live) ↔
      Meets (step env) StopsRecorded State.init es :=
  holds_iff_meets (fun _ _ _ hrec hlive hstep => live_step hrec hlive hstep) es recorded_init live_init hrun

end

/-! ## Two runs -/

/-- A ping timer for each peer, and a relay timer for each shard of a peer. -/
def pingAndRelay : Env := { pingKeepAlive := 60, relayKeepAlive := 300, relay := some ["/waku/2/rs/0/1"] }

/-- A peer in the mesh is started twice and stopped, each time with the same object. -/
def stoppedRun : List Event :=
  [.start ⟨"a", 0⟩ fun _ => ["a"], .start ⟨"a", 0⟩ fun _ => ["a"], .stop ⟨"a", 0⟩, .stopAll]

/-- A peer is started, and all are stopped. -/
def stoppedAllRun : List Event := [.start ⟨"a", 0⟩ fun _ => [], .stopAll]

/-- Each start and stop finds the timers of the one before. -/
theorem live_iff_stoppedRun : ∃ s, run (step pingAndRelay) State.init stoppedRun = some s ∧
    (∀ es₁ es₂ t, stoppedRun = es₁ ++ es₂ → run (step pingAndRelay) State.init es₁ = some t → t.Live) ∧
    s.manager.nextId = 4 := by
  have hmeets : Meets (step pingAndRelay) StopsRecorded State.init stoppedRun := by decide
  exact ⟨_, rfl, (live_iff pingAndRelay stoppedRun _ rfl).2 hmeets, by decide⟩

/-- `stopAll` leaves the ping timer running. -/
theorem not_live : ¬∀ (env : Env) (es : List Event) (s : State), run (step env) State.init es = some s → s.Live := by
  intro h
  have hlive := h pingAndRelay stoppedAllRun _ rfl 0
  obtain ⟨p, hmem⟩ := hlive.1 (by decide)
  cases hmem

end JsWaku.KeepAliveManager
