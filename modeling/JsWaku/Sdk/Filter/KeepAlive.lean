import JsWaku.Sdk.Filter.Frame

/-!
# The keep-alive of the filter monitor

The interval of `startKeepAlive` over runs of a subscription in which its monitor is also started and stopped at any
time. There is never more than one interval: the live ones are the one the monitor has recorded (`State.Recorded`).
`onConnectionChange` starts the keep-alive after its `await` whatever has happened since, so that a stopped or offline
monitor is silent whenever no handler runs if and only if the handler that ends last finds it started and not offline
(`silent_iff`).
-/

namespace JsWaku.Filter

open Transition

/-! ## Runs -/

/-- A subscription, and the last connection status since its monitor was started, if there was one. -/
structure Monitored where
  state : State
  lastStatus : Option Bool

/-- A call of `start` or `stop` of the monitor, or any other event of the subscription. -/
inductive MonitorEvent
  | start
  | stop
  | other (e : Event)

/-- What an event makes of the subscription. -/
def monitorStep (env : Env) (s : State) : MonitorEvent → Option State
  | .start => some s.start
  | .stop => some s.stop
  | .other e => step env s e

/-- The last status after an event that takes `s` to `s'`: a start forgets it, and a stopped monitor does not listen. -/
def statusAfter (last : Option Bool) (s s' : State) : MonitorEvent → Option Bool
  | .other (.connectionStatus isConnected) => if s.monitor.isStarted then some isConnected else last
  | _ => if !s.monitor.isStarted && s'.monitor.isStarted then none else last

/-- A step of the subscription, with the last status. -/
def Monitored.step (env : Env) (m : Monitored) (e : MonitorEvent) : Option Monitored :=
  (monitorStep env m.state e).map fun s => ⟨s, statusAfter m.lastStatus m.state s e⟩

/-- A new subscription. -/
def Monitored.init : Monitored := ⟨Filter.init, none⟩

/-- An `onConnectionChange` that has not ended. -/
def Task.isRestarting : Task → Bool
  | restarting _ => true
  | _ => false

/-- How many handlers of the connection status run. -/
def State.handlers (s : State) : ℕ := s.tasks.countP Task.isRestarting

/-- The monitor is stopped, or its last status was offline. -/
def Monitored.MustBeSilent (m : Monitored) : Prop := m.state.monitor.isStarted = false ∨ m.lastStatus = some false

instance (m : Monitored) : Decidable m.MustBeSilent := inferInstanceAs (Decidable (_ ∨ _))

/-- There is at most one interval, and none in a stopped or offline monitor for which no handler runs. -/
def Monitored.Silent (m : Monitored) : Prop :=
  m.state.intervals.length ≤ 1 ∧ (m.state.handlers = 0 → m.MustBeSilent → m.state.intervals = [])

instance (m : Monitored) : Decidable m.Silent := inferInstanceAs (Decidable (_ ∧ _))

/-- The handler for which a request is made. -/
def Waiter.handler : Waiter → Option ℕ
  | call _ => none
  | retry _ handler | ping _ handler => handler

/-- If the request ends the last handler by a rejection, nothing is left in a stopped or offline monitor. -/
def Monitored.RejectsSilent (m : Monitored) (request : Request) (outcome : Except JsError Bool) : Prop :=
  match request.waiter.handler, outcome with
  | some id, .error _ =>
    .restarting id ∈ m.state.tasks → m.state.handlers = 1 → m.MustBeSilent → m.state.intervals = []
  | _, _ => True

instance (m : Monitored) (request : Request) (outcome : Except JsError Bool) :
    Decidable (m.RejectsSilent request outcome) := by
  unfold Monitored.RejectsSilent
  split <;> infer_instance

/-- The handler that ends last finds the monitor started and not offline, or rejects with nothing to be cleared. -/
def EndsOnline (m : Monitored) : MonitorEvent → Prop
  | .other (.restarted _) => m.state.handlers = 1 → ¬m.MustBeSilent
  | .other (.streamFailed request error) => m.RejectsSilent request (State.noStream request.rpc error)
  | .other (.answered request _ outcome) => m.RejectsSilent request outcome
  | _ => True

instance (m : Monitored) : ∀ e : MonitorEvent, Decidable (EndsOnline m e)
  | .start | .stop => isTrue trivial
  | .other e => by
    unfold EndsOnline
    split <;> infer_instance

/-! ## What leaves the keep-alive alone -/

/-- From `s` to `s'` the keep-alive and the handlers of the connection status stay the same. -/
structure Still (s s' : State) : Prop where
  isStarted : s'.monitor.isStarted = s.monitor.isStarted
  keepAliveIntervalId : s'.monitor.keepAliveIntervalId = s.monitor.keepAliveIntervalId
  intervals : s'.intervals = s.intervals
  handlers : s'.handlers = s.handlers

namespace Still

theorem refl (s : State) : Still s s := ⟨rfl, rfl, rfl, rfl⟩

theorem trans {s₁ s₂ s₃ : State} (h : Still s₁ s₂) (h' : Still s₂ s₃) : Still s₁ s₃ where
  isStarted := h'.isStarted.trans h.isStarted
  keepAliveIntervalId := h'.keepAliveIntervalId.trans h.keepAliveIntervalId
  intervals := h'.intervals.trans h.intervals
  handlers := h'.handlers.trans h.handlers

section

variable {env : Env} {s s' : State} {t : Task}

theorem spawn (s : State) (h : t.isRestarting = false) : Still s (s.spawn t) :=
  { refl s with handlers := by simp [State.handlers, State.spawn, List.countP_append, h] }

theorem resume (hs : s.resume t = some s') (h : t.isRestarting = false) : Still s s' := by
  obtain ⟨tasks, htake, rfl⟩ := Option.map_eq_some_iff.1 hs
  refine { refl s with handlers := ?_ }
  have hcount := countP_take htake Task.isRestarting
  rw [h] at hcount
  exact hcount.symm

theorem isFrame : IsFrame Still where
  refl := refl
  trans := trans
  nextId s := { refl s with }
  pingFailedAttempts s _ := { refl s with }
  lockPeerIfNeeded s _ _ := { refl s with }
  requestRenew s _ _ := { refl s with }
  resubscribing s _ := spawn s rfl
  subscribing s _ _ _ := spawn s rfl
  pinging s _ _ _ := spawn s rfl

/-! ## The functions -/

theorem startCall (s : State) (call : Call) : Still s (s.startCall call) :=
  isFrame.startCall fun s' _ _ _ => spawn s' rfl

theorem subscribe (s : State) (decoders : List IDecoder) (callback : Callback) :
    Still s (s.subscribe env decoders callback) := by
  unfold State.subscribe
  split
  · exact refl s
  · exact startCall s _

theorem gotPeers (s : State) (id : ℕ) (call : Call) (peers : List PeerId) (fresh : Bool) :
    Still s (s.gotPeers id call peers fresh) := by
  unfold State.gotPeers
  refine trans ?_ (spawn _ rfl)
  refine trans ?_ (isFrame.foldl (fun s _ => spawn s rfl) peers _)
  cases fresh <;> exact { refl s with }

theorem resubscribe (s : State) (peers : List PeerId) : Still s (s.resubscribe peers) := by
  refine trans ?_ (isFrame.resubscribe s peers)
  exact { refl s with }

theorem processIncomingMessage (s : State) (message : IProtoMessage) :
    Still s (s.processIncomingMessage env message) := by
  have hreceived : ∀ receivedMessages : List String,
      Still s { s with monitor := { s.monitor with receivedMessages } } := fun _ => { refl s with }
  unfold State.processIncomingMessage
  split
  · exact refl s
  · split
    · exact refl s
    · simp only
      split
      · exact hreceived _
      · split
        · exact hreceived _
        · exact (hreceived _).trans (spawn _ rfl)

theorem requestSent (s : State) (request : Request) : Still s (s.requestSent request) := by
  unfold State.requestSent
  split <;> exact { refl s with }

theorem replied (s : State) (request : Request) (outcome : Except JsError Bool) :
    Still s (s.replied request outcome) := by
  unfold State.replied
  split <;> exact { refl s with }

end

end Still

/-! ## What each step does to the keep-alive -/

/-- The live intervals are the one the monitor has recorded. -/
def State.Recorded (s : State) : Prop := s.intervals = s.monitor.keepAliveIntervalId.toList

theorem Still.recorded {s s' : State} (h : Still s s') (hrec : s.Recorded) : s'.Recorded := by
  rw [State.Recorded, h.intervals, h.keepAliveIntervalId]
  exact hrec

/-- From `s` to `s'` nothing happens to the monitor, or it is started or stopped. -/
inductive Toggles (s s' : State) : Prop
  | still (h : Still s s')
  | started (hbefore : s.monitor.isStarted = false) (hafter : s'.monitor.isStarted = true) (hrec : s'.Recorded)
  | stopped (hafter : s'.monitor.isStarted = false) (hnone : s'.intervals = []) (hrec : s'.Recorded)

/-- What an answer of a request does: a rejection ends the handler it was for, if that runs. -/
def Rejects (s s' : State) (request : Request) (outcome : Except JsError Bool) : Prop :=
  match request.waiter.handler, outcome with
  | some id, .error _ =>
    .restarting id ∈ s.tasks ∧ s.handlers = s'.handlers + 1 ∧ s'.intervals = s.intervals ∧
      s'.monitor = s.monitor ∨ .restarting id ∉ s.tasks ∧ Still s s'
  | _, _ => Still s s'

/-- What a step does to the keep-alive, by its event. -/
def KeepAliveSpec (s s' : State) : MonitorEvent → Prop
  | .other (.connectionStatus isConnected) =>
    s.monitor.isStarted = false ∧ s' = s ∨
      s.monitor.isStarted = true ∧ s'.monitor.isStarted = true ∧ s'.Recorded ∧
        if isConnected then s'.handlers ≠ 0 else s'.intervals = []
  | .other (.restarted _) =>
    s.handlers = s'.handlers + 1 ∧ s'.monitor.isStarted = s.monitor.isStarted ∧ s'.Recorded ∧ s'.intervals ≠ []
  | .other (.streamFailed request error) => Rejects s s' request (State.noStream request.rpc error)
  | .other (.answered request _ outcome) => Rejects s s' request outcome
  | _ => Toggles s s'

section

variable {env : Env} {s s' : State}

theorem startKeepAlive_spec (hrec : s.Recorded) :
    s.startKeepAlive.Recorded ∧ s.startKeepAlive.intervals ≠ [] ∧
      s.startKeepAlive.monitor.isStarted = s.monitor.isStarted ∧ s.startKeepAlive.handlers = s.handlers := by
  unfold State.startKeepAlive
  split
  case h_1 id hid =>
    refine ⟨hrec, ?_, rfl, rfl⟩
    rw [hrec, hid]
    exact List.cons_ne_nil id []
  case h_2 hid =>
    refine ⟨?_, List.cons_ne_nil _ _, rfl, rfl⟩
    have hnil : s.intervals = [] := by rw [hrec, hid]; rfl
    simp [State.Recorded, hnil]

theorem stopKeepAlive_spec (hrec : s.Recorded) :
    s.stopKeepAlive.Recorded ∧ s.stopKeepAlive.intervals = [] ∧
      s.stopKeepAlive.monitor.isStarted = s.monitor.isStarted := by
  unfold State.stopKeepAlive
  split
  case h_1 hid => exact ⟨hrec, by rw [hrec, hid]; rfl, rfl⟩
  case h_2 id hid =>
    have hnone : s.intervals.filter (· ≠ id) = [] := by rw [hrec, hid]; simp
    exact ⟨hnone, hnone, rfl⟩

namespace Toggles

theorem start (hrec : s.Recorded) : Toggles s s.start := by
  unfold State.start
  split
  case isTrue => exact .still (Still.refl s)
  case isFalse hstopped =>
    obtain ⟨hrec', -, hstarted, -⟩ :=
      startKeepAlive_spec (s := { s with monitor := { s.monitor with isStarted := true } }) hrec
    exact .started (Bool.not_eq_true _ ▸ hstopped) hstarted hrec'

theorem stop (hrec : s.Recorded) : Toggles s s.stop := by
  unfold State.stop
  split
  case isTrue => exact .still (Still.refl s)
  case isFalse =>
    obtain ⟨hrec', hnone, hstopped⟩ :=
      stopKeepAlive_spec (s := { s with monitor := { s.monitor with isStarted := false } }) hrec
    exact .stopped hstopped hnone hrec'

theorem after {s₀ : State} (h : Still s s₀) (h' : Toggles s₀ s') : Toggles s s' := by
  cases h' with
  | still h' => exact .still (h.trans h')
  | started hbefore hafter hrec => exact .started (h.isStarted ▸ hbefore) hafter hrec
  | stopped hafter hnone hrec => exact .stopped hafter hnone hrec

theorem callSettled (hrec : s.Recorded) (call : Call) : Toggles s (s.callSettled env call) := by
  cases call with
  | subscribe decodersArray callback =>
    have hstill : Still s (s.registerCallbacks env decodersArray callback) := { Still.refl s with }
    exact after hstill (start (hstill.recorded hrec))
  | unsubscribe contentTopics =>
    rw [State.callSettled]
    split
    · exact stop hrec
    · exact .still (Still.refl s)
  | unsubscribeAll =>
    have hstill : Still s { s with subscriptionCallbacks := Map.empty } := { Still.refl s with }
    exact after hstill (stop (hstill.recorded hrec))
  | ping => exact .still (Still.refl s)

end Toggles

/-- Taking up a handler again counts it. -/
theorem handlers_of_take {id : ℕ} {tasks : List Task} (htake : take (.restarting id) s.tasks = some tasks) :
    s.handlers = tasks.countP Task.isRestarting + 1 :=
  countP_take htake Task.isRestarting

/-- An answer for a handler that does not run, or that is no rejection. -/
theorem rejects_answered (s : State) (request : Request) (outcome : Except JsError Bool) :
    Rejects s (s.answered env request outcome) request outcome := by
  have hreject : ∀ (handler : Option ℕ) (error : JsError), handler = request.waiter.handler → outcome = .error error →
      Rejects s (s.rejectHandler handler) request outcome := by
    rintro handler error rfl rfl
    unfold Rejects
    cases request.waiter.handler with
    | none => exact Still.refl s
    | some id =>
      by_cases hmem : Task.restarting id ∈ s.tasks
      · have htake : take (.restarting id) s.tasks = some (s.rejectHandler (some id)).tasks :=
          take_eq_some.2 ⟨hmem, rfl⟩
        exact .inl ⟨hmem, handlers_of_take htake, rfl, rfl⟩
      · refine .inr ⟨hmem, ?_⟩
        rw [State.rejectHandler, List.erase_of_not_mem hmem]
        exact Still.refl s
  obtain ⟨rpc, peerId, waiter⟩ := request
  cases waiter with
  | call id =>
    cases outcome with
    | error e => exact Still.refl s
    | ok success => cases rpc <;> exact { Still.refl s with }
  | retry attempt handler =>
    cases outcome with
    | error e => exact hreject handler e rfl rfl
    | ok success =>
      have hstill : Still s (s.answered env ⟨rpc, peerId, .retry attempt handler⟩ (.ok success)) := by
        cases success
        · exact Still.isFrame.renew s peerId (attempt + 1) handler
        · exact Still.refl s
      cases handler <;> exact hstill
  | ping renewOnFirstFail handler =>
    cases outcome with
    | error e => exact hreject handler e rfl rfl
    | ok success =>
      have hstill : Still s (s.pingAnswered env peerId renewOnFirstFail handler success) :=
        Still.isFrame.pingAnswered s peerId renewOnFirstFail handler success
      cases handler <;> exact hstill

/-- The request was taken out of the pool first. -/
theorem Rejects.after {s₀ s₁ : State} {t : Task} {request : Request} {outcome : Except JsError Bool}
    (hs₀ : s.resume t = some s₀) (ht : t.isRestarting = false) (htasks : s₁.tasks = s₀.tasks)
    (hmonitor : s₁.monitor = s₀.monitor) (hintervals : s₁.intervals = s₀.intervals)
    (h : Rejects s₁ s' request outcome) : Rejects s s' request outcome := by
  have hstill₀ : Still s s₀ := Still.resume hs₀ ht
  have hstill : Still s s₁ := by
    refine hstill₀.trans ⟨?_, ?_, hintervals, ?_⟩
    · rw [hmonitor]
    · rw [hmonitor]
    · rw [State.handlers, htasks, State.handlers]
  obtain ⟨tasks, htake, rfl⟩ := Option.map_eq_some_iff.1 hs₀
  obtain ⟨-, rfl⟩ := take_eq_some.1 htake
  unfold Rejects at h ⊢
  cases hhandler : request.waiter.handler with
  | none =>
    rw [hhandler] at h
    exact hstill.trans h
  | some id =>
    rw [hhandler] at h
    cases outcome with
    | ok success => exact hstill.trans h
    | error error =>
      have hne : Task.restarting id ≠ t := by
        rintro rfl
        cases ht
      have hmem : Task.restarting id ∈ s₁.tasks ↔ Task.restarting id ∈ s.tasks := by
        rw [htasks]
        exact List.mem_erase_of_ne hne
      rcases h with ⟨hin, hcount, hsame, hsameMonitor⟩ | ⟨hout, hrest⟩
      · exact .inl ⟨hmem.1 hin, hstill.handlers ▸ hcount, hsame.trans hintervals, hsameMonitor.trans hmonitor⟩
      · exact .inr ⟨fun hin => hout (hmem.2 hin), hstill.trans hrest⟩

/-- What each step does. -/
theorem keepAlive_spec {e : MonitorEvent} (hrec : s.Recorded) (h : monitorStep env s e = some s') :
    KeepAliveSpec s s' e := by
  cases e with
  | start =>
    cases h
    exact Toggles.start hrec
  | stop =>
    cases h
    exact Toggles.stop hrec
  | other e =>
    change step env s e = some s' at h
    cases e with
    | connectionOpened peerId =>
      cases h
      exact .still { Still.refl s with }
    | connectionClosed conn =>
      rw [step] at h
      split at h
      · simp only at h
        split at h <;> cases h <;> exact .still { Still.refl s with }
      · cases h
    | peerConnected peerId =>
      cases h
      exact .still (Still.isFrame.onPeerConnected s peerId)
    | peerDisconnected peerId =>
      cases h
      exact .still (Still.isFrame.onPeerDisconnected s peerId)
    | connectionStatus isConnected =>
      cases h
      unfold State.onConnectionChange
      by_cases hstarted : s.monitor.isStarted
      · refine .inr ?_
        rw [hstarted]
        cases isConnected with
        | false =>
          obtain ⟨hrec', hnone, hsame⟩ := stopKeepAlive_spec hrec
          exact ⟨rfl, hsame.trans hstarted, hrec', hnone⟩
        | true =>
          -- the handler is suspended, then its pings
          have hstill := Still.isFrame.foldl (f := fun s' peer => s'.ping peer true (some s.nextId))
            (fun s' _ => Still.isFrame.ping s' _ _ _) s.monitor.peerIds
            { s with nextId := s.nextId + 1, tasks := s.tasks ++ [.restarting s.nextId] }
          have hcount : State.handlers _ = s.handlers + 1 := hstill.handlers.trans List.countP_append
          exact ⟨rfl, hstill.isStarted.trans hstarted, hstill.recorded hrec,
            fun hzero => Nat.succ_ne_zero _ (hcount.symm.trans hzero)⟩
      · refine .inl ⟨Bool.not_eq_true _ ▸ hstarted, ?_⟩
        simp [hstarted]
    | intervalFired id =>
      rw [step] at h
      split at h
      · cases h
        exact .still (Still.isFrame.intervalFired s)
      · cases h
    | subscribe decoders callback =>
      cases h
      exact .still (Still.subscribe s decoders callback)
    | called call => cases call <;> cases h <;> exact .still (Still.startCall s _)
    | gotPeers id call peers fresh =>
      obtain ⟨s₀, hs₀, rfl⟩ := Option.map_eq_some_iff.1 h
      exact .still ((Still.resume hs₀ rfl).trans (Still.gotPeers s₀ id call peers fresh))
    | resubscribed peers =>
      obtain ⟨s₀, hs₀, rfl⟩ := Option.map_eq_some_iff.1 h
      exact .still ((Still.resume hs₀ rfl).trans (Still.resubscribe s₀ peers))
    | streamOpened request conn =>
      rw [step] at h
      split at h
      · obtain ⟨s₀, hs₀, rfl⟩ := Option.map_eq_some_iff.1 h
        have hsent := (Still.requestSent s₀ request).trans (Still.spawn (t := .exchanging request conn.id) _ rfl)
        exact .still ((Still.resume hs₀ rfl).trans hsent)
      · cases h
    | streamFailed request error =>
      obtain ⟨s₀, hs₀, rfl⟩ := Option.map_eq_some_iff.1 h
      exact Rejects.after hs₀ rfl rfl rfl rfl (rejects_answered s₀ request _)
    | answered request connection outcome =>
      rw [step] at h
      split at h
      · obtain ⟨s₀, hs₀, rfl⟩ := Option.map_eq_some_iff.1 h
        have hreplied : (s₀.replied request outcome).tasks = s₀.tasks ∧
            (s₀.replied request outcome).monitor = s₀.monitor ∧
            (s₀.replied request outcome).intervals = s₀.intervals := by
          unfold State.replied
          split <;> exact ⟨rfl, rfl, rfl⟩
        exact Rejects.after hs₀ rfl hreplied.1 hreplied.2.1 hreplied.2.2 (rejects_answered _ request outcome)
      · cases h
    | settled id call =>
      rw [step] at h
      split at h
      · cases h
      · obtain ⟨s₀, hs₀, rfl⟩ := Option.map_eq_some_iff.1 h
        have hstill := Still.resume hs₀ rfl
        exact Toggles.after hstill (Toggles.callSettled (hstill.recorded hrec) call)
    | restarted id =>
      rw [step] at h
      split at h
      · cases h
      · obtain ⟨s₀, hs₀, rfl⟩ := Option.map_eq_some_iff.1 h
        obtain ⟨tasks, htake, rfl⟩ := Option.map_eq_some_iff.1 hs₀
        obtain ⟨hrec', hsome, hstarted, hhandlers⟩ := startKeepAlive_spec (s := { s with tasks }) hrec
        exact ⟨hhandlers ▸ handlers_of_take htake, hstarted, hrec', hsome⟩
    | pushed p m =>
      cases h
      exact .still (Still.processIncomingMessage s m)
    | decoded subscriptionCallback m =>
      rw [step] at h
      split at h
      · obtain ⟨s₀, hs₀, rfl⟩ := Option.map_eq_some_iff.1 h
        exact .still ((Still.resume hs₀ rfl).trans { Still.refl s₀ with })
      · cases h
    | notDecoded subscriptionCallback m =>
      rw [step] at h
      split at h
      · cases h
      · exact .still (Still.resume h rfl)

end

/-! ## Runs -/

namespace Monitored

variable {env : Env} {m : Monitored} {s' : State}

theorem length_intervals_le {s : State} (h : s.Recorded) : s.intervals.length ≤ 1 := by
  rw [h]
  cases s.monitor.keepAliveIntervalId <;> simp

/-- Where nothing or a start or stop happens, the monitor stays silent. -/
theorem silent_toggles (hsilent : m.Silent) (hrec : m.state.Recorded) (h : Toggles m.state s') :
    let last := if !m.state.monitor.isStarted && s'.monitor.isStarted then none else m.lastStatus
    (⟨s', last⟩ : Monitored).Silent ∧ s'.Recorded := by
  cases h with
  | still h =>
    have hlast : (if !m.state.monitor.isStarted && s'.monitor.isStarted then none else m.lastStatus) = m.lastStatus := by
      rw [h.isStarted]
      simp
    refine ⟨⟨length_intervals_le (h.recorded hrec), ?_⟩, h.recorded hrec⟩
    rw [hlast, MustBeSilent, h.isStarted, h.handlers, h.intervals]
    exact hsilent.2
  | started hbefore hafter hrec' =>
    refine ⟨⟨length_intervals_le hrec', fun _ hmust => ?_⟩, hrec'⟩
    simp [MustBeSilent, hbefore, hafter] at hmust
  | stopped hafter hnone hrec' => exact ⟨⟨length_intervals_le hrec', fun _ _ => hnone⟩, hrec'⟩

/-- Where a request for a handler is answered, the monitor stays silent exactly if a rejection leaves it so. -/
theorem silent_rejects {request : Request} {outcome : Except JsError Bool} (hsilent : m.Silent)
    (hrec : m.state.Recorded) (h : Rejects m.state s' request outcome) :
    let last := if !m.state.monitor.isStarted && s'.monitor.isStarted then none else m.lastStatus
    ((⟨s', last⟩ : Monitored).Silent ↔ m.RejectsSilent request outcome) ∧ s'.Recorded := by
  unfold Rejects at h
  unfold RejectsSilent
  cases hhandler : request.waiter.handler with
  | none =>
    rw [hhandler] at h
    obtain ⟨hthen, hrec'⟩ := silent_toggles hsilent hrec (.still h)
    exact ⟨iff_of_true hthen trivial, hrec'⟩
  | some id =>
    rw [hhandler] at h
    cases outcome with
    | ok success =>
      obtain ⟨hthen, hrec'⟩ := silent_toggles hsilent hrec (.still h)
      exact ⟨iff_of_true hthen trivial, hrec'⟩
    | error error =>
      rcases h with ⟨hmem, hcount, hintervals, hmonitor⟩ | ⟨hmem, h⟩
      · have hrec' : s'.Recorded := by rw [State.Recorded, hintervals, hmonitor]; exact hrec
        refine ⟨?_, hrec'⟩
        have hzero : s'.handlers = 0 ↔ m.state.handlers = 1 := by omega
        simp only [Silent, MustBeSilent, hmonitor, hintervals, hzero, hmem, length_intervals_le hrec]
        simp
      · obtain ⟨hthen, hrec'⟩ := silent_toggles hsilent hrec (.still h)
        exact ⟨iff_of_true hthen fun hin => absurd hin hmem, hrec'⟩

/-- A step keeps the monitor silent exactly if the handler that ends last finds it started and not offline. -/
theorem silent_step (m : Monitored) (e : MonitorEvent) (m' : Monitored) (hrec : m.state.Recorded) (hsilent : m.Silent)
    (h : m.step env e = some m') : (m'.Silent ↔ EndsOnline m e) ∧ m'.state.Recorded := by
  obtain ⟨s', hs', rfl⟩ := Option.map_eq_some_iff.1 h
  have hspec := keepAlive_spec hrec hs'
  have htoggles : Toggles m.state s' → statusAfter m.lastStatus m.state s' e =
      (if !m.state.monitor.isStarted && s'.monitor.isStarted then none else m.lastStatus) → EndsOnline m e →
      ((⟨s', statusAfter m.lastStatus m.state s' e⟩ : Monitored).Silent ↔ EndsOnline m e) ∧ s'.Recorded := by
    intro htoggles hlast hcond
    obtain ⟨hthen, hrec'⟩ := silent_toggles hsilent hrec htoggles
    rw [hlast]
    exact ⟨iff_of_true hthen hcond, hrec'⟩
  cases e with
  | start => exact htoggles hspec rfl trivial
  | stop => exact htoggles hspec rfl trivial
  | other e =>
    cases e with
    | connectionStatus isConnected =>
      rcases hspec with ⟨hstopped, rfl⟩ | ⟨hstarted, hstarted', hrec', hstatus⟩
      · refine htoggles (.still (Still.refl _)) ?_ trivial
        simp [statusAfter, hstopped]
      · refine ⟨iff_of_true ⟨length_intervals_le hrec', fun hzero _ => ?_⟩ trivial, hrec'⟩
        cases isConnected with
        | true => exact absurd hzero hstatus
        | false => exact hstatus
    | restarted id =>
      obtain ⟨hcount, hstarted, hrec', hsome⟩ := hspec
      refine ⟨?_, hrec'⟩
      have hzero : s'.handlers = 0 ↔ m.state.handlers = 1 := by omega
      have hlast : statusAfter m.lastStatus m.state s' (.other (.restarted id)) = m.lastStatus := by
        simp [statusAfter, hstarted]
      simp only [Silent, MustBeSilent, EndsOnline, hlast, hstarted, hzero, hsome, length_intervals_le hrec']
      simp
    | streamFailed request error => exact silent_rejects hsilent hrec hspec
    | answered request connection outcome => exact silent_rejects hsilent hrec hspec
    | connectionOpened => exact htoggles hspec rfl trivial
    | connectionClosed => exact htoggles hspec rfl trivial
    | peerConnected => exact htoggles hspec rfl trivial
    | peerDisconnected => exact htoggles hspec rfl trivial
    | intervalFired => exact htoggles hspec rfl trivial
    | subscribe => exact htoggles hspec rfl trivial
    | called => exact htoggles hspec rfl trivial
    | gotPeers => exact htoggles hspec rfl trivial
    | resubscribed => exact htoggles hspec rfl trivial
    | streamOpened => exact htoggles hspec rfl trivial
    | settled => exact htoggles hspec rfl trivial
    | pushed => exact htoggles hspec rfl trivial
    | decoded => exact htoggles hspec rfl trivial
    | notDecoded => exact htoggles hspec rfl trivial

end Monitored

/-- **In every state of a run there is at most one keep-alive interval, and none in a stopped or offline monitor for which
no handler runs, if and only if every handler that ends last finds the monitor started and not offline, or rejects with
nothing to be cleared.** -/
theorem silent_iff (env : Env) (es : List MonitorEvent) {m : Monitored}
    (hrun : run (Monitored.step env) Monitored.init es = some m) :
    (∀ es₁ es₂ u, es = es₁ ++ es₂ → run (Monitored.step env) Monitored.init es₁ = some u → u.Silent) ↔
      Meets (Monitored.step env) EndsOnline Monitored.init es := by
  refine holds_iff_meets (K := fun m => m.state.Recorded) (fun m e m' hrec hsilent h => ?_) es rfl ?_ hrun
  · obtain ⟨hiff, hrec'⟩ := Monitored.silent_step m e m' hrec hsilent h
    exact ⟨hiff, fun _ => hrec'⟩
  · exact ⟨Nat.zero_le _, fun _ _ => rfl⟩

/-- Started, online and offline again, with a handler in between. -/
def offlineAgain : List MonitorEvent :=
  [.start, .other (.connectionStatus true), .other (.restarted 1), .other (.connectionStatus false), .stop]

theorem silent_iff_offlineAgain : ∃ m, run (Monitored.step sampleEnv) Monitored.init offlineAgain = some m ∧
    ∀ es₁ es₂ u, offlineAgain = es₁ ++ es₂ → run (Monitored.step sampleEnv) Monitored.init es₁ = some u → u.Silent :=
  ⟨_, rfl, (silent_iff sampleEnv offlineAgain rfl).2 (by decide)⟩

/-- Stopped while a handler runs. -/
def stoppedInBetween : List MonitorEvent :=
  [.start, .other (.connectionStatus true), .stop, .other (.restarted 1)]

/-- The handler starts the keep-alive of a stopped monitor. -/
theorem not_silent :
    ∃ m, run (Monitored.step sampleEnv) Monitored.init stoppedInBetween = some m ∧ m.state.handlers = 0 ∧
      m.state.monitor.isStarted = false ∧ m.state.intervals = [2] ∧ ¬m.Silent :=
  ⟨_, rfl, rfl, rfl, rfl, fun h => absurd (h.2 rfl (.inl rfl)) (List.cons_ne_nil _ _)⟩

end JsWaku.Filter
