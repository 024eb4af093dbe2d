import JsWaku.Sdk.Filter.Calls

/-!
# Unsubscribing

`unsubscribe` deletes the callbacks of its topics in the continuation of each peer's request. A call is followed from its
start (`Progress`): before the first of its requests is settled all callbacks are there, and afterwards those of the
topics are gone. Without a peer none is deleted, although the call resolves (`unsubscribe_removes_iff`).

`FilterCore.unsubscribe` resolves whatever the peer does (`RequestMethods.reported_unsubscribe`).
-/

namespace JsWaku.Filter

open Transition

/-! ## What the call promises -/

/-- The callbacks of the topics are gone, and the others are as they were. -/
def Removed (contentTopics : List String) (before after : Map String SubscriptionCallback) : Prop :=
  ∀ topic, after.get topic = if topic ∈ contentTopics then none else before.get topic

/-- The task takes a message of the topic to a callback, or asks a peer for the topic again. -/
def Task.IsAbout (topic : String) : Task → Prop
  | opening ⟨.subscribe contentTopics, _, .retry _ _⟩ => topic ∈ contentTopics
  | pushing _ message => message.contentTopic = topic
  | _ => False

/-- A `subscribe` call registers a callback for the topic. -/
def Event.Registers (topic : String) : Event → Prop
  | .settled _ (.subscribe decodersArray _) => ∃ decoder ∈ decodersArray, decoder.contentTopic = topic
  | _ => False

/-- What `unsubscribe` promises of the state `t` where it resolves, when it was called in `s`. -/
structure Removes (env : Env) (contentTopics : List String) (s t : State) : Prop where
  removed : ∀ topic ∈ contentTopics, t.subscriptionCallbacks.get topic = none
  kept : ∀ topic ∉ contentTopics, t.subscriptionCallbacks.get topic = s.subscriptionCallbacks.get topic
  stopped : t.subscriptionCallbacks.entries = [] → t.monitor.isStarted = false
  /-- Until a callback is registered for the topic again, no step takes up a message of the topic or asks for it. -/
  later : ∀ topic ∈ contentTopics, ∀ (es : List Event) (e : Event) (v v' : State),
    (∀ e' ∈ es ++ [e], ¬e'.Registers topic) → run (step env) t es = some v → step env v e = some v' →
      ∀ task : Task, v.tasks.count task < v'.tasks.count task → ¬task.IsAbout topic

/-- `SubscriptionMonitor.getPeers`. -/
def State.monitorPeers (s : State) : List PeerId :=
  if s.monitor.isStarted then s.monitor.peerIds else PeerManager.getPeers s.connections

/-- Until the call is settled no other call changes the callbacks, and `FilterCore.unsubscribe` resolves. -/
def Alone (id : ℕ) : Event → Prop
  | .settled _ (.subscribe _ _) | .settled _ .unsubscribeAll => False
  | .streamFailed ⟨.unsubscribe _, _, waiter⟩ _ => waiter = .call id
  | .answered ⟨.unsubscribe _, _, waiter⟩ _ outcome => waiter = .call id ∧ ∃ success, outcome = .ok success
  | _ => True

/-! ## The call in progress -/

/-- How far a call is, by its tasks and the callbacks. -/
inductive Progress (contentTopics : List String) (peers : List PeerId) (before : Map String SubscriptionCallback) :
    Multiset Role → Map String SubscriptionCallback → Prop
  | start (fresh : Bool) :
    Progress contentTopics peers before {.start (.unsubscribe contentTopics) peers fresh} before
  /-- `n` requests are not settled. -/
  | settling {n : ℕ} {callbacks : Map String SubscriptionCallback} (hn : n ≤ peers.length)
      (hnone : n = peers.length → callbacks = before)
      (hsome : n < peers.length → Removed contentTopics before callbacks) :
    Progress contentTopics peers before
      (.settling (.unsubscribe contentTopics) ::ₘ Multiset.replicate n (.request (.unsubscribe contentTopics))) callbacks
  | done (callbacks : Map String SubscriptionCallback) : Progress contentTopics peers before 0 callbacks

section

variable {env : Env} {s s' : State} {e : Event} {id : ℕ} {contentTopics : List String} {peers : List PeerId}
  {before : Map String SubscriptionCallback}

theorem removed_foldl_delete {callbacks : Map String SubscriptionCallback}
    (h : callbacks = before ∨ Removed contentTopics before callbacks) :
    Removed contentTopics before (contentTopics.foldl Map.delete callbacks) := by
  intro topic
  rw [Map.get_foldl_delete]
  by_cases htopic : topic ∈ contentTopics
  · rw [if_pos htopic, if_pos htopic]
  · rw [if_neg htopic, if_neg htopic]
    rcases h with rfl | hremoved
    · rfl
    · rw [hremoved topic, if_neg htopic]

/-- Other events leave the callbacks. -/
theorem callbacksAfter_of_alone (halone : Alone id e) (hconcerns : ¬e.concerns id) :
    s.callbacksAfter env e = s.subscriptionCallbacks := by
  cases e with
  | streamFailed request error =>
    obtain ⟨rpc, peerId, waiter⟩ := request
    cases rpc with
    | unsubscribe topics => exact absurd halone hconcerns
    | _ => cases waiter <;> rfl
  | answered request connection outcome =>
    obtain ⟨rpc, peerId, waiter⟩ := request
    cases rpc with
    | unsubscribe topics => exact absurd halone.1 hconcerns
    | _ => cases waiter <;> cases outcome <;> rfl
  | settled id' call =>
    cases call with
    | subscribe | unsubscribeAll => exact absurd halone not_false
    | unsubscribe | ping => rfl
  | _ => rfl

/-- A call with peers sends its requests. -/
theorem roles_gotPeers (s : State) (call : Call) (peers : List PeerId) (fresh : Bool) :
    (s.gotPeers id call peers fresh).roles id =
      s.roles id + (.settling call ::ₘ Multiset.replicate peers.length (.request (State.rpcOf call))) := by
  have hsent : ∀ (peers : List PeerId) (s : State),
      (peers.foldl (fun s peer => s.spawn (.opening ⟨State.rpcOf call, peer, .call id⟩)) s).roles id =
        s.roles id + Multiset.replicate peers.length (.request (State.rpcOf call)) := by
    intro peers
    induction peers with
    | nil => exact fun s => (Multiset.add_zero _).symm
    | cons peer peers ih =>
      intro s
      have hrole : (Task.opening ⟨State.rpcOf call, peer, .call id⟩).role id = some (.request (State.rpcOf call)) :=
        if_pos rfl
      rw [List.foldl_cons, ih, roles_spawn, hrole, add_assoc]
      rfl
  have hrole : (Task.settling id call).role id = some (.settling call) := if_pos rfl
  rw [State.gotPeers, roles_spawn, hsent, hrole, add_assoc, add_comm (Multiset.replicate _ _)]
  cases fresh <;> rfl

/-- While a request of the call is not settled, the call is not. -/
theorem request_not_mem (h : s.tasks.any (Task.awaits (Waiter.isOf id)) = false) (rpc : Rpc) :
    Role.request rpc ∉ s.roles id := by
  intro hmem
  obtain ⟨t, ht, hrole⟩ := List.mem_filterMap.1 (Multiset.mem_coe.1 hmem)
  have hawaits := List.any_eq_false.1 h t ht
  cases t with
  | opening request | exchanging request =>
    rw [Task.role] at hrole
    split at hrole
    next hwaiter => exact hawaits (by simp [Task.awaits, hwaiter, Waiter.isOf])
    next => cases hrole
  | gettingPeers | settling =>
    rw [Task.role] at hrole
    split at hrole <;> cases hrole
  | _ => cases hrole

/-- A task of the call is taken up. -/
theorem roles_eq_cons {t : Task} {r : Role} (h : s.resume t = some s') (hrole : t.role id = some r) :
    s.roles id = r ::ₘ s'.roles id := by
  rw [roles_resume h, hrole, add_comm]
  rfl

namespace Progress

variable {roles : Multiset Role} {callbacks : Map String SubscriptionCallback}

/-- A call that waits for its peers has nothing else in progress. -/
theorem of_start {call : Call} {peers' : List PeerId} {fresh : Bool}
    (h : Progress contentTopics peers before (.start call peers' fresh ::ₘ roles) callbacks) :
    call = .unsubscribe contentTopics ∧ peers' = peers ∧ roles = 0 ∧ callbacks = before := by
  generalize hroles : Role.start call peers' fresh ::ₘ roles = all at h
  cases h with
  | start fresh' =>
    obtain ⟨hrole, rfl⟩ | ⟨-, rest, -, hnil⟩ := Multiset.cons_eq_cons.1 (hroles.trans (Multiset.cons_zero _).symm)
    · cases hrole
      exact ⟨rfl, rfl, rfl, rfl⟩
    · exact absurd hnil.symm (Multiset.cons_ne_zero)
  | settling =>
    have hmem : Role.start call peers' fresh ∈ Role.start call peers' fresh ::ₘ roles := Multiset.mem_cons_self _ _
    rw [hroles, Multiset.mem_cons, Multiset.mem_replicate] at hmem
    obtain hmem | ⟨-, hmem⟩ := hmem <;> cases hmem
  | done => exact absurd hroles Multiset.cons_ne_zero

/-- A call that has a request in progress is settling. -/
theorem of_request {rpc : Rpc} (h : Progress contentTopics peers before (.request rpc ::ₘ roles) callbacks) :
    rpc = .unsubscribe contentTopics ∧ (callbacks = before ∨ Removed contentTopics before callbacks) ∧
      ∃ n < peers.length, roles = .settling (.unsubscribe contentTopics) ::ₘ
        Multiset.replicate n (.request (.unsubscribe contentTopics)) := by
  generalize hroles : Role.request rpc ::ₘ roles = all at h
  cases h with
  | start fresh' =>
    have hmem : Role.request rpc ∈ Role.request rpc ::ₘ roles := Multiset.mem_cons_self _ _
    rw [hroles, Multiset.mem_singleton] at hmem
    cases hmem
  | @settling n _ hn hnone hsome =>
    obtain ⟨hrole, -⟩ | ⟨-, rest, rfl, hrest⟩ := Multiset.cons_eq_cons.1 hroles
    · cases hrole
    · have hmem : Role.request rpc ∈ Multiset.replicate n (Role.request (.unsubscribe contentTopics)) := by
        rw [hrest]
        exact Multiset.mem_cons_self _ _
      obtain ⟨hne, hrpc⟩ := Multiset.mem_replicate.1 hmem
      cases hrpc
      obtain ⟨m, rfl⟩ := Nat.exists_eq_succ_of_ne_zero hne
      rw [Multiset.replicate_succ, Multiset.cons_inj_right] at hrest
      refine ⟨rfl, ?_, m, hn, by rw [hrest]⟩
      rcases hn.eq_or_lt with heq | hlt
      · exact .inl (hnone heq)
      · exact .inr (hsome hlt)
  | done => exact absurd hroles Multiset.cons_ne_zero

/-- A call at `Promise.allSettled`. -/
theorem of_settling {call : Call} (h : Progress contentTopics peers before (.settling call ::ₘ roles) callbacks) :
    call = .unsubscribe contentTopics ∧
      ∃ n ≤ peers.length, roles = Multiset.replicate n (.request (.unsubscribe contentTopics)) ∧
        (n = peers.length → callbacks = before) ∧ (n < peers.length → Removed contentTopics before callbacks) := by
  generalize hroles : Role.settling call ::ₘ roles = all at h
  cases h with
  | start fresh' =>
    have hmem : Role.settling call ∈ Role.settling call ::ₘ roles := Multiset.mem_cons_self _ _
    rw [hroles, Multiset.mem_singleton] at hmem
    cases hmem
  | @settling n _ hn hnone hsome =>
    obtain ⟨hrole, hrest⟩ | ⟨-, rest, -, hrest⟩ := Multiset.cons_eq_cons.1 hroles
    · cases hrole
      exact ⟨rfl, n, hn, hrest, hnone, hsome⟩
    · have hmem : Role.settling call ∈ Multiset.replicate n (Role.request (.unsubscribe contentTopics)) := by
        rw [hrest]
        exact Multiset.mem_cons_self _ _
      cases (Multiset.mem_replicate.1 hmem).2
  | done => exact absurd hroles Multiset.cons_ne_zero

/-- After a request that resolves, one is settled and the callbacks are gone. -/
theorem of_resolved {rpc : Rpc} (h : Progress contentTopics peers before (.request rpc ::ₘ roles) callbacks)
    (peerId : PeerId) (id : ℕ) (success : Bool) :
    Progress contentTopics peers before roles (forget ⟨rpc, peerId, .call id⟩ (.ok success) callbacks) := by
  obtain ⟨rfl, hcallbacks, n, hn, rfl⟩ := of_request h
  exact .settling hn.le (fun heq => absurd heq hn.ne) fun _ => removed_foldl_delete hcallbacks

end Progress

/-- Where the call is settled, so are its requests: with a peer the callbacks are gone, without one all are there. -/
theorem progress_settled {call : Call} (h : step env s (.settled id call) = some s')
    (hprogress : Progress contentTopics peers before (s.roles id) s.subscriptionCallbacks) :
    call = .unsubscribe contentTopics ∧ s'.roles id = 0 ∧
      (peers = [] → s.subscriptionCallbacks = before) ∧
        (peers ≠ [] → Removed contentTopics before s.subscriptionCallbacks) := by
  obtain ⟨hnone, s₀, hs₀, -, haside⟩ := aside_settled id h
  have hroles := roles_eq_cons hs₀ (if_pos rfl)
  rw [hroles] at hprogress
  obtain ⟨rfl, n, hn, hrest, hbefore, hremoved⟩ := hprogress.of_settling
  have hzero : n = 0 := by
    by_contra hne
    refine request_not_mem hnone (.unsubscribe contentTopics) ?_
    rw [hroles, hrest, Multiset.mem_cons, Multiset.mem_replicate]
    exact .inr ⟨hne, rfl⟩
  subst hzero
  refine ⟨rfl, haside.roles.trans hrest, fun hnil => hbefore (by rw [hnil]; rfl), fun hne => ?_⟩
  exact hremoved (List.length_pos_iff.2 hne)

/-- A step of a run in which the call is alone. -/
theorem progress_step (hid : id < s.nextId) (halone : Alone id e) (h : step env s e = some s')
    (hprogress : Progress contentTopics peers before (s.roles id) s.subscriptionCallbacks) :
    Progress contentTopics peers before (s'.roles id) s'.subscriptionCallbacks := by
  by_cases hconcerns : e.concerns id
  · cases e with
    | gotPeers id' call peers' fresh =>
      cases hconcerns
      obtain ⟨s₀, hs₀, rfl⟩ := Option.map_eq_some_iff.1 h
      rw [roles_eq_cons hs₀ (if_pos rfl)] at hprogress
      obtain ⟨rfl, rfl, hroles, hcallbacks⟩ := hprogress.of_start
      rw [(callbacks_step h).1, roles_gotPeers, hroles, zero_add]
      exact .settling le_rfl (fun _ => hcallbacks) fun hlt => absurd hlt (lt_irrefl _)
    | streamFailed request error =>
      obtain ⟨rpc, peerId, waiter⟩ := request
      cases hconcerns
      obtain ⟨s₀, hs₀, haside⟩ := aside_streamFailed id h
      rw [roles_eq_cons hs₀ (if_pos rfl)] at hprogress
      rw [haside.roles, haside.callbacks]
      obtain ⟨rfl, -⟩ := hprogress.of_request
      exact hprogress.of_resolved peerId id false
    | answered request connection outcome =>
      obtain ⟨rpc, peerId, waiter⟩ := request
      cases hconcerns
      obtain ⟨s₀, hs₀, haside⟩ := aside_answered id h
      rw [roles_eq_cons hs₀ (if_pos rfl)] at hprogress
      rw [haside.roles, haside.callbacks]
      obtain ⟨rfl, -⟩ := hprogress.of_request
      obtain ⟨-, success, rfl⟩ := halone
      exact hprogress.of_resolved peerId id success
    | settled id' call =>
      cases hconcerns
      rw [(progress_settled h hprogress).2.1]
      exact .done _
    | _ => exact absurd hconcerns not_false
  · have haside := aside_step h hconcerns (.inl hid)
    rw [haside.roles, haside.callbacks]
    exact (callbacksAfter_of_alone halone hconcerns).symm ▸ hprogress

/-! ## Afterwards -/

/-- A task that heeds the callbacks is not about a topic without one. -/
theorem not_isAbout {callbacks : Map String SubscriptionCallback} {topic : String} {t : Task} (hheeds : t.Heeds callbacks)
    (hnone : callbacks.get topic = none) : ¬t.IsAbout topic := by
  intro habout
  cases t with
  | opening request =>
    obtain ⟨rpc, peerId, waiter⟩ := request
    cases rpc with
    | subscribe contentTopics =>
      cases waiter with
      | retry attempt handler =>
        have hmem : topic ∈ callbacks.keys := hheeds ▸ habout
        exact Map.mem_keys_iff.1 hmem hnone
      | _ => exact habout
    | _ => exact habout
  | pushing subscriptionCallback message =>
    cases habout
    cases hheeds.symm.trans hnone
  | _ => exact habout

/-- Decoders of other topics do not make an entry for the topic. -/
theorem get_groupByContentTopic {decoders : List IDecoder} {topic : String}
    (h : ∀ decoder ∈ decoders, decoder.contentTopic ≠ topic) : (groupByContentTopic decoders).get topic = none := by
  have hfold : ∀ (decoders : List IDecoder) (grouped : Map String (List IDecoder)),
      (∀ decoder ∈ decoders, decoder.contentTopic ≠ topic) → grouped.get topic = none →
        (decoders.foldl (fun grouped dec =>
          grouped.set dec.contentTopic ((grouped.get dec.contentTopic).getD [] ++ [dec])) grouped).get topic = none := by
    intro decoders
    induction decoders with
    | nil => exact fun _ _ hnone => hnone
    | cons dec rest ih =>
      intro grouped hne hnone
      obtain ⟨hdec, hrest⟩ := List.forall_mem_cons.1 hne
      exact ih _ hrest (by rw [Map.get_set_ne _ _ hdec.symm, hnone])
  exact hfold decoders Map.empty h rfl

/-- Callbacks are registered for the topics of the decoders only. -/
theorem get_registerCallbacks (s : State) {decodersArray : List IDecoder} (callback : Callback) {topic : String}
    (h : ∀ decoder ∈ decodersArray, decoder.contentTopic ≠ topic) :
    (s.registerCallbacks env decodersArray callback).subscriptionCallbacks.get topic =
      s.subscriptionCallbacks.get topic := by
  have hfold : ∀ (entries : List (String × List IDecoder)) (callbacks : Map String SubscriptionCallback),
      (∀ entry ∈ entries, entry.1 ≠ topic) →
        (entries.foldl (fun callbacks entry =>
          if entry.1 = env.reservedContentTopic then callbacks
          else callbacks.set entry.1 ⟨entry.2, callback⟩) callbacks).get topic = callbacks.get topic := by
    intro entries
    induction entries with
    | nil => exact fun _ _ => rfl
    | cons entry rest ih =>
      intro callbacks hne
      obtain ⟨hentry, hrest⟩ := List.forall_mem_cons.1 hne
      rw [List.foldl_cons, ih _ hrest]
      split
      · rfl
      · exact Map.get_set_ne _ _ hentry.symm
  refine hfold _ _ fun entry hentry heq => ?_
  have hget := Map.mem_entries_iff.1 hentry
  rw [heq, get_groupByContentTopic h] at hget
  cases hget

/-- A topic without a callback gets one only where one is registered for it. -/
theorem get_callbacksAfter {topic : String} (hregisters : ¬e.Registers topic)
    (hnone : s.subscriptionCallbacks.get topic = none) : (s.callbacksAfter env e).get topic = none := by
  have hforget : ∀ (request : Request) (outcome : Except JsError Bool),
      (forget request outcome s.subscriptionCallbacks).get topic = none := by
    intro request outcome
    unfold forget
    split
    · rw [Map.get_foldl_delete, hnone, ite_self]
    · exact hnone
  cases e with
  | streamFailed request error => exact hforget _ _
  | answered request connection outcome => exact hforget _ _
  | settled id call =>
    cases call with
    | subscribe decodersArray callback =>
      refine (get_registerCallbacks s callback fun decoder hdecoder htopic => ?_).trans hnone
      exact hregisters ⟨decoder, hdecoder, htopic⟩
    | unsubscribeAll => rfl
    | _ => exact hnone
  | _ => exact hnone

/-- A topic without a callback stays without one, and no step takes up a message of it or asks for it. -/
theorem not_isAbout_of_run {es : List Event} {t v v' : State} {topic : String}
    (hnone : t.subscriptionCallbacks.get topic = none) (hregisters : ∀ e' ∈ es ++ [e], ¬e'.Registers topic)
    (hrun : run (step env) t es = some v) (h : step env v e = some v') (task : Task)
    (htask : v.tasks.count task < v'.tasks.count task) : ¬task.IsAbout topic := by
  have hv : v.subscriptionCallbacks.get topic = none := by
    refine run_invariant_of_events (P := fun s => s.subscriptionCallbacks.get topic = none) ?_ es hnone
      (fun e' he' => hregisters e' (List.mem_append_left _ he')) hrun
    intro s e s' hs hregisters hstep
    rw [(callbacks_step hstep).1]
    exact get_callbacksAfter hregisters hs
  exact not_isAbout (heeds_step h task htask) (get_callbacksAfter (hregisters e (by simp)) hv)

/-! ## The call -/

theorem isStarted_stop (s : State) : s.stop.monitor.isStarted = false := by
  unfold State.stop
  split
  next hstopped => simpa using hstopped
  next =>
    unfold State.stopKeepAlive
    split <;> rfl

/-- The start of a call. -/
theorem progress_called (hfresh : s.Fresh) (h : step env s (.called (.unsubscribe contentTopics)) = some s') :
    s.nextId < s'.nextId ∧ Progress contentTopics s.monitorPeers s.subscriptionCallbacks (s'.roles s.nextId)
      s'.subscriptionCallbacks := by
  have hstart : ∀ (peers : List PeerId) (fresh : Bool),
      (State.spawn { s with nextId := s.nextId + 1 }
        (.gettingPeers s.nextId (.unsubscribe contentTopics) peers fresh)).roles s.nextId =
          {.start (.unsubscribe contentTopics) peers fresh} := by
    intro peers fresh
    have hzero : State.roles { s with nextId := s.nextId + 1 } s.nextId = 0 := hfresh s.nextId le_rfl
    rw [roles_spawn, hzero, Task.role, if_pos rfl]
    rfl
  cases h
  unfold State.startCall State.getPeers State.monitorPeers
  split
  · exact ⟨Nat.lt_succ_self _, (hstart _ _).symm ▸ .start false⟩
  · exact ⟨Nat.lt_succ_self _, (hstart _ _).symm ▸ .start true⟩

/-- In a run in which the call is alone it progresses. -/
theorem progress_of_run {es : List Event} {t : State} (hes : ∀ e ∈ es, Alone id e) (hid : id < s.nextId)
    (hprogress : Progress contentTopics peers before (s.roles id) s.subscriptionCallbacks)
    (hrun : run (step env) s es = some t) :
    Progress contentTopics peers before (t.roles id) t.subscriptionCallbacks := by
  refine (run_invariant_of_events (P := fun s => id < s.nextId ∧
    Progress contentTopics peers before (s.roles id) s.subscriptionCallbacks) ?_ es ⟨hid, hprogress⟩ hes hrun).2
  rintro s e s' ⟨hid, hprogress⟩ halone h
  exact ⟨hid.trans_le (callbacks_step h).2, progress_step hid halone h hprogress⟩

/-- An `unsubscribe` call that resolves keeps its promise iff there was a peer to ask, or nothing to remove. -/
theorem unsubscribe_removes_iff (env : Env) (earlier es : List Event) (contentTopics : List String) {s s₀ u t : State}
    (hearlier : run (step env) init earlier = some s)
    (hcalled : step env s (.called (.unsubscribe contentTopics)) = some s₀) (hes : ∀ e ∈ es, Alone s.nextId e)
    (hrun : run (step env) s₀ es = some u)
    (hsettled : step env u (.settled s.nextId (.unsubscribe contentTopics)) = some t) :
    Removes env contentTopics s t ↔
      s.monitorPeers ≠ [] ∨ ∀ topic ∈ contentTopics, s.subscriptionCallbacks.get topic = none := by
  obtain ⟨hid, hcalled⟩ := progress_called (fresh_of_run fresh_init hearlier) hcalled
  obtain ⟨-, -, hnil, hcons⟩ := progress_settled hsettled (progress_of_run hes hid hcalled hrun)
  obtain ⟨-, s₁, hs₁, rfl, haside⟩ := aside_settled s.nextId hsettled
  have hcallbacks : (s₁.callSettled env (.unsubscribe contentTopics)).subscriptionCallbacks = u.subscriptionCallbacks :=
    haside.callbacks
  constructor
  · intro hremoves
    by_cases hpeers : s.monitorPeers = []
    · right
      intro topic htopic
      rw [← hnil hpeers, ← hcallbacks]
      exact hremoves.removed topic htopic
    · exact .inl hpeers
  · intro hcondition
    have hremoved : Removed contentTopics s.subscriptionCallbacks u.subscriptionCallbacks := by
      by_cases hpeers : s.monitorPeers = []
      · intro topic
        rw [hnil hpeers]
        split
        next htopic => exact (hcondition.resolve_left fun hne => hne hpeers) topic htopic
        next => rfl
      · exact hcons hpeers
    have hgone : ∀ topic ∈ contentTopics,
        (s₁.callSettled env (.unsubscribe contentTopics)).subscriptionCallbacks.get topic = none := by
      intro topic htopic
      rw [hcallbacks, hremoved topic, if_pos htopic]
    refine ⟨hgone, fun topic htopic => ?_, fun hempty => ?_, fun topic htopic es e v v' hregisters hrun h => ?_⟩
    · rw [hcallbacks, hremoved topic, if_neg htopic]
    · rw [State.callSettled] at hempty ⊢
      split at hempty
      next hstop => exact if_pos hstop ▸ isStarted_stop s₁
      next hleft => exact absurd (congrArg List.length hempty) hleft
    · exact not_isAbout_of_run (hgone topic htopic) hregisters hrun h

end

/-! ## Two runs -/

/-- A peer connects, and the subscription subscribes to it. -/
def subscribedRun : List Event :=
  [.connectionOpened "a", .peerConnected "a", .subscribe [sampleDecoder] 7,
    .gotPeers 1 (.subscribe [sampleDecoder] 7) ["a"] true,
    .streamOpened ⟨.subscribe ["c"], "a", .call 1⟩ ⟨0, "a", ["peer-manager-lock"]⟩,
    .answered ⟨.subscribe ["c"], "a", .call 1⟩ 0 (.ok true), .settled 1 (.subscribe [sampleDecoder] 7)]

/-- The same, and the peer is gone. -/
def disconnectedRun : List Event :=
  subscribedRun ++ [.connectionClosed ⟨0, "a", ["peer-manager-lock"]⟩, .peerDisconnected "a", .resubscribed []]

/-- The call with the peer `a`, up to where it resolves. -/
def unsubscribeFromA : List Event :=
  [.gotPeers 3 (.unsubscribe ["c"]) ["a"] false,
    .streamOpened ⟨.unsubscribe ["c"], "a", .call 3⟩ ⟨0, "a", ["peer-manager-lock"]⟩,
    .answered ⟨.unsubscribe ["c"], "a", .call 3⟩ 0 (.ok true)]

/-- The run of a call after another run. -/
def callRun (earlier es : List Event) : Option State :=
  (run (step sampleEnv) init earlier).bind fun s => (step sampleEnv s (.called (.unsubscribe ["c"]))).bind fun s₀ =>
    (run (step sampleEnv) s₀ es).bind fun u => step sampleEnv u (.settled s.nextId (.unsubscribe ["c"]))

theorem exists_of_callRun {earlier es : List Event} {t : State} (h : callRun earlier es = some t) :
    ∃ s s₀ u, run (step sampleEnv) init earlier = some s ∧
      step sampleEnv s (.called (.unsubscribe ["c"])) = some s₀ ∧ run (step sampleEnv) s₀ es = some u ∧
        step sampleEnv u (.settled s.nextId (.unsubscribe ["c"])) = some t := by
  obtain ⟨s, hs, h⟩ := Option.bind_eq_some_iff.1 h
  obtain ⟨s₀, hs₀, h⟩ := Option.bind_eq_some_iff.1 h
  obtain ⟨u, hu, h⟩ := Option.bind_eq_some_iff.1 h
  exact ⟨s, s₀, u, hs, hs₀, hu, h⟩

/-- With the peer the callback is removed. -/
theorem unsubscribe_removes_iff_subscribedRun :
    ∃ s t, run (step sampleEnv) init subscribedRun = some s ∧ callRun subscribedRun unsubscribeFromA = some t ∧
      s.subscriptionCallbacks.get "c" ≠ none ∧ Removes sampleEnv ["c"] s t := by
  have hrun : (callRun subscribedRun unsubscribeFromA).isSome = true := by decide +kernel
  obtain ⟨t, ht⟩ := Option.isSome_iff_exists.1 hrun
  obtain ⟨s, s₀, u, hs, hs₀, hu, hsettled⟩ := exists_of_callRun ht
  have hstart : ∀ s ∈ run (step sampleEnv) init subscribedRun,
      s.nextId = 3 ∧ s.subscriptionCallbacks.get "c" ≠ none ∧ s.monitorPeers ≠ [] := by decide +kernel
  obtain ⟨hid, hcallback, hpeers⟩ := hstart s hs
  have hes : ∀ e ∈ unsubscribeFromA, Alone s.nextId e := by
    rw [hid]
    simp [unsubscribeFromA, Alone]
  refine ⟨s, t, hs, ht, hcallback, ?_⟩
  exact (unsubscribe_removes_iff sampleEnv subscribedRun unsubscribeFromA ["c"] hs hs₀ hes hu hsettled).2 (.inl hpeers)

/-- Without a peer the call resolves and the callback stays. -/
theorem not_unsubscribe_removes :
    ¬∀ (earlier es : List Event) (contentTopics : List String) (s s₀ u t : State),
      run (step sampleEnv) init earlier = some s → step sampleEnv s (.called (.unsubscribe contentTopics)) = some s₀ →
        (∀ e ∈ es, Alone s.nextId e) → run (step sampleEnv) s₀ es = some u →
          step sampleEnv u (.settled s.nextId (.unsubscribe contentTopics)) = some t →
            Removes sampleEnv contentTopics s t := by
  intro h
  have hrun : (callRun disconnectedRun [.gotPeers 3 (.unsubscribe ["c"]) [] false]).isSome = true := by decide +kernel
  obtain ⟨t, ht⟩ := Option.isSome_iff_exists.1 hrun
  obtain ⟨s, s₀, u, hs, hs₀, hu, hsettled⟩ := exists_of_callRun ht
  have hleft : ∀ t ∈ callRun disconnectedRun [.gotPeers 3 (.unsubscribe ["c"]) [] false],
      t.subscriptionCallbacks.get "c" ≠ none := by decide +kernel
  have hremoves := h disconnectedRun _ ["c"] s s₀ u t hs hs₀ (by simp [Alone]) hu hsettled
  exact hleft t ht (hremoves.removed "c" (List.mem_singleton_self _))

end JsWaku.Filter
