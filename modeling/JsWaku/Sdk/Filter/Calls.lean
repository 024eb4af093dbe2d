import JsWaku.Sdk.Filter.Frame
import Mathlib.Data.Multiset.Replicate

/-!
# The tasks of one call

The suspended calls that belong to one call of the subscription are collected by what they are to it (`State.roles`).
`Aside` says of code that it touches neither these nor the callbacks, and that new tasks heed the callbacks; it is a
frame (`Aside.isFrame`). `aside_step` says which events leave a call aside, with the callbacks that the step leaves; a
call gets a number that no task has (`fresh_of_run`).
-/

namespace JsWaku.Filter

open Transition

/-! ## The calls in progress of one call -/

/-- What a suspended call is to a call of the subscription. -/
inductive Role
  | start (call : Call) (peers : List PeerId) (fresh : Bool)
  | request (rpc : Rpc)
  | settling (call : Call)
  deriving DecidableEq

/-- What the task is to the call with this number. -/
def Task.role (id : ℕ) : Task → Option Role
  | gettingPeers id' call peers fresh => if id' = id then some (.start call peers fresh) else none
  | opening request | exchanging request _ => if request.waiter = .call id then some (.request request.rpc) else none
  | settling id' call => if id' = id then some (.settling call) else none
  | _ => none

/-- The tasks of the call. -/
def State.roles (s : State) (id : ℕ) : Multiset Role := s.tasks.filterMap (Task.role id)

/-- No call has a number that is still to be given. -/
def State.Fresh (s : State) : Prop := ∀ id, s.nextId ≤ id → s.roles id = 0

section Roles

variable {s s' : State} {t : Task} {id : ℕ}

theorem roles_spawn (s : State) (t : Task) (id : ℕ) : (s.spawn t).roles id = s.roles id + (t.role id).toList := by
  have happend : (s.tasks ++ [t]).filterMap (Task.role id) = s.tasks.filterMap (Task.role id) ++ (t.role id).toList := by
    rw [List.filterMap_append, List.filterMap_cons]
    cases t.role id <;> rfl
  rw [State.roles, State.spawn, happend, ← Multiset.coe_add]
  rfl

theorem roles_resume (h : s.resume t = some s') (id : ℕ) : s.roles id = s'.roles id + (t.role id).toList := by
  obtain ⟨tasks, htake, rfl⟩ := Option.map_eq_some_iff.1 h
  obtain ⟨hmem, rfl⟩ := take_eq_some.1 htake
  have hcons : (t :: s.tasks.erase t).filterMap (Task.role id) =
      (t.role id).toList ++ (s.tasks.erase t).filterMap (Task.role id) := by
    rw [List.filterMap_cons]
    cases t.role id <;> rfl
  have hperm := (List.perm_cons_erase hmem).filterMap (Task.role id)
  rw [hcons] at hperm
  rw [State.roles, Multiset.coe_eq_coe.2 (hperm.trans List.perm_append_comm), ← Multiset.coe_add]
  rfl

/-- A task in progress is counted. -/
theorem role_mem_roles (ht : t ∈ s.tasks) {r : Role} (hr : t.role id = some r) : r ∈ s.roles id :=
  Multiset.mem_coe.2 (List.mem_filterMap.2 ⟨t, ht, hr⟩)

theorem mem_of_resume (h : s.resume t = some s') : t ∈ s.tasks := by
  obtain ⟨tasks, htake, -⟩ := Option.map_eq_some_iff.1 h
  exact (take_eq_some.1 htake).1

end Roles

/-! ## What leaves a call alone -/

/-- A request of `SubscriptionMonitor.subscribe` asks for the topics that have callbacks, and a message goes to the
callback of its topic. -/
def Task.Heeds (callbacks : Map String SubscriptionCallback) : Task → Prop
  | opening ⟨.subscribe contentTopics, _, .retry _ _⟩ => contentTopics = callbacks.keys
  | pushing subscriptionCallback message => callbacks.get message.contentTopic = some subscriptionCallback
  | _ => True

theorem heeds_of_call {callbacks : Map String SubscriptionCallback} (rpc : Rpc) (peerId : PeerId) (id : ℕ) :
    (Task.opening ⟨rpc, peerId, .call id⟩).Heeds callbacks := by
  cases rpc <;> exact trivial

/-- From `s` to `s'` the callbacks and the tasks of the call stay the same, and new tasks heed the callbacks. -/
structure Aside (id : ℕ) (s s' : State) : Prop where
  callbacks : s'.subscriptionCallbacks = s.subscriptionCallbacks
  nextId : s.nextId ≤ s'.nextId
  roles : s'.roles id = s.roles id
  heeds : ∀ t, s.tasks.count t < s'.tasks.count t → t.Heeds s.subscriptionCallbacks

namespace Aside

variable {env : Env} {s s' : State} {t : Task} {id : ℕ}

theorem refl (s : State) : Aside id s s := ⟨rfl, le_rfl, rfl, fun _ h => absurd h (lt_irrefl _)⟩

theorem trans {s₁ s₂ s₃ : State} (h : Aside id s₁ s₂) (h' : Aside id s₂ s₃) : Aside id s₁ s₃ where
  callbacks := h'.callbacks.trans h.callbacks
  nextId := h.nextId.trans h'.nextId
  roles := h'.roles.trans h.roles
  heeds t ht := by
    rcases lt_or_ge (s₁.tasks.count t) (s₂.tasks.count t) with h₁₂ | h₂₁
    · exact h.heeds t h₁₂
    · exact h.callbacks ▸ h'.heeds t (h₂₁.trans_lt ht)

theorem spawn (s : State) (h : t.role id = none) (hheeds : t.Heeds s.subscriptionCallbacks) : Aside id s (s.spawn t) where
  callbacks := rfl
  nextId := le_rfl
  roles := by rw [roles_spawn, h]; exact Multiset.add_zero _
  heeds t' ht' := by
    rw [State.spawn, List.count_append, Nat.lt_add_right_iff_pos, List.count_pos_iff, List.mem_singleton] at ht'
    exact ht' ▸ hheeds

/-- A call is taken up again. -/
theorem resume (hs : s.resume t = some s') (h : t.role id = none) : Aside id s s' := by
  have hroles := roles_resume hs id
  obtain ⟨tasks, htake, rfl⟩ := Option.map_eq_some_iff.1 hs
  obtain ⟨-, rfl⟩ := take_eq_some.1 htake
  rw [h] at hroles
  refine ⟨rfl, le_rfl, (hroles.trans (Multiset.add_zero _)).symm, fun t' ht' => ?_⟩
  exact absurd ht' (not_lt.2 (List.erase_sublist.count_le t'))

/-- The same, with other callbacks. -/
theorem resume_callbacks (hs : s.resume t = some s') (h : t.role id = none) (callbacks : Map String SubscriptionCallback) :
    Aside id { s with subscriptionCallbacks := callbacks } { s' with subscriptionCallbacks := callbacks } := by
  obtain ⟨tasks, htake, rfl⟩ := Option.map_eq_some_iff.1 hs
  exact resume (t := t) (by rw [State.resume, htake]; rfl) h

theorem isFrame (id : ℕ) : IsKeepAliveFrame (Aside id) where
  refl := refl
  trans := trans
  nextId s := { refl s with nextId := Nat.le_succ _ }
  pingFailedAttempts s _ := { refl s with }
  lockPeerIfNeeded s _ _ := { refl s with }
  requestRenew s _ _ := { refl s with }
  resubscribing s _ := spawn s rfl trivial
  subscribing s _ _ _ := spawn s rfl rfl
  pinging s _ _ _ := spawn s rfl trivial
  keepAlive s _ _ _ := { refl s with }
  restarting s _ := spawn s rfl trivial
  restarted hs := resume hs rfl

/-! ### The functions -/

/-- A call takes the next number. -/
theorem startCall (s : State) (call : Call) (hid : id < s.nextId ∨ (s.startCall call).nextId ≤ id) :
    Aside id s (s.startCall call) := by
  have hnext : (s.startCall call).nextId = s.nextId + 1 := by
    rw [State.startCall, State.getPeers]
    split <;> rfl
  have hne : s.nextId ≠ id := by omega
  exact (isFrame id).startCall fun s' _ _ _ => spawn s' (if_neg hne) trivial

theorem requestSent (s : State) (request : Request) : Aside id s (s.requestSent request) := by
  unfold State.requestSent
  split
  · exact { refl s with }
  · exact { refl s with }
  · exact refl s
  · exact refl s

theorem replied (s : State) (request : Request) (outcome : Except JsError Bool)
    (callbacks : Map String SubscriptionCallback) :
    Aside id { s with subscriptionCallbacks := callbacks }
      { s.replied request outcome with subscriptionCallbacks := callbacks } := by
  unfold State.replied
  split
  · exact { refl _ with }
  · exact refl _

theorem resubscribe (s : State) (peers : List PeerId) : Aside id s (s.resubscribe peers) := by
  have hassign : Aside id s { s with monitor := { s.monitor with peerIds := peers } } := { refl s with }
  exact hassign.trans ((isFrame id).resubscribe s peers)

theorem processIncomingMessage (s : State) (message : IProtoMessage) :
    Aside id s (s.processIncomingMessage env message) := by
  unfold State.processIncomingMessage
  split
  · exact refl s
  · split
    · exact refl s
    · simp only
      split
      · exact { refl s with }
      next subscriptionCallback hget =>
        split
        · exact { refl s with }
        · refine Aside.trans ?_ (spawn _ rfl hget)
          exact { refl s with }

/-- The requests of another call. -/
theorem gotPeers (s : State) {id' : ℕ} (call : Call) (peers : List PeerId) (fresh : Bool) (hid : id' ≠ id) :
    Aside id s (s.gotPeers id' call peers fresh) := by
  have hwaiter : ∀ peer, (Task.opening ⟨State.rpcOf call, peer, .call id'⟩).role id = none :=
    fun peer => if_neg (by simpa using hid)
  unfold State.gotPeers
  refine Aside.trans ?_ (spawn _ (if_neg hid) trivial)
  refine Aside.trans ?_ ((isFrame id).foldl (fun s peer => spawn s (hwaiter peer) (heeds_of_call _ peer id')) peers _)
  cases fresh
  · exact refl s
  · exact { refl s with }

end Aside

/-! ## Callbacks -/

/-- The callbacks once a request is settled: those of an unsubscribe request's topics are deleted. -/
def forget (request : Request) (outcome : Except JsError Bool) (callbacks : Map String SubscriptionCallback) :
    Map String SubscriptionCallback :=
  match request.waiter, outcome, request.rpc with
  | .call _, .ok _, .unsubscribe contentTopics => contentTopics.foldl Map.delete callbacks
  | _, _, _ => callbacks

/-- The callbacks after an event. -/
def State.callbacksAfter (env : Env) (s : State) : Event → Map String SubscriptionCallback
  | .streamFailed request error => forget request (State.noStream request.rpc error) s.subscriptionCallbacks
  | .answered request _ outcome => forget request outcome s.subscriptionCallbacks
  | .settled _ (.subscribe decodersArray callback) => (s.registerCallbacks env decodersArray callback).subscriptionCallbacks
  | .settled _ .unsubscribeAll => Map.empty
  | _ => s.subscriptionCallbacks

namespace Aside

variable {env : Env} {s s' : State} {t : Task} {id : ℕ}

/-- A settled request touches callbacks only as `forget` says. -/
theorem answered (s : State) (request : Request) (outcome : Except JsError Bool) :
    Aside id { s with subscriptionCallbacks := forget request outcome s.subscriptionCallbacks }
      (s.answered env request outcome) := by
  obtain ⟨rpc, peerId, waiter⟩ := request
  cases waiter with
  | call id' =>
    cases outcome with
    | error e => exact refl s
    | ok success => cases rpc <;> exact refl _
  | retry attempt handler => exact (isFrame id).answered s outcome nofun
  | ping renewOnFirstFail handler => exact (isFrame id).answered s outcome nofun

theorem callSettled (s : State) (id' : ℕ) (call : Call) :
    Aside id { s with subscriptionCallbacks := s.callbacksAfter env (.settled id' call) } (s.callSettled env call) := by
  cases call with
  | subscribe decodersArray callback => exact (isFrame id).start (s.registerCallbacks env decodersArray callback)
  | unsubscribe contentTopics =>
    rw [State.callSettled]
    split
    · exact (isFrame id).stop s
    · exact refl s
  | unsubscribeAll => exact (isFrame id).stop { s with subscriptionCallbacks := Map.empty }
  | ping => exact refl s

end Aside

/-! ## Steps -/

section Steps

variable {env : Env} {s s' : State} {e : Event} {id : ℕ}

/-- The event resumes a task of the call, other than by opening a stream. -/
def Event.concerns (id : ℕ) : Event → Prop
  | .gotPeers id' _ _ _ | .settled id' _ => id' = id
  | .streamFailed request _ | .answered request _ _ => request.waiter = .call id
  | _ => False

/-- A request that failed to open. -/
theorem aside_streamFailed (id : ℕ) {request : Request} {error : JsError}
    (h : step env s (.streamFailed request error) = some s') :
    ∃ s₀, s.resume (.opening request) = some s₀ ∧
      Aside id { s₀ with subscriptionCallbacks := s.callbacksAfter env (.streamFailed request error) } s' := by
  obtain ⟨s₀, hs₀, rfl⟩ := Option.map_eq_some_iff.1 h
  refine ⟨s₀, hs₀, ?_⟩
  obtain ⟨tasks, -, rfl⟩ := Option.map_eq_some_iff.1 hs₀
  exact Aside.answered _ request _

/-- A request that was answered. -/
theorem aside_answered (id : ℕ) {request : Request} {connection : ℕ} {outcome : Except JsError Bool}
    (h : step env s (.answered request connection outcome) = some s') :
    ∃ s₀, s.resume (.exchanging request connection) = some s₀ ∧
      Aside id { s₀ with subscriptionCallbacks := s.callbacksAfter env (.answered request connection outcome) } s' := by
  rw [step] at h
  split at h
  next =>
    obtain ⟨s₀, hs₀, rfl⟩ := Option.map_eq_some_iff.1 h
    refine ⟨s₀, hs₀, ?_⟩
    obtain ⟨tasks, -, rfl⟩ := Option.map_eq_some_iff.1 hs₀
    have hreplied : ∀ s : State, (s.replied request outcome).subscriptionCallbacks = s.subscriptionCallbacks := by
      intro s
      unfold State.replied
      split <;> rfl
    have hanswered : ∀ s₁ : State, s₁.subscriptionCallbacks = s.subscriptionCallbacks →
        Aside id { s₁ with subscriptionCallbacks := forget request outcome s.subscriptionCallbacks }
          (s₁.answered env request outcome) :=
      fun s₁ hcallbacks => hcallbacks ▸ Aside.answered s₁ request outcome
    exact (Aside.replied { s with tasks } request outcome _).trans (hanswered _ (hreplied _))
  next => cases h

/-- A call that has settled. -/
theorem aside_settled (id : ℕ) {id' : ℕ} {call : Call} (h : step env s (.settled id' call) = some s') :
    s.tasks.any (Task.awaits (Waiter.isOf id')) = false ∧ ∃ s₀, s.resume (.settling id' call) = some s₀ ∧
      s' = s₀.callSettled env call ∧
        Aside id { s₀ with subscriptionCallbacks := s.callbacksAfter env (.settled id' call) } s' := by
  rw [step] at h
  split at h
  next => cases h
  next hnone =>
    obtain ⟨s₀, hs₀, rfl⟩ := Option.map_eq_some_iff.1 h
    refine ⟨by simpa using hnone, s₀, hs₀, rfl, ?_⟩
    obtain ⟨tasks, -, rfl⟩ := Option.map_eq_some_iff.1 hs₀
    have hsame : State.callbacksAfter env { s with tasks } (.settled id' call) =
        s.callbacksAfter env (.settled id' call) := by
      cases call <;> rfl
    have hsettled : Aside id _ (State.callSettled env { s with tasks } call) :=
      Aside.callSettled { s with tasks } id' call
    rw [hsame] at hsettled
    exact hsettled

/-- A stream that opens, for any call: the request goes on. -/
theorem aside_streamOpened {request : Request} {conn : Connection}
    (h : step env s (.streamOpened request conn) = some s') : Aside id s s' := by
  rw [step] at h
  split at h
  next =>
    obtain ⟨s₀, hs₀, rfl⟩ := Option.map_eq_some_iff.1 h
    have hresumed := roles_resume hs₀ id
    obtain ⟨tasks, htake, rfl⟩ := Option.map_eq_some_iff.1 hs₀
    obtain ⟨-, rfl⟩ := take_eq_some.1 htake
    have hsent : Aside id { s with tasks := s.tasks.erase (.opening request) } _ := Aside.requestSent _ request
    refine ⟨hsent.callbacks, hsent.nextId, ?_, fun t ht => ?_⟩
    · rw [roles_spawn, hsent.roles, hresumed]
      rfl
    · rw [State.spawn, List.count_append] at ht
      by_cases hexchanging : t = .exchanging request conn.id
      · exact hexchanging ▸ trivial
      · have hzero : [Task.exchanging request conn.id].count t = 0 := List.count_eq_zero.2 (by simpa using hexchanging)
        rw [hzero, Nat.add_zero] at ht
        have herase : (s.tasks.erase (.opening request)).count t ≤ s.tasks.count t := List.erase_sublist.count_le t
        exact hsent.heeds t (herase.trans_lt ht)
  next => cases h

/-- What a step does to the callbacks and to a call that its event does not concern, and does not start. -/
theorem aside_step (h : step env s e = some s') (hconcerns : ¬e.concerns id) (hid : id < s.nextId ∨ s'.nextId ≤ id) :
    Aside id { s with subscriptionCallbacks := s.callbacksAfter env e } s' := by
  cases e with
  | connectionOpened peerId =>
    cases h
    exact { Aside.refl s with nextId := Nat.le_succ _ }
  | connectionClosed conn =>
    rw [step] at h
    split at h
    next =>
      simp only at h
      split at h <;> cases h <;> exact { Aside.refl s with }
    next => cases h
  | peerConnected peerId =>
    cases h
    exact (Aside.isFrame id).onPeerConnected s peerId
  | peerDisconnected peerId =>
    cases h
    exact (Aside.isFrame id).onPeerDisconnected s peerId
  | connectionStatus isConnected =>
    cases h
    exact (Aside.isFrame id).onConnectionChange s isConnected
  | intervalFired id' =>
    rw [step] at h
    split at h
    next =>
      cases h
      exact (Aside.isFrame id).intervalFired s
    next => cases h
  | subscribe decoders callback =>
    cases h
    unfold State.subscribe at hid ⊢
    split at hid
    next hrejected => rw [if_pos hrejected]; exact Aside.refl s
    next haccepted => rw [if_neg haccepted]; exact Aside.startCall s _ hid
  | called call => cases call <;> cases h <;> exact Aside.startCall s _ hid
  | gotPeers id' call peers fresh =>
    obtain ⟨s₀, hs₀, rfl⟩ := Option.map_eq_some_iff.1 h
    exact (Aside.resume hs₀ (if_neg hconcerns)).trans (Aside.gotPeers s₀ call peers fresh hconcerns)
  | resubscribed peers =>
    obtain ⟨s₀, hs₀, rfl⟩ := Option.map_eq_some_iff.1 h
    exact (Aside.resume hs₀ rfl).trans (Aside.resubscribe s₀ peers)
  | streamOpened request conn => exact aside_streamOpened h
  | streamFailed request error =>
    obtain ⟨s₀, hs₀, haside⟩ := aside_streamFailed id h
    exact (Aside.resume_callbacks hs₀ (if_neg hconcerns) _).trans haside
  | answered request connection outcome =>
    obtain ⟨s₀, hs₀, haside⟩ := aside_answered id h
    exact (Aside.resume_callbacks hs₀ (if_neg hconcerns) _).trans haside
  | settled id' call =>
    obtain ⟨-, s₀, hs₀, -, haside⟩ := aside_settled id h
    exact (Aside.resume_callbacks hs₀ (if_neg hconcerns) _).trans haside
  | restarted id' =>
    rw [step] at h
    split at h
    next => cases h
    next =>
      obtain ⟨s₀, hs₀, rfl⟩ := Option.map_eq_some_iff.1 h
      exact (Aside.resume hs₀ rfl).trans ((Aside.isFrame id).startKeepAlive s₀)
  | pushed p m =>
    cases h
    exact Aside.processIncomingMessage s m
  | decoded subscriptionCallback m =>
    rw [step] at h
    split at h
    next =>
      obtain ⟨s₀, hs₀, rfl⟩ := Option.map_eq_some_iff.1 h
      exact (Aside.resume hs₀ rfl).trans { Aside.refl s₀ with }
    next => cases h
  | notDecoded subscriptionCallback m =>
    rw [step] at h
    split at h
    next => cases h
    next => exact Aside.resume h rfl

/-- Numbers from one on are not those of an event. -/
theorem exists_not_concerns (n : ℕ) (e : Event) : ∃ id, n ≤ id ∧ ¬e.concerns id := by
  cases e with
  | gotPeers id' | settled id' => exact ⟨n + id' + 1, by omega, fun h => by simp only [Event.concerns] at h; omega⟩
  | streamFailed request | answered request =>
    obtain ⟨rpc, peerId, waiter⟩ := request
    cases waiter with
    | call id' =>
      refine ⟨n + id' + 1, by omega, fun h => ?_⟩
      simp only [Event.concerns, Waiter.call.injEq] at h
      omega
    | retry | ping => exact ⟨n, le_rfl, fun h => by cases h⟩
  | _ => exact ⟨n, le_rfl, fun h => h⟩

/-- The callbacks after a step, and the numbers given. -/
theorem callbacks_step (h : step env s e = some s') :
    s'.subscriptionCallbacks = s.callbacksAfter env e ∧ s.nextId ≤ s'.nextId := by
  obtain ⟨id, hid, hconcerns⟩ := exists_not_concerns s'.nextId e
  have haside := aside_step h hconcerns (.inr hid)
  exact ⟨haside.callbacks, haside.nextId⟩

/-- New tasks heed the callbacks after the step. -/
theorem heeds_step (h : step env s e = some s') (t : Task) (ht : s.tasks.count t < s'.tasks.count t) :
    t.Heeds (s.callbacksAfter env e) := by
  obtain ⟨id, hid, hconcerns⟩ := exists_not_concerns s'.nextId e
  exact (aside_step h hconcerns (.inr hid)).heeds t ht

/-- An event that concerns a call resumes a task of it. -/
theorem roles_ne_zero (h : step env s e = some s') (hconcerns : e.concerns id) : s.roles id ≠ 0 := by
  have hmem : ∀ {t : Task} {r : Role}, t ∈ s.tasks → t.role id = some r → s.roles id ≠ 0 :=
    fun ht hr hzero => by
      have := role_mem_roles ht hr
      rw [hzero] at this
      cases this
  cases e with
  | gotPeers id' call peers fresh =>
    obtain ⟨s₀, hs₀, rfl⟩ := Option.map_eq_some_iff.1 h
    exact hmem (mem_of_resume hs₀) (if_pos hconcerns)
  | streamFailed request error =>
    obtain ⟨s₀, hs₀, -⟩ := aside_streamFailed id h
    exact hmem (mem_of_resume hs₀) (if_pos hconcerns)
  | answered request connection outcome =>
    obtain ⟨s₀, hs₀, -⟩ := aside_answered id h
    exact hmem (mem_of_resume hs₀) (if_pos hconcerns)
  | settled id' call =>
    obtain ⟨-, s₀, hs₀, -⟩ := aside_settled id h
    exact hmem (mem_of_resume hs₀) (if_pos hconcerns)
  | _ => exact absurd hconcerns not_false

theorem fresh_init : init.Fresh := fun _ _ => rfl

theorem fresh_step (hs : s.Fresh) (h : step env s e = some s') : s'.Fresh := by
  intro id hid
  have hzero := hs id ((callbacks_step h).2.trans hid)
  have hconcerns : ¬e.concerns id := fun hc => roles_ne_zero h hc hzero
  rw [(aside_step h hconcerns (.inr hid)).roles]
  exact hzero

/-- In every run a call gets a number that no task has. -/
theorem fresh_of_run {es : List Event} (hs : s.Fresh) (h : run (step env) s es = some s') : s'.Fresh :=
  run_invariant (fun _ _ _ hs h => fresh_step hs h) es hs h

end Steps

end JsWaku.Filter
