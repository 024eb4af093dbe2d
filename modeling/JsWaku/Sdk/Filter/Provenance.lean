import JsWaku.Sdk.Filter.Unsubscribe

/-!
# Where the calls of callbacks come from

`subscribed` and `pushed` stand for the calls of `subscribe` and the messages that a subscription was given. Then every
callback that is registered, about to be invoked or invoked comes from one of the calls, for the content topic of its
decoders, and every message from one of the pushes (`Sourced`). A step makes few tasks that matter to this
(`tasks_step`), and keeps it (`sourced_step`).
-/

namespace JsWaku.Filter

open Transition

/-! ## New tasks -/

/-- A suspended call of the subscription, or a `pushMessage`. -/
def Task.isSourced : Task → Bool
  | gettingPeers _ _ _ _ | settling _ _ | pushing _ _ => true
  | _ => false

/-- From `s` to `s'` no such task is made. -/
def Passive (s s' : State) : Prop := ∀ t ∈ s'.tasks, t.isSourced → t ∈ s.tasks

namespace Passive

variable {env : Env} {s s' : State} {t : Task}

theorem refl (s : State) : Passive s s := fun _ ht _ => ht

theorem trans {s₁ s₂ s₃ : State} (h : Passive s₁ s₂) (h' : Passive s₂ s₃) : Passive s₁ s₃ :=
  fun t ht hsourced => h t (h' t ht hsourced) hsourced

/-- A change of other fields. -/
theorem of_eq (h : s'.tasks = s.tasks) : Passive s s' := fun _ ht _ => h ▸ ht

theorem spawn (s : State) (h : t.isSourced = false) : Passive s (s.spawn t) := by
  intro t' ht' hsourced
  rcases List.mem_append.1 ht' with ht' | ht'
  · exact ht'
  · rw [List.mem_singleton.1 ht', h] at hsourced
    cases hsourced

theorem resume (hs : s.resume t = some s') : Passive s s' := by
  obtain ⟨tasks, htake, rfl⟩ := Option.map_eq_some_iff.1 hs
  exact fun t' ht' _ => mem_of_take htake ht'

theorem isFrame : IsKeepAliveFrame Passive where
  refl := refl
  trans := trans
  nextId _ := of_eq rfl
  pingFailedAttempts _ _ := of_eq rfl
  lockPeerIfNeeded _ _ _ := of_eq rfl
  requestRenew _ _ _ := of_eq rfl
  resubscribing s _ := spawn s rfl
  subscribing s _ _ _ := spawn s rfl
  pinging s _ _ _ := spawn s rfl
  keepAlive _ _ _ _ := of_eq rfl
  restarting s _ := spawn s rfl
  restarted hs := resume hs

theorem requestSent (s : State) (request : Request) : Passive s (s.requestSent request) := by
  unfold State.requestSent
  split <;> exact of_eq rfl

theorem replied (s : State) (request : Request) (outcome : Except JsError Bool) :
    Passive s (s.replied request outcome) := by
  unfold State.replied
  split <;> exact of_eq rfl

theorem answered (s : State) (request : Request) (outcome : Except JsError Bool) :
    Passive s (s.answered env request outcome) := by
  obtain ⟨rpc, peerId, waiter⟩ := request
  cases waiter with
  | call id =>
    cases outcome with
    | error e => exact refl s
    | ok success => cases rpc <;> exact of_eq rfl
  | retry attempt handler => exact isFrame.answered s outcome nofun
  | ping renewOnFirstFail handler => exact isFrame.answered s outcome nofun

theorem callSettled (s : State) (call : Call) : Passive s (s.callSettled env call) := by
  cases call with
  | subscribe decodersArray callback => exact isFrame.start (s.registerCallbacks env decodersArray callback)
  | unsubscribe contentTopics =>
    rw [State.callSettled]
    split
    · exact isFrame.stop s
    · exact refl s
  | unsubscribeAll => exact isFrame.stop { s with subscriptionCallbacks := Map.empty }
  | ping => exact refl s

end Passive

/-- The decoders of a `subscribe` call: the user's, and that of the reserved content topic. -/
def Env.decodersArray (env : Env) (decoders : List IDecoder) : List IDecoder :=
  if env.enableLightPushFilterCheck then decoders ++ [env.reservedDecoder] else decoders

/-- The tasks that matter and that an event makes. -/
def Event.Makes (env : Env) (s : State) : Event → Task → Prop
  | subscribe decoders callback, t =>
    (∀ d ∈ decoders, d.pubsubTopic = env.pubsubTopic) ∧
      ∃ peers fresh, t = .gettingPeers s.nextId (.subscribe (env.decodersArray decoders) callback) peers fresh
  | called call, t => (∃ id peers fresh, t = .gettingPeers id call peers fresh) ∧ ∀ decs cb, call ≠ .subscribe decs cb
  | gotPeers id call peers fresh, t => t = .settling id call ∧ .gettingPeers id call peers fresh ∈ s.tasks
  | pushed _ m, t => ∃ sc, t = .pushing sc m ∧ s.subscriptionCallbacks.get m.contentTopic = some sc
  | _, _ => False

section

variable {env : Env} {s s' : State}

theorem mem_startCall {call : Call} {t : Task} (ht : t ∈ (s.startCall call).tasks) :
    t ∈ s.tasks ∨ ∃ peers fresh, t = .gettingPeers s.nextId call peers fresh := by
  unfold State.startCall State.getPeers at ht
  split at ht <;> rcases List.mem_append.1 ht with ht | ht
  · exact .inl ht
  · exact .inr ⟨_, _, List.mem_singleton.1 ht⟩
  · exact .inl ht
  · exact .inr ⟨_, _, List.mem_singleton.1 ht⟩

theorem mem_gotPeers {id : ℕ} {call : Call} {peers : List PeerId} {fresh : Bool} {t : Task}
    (ht : t ∈ (s.gotPeers id call peers fresh).tasks) (hsourced : t.isSourced) : t ∈ s.tasks ∨ t = .settling id call := by
  unfold State.gotPeers at ht
  rcases List.mem_append.1 ht with ht | ht
  · have hloop := Passive.isFrame.foldl (f := fun s peer => s.spawn (.opening ⟨State.rpcOf call, peer, .call id⟩))
      (fun s _ => Passive.spawn s rfl) peers
    have hmem := hloop _ t ht hsourced
    cases fresh <;> exact .inl hmem
  · exact .inr (List.mem_singleton.1 ht)

theorem mem_processIncomingMessage {m : IProtoMessage} {t : Task}
    (ht : t ∈ (s.processIncomingMessage env m).tasks) :
    t ∈ s.tasks ∨ ∃ sc, t = .pushing sc m ∧ s.subscriptionCallbacks.get m.contentTopic = some sc := by
  unfold State.processIncomingMessage at ht
  split at ht
  · exact .inl ht
  split at ht
  · exact .inl ht
  dsimp only at ht
  split at ht
  · exact .inl ht
  rename_i sc hsc
  split at ht
  · exact .inl ht
  · rcases List.mem_append.1 ht with ht | ht
    · exact .inl ht
    · exact .inr ⟨sc, List.mem_singleton.1 ht, hsc⟩

/-- The tasks that matter were there, or the event makes them. -/
theorem tasks_step {e : Event} (h : step env s e = some s') {t : Task} (ht : t ∈ s'.tasks) (hsourced : t.isSourced) :
    t ∈ s.tasks ∨ e.Makes env s t := by
  have hpassive : Passive s s' → t ∈ s.tasks ∨ e.Makes env s t := fun h => .inl (h t ht hsourced)
  cases e with
  | connectionOpened peerId =>
    cases h
    exact .inl ht
  | connectionClosed conn =>
    rw [step] at h
    split at h
    · dsimp only at h
      split at h <;> cases h <;> exact .inl ht
    · cases h
  | peerConnected peerId =>
    cases h
    exact hpassive (Passive.isFrame.onPeerConnected s peerId)
  | peerDisconnected peerId =>
    cases h
    exact hpassive (Passive.isFrame.onPeerDisconnected s peerId)
  | connectionStatus isConnected =>
    cases h
    exact hpassive (Passive.isFrame.onConnectionChange s isConnected)
  | intervalFired id =>
    rw [step] at h
    split at h
    · cases h
      exact hpassive (Passive.isFrame.intervalFired s)
    · cases h
  | subscribe decoders callback =>
    cases h
    unfold State.subscribe at ht
    split at ht
    · exact .inl ht
    · rename_i hsame
      rcases mem_startCall ht with ht | ⟨peers, fresh, heq⟩
      · exact .inl ht
      · exact .inr ⟨by simpa using hsame, peers, fresh, heq⟩
  | called call =>
    cases call with
    | subscribe => cases h
    | _ =>
      cases h
      rcases mem_startCall ht with ht | ⟨peers, fresh, heq⟩
      · exact .inl ht
      · refine .inr ⟨⟨_, peers, fresh, heq⟩, fun decoders callback hcall => ?_⟩
        cases hcall
  | gotPeers id call peers fresh =>
    obtain ⟨s₀, hs₀, rfl⟩ := Option.map_eq_some_iff.1 h
    rcases mem_gotPeers ht hsourced with ht | rfl
    · exact .inl (Passive.resume hs₀ t ht hsourced)
    · exact .inr ⟨rfl, mem_of_resume hs₀⟩
  | resubscribed peers =>
    obtain ⟨s₀, hs₀, rfl⟩ := Option.map_eq_some_iff.1 h
    have hassign : Passive s₀ { s₀ with monitor := { s₀.monitor with peerIds := peers } } := Passive.of_eq rfl
    exact hpassive (((Passive.resume hs₀).trans hassign).trans (Passive.isFrame.resubscribe s₀ peers))
  | streamOpened request conn =>
    rw [step] at h
    split at h
    · obtain ⟨s₀, hs₀, rfl⟩ := Option.map_eq_some_iff.1 h
      exact hpassive (((Passive.resume hs₀).trans (Passive.requestSent s₀ request)).trans (Passive.spawn _ rfl))
    · cases h
  | streamFailed request error =>
    obtain ⟨s₀, hs₀, rfl⟩ := Option.map_eq_some_iff.1 h
    exact hpassive ((Passive.resume hs₀).trans (Passive.answered s₀ request _))
  | answered request connection outcome =>
    rw [step] at h
    split at h
    · obtain ⟨s₀, hs₀, rfl⟩ := Option.map_eq_some_iff.1 h
      have hreplied := (Passive.resume hs₀).trans (Passive.replied s₀ request outcome)
      exact hpassive (hreplied.trans (Passive.answered _ request _))
    · cases h
  | settled id call =>
    rw [step] at h
    split at h
    · cases h
    · obtain ⟨s₀, hs₀, rfl⟩ := Option.map_eq_some_iff.1 h
      exact hpassive ((Passive.resume hs₀).trans (Passive.callSettled s₀ call))
  | restarted id =>
    rw [step] at h
    split at h
    · cases h
    · obtain ⟨s₀, hs₀, rfl⟩ := Option.map_eq_some_iff.1 h
      exact hpassive ((Passive.resume hs₀).trans (Passive.isFrame.startKeepAlive s₀))
  | pushed p m =>
    cases h
    exact mem_processIncomingMessage ht
  | decoded sc m =>
    rw [step] at h
    split at h
    · obtain ⟨s₀, hs₀, rfl⟩ := Option.map_eq_some_iff.1 h
      exact .inl (Passive.resume hs₀ t ht hsourced)
    · cases h
  | notDecoded sc m =>
    rw [step] at h
    split at h
    · cases h
    · exact hpassive (Passive.resume h)

/-! ## Callbacks -/

theorem groupByContentTopic_append (decoders : List IDecoder) (dec : IDecoder) :
    groupByContentTopic (decoders ++ [dec]) = (groupByContentTopic decoders).set dec.contentTopic
      (((groupByContentTopic decoders).get dec.contentTopic).getD [] ++ [dec]) := by
  rw [groupByContentTopic, List.foldl_append]
  rfl

/-- The decoders of an entry are those of its topic. -/
theorem mem_groupByContentTopic {decoders ds : List IDecoder} {topic : String}
    (h : (groupByContentTopic decoders).get topic = some ds) : ∀ d ∈ ds, d ∈ decoders ∧ d.contentTopic = topic := by
  induction decoders using List.reverseRecOn generalizing topic ds with
  | nil => cases h
  | append_singleton decoders dec ih =>
    rw [groupByContentTopic_append] at h
    have hold : ∀ {ds' : List IDecoder}, (groupByContentTopic decoders).get topic = some ds' →
        ∀ d ∈ ds', d ∈ decoders ++ [dec] ∧ d.contentTopic = topic :=
      fun hget d hd => (ih hget d hd).imp_left (List.mem_append_left _)
    by_cases htopic : topic = dec.contentTopic
    · subst htopic
      rw [Map.get_set_self, Option.some.injEq] at h
      subst h
      intro d hd
      rcases List.mem_append.1 hd with hd | hd
      · cases hget : (groupByContentTopic decoders).get dec.contentTopic with
        | none => simp [hget] at hd
        | some ds' => exact hold hget d (by simpa [hget] using hd)
      · cases List.mem_singleton.1 hd
        exact ⟨List.mem_append_right _ (List.mem_singleton_self _), rfl⟩
    · rw [Map.get_set_ne _ _ htopic] at h
      exact hold h

/-- A callback that is registered was before, or is of the call. -/
theorem mem_registerCallbacks {decodersArray : List IDecoder} {callback : Callback} {topic : String}
    {sc : SubscriptionCallback}
    (h : (s.registerCallbacks env decodersArray callback).subscriptionCallbacks.get topic = some sc) :
    s.subscriptionCallbacks.get topic = some sc ∨ topic ≠ env.reservedContentTopic ∧ sc.callback = callback ∧
      ∀ d ∈ sc.decoders, d ∈ decodersArray ∧ d.contentTopic = topic := by
  have hfold : ∀ (entries : List (String × List IDecoder)) (callbacks : Map String SubscriptionCallback),
      (entries.foldl (fun callbacks entry =>
          if entry.1 = env.reservedContentTopic then callbacks
          else callbacks.set entry.1 ⟨entry.2, callback⟩) callbacks).get topic = some sc →
        callbacks.get topic = some sc ∨ topic ≠ env.reservedContentTopic ∧ sc.callback = callback ∧
          (topic, sc.decoders) ∈ entries := by
    intro entries
    induction entries with
    | nil => exact fun _ hget => .inl hget
    | cons entry rest ih =>
      intro callbacks hget
      rcases ih _ hget with hget | ⟨hreserved, hcallback, hmem⟩
      · dsimp only at hget
        split at hget
        · exact .inl hget
        rename_i hreserved
        by_cases htopic : topic = entry.1
        · subst htopic
          rw [Map.get_set_self, Option.some.injEq] at hget
          subst hget
          exact .inr ⟨hreserved, rfl, List.mem_cons_self⟩
        · rw [Map.get_set_ne _ _ htopic] at hget
          exact .inl hget
      · exact .inr ⟨hreserved, hcallback, List.mem_cons_of_mem _ hmem⟩
  rcases hfold _ _ h with hget | ⟨hreserved, hcallback, hmem⟩
  · exact .inl hget
  · exact .inr ⟨hreserved, hcallback, mem_groupByContentTopic (Map.mem_entries_iff.1 hmem)⟩

/-- A callback after an event was there before, or is registered by a call that settles. -/
theorem mem_callbacksAfter {e : Event} {topic : String} {sc : SubscriptionCallback}
    (h : (s.callbacksAfter env e).get topic = some sc) :
    s.subscriptionCallbacks.get topic = some sc ∨ ∃ id decodersArray,
      e = .settled id (.subscribe decodersArray sc.callback) ∧ topic ≠ env.reservedContentTopic ∧
        ∀ d ∈ sc.decoders, d ∈ decodersArray ∧ d.contentTopic = topic := by
  have hforget : ∀ (request : Request) (outcome : Except JsError Bool),
      (forget request outcome s.subscriptionCallbacks).get topic = some sc →
        s.subscriptionCallbacks.get topic = some sc := by
    intro request outcome hget
    unfold forget at hget
    split at hget
    · rw [Map.get_foldl_delete] at hget
      split at hget
      · cases hget
      · exact hget
    · exact hget
  cases e with
  | streamFailed request error => exact .inl (hforget _ _ h)
  | answered request connection outcome => exact .inl (hforget _ _ h)
  | settled id call =>
    cases call with
    | subscribe decodersArray callback =>
      rcases mem_registerCallbacks h with hget | ⟨hreserved, hcallback, hdecoders⟩
      · exact .inl hget
      · exact .inr ⟨id, decodersArray, by rw [hcallback], hreserved, hdecoders⟩
    | unsubscribeAll => cases h
    | _ => exact .inl h
  | _ => exact .inl h

/-! ## The invariant -/

/-- What a subscription was given: its calls of `subscribe`, and the messages that peers pushed. -/
structure Given where
  subscribed : List IDecoder → Callback → Prop
  pushed : IProtoMessage → Prop

/-- A call of `subscribe` that is accepted, with this callback and with decoders of the topic of the subscription. -/
def Given.Accepted (given : Given) (env : Env) (decoders : List IDecoder) (callback : Callback) : Prop :=
  given.subscribed decoders callback ∧ ∀ d ∈ decoders, d.pubsubTopic = env.pubsubTopic

/-- The callback is of such a call, with its decoders for the content topic. -/
def Given.Source (given : Given) (env : Env) (topic : String) (sc : SubscriptionCallback) : Prop :=
  ∃ decoders, given.Accepted env decoders sc.callback ∧ ∀ d ∈ sc.decoders, d ∈ decoders ∧ d.contentTopic = topic

/-- A call of the subscription is suspended. -/
def State.IsCalled (s : State) (call : Call) : Prop :=
  (∃ id peers fresh, Task.gettingPeers id call peers fresh ∈ s.tasks) ∨ ∃ id, Task.settling id call ∈ s.tasks

/-- Everything that callbacks are invoked for was given. -/
structure Sourced (env : Env) (given : Given) (s : State) : Prop where
  calls : ∀ decodersArray callback, s.IsCalled (.subscribe decodersArray callback) →
    ∃ decoders, given.Accepted env decoders callback ∧ decodersArray = env.decodersArray decoders
  callbacks : ∀ topic sc, s.subscriptionCallbacks.get topic = some sc → given.Source env topic sc
  pushing : ∀ sc m, Task.pushing sc m ∈ s.tasks → given.pushed m ∧ given.Source env m.contentTopic sc
  invocations : ∀ c m, (c, m) ∈ s.invocations →
    given.pushed m ∧ ∃ sc, sc.callback = c ∧ given.Source env m.contentTopic sc ∧ sc.decodes env m = true

theorem sourced_init (env : Env) (given : Given) : Sourced env given init where
  calls := by
    rintro decodersArray callback (⟨id, peers, fresh, hmem⟩ | ⟨id, hmem⟩) <;> cases hmem
  callbacks := nofun
  pushing := nofun
  invocations := nofun

theorem Given.Source.mono {given given' : Given}
    (hsub : ∀ decoders c, given.subscribed decoders c → given'.subscribed decoders c) {topic : String}
    {sc : SubscriptionCallback} (h : given.Source env topic sc) : given'.Source env topic sc := by
  obtain ⟨decoders, ⟨hsubscribed, hsame⟩, hdecoders⟩ := h
  exact ⟨decoders, ⟨hsub _ _ hsubscribed, hsame⟩, hdecoders⟩

/-- What was given stays given. -/
theorem Sourced.mono {given given' : Given}
    (hsub : ∀ decoders c, given.subscribed decoders c → given'.subscribed decoders c)
    (hpush : ∀ m, given.pushed m → given'.pushed m) (hs : Sourced env given s) : Sourced env given' s where
  calls decodersArray callback hcalled := by
    obtain ⟨decoders, ⟨hsubscribed, hsame⟩, heq⟩ := hs.calls decodersArray callback hcalled
    exact ⟨decoders, ⟨hsub _ _ hsubscribed, hsame⟩, heq⟩
  callbacks topic sc hget := (hs.callbacks topic sc hget).mono hsub
  pushing sc m hmem := (hs.pushing sc m hmem).imp (hpush m) (Given.Source.mono hsub)
  invocations c m hmem := by
    obtain ⟨hpushed, sc, hcallback, hsource, hdecodes⟩ := hs.invocations c m hmem
    exact ⟨hpush m hpushed, sc, hcallback, hsource.mono hsub, hdecodes⟩

/-! ## Steps -/

/-- A callback is invoked where one of its decoders has decoded a message. -/
theorem invocations_step {e : Event} (h : step env s e = some s') : s'.invocations = s.invocations ∨
    ∃ sc m, sc.decodes env m = true ∧ Task.pushing sc m ∈ s.tasks ∧
      s'.invocations = s.invocations ++ [(sc.callback, m)] := by
  have hresume : ∀ {t : Task} {s₀ : State}, s.resume t = some s₀ → s₀.invocations = s.invocations := by
    intro t s₀ hs₀
    obtain ⟨tasks, -, rfl⟩ := Option.map_eq_some_iff.1 hs₀
    rfl
  have hspec := step_spec h
  cases e with
  | connectionOpened peerId =>
    obtain rfl := hspec
    exact .inl rfl
  | connectionClosed conn =>
    obtain ⟨accepted, rfl, -⟩ := hspec
    exact .inl rfl
  | gotPeers id call peers fresh =>
    obtain ⟨s₀, hs₀, hquiet⟩ := hspec
    have hold := hresume hs₀
    exact .inl (hquiet.invocations.trans hold)
  | resubscribed peers =>
    obtain ⟨s₀, hs₀, hquiet⟩ := hspec
    have hold := hresume hs₀
    exact .inl (hquiet.invocations.trans hold)
  | streamOpened request conn =>
    obtain ⟨-, -, s₀, hs₀, rfl⟩ := hspec
    have hold := hresume hs₀
    rw [State.requestSent]
    split <;> exact .inl hold
  | answered request connection outcome =>
    obtain ⟨-, s₀, hs₀, hquiet⟩ := hspec
    have hreplied : (s₀.replied request outcome).invocations = s₀.invocations := by
      unfold State.replied
      split <;> rfl
    exact .inl ((hquiet.invocations.trans hreplied).trans (hresume hs₀))
  | pushed p m =>
    obtain rfl := hspec
    rw [State.processIncomingMessage]
    split
    · exact .inl rfl
    split
    · exact .inl rfl
    dsimp only
    split
    · exact .inl rfl
    split <;> exact .inl rfl
  | decoded sc m =>
    obtain ⟨hdecodes, s₀, hs₀, rfl⟩ := hspec
    exact .inr ⟨sc, m, hdecodes, mem_of_resume hs₀, by rw [hresume hs₀]⟩
  | notDecoded sc m =>
    obtain ⟨-, hs'⟩ := hspec
    exact .inl (hresume hs')
  | _ => exact .inl hspec.invocations

/-- A step keeps the invariant, where its event was given. -/
theorem sourced_step {given : Given} {e : Event} (hs : Sourced env given s) (h : step env s e = some s')
    (hsub : ∀ decoders c, e = .subscribe decoders c → given.subscribed decoders c)
    (hpush : ∀ p m, e = .pushed p m → given.pushed m) : Sourced env given s' where
  calls := by
    rintro decodersArray callback (⟨id, peers, fresh, hmem⟩ | ⟨id, hmem⟩)
    · rcases tasks_step h hmem rfl with hmem | hmakes
      · exact hs.calls decodersArray callback (.inl ⟨id, peers, fresh, hmem⟩)
      cases e with
      | subscribe decoders callback' =>
        obtain ⟨hsame, peers', fresh', heq⟩ := hmakes
        cases heq
        exact ⟨decoders, ⟨hsub _ _ rfl, hsame⟩, rfl⟩
      | called call =>
        obtain ⟨⟨id', peers', fresh', heq⟩, hne⟩ := hmakes
        cases heq
        exact absurd rfl (hne decodersArray callback)
      | gotPeers => cases hmakes.1
      | pushed p m =>
        obtain ⟨sc, heq, -⟩ := hmakes
        cases heq
      | _ => exact absurd hmakes not_false
    · rcases tasks_step h hmem rfl with hmem | hmakes
      · exact hs.calls decodersArray callback (.inr ⟨id, hmem⟩)
      cases e with
      | gotPeers id' call peers fresh =>
        obtain ⟨heq, hmem⟩ := hmakes
        cases heq
        exact hs.calls decodersArray callback (.inl ⟨id, peers, fresh, hmem⟩)
      | subscribe decoders callback' =>
        obtain ⟨-, peers', fresh', heq⟩ := hmakes
        cases heq
      | called call =>
        obtain ⟨⟨id', peers', fresh', heq⟩, -⟩ := hmakes
        cases heq
      | pushed p m =>
        obtain ⟨sc, heq, -⟩ := hmakes
        cases heq
      | _ => exact absurd hmakes not_false
  callbacks topic sc hget := by
    rw [(callbacks_step h).1] at hget
    rcases mem_callbacksAfter hget with hget | ⟨id, decodersArray, rfl, hreserved, hdecoders⟩
    · exact hs.callbacks topic sc hget
    -- The call that settles was accepted; the reserved content topic has no callback.
    obtain ⟨-, s₀, hs₀, -⟩ := aside_settled 0 h
    obtain ⟨decoders, haccepted, rfl⟩ := hs.calls decodersArray sc.callback (.inr ⟨id, mem_of_resume hs₀⟩)
    refine ⟨decoders, haccepted, fun d hd => ?_⟩
    obtain ⟨hmem, htopic⟩ := hdecoders d hd
    refine ⟨?_, htopic⟩
    unfold Env.decodersArray at hmem
    split at hmem
    · rcases List.mem_append.1 hmem with hmem | hmem
      · exact hmem
      · cases List.mem_singleton.1 hmem
        exact absurd htopic.symm hreserved
    · exact hmem
  pushing sc m hmem := by
    rcases tasks_step h hmem rfl with hmem | hmakes
    · exact hs.pushing sc m hmem
    cases e with
    | pushed p m' =>
      obtain ⟨sc', heq, hget⟩ := hmakes
      cases heq
      exact ⟨hpush p m rfl, hs.callbacks _ sc hget⟩
    | subscribe decoders callback =>
      obtain ⟨-, peers, fresh, heq⟩ := hmakes
      cases heq
    | called call =>
      obtain ⟨⟨id, peers, fresh, heq⟩, -⟩ := hmakes
      cases heq
    | gotPeers => cases hmakes.1
    | _ => exact absurd hmakes not_false
  invocations c m hmem := by
    rcases invocations_step h with heq | ⟨sc, m', hdecodes, hpushing, heq⟩
    · rw [heq] at hmem
      exact hs.invocations c m hmem
    · rw [heq] at hmem
      rcases List.mem_append.1 hmem with hmem | hmem
      · exact hs.invocations c m hmem
      · cases List.mem_singleton.1 hmem
        obtain ⟨hpushed, hsource⟩ := hs.pushing sc m hpushing
        exact ⟨hpushed, sc, rfl, hsource, hdecodes⟩

end

end JsWaku.Filter
