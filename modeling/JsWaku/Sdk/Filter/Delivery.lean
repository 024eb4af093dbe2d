import JsWaku.Sdk.Filter.Frame

/-!
# Delivery of pushed messages

A message is handed to the callback that its first push to be processed finds registered; every later push of it is
dropped, whatever callbacks are registered by then. Of all steps only a push hands a message over (`delivery_step`), and
only one that was not received before (`delivery_pushed`). So a callback that some push finds is invoked exactly once
iff no push finds a callback which the message, received before, was not handed to (`delivered_once_iff`). The callbacks
of a subscription are registered after every peer has answered its request, and what the peers push until then is lost.
-/

namespace JsWaku.Filter

open Transition

/-! ## What was handed over -/

/-- A suspended `pushMessage` that will invoke the callback with the message. -/
def Task.hands (env : Env) (c : Callback) (m : IProtoMessage) : Task → Bool
  | pushing subscriptionCallback message =>
    subscriptionCallback.callback = c && message = m && subscriptionCallback.decodes env message
  | _ => false

/-- A suspended `pushMessage`. -/
def Task.isPushing : Task → Bool
  | pushing _ _ => true
  | _ => false

/-- How often the message was handed to the callback: invoked with it, or about to be. -/
def State.handed (env : Env) (s : State) (c : Callback) (m : IProtoMessage) : ℕ :=
  s.invocations.count (c, m) + s.tasks.countP (Task.hands env c m)

/-- The message was received, by its hash. -/
def State.hasReceived (env : Env) (s : State) (m : IProtoMessage) : Bool :=
  match MessageHash.messageHashStr env.sha256 env.pubsubTopic (.proto m) with
  | .ok hash => s.monitor.receivedMessages.contains hash
  | .error _ => false

/-- The callback registered for the content topic of the message, if one of its decoders decodes it. No decoder has the
empty topic. -/
def State.found (env : Env) (s : State) (m : IProtoMessage) : Option SubscriptionCallback :=
  if m.contentTopic = "" then none
  else (s.subscriptionCallbacks.get m.contentTopic).filter fun subscriptionCallback => subscriptionCallback.decodes env m

section

variable {env : Env} {s s' : State}

theorem hands_isActive {c : Callback} {m : IProtoMessage} (t : Task) (h : t.hands env c m) : t.isActive := by
  cases t <;> simp [Task.hands, Task.isActive] at *

/-- The same was received and handed over. -/
def SameDelivery (env : Env) (s s' : State) : Prop :=
  s'.monitor.receivedMessages = s.monitor.receivedMessages ∧ ∀ c m, s'.handed env c m = s.handed env c m

theorem Quiet.sameDelivery (h : Quiet s s') : SameDelivery env s s' :=
  ⟨h.received, fun c m => by rw [State.handed, State.handed, h.invocations, h.tasks _ hands_isActive]⟩

theorem SameDelivery.trans {s₁ s₂ s₃ : State} (h : SameDelivery env s₁ s₂) (h' : SameDelivery env s₂ s₃) :
    SameDelivery env s₁ s₃ :=
  ⟨h'.1.trans h.1, fun c m => (h'.2 c m).trans (h.2 c m)⟩

/-- What was received and handed over depends on three fields. -/
theorem sameDelivery_of_eq (hr : s'.monitor.receivedMessages = s.monitor.receivedMessages)
    (hi : s'.invocations = s.invocations) (ht : s'.tasks = s.tasks) : SameDelivery env s s' :=
  ⟨hr, fun c m => by rw [State.handed, State.handed, hi, ht]⟩

/-- Taking a call up that hands nothing over. -/
theorem sameDelivery_resume {t : Task} (hs : s.resume t = some s') (h : ∀ c m, t.hands env c m = false) :
    SameDelivery env s s' := by
  obtain ⟨tasks, htake, rfl⟩ := Option.map_eq_some_iff.1 hs
  refine ⟨rfl, ?_⟩
  intro c m
  have hcount := countP_take htake (Task.hands env c m)
  rw [h c m] at hcount
  simp only [State.handed]
  rw [hcount]
  rfl

theorem sameDelivery_spawn {t : Task} (s : State) (h : ∀ c m, t.hands env c m = false) :
    SameDelivery env s (s.spawn t) :=
  ⟨rfl, fun c m => by simp [State.handed, State.spawn, List.countP_append, h c m]⟩

theorem sameDelivery_requestSent (s : State) (request : Request) : SameDelivery env s (s.requestSent request) := by
  rw [State.requestSent]
  split <;> exact sameDelivery_of_eq rfl rfl rfl

theorem sameDelivery_replied (s : State) (request : Request) (outcome : Except JsError Bool) :
    SameDelivery env s (s.replied request outcome) := by
  unfold State.replied
  split <;> exact sameDelivery_of_eq rfl rfl rfl

/-- The invocation takes the place of the suspended call. -/
theorem sameDelivery_decoded {subscriptionCallback : SubscriptionCallback} {m : IProtoMessage}
    (hdecodes : subscriptionCallback.decodes env m = true) (hs : s.resume (.pushing subscriptionCallback m) = some s') :
    SameDelivery env s { s' with invocations := s'.invocations ++ [(subscriptionCallback.callback, m)] } := by
  obtain ⟨tasks, htake, rfl⟩ := Option.map_eq_some_iff.1 hs
  refine ⟨rfl, ?_⟩
  intro c m'
  have hcount := countP_take htake (Task.hands env c m')
  simp only [State.handed, List.count_append, List.count_singleton, hcount]
  by_cases hsame : subscriptionCallback.callback = c ∧ m = m'
  · obtain ⟨rfl, rfl⟩ := hsame
    simp [Task.hands, hdecodes]
    omega
  · have hne : ¬((subscriptionCallback.callback, m) = (c, m')) := fun h => hsame (Prod.mk.inj h)
    have hhands : (Task.pushing subscriptionCallback m).hands env c m' = false := by
      rw [Task.hands]
      simp only [Bool.and_eq_false_iff, decide_eq_false_iff_not]
      exact Or.inl (not_and_or.1 hsame)
    simp [hne, hhands]

/-! ## Steps -/

/-- Only a push hands a message over. -/
theorem delivery_step {e : Event} (h : step env s e = some s') (hpush : ∀ p m, e ≠ .pushed p m) :
    SameDelivery env s s' := by
  have hspec := step_spec h
  cases e with
  | pushed p m => exact absurd rfl (hpush p m)
  | connectionOpened peerId =>
    obtain rfl := hspec
    exact sameDelivery_of_eq rfl rfl rfl
  | connectionClosed conn =>
    obtain ⟨accepted, rfl, -⟩ := hspec
    exact sameDelivery_of_eq rfl rfl rfl
  | gotPeers id call peers fresh =>
    obtain ⟨s₀, hs₀, hquiet⟩ := hspec
    have hassign : SameDelivery env s₀
        { s₀ with monitor := { s₀.monitor with peerIds := if fresh then peers else s₀.monitor.peerIds } } :=
      sameDelivery_of_eq rfl rfl rfl
    exact ((Quiet.resume hs₀ rfl).sameDelivery.trans hassign).trans hquiet.sameDelivery
  | resubscribed peers =>
    obtain ⟨s₀, hs₀, hquiet⟩ := hspec
    have hassign : SameDelivery env s₀ { s₀ with monitor := { s₀.monitor with peerIds := peers } } :=
      sameDelivery_of_eq rfl rfl rfl
    exact ((Quiet.resume hs₀ rfl).sameDelivery.trans hassign).trans hquiet.sameDelivery
  | streamOpened request conn =>
    obtain ⟨-, -, s₀, hs₀, rfl⟩ := hspec
    exact ((Quiet.resume hs₀ rfl).sameDelivery.trans (sameDelivery_requestSent s₀ request)).trans
      (sameDelivery_spawn _ fun c m => rfl)
  | answered request connection outcome =>
    obtain ⟨-, s₀, hs₀, hquiet⟩ := hspec
    exact ((sameDelivery_resume hs₀ fun c m => rfl).trans (sameDelivery_replied s₀ request outcome)).trans
      hquiet.sameDelivery
  | decoded subscriptionCallback m =>
    obtain ⟨hdecodes, s₀, hs₀, rfl⟩ := hspec
    exact sameDelivery_decoded hdecodes hs₀
  | notDecoded subscriptionCallback m =>
    obtain ⟨hdecodes, hs'⟩ := hspec
    refine sameDelivery_resume hs' ?_
    intro c m'
    simp only [Task.hands, hdecodes, Bool.and_false]
  | _ => exact Quiet.sameDelivery hspec

/-- A push of a message not received before hands it to the callback it finds; it is received from then on. -/
theorem delivery_pushed {p : PeerId} {m : IProtoMessage} (h : step env s (.pushed p m) = some s') :
    s'.hasReceived env m = true ∧ (∀ m', s.hasReceived env m' = true → s'.hasReceived env m' = true) ∧
      ∀ c m', s'.handed env c m' = s.handed env c m' +
        if s.hasReceived env m = false ∧ m' = m ∧ (s.found env m).map (·.callback) = some c then 1 else 0 := by
  cases h
  obtain ⟨hash, hhash⟩ := MessageHash.messageHashStr_proto env.sha256 env.pubsubTopic m
  rw [State.processIncomingMessage]
  simp only [hhash]
  by_cases hold : hash ∈ s.monitor.receivedMessages
  · have hreceived : s.hasReceived env m = true := by simp [State.hasReceived, hhash, hold]
    rw [if_pos hold]
    exact ⟨hreceived, fun m' hm' => hm', by simp [hreceived]⟩
  · have hreceived : s.hasReceived env m = false := by simp [State.hasReceived, hhash, hold]
    have hnow : ∀ s₁ : State, s₁.monitor.receivedMessages = hash :: s.monitor.receivedMessages →
        s₁.hasReceived env m = true ∧ ∀ m', s.hasReceived env m' = true → s₁.hasReceived env m' = true := by
      intro s₁ hs₁
      constructor
      · simp [State.hasReceived, hhash, hs₁]
      · intro m' hm'
        obtain ⟨hash', hhash'⟩ := MessageHash.messageHashStr_proto env.sha256 env.pubsubTopic m'
        simp only [State.hasReceived, hhash', hs₁, List.contains_iff_mem] at hm' ⊢
        exact List.mem_cons_of_mem _ hm'
    rw [if_neg hold]
    cases hget : s.subscriptionCallbacks.get m.contentTopic with
    | none =>
      have hfound : s.found env m = none := by simp [State.found, hget]
      refine ⟨(hnow _ rfl).1, (hnow _ rfl).2, ?_⟩
      intro c m'
      simp [hfound, State.handed]
    | some subscriptionCallback =>
      by_cases hempty : m.contentTopic = ""
      · have hfound : s.found env m = none := by simp [State.found, hempty]
        simp only [if_pos hempty]
        refine ⟨(hnow _ rfl).1, (hnow _ rfl).2, ?_⟩
        intro c m'
        simp [hfound, State.handed]
      · simp only [if_neg hempty]
        refine ⟨(hnow _ rfl).1, (hnow _ rfl).2, ?_⟩
        intro c m'
        simp only [State.handed, State.spawn, List.countP_append, List.countP_singleton, hreceived, true_and]
        rw [← Nat.add_assoc]
        congr 1
        cases hdecodes : subscriptionCallback.decodes env m with
        | false => simp [State.found, hempty, hget, Task.hands, hdecodes, Option.filter]
        | true =>
          have hfound : s.found env m = some subscriptionCallback := by
            simp [State.found, hempty, hget, hdecodes, Option.filter]
          rw [hfound]
          by_cases hm : m' = m
          · subst hm
            simp [Task.hands, hdecodes]
          · simp [Task.hands, hm, Ne.symm hm]

/-- Steps forget nothing: neither what was received nor what was handed over. -/
theorem delivery_mono {e : Event} (h : step env s e = some s') :
    (∀ m, s.hasReceived env m = true → s'.hasReceived env m = true) ∧ ∀ c m, s.handed env c m ≤ s'.handed env c m := by
  by_cases hpush : ∃ p m, e = .pushed p m
  · obtain ⟨p, m, rfl⟩ := hpush
    obtain ⟨-, hreceived, hhanded⟩ := delivery_pushed h
    exact ⟨hreceived, fun c m' => by rw [hhanded]; omega⟩
  · obtain ⟨hreceived, hhanded⟩ := delivery_step h fun p m heq => hpush ⟨p, m, heq⟩
    exact ⟨fun m hm => by rw [State.hasReceived, hreceived]; exact hm, fun c m => (hhanded c m).ge⟩

/-- A message that was received and not handed to a callback never will be. -/
def Missed (env : Env) (c : Callback) (m : IProtoMessage) (s : State) : Prop :=
  s.hasReceived env m = true ∧ s.handed env c m = 0

theorem missed_step {c : Callback} {m : IProtoMessage} {e : Event} (hmissed : Missed env c m s)
    (h : step env s e = some s') : Missed env c m s' := by
  obtain ⟨hreceived, hhanded⟩ := hmissed
  refine ⟨(delivery_mono h).1 m hreceived, ?_⟩
  by_cases hpush : ∃ p m', e = .pushed p m'
  · obtain ⟨p, m', rfl⟩ := hpush
    rw [(delivery_pushed h).2.2, hhanded, if_neg]
    rintro ⟨hnew, rfl, -⟩
    rw [hreceived] at hnew
    cases hnew
  · rw [(delivery_step h fun p m' heq => hpush ⟨p, m', heq⟩).2, hhanded]

/-- A message is handed to a callback at most once, and then it was received. -/
def AtMostOnce (env : Env) (s : State) : Prop :=
  ∀ c m, s.handed env c m ≤ 1 ∧ (0 < s.handed env c m → s.hasReceived env m = true)

theorem atMostOnce_step {e : Event} (hs : AtMostOnce env s) (h : step env s e = some s') : AtMostOnce env s' := by
  intro c m
  obtain ⟨hle, hpos⟩ := hs c m
  by_cases hpush : ∃ p m', e = .pushed p m'
  · obtain ⟨p, m', rfl⟩ := hpush
    obtain ⟨hnow, hreceived, hhanded⟩ := delivery_pushed h
    rw [hhanded]
    split
    · rename_i hcond
      obtain ⟨hnew, rfl, -⟩ := hcond
      have hzero : s.handed env c m = 0 := by
        by_contra hne
        rw [hpos (Nat.pos_of_ne_zero hne)] at hnew
        cases hnew
      exact ⟨by omega, fun _ => hnow⟩
    · exact ⟨hle, fun h => hreceived m (hpos h)⟩
  · rw [(delivery_step h fun p m' heq => hpush ⟨p, m', heq⟩).2]
    exact ⟨hle, fun hp => (delivery_mono h).1 m (hpos hp)⟩

/-! ## Runs -/

/-- The message of a push. -/
def Event.message : Event → Option IProtoMessage
  | pushed _ m => some m
  | _ => none

/-- A push finds no callback, or its message is new, or it was handed to that callback before. -/
def FirstFinds (env : Env) (s : State) (e : Event) : Prop :=
  ∀ m ∈ e.message, ∀ subscriptionCallback ∈ s.found env m,
    s.hasReceived env m = false ∨ 0 < s.handed env subscriptionCallback.callback m

instance (s : State) (e : Event) : Decidable (FirstFinds env s e) :=
  inferInstanceAs (Decidable (∀ m ∈ e.message, ∀ subscriptionCallback ∈ s.found env m, _))

/-- **A callback is invoked exactly once iff the first push found it.** In every run after which no `pushMessage` is in
progress: every callback that a push of a message found, registered for its content topic and with a decoder that
decodes it, was invoked with the message exactly once, iff no push of a message received before found a callback to
which that message had not been handed. -/
theorem delivered_once_iff (env : Env) (es : List Event) (s : State) (hrun : run (step env) init es = some s)
    (hdone : s.tasks.all fun t => !t.isPushing) :
    (∀ es₁ p m es₂ s₁ subscriptionCallback, es = es₁ ++ .pushed p m :: es₂ → run (step env) init es₁ = some s₁ →
      s₁.found env m = some subscriptionCallback →
      s.invocations.count (subscriptionCallback.callback, m) = 1) ↔
    Meets (step env) (FirstFinds env) init es := by
  have hcount : ∀ c m, s.handed env c m = s.invocations.count (c, m) := by
    intro c m
    have hzero : s.tasks.countP (Task.hands env c m) = 0 := by
      rw [List.countP_eq_zero]
      intro t ht hhands
      have := List.all_eq_true.1 hdone t ht
      cases t <;> simp [Task.isPushing, Task.hands] at *
    rw [State.handed, hzero, Nat.add_zero]
  rw [meets_iff]
  constructor
  · rintro honce es₁ e es₂ s₁ rfl hrun₁
    rw [run_append, hrun₁, Option.bind_some] at hrun
    obtain ⟨s₂, hstep, hrun₂⟩ := run_cons.1 hrun
    cases e with
    | pushed p m =>
      rintro _ ⟨⟩ subscriptionCallback hfound
      by_contra hno
      obtain ⟨hold, hzero⟩ := not_or.1 hno
      have hmissed : Missed env subscriptionCallback.callback m s₁ :=
        ⟨Bool.not_eq_false _ ▸ hold, Nat.eq_zero_of_not_pos hzero⟩
      have hend := run_invariant (fun s e s' => missed_step) es₂ (missed_step hmissed hstep) hrun₂
      have hone := honce es₁ p m es₂ s₁ subscriptionCallback rfl hrun₁ hfound
      rw [← hcount, hend.2] at hone
      cases hone
    | _ => simp [FirstFinds, Event.message]
  · rintro hfirst es₁ p m es₂ s₁ subscriptionCallback rfl hrun₁ hfound
    have hmost : AtMostOnce env s :=
      run_invariant (fun s e s' => atMostOnce_step) _ (fun c m => ⟨Nat.zero_le _, fun h => absurd h (lt_irrefl 0)⟩) hrun
    rw [run_append, hrun₁, Option.bind_some] at hrun
    obtain ⟨s₂, hstep, hrun₂⟩ := run_cons.1 hrun
    have hhanded : 0 < s₂.handed env subscriptionCallback.callback m := by
      rcases hfirst es₁ _ es₂ s₁ rfl hrun₁ m rfl subscriptionCallback hfound with hnew | hpos
      · rw [(delivery_pushed hstep).2.2, if_pos ⟨hnew, rfl, by rw [hfound]; rfl⟩]
        exact Nat.succ_pos _
      · exact lt_of_lt_of_le hpos ((delivery_mono hstep).2 _ _)
    have hend : 0 < s.handed env subscriptionCallback.callback m :=
      run_invariant (P := fun s => 0 < s.handed env subscriptionCallback.callback m)
        (fun s e s' hs h => lt_of_lt_of_le hs ((delivery_mono h).2 _ _)) es₂ hhanded hrun₂
    have hle := (hmost subscriptionCallback.callback m).1
    rw [hcount] at hend hle
    omega

end

/-! ## Two runs -/

/-- A call of `subscribe` for one peer, which has accepted the request. -/
def subscribeCall : List Event :=
  [.connectionOpened "a", .peerConnected "a", .subscribe [sampleDecoder] 7,
    .gotPeers 1 (.subscribe [sampleDecoder] 7) ["a"] true,
    .streamOpened ⟨.subscribe ["c"], "a", .call 1⟩ ⟨0, "a", ["peer-manager-lock"]⟩,
    .answered ⟨.subscribe ["c"], "a", .call 1⟩ 0 (.ok true)]

/-- The call settles, the peer pushes a message, and it is decoded. -/
def deliveredRun : List Event :=
  subscribeCall ++ [.settled 1 (.subscribe [sampleDecoder] 7), .pushed "a" MessageHash.oneNanosecond,
    .pushed "b" MessageHash.oneNanosecond, .decoded ⟨[sampleDecoder], 7⟩ MessageHash.oneNanosecond]

/-- The peer pushes the message before the call settles; it is pushed once more afterwards. -/
def lostRun : List Event :=
  subscribeCall ++ [.pushed "a" MessageHash.oneNanosecond, .settled 1 (.subscribe [sampleDecoder] 7),
    .pushed "b" MessageHash.oneNanosecond]

/-- After the first run the callback was invoked once. -/
theorem delivered_once_iff_deliveredRun :
    (run (step sampleEnv) init deliveredRun).map (fun s => s.invocations.count (7, MessageHash.oneNanosecond)) =
      some 1 := by
  have hrun : (run (step sampleEnv) init deliveredRun).isSome = true := by decide +kernel
  obtain ⟨s, hs⟩ := Option.isSome_iff_exists.1 hrun
  have hdone : ∀ s ∈ run (step sampleEnv) init deliveredRun, s.tasks.all fun t => !t.isPushing := by decide +kernel
  have hmeets : Meets (step sampleEnv) (FirstFinds sampleEnv) init deliveredRun := by decide +kernel
  have hbefore : (run (step sampleEnv) init (deliveredRun.take 7)).isSome = true := by decide +kernel
  obtain ⟨s₁, hs₁⟩ := Option.isSome_iff_exists.1 hbefore
  have hfound : ∀ s₁ ∈ run (step sampleEnv) init (deliveredRun.take 7),
      s₁.found sampleEnv MessageHash.oneNanosecond = some ⟨[sampleDecoder], 7⟩ := by decide +kernel
  rw [hs, Option.map_some, (delivered_once_iff sampleEnv deliveredRun s hs (hdone s hs)).2 hmeets
    (deliveredRun.take 7) "a" MessageHash.oneNanosecond (deliveredRun.drop 8) s₁ ⟨[sampleDecoder], 7⟩ rfl hs₁
    (hfound s₁ hs₁)]

/-- After the second run, whose one message has no other with its hash, the callback was not invoked. -/
theorem not_delivered :
    ¬∀ (es : List Event) (s : State),
      (∀ m ∈ es.filterMap Event.message, ∀ m' ∈ es.filterMap Event.message,
        MessageHash.messageHashStr sampleEnv.sha256 sampleEnv.pubsubTopic (.proto m) =
          MessageHash.messageHashStr sampleEnv.sha256 sampleEnv.pubsubTopic (.proto m') → m = m') →
      run (step sampleEnv) init es = some s → (s.tasks.all fun t => !t.isPushing) →
      ∀ es₁ p m es₂ s₁ subscriptionCallback, es = es₁ ++ .pushed p m :: es₂ → run (step sampleEnv) init es₁ = some s₁ →
        s₁.found sampleEnv m = some subscriptionCallback →
        s.invocations.count (subscriptionCallback.callback, m) = 1 := by
  intro h
  have hrun : (run (step sampleEnv) init lostRun).isSome = true := by decide +kernel
  obtain ⟨s, hs⟩ := Option.isSome_iff_exists.1 hrun
  have hend : ∀ s ∈ run (step sampleEnv) init lostRun,
      (s.tasks.all fun t => !t.isPushing) ∧ s.invocations = [] := by decide +kernel
  have hbefore : (run (step sampleEnv) init (lostRun.take 8)).isSome = true := by decide +kernel
  obtain ⟨s₁, hs₁⟩ := Option.isSome_iff_exists.1 hbefore
  have hfound : ∀ s₁ ∈ run (step sampleEnv) init (lostRun.take 8),
      s₁.found sampleEnv MessageHash.oneNanosecond = some ⟨[sampleDecoder], 7⟩ := by decide +kernel
  have hsame : ∀ m ∈ lostRun.filterMap Event.message, m = MessageHash.oneNanosecond := by decide +kernel
  have hcount := h lostRun s (fun m hm m' hm' _ => (hsame m hm).trans (hsame m' hm').symm) hs (hend s hs).1
    (lostRun.take 8) "b" MessageHash.oneNanosecond [] s₁ ⟨[sampleDecoder], 7⟩ rfl hs₁ (hfound s₁ hs₁)
  rw [(hend s hs).2] at hcount
  cases hcount

end JsWaku.Filter
