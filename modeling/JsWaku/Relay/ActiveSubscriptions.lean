import JsWaku.Relay.Observers

/-!
# The active subscriptions of Relay

`getActiveSubscriptions` of `Relay` is to give for each configured pubsub topic the content topics with a live
subscription. It gives the keys of the outer map of observers for every one of them. These are the pubsub topics that
were ever subscribed for, since a set of observers that was emptied stays in its maps (`mem_keys_run`). The report is
right where these names happen to be those of the content topics (`reported_iff`); where no content topic is named like a
pubsub topic, only while nothing was subscribed (`reported_iff_of_disjoint`).
-/

namespace JsWaku.Relay

open Transition

variable {Callback Msg : Type}

/-- `getActiveSubscriptions`. -/
def getActiveSubscriptions (env : Env) (s : State Callback Msg) : Map String (List String) :=
  env.pubsubTopics.foldl (fun map pubsubTopic => map.set pubsubTopic s.observers.keys) Map.empty

/-! ## What is to be reported -/

/-- Some decoder was subscribed for the pubsub topic. -/
def SubscribedOn (subs : List (Subscription Callback Msg)) (pubsubTopic : String) : Prop :=
  ∃ sub ∈ subs, ∃ d ∈ sub.decoders, d.pubsubTopic = pubsubTopic

/-- A live subscription has a decoder for these topics. -/
def LiveOn (subs : List (Subscription Callback Msg)) (pubsubTopic contentTopic : String) : Prop :=
  ∃ sub ∈ subs, sub.live = true ∧ ∃ d ∈ sub.decoders, d.isFor pubsubTopic contentTopic

/-- Each configured pubsub topic comes with exactly the content topics that have a live subscription on it. -/
def Reported (env : Env) (subs : List (Subscription Callback Msg)) (active : Map String (List String)) : Prop :=
  ∀ p ∈ env.pubsubTopics, ∃ contentTopics, active.get p = some contentTopics ∧
    ∀ c, c ∈ contentTopics ↔ LiveOn subs p c

/-- A subscription is live on topics exactly if it is due a message on them. -/
theorem liveOn_iff {subs : List (Subscription Callback Msg)} {p c : String} :
    LiveOn subs p c ↔ subs.flatMap (·.due p c) ≠ [] := by
  rw [Ne, List.flatMap_eq_nil_iff, not_forall]
  refine exists_congr fun sub => ?_
  rw [Classical.not_imp]
  refine and_congr_right fun _ => ?_
  unfold Subscription.due
  cases sub.live with
  | false => simp
  | true => simp [List.filter_eq_nil_iff]

/-- In the code, after a run: there is an observer in the set of the topics. -/
theorem liveOn_iff_observersOf {env : Env} {isStarted : Bool} {es : List (Event Callback Msg)} {s : State Callback Msg}
    (hrun : run (step env) (new env isStarted) es = some s) (p c : String) :
    LiveOn (subscriptions es) p c ↔ s.observersOf p c ≠ [] := by
  obtain ⟨entries, h, hsubs⟩ := refines_run es (refines_new env isStarted) hrun
  change entries.map Prod.fst = subscriptions es at hsubs
  rw [liveOn_iff, ← hsubs, ← h.map_observersOf, Ne, List.map_eq_nil_iff]

/-! ## The keys of the observers -/

/-- The loop of `subscribeWithUnsubscribe` has the pubsub topics of its decoders in the map. -/
theorem mem_keys_addObservers (callback : Callback) (s : State Callback Msg)
    (observers : List (String × Observer Callback Msg)) (decoders : List (IDecoder Msg)) (q : String) :
    q ∈ (addObservers callback s observers decoders).1.observers.keys ↔
      q ∈ s.observers.keys ∨ ∃ d ∈ decoders, d.pubsubTopic = q := by
  induction decoders generalizing s observers with
  | nil => simp [addObservers]
  | cons decoder decoders ih =>
    rw [addObservers, ih, Map.mem_keys_set, or_assoc, or_left_comm]
    simp [eq_comm]

/-- An observer that is removed leaves its sets in the maps. -/
theorem mem_keys_removeObserver (s : State Callback Msg) (x : String × Observer Callback Msg) (q : String) :
    q ∈ (removeObserver s x).observers.keys ↔ q ∈ s.observers.keys := by
  obtain ⟨pubsubTopic, observer⟩ := x
  cases hct : s.observers.get pubsubTopic with
  | none => simp only [removeObserver, hct]
  | some ctObs =>
    cases hobs : ctObs.get observer.decoder.contentTopic with
    | none => simp only [removeObserver, hct, hobs]
    | some obs =>
      have hmem : pubsubTopic ∈ s.observers.keys := by
        rw [Map.mem_keys_iff, hct]
        exact Option.some_ne_none _
      simp only [removeObserver, hct, hobs]
      rw [Map.mem_keys_set]
      apply or_iff_right_of_imp
      rintro rfl
      exact hmem

theorem mem_keys_removeObservers (s : State Callback Msg) (observers : List (String × Observer Callback Msg))
    (q : String) : q ∈ (removeObservers s observers).observers.keys ↔ q ∈ s.observers.keys := by
  induction observers generalizing s with
  | nil => rfl
  | cons x observers ih => exact (ih (removeObserver s x)).trans (mem_keys_removeObserver s x q)

/-- A subscription that ends was for its topics still. -/
theorem subscribedOn_modify {subs : List (Subscription Callback Msg)} {call : ℕ} {q : String} :
    SubscribedOn (subs.modify call fun sub => { sub with live := false }) q ↔ SubscribedOn subs q := by
  have hsame : (subs.modify call fun sub => { sub with live := false }).map (·.decoders) = subs.map (·.decoders) := by
    refine List.ext_getElem? fun i => ?_
    rw [List.getElem?_map, List.getElem?_modify, List.getElem?_map]
    cases subs[i]? with
    | none => rfl
    | some sub => by_cases hi : call = i <;> simp [hi]
  have hdecoders : ∀ subs : List (Subscription Callback Msg),
      SubscribedOn subs q ↔ ∃ decoders ∈ subs.map (·.decoders), ∃ d ∈ decoders, d.pubsubTopic = q := by
    intro subs
    simp [SubscribedOn]
  rw [hdecoders, hdecoders, hsame]

/-- A step has in the map the pubsub topics of the decoders that it subscribes. -/
theorem mem_keys_step {env : Env} {s s' : State Callback Msg} {subs : List (Subscription Callback Msg)}
    {e : Event Callback Msg} (h : ∀ q, q ∈ s.observers.keys ↔ SubscribedOn subs q) (hstep : step env s e = some s')
    (q : String) : q ∈ s'.observers.keys ↔ SubscribedOn (subscribed subs e) q := by
  cases e with
  | start =>
    dsimp only [step] at hstep
    split at hstep <;> cases hstep <;> exact h q
  | subscribeWithUnsubscribe decoders callback =>
    cases hstep
    refine (mem_keys_addObservers callback s [] decoders q).trans ?_
    rw [h q]
    simp [SubscribedOn, subscribed, or_and_right, exists_or]
  | unsubscribe call =>
    obtain ⟨observers, -, rfl⟩ := Option.map_eq_some_iff.1 hstep
    rw [mem_keys_removeObservers, h q]
    exact subscribedOn_modify.symm
  | message topic data =>
    cases hstep
    exact h q

/-- After a run the keys are the pubsub topics that were ever subscribed for. -/
theorem mem_keys_run {env : Env} {isStarted : Bool} {es : List (Event Callback Msg)} {s : State Callback Msg}
    (hrun : run (step env) (new env isStarted) es = some s) (q : String) :
    q ∈ s.observers.keys ↔ SubscribedOn (subscriptions es) q := by
  refine run_foldl (P := fun s subs => ∀ q, q ∈ s.observers.keys ↔ SubscribedOn subs q) ?_ es ?_ hrun q
  · intro s subs e s' h hstep
    exact mem_keys_step h hstep
  · intro q
    simp [new, Map.keys, Map.empty, SubscribedOn]

/-! ## The report -/

theorem get_foldl_set {α : Type} (value : α) (keys : List String) (m : Map String α) (key : String) :
    (keys.foldl (fun map key => map.set key value) m).get key = if key ∈ keys then some value else m.get key := by
  induction keys generalizing m with
  | nil => rfl
  | cons first rest ih =>
    rw [List.foldl_cons, ih]
    by_cases hkey : key = first
    · simp [hkey]
    · simp [hkey, Map.get_set_ne]

/-- The report has the keys of the observers under each configured pubsub topic. -/
theorem reported_iff_keys {env : Env} {s : State Callback Msg} {subs : List (Subscription Callback Msg)} :
    Reported env subs (getActiveSubscriptions env s) ↔
      ∀ p ∈ env.pubsubTopics, ∀ c, c ∈ s.observers.keys ↔ LiveOn subs p c := by
  refine forall₂_congr fun p hp => ?_
  have hget : (getActiveSubscriptions env s).get p = some s.observers.keys := by
    rw [getActiveSubscriptions, get_foldl_set, if_pos hp]
  rw [hget]
  simp

/-- Where no decoder has a content topic that is named like a pubsub topic subscribed for, the report is right only if
nothing was subscribed or no pubsub topic is configured. -/
theorem reported_iff_of_disjoint (env : Env) (isStarted : Bool) (es : List (Event Callback Msg))
    {s : State Callback Msg} (hrun : run (step env) (new env isStarted) es = some s)
    (hdisjoint : ∀ sub ∈ subscriptions es, ∀ d ∈ sub.decoders, ¬SubscribedOn (subscriptions es) d.contentTopic) :
    Reported env (subscriptions es) (getActiveSubscriptions env s) ↔
      env.pubsubTopics = [] ∨ ∀ q, ¬SubscribedOn (subscriptions es) q := by
  have hkeys := mem_keys_run hrun
  simp only [reported_iff_keys, hkeys]
  constructor
  · intro h
    by_contra hneither
    rw [not_or, not_forall] at hneither
    obtain ⟨hne, q, hq⟩ := hneither
    obtain ⟨p, hp⟩ := List.exists_mem_of_ne_nil _ hne
    obtain ⟨sub, hsub, -, d, hd, hfor⟩ := (h p hp q).1 (not_not.1 hq)
    obtain ⟨-, rfl⟩ := of_decide_eq_true hfor
    exact hdisjoint sub hsub d hd (not_not.1 hq)
  · rintro (hnone | hnone) p hp c
    · rw [hnone] at hp
      cases hp
    · refine iff_of_false (hnone c) ?_
      rintro ⟨sub, hsub, -, d, hd, -⟩
      exact hnone d.pubsubTopic ⟨sub, hsub, d, hd, rfl⟩

/-- **The active subscriptions are reported exactly if on each configured pubsub topic the content topics with a live
subscription have the names of the pubsub topics that were ever subscribed for.** -/
theorem reported_iff (env : Env) (isStarted : Bool) (es : List (Event Callback Msg)) {s : State Callback Msg}
    (hrun : run (step env) (new env isStarted) es = some s) :
    Reported env (subscriptions es) (getActiveSubscriptions env s) ↔
      ∀ p ∈ env.pubsubTopics, ∀ c, LiveOn (subscriptions es) p c ↔ SubscribedOn (subscriptions es) c := by
  rw [reported_iff_keys]
  refine forall₂_congr fun p _ => forall_congr' fun c => ?_
  rw [mem_keys_run hrun]
  exact iff_comm

/-- A content topic that has the name of its pubsub topic. -/
def sameName : List (Event ℕ String) := [.subscribeWithUnsubscribe [decoderFor "/waku/2/rs/1/0"] 5]

theorem reported_iff_sameName :
    ∃ s, run (step (bareEnv "a")) (new (bareEnv "a") true) sameName = some s ∧
      Reported (bareEnv "a") (subscriptions sameName) (getActiveSubscriptions (bareEnv "a") s) := by
  refine ⟨_, rfl, (reported_iff (bareEnv "a") true sameName rfl).2 fun p hp c => ?_⟩
  obtain rfl : p = "/waku/2/rs/1/0" := List.mem_singleton.1 hp
  have hsubs : subscriptions sameName = [⟨[decoderFor "/waku/2/rs/1/0"], 5, true⟩] := rfl
  rw [hsubs]
  simp [LiveOn, SubscribedOn, IDecoder.isFor, decoderFor]

/-- A content topic is live, and the pubsub topic is reported. -/
theorem not_reported :
    ¬∀ (env : Env) (es : List (Event ℕ String)) (s : State ℕ String), run (step env) (new env true) es = some s →
      Reported env (subscriptions es) (getActiveSubscriptions env s) := by
  intro h
  obtain ⟨contentTopics, hget, hall⟩ := h (bareEnv "a") [.subscribeWithUnsubscribe [decoderFor "a"] 5] _ rfl
    "/waku/2/rs/1/0" (by decide)
  obtain rfl : ["/waku/2/rs/1/0"] = contentTopics := Option.some.inj hget
  have hlive := (hall "/waku/2/rs/1/0").1 List.mem_cons_self
  simp [LiveOn, subscriptions, subscribed, IDecoder.isFor, decoderFor] at hlive

end JsWaku.Relay
