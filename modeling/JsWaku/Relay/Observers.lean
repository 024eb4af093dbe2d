import JsWaku.Core.Message
import JsWaku.Lib.Transition
import JsWaku.Runtime.Map

/-!
# The observers of Relay

Subscriptions and incoming messages of `Relay`, `packages/relay/src/relay.ts`. Its observers are objects in sets under a
pubsub topic and a content topic; the function that ends a subscription removes its observers by identity. Decoders are
code of the caller, and the order in which they end is left out: the calls of the callbacks are listed by observer.

Over it stands what Relay is for, a list of subscriptions that are live or not (`Subscription`). The code refines it
(`Refines.step`), so that a message calls for each live subscription and each of its decoders for the topics
(`calls_eq_due`). A message with the empty content topic is skipped, and a subscription may have two decoders for the
same topics (`calls_ne_live`).
-/

namespace JsWaku.Relay

open Transition

variable {Callback Msg : Type}

/-! ## Data -/

/-- `IDecoder`: user code, which may throw. -/
structure IDecoder (Msg : Type) where
  pubsubTopic : String
  contentTopic : String
  fromWireToProtoObj : Bytes → Except JsError (Option IProtoMessage)
  fromProtoObj : String → IProtoMessage → Except JsError (Option Msg)

/-- An `Observer`, with its identity. -/
structure Observer (Callback Msg : Type) where
  object : ℕ
  decoder : IDecoder Msg
  callback : Callback

/-- The configured pubsub topics, a set, and `fromWireToProtoObj` of the default decoder. -/
structure Env where
  pubsubTopics : List String
  nodup : pubsubTopics.Nodup
  defaultDecoder : Bytes → Except JsError (Option IProtoMessage)

/-- The observers under their topics, the observers in the functions that were returned, and the pubsub topics whose
messages are listened to. -/
structure State (Callback Msg : Type) where
  observers : Map String (Map String (List (Observer Callback Msg)))
  nextObject : ℕ
  unsubscribes : List (List (String × Observer Callback Msg))
  isStarted : Bool
  listeners : List String

/-- A call; `unsubscribe` of the function that a call of `subscribeWithUnsubscribe` returned, or a message. -/
inductive Event (Callback Msg : Type)
  | start
  | subscribeWithUnsubscribe (decoders : List (IDecoder Msg)) (callback : Callback)
  | unsubscribe (call : ℕ)
  | message (topic : String) (data : Bytes)

/-! ## The code -/

/-- `observers.get(pubsubTopic)?.get(contentTopic)`, no observers if there is no set. -/
def State.observersOf (s : State Callback Msg) (pubsubTopic contentTopic : String) : List (Observer Callback Msg) :=
  ((s.observers.get pubsubTopic).bind (·.get contentTopic)).getD []

/-- `pushOrInitMapSet` of a new object. -/
def pushOrInitMapSet {α : Type} (map : Map String (List α)) (key : String) (newValue : α) : Map String (List α) :=
  match map.get key with
  | none => (map.set key []).set key [newValue]
  | some arr => map.set key (arr ++ [newValue])

/-- The loop of `subscribeWithUnsubscribe`: the state and the observers for the returned function. -/
def addObservers (callback : Callback) :
    State Callback Msg → List (String × Observer Callback Msg) → List (IDecoder Msg) →
      State Callback Msg × List (String × Observer Callback Msg)
  | s, observers, [] => (s, observers)
  | s, observers, decoder :: decoders =>
    let ctObs := (s.observers.get decoder.pubsubTopic).getD Map.empty
    let observer : Observer Callback Msg := ⟨s.nextObject, decoder, callback⟩
    let ctObs := pushOrInitMapSet ctObs decoder.contentTopic observer
    addObservers callback
      { s with observers := s.observers.set decoder.pubsubTopic ctObs, nextObject := s.nextObject + 1 }
      (observers ++ [(decoder.pubsubTopic, observer)]) decoders

/-- `subscribeWithUnsubscribe`. -/
def subscribeWithUnsubscribe (s : State Callback Msg) (decoders : List (IDecoder Msg)) (callback : Callback) :
    State Callback Msg :=
  let (s, observers) := addObservers callback s [] decoders
  { s with unsubscribes := s.unsubscribes ++ [observers] }

/-- One round of `removeObservers`. -/
def removeObserver (s : State Callback Msg) : String × Observer Callback Msg → State Callback Msg
  | (pubsubTopic, observer) =>
    match s.observers.get pubsubTopic with
    | none => s
    | some ctObs =>
      let contentTopic := observer.decoder.contentTopic
      match ctObs.get contentTopic with
      | none => s
      | some obs =>
        let obs := obs.filter fun o => o.object ≠ observer.object
        { s with observers := s.observers.set pubsubTopic (ctObs.set contentTopic obs) }

/-- `removeObservers`. -/
def removeObservers (s : State Callback Msg) (observers : List (String × Observer Callback Msg)) : State Callback Msg :=
  observers.foldl removeObserver s

/-- What an observer does with a message: the call of its callback, unless the decoder throws or has nothing. -/
def Observer.notify (o : Observer Callback Msg) (pubsubTopic : String) (bytes : Bytes) : Option (Callback × Msg) :=
  match o.decoder.fromWireToProtoObj bytes with
  | .ok (some protoMsg) =>
    match o.decoder.fromProtoObj pubsubTopic protoMsg with
    | .ok (some msg) => some (o.callback, msg)
    | _ => none
  | _ => none

section

variable (env : Env)

/-- `processIncomingMessage`: the calls it makes. -/
def processIncomingMessage (s : State Callback Msg) (pubsubTopic : String) (bytes : Bytes) : List (Callback × Msg) :=
  match env.defaultDecoder bytes with
  | .ok (some topicOnlyMsg) =>
    if topicOnlyMsg.contentTopic = "" then []
    else (s.observersOf pubsubTopic topicOnlyMsg.contentTopic).filterMap fun o => o.notify pubsubTopic bytes
  | _ => []

/-- A `gossipsub:message`, which every listener gets: the calls that are made. -/
def gossipsubMessage (s : State Callback Msg) (topic : String) (data : Bytes) : List (Callback × Msg) :=
  s.listeners.flatMap fun pubsubTopic => if topic ≠ pubsubTopic then [] else processIncomingMessage env s topic data

/-- The constructor, with gossipsub started or not. -/
def new (isStarted : Bool) : State Callback Msg where
  observers := Map.empty
  nextObject := 0
  unsubscribes := []
  isStarted
  listeners := if isStarted then env.pubsubTopics else []

/-- One thing happens; a start of a started gossipsub throws. -/
def step (s : State Callback Msg) : Event Callback Msg → Option (State Callback Msg)
  | .start =>
    if s.isStarted then some s
    else some { s with isStarted := true, listeners := s.listeners ++ env.pubsubTopics }
  | .subscribeWithUnsubscribe decoders callback => some (subscribeWithUnsubscribe s decoders callback)
  | .unsubscribe call => s.unsubscribes[call]?.map (removeObservers s)
  | .message _ _ => some s

end

/-! ## What Relay is for -/

/-- A subscription: its decoders, its callback, and whether it was not ended yet. -/
structure Subscription (Callback Msg : Type) where
  decoders : List (IDecoder Msg)
  callback : Callback
  live : Bool

/-- The decoder is for these topics. -/
def IDecoder.isFor (d : IDecoder Msg) (pubsubTopic contentTopic : String) : Bool :=
  d.pubsubTopic = pubsubTopic ∧ d.contentTopic = contentTopic

/-- What a subscription is due for a message: its callback, once for each of its decoders for the topics. -/
def Subscription.due (pubsubTopic contentTopic : String) (sub : Subscription Callback Msg) :
    List (Callback × IDecoder Msg) :=
  if sub.live then (sub.decoders.filter (·.isFor pubsubTopic contentTopic)).map (sub.callback, ·) else []

/-- What an event makes of the subscriptions: a new one, or one that ends. -/
def subscribed (subs : List (Subscription Callback Msg)) : Event Callback Msg → List (Subscription Callback Msg)
  | .subscribeWithUnsubscribe decoders callback => subs ++ [⟨decoders, callback, true⟩]
  | .unsubscribe call => subs.modify call fun sub => { sub with live := false }
  | _ => subs

/-- The subscriptions after a list of events. -/
def subscriptions (es : List (Event Callback Msg)) : List (Subscription Callback Msg) := es.foldl subscribed []

/-! ## Sets of observers -/

/-- The observer is for these topics. -/
abbrev Observer.isFor (o : Observer Callback Msg) (pubsubTopic contentTopic : String) : Bool :=
  o.decoder.isFor pubsubTopic contentTopic

theorem get_pushOrInitMapSet {α : Type} (map : Map String (List α)) (key other : String) (newValue : α) :
    ((pushOrInitMapSet map key newValue).get other).getD [] =
      (map.get other).getD [] ++ if other = key then [newValue] else [] := by
  unfold pushOrInitMapSet
  by_cases hkey : other = key
  · subst hkey
    cases hget : map.get other with
    | none => simp
    | some arr => simp
  · cases hget : map.get key with
    | none => simp [hkey, Map.get_set_ne]
    | some arr => simp [hkey, Map.get_set_ne]

/-- A new observer joins the set of its topics. -/
theorem observersOf_push (s : State Callback Msg) (o : Observer Callback Msg) (n : ℕ) (p c : String) :
    State.observersOf
        { s with
          observers := s.observers.set o.decoder.pubsubTopic
            (pushOrInitMapSet ((s.observers.get o.decoder.pubsubTopic).getD Map.empty) o.decoder.contentTopic o)
          nextObject := n } p c =
      s.observersOf p c ++ if o.isFor p c then [o] else [] := by
  unfold State.observersOf
  by_cases hp : p = o.decoder.pubsubTopic
  · subst hp
    rw [Map.get_set_self, Option.bind_some, get_pushOrInitMapSet]
    cases hget : s.observers.get o.decoder.pubsubTopic with
    | none => simp [IDecoder.isFor, eq_comm]
    | some ctObs => simp [IDecoder.isFor, eq_comm]
  · rw [Map.get_set_ne _ _ hp]
    simp [IDecoder.isFor, Ne.symm hp]

/-- An observer that is removed leaves the set of its topics. -/
theorem observersOf_removeObserver (s : State Callback Msg) (q : String) (o : Observer Callback Msg) (p c : String) :
    (removeObserver s (q, o)).observersOf p c =
      (s.observersOf p c).filter fun x => !(q = p ∧ o.decoder.contentTopic = c ∧ x.object = o.object) := by
  cases hct : s.observers.get q with
  | none =>
    have hsame : removeObserver s (q, o) = s := by simp only [removeObserver, hct]
    rw [hsame]
    by_cases hp : q = p
    · subst hp
      simp [State.observersOf, hct]
    · simp [hp]
  | some ctObs =>
    cases hobs : ctObs.get o.decoder.contentTopic with
    | none =>
      have hsame : removeObserver s (q, o) = s := by simp only [removeObserver, hct, hobs]
      rw [hsame]
      by_cases hpc : q = p ∧ o.decoder.contentTopic = c
      · obtain ⟨rfl, rfl⟩ := hpc
        simp [State.observersOf, hct, hobs]
      · have hkeep : ∀ x : Observer Callback Msg,
            ¬(q = p ∧ o.decoder.contentTopic = c ∧ x.object = o.object) := fun x h => hpc ⟨h.1, h.2.1⟩
        simp [hkeep]
    | some obs =>
      have hset : (removeObserver s (q, o)).observers = s.observers.set q
          (ctObs.set o.decoder.contentTopic (obs.filter fun x => x.object ≠ o.object)) := by
        simp only [removeObserver, hct, hobs]
      rw [State.observersOf, hset]
      by_cases hp : p = q
      · subst hp
        by_cases hc : c = o.decoder.contentTopic
        · subst hc
          simp [State.observersOf, hct, hobs]
        · simp [State.observersOf, hct, Map.get_set_ne _ _ hc, Ne.symm hc]
      · simp [State.observersOf, Map.get_set_ne _ _ hp, Ne.symm hp]

theorem removeObserver_frame (s : State Callback Msg) (x : String × Observer Callback Msg) :
    (removeObserver s x).nextObject = s.nextObject ∧ (removeObserver s x).unsubscribes = s.unsubscribes ∧
      (removeObserver s x).isStarted = s.isStarted ∧ (removeObserver s x).listeners = s.listeners := by
  obtain ⟨q, o⟩ := x
  unfold removeObserver
  dsimp only
  split
  · exact ⟨rfl, rfl, rfl, rfl⟩
  · split <;> exact ⟨rfl, rfl, rfl, rfl⟩

theorem removeObservers_frame (s : State Callback Msg) (observers : List (String × Observer Callback Msg)) :
    (removeObservers s observers).nextObject = s.nextObject ∧
      (removeObservers s observers).unsubscribes = s.unsubscribes ∧
      (removeObservers s observers).isStarted = s.isStarted ∧
      (removeObservers s observers).listeners = s.listeners := by
  induction observers generalizing s with
  | nil => exact ⟨rfl, rfl, rfl, rfl⟩
  | cons x observers ih =>
    obtain ⟨hobject, hunsubscribes, hstarted, hlisteners⟩ := ih (removeObserver s x)
    obtain ⟨hobject', hunsubscribes', hstarted', hlisteners'⟩ := removeObserver_frame s x
    exact ⟨hobject.trans hobject', hunsubscribes.trans hunsubscribes', hstarted.trans hstarted',
      hlisteners.trans hlisteners'⟩

/-- The loop removes from a set the observers that are for its topics. -/
theorem observersOf_removeObservers (s : State Callback Msg) (observers : List (String × Observer Callback Msg))
    (p c : String) : (removeObservers s observers).observersOf p c =
      (s.observersOf p c).filter fun x =>
        observers.all fun y => !(y.1 = p ∧ y.2.decoder.contentTopic = c ∧ x.object = y.2.object) := by
  induction observers generalizing s with
  | nil => simp [removeObservers]
  | cons y observers ih =>
    obtain ⟨q, o⟩ := y
    rw [removeObservers, List.foldl_cons]
    refine (ih (removeObserver s (q, o))).trans ?_
    rw [observersOf_removeObserver, List.filter_filter]
    refine List.filter_congr fun x _ => ?_
    rw [List.all_cons, Bool.and_comm]

/-! ## What a subscription keeps -/

/-- The observers of a subscription, with their objects in order. -/
def observersFrom (callback : Callback) : ℕ → List (IDecoder Msg) → List (Observer Callback Msg)
  | _, [] => []
  | n, decoder :: decoders => ⟨n, decoder, callback⟩ :: observersFrom callback (n + 1) decoders

theorem map_object_observersFrom (callback : Callback) (n : ℕ) (decoders : List (IDecoder Msg)) :
    (observersFrom callback n decoders).map (·.object) = List.range' n decoders.length := by
  induction decoders generalizing n with
  | nil => rfl
  | cons decoder decoders ih => rw [observersFrom, List.map_cons, ih, List.length_cons, List.range'_succ]

theorem map_observersFrom (callback : Callback) (n : ℕ) (decoders : List (IDecoder Msg)) :
    (observersFrom callback n decoders).map (fun o => (o.callback, o.decoder)) = decoders.map (callback, ·) := by
  induction decoders generalizing n with
  | nil => rfl
  | cons decoder decoders ih => rw [observersFrom, List.map_cons, ih, List.map_cons]

/-- What the loop of `subscribeWithUnsubscribe` does. -/
theorem addObservers_spec (callback : Callback) (s : State Callback Msg) (acc : List (String × Observer Callback Msg))
    (decoders : List (IDecoder Msg)) :
    let added := observersFrom callback s.nextObject decoders
    let r := addObservers callback s acc decoders
    (∀ p c, r.1.observersOf p c = s.observersOf p c ++ added.filter (·.isFor p c)) ∧
      r.2 = acc ++ added.map (fun o => (o.decoder.pubsubTopic, o)) ∧ r.1.nextObject = s.nextObject + decoders.length ∧
      r.1.unsubscribes = s.unsubscribes ∧ r.1.isStarted = s.isStarted ∧ r.1.listeners = s.listeners := by
  induction decoders generalizing s acc with
  | nil => simp [observersFrom, addObservers]
  | cons decoder decoders ih =>
    let observer : Observer Callback Msg := ⟨s.nextObject, decoder, callback⟩
    obtain ⟨hobservers, hacc, hobject, hrest⟩ :=
      ih { s with
          observers := s.observers.set decoder.pubsubTopic
            (pushOrInitMapSet ((s.observers.get decoder.pubsubTopic).getD Map.empty) decoder.contentTopic observer)
          nextObject := s.nextObject + 1 } (acc ++ [(decoder.pubsubTopic, observer)])
    refine ⟨fun p c => ?_, ?_, ?_, hrest⟩
    · refine (hobservers p c).trans ?_
      rw [observersOf_push s observer (s.nextObject + 1) p c, observersFrom, List.filter_cons, List.append_assoc]
      by_cases hfor : observer.isFor p c <;> simp [hfor, observer]
    · refine hacc.trans ?_
      simp [observersFrom, observer]
    · refine hobject.trans ?_
      simp only [List.length_cons]
      omega

/-! ## The refinement -/

/-- The observers of the live subscriptions. -/
def liveObservers (entries : List (Subscription Callback Msg × List (Observer Callback Msg))) :
    List (Observer Callback Msg) :=
  entries.flatMap fun entry => if entry.1.live then entry.2 else []

/-- Each subscription has its observers, one for each of its decoders, all of them different objects; those of the live
ones are under their topics. -/
structure Refines (env : Env) (s : State Callback Msg)
    (entries : List (Subscription Callback Msg × List (Observer Callback Msg))) : Prop where
  unsubscribes : s.unsubscribes = entries.map fun entry => entry.2.map fun o => (o.decoder.pubsubTopic, o)
  made : ∀ entry ∈ entries, entry.2.map (fun o => (o.callback, o.decoder)) = entry.1.decoders.map (entry.1.callback, ·)
  nodup : ((entries.flatMap (·.2)).map (·.object)).Nodup
  fresh : ∀ o ∈ entries.flatMap (·.2), o.object < s.nextObject
  observers : ∀ p c, s.observersOf p c = (liveObservers entries).filter (·.isFor p c)
  listeners : s.listeners = if s.isStarted then env.pubsubTopics else []

theorem refines_new (env : Env) (isStarted : Bool) : Refines env (new env isStarted : State Callback Msg) [] where
  unsubscribes := rfl
  made := by simp
  nodup := List.nodup_nil
  fresh := by simp
  observers := fun p c => rfl
  listeners := rfl

/-- The observers of a live subscription are observers. -/
theorem mem_of_mem_liveObservers {entries : List (Subscription Callback Msg × List (Observer Callback Msg))}
    {o : Observer Callback Msg} (h : o ∈ liveObservers entries) : o ∈ entries.flatMap (·.2) := by
  obtain ⟨entry, hentry, ho⟩ := List.mem_flatMap.1 h
  split at ho
  · exact List.mem_flatMap.2 ⟨entry, hentry, ho⟩
  · cases ho

/-- Changing the subscription of an entry. -/
theorem map_fst_modify {α β : Type} (f : α → α) (entries : List (α × β)) (i : ℕ) :
    (entries.modify i fun entry => (f entry.1, entry.2)).map Prod.fst = (entries.map Prod.fst).modify i f := by
  refine List.ext_getElem? fun j => ?_
  rw [List.getElem?_map, List.getElem?_modify, List.getElem?_modify, List.getElem?_map]
  cases entries[j]? with
  | none => rfl
  | some entry =>
    by_cases hij : i = j
    · simp [hij]
    · simp [hij]

/-- Without the objects of one subscription, what is left are the observers of the other live ones. -/
theorem liveObservers_end (l₁ l₂ : List (Subscription Callback Msg × List (Observer Callback Msg)))
    (sub : Subscription Callback Msg) (observers : List (Observer Callback Msg))
    (hnodup : (((l₁ ++ (sub, observers) :: l₂).flatMap (·.2)).map (·.object)).Nodup) :
    (liveObservers (l₁ ++ (sub, observers) :: l₂)).filter (fun x => x.object ∉ observers.map (·.object)) =
      liveObservers (l₁ ++ ({ sub with live := false }, observers) :: l₂) := by
  rw [List.flatMap_append, List.flatMap_cons, List.map_append, List.map_append] at hnodup
  obtain ⟨-, hrest, hleft⟩ := List.nodup_append.1 hnodup
  obtain ⟨-, -, hright⟩ := List.nodup_append.1 hrest
  have hkeep₁ : (liveObservers l₁).filter (fun x => x.object ∉ observers.map (·.object)) = liveObservers l₁ := by
    refine List.filter_eq_self.2 fun x hx => decide_eq_true fun hmem => ?_
    exact hleft _ (List.mem_map_of_mem (mem_of_mem_liveObservers hx)) _ (List.mem_append_left _ hmem) rfl
  have hkeep₂ : (liveObservers l₂).filter (fun x => x.object ∉ observers.map (·.object)) = liveObservers l₂ := by
    refine List.filter_eq_self.2 fun x hx => decide_eq_true fun hmem => ?_
    exact hright _ hmem _ (List.mem_map_of_mem (mem_of_mem_liveObservers hx)) rfl
  have hgone : (if sub.live then observers else []).filter (fun x => x.object ∉ observers.map (·.object)) = [] := by
    refine List.filter_eq_nil_iff.2 fun x hx => ?_
    split at hx
    · simpa using ⟨x, hx, rfl⟩
    · cases hx
  have hsplit : ∀ sub' : Subscription Callback Msg, liveObservers (l₁ ++ (sub', observers) :: l₂) =
      liveObservers l₁ ++ ((if sub'.live then observers else []) ++ liveObservers l₂) := by
    intro sub'
    simp only [liveObservers, List.flatMap_append, List.flatMap_cons]
  rw [hsplit, hsplit, List.filter_append, List.filter_append, hkeep₁, hkeep₂, hgone]
  rfl

namespace Refines

variable {env : Env} {s : State Callback Msg}
  {entries : List (Subscription Callback Msg × List (Observer Callback Msg))}

/-- A new subscription comes with new observers. -/
theorem subscribe (h : Refines env s entries) (decoders : List (IDecoder Msg)) (callback : Callback) :
    Refines env (subscribeWithUnsubscribe s decoders callback)
      (entries ++ [(⟨decoders, callback, true⟩, observersFrom callback s.nextObject decoders)]) := by
  obtain ⟨hobservers, hacc, hobject, hunsubscribes, hstarted, hlisteners⟩ := addObservers_spec callback s [] decoders
  refine ⟨?_, ?_, ?_, ?_, fun p c => ?_, ?_⟩
  · simp [subscribeWithUnsubscribe, hunsubscribes, hacc, h.unsubscribes]
  · intro entry hentry
    rcases List.mem_append.1 hentry with hentry | hentry
    · exact h.made entry hentry
    · cases List.mem_singleton.1 hentry
      exact map_observersFrom callback s.nextObject decoders
  · rw [List.flatMap_append, List.map_append, List.flatMap_singleton, map_object_observersFrom]
    refine List.nodup_append.2 ⟨h.nodup, List.nodup_range', ?_⟩
    rintro a ha b hb rfl
    obtain ⟨o, ho, rfl⟩ := List.mem_map.1 ha
    have hlt := h.fresh o ho
    have hge := (List.mem_range'_1.1 hb).1
    omega
  · intro o ho
    change _ < (addObservers callback s [] decoders).1.nextObject
    rw [hobject]
    rw [List.flatMap_append, List.flatMap_singleton] at ho
    rcases List.mem_append.1 ho with ho | ho
    · exact Nat.lt_of_lt_of_le (h.fresh o ho) (Nat.le_add_right _ _)
    · have hmem : o.object ∈ List.range' s.nextObject decoders.length := by
        rw [← map_object_observersFrom callback]
        exact List.mem_map_of_mem ho
      exact (List.mem_range'_1.1 hmem).2
  · refine (hobservers p c).trans ?_
    rw [h.observers p c]
    simp [liveObservers]
  · change (addObservers callback s [] decoders).1.listeners =
      if (addObservers callback s [] decoders).1.isStarted then _ else _
    rw [hstarted, hlisteners]
    exact h.listeners

/-- A function that was returned ends its subscription and no other. -/
theorem unsubscribe (h : Refines env s entries) {call : ℕ} {observers : List (String × Observer Callback Msg)}
    (hcall : s.unsubscribes[call]? = some observers) :
    Refines env (removeObservers s observers)
      (entries.modify call fun entry => ({ entry.1 with live := false }, entry.2)) := by
  obtain ⟨hobject, hunsubscribes, hstarted, hlisteners⟩ := removeObservers_frame s observers
  rw [h.unsubscribes, List.getElem?_map] at hcall
  obtain ⟨entry, hentry, rfl⟩ := Option.map_eq_some_iff.1 hcall
  obtain ⟨hlt, hget⟩ := List.getElem?_eq_some_iff.1 hentry
  obtain ⟨l₁, entry', l₂, hsplit, hlength, hmodify⟩ :=
    List.exists_of_modify (fun entry => ({ entry.1 with live := false }, entry.2)) hlt
  obtain rfl : entry' = entry := by
    rw [← hget, List.getElem_of_eq hsplit, List.getElem_append_right (Nat.le_of_eq hlength)]
    simp [hlength]
  obtain ⟨sub, own⟩ := entry'
  rw [hmodify]
  subst hsplit
  have hsame : ((l₁ ++ ({ sub with live := false }, own) :: l₂).flatMap (·.2)) =
      (l₁ ++ (sub, own) :: l₂).flatMap (·.2) := by
    simp only [List.flatMap_append, List.flatMap_cons]
  refine ⟨?_, ?_, ?_, ?_, fun p c => ?_, ?_⟩
  · rw [hunsubscribes, h.unsubscribes]
    simp
  · intro entry hentry
    rcases List.mem_append.1 hentry with hentry | hentry
    · exact h.made entry (List.mem_append_left _ hentry)
    · rcases List.mem_cons.1 hentry with rfl | hentry
      · exact h.made (sub, own) (List.mem_append_right _ List.mem_cons_self)
      · exact h.made entry (List.mem_append_right _ (List.mem_cons_of_mem _ hentry))
  · rw [hsame]
    exact h.nodup
  · rw [hsame, hobject]
    exact h.fresh
  · rw [observersOf_removeObservers, h.observers p c, ← liveObservers_end l₁ l₂ sub own h.nodup]
    rw [List.filter_filter, List.filter_filter]
    refine List.filter_congr fun x hx => ?_
    by_cases hfor : x.isFor p c
    · rw [hfor, Bool.true_and, Bool.and_true, Bool.eq_iff_iff, List.all_eq_true, decide_eq_true_iff]
      constructor
      · rintro hall hmem
        obtain ⟨o, ho, hxo⟩ := List.mem_map.1 hmem
        -- the object is the observer itself, so that it is for the same topics
        have hown : o ∈ (l₁ ++ (sub, own) :: l₂).flatMap (·.2) :=
          List.mem_flatMap.2 ⟨(sub, own), List.mem_append_right _ List.mem_cons_self, ho⟩
        obtain rfl := List.inj_on_of_nodup_map h.nodup hown (mem_of_mem_liveObservers hx) hxo
        have hnot := hall _ (List.mem_map_of_mem ho)
        obtain ⟨hp, hc⟩ := of_decide_eq_true hfor
        simp [hp, hc] at hnot
      · rintro hnot y hy
        obtain ⟨o, ho, rfl⟩ := List.mem_map.1 hy
        have hne : x.object ≠ o.object := fun heq => hnot (List.mem_map.2 ⟨o, ho, heq.symm⟩)
        simp [hne]
    · simp [hfor]
  · rw [hstarted, hlisteners]
    exact h.listeners

/-- The code refines the subscriptions. -/
theorem step {e : Event Callback Msg} {s' : State Callback Msg} (h : Refines env s entries)
    (hstep : Relay.step env s e = some s') :
    ∃ entries', Refines env s' entries' ∧ entries'.map Prod.fst = subscribed (entries.map Prod.fst) e := by
  cases e with
  | start =>
    refine ⟨entries, ?_, rfl⟩
    dsimp only [Relay.step] at hstep
    split at hstep
    case isTrue =>
      cases hstep
      exact h
    case isFalse hstarted =>
      cases hstep
      refine ⟨h.unsubscribes, h.made, h.nodup, h.fresh, h.observers, ?_⟩
      simp [h.listeners, hstarted]
  | subscribeWithUnsubscribe decoders callback =>
    cases hstep
    exact ⟨_, h.subscribe decoders callback, by simp [subscribed]⟩
  | unsubscribe call =>
    obtain ⟨observers, hcall, rfl⟩ := Option.map_eq_some_iff.1 hstep
    refine ⟨_, h.unsubscribe hcall, ?_⟩
    exact map_fst_modify (fun sub => { sub with live := false }) entries call
  | message topic data =>
    cases hstep
    exact ⟨entries, h, rfl⟩

/-- Under their topics are the observers that the subscriptions are due. -/
theorem map_observersOf (h : Refines env s entries) (p c : String) :
    (s.observersOf p c).map (fun o => (o.callback, o.decoder)) = (entries.map Prod.fst).flatMap (·.due p c) := by
  rw [h.observers p c, liveObservers, List.filter_flatMap, List.map_flatMap, List.flatMap_map]
  refine List.flatMap_congr fun entry hentry => ?_
  unfold Subscription.due
  split
  · have hmade := congrArg (List.filter fun x : Callback × IDecoder Msg => x.2.isFor p c) (h.made entry hentry)
    rw [List.filter_map, List.filter_map] at hmade
    exact hmade
  · rfl

end Refines

/-- After every run the code has the observers of the subscriptions. -/
theorem refines_run {env : Env} {s t : State Callback Msg}
    {entries : List (Subscription Callback Msg × List (Observer Callback Msg))} (es : List (Event Callback Msg))
    (h : Refines env s entries) (hrun : run (step env) s es = some t) :
    ∃ entries', Refines env t entries' ∧ entries'.map Prod.fst = es.foldl subscribed (entries.map Prod.fst) := by
  refine run_foldl (P := fun s subs => ∃ entries, Refines env s entries ∧ entries.map Prod.fst = subs) ?_ es
    ⟨entries, h, rfl⟩ hrun
  rintro s subs e s' ⟨entries, h, rfl⟩ hstep
  exact h.step hstep

/-! ## Messages -/

/-- The listener of a topic calls once. -/
theorem flatMap_listeners {α : Type} {topics : List String} (hnodup : topics.Nodup) {topic : String}
    (hmem : topic ∈ topics) (calls : List α) :
    (topics.flatMap fun pubsubTopic => if topic ≠ pubsubTopic then [] else calls) = calls := by
  induction topics with
  | nil => cases hmem
  | cons first rest ih =>
    obtain ⟨hfirst, hrest⟩ := List.nodup_cons.1 hnodup
    rw [List.flatMap_cons]
    by_cases hsame : topic = first
    · subst hsame
      have hnone : (rest.flatMap fun pubsubTopic => if topic ≠ pubsubTopic then [] else calls) = [] := by
        refine List.flatMap_eq_nil_iff.2 fun pubsubTopic hpubsubTopic => if_pos ?_
        rintro rfl
        exact hfirst hpubsubTopic
      rw [hnone, List.append_nil, if_neg (not_not.2 rfl)]
    · rw [if_pos hsame, List.nil_append]
      exact ih hrest ((List.mem_cons.1 hmem).resolve_left hsame)

/-- The decoder decodes the message. -/
def IDecoder.Decodes (d : IDecoder Msg) (pubsubTopic : String) (bytes : Bytes) : Prop :=
  ∃ protoMsg msg, d.fromWireToProtoObj bytes = .ok (some protoMsg) ∧
    d.fromProtoObj pubsubTopic protoMsg = .ok (some msg)

theorem Observer.notify_of_decodes {o : Observer Callback Msg} {p : String} {bytes : Bytes}
    (h : o.decoder.Decodes p bytes) : (o.notify p bytes).map Prod.fst = some o.callback := by
  obtain ⟨protoMsg, msg, hwire, hproto⟩ := h
  simp [notify, hwire, hproto]

/-- What a subscription is due comes from its own decoders. -/
theorem Subscription.mem_due {sub : Subscription Callback Msg} {p c : String} {callback : Callback} {d : IDecoder Msg}
    (h : (callback, d) ∈ sub.due p c) : d ∈ sub.decoders ∧ d.isFor p c = true := by
  unfold due at h
  split at h
  · obtain ⟨d', hd', heq⟩ := List.mem_map.1 h
    obtain ⟨-, rfl⟩ := Prod.mk.inj heq
    exact List.mem_filter.1 hd'
  · cases h

/-- **Once gossipsub is started, a message on a configured pubsub topic, which the decoders for its topics decode, calls
for every live subscription its callback, once for each of its decoders for the topics, and nothing else; with the empty
content topic it calls nothing.** -/
theorem calls_eq_due (env : Env) (isStarted : Bool) (es : List (Event Callback Msg)) {s : State Callback Msg}
    (hrun : run (step env) (new env isStarted) es = some s) (hstarted : s.isStarted = true) (p : String)
    (hp : p ∈ env.pubsubTopics) (bytes : Bytes) (topicOnlyMsg : IProtoMessage)
    (hmsg : env.defaultDecoder bytes = .ok (some topicOnlyMsg))
    (hdecodes : ∀ sub ∈ subscriptions es, ∀ d ∈ sub.decoders, d.isFor p topicOnlyMsg.contentTopic → d.Decodes p bytes) :
    (gossipsubMessage env s p bytes).map Prod.fst =
      if topicOnlyMsg.contentTopic = "" then []
      else ((subscriptions es).flatMap (·.due p topicOnlyMsg.contentTopic)).map Prod.fst := by
  obtain ⟨entries, h, hsubs⟩ := refines_run es (refines_new env isStarted) hrun
  change entries.map Prod.fst = subscriptions es at hsubs
  have hlisteners : s.listeners = env.pubsubTopics := by rw [h.listeners, if_pos hstarted]
  rw [gossipsubMessage, hlisteners, flatMap_listeners env.nodup hp]
  unfold processIncomingMessage
  rw [hmsg]
  dsimp only
  by_cases hc : topicOnlyMsg.contentTopic = ""
  · rw [if_pos hc, if_pos hc]
    rfl
  · rw [if_neg hc, if_neg hc, ← hsubs, ← h.map_observersOf, List.map_map, List.map_filterMap, ← List.filterMap_eq_map]
    refine List.filterMap_congr fun o ho => Observer.notify_of_decodes ?_
    -- the observer is one that a live subscription is due
    have hdue : (o.callback, o.decoder) ∈ (subscriptions es).flatMap (·.due p topicOnlyMsg.contentTopic) := by
      rw [← hsubs, ← h.map_observersOf]
      exact List.mem_map_of_mem ho
    obtain ⟨sub, hsub, hmem⟩ := List.mem_flatMap.1 hdue
    obtain ⟨hd, hfor⟩ := Subscription.mem_due hmem
    exact hdecodes sub hsub o.decoder hd hfor

/-! ## One call for each decoder -/

/-- A message that is its content topic. -/
def bare (contentTopic : String) : IProtoMessage where
  payload := []
  contentTopic
  version := none
  timestamp := none
  metaField := none
  rateLimitProof := none
  ephemeral := none

/-- A decoder of bare messages, for one pubsub topic. -/
def decoderFor (contentTopic : String) : IDecoder String where
  pubsubTopic := "/waku/2/rs/1/0"
  contentTopic
  fromWireToProtoObj _ := .ok (some (bare contentTopic))
  fromProtoObj _ proto := .ok (some proto.contentTopic)

/-- Its topic is configured, and every message is a bare one. -/
def bareEnv (contentTopic : String) : Env where
  pubsubTopics := ["/waku/2/rs/1/0"]
  nodup := List.nodup_singleton _
  defaultDecoder _ := .ok (some (bare contentTopic))

/-- Two subscriptions with one callback, the first of which ends twice. -/
def endedTwice : List (Event ℕ String) :=
  [.start, .subscribeWithUnsubscribe [decoderFor "a"] 5, .subscribeWithUnsubscribe [decoderFor "a"] 5, .unsubscribe 0,
    .unsubscribe 0]

theorem calls_eq_due_endedTwice :
    ∃ s, run (step (bareEnv "a")) (new (bareEnv "a") false) endedTwice = some s ∧
      (gossipsubMessage (bareEnv "a") s "/waku/2/rs/1/0" []).map Prod.fst = [5] :=
  ⟨_, rfl, calls_eq_due (bareEnv "a") false endedTwice rfl rfl "/waku/2/rs/1/0" (by decide) [] (bare "a") rfl
    (by
      intro sub hsub d hd _
      have hd' : d = decoderFor "a" := by
        have hall : subscriptions endedTwice = [⟨[decoderFor "a"], 5, false⟩, ⟨[decoderFor "a"], 5, true⟩] := rfl
        rw [hall] at hsub
        simp only [List.mem_cons, List.not_mem_nil, or_false] at hsub
        rcases hsub with rfl | rfl <;> exact List.mem_singleton.1 hd
      subst hd'
      exact ⟨_, _, rfl, rfl⟩)⟩

/-- The callbacks of the live subscriptions with a decoder for the topics. -/
def liveCallbacks (subs : List (Subscription Callback Msg)) (p c : String) : List Callback :=
  (subs.filter fun sub => sub.live && sub.decoders.any (·.isFor p c)).map (·.callback)

/-- One subscription with two decoders for the same topics. -/
def twoDecoders : List (Event ℕ String) := [.subscribeWithUnsubscribe [decoderFor "a", decoderFor "a"] 5]

/-- One subscription for the empty content topic. -/
def emptyTopic : List (Event ℕ String) := [.subscribeWithUnsubscribe [decoderFor ""] 5]

/-- The first is called twice for a message, the second is not called. -/
theorem calls_ne_live :
    (liveCallbacks (subscriptions twoDecoders) "/waku/2/rs/1/0" "a" = [5] ∧
      ∃ s, run (step (bareEnv "a")) (new (bareEnv "a") true) twoDecoders = some s ∧
        (gossipsubMessage (bareEnv "a") s "/waku/2/rs/1/0" []).map Prod.fst = [5, 5]) ∧
    (liveCallbacks (subscriptions emptyTopic) "/waku/2/rs/1/0" "" = [5] ∧
      ∃ s, run (step (bareEnv "")) (new (bareEnv "") true) emptyTopic = some s ∧
        (gossipsubMessage (bareEnv "") s "/waku/2/rs/1/0" []).map Prod.fst = []) :=
  ⟨⟨rfl, _, rfl, rfl⟩, ⟨rfl, _, rfl, rfl⟩⟩

end JsWaku.Relay
