import JsWaku.Discovery.Search

/-!
# The cache of a discovery

A `DnsNodeDiscovery` keeps one cache for all traversals that its `getPeers` and `getNextPeer` make, of any trees. A step
here is one in any of the traversals; a search that does not find its name in the cache asks the DNS client, and others
go on before the answer comes.

The cache is keyed by the name alone, and is an object with a prototype. The lookups return what the DNS answers iff no
name is inherited from the prototype, and every name that is found was resolved at a location with the same answer
(`transparent_iff`).
-/

namespace JsWaku.Discovery

open Transition

/-! ## Traversals -/

/-- A traversal of a tree by `getPeers` or `getNextPeer`. -/
structure Traversal (ρ : Type) where
  context : SearchContext
  lookups : List String
  call : Call ρ
  /-- whether the search waits for `resolveTXT` -/
  querying : Bool
  deriving DecidableEq

/-- A `DnsNodeDiscovery` with its traversals, and the location at which each name in the cache was resolved. -/
structure NodeDiscovery (ρ : Type) where
  cache : Map String String
  origins : Map String String
  traversals : List (Traversal ρ)

/-- The constructor. -/
def NodeDiscovery.new {ρ : Type} : NodeDiscovery ρ := ⟨Map.empty, Map.empty, []⟩

/-- What happens to a discovery; a traversal is given by its number. -/
inductive DiscoveryEvent
  /-- `getPeers` or `getNextPeer` is called and has chosen this tree -/
  | traverse (domain publicKey : String)
  /-- the traversal calls `_search(domain, context)` -/
  | search (k : ℕ)
  /-- `_getTXTRecord` is called -/
  | lookup (k : ℕ)
  /-- `resolveTXT` is settled -/
  | answer (k : ℕ)
  /-- a round of the loop of `selectRandomPath` -/
  | draw (k random : ℕ)
  deriving DecidableEq

section

variable {ρ : Type} (client : Client ρ)

namespace Traversal

/-- The name for which `_getTXTRecord` is to be called. -/
def atLookup (t : Traversal ρ) : Option String :=
  match t.call with
  | .search subdomain => if t.querying then none else some subdomain
  | _ => none

/-- The name for which an answer is awaited. -/
def atAnswer (t : Traversal ρ) : Option String :=
  match t.call with
  | .search subdomain => if t.querying then some subdomain else none
  | _ => none

/-- What follows a call of `_getTXTRecord`. -/
def receive (t : Traversal ρ) (subdomain : String) (record : Except JsError (Property String)) : Traversal ρ :=
  let lookups := subdomain :: t.lookups
  match record with
  | .error _ => ⟨t.context, lookups, .settled (.ok none), false⟩
  | .ok record =>
    let context := { t.context with visits := Dictionary.assign t.context.visits subdomain true }
    match record with
    | .inherited => ⟨context, lookups, .settled (.ok none), false⟩
    | .own entry =>
      match State.follow client context (!t.lookups.isEmpty) entry with
      | .error _ => ⟨context, lookups, .settled (.ok none), false⟩
      | .ok call => ⟨context, lookups, call, false⟩

end Traversal

/-- What the cache has for a name, if it is truthy. -/
def cached (cache : Map String String) (subdomain : String) : Option (Property String) :=
  (Dictionary.get cache subdomain).filter (· ≠ .own "")

/-- The traversal is replaced. -/
def NodeDiscovery.put (s : NodeDiscovery ρ) (k : ℕ) (t : Traversal ρ) : NodeDiscovery ρ :=
  { s with traversals := s.traversals.set k t }

/-- One step of a discovery. -/
def discoveryStep (s : NodeDiscovery ρ) : DiscoveryEvent → Option (NodeDiscovery ρ)
  | .traverse domain publicKey =>
    some { s with traversals := s.traversals ++ [⟨⟨domain, publicKey, Map.empty⟩, [], .settled (.ok none), false⟩] }
  | .search k => do
    let t ← s.traversals[k]?
    match t.call with
    | .settled _ => some (s.put k ⟨t.context, [], .search t.context.domain, false⟩)
    | _ => none
  | .lookup k => do
    let t ← s.traversals[k]?
    let subdomain ← t.atLookup
    match cached s.cache subdomain with
    | some record => some (s.put k (t.receive client subdomain (.ok record)))
    | none => some (s.put k { t with querying := true })
  | .answer k => do
    let t ← s.traversals[k]?
    let subdomain ← t.atAnswer
    match query client s.cache t.context subdomain with
    | .error e => some (s.put k (t.receive client subdomain (.error e)))
    | .ok (record, cache) =>
      let origins := s.origins.set subdomain (location subdomain t.context.domain)
      some { s.put k (t.receive client subdomain (.ok record)) with cache, origins }
  | .draw k random => do
    let t ← s.traversals[k]?
    match t.call with
    | .select branches refs =>
      let index := random % branches.length
      if refs.contains index then some s
      else some (s.put k { t with call := .search (branches.getD index ""), querying := false })
    | _ => none

/-! ## Transparency -/

/-- An uncached resolution of a location. -/
def resolve (location : String) : Except JsError String := do
  let response ← client.resolveTXT location
  match response with
  | [] => throw (.error "Received empty result array while fetching TXT record")
  | first :: _ =>
    if first = "" then throw (.error "Received empty TXT record") else return String.join response

/-- What `_getTXTRecord` returns in a step, and the location that it was to resolve. -/
def returned (s : NodeDiscovery ρ) : DiscoveryEvent → Option (String × Property String)
  | .lookup k => do
    let t ← s.traversals[k]?
    let subdomain ← t.atLookup
    let record ← cached s.cache subdomain
    return (location subdomain t.context.domain, record)
  | .answer k => do
    let t ← s.traversals[k]?
    let subdomain ← t.atAnswer
    let (record, _) ← (query client s.cache t.context subdomain).toOption
    return (location subdomain t.context.domain, record)
  | _ => none

/-- What is returned is what the location resolves to. -/
def Transparent (s : NodeDiscovery ρ) (e : DiscoveryEvent) : Prop :=
  ∀ location record, returned client s e = some (location, record) →
    ∃ text, resolve client location = .ok text ∧ record = .own text

/-- A name that is looked up is not a property of `Object.prototype`, and if it was resolved before, it resolves to the
same where it was resolved and where it is now to be resolved. -/
def SameAnswer (s : NodeDiscovery ρ) : DiscoveryEvent → Prop
  | .lookup k => ∀ t ∈ s.traversals[k]?, ∀ subdomain ∈ t.atLookup, objectPrototype.contains subdomain = false ∧
      ∀ origin ∈ s.origins.get subdomain, resolve client origin = resolve client (location subdomain t.context.domain)
  | _ => True

/-- The cache has what its names resolve to where they were resolved. -/
structure CacheSound (s : NodeDiscovery ρ) : Prop where
  cached : ∀ {subdomain text}, s.cache.get subdomain = some text →
    ∃ origin, s.origins.get subdomain = some origin ∧ resolve client origin = .ok text
  origins : ∀ {subdomain origin}, s.origins.get subdomain = some origin → ∃ text, s.cache.get subdomain = some text
  own : ∀ {subdomain text}, s.cache.get subdomain = some text → objectPrototype.contains subdomain = false
  querying : ∀ t ∈ s.traversals, ∀ subdomain ∈ t.atAnswer, objectPrototype.contains subdomain = false

end

section

variable {ρ : Type} {client : Client ρ} {s s' : NodeDiscovery ρ} {t : Traversal ρ} {k : ℕ} {e : DiscoveryEvent}

/-! ## Lookups -/

/-- A query resolves the location and caches the text. -/
theorem query_eq (cache : Map String String) (context : SearchContext) (subdomain : String) :
    query client cache context subdomain =
      (fun text => (.own text, Dictionary.assign cache subdomain text)) <$>
        resolve client (location subdomain context.domain) := by
  unfold query resolve
  cases client.resolveTXT (location subdomain context.domain) with
  | error e => rfl
  | ok response =>
    cases response with
    | nil => rfl
    | cons first rest =>
      simp only [ok_bind]
      by_cases hfirst : first = ""
      · rw [if_pos hfirst, if_pos hfirst]
        rfl
      · rw [if_neg hfirst, if_neg hfirst]
        rfl

/-- A query that succeeds. -/
theorem query_eq_ok_iff {cache cache' : Map String String} {context : SearchContext} {subdomain : String}
    {record : Property String} : query client cache context subdomain = .ok (record, cache') ↔
      ∃ text, resolve client (location subdomain context.domain) = .ok text ∧ record = .own text ∧
        cache' = Dictionary.assign cache subdomain text := by
  rw [query_eq]
  cases resolve client (location subdomain context.domain) with
  | error e => exact iff_of_false (fun h => by cases h) fun ⟨_, h, _⟩ => by cases h
  | ok text =>
    constructor
    · intro h
      cases h
      exact ⟨text, rfl, rfl, rfl⟩
    · rintro ⟨text', h, rfl, rfl⟩
      cases h
      rfl

theorem resolve_ne_empty {place text : String} (h : resolve client place = .ok text) : text ≠ "" := by
  obtain ⟨response, -, h⟩ := bind_eq_ok.1 h
  cases response with
  | nil => cases h
  | cons first rest =>
    simp only at h
    split at h
    · cases h
    · next hfirst =>
      cases h
      intro hempty
      rw [← String.toList_inj] at hfirst hempty
      rw [String.toList_join, List.flatMap_cons] at hempty
      exact hfirst (List.append_eq_nil_iff.1 hempty).1

/-- With and without the cache, a lookup is the one of a single search. -/
theorem getTXTRecord_eq (cache : Map String String) (context : SearchContext) (subdomain : String) :
    getTXTRecord client cache context subdomain = match cached cache subdomain with
      | some record => .ok (record, cache)
      | none => query client cache context subdomain := by
  unfold getTXTRecord cached
  split
  · next hget => rw [hget]; rfl
  · next hget => rw [hget]; rfl
  · next record hempty hget =>
    have hne : record ≠ .own "" := hempty
    rw [hget, Option.filter_some, if_pos (decide_eq_true hne)]
    rfl

/-- A name in the cache is found with its text. -/
theorem CacheSound.cached_of_some (h : CacheSound client s) {subdomain text : String}
    (hget : s.cache.get subdomain = some text) : Discovery.cached s.cache subdomain = some (.own text) := by
  obtain ⟨origin, -, hresolve⟩ := h.cached hget
  have hne := resolve_ne_empty hresolve
  have hne' : (Property.own text : Property String) ≠ .own "" := fun h => hne (Property.own.inj h)
  unfold Discovery.cached Dictionary.get
  rw [hget]
  exact Option.filter_some.trans (if_pos (decide_eq_true hne'))

/-- A name that is not in the cache is found iff it is inherited. -/
theorem cached_of_none {cache : Map String String} {subdomain : String} (hget : cache.get subdomain = none) :
    cached cache subdomain = if objectPrototype.contains subdomain then some .inherited else none := by
  unfold cached Dictionary.get
  rw [hget]
  cases objectPrototype.contains subdomain <;> rfl

/-! ## What a step does -/

/-- After a call of `_getTXTRecord` no answer is awaited. -/
theorem atAnswer_receive (t : Traversal ρ) (subdomain : String) (record : Except JsError (Property String)) :
    (t.receive client subdomain record).atAnswer = none := by
  have hquerying : (t.receive client subdomain record).querying = false := by
    unfold Traversal.receive
    rcases record with e | record | _
    · rfl
    · simp only
      split <;> rfl
    · rfl
  unfold Traversal.atAnswer
  rw [hquerying]
  split <;> rfl

theorem not_mem_atAnswer_receive {subdomain name : String} {record : Except JsError (Property String)} :
    name ∉ (t.receive client subdomain record).atAnswer := by
  rw [atAnswer_receive]
  exact Option.not_mem_none name

theorem atLookup_eq_some {subdomain : String} :
    t.atLookup = some subdomain ↔ t.call = .search subdomain ∧ t.querying = false := by
  unfold Traversal.atLookup
  split
  · next name hcall =>
    rw [hcall]
    cases t.querying <;> simp
  · next hcall => exact iff_of_false (fun h => by cases h) fun h => hcall _ h.1

/-- The name that the DNS client is asked for. -/
theorem atAnswer_query {subdomain : String} (h : t.atLookup = some subdomain) :
    ({ t with querying := true } : Traversal ρ).atAnswer = some subdomain := by
  unfold Traversal.atAnswer
  rw [(atLookup_eq_some.1 h).1]
  rfl

/-- What the cache has for a name that is not an inherited property. -/
theorem CacheSound.cached_eq (h : CacheSound client s) (subdomain : String) :
    Discovery.cached s.cache subdomain =
      if objectPrototype.contains subdomain then some .inherited else (s.cache.get subdomain).map .own := by
  cases hget : s.cache.get subdomain with
  | none => rw [cached_of_none hget, Option.map_none]
  | some text => rw [h.cached_of_some hget, h.own hget, Option.map_some, if_neg Bool.false_ne_true]

/-- The traversals of a discovery in which one was replaced. -/
theorem querying_put (h : CacheSound client s) (ht : ∀ subdomain ∈ t.atAnswer, objectPrototype.contains subdomain = false) :
    ∀ u ∈ (s.put k t).traversals, ∀ subdomain ∈ u.atAnswer, objectPrototype.contains subdomain = false := by
  intro u hu
  rcases List.mem_or_eq_of_mem_set hu with hu | rfl
  · exact h.querying u hu
  · exact ht

/-- A traversal is replaced by one that awaits no answer, or one for a name that is not inherited. -/
theorem CacheSound.put (h : CacheSound client s)
    (ht : ∀ subdomain ∈ t.atAnswer, objectPrototype.contains subdomain = false) : CacheSound client (s.put k t) where
  cached := h.cached
  origins := h.origins
  own := h.own
  querying := querying_put h ht

/-- An answer is cached with the location that it is for. -/
theorem CacheSound.answer {u : Traversal ρ} {subdomain : String} {record : Property String} {cache : Map String String}
    (h : CacheSound client s) (hquery : query client s.cache t.context subdomain = .ok (record, cache))
    (hown : objectPrototype.contains subdomain = false)
    (hu : ∀ name ∈ u.atAnswer, objectPrototype.contains name = false) :
    CacheSound client { s.put k u with
      cache, origins := s.origins.set subdomain (location subdomain t.context.domain) } := by
  obtain ⟨text, hresolve, -, rfl⟩ := query_eq_ok_iff.1 hquery
  have hassign : Dictionary.assign s.cache subdomain text = s.cache.set subdomain text := by
    refine if_neg fun hproto => ?_
    rw [hproto.1] at hown
    exact absurd hown (by decide)
  rw [hassign]
  constructor
  · intro name found hget
    by_cases hname : name = subdomain
    · subst hname
      cases (Map.get_set_self _ _ _).symm.trans hget
      exact ⟨_, Map.get_set_self _ _ _, hresolve⟩
    · obtain ⟨origin, horigin, hfound⟩ := h.cached ((Map.get_set_ne _ _ hname).symm.trans hget)
      exact ⟨origin, (Map.get_set_ne _ _ hname).trans horigin, hfound⟩
  · intro name origin hget
    by_cases hname : name = subdomain
    · subst hname
      exact ⟨text, Map.get_set_self _ _ _⟩
    · obtain ⟨found, hfound⟩ := h.origins ((Map.get_set_ne _ _ hname).symm.trans hget)
      exact ⟨found, (Map.get_set_ne _ _ hname).trans hfound⟩
  · intro name found hget
    by_cases hname : name = subdomain
    · rwa [hname]
    · exact h.own ((Map.get_set_ne _ _ hname).symm.trans hget)
  · exact querying_put h hu

theorem cacheSound_new : CacheSound client NodeDiscovery.new where
  cached hget := by cases hget
  origins hget := by cases hget
  own hget := by cases hget
  querying t hmem := by cases hmem

/-- What the cache has stays what the DNS answers. -/
theorem CacheSound.step (h : CacheSound client s) (hstep : discoveryStep client s e = some s') :
    CacheSound client s' := by
  cases e with
  | traverse domain publicKey =>
    cases hstep
    refine ⟨h.cached, h.origins, h.own, fun t hmem subdomain hsubdomain => ?_⟩
    rcases List.mem_append.1 hmem with hmem | hmem
    · exact h.querying t hmem subdomain hsubdomain
    · cases List.mem_singleton.1 hmem
      cases hsubdomain
  | search k =>
    obtain ⟨t, ht, hstep⟩ := Option.bind_eq_some_iff.1 hstep
    split at hstep
    · cases hstep
      exact h.put fun subdomain hsubdomain => by cases hsubdomain
    · cases hstep
  | lookup k =>
    obtain ⟨t, ht, hstep⟩ := Option.bind_eq_some_iff.1 hstep
    obtain ⟨subdomain, hsubdomain, hstep⟩ := Option.bind_eq_some_iff.1 hstep
    split at hstep
    · cases hstep
      exact h.put fun name hname => absurd hname not_mem_atAnswer_receive
    · next hmiss =>
      cases hstep
      refine h.put fun name hname => ?_
      cases (atAnswer_query hsubdomain).symm.trans hname
      rw [h.cached_eq] at hmiss
      cases hown : objectPrototype.contains subdomain with
      | false => rfl
      | true =>
        rw [hown] at hmiss
        cases hmiss
  | answer k =>
    obtain ⟨t, ht, hstep⟩ := Option.bind_eq_some_iff.1 hstep
    obtain ⟨subdomain, hsubdomain, hstep⟩ := Option.bind_eq_some_iff.1 hstep
    split at hstep
    · cases hstep
      exact h.put fun name hname => absurd hname not_mem_atAnswer_receive
    · next record cache hquery =>
      cases hstep
      have hown := h.querying t (List.mem_of_getElem? ht) subdomain hsubdomain
      exact h.answer hquery hown fun name hname => absurd hname not_mem_atAnswer_receive
  | draw k random =>
    obtain ⟨t, ht, hstep⟩ := Option.bind_eq_some_iff.1 hstep
    split at hstep
    · simp only at hstep
      split at hstep
      · cases hstep
        exact h
      · cases hstep
        exact h.put fun subdomain hsubdomain => by cases hsubdomain
    · cases hstep

/-- What a traversal receives is what its search looks up. -/
theorem receive_eq_lookup (client : Client ρ) (cache : Map String String) (t : Traversal ρ) (subdomain : String) :
    t.receive client subdomain ((getTXTRecord client cache t.context subdomain).map Prod.fst) =
      let u := State.lookup client ⟨cache, t.context, t.lookups, t.call⟩ subdomain
      ⟨u.context, u.lookups, u.call, false⟩ := by
  unfold Traversal.receive State.lookup
  rcases getTXTRecord client cache t.context subdomain with e | ⟨entry | _, cache'⟩
  · rfl
  · simp only [Except.map]
    cases State.follow client _ (!t.lookups.isEmpty) entry <;> rfl
  · rfl

theorem cache_lookup (client : Client ρ) (u : State ρ) (subdomain : String) : (u.lookup client subdomain).cache =
    match getTXTRecord client u.cache u.context subdomain with
    | .error _ => u.cache
    | .ok (_, cache) => cache := by
  unfold State.lookup
  rcases getTXTRecord client u.cache u.context subdomain with e | ⟨entry | _, cache⟩
  · rfl
  · simp only
    split <;> rfl
  · rfl

theorem discoveryStep_answer (client : Client ρ) {subdomain : String} (ht : s.traversals[k]? = some t)
    (hsubdomain : t.atAnswer = some subdomain) : discoveryStep client s (.answer k) =
      match query client s.cache t.context subdomain with
      | .error e => some (s.put k (t.receive client subdomain (.error e)))
      | .ok (record, cache) => some { s.put k (t.receive client subdomain (.ok record)) with
          cache, origins := s.origins.set subdomain (location subdomain t.context.domain) } := by
  simp only [discoveryStep, ht, hsubdomain, Option.bind_eq_bind, Option.bind_some]

/-- A lookup of one search, with the answer if it has to ask for one, is a lookup as the search alone makes it. -/
theorem run_lookup {subdomain : String} (ht : s.traversals[k]? = some t) (hsubdomain : t.atLookup = some subdomain) :
    let u := State.lookup client ⟨s.cache, t.context, t.lookups, t.call⟩ subdomain
    ∃ es s', (es = [.lookup k] ∨ es = [.lookup k, .answer k]) ∧ run (discoveryStep client) s es = some s' ∧
      s'.cache = u.cache ∧ s'.traversals = s.traversals.set k ⟨u.context, u.lookups, u.call, false⟩ := by
  intro u
  have hreceive := receive_eq_lookup client s.cache t subdomain
  have hcache := cache_lookup client ⟨s.cache, t.context, t.lookups, t.call⟩ subdomain
  simp only [getTXTRecord_eq] at hreceive hcache
  cases hcached : Discovery.cached s.cache subdomain with
  | some record =>
    rw [hcached] at hreceive hcache
    refine ⟨[.lookup k], s.put k (t.receive client subdomain (.ok record)), .inl rfl, ?_, hcache.symm,
      congrArg (s.traversals.set k) hreceive⟩
    simp only [run, discoveryStep, ht, hsubdomain, hcached, Option.bind_eq_bind, Option.bind_some]
  | none =>
    rw [hcached] at hreceive hcache
    have hlength : k < s.traversals.length := (List.getElem?_eq_some_iff.1 ht).1
    have hasked : (s.put k { t with querying := true }).traversals[k]? = some { t with querying := true } :=
      List.getElem?_set_self hlength
    have hlookup : discoveryStep client s (.lookup k) = some (s.put k { t with querying := true }) := by
      simp only [discoveryStep, ht, hsubdomain, hcached, Option.bind_eq_bind, Option.bind_some]
    have hanswer := discoveryStep_answer client hasked (atAnswer_query hsubdomain)
    simp only [NodeDiscovery.put, List.set_set] at hanswer
    cases hquery : query client s.cache t.context subdomain with
    | error e =>
      rw [hquery] at hreceive hcache hanswer
      exact ⟨_, _, .inr rfl, run_cons.2 ⟨_, hlookup, run_cons.2 ⟨_, hanswer, rfl⟩⟩, hcache.symm,
        congrArg (s.traversals.set k) hreceive⟩
    | ok result =>
      rw [hquery] at hreceive hcache hanswer
      exact ⟨_, _, .inr rfl, run_cons.2 ⟨_, hlookup, run_cons.2 ⟨_, hanswer, rfl⟩⟩, hcache.symm,
        congrArg (s.traversals.set k) hreceive⟩

/-! ## Result -/

/-- What a lookup that finds its name returns. -/
theorem returned_lookup (client : Client ρ) {subdomain : String} (ht : s.traversals[k]? = some t)
    (hsubdomain : t.atLookup = some subdomain) : returned client s (.lookup k) =
      (Discovery.cached s.cache subdomain).map fun record => (location subdomain t.context.domain, record) := by
  simp only [returned, ht, hsubdomain, Option.bind_eq_bind, Option.bind_some]
  cases Discovery.cached s.cache subdomain <;> rfl

/-- A lookup is transparent iff its name resolves to the same. -/
theorem transparent_lookup_iff (h : CacheSound client s) (k : ℕ) :
    Transparent client s (.lookup k) ↔ SameAnswer client s (.lookup k) := by
  constructor
  · intro htransparent t ht subdomain hsubdomain
    have hreturned := returned_lookup client ht hsubdomain
    rw [h.cached_eq] at hreturned
    cases hown : objectPrototype.contains subdomain with
    | true =>
      rw [hown, if_pos rfl] at hreturned
      obtain ⟨text, -, hrecord⟩ := htransparent _ _ hreturned
      cases hrecord
    | false =>
      refine ⟨rfl, fun origin horigin => ?_⟩
      obtain ⟨text, hget⟩ := h.origins horigin
      obtain ⟨origin', horigin', hresolve⟩ := h.cached hget
      cases horigin.symm.trans horigin'
      rw [hown, hget, if_neg Bool.false_ne_true] at hreturned
      obtain ⟨text', hplace, hrecord⟩ := htransparent _ _ hreturned
      cases hrecord
      rw [hresolve, hplace]
  · intro hsame place record hreturned
    obtain ⟨t, ht, hreturned⟩ := Option.bind_eq_some_iff.1 hreturned
    obtain ⟨subdomain, hsubdomain, hreturned⟩ := Option.bind_eq_some_iff.1 hreturned
    obtain ⟨record', hcached, hreturned⟩ := Option.bind_eq_some_iff.1 hreturned
    cases hreturned
    obtain ⟨hown, horigins⟩ := hsame t ht subdomain hsubdomain
    rw [h.cached_eq, hown, if_neg Bool.false_ne_true] at hcached
    obtain ⟨text, hget, rfl⟩ := Option.map_eq_some_iff.1 hcached
    obtain ⟨origin, horigin, hresolve⟩ := h.cached hget
    exact ⟨text, (horigins origin horigin).symm.trans hresolve, rfl⟩

/-- An answer is what the DNS has at the location. -/
theorem transparent_answer (client : Client ρ) (s : NodeDiscovery ρ) (k : ℕ) :
    Transparent client s (.answer k) := by
  intro place record hreturned
  obtain ⟨t, ht, hreturned⟩ := Option.bind_eq_some_iff.1 hreturned
  obtain ⟨subdomain, hsubdomain, hreturned⟩ := Option.bind_eq_some_iff.1 hreturned
  obtain ⟨⟨found, cache⟩, hquery, hreturned⟩ := Option.bind_eq_some_iff.1 hreturned
  cases hreturned
  cases hresult : query client s.cache t.context subdomain with
  | error e =>
    rw [hresult] at hquery
    cases hquery
  | ok result =>
    rw [hresult] at hquery
    cases hquery
    obtain ⟨text, hresolve, hrecord, -⟩ := query_eq_ok_iff.1 hresult
    exact ⟨text, hresolve, hrecord⟩

/-- A step is transparent iff what it looks up resolves to the same. -/
theorem transparent_step_iff (h : CacheSound client s) (e : DiscoveryEvent) :
    Transparent client s e ↔ SameAnswer client s e := by
  cases e with
  | lookup k => exact transparent_lookup_iff h k
  | answer k => exact iff_of_true (transparent_answer client s k) trivial
  | traverse | search | draw => exact iff_of_true (fun place record hreturned => by cases hreturned) trivial

/-- **The cache is transparent**, in every lookup of a run, iff each name that is looked up is not inherited from
`Object.prototype`, and resolves to the same where it was resolved before. -/
theorem transparent_iff (client : Client ρ) (es : List DiscoveryEvent) :
    (∀ es₁ e es₂ s, es = es₁ ++ e :: es₂ → run (discoveryStep client) NodeDiscovery.new es₁ = some s →
        Transparent client s e) ↔ Meets (discoveryStep client) (SameAnswer client) NodeDiscovery.new es := by
  rw [meets_iff]
  have hsound : ∀ {es₁ s}, run (discoveryStep client) NodeDiscovery.new es₁ = some s → CacheSound client s :=
    fun {es₁ s} hrun => run_invariant (fun s e s' h hstep => h.step hstep) es₁ cacheSound_new hrun
  constructor
  · intro h es₁ e es₂ s heq hrun
    exact (transparent_step_iff (hsound hrun) e).1 (h es₁ e es₂ s heq hrun)
  · intro h es₁ e es₂ s heq hrun
    exact (transparent_step_iff (hsound hrun) e).2 (h es₁ e es₂ s heq hrun)

end

/-! ## Two trees -/

/-- Two trees with a branch of the same name. -/
def sharedZone : Map String (List String) :=
  ⟨[("a.org", ["enrtree-branch:x"]), ("x.a.org", ["enr:a"]), ("b.org", ["enrtree-branch:x"]), ("x.b.org", ["enr:b"])],
    by decide⟩

/-- A client for these trees, whose records are not decoded. -/
def sharedClient : Client Unit := ⟨sharedZone, fun _ _ _ => .ok true, fun _ => .error .typeError⟩

/-- A search in the first tree, and one in the second up to the shared name. -/
def sharedRun : List DiscoveryEvent :=
  [.traverse "a.org" "", .search 0, .lookup 0, .answer 0, .draw 0 0, .lookup 0, .answer 0,
    .traverse "b.org" "", .search 1, .lookup 1, .answer 1, .draw 1 0]

/-- The second search is given the record of the first tree; and a tree at the domain `constructor` an object. -/
theorem not_transparent :
    (∃ s, run (discoveryStep sharedClient) NodeDiscovery.new sharedRun = some s ∧
      ¬Transparent sharedClient s (.lookup 1)) ∧
    ∃ s, run (discoveryStep sharedClient) NodeDiscovery.new [.traverse "constructor" "", .search 0] = some s ∧
      ¬Transparent sharedClient s (.lookup 0) := by
  constructor
  · have hrun : (run (discoveryStep sharedClient) NodeDiscovery.new sharedRun).isSome := by decide +kernel
    have hreturned : ∀ s ∈ run (discoveryStep sharedClient) NodeDiscovery.new sharedRun,
        returned sharedClient s (.lookup 1) = some ("x.b.org", .own "enr:a") := by decide +kernel
    obtain ⟨s, hs⟩ := Option.isSome_iff_exists.1 hrun
    refine ⟨s, hs, fun h => ?_⟩
    obtain ⟨text, hresolve, hrecord⟩ := h _ _ (hreturned s hs)
    cases hrecord
    exact absurd (Except.ok.inj (hresolve : Except.ok "enr:b" = _)) (by decide)
  · refine ⟨_, rfl, fun h => ?_⟩
    obtain ⟨text, -, hrecord⟩ := h "constructor" .inherited rfl
    cases hrecord

end JsWaku.Discovery
