import JsWaku.Discovery.EnrTree
import JsWaku.Lib.Transition

/-!
# The search of a DNS tree

`DnsNodeDiscovery._search` of `packages/discovery/src/dns/dns.ts`, one step for each TXT lookup and for each random draw
of `selectRandomPath`. The nested calls of a search are tail calls in a `try`, so that its state is the name to look up
next. `State.lookups` is a record of the names looked up.
-/

namespace JsWaku.Discovery

open Text Transition

/-! ## Lookups -/

/-- What a search calls: a DNS client that knows the TXT answers of a zone, the check of root signatures and the decoder
of records, whose promise may be rejected. -/
structure Client (ρ : Type) where
  zone : Map String (List String)
  verifyRoot : String → String → String → Except JsError Bool
  fromString : String → Except JsError (Except JsError ρ)

/-- `SearchContext`. -/
structure SearchContext where
  domain : String
  publicKey : String
  visits : Map String Bool
  deriving DecidableEq

/-- Whether `context.visits[subdomain]` is truthy. -/
def SearchContext.visited (context : SearchContext) (subdomain : String) : Bool :=
  match Dictionary.get context.visits subdomain with
  | some (.own value) => value
  | some .inherited => true
  | none => false

/-- The location of a name: the domain of the tree or a subdomain of it. -/
def location (subdomain domain : String) : String :=
  if subdomain ≠ domain then subdomain ++ "." ++ domain else domain

section

variable {ρ : Type} (client : Client ρ)

/-- `dns.resolveTXT`. -/
def Client.resolveTXT (location : String) : Except JsError (List String) :=
  match client.zone.get location with
  | some response => return response
  | none => throw (.error s!"Could not resolve {location}")

/-- The DNS query of `_getTXTRecord`. -/
def query (cache : Map String String) (context : SearchContext) (subdomain : String) :
    Except JsError (Property String × Map String String) := do
  let response ← client.resolveTXT (location subdomain context.domain)
  match response with
  | [] => throw (.error "Received empty result array while fetching TXT record")
  | first :: _ =>
    if first = "" then throw (.error "Received empty TXT record")
    else
      let result := String.join response
      return (.own result, Dictionary.assign cache subdomain result)

/-- `_getTXTRecord`, with the cache after it. -/
def getTXTRecord (cache : Map String String) (context : SearchContext) (subdomain : String) :
    Except JsError (Property String × Map String String) :=
  match Dictionary.get cache subdomain with
  | some (.own "") | none => query client cache context subdomain
  | some record => return (record, cache)

/-- `getEntryType`. -/
def getEntryType (entry : String) : String :=
  if startsWith entry ROOT_PREFIX then ROOT_PREFIX
  else if startsWith entry BRANCH_PREFIX then BRANCH_PREFIX
  else if startsWith entry RECORD_PREFIX then RECORD_PREFIX
  else ""

/-- A text with the prefix of records is a record. -/
theorem getEntryType_append (text : String) : getEntryType (RECORD_PREFIX ++ text) = RECORD_PREFIX := by
  have hroot : startsWith (RECORD_PREFIX ++ text) ROOT_PREFIX = false := by
    rw [startsWith, String.toList_append]
    rfl
  have hbranch : startsWith (RECORD_PREFIX ++ text) BRANCH_PREFIX = false := by
    rw [startsWith, String.toList_append]
    rfl
  rw [getEntryType, hroot, hbranch, startsWith_append]
  rfl

/-! ## Random paths -/

/-- The indices of `circularRefs` in `selectRandomPath`. -/
def circularRefs (branches : List String) (context : SearchContext) : List ℕ :=
  (List.range branches.length).filter fun idx => context.visited (branches.getD idx "")

/-! ## Searches -/

/-- Where a search stands. -/
inductive Call (ρ : Type)
  /-- `_search(subdomain, context)` was called -/
  | search (subdomain : String)
  /-- in the loop of `selectRandomPath` -/
  | select (branches : List String) (circularRefs : List ℕ)
  /-- the promise of the search is settled -/
  | settled (result : Except JsError (Option ρ))
  deriving DecidableEq

/-- A discovery with a search in progress, and the names that the search has looked up. -/
structure State (ρ : Type) where
  cache : Map String String
  context : SearchContext
  lookups : List String
  call : Call ρ

namespace State

/-- `_search(subdomain, context)` is called. -/
def start (cache : Map String String) (context : SearchContext) (subdomain : String) : State ρ :=
  { cache, context, lookups := [], call := .search subdomain }

/-- What a promise returned by `_search` comes to. It is not awaited in the `try`, but the call around it is. -/
def settle (nested : Bool) : Except JsError ρ → Except JsError (Option ρ)
  | .ok enr => .ok (some enr)
  | .error e => if nested then .ok none else .error e

/-- The `switch` of `_search`; what it throws is logged. -/
def follow (context : SearchContext) (nested : Bool) (entry : String) : Except JsError (Call ρ) := do
  let entryType := getEntryType entry
  if entryType = ROOT_PREFIX then do
    let next ← parseAndVerifyRoot client.verifyRoot entry context.publicKey
    return .search next
  else if entryType = BRANCH_PREFIX then do
    let branches ← parseBranch entry
    if (circularRefs branches context).length = branches.length then
      throw (.error "Unresolvable circular path detected")
    else return .select branches (circularRefs branches context)
  else if entryType = RECORD_PREFIX then do
    let promise ← client.fromString entry
    return .settled (settle nested promise)
  else return .settled (.ok none)

/-- A lookup and what follows it. An inherited object has no `startsWith`. -/
def lookup (s : State ρ) (subdomain : String) : State ρ :=
  let lookups := subdomain :: s.lookups
  match getTXTRecord client s.cache s.context subdomain with
  | .error _ => { s with lookups, call := .settled (.ok none) }
  | .ok (record, cache) =>
    let context := { s.context with visits := Dictionary.assign s.context.visits subdomain true }
    match record with
    | .inherited => { cache, context, lookups, call := .settled (.ok none) }
    | .own entry =>
      match follow client context (!s.lookups.isEmpty) entry with
      | .error _ => { cache, context, lookups, call := .settled (.ok none) }
      | .ok call => { cache, context, lookups, call }

end State

/-- What makes a search go on. -/
inductive Event
  | lookup
  /-- `Math.floor(Math.random() * branches.length)` is the rest of this number -/
  | draw (random : ℕ)
  deriving DecidableEq

/-- One step of a search. -/
def step (s : State ρ) : Event → Option (State ρ)
  | .lookup =>
    match s.call with
    | .search subdomain => some (s.lookup client subdomain)
    | _ => none
  | .draw random =>
    match s.call with
    | .select branches refs =>
      let index := random % branches.length
      if refs.contains index then some s else some { s with call := .search (branches.getD index "") }
    | _ => none

end

end JsWaku.Discovery
