import JsWaku.Core.Store

/-!
# Store queries with a callback

`queryWithOrderedCallback`, `processMessages` and `queryWithPromiseCallback` of `packages/sdk/src/store/store.ts`, over
the pages that `queryGenerator` yields. The callbacks of a page are all started before the first of them settles: an
async function of the page checks the shared `abort`, calls the callback, and assigns `abort` when what the callback
returned settles. So a page is told by which callbacks settle, in which order, and with what (`Settlement`).

What a query does is a log of page requests, callback calls and settlements. The last callback to settle decides
whether the query goes on (`settle_eq_resolved_false`), and so a callback that returned true stops it only under the
conditions of `abort_iff`.
-/

namespace JsWaku.Sdk.Store

/-! ## The callbacks of a page -/

/-- What the promise of a callback settles with: undefined or a boolean, or a rejection. -/
abbrev Outcome := Except JsError (Option Bool)

/-- `Boolean(value)` of a value a callback resolved to. -/
def toBoolean (value : Option Bool) : Bool := value = some true

/-- The settlements of the callbacks on `n` messages, in order; a callback that is not listed never settles. -/
structure Settlement (n : ℕ) where
  order : List (ℕ × Outcome)
  nodup : (order.map Prod.fst).Nodup
  bound : ∀ i ∈ order.map Prod.fst, i < n

/-- What `Promise.all` over the callbacks of a page comes to, with the final `abort`. -/
inductive PageResult
  | resolved (abort : Bool)
  | rejected (e : JsError)
  | pending
  deriving DecidableEq

/-- The async functions of a page as their callbacks settle, `left` of them still waiting: each assigns `abort`, the
last one resolves `Promise.all`, and a rejection rejects it. -/
def settle : ℕ → Bool → List (ℕ × Outcome) → PageResult
  | 0, abort, _ => .resolved abort
  | _ + 1, _, [] => .pending
  | left + 1, _, (_, .ok value) :: rest => settle left (toBoolean value) rest
  | _ + 1, _, (_, .error e) :: _ => .rejected e

/-- What a query does: it requests a page, calls the callback on a message of a page, and a callback settles. -/
inductive LogEvent
  | requested (page : ℕ)
  | invoked (page message : ℕ)
  | settled (page message : ℕ) (outcome : Outcome)
  deriving DecidableEq

/-- The callbacks of a page: with `abort` still unset each is called, and then they settle. -/
def pageLog (page n : ℕ) (order : List (ℕ × Outcome)) : List LogEvent :=
  (List.range n).map (.invoked page) ++ order.map fun settlement => .settled page settlement.1 settlement.2

/-! ## The queries -/

section

variable {T α : Type}

/-- A page of the generator: the promises of its messages. -/
abbrev Page (T : Type) := List (Except JsError (Option T))

/-- `Promise.all` of promises that have settled. -/
def promiseAll (promises : List (Except JsError α)) : Except JsError (List α) := promises.mapM id

/-- The loop over the pages of the generator, each of which one request brings: `items` are the values a page is mapped
over, or `none` where the query is rejected before. Another page is requested where the page resolves to no abort. After
the last page the generator ends, with a request that brings no messages or without one (`ending`). -/
def queryLoop (items : Page T → Option (List α)) (callback : ℕ → (messages : List α) → Settlement messages.length)
    (ending : Bool) : ℕ → List (Page T) → List LogEvent
  | page, [] => if ending then [.requested page] else []
  | page, promises :: rest =>
    .requested page ::
      match items promises with
      | none => []
      | some messages =>
        pageLog page messages.length (callback page messages).order ++
          match settle messages.length false (callback page messages).order with
          | .resolved false => queryLoop items callback ending (page + 1) rest
          | _ => []

/-- The messages `processMessages` calls the callback on, unless a promise of the page is rejected. -/
def processedMessages (messages : Page T) : Option (List T) :=
  match promiseAll messages with
  | .ok messagesOrUndef => some (messagesOrUndef.filterMap id)
  | .error _ => none

/-- `queryWithOrderedCallback`. -/
def queryWithOrderedCallback (callback : ℕ → (messages : List T) → Settlement messages.length) (pages : List (Page T))
    (ending : Bool) : List LogEvent :=
  queryLoop processedMessages callback ending 0 pages

/-- `queryWithPromiseCallback`: the callback is called on the promises of a page. -/
def queryWithPromiseCallback (callback : ℕ → (promises : Page T) → Settlement promises.length)
    (pages : List (Page T)) (ending : Bool) : List LogEvent :=
  queryLoop some callback ending 0 pages

end

/-! ## Which settlements let a query go on -/

namespace Settlement

variable {n : ℕ} (st : Settlement n)

/-- Some callback returned true. -/
def ReturnsTrue : Prop := ∃ settlement ∈ st.order, settlement.2 = .ok (some true)

/-- Some callback was rejected. -/
def Rejects : Prop := ∃ settlement ∈ st.order, settlement.2.toBool = false

/-- The callback that settles last returned true. -/
def EndsTrue : Prop := ∃ settlement ∈ st.order.getLast?, settlement.2 = .ok (some true)

/-- Every callback settles, none with true and none with a rejection. -/
def Quiet : Prop := st.order.length = n ∧ ¬st.Rejects ∧ ¬st.ReturnsTrue

/-- Once a callback returned true, some callback never settles or is rejected, or the last to settle returned true. -/
def Stops : Prop := st.ReturnsTrue → st.order.length < n ∨ st.Rejects ∨ st.EndsTrue

/-- Only the callback on the last message returns true. -/
def OnlyLast : Prop := ∀ settlement ∈ st.order, settlement.2 = .ok (some true) → settlement.1 + 1 = n

instance : Decidable st.ReturnsTrue := inferInstanceAs (Decidable (∃ settlement ∈ st.order, _))
instance : Decidable st.Rejects := inferInstanceAs (Decidable (∃ settlement ∈ st.order, _))
instance : Decidable st.EndsTrue := inferInstanceAs (Decidable (∃ settlement ∈ st.order.getLast?, _))
instance : Decidable st.Quiet := inferInstanceAs (Decidable (_ ∧ _))
instance : Decidable st.Stops := inferInstanceAs (Decidable (_ → _))
instance : Decidable st.OnlyLast := inferInstanceAs (Decidable (∀ settlement ∈ st.order, _))

/-- Each callback settles at most once. -/
theorem length_le : st.order.length ≤ n := by
  have hsub : st.order.map Prod.fst ⊆ List.range n := fun i hi => List.mem_range.2 (st.bound i hi)
  calc st.order.length = (st.order.map Prod.fst).length := (List.length_map _).symm
    _ ≤ (List.range n).length := (List.Nodup.subperm st.nodup hsub).length_le
    _ = n := List.length_range

end Settlement

/-- The value that `abort` is left with. -/
def finalAbort (abort : Bool) (order : List (ℕ × Outcome)) : Bool :=
  match order.getLast? with
  | some settlement => settlement.2 = .ok (some true)
  | none => abort

theorem finalAbort_cons (abort : Bool) (i : ℕ) (value : Option Bool) (rest : List (ℕ × Outcome)) :
    finalAbort abort ((i, .ok value) :: rest) = finalAbort (toBoolean value) rest := by
  cases rest with
  | nil => simp [finalAbort, toBoolean]
  | cons next rest =>
    obtain ⟨last, hlast⟩ : ∃ last, (next :: rest).getLast? = some last := ⟨_, List.getLast?_eq_some_getLast (by simp)⟩
    simp [finalAbort, List.getLast?_cons_cons, hlast]

/-- A page resolves when all its callbacks have settled and none was rejected. Each overwrites `abort`, so that the last
to settle decides it. -/
theorem settle_eq_resolved : ∀ (left : ℕ) (abort b : Bool) (order : List (ℕ × Outcome)), order.length ≤ left →
    (settle left abort order = .resolved b ↔
      order.length = left ∧ (¬∃ settlement ∈ order, settlement.2.toBool = false) ∧ finalAbort abort order = b)
  | 0, abort, b, order, h => by
    obtain rfl : order = [] := List.length_eq_zero_iff.1 (Nat.le_zero.1 h)
    simp [settle, finalAbort]
  | left + 1, abort, b, [], h => by simp [settle]
  | left + 1, abort, b, (i, .error e) :: rest, h => by simp [settle, Except.toBool]
  | left + 1, abort, b, (i, .ok value) :: rest, h => by
    rw [settle, settle_eq_resolved left (toBoolean value) b rest (by simpa using h), finalAbort_cons]
    simp [Except.toBool]

namespace Settlement

variable {n : ℕ} (st : Settlement n)

/-- What a query waits for on a page. -/
def result : PageResult := settle n false st.order

theorem finalAbort_eq_true_iff : finalAbort false st.order = true ↔ st.EndsTrue := by
  rw [finalAbort, EndsTrue]
  cases st.order.getLast? with
  | none => simp
  | some settlement => simp

/-- The query goes on after a page where no callback returned true exactly when the page is quiet. -/
theorem result_eq_resolved_false (hno : ¬st.ReturnsTrue) : st.result = .resolved false ↔ st.Quiet := by
  have hend : ¬st.EndsTrue := fun ⟨settlement, hmem, h⟩ => hno ⟨settlement, List.mem_of_getLast? hmem, h⟩
  rw [result, settle_eq_resolved n false false st.order st.length_le, ← Bool.not_eq_true, st.finalAbort_eq_true_iff]
  exact ⟨fun ⟨hlen, hrej, _⟩ => ⟨hlen, hrej, hno⟩, fun ⟨hlen, hrej, _⟩ => ⟨hlen, hrej, hend⟩⟩

/-- After a page where some callback returned true the query goes on exactly when nothing stops it. -/
theorem stops_iff (htrue : st.ReturnsTrue) : st.Stops ↔ st.result ≠ .resolved false := by
  rw [result, Ne, settle_eq_resolved n false false st.order st.length_le, ← Bool.not_eq_true, st.finalAbort_eq_true_iff]
  have hle := st.length_le
  constructor
  · rintro hstops ⟨hlen, hrej, hend⟩
    rcases hstops htrue with h | h | h
    · omega
    · exact hrej h
    · exact hend h
  · intro h _
    by_cases hlen : st.order.length = n
    · by_cases hrej : st.Rejects
      · exact Or.inr (Or.inl hrej)
      · exact Or.inr (Or.inr (by_contra fun hend => h ⟨hlen, hrej, hend⟩))
    · exact Or.inl (by omega)

end Settlement

/-! ## What aborting promises -/

/-- Once a callback has returned true no page is requested. -/
def NoFurtherPage (log : List LogEvent) : Prop :=
  log.Pairwise fun before after => ∀ page message, before = .settled page message (.ok (some true)) →
    ∀ page', after ≠ .requested page'

/-- A message comes after another one. -/
def Later (page message page' message' : ℕ) : Prop := page < page' ∨ (page = page' ∧ message < message')

/-- The callback is not called on a message after one on which it returned true. -/
def NotInvokedAfter (log : List LogEvent) : Prop :=
  ∀ page message page' message', .settled page message (.ok (some true)) ∈ log → .invoked page' message' ∈ log →
    ¬Later page message page' message'

section

variable {T α : Type} {items : Page T → Option (List α)}
  {callback : ℕ → (messages : List α) → Settlement messages.length} {ending : Bool}

/-- A condition on every page of a query up to the first on which a callback returns true, is rejected or never
settles; it may depend on whether another request follows the page. -/
def EachPage (C : Bool → ∀ n, Settlement n → Prop) (items : Page T → Option (List α))
    (callback : ℕ → (messages : List α) → Settlement messages.length) (ending : Bool) : ℕ → List (Page T) → Prop
  | _, [] => True
  | page, promises :: rest =>
    match items promises with
    | none => True
    | some messages =>
      C (!rest.isEmpty || ending) _ (callback page messages) ∧
        ((callback page messages).Quiet → EachPage C items callback ending (page + 1) rest)

/-! ## The log of a page -/

theorem settled_mem_pageLog {page n p m : ℕ} {order : List (ℕ × Outcome)} {outcome : Outcome} :
    .settled p m outcome ∈ pageLog page n order ↔ p = page ∧ (m, outcome) ∈ order := by
  simp only [pageLog, List.mem_append, List.mem_map, reduceCtorEq, and_false, exists_false, false_or,
    LogEvent.settled.injEq, Prod.exists]
  constructor
  · rintro ⟨a, b, hmem, rfl, rfl, rfl⟩
    exact ⟨rfl, hmem⟩
  · rintro ⟨rfl, hmem⟩
    exact ⟨m, outcome, hmem, rfl, rfl, rfl⟩

theorem invoked_mem_pageLog {page n p m : ℕ} {order : List (ℕ × Outcome)} :
    .invoked p m ∈ pageLog page n order ↔ p = page ∧ m < n := by
  simp [pageLog, eq_comm, and_comm]

theorem requested_notMem_pageLog {page n p : ℕ} {order : List (ℕ × Outcome)} : .requested p ∉ pageLog page n order := by
  simp [pageLog]

/-- The page of a call or a settlement. -/
def LogEvent.AtLeast (page : ℕ) : LogEvent → Prop
  | .requested _ => True
  | .invoked p _ => page ≤ p
  | .settled p _ _ => page ≤ p

theorem atLeast_of_mem_pageLog {page n : ℕ} {order : List (ℕ × Outcome)} {event : LogEvent}
    (h : event ∈ pageLog page n order) : event.AtLeast page := by
  cases event with
  | requested p => trivial
  | invoked p m => exact (invoked_mem_pageLog.1 h).1.ge
  | settled p m outcome => exact (settled_mem_pageLog.1 h).1.ge

/-- The loop from a page on is about that page and later ones. -/
theorem atLeast_of_mem_queryLoop : ∀ (pages : List (Page T)) {page : ℕ} {event : LogEvent},
    event ∈ queryLoop items callback ending page pages → event.AtLeast page
  | [], page, event, h => by
    rw [queryLoop] at h
    split at h
    · obtain rfl := List.mem_singleton.1 h
      trivial
    · cases h
  | promises :: rest, page, event, h => by
    rw [queryLoop, List.mem_cons] at h
    rcases h with rfl | h
    · trivial
    · cases hitems : items promises with
      | none => simp [hitems] at h
      | some messages =>
        simp only [hitems, List.mem_append] at h
        rcases h with h | h
        · exact atLeast_of_mem_pageLog h
        · split at h
          · have := atLeast_of_mem_queryLoop rest h
            cases event with
            | requested p => trivial
            | invoked p m => exact Nat.le_of_succ_le this
            | settled p m outcome => exact Nat.le_of_succ_le this
          · cases h

/-- The loop begins with a request, if there is one. -/
theorem requested_mem_queryLoop (page : ℕ) {pages : List (Page T)} (h : (!pages.isEmpty || ending) = true) :
    .requested page ∈ queryLoop items callback ending page pages := by
  cases pages with
  | nil => simpa [queryLoop] using h
  | cons promises rest => simp [queryLoop]

/-- The loop without a request does nothing. -/
theorem queryLoop_eq_nil (page : ℕ) {pages : List (Page T)} (h : ¬(!pages.isEmpty || ending) = true) :
    queryLoop items callback ending page pages = [] := by
  cases pages with
  | nil => simpa [queryLoop] using h
  | cons promises rest => simp at h

/-- The log of a page followed by a log. -/
theorem noFurtherPage_page {page n : ℕ} (st : Settlement n) (log : List LogEvent) :
    NoFurtherPage (.requested page :: (pageLog page n st.order ++ log)) ↔
      (st.ReturnsTrue → ∀ page', .requested page' ∉ log) ∧ NoFurtherPage log := by
  rw [NoFurtherPage, List.pairwise_cons, List.pairwise_append]
  constructor
  · rintro ⟨-, -, hlog, hcross⟩
    refine ⟨?_, hlog⟩
    rintro ⟨⟨m, outcome⟩, hmem, htrue⟩ page' hreq
    simp only at htrue
    subst htrue
    exact hcross _ (settled_mem_pageLog.2 ⟨rfl, hmem⟩) _ hreq page m rfl page' rfl
  · rintro ⟨hcross, hlog⟩
    refine ⟨?_, ?_, hlog, ?_⟩
    · intro after _ p m h
      cases h
    · refine List.pairwise_of_forall_mem_list ?_
      rintro before _ after hafter p m - page' rfl
      exact requested_notMem_pageLog hafter
    · rintro before hbefore after hafter p m rfl page' rfl
      exact hcross ⟨_, (settled_mem_pageLog.1 hbefore).2, rfl⟩ page' hafter

/-- The log of a page followed by a log about later pages. -/
theorem notInvokedAfter_page {page n : ℕ} (st : Settlement n) {log : List LogEvent}
    (hlater : ∀ event ∈ log, event.AtLeast (page + 1)) :
    NotInvokedAfter (.requested page :: (pageLog page n st.order ++ log)) ↔
      st.OnlyLast ∧ (st.ReturnsTrue → ∀ p m, .invoked p m ∉ log) ∧ NotInvokedAfter log := by
  constructor
  · intro h
    refine ⟨?_, ?_, ?_⟩
    · rintro ⟨m, outcome⟩ hmem htrue
      simp only at htrue
      subst htrue
      have hbound : m < n := st.bound m (List.mem_map_of_mem hmem)
      by_contra hne
      have hnext : m + 1 < n := by simp only at hne; omega
      exact h page m page (m + 1) (by simp [settled_mem_pageLog, hmem]) (by simp [invoked_mem_pageLog, hnext])
        (Or.inr ⟨rfl, Nat.lt_succ_self m⟩)
    · rintro ⟨⟨m, outcome⟩, hmem, htrue⟩ p m' hinv
      simp only at htrue
      subst htrue
      exact h page m p m' (by simp [settled_mem_pageLog, hmem]) (by simp [hinv]) (Or.inl (hlater _ hinv))
    · intro p m p' m' hset hinv
      exact h p m p' m' (by simp [hset]) (by simp [hinv])
  · rintro ⟨honly, hnone, hlog⟩ p m p' m' hset hinv hLater
    simp only [List.mem_cons, reduceCtorEq, List.mem_append, settled_mem_pageLog, false_or] at hset
    simp only [List.mem_cons, reduceCtorEq, List.mem_append, invoked_mem_pageLog, false_or] at hinv
    rcases hset with ⟨rfl, hmem⟩ | hset
    · rcases hinv with ⟨rfl, hlt⟩ | hinv
      · have : m + 1 = n := honly _ hmem rfl
        rcases hLater with h | ⟨-, h⟩ <;> omega
      · exact hnone ⟨_, hmem, rfl⟩ p' m' hinv
    · rcases hinv with ⟨rfl, hlt⟩ | hinv
      · have hp : p' + 1 ≤ p := hlater _ hset
        rcases hLater with h | ⟨h, -⟩ <;> omega
      · exact hlog p m p' m' hset hinv hLater

/-- One round of the loop, unfolded. -/
theorem queryLoop_cons (page : ℕ) (promises : Page T) (rest : List (Page T)) {messages : List α}
    (hitems : items promises = some messages) :
    queryLoop items callback ending page (promises :: rest) =
      .requested page :: (pageLog page messages.length (callback page messages).order ++
        if (callback page messages).result = .resolved false then queryLoop items callback ending (page + 1) rest
        else []) := by
  simp only [queryLoop, hitems]
  by_cases h : (callback page messages).result = .resolved false
  · have h' : settle messages.length false (callback page messages).order = .resolved false := h
    rw [if_pos h, h']
  · rw [if_neg h]
    split
    · rename_i h'
      exact absurd h' h
    · rfl

/-- No page is requested after a callback returned true exactly when each page stops that has such a callback and that
another request would follow. -/
theorem noFurtherPage_iff : ∀ (pages : List (Page T)) (page : ℕ),
    NoFurtherPage (queryLoop items callback ending page pages) ↔
      EachPage (fun more _ st => more → st.Stops) items callback ending page pages
  | [], page => by
    rw [queryLoop]
    split <;> simp [NoFurtherPage, EachPage]
  | promises :: rest, page => by
    cases hitems : items promises with
    | none => simp [queryLoop, hitems, NoFurtherPage, EachPage]
    | some messages =>
      rw [queryLoop_cons page promises rest hitems, noFurtherPage_page]
      simp only [EachPage, hitems]
      have ih := noFurtherPage_iff rest (page + 1)
      by_cases htrue : (callback page messages).ReturnsTrue
      · have hquiet : ¬(callback page messages).Quiet := fun h => h.2.2 htrue
        rw [Settlement.stops_iff _ htrue]
        by_cases hres : (callback page messages).result = .resolved false
        · simp only [if_pos hres]
          by_cases hmore : (!rest.isEmpty || ending) = true
          · have hreq : .requested (page + 1) ∈ queryLoop items callback ending (page + 1) rest :=
              requested_mem_queryLoop (page + 1) hmore
            exact ⟨fun h => absurd hreq (h.1 htrue (page + 1)), fun h => absurd hres (h.1 hmore)⟩
          · rw [queryLoop_eq_nil (page + 1) hmore]
            simp [hmore, hquiet, NoFurtherPage]
        · simp only [if_neg hres, hquiet]
          simp [hres, NoFurtherPage]
      · have hstops : (callback page messages).Stops := fun h => absurd h htrue
        rw [← Settlement.result_eq_resolved_false _ htrue]
        by_cases hres : (callback page messages).result = .resolved false
        · simp [hres, htrue, hstops, ih]
        · simp [hres, htrue, hstops, NoFurtherPage]

/-- With calls that come after the message as well: only the callback on the last message of a page may return true. -/
theorem ordered_iff : ∀ (pages : List (Page T)) (page : ℕ),
    (NoFurtherPage (queryLoop items callback ending page pages) ∧
        NotInvokedAfter (queryLoop items callback ending page pages)) ↔
      EachPage (fun more _ st => st.OnlyLast ∧ (more → st.Stops)) items callback ending page pages
  | [], page => by
    rw [queryLoop]
    split <;> simp [NoFurtherPage, NotInvokedAfter, EachPage]
  | promises :: rest, page => by
    rw [noFurtherPage_iff]
    cases hitems : items promises with
    | none => simp [queryLoop, hitems, NotInvokedAfter, EachPage]
    | some messages =>
      rw [queryLoop_cons page promises rest hitems, notInvokedAfter_page]
      · have ih := ordered_iff rest (page + 1)
        rw [noFurtherPage_iff] at ih
        simp only [EachPage, hitems]
        by_cases htrue : (callback page messages).ReturnsTrue
        · have hquiet : ¬(callback page messages).Quiet := fun h => h.2.2 htrue
          constructor
          · rintro ⟨⟨hstops, -⟩, honly, -⟩
            exact ⟨⟨honly, hstops⟩, fun h => absurd h hquiet⟩
          · rintro ⟨⟨honly, hstops⟩, -⟩
            refine ⟨⟨hstops, fun h => absurd h hquiet⟩, honly, ?_⟩
            by_cases hmore : (!rest.isEmpty || ending) = true
            · have hres := (Settlement.stops_iff _ htrue).1 (hstops hmore)
              simp [hres, NotInvokedAfter]
            · rw [queryLoop_eq_nil (page + 1) hmore]
              simp [NotInvokedAfter]
        · have hres := Settlement.result_eq_resolved_false _ htrue
          by_cases hquiet : (callback page messages).Quiet
          · have hgo := hres.2 hquiet
            simp only [if_pos hgo, hquiet, true_imp_iff]
            constructor
            · rintro ⟨⟨hstops, hrest⟩, honly, -, hlog⟩
              exact ⟨⟨honly, hstops⟩, ih.1 ⟨hrest, hlog⟩⟩
            · rintro ⟨⟨honly, hstops⟩, hrest⟩
              obtain ⟨hpages, hlog⟩ := ih.2 hrest
              exact ⟨⟨hstops, hpages⟩, honly, fun h => absurd h htrue, hlog⟩
          · have hno : ¬(callback page messages).result = .resolved false := fun h => hquiet (hres.1 h)
            simp [hquiet, hno, htrue, NotInvokedAfter, and_comm]
      · intro event hmem
        split at hmem
        · exact atLeast_of_mem_queryLoop rest hmem
        · cases hmem

end

/-! ## Aborting a query -/

/-- **Aborting works exactly when the last callback of a page decides it.** For every sequence of pages and every
callback, settling in any order: the ordered query requests no page once a callback returned true, and does not call
the callback on a later message, iff on every page it comes to only the callback on the last message returns true and,
if it does and another request would follow, it settles last or some callback of the page is rejected or never settles.
The promise query requests no page once a callback returned true iff on every page it comes to with such a callback and
with another request to follow, the last to settle returned true or some callback is rejected or never settles. -/
theorem abort_iff {T : Type} (orderedCallback : ℕ → (messages : List T) → Settlement messages.length)
    (promiseCallback : ℕ → (promises : Page T) → Settlement promises.length) (pages : List (Page T)) (ending : Bool) :
    ((NoFurtherPage (queryWithOrderedCallback orderedCallback pages ending) ∧
        NotInvokedAfter (queryWithOrderedCallback orderedCallback pages ending)) ↔
      EachPage (fun more _ st => st.OnlyLast ∧ (more → st.Stops)) processedMessages orderedCallback ending 0 pages) ∧
    (NoFurtherPage (queryWithPromiseCallback promiseCallback pages ending) ↔
      EachPage (fun more _ st => more → st.Stops) some promiseCallback ending 0 pages) :=
  ⟨ordered_iff pages 0, noFurtherPage_iff pages 0⟩

/-- A callback that returns true on the first message of a page and false on the others, in order. -/
def firstReturnsTrue {α : Type} (messages : List α) : Settlement messages.length where
  order := (List.range messages.length).map fun i => (i, .ok (some (i == 0)))
  nodup := by
    rw [List.map_map]
    exact (List.map_id (List.range messages.length)).symm ▸ List.nodup_range
  bound := by simp

/-- On a page of two messages the callback that returns true on the first one is called on the second, and the next page
is requested. -/
theorem abort_ignored :
    ¬∀ (pages : List (Page ℕ)) (ending : Bool),
      (NoFurtherPage (queryWithOrderedCallback (fun _ => firstReturnsTrue) pages ending) ∧
        NotInvokedAfter (queryWithOrderedCallback (fun _ => firstReturnsTrue) pages ending)) ∧
      NoFurtherPage (queryWithPromiseCallback (fun _ => firstReturnsTrue) pages ending) := by
  intro h
  have hlog : queryWithOrderedCallback (fun _ => firstReturnsTrue) [[.ok (some 1), .ok (some 2)]] true =
      [.requested 0, .invoked 0 0, .invoked 0 1, .settled 0 0 (.ok (some true)), .settled 0 1 (.ok (some false)),
        .requested 1] := by
    decide
  obtain ⟨⟨hpages, -⟩, -⟩ := h [[.ok (some 1), .ok (some 2)]] true
  rw [hlog, NoFurtherPage] at hpages
  simp at hpages

end JsWaku.Sdk.Store
