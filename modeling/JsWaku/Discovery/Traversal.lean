import JsWaku.Discovery.Tree

/-!
# One search of a tree

A search of a tree of names crosses the root entry and the top branch, chooses a tree below the top that was not entered
before, and goes down in it to a record (`Stage.step`, `Stage.outcome`). It can always return (`Stage.settles`).
-/

namespace JsWaku.Discovery

open Transition

variable {ρ : Type} {client : Client ρ} {s₁ s s' : State ρ} {tree : DnsTree ρ}

/-! ## Visits -/

/-- Visits were added, and only of these names. -/
structure Visits (s₁ s : State ρ) (names : List String) : Prop where
  kept : ∀ {name}, s₁.context.visited name → s.context.visited name
  only : ∀ {name}, s.context.visited name → s₁.context.visited name ∨ name ∈ names

theorem Visits.refl (s : State ρ) : Visits s s [] := ⟨id, Or.inl⟩

theorem Visits.visit {names names' : List String} {name : String} (h : Visits s₁ s names)
    (hcontext : s'.context = s.visit name) (hname : name ∈ names') (hsub : names ⊆ names') :
    Visits s₁ s' names' := by
  constructor
  · intro other hother
    rw [hcontext, visited_visit, h.kept hother, Bool.true_or]
  · intro other hother
    rw [hcontext, visited_visit, Bool.or_eq_true, decide_eq_true_eq] at hother
    rcases hother with hother | rfl
    · exact (h.only hother).imp_right fun hmem => hsub hmem
    · exact Or.inr hname

theorem Visits.mono {names names' : List String} (h : Visits s₁ s names) (hsub : names ⊆ names') :
    Visits s₁ s names' :=
  ⟨h.kept, fun hname => (h.only hname).imp_right fun hmem => hsub hmem⟩

theorem Visits.congr {names : List String} (h : Visits s₁ s names) (hcontext : s'.context = s.context) :
    Visits s₁ s' names :=
  ⟨fun hname => hcontext ▸ h.kept hname, fun hname => h.only (hcontext ▸ hname)⟩

theorem Visits.trans {names names' : List String} (h : Visits s₁ s names) (h' : Visits s s' names')
    (hsub : names' ⊆ names) : Visits s₁ s' names :=
  ⟨fun hname => h'.kept (h.kept hname), fun hname =>
    (h'.only hname).elim (fun hname => h.only hname) fun hmem => Or.inr (hsub hmem)⟩

/-- A name that is not among them was not visited since. -/
theorem Visits.not_visited {names : List String} {name : String} (h : Visits s₁ s names)
    (hname : s₁.context.visited name = false) (hnot : name ∉ names) : s.context.visited name = false := by
  cases hvisited : s.context.visited name with
  | false => rfl
  | true =>
    rcases h.only hvisited with hbefore | hmem
    · rw [hname] at hbefore
      cases hbefore
    · exact absurd hmem hnot

/-- What is not visited was not visited before. -/
theorem Visits.not_visited_before {names : List String} {name : String} (h : Visits s₁ s names)
    (hname : s.context.visited name = false) : s₁.context.visited name = false := by
  cases hbefore : s₁.context.visited name with
  | false => rfl
  | true =>
    rw [h.kept hbefore] at hname
    cases hname

/-- A lookup visits no other name. -/
theorem visits_lookup (s : State ρ) (name : String) : Visits s (s.lookup client name) [name] := by
  have hvisit : ∀ s' : State ρ, s'.context = s.visit name → Visits s s' [name] := fun s' h =>
    (Visits.refl s).visit h List.mem_cons_self (List.nil_subset _)
  unfold State.lookup
  split
  · exact ((Visits.refl s).mono (List.nil_subset _)).congr rfl
  · simp only
    split
    · exact hvisit _ rfl
    · split <;> exact hvisit _ rfl

/-! ## The entries of a tree -/

/-- What a tree of names is like below its top. -/
structure Tree.Sound (client : Client ρ) (s : State ρ) (sub : Tree ρ) : Prop where
  nodup : sub.names.Nodup
  base32 : ∀ name ∈ sub.names, name.toList.all isBase32
  nonempty : ∀ other ∈ sub.subtrees, other.enr? = none → other.children ≠ []
  served : ∀ other ∈ sub.subtrees, other.Served client s

theorem Tree.Sound.below {sub other : Tree ρ} (h : sub.Sound client s) (hother : other ∈ sub.subtrees) :
    other.Sound client s :=
  ⟨h.nodup.sublist (Tree.names_sublist hother), fun name hname => h.base32 name ((Tree.names_sublist hother).mem hname),
    fun _ hmem => h.nonempty _ ((Tree.subtrees_sublist hother).mem hmem),
    fun _ hmem => h.served _ ((Tree.subtrees_sublist hother).mem hmem)⟩

theorem Tree.Sound.child {sub child : Tree ρ} (h : sub.Sound client s) (hchild : child ∈ sub.children) :
    child.Sound client s :=
  h.below (Tree.mem_subtrees_of_mem_children hchild)

theorem Tree.Sound.congr {sub : Tree ρ} (h : sub.Sound client s) (hentry : s'.entry client = s.entry client) :
    sub.Sound client s' :=
  ⟨h.nodup, h.base32, h.nonempty, fun other hother => (h.served other hother).congr hentry⟩

theorem DnsTree.Served.sound (h : tree.Served client s) : tree.top.Sound client s :=
  ⟨(List.nodup_cons.1 tree.nodup).2, tree.base32, tree.nonempty, h.entries⟩

/-- The lookup of a record returns it, that of a branch goes on unless all names were visited. -/
theorem Tree.Sound.lookup_cases {sub : Tree ρ} (h : sub.Sound client s) :
    (s.lookup client sub.name).context = s.visit sub.name ∧
      ((∃ enr, sub.enr? = some enr ∧ (s.lookup client sub.name).call = .settled (.ok (some enr))) ∨
        sub.enr? = none ∧ (s.lookup client sub.name).call =
          if ∀ child ∈ sub.children, (s.visit sub.name).visited child.name then .settled (.ok none)
          else .select (sub.children.map Tree.name) (circularRefs (sub.children.map Tree.name) (s.visit sub.name))) := by
  cases sub with
  | record name enr =>
    obtain ⟨hcall, hcontext⟩ := lookup_record (h.served _ (Tree.self_mem_subtrees _))
    exact ⟨hcontext, Or.inl ⟨enr, rfl, hcall⟩⟩
  | branch name children =>
    have hbase32 : ∀ child ∈ (Tree.branch name children).children, child.name.toList.all isBase32 := by
      intro child hchild
      exact h.base32 _ (Tree.mem_names_of_mem_children hchild child.name_mem_names)
    have hne : children ≠ [] := h.nonempty _ (Tree.self_mem_subtrees _) rfl
    obtain ⟨hcontext, hcall⟩ := lookup_branch (h.served _ (Tree.self_mem_subtrees _)) hne hbase32
    exact ⟨hcontext, Or.inr ⟨rfl, hcall⟩⟩

/-- The lookup of a tree whose names were not visited. -/
theorem Tree.Sound.lookup {sub : Tree ρ} (h : sub.Sound client s)
    (hnew : ∀ name ∈ sub.names, s.context.visited name = false) :
    (s.lookup client sub.name).context = s.visit sub.name ∧
      ((∃ enr, sub.enr? = some enr ∧ (s.lookup client sub.name).call = .settled (.ok (some enr))) ∨
        (∃ refs, (s.lookup client sub.name).call = .select (sub.children.map Tree.name) refs) ∧
          ∀ name ∈ sub.children.flatMap Tree.names, (s.lookup client sub.name).context.visited name = false) := by
  obtain ⟨hcontext, hcall⟩ := h.lookup_cases
  refine ⟨hcontext, hcall.imp_right fun ⟨henr, hcall⟩ => ?_⟩
  have hbelow : ∀ child ∈ sub.children, ∀ name ∈ child.names, (s.visit sub.name).visited name = false := by
    intro child hchild name hname
    rw [visited_visit, hnew name (Tree.mem_names_of_mem_children hchild hname),
      decide_eq_false (Tree.name_ne_of_mem_children h.nodup hchild hname)]
    rfl
  obtain ⟨child, hchild⟩ := List.exists_mem_of_ne_nil _ (h.nonempty sub sub.self_mem_subtrees henr)
  refine ⟨⟨_, hcall.trans (if_neg fun hall => ?_)⟩, fun name hname => ?_⟩
  · have hvisited := hall child hchild
    rw [hbelow child hchild _ child.name_mem_names] at hvisited
    cases hvisited
  · obtain ⟨other, hother, hmem⟩ := List.mem_flatMap.1 hname
    rw [hcontext]
    exact hbelow other hother name hmem

/-! ## Steps -/

theorem step_search {name : String} {e : Event} (hcall : s.call = .search name) (hstep : step client s e = some s') :
    s' = s.lookup client name := by
  rcases step_eq_some hstep with ⟨name', -, hcall', rfl⟩ | ⟨random, branches, refs, -, hcall', -⟩
  · rw [Call.search.inj (hcall.symm.trans hcall')]
  · cases hcall.symm.trans hcall'

theorem step_settled {result : Except JsError (Option ρ)} {e : Event} (hcall : s.call = .settled result) :
    step client s e ≠ some s' := by
  intro hstep
  rcases step_eq_some hstep with ⟨name, -, hcall', -⟩ | ⟨random, branches, refs, -, hcall', -⟩ <;>
    cases hcall.symm.trans hcall'

/-- There is a tree to choose from. -/
theorem Coherent.exists_child {children : List (Tree ρ)} {refs : List ℕ} (h : Coherent client s₁ s)
    (hcall : s.call = .select (children.map Tree.name) refs) : ∃ child, child ∈ children := by
  obtain ⟨hrefs, hlength⟩ := h.refs hcall
  refine List.exists_mem_of_ne_nil children ?_
  rintro rfl
  rw [hrefs] at hlength
  exact absurd rfl hlength

/-- A draw that ends the loop chooses one of the trees that were not visited. -/
theorem step_select {children : List (Tree ρ)} {refs : List ℕ} {e : Event} (hcoherent : Coherent client s₁ s)
    (hcall : s.call = .select (children.map Tree.name) refs) (hstep : step client s e = some s') :
    s' = s ∨ ∃ child ∈ children, s.context.visited child.name = false ∧ s' = { s with call := .search child.name } := by
  rcases step_eq_some hstep with ⟨name, -, hcall', -⟩ | ⟨random, branches, refs', -, hcall', rfl | ⟨hrandom, rfl⟩⟩
  · cases hcall.symm.trans hcall'
  · exact Or.inl rfl
  · obtain ⟨rfl, rfl⟩ := Call.select.inj (hcall.symm.trans hcall')
    obtain ⟨first, hfirst⟩ := hcoherent.exists_child hcall
    have hlt : random % children.length < children.length := Nat.mod_lt random (List.length_pos_of_mem hfirst)
    have hname : (children.map Tree.name).getD (random % (children.map Tree.name).length) "" =
        children[random % children.length].name := by
      rw [List.length_map, List.getD_eq_getElem?_getD, List.getElem?_map, List.getElem?_eq_getElem hlt]
      rfl
    have hnot := hcoherent.not_visited hcall hrandom
    rw [hname] at hnot ⊢
    exact Or.inr ⟨_, List.getElem_mem hlt, hnot, rfl⟩

/-! ## Below the top branch -/

/-- A search on its way from this tree down, with nothing visited below it. -/
inductive Descends (tree : Tree ρ) (s : State ρ) : Prop
  | search (sub : Tree ρ) (hsub : sub ∈ tree.subtrees) (hcall : s.call = .search sub.name)
    (hnew : ∀ name ∈ sub.names, s.context.visited name = false) (htop : sub = tree ∨ s.context.visited tree.name)
  | select (sub : Tree ρ) (refs : List ℕ) (hsub : sub ∈ tree.subtrees)
    (hcall : s.call = .select (sub.children.map Tree.name) refs)
    (hnew : ∀ name ∈ sub.children.flatMap Tree.names, s.context.visited name = false)
    (htop : s.context.visited tree.name)
  | settled (enr : ρ) (hleaf : enr ∈ tree.leaves) (hcall : s.call = .settled (.ok (some enr)))
    (htop : s.context.visited tree.name)

theorem Descends.lookup {top sub : Tree ρ} (h : top.Sound client s) (hsub : sub ∈ top.subtrees)
    (hnew : ∀ name ∈ sub.names, s.context.visited name = false) (htop : sub = top ∨ s.context.visited top.name) :
    Descends top (s.lookup client sub.name) := by
  obtain ⟨hcontext, hcall⟩ := (h.below hsub).lookup hnew
  have hvisited : (s.lookup client sub.name).context.visited top.name = true := by
    rw [hcontext, visited_visit]
    rcases htop with rfl | htop
    · simp
    · rw [htop, Bool.true_or]
  rcases hcall with ⟨enr, henr, hcall⟩ | ⟨⟨refs, hcall⟩, hbelow⟩
  · exact .settled enr (List.mem_filterMap.2 ⟨sub, hsub, henr⟩) hcall hvisited
  · exact .select sub refs hsub hcall hbelow hvisited

theorem Descends.step {top : Tree ρ} {e : Event} (h : Descends top s) (hsound : top.Sound client s)
    (hcoherent : Coherent client s₁ s) (hstep : step client s e = some s') : Descends top s' := by
  cases h with
  | search sub hsub hcall hnew htop =>
    rw [step_search hcall hstep]
    exact Descends.lookup hsound hsub hnew htop
  | settled enr hleaf hcall => exact absurd hstep (step_settled hcall)
  | select sub refs hsub hcall hnew htop =>
    rcases step_select hcoherent hcall hstep with rfl | ⟨child, hchild, -, rfl⟩
    · exact .select sub refs hsub hcall hnew htop
    · refine .search child ?_ rfl (fun name hmem => hnew name ?_) (Or.inr htop)
      · exact (Tree.subtrees_sublist hsub).mem (Tree.mem_subtrees_of_mem_children hchild)
      · exact List.mem_flatMap.2 ⟨child, hchild, hmem⟩

/-- A search on its way down visits names of the tree only. -/
theorem Descends.visits {top : Tree ρ} {e : Event} (h : Descends top s) (hcoherent : Coherent client s₁ s)
    (hstep : Discovery.step client s e = some s') : Visits s s' top.names := by
  cases h with
  | search sub hsub hcall =>
    rw [step_search hcall hstep]
    refine (visits_lookup s sub.name).mono ?_
    intro name hname
    rw [List.mem_singleton.1 hname]
    exact (Tree.names_sublist hsub).mem sub.name_mem_names
  | settled enr hleaf hcall => exact absurd hstep (step_settled hcall)
  | select sub refs hsub hcall =>
    have hnone : Visits s s top.names := (Visits.refl s).mono (List.nil_subset _)
    rcases step_select hcoherent hcall hstep with rfl | ⟨child, -, -, rfl⟩
    · exact hnone
    · exact hnone.congr rfl

/-! ## From the top -/

/-- The names of the trees below the top are other names. -/
theorem DnsTree.disjoint_upper {child : Tree ρ} (hchild : child ∈ tree.top.children) :
    List.Disjoint child.names [tree.top.name, tree.domain] := by
  intro name hname hupper
  obtain ⟨hdomain, htop⟩ := List.nodup_cons.1 tree.nodup
  rcases List.mem_pair.1 hupper with rfl | rfl
  · exact Tree.name_ne_of_mem_children htop hchild hname rfl
  · exact hdomain (Tree.mem_names_of_mem_children hchild hname)

/-- Where a search of the tree stands that began in `s₁`. -/
inductive Stage (tree : DnsTree ρ) (s₁ s : State ρ) : Prop
  | root (hcall : s.call = .search tree.domain) (hvisits : Visits s₁ s [])
  | top (hcall : s.call = .search tree.top.name) (hvisits : Visits s₁ s [tree.domain])
  | record (enr : ρ) (htop : tree.top.enr? = some enr) (hcall : s.call = .settled (.ok (some enr)))
  | choose (refs : List ℕ) (hcall : s.call = .select (tree.top.children.map Tree.name) refs)
    (hvisits : Visits s₁ s [tree.top.name, tree.domain])
    (hsome : ∃ child ∈ tree.top.children, s₁.context.visited child.name = false)
  | exhausted (hcall : s.call = .settled (.ok none)) (hvisits : Visits s₁ s [tree.top.name, tree.domain])
    (htop : tree.top.enr? = none) (hall : ∀ child ∈ tree.top.children, s₁.context.visited child.name)
  | within (child : Tree ρ) (hchild : child ∈ tree.top.children) (hnew : s₁.context.visited child.name = false)
    (hvisits : Visits s₁ s (child.names ++ [tree.top.name, tree.domain])) (h : Descends child s)

/-- Each tree below the top was entered, or nothing of it was visited. -/
def Intact (tree : DnsTree ρ) (s : State ρ) : Prop :=
  ∀ child ∈ tree.top.children, s.context.visited child.name ∨ ∀ name ∈ child.names, s.context.visited name = false

/-- Nothing is visited below a tree that was not entered, if the visits since were of other names. -/
theorem Intact.not_visited {child : Tree ρ} {names : List String} (h : Intact tree s₁) (hvisits : Visits s₁ s names)
    (hchild : child ∈ tree.top.children) (hnew : s₁.context.visited child.name = false)
    (hdisjoint : List.Disjoint child.names names) : ∀ name ∈ child.names, s.context.visited name = false := by
  intro name hname
  refine hvisits.not_visited ?_ fun hmem => hdisjoint hname hmem
  rcases h child hchild with hvisited | hall
  · rw [hnew] at hvisited
    cases hvisited
  · exact hall name hname

/-- The lookup of the root entry. -/
theorem lookup_domain (hserved : tree.Served client s) (hvisits : Visits s₁ s []) :
    (s.lookup client tree.domain).call = .search tree.top.name ∧
      Visits s₁ (s.lookup client tree.domain) [tree.domain] := by
  have hcall := State.lookup_of_rootNext hserved.root
  have hopen : ∀ result, (s.lookup client tree.domain).call ≠ .settled result := by simp [hcall]
  obtain ⟨entry, -, hcontext, -⟩ := State.lookup_open hopen
  exact ⟨hcall, hvisits.visit hcontext List.mem_cons_self (List.nil_subset _)⟩

/-- The lookup of the top entry. -/
theorem lookup_top (hserved : tree.Served client s) (hvisits : Visits s₁ s [tree.domain]) :
    Stage tree s₁ (s.lookup client tree.top.name) ∧ (s.lookup client tree.top.name).call ≠ .search tree.top.name ∧
      (s.lookup client tree.top.name).call ≠ .search tree.domain := by
  obtain ⟨hcontext, ⟨enr, henr, hcall⟩ | ⟨henr, hcall⟩⟩ := hserved.sound.lookup_cases
  · rw [hcall]
    exact ⟨.record enr henr hcall, by simp, by simp⟩
  · have hthen : Visits s₁ (s.lookup client tree.top.name) [tree.top.name, tree.domain] :=
      hvisits.visit hcontext List.mem_cons_self (by simp)
    have hvisited : ∀ child ∈ tree.top.children,
        (s.visit tree.top.name).visited child.name = s₁.context.visited child.name := by
      intro child hchild
      rw [← hcontext]
      cases hbefore : s₁.context.visited child.name with
      | true => exact hthen.kept hbefore
      | false => exact hthen.not_visited hbefore fun hmem => tree.disjoint_upper hchild child.name_mem_names hmem
    by_cases hall : ∀ child ∈ tree.top.children, (s.visit tree.top.name).visited child.name
    · rw [if_pos hall] at hcall
      rw [hcall]
      refine ⟨.exhausted hcall hthen henr fun child hchild => ?_, by simp, by simp⟩
      exact hvisited child hchild ▸ hall child hchild
    · rw [if_neg hall] at hcall
      rw [hcall]
      obtain ⟨child, hchild⟩ := not_forall.1 hall
      obtain ⟨hchild, hnew⟩ := Classical.not_imp.1 hchild
      refine ⟨.choose _ hcall hthen ⟨child, hchild, ?_⟩, by simp, by simp⟩
      rw [← hvisited child hchild]
      simpa using hnew

theorem Stage.step {e : Event} (h : Stage tree s₁ s) (hintact : Intact tree s₁) (hserved : tree.Served client s₁)
    (hcoherent : Coherent client s₁ s) (hstep : step client s e = some s') : Stage tree s₁ s' := by
  have hserved' := hserved.congr hcoherent
  cases h with
  | root hcall hvisits =>
    rw [step_search hcall hstep]
    obtain ⟨hthen, hvisits'⟩ := lookup_domain hserved' hvisits
    exact .top hthen hvisits'
  | top hcall hvisits =>
    rw [step_search hcall hstep]
    exact (lookup_top hserved' hvisits).1
  | record enr htop hcall => exact absurd hstep (step_settled hcall)
  | exhausted hcall => exact absurd hstep (step_settled hcall)
  | choose refs hcall hvisits hsome =>
    rcases step_select hcoherent hcall hstep with rfl | ⟨child, hchild, hnot, rfl⟩
    · exact .choose refs hcall hvisits hsome
    · have hnew := hvisits.not_visited_before hnot
      have hbelow := hintact.not_visited hvisits hchild hnew (tree.disjoint_upper hchild)
      exact .within child hchild hnew ((hvisits.mono (List.subset_append_right _ _)).congr rfl)
        (.search child child.self_mem_subtrees rfl hbelow (Or.inl rfl))
  | within child hchild hnew hvisits h =>
    refine .within child hchild hnew ?_ (h.step (hserved'.sound.child hchild) hcoherent hstep)
    exact hvisits.trans (h.visits hcoherent hstep) (List.subset_append_left _ _)

/-- What a search comes to that began in `s₁`. -/
inductive Outcome (tree : DnsTree ρ) (s₁ t : State ρ) : Except JsError (Option ρ) → Prop
  | record (enr : ρ) (htop : tree.top.enr? = some enr) : Outcome tree s₁ t (.ok (some enr))
  | exhausted (hvisits : Visits s₁ t [tree.top.name, tree.domain]) (htop : tree.top.enr? = none)
    (hall : ∀ child ∈ tree.top.children, s₁.context.visited child.name) : Outcome tree s₁ t (.ok none)
  | within (child : Tree ρ) (enr : ρ) (hchild : child ∈ tree.top.children)
    (hnew : s₁.context.visited child.name = false) (hvisits : Visits s₁ t (child.names ++ [tree.top.name, tree.domain]))
    (hleaf : enr ∈ child.leaves) (hentered : t.context.visited child.name) : Outcome tree s₁ t (.ok (some enr))

theorem Stage.outcome {result : Except JsError (Option ρ)} (h : Stage tree s₁ s) (hcall : s.call = .settled result) :
    Outcome tree s₁ s result := by
  cases h with
  | root hcall' => cases hcall'.symm.trans hcall
  | top hcall' => cases hcall'.symm.trans hcall
  | choose refs hcall' => cases hcall'.symm.trans hcall
  | record enr htop hcall' =>
    rw [← Call.settled.inj (hcall'.symm.trans hcall)]
    exact .record enr htop
  | exhausted hcall' hvisits htop hall =>
    rw [← Call.settled.inj (hcall'.symm.trans hcall)]
    exact .exhausted hvisits htop hall
  | within child hchild hnew hvisits hdescends =>
    cases hdescends with
    | search sub _ hcall' => cases hcall'.symm.trans hcall
    | select sub refs _ hcall' => cases hcall'.symm.trans hcall
    | settled enr hleaf hcall' htop =>
      rw [← Call.settled.inj (hcall'.symm.trans hcall)]
      exact .within child enr hchild hnew hvisits hleaf htop

/-- The names that a search comes to. -/
theorem Stage.search_name {name : String} (h : Stage tree s₁ s) (hcall : s.call = .search name) :
    name = tree.domain ∨ ∃ sub ∈ tree.top.subtrees, name = sub.name := by
  cases h with
  | root hcall' => exact Or.inl (Call.search.inj (hcall.symm.trans hcall'))
  | top hcall' => exact Or.inr ⟨tree.top, tree.top.self_mem_subtrees, Call.search.inj (hcall.symm.trans hcall')⟩
  | record enr _ hcall' => cases hcall'.symm.trans hcall
  | choose refs hcall' => cases hcall'.symm.trans hcall
  | exhausted hcall' => cases hcall'.symm.trans hcall
  | within child hchild _ _ hdescends =>
    cases hdescends with
    | search sub hsub hcall' =>
      exact Or.inr ⟨sub, (Tree.subtrees_sublist_children hchild).mem hsub, Call.search.inj (hcall.symm.trans hcall')⟩
    | select sub refs _ hcall' => cases hcall'.symm.trans hcall
    | settled enr _ hcall' => cases hcall'.symm.trans hcall

/-! ## Searches return -/

/-- Some draws settle the search. -/
def Settles (client : Client ρ) (s : State ρ) : Prop :=
  ∃ es t result, run (step client) s es = some t ∧ t.call = .settled result

theorem Settles.of_settled {result : Except JsError (Option ρ)} (h : s.call = .settled result) : Settles client s :=
  ⟨[], s, result, rfl, h⟩

theorem Settles.of_step {e : Event} (hstep : step client s e = some s') (h : Settles client s') : Settles client s := by
  obtain ⟨es, t, result, hrun, hcall⟩ := h
  exact ⟨e :: es, t, result, run_cons.2 ⟨s', hstep, hrun⟩, hcall⟩

theorem Settles.of_lookup {name : String} (hcall : s.call = .search name) (h : Settles client (s.lookup client name)) :
    Settles client s :=
  h.of_step (e := .lookup) (by simp only [step, hcall])

/-- Any tree of a list that was not visited may be drawn. -/
theorem Settles.of_drawn {children : List (Tree ρ)} {refs : List ℕ} {child : Tree ρ} (hcoherent : Coherent client s₁ s)
    (hcall : s.call = .select (children.map Tree.name) refs) (hchild : child ∈ children)
    (hnew : s.context.visited child.name = false) (h : Settles client { s with call := .search child.name }) :
    Settles client s := by
  obtain ⟨idx, hidx, rfl⟩ := List.mem_iff_getElem.1 hchild
  have hmod : idx % (children.map Tree.name).length = idx := Nat.mod_eq_of_lt (by simpa using hidx)
  have hname : (children.map Tree.name).getD idx "" = children[idx].name := by
    rw [List.getD_eq_getElem?_getD, List.getElem?_map, List.getElem?_eq_getElem hidx]
    rfl
  have hrefs : refs.contains idx = false := by
    rw [(hcoherent.refs hcall).1, circularRefs]
    simp only [List.contains_eq_mem, List.mem_filter, hname, hnew]
    simp
  refine h.of_step (e := .draw idx) ?_
  simp only [step, hcall, hmod, hrefs, hname]
  rfl

/-- A search that comes to a tree with nothing visited returns. -/
theorem settles_search {sub : Tree ρ} (hsound : sub.Sound client s) (hcall : s.call = .search sub.name)
    (hnew : ∀ name ∈ sub.names, s.context.visited name = false) : Settles client s := by
  induction sub using Tree.children_induction generalizing s with
  | step sub ih =>
    have hcoherent : Coherent client s (s.lookup client sub.name) :=
      Coherent.lookup ⟨rfl, rfl, rfl, fun h => by rw [hcall] at h; cases h⟩ sub.name
    apply Settles.of_lookup hcall
    obtain ⟨-, ⟨enr, -, hsettled⟩ | ⟨⟨refs, hselect⟩, hbelow⟩⟩ := hsound.lookup hnew
    · exact .of_settled hsettled
    · obtain ⟨child, hchild⟩ := hcoherent.exists_child hselect
      have hnew' : ∀ name ∈ child.names, (s.lookup client sub.name).context.visited name = false := by
        intro name hname
        exact hbelow name (List.mem_flatMap.2 ⟨child, hchild, hname⟩)
      have hsound' : child.Sound client { s.lookup client sub.name with call := .search child.name } :=
        (hsound.child hchild).congr ((State.entry_congr rfl rfl).trans hcoherent.entry)
      apply Settles.of_drawn hcoherent hselect hchild (hnew' _ child.name_mem_names)
      exact ih child hchild hsound' rfl hnew'

/-- A search that chooses among trees returns if nothing of one of them was visited. -/
theorem settles_drawn {children : List (Tree ρ)} {refs : List ℕ} {child : Tree ρ} (hcoherent : Coherent client s₁ s)
    (hcall : s.call = .select (children.map Tree.name) refs) (hchild : child ∈ children)
    (hsound : child.Sound client s) (hnew : ∀ name ∈ child.names, s.context.visited name = false) :
    Settles client s := by
  apply Settles.of_drawn hcoherent hcall hchild (hnew _ child.name_mem_names)
  exact settles_search (hsound.congr (State.entry_congr rfl rfl)) rfl hnew

theorem Descends.settles {top : Tree ρ} (h : Descends top s) (hsound : top.Sound client s)
    (hcoherent : Coherent client s₁ s) : Settles client s := by
  cases h with
  | search sub hsub hcall hnew => exact settles_search (hsound.below hsub) hcall hnew
  | settled enr hleaf hcall => exact .of_settled hcall
  | select sub refs hsub hcall hnew =>
    obtain ⟨child, hchild⟩ := hcoherent.exists_child hcall
    apply settles_drawn hcoherent hcall hchild ((hsound.below hsub).child hchild)
    intro name hname
    exact hnew name (List.mem_flatMap.2 ⟨child, hchild, hname⟩)

/-- A search at the top branch returns. -/
theorem settles_choose {refs : List ℕ} (hintact : Intact tree s₁) (hserved : tree.Served client s₁)
    (hcoherent : Coherent client s₁ s) (hcall : s.call = .select (tree.top.children.map Tree.name) refs)
    (hvisits : Visits s₁ s [tree.top.name, tree.domain])
    (hsome : ∃ child ∈ tree.top.children, s₁.context.visited child.name = false) : Settles client s := by
  obtain ⟨child, hchild, hnew⟩ := hsome
  apply settles_drawn hcoherent hcall hchild ((hserved.congr hcoherent).sound.child hchild)
  exact hintact.not_visited hvisits hchild hnew (tree.disjoint_upper hchild)

/-- A search that comes to the top entry returns. -/
theorem settles_top (hintact : Intact tree s₁) (hserved : tree.Served client s₁) (hcoherent : Coherent client s₁ s)
    (hcall : s.call = .search tree.top.name) (hvisits : Visits s₁ s [tree.domain]) : Settles client s := by
  obtain ⟨hstage, htop, hdomain⟩ := lookup_top (hserved.congr hcoherent) hvisits
  have hcoherent' := hcoherent.lookup tree.top.name
  apply Settles.of_lookup hcall
  cases hstage with
  | root hcall' => exact absurd hcall' hdomain
  | top hcall' => exact absurd hcall' htop
  | record enr _ hcall' => exact .of_settled hcall'
  | choose refs hcall' hvisits' hsome => exact settles_choose hintact hserved hcoherent' hcall' hvisits' hsome
  | exhausted hcall' => exact .of_settled hcall'
  | within child hchild _ _ h => exact h.settles ((hserved.congr hcoherent').sound.child hchild) hcoherent'

theorem Stage.settles (h : Stage tree s₁ s) (hintact : Intact tree s₁) (hserved : tree.Served client s₁)
    (hcoherent : Coherent client s₁ s) : Settles client s := by
  cases h with
  | root hcall hvisits =>
    obtain ⟨hcall', hvisits'⟩ := lookup_domain (hserved.congr hcoherent) hvisits
    apply Settles.of_lookup hcall
    exact settles_top hintact hserved (hcoherent.lookup tree.domain) hcall' hvisits'
  | top hcall hvisits => exact settles_top hintact hserved hcoherent hcall hvisits
  | record enr _ hcall => exact .of_settled hcall
  | choose refs hcall hvisits hsome => exact settles_choose hintact hserved hcoherent hcall hvisits hsome
  | exhausted hcall => exact .of_settled hcall
  | within child hchild _ _ h => exact h.settles ((hserved.congr hcoherent).sound.child hchild) hcoherent

end JsWaku.Discovery
