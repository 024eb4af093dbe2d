import JsWaku.Discovery.Search

/-!
# Trees of names

What a DNS tree lists: records under names, and branches of trees. A tree is served to a search when the lookup of each
name gives an entry that is followed as the tree has it (`Tree.Served`).
-/

namespace JsWaku.Discovery

open Text

variable {ρ : Type}

/-- A tree of entries, each under its name. -/
inductive Tree (ρ : Type)
  | record (name : String) (enr : ρ)
  | branch (name : String) (children : List (Tree ρ))

namespace Tree

/-- The name of the entry at the top. -/
def name : Tree ρ → String
  | record name _ | branch name _ => name

/-- The trees below the top entry. -/
def children : Tree ρ → List (Tree ρ)
  | record _ _ => []
  | branch _ children => children

/-- The record at the top, if it is one. -/
def enr? : Tree ρ → Option ρ
  | record _ enr => some enr
  | branch _ _ => none

mutual

/-- The tree and those below it. -/
def subtrees : Tree ρ → List (Tree ρ)
  | record name enr => [record name enr]
  | branch name children => branch name children :: subtreesList children

/-- The trees of a list and those below them. -/
def subtreesList : List (Tree ρ) → List (Tree ρ)
  | [] => []
  | child :: children => child.subtrees ++ subtreesList children

end

/-- All names of a tree. -/
def names (tree : Tree ρ) : List String := tree.subtrees.map name

/-- All records of a tree. -/
def leaves (tree : Tree ρ) : List ρ := tree.subtrees.filterMap enr?

/-- What holds of a tree if it holds of those right below it holds of all trees. -/
@[elab_as_elim]
theorem children_induction {motive : Tree ρ → Prop}
    (step : ∀ tree, (∀ child ∈ tree.children, motive child) → motive tree) : ∀ tree, motive tree
  | record name enr => step (record name enr) fun _ hchild => nomatch hchild
  | branch name children => step (branch name children) fun child hchild =>
    have : sizeOf child < sizeOf children := List.sizeOf_lt_of_mem hchild
    children_induction step child
termination_by tree => sizeOf tree
decreasing_by
  simp only [branch.sizeOf_spec]
  omega

theorem subtreesList_eq (children : List (Tree ρ)) : subtreesList children = children.flatMap subtrees := by
  induction children with
  | nil => rfl
  | cons child children ih => rw [subtreesList, ih, List.flatMap_cons]

theorem subtrees_eq (tree : Tree ρ) : tree.subtrees = tree :: tree.children.flatMap subtrees := by
  cases tree with
  | record name enr => rfl
  | branch name children => rw [subtrees, subtreesList_eq, Tree.children]

theorem self_mem_subtrees (tree : Tree ρ) : tree ∈ tree.subtrees := by
  rw [subtrees_eq]
  exact List.mem_cons_self

theorem names_eq (tree : Tree ρ) : tree.names = tree.name :: tree.children.flatMap names := by
  rw [names, subtrees_eq, List.map_cons, List.map_flatMap]
  rfl

theorem name_mem_names (tree : Tree ρ) : tree.name ∈ tree.names := by
  rw [names_eq]
  exact List.mem_cons_self

/-- What is below a child is below the tree. -/
theorem subtrees_sublist_of_mem_children {tree child : Tree ρ} (h : child ∈ tree.children) :
    child.subtrees.Sublist (tree.children.flatMap subtrees) := by
  rw [List.flatMap_def]
  exact List.sublist_flatten_of_mem (List.mem_map_of_mem h)

/-- A subtree has a part of the subtrees. -/
theorem subtrees_sublist {tree sub : Tree ρ} (h : sub ∈ tree.subtrees) : sub.subtrees.Sublist tree.subtrees := by
  induction tree using children_induction with
  | step tree ih =>
    rw [subtrees_eq, List.mem_cons, List.mem_flatMap] at h
    rcases h with rfl | ⟨child, hchild, hsub⟩
    · exact List.Sublist.refl _
    · rw [subtrees_eq tree]
      exact ((ih child hchild hsub).trans (subtrees_sublist_of_mem_children hchild)).cons _

theorem names_sublist {tree sub : Tree ρ} (h : sub ∈ tree.subtrees) : sub.names.Sublist tree.names :=
  (subtrees_sublist h).map name

theorem leaves_sublist {tree sub : Tree ρ} (h : sub ∈ tree.subtrees) : sub.leaves.Sublist tree.leaves :=
  (subtrees_sublist h).filterMap enr?

theorem mem_subtrees_of_mem_children {tree child : Tree ρ} (h : child ∈ tree.children) : child ∈ tree.subtrees := by
  rw [subtrees_eq]
  exact List.mem_cons_of_mem _ (List.mem_flatMap.2 ⟨child, h, child.self_mem_subtrees⟩)

theorem subtrees_sublist_children {tree child : Tree ρ} (h : child ∈ tree.children) :
    child.subtrees.Sublist tree.subtrees :=
  subtrees_sublist (mem_subtrees_of_mem_children h)

theorem mem_names_of_mem_children {tree child : Tree ρ} {name : String} (hchild : child ∈ tree.children)
    (h : name ∈ child.names) : name ∈ tree.names :=
  (names_sublist (mem_subtrees_of_mem_children hchild)).mem h

/-- The name of a tree is not the name of one below. -/
theorem name_ne_of_mem_children {tree child : Tree ρ} {name : String} (hnodup : tree.names.Nodup)
    (hchild : child ∈ tree.children) (h : name ∈ child.names) : name ≠ tree.name := by
  rw [names_eq] at hnodup
  rintro rfl
  exact (List.nodup_cons.1 hnodup).1 (List.mem_flatMap.2 ⟨child, hchild, h⟩)

theorem leaves_eq (tree : Tree ρ) : tree.leaves = tree.enr?.toList ++ tree.children.flatMap leaves := by
  rw [leaves, subtrees_eq, List.filterMap_cons, List.filterMap_flatMap]
  cases tree.enr? <;> rfl

theorem children_of_enr? {tree : Tree ρ} {enr : ρ} (h : tree.enr? = some enr) : tree.children = [] := by
  cases tree with
  | record name enr => rfl
  | branch name children => cases h

end Tree

/-! ## Entries of a tree -/

/-- The characters of the names in a tree. -/
def isBase32 (c : Char) : Bool := ('A' ≤ c && c ≤ 'Z') || ('2' ≤ c && c ≤ '7')

/-- The branch entry for these names. -/
def branchEntry (names : List String) : String :=
  BRANCH_PREFIX ++ String.ofList ([','].intercalate (names.map String.toList))

theorem getEntryType_branchEntry (names : List String) : getEntryType (branchEntry names) = BRANCH_PREFIX := by
  have hroot : startsWith (branchEntry names) ROOT_PREFIX = false := by
    rw [startsWith, branchEntry, String.toList_append]
    rfl
  rw [getEntryType, hroot, branchEntry, startsWith_append]
  rfl

/-- The prefixes of entries start with a letter that is not in names. -/
theorem e_not_mem_intercalate {names : List String} (h : ∀ name ∈ names, name.toList.all isBase32) :
    'e' ∉ [','].intercalate (names.map String.toList) := by
  induction names with
  | nil => simp
  | cons name names ih =>
    have hname : 'e' ∉ name.toList := fun he =>
      absurd (List.all_eq_true.1 (h name List.mem_cons_self) _ he) (by decide)
    cases names with
    | nil => simpa using hname
    | cons next names =>
      have hrest := ih fun other hother => h other (List.mem_cons_of_mem _ hother)
      rw [List.map_cons, List.map_cons, List.intercalate_cons_cons, List.mem_append, List.mem_append, not_or, not_or]
      exact ⟨⟨hname, by decide⟩, hrest⟩

/-- The names of a branch entry are found again. -/
theorem parseBranch_branchEntry {names : List String} (hne : names ≠ [])
    (h : ∀ name ∈ names, name.toList.all isBase32) : parseBranch (branchEntry names) = .ok names := by
  have hcomma : ∀ name ∈ names, ',' ∉ name.toList := by
    intro name hname hmem
    exact absurd (List.all_eq_true.1 (h name hname) _ hmem) (by decide)
  have htext : splitSecond BRANCH_PREFIX (branchEntry names) =
      String.ofList ([','].intercalate (names.map String.toList)) := by
    have hprefix : BRANCH_PREFIX.toList = 'e' :: "nrtree-branch:".toList := by decide
    rw [splitSecond, branchEntry, String.toList_append, List.drop_left, String.toList_ofList, hprefix,
      before_eq_self (e_not_mem_intercalate h)]
  have hstart : startsWith (branchEntry names) BRANCH_PREFIX = true := startsWith_append _ _
  rw [parseBranch, if_pos hstart, htext, split_intercalate hne hcomma]
  rfl

/-- A tree of names below the domain of its root entry. -/
structure DnsTree (ρ : Type) where
  domain : String
  top : Tree ρ
  nodup : (domain :: top.names).Nodup
  base32 : ∀ name ∈ top.names, name.toList.all isBase32
  nonempty : ∀ sub ∈ top.subtrees, sub.enr? = none → sub.children ≠ []
  distinct : top.leaves.Nodup

/-- The lookup of the name finds the entry. -/
def Tree.Served (client : Client ρ) (s : State ρ) : Tree ρ → Prop
  | record name enr => ∃ entry, s.entry client name = some entry ∧ getEntryType entry = RECORD_PREFIX ∧
      client.fromString entry = .ok (.ok enr)
  | branch name children => s.entry client name = some (branchEntry (children.map Tree.name))

/-- All lookups of the tree succeed. -/
structure DnsTree.Served (client : Client ρ) (s : State ρ) (tree : DnsTree ρ) : Prop where
  domain : s.context.domain = tree.domain
  root : s.rootNext client tree.domain = some tree.top.name
  entries : ∀ sub ∈ tree.top.subtrees, sub.Served client s

/-! ## Lookups in a tree -/

section

variable {client : Client ρ} {s s' : State ρ} {tree : DnsTree ρ}

theorem Tree.Served.congr {sub : Tree ρ} (h : sub.Served client s) (hentry : s'.entry client = s.entry client) :
    sub.Served client s' := by
  cases sub <;> simpa only [Tree.Served, hentry] using h

theorem DnsTree.Served.congr (h : tree.Served client s) (hcoherent : Coherent client s s') : tree.Served client s' :=
  ⟨hcoherent.domain.trans h.domain, by rw [hcoherent.rootNext, h.root], fun sub hsub =>
    (h.entries sub hsub).congr hcoherent.entry⟩

/-- Entries of a tree are not root entries. -/
theorem Tree.Served.rootNext {sub : Tree ρ} (h : sub.Served client s) : s.rootNext client sub.name = none := by
  cases sub with
  | record name enr =>
    obtain ⟨entry, hentry, htype, -⟩ := h
    rw [State.rootNext, Tree.name, hentry, Option.bind_some, htype]
    rfl
  | branch name children =>
    rw [State.rootNext, Tree.name, show s.entry client name = _ from h, Option.bind_some, getEntryType_branchEntry]
    rfl

/-- The lookup of a record. -/
theorem lookup_record {name : String} {enr : ρ} (h : (Tree.record name enr).Served client s) :
    (s.lookup client name).call = .settled (.ok (some enr)) ∧ (s.lookup client name).context = s.visit name := by
  obtain ⟨entry, hentry, htype, hdecode⟩ := h
  have hfollow : State.follow client (s.visit name) (!s.lookups.isEmpty) entry = .ok (.settled (.ok (some enr))) := by
    unfold State.follow
    simp only [htype, hdecode]
    rfl
  obtain ⟨hcontext, hcall⟩ := State.lookup_of_entry hentry
  rw [hfollow] at hcall
  exact ⟨hcall, hcontext⟩

theorem length_circularRefs {branches : List String} {context : SearchContext} :
    (circularRefs branches context).length = branches.length ↔ ∀ name ∈ branches, context.visited name := by
  have hlength : (circularRefs branches context).length = branches.length ↔
      ∀ idx ∈ List.range branches.length, context.visited (branches.getD idx "") := by
    rw [← List.length_filter_eq_length_iff, List.length_range, circularRefs]
  rw [hlength]
  simp only [List.mem_range]
  constructor
  · intro h name hname
    obtain ⟨idx, hidx, rfl⟩ := List.mem_iff_getElem.1 hname
    simpa [hidx] using h idx hidx
  · intro h idx hidx
    rw [List.getD_eq_getElem?_getD, List.getElem?_eq_getElem hidx]
    exact h _ (List.getElem_mem hidx)

/-- The lookup of a branch: an error if all its names were visited. -/
theorem lookup_branch {name : String} {children : List (Tree ρ)} (h : (Tree.branch name children).Served client s)
    (hne : children ≠ []) (hbase32 : ∀ child ∈ children, child.name.toList.all isBase32) :
    (s.lookup client name).context = s.visit name ∧
      (s.lookup client name).call =
        if ∀ child ∈ children, (s.visit name).visited child.name then .settled (.ok none)
        else .select (children.map Tree.name) (circularRefs (children.map Tree.name) (s.visit name)) := by
  have hparse : parseBranch (branchEntry (children.map Tree.name)) = .ok (children.map Tree.name) :=
    parseBranch_branchEntry (by simpa using hne) (by simpa using hbase32)
  obtain ⟨hcontext, hcall⟩ := State.lookup_of_entry h
  refine ⟨hcontext, hcall.trans ?_⟩
  have hall : (circularRefs (children.map Tree.name) (s.visit name)).length = (children.map Tree.name).length ↔
      ∀ child ∈ children, (s.visit name).visited child.name := by
    rw [length_circularRefs]
    simp
  unfold State.follow
  simp only [getEntryType_branchEntry, hparse]
  by_cases hvisited : ∀ child ∈ children, (s.visit name).visited child.name
  · rw [if_pos hvisited]
    simp only [ok_bind, if_pos (hall.2 hvisited)]
    rfl
  · rw [if_neg hvisited]
    simp only [ok_bind, if_neg (hall.not.2 hvisited)]
    rfl

end

end JsWaku.Discovery
