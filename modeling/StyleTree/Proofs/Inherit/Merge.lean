import Mathlib.Data.List.Basic
import StyleTree.Inherit.Merge

/-!
# `Proofs.Inherit.Merge` — what a merge leaves of a scope

A merge runs through the inherited rules from the last to the first. Here its outcome is described without an
order: which nodes disappear (`consumedIn`), which children are taken over under a selector (`absorbed`), and what is
left after both (`mergeNodes`). A scope in which a selector is asked for that is not there (`lacksSelector`) cannot be
merged.

Since a merge takes one inherited rule after the other, the description has to be compared for a scope with and
without its first inherited rule (`consumedIn_cons`, `filter_consumedIn_cons`). Of what a merge leaves, the rest of
the theory needs that it keeps its order (`map_mergeNodes`), that the last rule of a selector is never removed
(`exists_rule_mergeNodes`), and that a merge which removes nothing changes nothing (`mergeNodes_eq_self`).
-/

namespace StyleTree

namespace Node

/-- The selector of a rule that came out of an inherited block. -/
def inheritedSelector? (n : Node) : Option String :=
  if n.inherited then n.selector? else none

/-- The selector of a rule that the scope declares itself. -/
def nativeSelector? (n : Node) : Option String :=
  if n.inherited then none else n.selector?

/-- Whether the node is a rule whose selector was never resolved. -/
def isUnresolvedRule (n : Node) : Bool :=
  n.kind = .rule none

theorem selector?_eq_some_iff {n : Node} {selector : String} :
    n.selector? = some selector ↔ n.kind = .rule (some selector) := by
  unfold selector?
  cases n.kind <;> simp

theorem isRule_iff {n : Node} : n.isRule = true ↔ ∃ selector, n.kind = .rule selector := by
  unfold isRule
  cases n.kind <;> simp

theorem isUnresolvedRule_iff {n : Node} : n.isUnresolvedRule = true ↔ n.kind = .rule none := by
  simp [isUnresolvedRule]

theorem selectorKey_eq_ok_iff {n : Node} {selector : String} :
    n.selectorKey = .ok selector ↔ n.selector? = some selector := by
  unfold selectorKey selector?
  cases n.kind with
  | rule s => cases s <;> simp
  | inherit target => simp
  | other tag text => simp

theorem selectorKey_unresolved {n : Node} (h : n.kind = .rule none) :
    n.selectorKey = .error { cause := .unresolvedSelector } := by
  simp [selectorKey, h]

/-- A rule is either resolved or not. -/
theorem selector?_of_resolved {n : Node} (hrule : n.isRule = true) (h : n.isUnresolvedRule = false) :
    ∃ selector, n.selector? = some selector := by
  obtain ⟨_ | selector, hkind⟩ := isRule_iff.1 hrule
  · simp [isUnresolvedRule, hkind] at h
  · exact ⟨selector, selector?_eq_some_iff.2 hkind⟩

@[simp] theorem adopt_nil (n : Node) : n.adopt [] = n := by cases n; simp [adopt]

@[simp] theorem adopt_adopt (n : Node) (more yetMore : List Node) :
    (n.adopt more).adopt yetMore = n.adopt (more ++ yetMore) := by
  simp [adopt]

@[simp] theorem adopt_kind (n : Node) (more : List Node) : (n.adopt more).kind = n.kind := rfl

end Node

/-! ## Without an order -/

/-- Whether some inherited rule among the nodes has the selector. -/
def inheritsSelector (nodes : List Node) (selector : String) : Bool :=
  nodes.any fun n => n.inheritedSelector? = some selector

/-- Whether a node of the scope disappears: it is a native rule with the selector of an inherited one. -/
def consumedIn (scope : List Node) (n : Node) : Bool :=
  match n.nativeSelector? with
  | some selector => inheritsSelector scope selector
  | none => false

/-- The children of all native rules with the selector, in the order of the scope. -/
def absorbed (scope : List Node) (selector : String) : List Node :=
  (scope.filter fun n => n.nativeSelector? = some selector).flatMap Node.children

/-- A node with the children that it takes over from the scope, given the nodes behind it: only the last
    inherited rule of a selector takes any. -/
def taking (scope later : List Node) (n : Node) : Node :=
  match n.inheritedSelector? with
  | some selector => if inheritsSelector later selector then n else n.adopt (absorbed scope selector)
  | none => n

/-- The nodes with the children they take over from the scope. -/
def takeOver (scope : List Node) : List Node → List Node
  | [] => []
  | n :: later => taking scope later n :: takeOver scope later

/-- What is left of a scope whose selectors are resolved as far as they are needed. -/
def mergeNodes (scope : List Node) : List Node :=
  (takeOver scope scope).filter fun n => !consumedIn scope n

theorem consumedIn_iff {scope : List Node} {n : Node} :
    consumedIn scope n = true ↔
      ∃ selector, n.nativeSelector? = some selector ∧ inheritsSelector scope selector = true := by
  unfold consumedIn
  cases n.nativeSelector? <;> simp

theorem nativeSelector?_eq_some_iff {n : Node} {selector : String} :
    n.nativeSelector? = some selector ↔ n.inherited = false ∧ n.kind = .rule (some selector) := by
  rw [← Node.selector?_eq_some_iff]
  unfold Node.nativeSelector?
  cases n.inherited <;> simp

theorem inheritedSelector?_eq_some_iff {n : Node} {selector : String} :
    n.inheritedSelector? = some selector ↔ n.inherited = true ∧ n.kind = .rule (some selector) := by
  rw [← Node.selector?_eq_some_iff]
  unfold Node.inheritedSelector?
  cases n.inherited <;> simp

theorem inheritsSelector_iff {nodes : List Node} {selector : String} :
    inheritsSelector nodes selector = true ↔
      ∃ n ∈ nodes, n.inherited = true ∧ n.kind = .rule (some selector) := by
  simp [inheritsSelector, inheritedSelector?_eq_some_iff]

/-- A node that is flagged as inherited stays. -/
theorem consumedIn_of_inherited {n : Node} (h : n.inherited = true) (scope : List Node) :
    consumedIn scope n = false := by
  simp [consumedIn, Node.nativeSelector?, h]

/-- A node stays as it is, or it is an inherited rule and takes over the children of all native rules of its
    selector. -/
theorem taking_eq_or (scope later : List Node) (n : Node) :
    taking scope later n = n ∨
      ∃ selector, n.inheritedSelector? = some selector ∧ taking scope later n = n.adopt (absorbed scope selector) := by
  cases h : n.inheritedSelector? with
  | none => exact .inl (by rw [taking, h])
  | some selector =>
    have htaking : taking scope later n
        = if inheritsSelector later selector then n else n.adopt (absorbed scope selector) := by rw [taking, h]
    rw [htaking]
    split
    · exact .inl rfl
    · exact .inr ⟨selector, rfl, rfl⟩

/-- Taking over changes nothing but the children. -/
theorem exists_taking_eq_adopt (scope later : List Node) (n : Node) :
    ∃ more, taking scope later n = n.adopt more := by
  rcases taking_eq_or scope later n with h | ⟨selector, -, h⟩
  · exact ⟨[], by rw [h, Node.adopt_nil]⟩
  · exact ⟨_, h⟩

/-- A node that is not flagged as inherited takes nothing over. -/
theorem taking_of_native {n : Node} (h : n.inherited = false) (scope later : List Node) :
    taking scope later n = n := by
  simp [taking, Node.inheritedSelector?, h]

theorem consumedIn_adopt (nodes : List Node) (n : Node) (more : List Node) :
    consumedIn nodes (n.adopt more) = consumedIn nodes n := rfl

theorem consumedIn_taking (nodes scope later : List Node) (n : Node) :
    consumedIn nodes (taking scope later n) = consumedIn nodes n := by
  obtain ⟨more, h⟩ := exists_taking_eq_adopt scope later n
  rw [h, consumedIn_adopt]

/-- At each place stands the node that was there, with the children it takes over. -/
theorem takeOver_getElem? (scope nodes : List Node) (i : Nat) :
    (takeOver scope nodes)[i]? = nodes[i]?.map (taking scope (nodes.drop (i + 1))) := by
  induction nodes generalizing i with
  | nil => simp [takeOver]
  | cons n later ih =>
    cases i with
    | zero => simp [takeOver]
    | succ i => simp [takeOver, ih]

theorem inheritedSelector?_of_resolved {n : Node} (h : n.isInheritedRule = true)
    (hresolved : n.isUnresolvedRule = false) : ∃ selector, n.inheritedSelector? = some selector := by
  simp only [Node.isInheritedRule, Bool.and_eq_true] at h
  obtain ⟨selector, hselector⟩ := Node.selector?_of_resolved h.2 hresolved
  exact ⟨selector, inheritedSelector?_eq_some_iff.2 ⟨h.1, Node.selector?_eq_some_iff.1 hselector⟩⟩

theorem inheritedSelector?_eq_none {n : Node} (h : n.isInheritedRule = false) :
    n.inheritedSelector? = none := by
  rw [Option.eq_none_iff_forall_ne_some]
  intro selector hselector
  obtain ⟨hflag, hkind⟩ := inheritedSelector?_eq_some_iff.1 hselector
  simp [Node.isInheritedRule, hflag, Node.isRule_iff.2 ⟨_, hkind⟩] at h

/-! ## One more inherited rule -/

section Cons

variable {n : Node} {later : List Node} {selector : String}

theorem consumedIn_nil (n : Node) : consumedIn [] n = false := by
  unfold consumedIn
  cases n.nativeSelector? <;> rfl

/-- A node that is no inherited rule makes nothing disappear. -/
theorem consumedIn_cons_of_none (hn : n.inheritedSelector? = none) (later : List Node) :
    consumedIn (n :: later) = consumedIn later := by
  funext x
  unfold consumedIn
  cases x.nativeSelector? with
  | none => rfl
  | some own => simp [inheritsSelector, hn]

/-- An inherited rule makes the native rules of its selector disappear. -/
theorem consumedIn_cons (hn : n.inheritedSelector? = some selector) (later : List Node) (x : Node) :
    consumedIn (n :: later) x = (consumedIn later x || x.nativeSelector? = some selector) := by
  unfold consumedIn
  cases x.nativeSelector? with
  | none => simp
  | some own => simp [inheritsSelector, hn, Bool.or_comm, eq_comm]

/-- One that has another of its selector behind it makes no more of them disappear. -/
theorem consumedIn_cons_of_inherits (hn : n.inheritedSelector? = some selector)
    (hlater : inheritsSelector later selector = true) : consumedIn (n :: later) = consumedIn later := by
  funext x
  rw [consumedIn_cons hn, Bool.or_eq_left_iff_imp]
  intro hx
  exact consumedIn_iff.2 ⟨selector, by simpa using hx, hlater⟩

/-- The native rules that disappear because of the first of several inherited rules are all of its selector,
    or, if another of them has the same selector, none. -/
theorem filter_consumedIn_cons (hn : n.inheritedSelector? = some selector) (scope : List Node) :
    (scope.filter (consumedIn (n :: later))).Perm (scope.filter (consumedIn later)
      ++ if inheritsSelector later selector then []
          else scope.filter fun x => x.nativeSelector? = some selector) := by
  cases hlater : inheritsSelector later selector with
  | true => simp [consumedIn_cons_of_inherits hn hlater]
  | false =>
    rw [if_neg (by simp)]
    induction scope with
    | nil => exact .nil
    | cons x xs ih =>
      rw [List.filter_cons, consumedIn_cons hn]
      by_cases hx : x.nativeSelector? = some selector
      · have hnot : consumedIn later x = false := by simp [consumedIn, hx, hlater]
        simpa [hx, hnot] using (ih.cons x).trans List.perm_middle.symm
      · cases hgone : consumedIn later x <;> simpa [hx, hgone] using ih

end Cons

/-! ## What stays -/

theorem exists_adopt_mem_takeOver (scope : List Node) {nodes : List Node} {n : Node} (h : n ∈ nodes) :
    ∃ more, n.adopt more ∈ takeOver scope nodes := by
  obtain ⟨i, hi⟩ := List.mem_iff_getElem?.1 h
  obtain ⟨more, hmore⟩ := exists_taking_eq_adopt scope (nodes.drop (i + 1)) n
  refine ⟨more, List.mem_iff_getElem?.2 ⟨i, ?_⟩⟩
  rw [takeOver_getElem?, hi, Option.map_some, hmore]

/-- What is left of a scope stood in it and did not disappear. It has its own children, or it is an inherited rule
    and also has those of all native rules of its selector. -/
theorem mem_mergeNodes_cases {scope : List Node} {n : Node} (h : n ∈ mergeNodes scope) :
    ∃ m ∈ scope, consumedIn scope m = false ∧
      (n = m ∨ ∃ selector, m.inheritedSelector? = some selector ∧ n = m.adopt (absorbed scope selector)) := by
  rw [mergeNodes, List.mem_filter] at h
  obtain ⟨i, hi⟩ := List.mem_iff_getElem?.1 h.1
  rw [takeOver_getElem?] at hi
  obtain ⟨m, hm, rfl⟩ := Option.map_eq_some_iff.1 hi
  exact ⟨m, List.mem_of_getElem? hm, by simpa [consumedIn_taking] using h.2, taking_eq_or scope _ m⟩

/-- What is left of a scope is one of its nodes, possibly with more children. -/
theorem mem_mergeNodes {scope : List Node} {n : Node} (h : n ∈ mergeNodes scope) :
    ∃ m ∈ scope, consumedIn scope m = false ∧ ∃ more, n = m.adopt more := by
  obtain ⟨m, hm, hstays, rfl | ⟨selector, -, hn⟩⟩ := mem_mergeNodes_cases h
  · exact ⟨n, hm, hstays, [], (Node.adopt_nil n).symm⟩
  · exact ⟨m, hm, hstays, _, hn⟩

/-- What does not disappear is left, possibly with more children. -/
theorem exists_adopt_mem_mergeNodes {scope : List Node} {n : Node} (h : n ∈ scope)
    (hstays : consumedIn scope n = false) : ∃ more, n.adopt more ∈ mergeNodes scope := by
  obtain ⟨more, hmore⟩ := exists_adopt_mem_takeOver scope h
  exact ⟨more, List.mem_filter.2 ⟨hmore, by rw [Bool.not_eq_true']; exact hstays⟩⟩

/-- What is left of a scope is in its order, as far as the children of a node do not matter. -/
theorem map_mergeNodes {α : Type} {f : Node → α} (hf : ∀ n children, f { n with children } = f n)
    (scope : List Node) :
    (mergeNodes scope).map f = (scope.filter fun n => !consumedIn scope n).map f := by
  have hprefix : ∀ nodes : List Node,
      ((takeOver scope nodes).filter fun n => !consumedIn scope n).map f
        = (nodes.filter fun n => !consumedIn scope n).map f := by
    intro nodes
    induction nodes with
    | nil => rfl
    | cons n later ih =>
      obtain ⟨more, hmore⟩ := exists_taking_eq_adopt scope later n
      have hsame : f (taking scope later n) = f n := by rw [hmore, Node.adopt, hf]
      rw [takeOver, List.filter_cons, List.filter_cons, consumedIn_taking]
      cases consumedIn scope n <;> simp [hsame, ih]
  exact hprefix scope

/-- A rule that disappears leaves an inherited rule of its selector behind. -/
theorem exists_adopt_of_consumedIn {scope : List Node} {n : Node} (h : consumedIn scope n = true) :
    ∃ x ∈ scope, x.inherited = true ∧ x.kind = n.kind ∧ ∃ more, x.adopt more ∈ mergeNodes scope := by
  obtain ⟨selector, hnative, hinh⟩ := consumedIn_iff.1 h
  obtain ⟨x, hx, hflag, hkind⟩ := inheritsSelector_iff.1 hinh
  refine ⟨x, hx, hflag, ?_, exists_adopt_mem_mergeNodes hx (consumedIn_of_inherited hflag scope)⟩
  rw [hkind, (nativeSelector?_eq_some_iff.1 hnative).2]

/-- **A merge never removes the last rule of a selector,** nor an unresolved rule. -/
theorem exists_rule_mergeNodes {scope : List Node} {selector : Option String} :
    (∃ n ∈ mergeNodes scope, n.kind = .rule selector) ↔ ∃ n ∈ scope, n.kind = .rule selector := by
  constructor
  · rintro ⟨n, hn, hkind⟩
    obtain ⟨m, hm, -, more, rfl⟩ := mem_mergeNodes hn
    exact ⟨m, hm, hkind⟩
  · rintro ⟨n, hn, hkind⟩
    cases hgone : consumedIn scope n with
    | false =>
      obtain ⟨more, hmore⟩ := exists_adopt_mem_mergeNodes hn hgone
      exact ⟨_, hmore, hkind⟩
    | true =>
      obtain ⟨x, -, -, hsame, more, hmore⟩ := exists_adopt_of_consumedIn hgone
      exact ⟨_, hmore, hsame.trans hkind⟩

/-- A merge leaves all inherited rules. -/
theorem inheritsSelector_mergeNodes (scope : List Node) (selector : String) :
    inheritsSelector (mergeNodes scope) selector = inheritsSelector scope selector := by
  rw [Bool.eq_iff_iff, inheritsSelector_iff, inheritsSelector_iff]
  constructor
  · rintro ⟨n, hn, hflag, hkind⟩
    obtain ⟨m, hm, -, more, rfl⟩ := mem_mergeNodes hn
    exact ⟨m, hm, hflag, hkind⟩
  · rintro ⟨n, hn, hflag, hkind⟩
    obtain ⟨more, hmore⟩ := exists_adopt_mem_mergeNodes hn (consumedIn_of_inherited hflag scope)
    exact ⟨_, hmore, hflag, hkind⟩

theorem consumedIn_mergeNodes (scope : List Node) : consumedIn (mergeNodes scope) = consumedIn scope := by
  funext n
  simp only [consumedIn, inheritsSelector_mergeNodes]

/-- From what is left of a scope nothing disappears. -/
theorem consumedIn_of_mem_mergeNodes {scope : List Node} {n : Node} (h : n ∈ mergeNodes scope) :
    consumedIn (mergeNodes scope) n = false := by
  rw [consumedIn_mergeNodes]
  simpa using (List.mem_filter.1 h).2

/-! ## Impossible and idle merges -/

/-- Whether a scope has an inherited rule and a rule that was never resolved. -/
def lacksSelector (scope : List Node) : Bool :=
  scope.any Node.isInheritedRule && scope.any Node.isUnresolvedRule

/-- What is left of a scope lacks a selector only if the scope does. -/
theorem lacksSelector_mergeNodes {scope : List Node} (h : lacksSelector scope = false) :
    lacksSelector (mergeNodes scope) = false := by
  rw [Bool.eq_false_iff] at h ⊢
  intro hleft
  apply h
  simp only [lacksSelector, Bool.and_eq_true, List.any_eq_true, Node.isInheritedRule, Node.isRule_iff,
    Node.isUnresolvedRule_iff] at hleft ⊢
  obtain ⟨⟨q, hq, hflag, hrule⟩, hunresolved⟩ := hleft
  obtain ⟨m, hm, -, more, rfl⟩ := mem_mergeNodes hq
  exact ⟨⟨m, hm, hflag, hrule⟩, exists_rule_mergeNodes.1 hunresolved⟩

/-- A scope from which nothing disappears is left as it is: nobody takes anything over. -/
theorem mergeNodes_eq_self {scope : List Node} (h : ∀ n ∈ scope, consumedIn scope n = false) :
    mergeNodes scope = scope := by
  have habsorbed : ∀ selector, inheritsSelector scope selector = true → absorbed scope selector = [] := by
    intro selector hinherits
    have hnone : scope.filter (fun n => n.nativeSelector? = some selector) = [] := by
      rw [List.filter_eq_nil_iff]
      intro n hn hnative
      have hgone := consumedIn_iff.2 ⟨selector, of_decide_eq_true hnative, hinherits⟩
      rw [h n hn] at hgone
      cases hgone
    rw [absorbed, hnone, List.flatMap_nil]
  have htaking : ∀ n ∈ scope, ∀ later, taking scope later n = n := by
    intro n hn later
    unfold taking
    cases hselector : n.inheritedSelector? with
    | none => rfl
    | some selector =>
      have hinherits := inheritsSelector_iff.2 ⟨n, hn, inheritedSelector?_eq_some_iff.1 hselector⟩
      simp [habsorbed selector hinherits]
  have htakeOver : ∀ nodes : List Node, (∀ n ∈ nodes, n ∈ scope) → takeOver scope nodes = nodes := by
    intro nodes hnodes
    induction nodes with
    | nil => rfl
    | cons n later ih =>
      rw [takeOver, htaking n (hnodes n List.mem_cons_self), ih fun x hx => hnodes x (List.mem_cons_of_mem _ hx)]
  rw [mergeNodes, htakeOver scope fun n hn => hn]
  exact List.filter_eq_self.2 fun n hn => by rw [h n hn, Bool.not_false]

/-- From a scope without inherited rules nothing disappears. -/
theorem mergeNodes_of_no_inherited {scope : List Node} (h : scope.any Node.isInheritedRule = false) :
    mergeNodes scope = scope ∧ scope.countP (consumedIn scope) = 0 := by
  have hconsumed : ∀ n, consumedIn scope n = false := fun n => by
    rw [Bool.eq_false_iff]
    intro hn
    obtain ⟨selector, -, hinh⟩ := consumedIn_iff.1 hn
    obtain ⟨x, hx, hflag, hkind⟩ := inheritsSelector_iff.1 hinh
    have hrule : x.isInheritedRule = true := by
      simp [Node.isInheritedRule, hflag, Node.isRule_iff.2 ⟨_, hkind⟩]
    exact List.any_eq_false.1 h x hx hrule
  exact ⟨mergeNodes_eq_self fun n _ => hconsumed n, by simp [hconsumed]⟩

end StyleTree
