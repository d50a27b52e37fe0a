import StyleTree.Proofs.Inherit.Merge

/-!
# `Proofs.Inherit.Turns` — a merge, turn by turn

A merge empties places as it goes: each inherited rule has its turn, the last one first, and every native node
that is still at its place is offered to it. After the turns of the inherited rules behind a place, the places
hold what the description without an order says of those rules alone; so after all turns they hold what it says
of the scope.

## Contents
- **Places.** What `placesWhere` finds.
- **One turn.** `foldlM_offer`: the native nodes offered to one rule, in whatever state the places are.
- **All turns.** `mergedFrom`, the state after the turns of the rules behind a place; `takeTurn_mergedFrom`,
  one more turn; `foldlM_takeTurn`, all of them.
- **Unresolved rules.** `foldlM_takeTurn_unresolved` and `takeTurn_unresolved_native`: some turn fails.
- **The merge.** `merge_eq`: the two descriptions agree on every scope.
-/

namespace StyleTree

/-! ## The places of a scope -/

theorem mem_placesWhere {property : Node → Bool} {scope : List Node} {first place : Nat} :
    place ∈ placesWhere property first scope ↔
      ∃ i n, place = first + i ∧ scope[i]? = some n ∧ property n = true := by
  induction scope generalizing first with
  | nil => simp [placesWhere]
  | cons n ns ih =>
    have hrest : place ∈ placesWhere property (first + 1) ns ↔
        ∃ i m, place = first + (i + 1) ∧ (n :: ns)[i + 1]? = some m ∧ property m = true := by
      simp only [ih, List.getElem?_cons_succ, Nat.add_assoc, Nat.add_comm 1]
    rw [placesWhere]
    constructor
    · intro h
      by_cases hn : property n = true
      · rw [if_pos hn, List.mem_cons] at h
        rcases h with rfl | h
        · exact ⟨0, n, rfl, rfl, hn⟩
        · obtain ⟨i, hi⟩ := hrest.1 h
          exact ⟨i + 1, hi⟩
      · rw [if_neg hn] at h
        obtain ⟨i, hi⟩ := hrest.1 h
        exact ⟨i + 1, hi⟩
    · rintro ⟨_ | i, m, hplace, hm, hprop⟩
      · cases hm
        simp [hplace, hprop]
      · have h := hrest.2 ⟨i, m, hplace, hm, hprop⟩
        split
        · exact List.mem_cons_of_mem _ h
        · exact h

/-- A node without the property stands at none of the places. -/
theorem not_mem_placesWhere {property : Node → Bool} {scope : List Node} {i : Nat} {n : Node}
    (hi : scope[i]? = some n) (hn : property n = false) : i ∉ placesWhere property 0 scope := by
  intro h
  obtain ⟨j, m, hplace, hm, hproperty⟩ := mem_placesWhere.1 h
  rw [Nat.zero_add] at hplace
  rw [← hplace, hi, Option.some.injEq] at hm
  rw [← hm, hn] at hproperty
  cases hproperty

theorem nodup_placesWhere (property : Node → Bool) (scope : List Node) (first : Nat) :
    (placesWhere property first scope).Nodup := by
  induction scope generalizing first with
  | nil => exact List.nodup_nil
  | cons n ns ih =>
    rw [placesWhere]
    split
    · refine List.nodup_cons.2 ⟨fun h => ?_, ih _⟩
      obtain ⟨i, _, hplace, -⟩ := mem_placesWhere.1 h
      omega
    · exact ih _

/-- What is found at the places of some nodes is what those nodes say, in their order. -/
theorem filterMap_placesWhere {α : Type} {property : Node → Bool} {scope : List Node} {first : Nat}
    {found : Nat → Option α} {answer : Node → Option α}
    (h : ∀ i n, scope[i]? = some n → property n = true → found (first + i) = answer n) :
    (placesWhere property first scope).filterMap found = (scope.filter property).filterMap answer := by
  induction scope generalizing first with
  | nil => rfl
  | cons n ns ih =>
    have hrest : (placesWhere property (first + 1) ns).filterMap found = (ns.filter property).filterMap answer := by
      refine ih fun i m hm hprop => ?_
      rw [Nat.add_assoc, Nat.add_comm 1]
      exact h (i + 1) m hm hprop
    rw [placesWhere]
    by_cases hn : property n = true
    · rw [if_pos hn, List.filter_cons_of_pos hn, List.filterMap_cons, List.filterMap_cons,
        ← h 0 n rfl hn, hrest, Nat.add_zero]
    · rw [if_neg hn, List.filter_cons_of_neg hn, hrest]

/-! ## One turn -/

namespace Merging

/-- The rule with the given selector at a place, if it is still there. -/
def given? (m : Merging) (selector : String) (place : Nat) : Option Node :=
  (m.node? place).filter fun n => n.selector? = some selector

/-- The state after the nodes at the given places were offered to a rule that takes the given selector. -/
def afterOffers (m : Merging) (selector : String) (taker : Nat) (natives : List Nat) : Merging where
  places := m.places.mapIdx fun i place =>
    if i = taker then place.map (·.adopt ((natives.filterMap (m.given? selector)).flatMap Node.children))
    else if i ∈ natives ∧ (m.given? selector i).isSome then none
    else place
  consumed := m.consumed + (natives.filterMap (m.given? selector)).length

theorem offer_resolved {m : Merging} {selector : String} {taker native : Nat}
    (h : ∀ n, m.node? native = some n → n.isUnresolvedRule = false) :
    m.offer selector taker native =
      .ok (if (m.given? selector native).isSome then m.absorb taker native else m) := by
  cases hnode : m.node? native with
  | none => simp [offer, hasSelector, given?, hnode, pure, Except.pure, bind, Except.bind]
  | some n =>
    by_cases hrule : n.isRule = true
    · obtain ⟨own, hown⟩ := Node.selector?_of_resolved hrule (h n hnode)
      have hkey := Node.selectorKey_eq_ok_iff.2 hown
      by_cases heq : own = selector <;>
        simp [offer, hasSelector, given?, hnode, hrule, hkey, hown, heq, pure, Except.pure, bind, Except.bind]
    · have hown : n.selector? ≠ some selector := fun hs =>
        hrule (Node.isRule_iff.2 ⟨_, Node.selector?_eq_some_iff.1 hs⟩)
      simp [offer, hasSelector, given?, hnode, hrule, hown, pure, Except.pure, bind, Except.bind]

/-- An unresolved rule fails the turn of whichever rule it is offered to. -/
theorem offer_unresolved {m : Merging} {selector : String} {taker native : Nat} {n : Node}
    (hnode : m.node? native = some n) (hn : n.kind = .rule none) :
    m.offer selector taker native = .error { cause := .unresolvedSelector } := by
  have hrule : n.isRule = true := Node.isRule_iff.2 ⟨none, hn⟩
  simp [offer, hasSelector, hnode, hrule, Node.selectorKey_unresolved hn, bind, Except.bind]

/-- What the places hold after the taker has absorbed the node at another place. -/
theorem absorb_getElem? {m : Merging} {taker place : Nat} {n : Node} (hnode : m.node? place = some n)
    (htaker : taker ≠ place) (j : Nat) :
    (m.absorb taker place).places[j]? =
      if j = taker then m.places[j]?.map (Option.map (·.adopt n.children))
      else if j = place then some none
      else m.places[j]? := by
  have hlt : place < m.places.length := by
    by_contra hge
    simp [node?, List.getElem?_eq_none (Nat.le_of_not_lt hge)] at hnode
  simp only [absorb, hnode]
  by_cases hjt : j = taker
  · subst hjt
    simp [List.getElem?_set_ne htaker.symm]
  · by_cases hjp : j = place
    · subst hjp
      simp [hjt, Ne.symm hjt, hlt]
    · simp [List.getElem?_set_ne (Ne.symm hjp), hjt, hjp, Ne.symm hjt]

/-- All places but its own and the taker's hold what they held before. -/
theorem absorb_node? {m : Merging} {taker place other : Nat} {n : Node} (hnode : m.node? place = some n)
    (htaker : taker ≠ place) (hother : other ≠ taker) (hplace : other ≠ place) :
    (m.absorb taker place).node? other = m.node? other := by
  rw [node?, absorb_getElem? hnode htaker, if_neg hother, if_neg hplace, node?]

theorem afterOffers_getElem? (m : Merging) (selector : String) (taker : Nat) (natives : List Nat) (j : Nat) :
    (m.afterOffers selector taker natives).places[j]? =
      if j = taker then
        m.places[j]?.map (Option.map
          (·.adopt ((natives.filterMap (m.given? selector)).flatMap Node.children)))
      else if j ∈ natives ∧ (m.given? selector j).isSome then some none
      else m.places[j]? := by
  rw [afterOffers, List.getElem?_mapIdx]
  by_cases hjt : j = taker
  · simp [hjt]
  · by_cases hgiven : j ∈ natives ∧ (m.given? selector j).isSome
    · have hlt : j < m.places.length := by
        by_contra hge
        simp [given?, node?, List.getElem?_eq_none (Nat.le_of_not_lt hge)] at hgiven
      simp [hjt, hgiven, hlt]
    · simp [hjt, hgiven]

theorem given?_eq_some_iff {m : Merging} {selector : String} {place : Nat} {n : Node} :
    m.given? selector place = some n ↔ m.node? place = some n ∧ n.selector? = some selector := by
  simp [given?, Option.filter_eq_some_iff]

/-- One native node after the other is offered: the turn of a rule whose natives are all resolved. -/
theorem foldlM_offer (selector : String) {taker : Nat} {natives : List Nat} {m : Merging}
    (htaker : taker ∉ natives) (hnodup : natives.Nodup)
    (hresolved : ∀ i ∈ natives, ∀ n, m.node? i = some n → n.isUnresolvedRule = false) :
    natives.foldlM (offer selector taker) m = .ok (m.afterOffers selector taker natives) := by
  induction natives generalizing m with
  | nil =>
    have hplaces : m.places.mapIdx (fun _ place => place) = m.places :=
      List.ext_getElem? fun i => by simp
    simp [afterOffers, hplaces, pure, Except.pure]
  | cons i rest ih =>
    obtain ⟨hi, hnodup⟩ := List.nodup_cons.1 hnodup
    obtain ⟨hti, htrest⟩ := not_or.1 (mt List.mem_cons.2 htaker)
    rw [List.foldlM_cons, offer_resolved (hresolved i List.mem_cons_self)]
    change List.foldlM (offer selector taker) _ rest = _
    cases hgiven : m.given? selector i with
    | none =>
      rw [if_neg (by simp), ih htrest hnodup fun j hj => hresolved j (List.mem_cons_of_mem _ hj)]
      -- Nothing is given at `i`, so its place is left alone on both sides.
      refine congrArg Except.ok (congrArg₂ Merging.mk (List.ext_getElem? fun j => ?_) ?_)
      · show (m.afterOffers selector taker rest).places[j]? = (m.afterOffers selector taker (i :: rest)).places[j]?
        rw [afterOffers_getElem?, afterOffers_getElem?, List.filterMap_cons_none hgiven]
        by_cases hji : j = i
        · simp [hji, hgiven]
        · simp [hji]
      · rw [List.filterMap_cons_none hgiven]
    | some n =>
      -- The node at `i` disappears first; at the places behind, the same is given as before.
      obtain ⟨hnode, -⟩ := given?_eq_some_iff.1 hgiven
      have hsame : ∀ j ∈ rest, (m.absorb taker i).node? j = m.node? j := fun j hj =>
        absorb_node? hnode hti (fun h => htrest (h ▸ hj)) (fun h => hi (h ▸ hj))
      have hgivenRest : ∀ j ∈ rest, (m.absorb taker i).given? selector j = m.given? selector j :=
        fun j hj => by rw [given?, hsame j hj, given?]
      rw [if_pos (by simp), ih htrest hnodup fun j hj m' hm' =>
        hresolved j (List.mem_cons_of_mem _ hj) m' (hsame j hj ▸ hm')]
      refine congrArg Except.ok (congrArg₂ Merging.mk (List.ext_getElem? fun j => ?_) ?_)
      · show ((m.absorb taker i).afterOffers selector taker rest).places[j]?
          = (m.afterOffers selector taker (i :: rest)).places[j]?
        rw [afterOffers_getElem?, afterOffers_getElem?, absorb_getElem? hnode hti,
          List.filterMap_congr hgivenRest, List.filterMap_cons_some hgiven]
        by_cases hjt : j = taker
        · simp [hjt, Function.comp_def]
        · by_cases hji : j = i
          · simp [hji, hgiven, Ne.symm hti]
          · by_cases hj : j ∈ rest
            · simp [hjt, hji, hj, hgivenRest j hj]
            · simp [hjt, hji, hj]
      · rw [List.filterMap_congr hgivenRest, List.filterMap_cons_some hgiven]
        simp [absorb, hnode]; omega

end Merging

/-! ## All turns -/

/-- What a place holds once the inherited rules that stand at `start` or behind have had their turn. -/
def placeAfter (scope : List Node) (start i : Nat) (n : Node) : Option Node :=
  if consumedIn (scope.drop start) n then none
  else if start ≤ i then some (taking scope (scope.drop (i + 1)) n)
  else some n

/-- The scope once the inherited rules that stand at `start` or behind have had their turn. -/
def mergedFrom (scope : List Node) (start : Nat) : Merging where
  places := scope.mapIdx (placeAfter scope start)
  consumed := scope.countP (consumedIn (scope.drop start))

theorem mergedFrom_getElem? (scope : List Node) (start i : Nat) :
    (mergedFrom scope start).places[i]? = scope[i]?.map (placeAfter scope start i) :=
  List.getElem?_mapIdx

theorem mergedFrom_node? (scope : List Node) (start i : Nat) :
    (mergedFrom scope start).node? i = scope[i]?.bind (placeAfter scope start i) := by
  rw [Merging.node?, mergedFrom_getElem?]
  cases scope[i]? <;> rfl

/-- Before the first turn nothing has changed. -/
theorem mergedFrom_length (scope : List Node) :
    mergedFrom scope scope.length = { places := scope.map some } := by
  refine congrArg₂ Merging.mk (List.ext_getElem? fun i => ?_) ?_
  · rw [List.getElem?_mapIdx, List.getElem?_map]
    cases hi : scope[i]? with
    | none => rfl
    | some n =>
      have hlt : ¬scope.length ≤ i := Nat.not_le.2 (List.getElem?_eq_some_iff.1 hi).1
      simp [placeAfter, consumedIn_nil, hlt]
  · simp [consumedIn_nil]

/-- After the last turn the places that are not empty hold what is left of the scope. -/
theorem filterMap_mergedFrom_zero (scope : List Node) :
    (mergedFrom scope 0).places.filterMap id = mergeNodes scope := by
  have hplaces : (mergedFrom scope 0).places
      = (takeOver scope scope).map fun n => if consumedIn scope n then none else some n := by
    refine List.ext_getElem? fun i => ?_
    rw [mergedFrom_getElem?, List.getElem?_map, takeOver_getElem?]
    cases scope[i]? with
    | none => rfl
    | some n => simp [placeAfter, consumedIn_taking]
  rw [hplaces, List.filterMap_map, mergeNodes, ← List.filterMap_eq_filter]
  refine List.filterMap_congr fun n _ => ?_
  by_cases h : consumedIn scope n = true <;> simp [h, Option.guard]

/-! The turn of the node at a place, the rules behind it having had theirs. -/

section Turn

variable {scope before later : List Node} {n : Node} {selector : String}

theorem getElem?_turn (hscope : scope = before ++ n :: later) : scope[before.length]? = some n := by
  simp [hscope]

theorem drop_turn (hscope : scope = before ++ n :: later) : scope.drop before.length = n :: later := by
  simp [hscope]

theorem drop_behind_turn (hscope : scope = before ++ n :: later) : scope.drop (before.length + 1) = later := by
  simp [hscope]

/-- A node that is no inherited rule has no turn: nothing changes where it stands. -/
theorem mergedFrom_of_no_turn (hscope : scope = before ++ n :: later) (hn : n.inheritedSelector? = none) :
    mergedFrom scope before.length = mergedFrom scope (before.length + 1) := by
  have hdrop := drop_turn hscope
  have hdrop' := drop_behind_turn hscope
  have hconsumed := consumedIn_cons_of_none hn later
  refine congrArg₂ Merging.mk (List.mapIdx_eq_mapIdx_iff.2 fun i hi => ?_) ?_
  · simp only [placeAfter, hdrop, hdrop', hconsumed]
    rcases Nat.lt_trichotomy i before.length with hlt | rfl | hgt
    · rw [if_neg (Nat.not_le.2 hlt), if_neg (Nat.not_le.2 (Nat.lt_succ_of_lt hlt))]
    · have hin : scope[before.length] = n := by simp [hscope]
      simp [hin, taking, hn]
    · rw [if_pos (Nat.le_of_lt hgt), if_pos (Nat.succ_le_of_lt hgt)]
  · rw [hdrop, hdrop', hconsumed]

/-- An inherited rule whose turn comes is still where it was. -/
theorem mergedFrom_node?_turn (hscope : scope = before ++ n :: later) (hflag : n.inherited = true) :
    (mergedFrom scope (before.length + 1)).node? before.length = some n := by
  rw [mergedFrom_node?, getElem?_turn hscope, Option.bind_some, placeAfter, consumedIn_of_inherited hflag,
    if_neg (by simp), if_neg (by omega)]

/-- What is given at the place of a native node that has not disappeared. -/
theorem given?_mergedFrom_of_native (selector : String) (start : Nat) {i : Nat} {x : Node} (hi : scope[i]? = some x)
    (hx : x.inherited = false) :
    (mergedFrom scope start).given? selector i =
      if consumedIn (scope.drop start) x = false ∧ x.nativeSelector? = some selector then some x else none := by
  have hnative : x.nativeSelector? = x.selector? := by simp [Node.nativeSelector?, hx]
  rw [Merging.given?, mergedFrom_node?, hi, Option.bind_some, placeAfter, taking_of_native hx, ite_self]
  cases hc : consumedIn (scope.drop start) x
  · by_cases hsel : x.selector? = some selector <;> simp [hnative, hsel]
  · simp

/-- Which native rules are still there when the rule in front of `later` has its turn: either all of its
    selector, or, if a rule behind it has the same selector, none. -/
theorem filterMap_given?_mergedFrom (hscope : scope = before ++ n :: later) :
    (placesWhere (fun x => !x.inherited) 0 scope).filterMap
        ((mergedFrom scope (before.length + 1)).given? selector)
      = if inheritsSelector later selector then []
        else scope.filter fun x => x.nativeSelector? = some selector := by
  have hdrop := drop_behind_turn hscope
  have hgiven : ∀ i x, scope[i]? = some x → (!x.inherited) = true →
      (mergedFrom scope (before.length + 1)).given? selector (0 + i)
        = if inheritsSelector later selector = false ∧ x.nativeSelector? = some selector then some x
          else none := by
    intro i x hi hx
    have hx : x.inherited = false := by simpa using hx
    rw [Nat.zero_add, given?_mergedFrom_of_native _ _ hi hx, hdrop]
    by_cases hsel : x.nativeSelector? = some selector
    · simp [consumedIn, hsel]
    · simp [hsel]
  rw [filterMap_placesWhere hgiven]
  cases hinh : inheritsSelector later selector with
  | true => simp
  | false =>
    rw [if_neg (by simp), List.filterMap_filter, ← List.filterMap_eq_filter]
    refine List.filterMap_congr fun x _ => ?_
    by_cases hx : x.nativeSelector? = some selector
    · have := (nativeSelector?_eq_some_iff.1 hx).1
      simp [hx, this, Option.guard]
    · simp [hx, Option.guard]

/-- At any other place a turn has an effect only if a native rule with the selector stands there. -/
theorem placeAfter_of_ne (hscope : scope = before ++ n :: later) (hn : n.inheritedSelector? = some selector)
    {i : Nat} (hi : i ≠ before.length) (x : Node) :
    placeAfter scope before.length i x =
      if x.nativeSelector? = some selector then none else placeAfter scope (before.length + 1) i x := by
  have hdrop := drop_turn hscope
  have hdrop' := drop_behind_turn hscope
  have hle : before.length ≤ i ↔ before.length + 1 ≤ i := by omega
  simp only [placeAfter, hdrop, hdrop', consumedIn_cons hn, hle]
  by_cases hx : x.nativeSelector? = some selector <;> simp [hx]

/-- Once the rule in front of `later` has been offered all native nodes, each place holds what it holds after
    the turn of that rule. -/
theorem afterOffers_mergedFrom_getElem? (hscope : scope = before ++ n :: later)
    (hn : n.inheritedSelector? = some selector) (i : Nat) :
    ((mergedFrom scope (before.length + 1)).afterOffers selector before.length
        (placesWhere (fun x => !x.inherited) 0 scope)).places[i]?
      = (mergedFrom scope before.length).places[i]? := by
  have hflag := (inheritedSelector?_eq_some_iff.1 hn).1
  have hdrop := drop_behind_turn hscope
  have hat := getElem?_turn hscope
  rw [Merging.afterOffers_getElem?, filterMap_given?_mergedFrom hscope, mergedFrom_getElem?, mergedFrom_getElem?]
  by_cases hi : i = before.length
  · -- The rule itself takes over whatever native rules are still there.
    rw [if_pos hi, hi, hat, Option.map_some, Option.map_some, Option.map_some, placeAfter, placeAfter,
      consumedIn_of_inherited hflag, consumedIn_of_inherited hflag, hdrop, taking, hn]
    cases hinh : inheritsSelector later selector <;>
      simp [hinh, absorbed, Nat.not_succ_le_self before.length]
  · rw [if_neg hi]
    cases hx : scope[i]? with
    | none => simp [Merging.given?, mergedFrom_node?, hx]
    | some x =>
      rw [Option.map_some, Option.map_some, placeAfter_of_ne hscope hn hi]
      have hgiven := given?_mergedFrom_of_native selector (before.length + 1) hx
      by_cases hsel : x.nativeSelector? = some selector
      · -- A native rule of the selector is gone now, if it was not gone before.
        have hnative := (nativeSelector?_eq_some_iff.1 hsel).1
        have hmem : i ∈ placesWhere (fun x => !x.inherited) 0 scope :=
          mem_placesWhere.2 ⟨i, x, by omega, hx, by simp [hnative]⟩
        rw [hgiven hnative, if_pos hsel]
        cases hgone : consumedIn (scope.drop (before.length + 1)) x
        · simp [hmem, hsel]
        · simp [placeAfter, hgone]
      · -- Nothing else is given.
        rw [if_neg hsel, if_neg]
        rintro ⟨hmem, hsome⟩
        obtain ⟨_, y, rfl, hy, hnative⟩ := mem_placesWhere.1 hmem
        rw [Nat.zero_add, hy, Option.some.injEq] at hx
        rw [hgiven (by simpa [hx] using hnative)] at hsome
        simp [hsel] at hsome

/-- So has as many nodes disappeared. -/
theorem afterOffers_mergedFrom_consumed (hscope : scope = before ++ n :: later)
    (hn : n.inheritedSelector? = some selector) :
    ((mergedFrom scope (before.length + 1)).afterOffers selector before.length
        (placesWhere (fun x => !x.inherited) 0 scope)).consumed
      = (mergedFrom scope before.length).consumed := by
  have hdrop := drop_turn hscope
  have hdrop' := drop_behind_turn hscope
  rw [Merging.afterOffers, filterMap_given?_mergedFrom hscope, mergedFrom, mergedFrom, hdrop, hdrop',
    List.countP_eq_length_filter, List.countP_eq_length_filter, (filter_consumedIn_cons hn scope).length_eq,
    List.length_append]

/-- The native nodes that are still there in the course of a merge are those of the scope. -/
theorem resolved_of_native_place (hresolved : ∀ x ∈ scope, x.inherited = false → x.isUnresolvedRule = false)
    (start : Nat) : ∀ i ∈ placesWhere (fun x => !x.inherited) 0 scope, ∀ x,
      (mergedFrom scope start).node? i = some x → x.isUnresolvedRule = false := by
  intro i hi x hx
  obtain ⟨_, y, rfl, hy, hnative⟩ := mem_placesWhere.1 hi
  have hflag : y.inherited = false := by simpa using hnative
  rw [Nat.zero_add] at hx
  rw [mergedFrom_node?, hy, Option.bind_some, placeAfter, taking_of_native hflag, ite_self] at hx
  have hxy : y = x := by
    split at hx <;> simp_all
  exact hxy ▸ hresolved y (List.mem_of_getElem? hy) hflag

/-- **One turn.** The rule in front of `later` has its turn once those behind it have had theirs. -/
theorem takeTurn_mergedFrom (hscope : scope = before ++ n :: later)
    (hn : n.inheritedSelector? = some selector)
    (hresolved : ∀ x ∈ scope, x.inherited = false → x.isUnresolvedRule = false) :
    Merging.takeTurn (placesWhere (fun x => !x.inherited) 0 scope) (mergedFrom scope (before.length + 1))
      before.length = .ok (mergedFrom scope before.length) := by
  obtain ⟨hflag, hkind⟩ := inheritedSelector?_eq_some_iff.1 hn
  have hkey : n.selectorKey = .ok selector :=
    Node.selectorKey_eq_ok_iff.2 (Node.selector?_eq_some_iff.2 hkind)
  have hnotNative : before.length ∉ placesWhere (fun x => !x.inherited) 0 scope :=
    not_mem_placesWhere (getElem?_turn hscope) (by simp [hflag])
  have hoffers := Merging.foldlM_offer selector hnotNative (nodup_placesWhere _ _ _)
    (resolved_of_native_place hresolved (before.length + 1))
  rw [Merging.takeTurn, mergedFrom_node?_turn hscope hflag]
  show (do let own ← n.selectorKey; _) = _
  rw [hkey]
  show List.foldlM _ _ _ = _
  rw [hoffers]
  refine congrArg Except.ok (congrArg₂ Merging.mk (List.ext_getElem? fun i => ?_) ?_)
  · exact afterOffers_mergedFrom_getElem? hscope hn i
  · exact afterOffers_mergedFrom_consumed hscope hn

end Turn

/-- **All turns.** The inherited rules of `later` have their turns from the last to the first. -/
theorem foldlM_takeTurn {scope later : List Node} (before : List Node) (hscope : scope = before ++ later)
    (hnative : ∀ x ∈ scope, x.inherited = false → x.isUnresolvedRule = false)
    (hlater : ∀ x ∈ later, x.isUnresolvedRule = false) :
    (placesWhere Node.isInheritedRule before.length later).reverse.foldlM
        (Merging.takeTurn (placesWhere (fun x => !x.inherited) 0 scope)) { places := scope.map some }
      = .ok (mergedFrom scope before.length) := by
  induction later generalizing before with
  | nil =>
    rw [List.append_nil] at hscope
    rw [← hscope, mergedFrom_length]
    rfl
  | cons n later ih =>
    -- The places run backwards: the rules of `later` have their turns first, then `n`, if it is one.
    have hrest := ih (before ++ [n]) (by simp [hscope])
      fun x hx => hlater x (List.mem_cons_of_mem _ hx)
    rw [List.length_append, List.length_singleton] at hrest
    rw [placesWhere]
    cases hn : n.isInheritedRule with
    | true =>
      obtain ⟨selector, hselector⟩ := inheritedSelector?_of_resolved hn (hlater n List.mem_cons_self)
      rw [if_pos rfl, List.reverse_cons, List.foldlM_append, hrest]
      show List.foldlM (Merging.takeTurn _) (mergedFrom scope _) [before.length] = _
      rw [List.foldlM_cons, takeTurn_mergedFrom hscope hselector hnative]
      rfl
    | false =>
      rw [if_neg (by simp), hrest, mergedFrom_of_no_turn hscope (inheritedSelector?_eq_none hn)]

/-! ## Unresolved rules -/

/-- An unresolved native rule fails the turn in which it is offered, whatever is offered before it. -/
theorem Merging.foldlM_offer_unresolved {selector : String} {taker i : Nat} {natives : List Nat} {m : Merging}
    {u : Node} (hi : i ∈ natives) (htaker : taker ∉ natives) (hnode : m.node? i = some u)
    (hu : u.kind = .rule none) :
    natives.foldlM (offer selector taker) m = .error { cause := .unresolvedSelector } := by
  induction natives generalizing m with
  | nil => cases hi
  | cons j rest ih =>
    obtain ⟨htj, htrest⟩ := not_or.1 (mt List.mem_cons.2 htaker)
    have hit : i ≠ taker := fun h => htaker (h ▸ hi)
    rw [List.foldlM_cons]
    by_cases hj : ∃ n, m.node? j = some n ∧ n.kind = .rule none
    · -- Whichever unresolved rule comes first, the turn fails there.
      obtain ⟨n, hjn, hn⟩ := hj
      rw [offer_unresolved hjn hn]
      rfl
    · have hij : i ≠ j := fun h => hj ⟨u, h ▸ hnode, hu⟩
      have hirest : i ∈ rest := (List.mem_cons.1 hi).resolve_left hij
      rw [offer_resolved fun n hn => by
        rw [Bool.eq_false_iff]
        exact fun h => hj ⟨n, hn, Node.isUnresolvedRule_iff.1 h⟩]
      refine ih hirest htrest ?_
      split
      · next h =>
        obtain ⟨n, hn⟩ := Option.isSome_iff_exists.1 h
        rw [absorb_node? (given?_eq_some_iff.1 hn).1 htj hit hij, hnode]
      · exact hnode

/-- The last unresolved rule of a scope, with nothing unresolved behind it. -/
theorem exists_last_unresolved {scope : List Node} (h : scope.any Node.isUnresolvedRule = true) :
    ∃ before u later, scope = before ++ u :: later ∧ u.kind = .rule none ∧
      ∀ x ∈ later, x.isUnresolvedRule = false := by
  induction scope with
  | nil => simp at h
  | cons n ns ih =>
    by_cases hns : ns.any Node.isUnresolvedRule = true
    · obtain ⟨before, u, later, hsplit, hu, hlater⟩ := ih hns
      exact ⟨n :: before, u, later, by rw [hsplit, List.cons_append], hu, hlater⟩
    · have hn : n.isUnresolvedRule = true := by simpa [hns] using h
      exact ⟨[], n, ns, rfl, Node.isUnresolvedRule_iff.1 hn, by simpa using hns⟩

theorem placesWhere_append (property : Node → Bool) (first : Nat) (xs ys : List Node) :
    placesWhere property first (xs ++ ys)
      = placesWhere property first xs ++ placesWhere property (first + xs.length) ys := by
  induction xs generalizing first with
  | nil => rfl
  | cons x xs ih =>
    rw [List.cons_append, placesWhere, placesWhere, ih, List.length_cons, Nat.add_assoc, Nat.add_comm 1]
    split <;> rfl

/-- If all native rules are resolved and some inherited rule is not, the turn of the last such rule fails. -/
theorem foldlM_takeTurn_unresolved {scope : List Node}
    (hnative : ∀ x ∈ scope, x.inherited = false → x.isUnresolvedRule = false)
    (hunresolved : scope.any Node.isUnresolvedRule = true) :
    (placesWhere Node.isInheritedRule 0 scope).reverse.foldlM
        (Merging.takeTurn (placesWhere (fun x => !x.inherited) 0 scope)) { places := scope.map some }
      = .error { cause := .unresolvedSelector } := by
  obtain ⟨before, u, later, hscope, hu, hlater⟩ := exists_last_unresolved hunresolved
  have hflag : u.inherited = true := by
    by_contra h
    have := hnative u (by simp [hscope]) (by simpa using h)
    simp [Node.isUnresolvedRule, hu] at this
  -- The rules behind `u` have their turns without failing, and `u` is still there when its own comes.
  have hturns := foldlM_takeTurn (before ++ [u]) (by simp [hscope]) hnative hlater
  have hnode := mergedFrom_node?_turn hscope hflag
  have hrule : u.isInheritedRule = true := by
    simp [Node.isInheritedRule, hflag, Node.isRule_iff.2 ⟨_, hu⟩]
  rw [List.length_append, List.length_singleton] at hturns
  have htakers : placesWhere Node.isInheritedRule 0 scope = placesWhere Node.isInheritedRule 0 before
      ++ before.length :: placesWhere Node.isInheritedRule (before.length + 1) later := by
    conv_lhs => rw [hscope, placesWhere_append, Nat.zero_add, placesWhere, if_pos hrule]
  have hturn : Merging.takeTurn (placesWhere (fun x => !x.inherited) 0 scope)
      (mergedFrom scope (before.length + 1)) before.length = .error { cause := .unresolvedSelector } := by
    simp [Merging.takeTurn, hnode, Node.selectorKey_unresolved hu, bind, Except.bind]
  rw [htakers, List.reverse_append, List.reverse_cons, List.append_assoc, List.foldlM_append, hturns]
  show List.foldlM (Merging.takeTurn _) (mergedFrom scope _) ([before.length] ++ _) = _
  rw [List.singleton_append, List.foldlM_cons, hturn]
  rfl

/-- If some native rule is unresolved, already the first turn fails. -/
theorem takeTurn_unresolved_native {scope : List Node} {taker : Nat} {n u : Node}
    (hn : scope[taker]? = some n) (hrule : n.isInheritedRule = true) (hu : u ∈ scope)
    (hflag : u.inherited = false) (hkind : u.kind = .rule none) :
    Merging.takeTurn (placesWhere (fun x => !x.inherited) 0 scope) { places := scope.map some } taker
      = .error { cause := .unresolvedSelector } := by
  simp only [Node.isInheritedRule, Bool.and_eq_true] at hrule
  have hnode : ∀ i x, scope[i]? = some x → Merging.node? { places := scope.map some } i = some x :=
    fun i x hx => by simp [Merging.node?, hx]
  rw [Merging.takeTurn, hnode taker n hn]
  by_cases hresolved : n.kind = .rule none
  · simp [Node.selectorKey_unresolved hresolved, bind, Except.bind]
  · obtain ⟨selector, hselector⟩ := Node.selector?_of_resolved hrule.2
      (by simpa [Node.isUnresolvedRule] using hresolved)
    obtain ⟨i, hi⟩ := List.mem_iff_getElem?.1 hu
    show (do let own ← n.selectorKey; _) = _
    rw [Node.selectorKey_eq_ok_iff.2 hselector]
    show List.foldlM _ _ _ = _
    have hoffered : i ∈ placesWhere (fun x => !x.inherited) 0 scope :=
      mem_placesWhere.2 ⟨i, u, by omega, hi, by simp [hflag]⟩
    have hnotNative : taker ∉ placesWhere (fun x => !x.inherited) 0 scope :=
      not_mem_placesWhere hn (by simp [hrule.1])
    exact Merging.foldlM_offer_unresolved hoffered hnotNative (hnode i u hi) hkind

/-! ## The merge -/

theorem placesWhere_isEmpty (property : Node → Bool) (scope : List Node) (first : Nat) :
    (placesWhere property first scope).isEmpty = !scope.any property := by
  induction scope generalizing first with
  | nil => rfl
  | cons n ns ih =>
    rw [placesWhere, List.any_cons]
    cases property n <;> simp [ih]

/-- **What a merge leaves.** A scope with an inherited rule and an unresolved one cannot be merged; of any
    other scope the description without an order tells what is left and how many rules disappear. -/
theorem merge_eq (scope : List Node) :
    merge scope = if lacksSelector scope then .error { cause := .unresolvedSelector }
      else .ok (mergeNodes scope, scope.countP (consumedIn scope)) := by
  cases hinh : scope.any Node.isInheritedRule with
  | false =>
    obtain ⟨hmerge, hcount⟩ := mergeNodes_of_no_inherited hinh
    simp [merge, lacksSelector, placesWhere_isEmpty, hinh, hmerge, hcount, pure, Except.pure]
  | true =>
    have hsome : merge scope = do
        let merged ← (placesWhere Node.isInheritedRule 0 scope).reverse.foldlM
          (Merging.takeTurn (placesWhere (fun x => !x.inherited) 0 scope)) { places := scope.map some }
        return (merged.places.filterMap id, merged.consumed) := by
      simp [merge, placesWhere_isEmpty, hinh]
    cases hunresolved : scope.any Node.isUnresolvedRule with
    | false =>
      have hresolved : ∀ x ∈ scope, x.isUnresolvedRule = false := by simpa using hunresolved
      have hturns := foldlM_takeTurn [] (List.nil_append scope).symm (fun x hx _ => hresolved x hx) hresolved
      rw [List.length_nil] at hturns
      rw [hsome, hturns, lacksSelector, hunresolved, Bool.and_false, if_neg (by simp),
        ← filterMap_mergedFrom_zero]
      rfl
    | true =>
      rw [hsome, lacksSelector, hinh, hunresolved, Bool.and_self, if_pos rfl]
      -- An inherited rule without a selector fails its own turn, a native one the first turn of all.
      by_cases hnative : ∀ x ∈ scope, x.inherited = false → x.isUnresolvedRule = false
      · rw [foldlM_takeTurn_unresolved hnative hunresolved]
        rfl
      · push Not at hnative
        obtain ⟨u, hu, hflag, hkind⟩ := hnative
        have hne : (placesWhere Node.isInheritedRule 0 scope).reverse ≠ [] := by
          rw [ne_eq, List.reverse_eq_nil_iff, ← List.isEmpty_iff, placesWhere_isEmpty, hinh]
          simp
        obtain ⟨taker, others, htakers⟩ := List.exists_cons_of_ne_nil hne
        obtain ⟨i, n, hi, hn, hrule⟩ := mem_placesWhere.1
          (List.mem_reverse.1 (htakers ▸ List.mem_cons_self : taker ∈ List.reverse _))
        rw [Nat.zero_add] at hi
        rw [htakers, List.foldlM_cons, takeTurn_unresolved_native (hi ▸ hn) hrule hu hflag
          (Node.isUnresolvedRule_iff.1 (by simpa using hkind))]
        rfl

end StyleTree
