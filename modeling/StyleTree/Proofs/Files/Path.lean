import StyleTree.Files.Basic
import StyleTree.Proofs.Prelude

/-!
# `Proofs.Files.Path` — the pieces of paths and the order of paths

Paths are compared part by part, by the first parts that differ. That is a linear order of their parts, so paths that
are the same path stand together once they are sorted, and to drop those that are the same as the one before them leaves
each path once (`pairwise_sortPaths`) and loses none (`exists_mem_sortPaths_iff`).
-/

namespace StyleTree

/-! ## Pieces -/

/-- A slash ends a piece, wherever it stands. -/
theorem pathPieces_append_slash (directory relative : String) :
    pathPieces (directory ++ "/" ++ relative) = pathPieces directory ++ pathPieces relative := by
  have hslash : "/".toList = ['/'] := rfl
  rw [pathPieces, String.toList_append, String.toList_append, hslash, List.append_assoc, List.singleton_append,
    List.splitOn_append_cons_self, List.map_append]
  rfl

theorem pathPieces_ne_nil (path : String) : pathPieces path ≠ [] := by
  intro h
  exact List.splitOn_ne_nil '/' path.toList (List.map_eq_nil_iff.1 h)

/-- Only the empty path is one empty piece. -/
theorem eq_empty_of_pathPieces {path : String} (h : pathPieces path = [""]) : path = "" := by
  obtain ⟨chars, hchars, hempty⟩ := List.map_eq_singleton_iff.1 h
  have hpath : ['/'].intercalate (path.toList.splitOn '/') = path.toList := List.intercalate_splitOn '/'
  rw [hchars, List.intercalate_singleton] at hpath
  rw [← String.ofList_toList (s := path), ← hpath]
  exact hempty

/-- A slash at the end leaves an empty piece behind it. -/
theorem nil_mem_pathPieces_of_trailing {path : String} (h : path.toList.getLast? = some '/') :
    "" ∈ pathPieces path := by
  obtain ⟨before, hpath⟩ := List.getLast?_eq_some_iff.1 h
  rw [pathPieces, hpath, List.splitOn_append_cons_self, List.map_append, List.splitOn_nil]
  exact List.mem_append_right _ (List.mem_singleton_self _)

/-! ## Parts -/

namespace PathPart

/-- A piece is never the directory itself: only the start of a path can be. -/
theorem ofPiece?_ne_current (piece : String) : ofPiece? piece ≠ some .current := by
  unfold ofPiece?
  split <;> simp

theorem le_total (a b : PathPart) : a.le b = true ∨ b.le a = true := by
  cases a with
  | name a =>
    cases b with
    | name b => exact (String.le_total a b).imp decide_eq_true decide_eq_true
    | root | current | parent => exact .inr rfl
  | root | current | parent => cases b <;> simp [le]

theorem le_trans {a b c : PathPart} (hab : a.le b = true) (hbc : b.le c = true) : a.le c = true := by
  cases a with
  | name a =>
    cases b with
    | name b =>
      cases c with
      | name c => exact decide_eq_true (String.le_trans (of_decide_eq_true hab) (of_decide_eq_true hbc))
      | root | current | parent => cases hbc
    | root | current | parent => cases hab
  | root => rfl
  | current | parent => cases b <;> cases c <;> simp_all [le]

theorem le_antisymm {a b : PathPart} (hab : a.le b = true) (hba : b.le a = true) : a = b := by
  cases a with
  | name a =>
    cases b with
    | name b => exact congrArg name (String.le_antisymm (of_decide_eq_true hab) (of_decide_eq_true hba))
    | root | current | parent => cases hab
  | root | current | parent => cases b <;> simp_all [le]

end PathPart

/-! ## Paths -/

/-- Of two paths one comes first, by the first parts that differ or because the other one goes on. -/
theorem pathPartsLe_total : ∀ as bs : List PathPart, pathPartsLe as bs = true ∨ pathPartsLe bs as = true
  | [], _ => .inl rfl
  | _ :: _, [] => .inr rfl
  | a :: as, b :: bs => by
    rw [pathPartsLe, pathPartsLe]
    by_cases hab : a = b
    · rw [if_pos hab, if_pos hab.symm]
      exact pathPartsLe_total as bs
    · rw [if_neg hab, if_neg (Ne.symm hab)]
      exact a.le_total b

/-- The order of the parts makes the order of the paths transitive, by recursion on three paths at once. -/
theorem pathPartsLe_trans : ∀ {as bs cs : List PathPart},
    pathPartsLe as bs = true → pathPartsLe bs cs = true → pathPartsLe as cs = true
  | [], _, _, _, _ => rfl
  | _ :: _, [], _, hab, _ => by cases hab
  | _ :: _, _ :: _, [], _, hbc => by cases hbc
  | a :: as, b :: bs, c :: cs, hab, hbc => by
    rw [pathPartsLe] at hab hbc ⊢
    by_cases h : a = b
    · subst h
      rw [if_pos rfl] at hab
      by_cases hac : a = c
      · rw [if_pos hac] at hbc ⊢
        exact pathPartsLe_trans hab hbc
      · rw [if_neg hac] at hbc ⊢
        exact hbc
    · rw [if_neg h] at hab
      by_cases hbc' : b = c
      · subst hbc'
        rw [if_neg h]
        exact hab
      · rw [if_neg hbc'] at hbc
        -- The first parts of the outer paths differ as well, or the one in the middle would be between two equals.
        have hac : a ≠ c := by
          intro hac
          subst hac
          exact h (PathPart.le_antisymm hab hbc)
        rw [if_neg hac]
        exact PathPart.le_trans hab hbc

/-- Paths that come before each other have the same parts. -/
theorem pathPartsLe_antisymm : ∀ {as bs : List PathPart},
    pathPartsLe as bs = true → pathPartsLe bs as = true → as = bs
  | [], [], _, _ => rfl
  | [], _ :: _, _, hba => by cases hba
  | _ :: _, [], hab, _ => by cases hab
  | a :: as, b :: bs, hab, hba => by
    rw [pathPartsLe] at hab hba
    by_cases h : a = b
    · rw [if_pos h] at hab
      rw [if_pos h.symm] at hba
      rw [h, pathPartsLe_antisymm hab hba]
    · rw [if_neg h] at hab
      rw [if_neg (Ne.symm h)] at hba
      exact absurd (PathPart.le_antisymm hab hba) h

/-! ## Lists of paths -/

/-- One path comes before another, and they are not the same path. -/
def PathLt (a b : String) : Prop :=
  pathLe a b = true ∧ pathParts a ≠ pathParts b

theorem mem_of_mem_dropRepeated {paths : List String} {path : String} (h : path ∈ dropRepeated paths) :
    path ∈ paths := by
  induction paths with
  | nil => exact h
  | cons a rest ih =>
    rw [dropRepeated] at h
    cases hrest : dropRepeated rest with
    | nil =>
      rw [hrest, List.mem_singleton] at h
      exact h ▸ List.mem_cons_self
    | cons b others =>
      rw [hrest] at h ih
      have hcases : path = a ∨ path ∈ b :: others := by
        dsimp only at h
        split at h
        · exact (List.mem_cons.1 h).imp_right (List.mem_cons_of_mem b)
        · exact List.mem_cons.1 h
      rcases hcases with rfl | hmem
      · exact List.mem_cons_self
      · exact List.mem_cons_of_mem _ (ih hmem)

/-- No path is dropped without one that is the same path before it. -/
theorem exists_mem_dropRepeated {paths : List String} {path : String} (h : path ∈ paths) :
    ∃ kept ∈ dropRepeated paths, pathParts kept = pathParts path := by
  induction paths with
  | nil => cases h
  | cons a rest ih =>
    rw [dropRepeated]
    cases hrest : dropRepeated rest with
    | nil =>
      rcases List.mem_cons.1 h with rfl | hmem
      · exact ⟨path, List.mem_singleton_self path, rfl⟩
      · obtain ⟨kept, hkept, -⟩ := ih hmem
        rw [hrest] at hkept
        cases hkept
    | cons b others =>
      rw [hrest] at ih
      dsimp only
      rcases List.mem_cons.1 h with rfl | hmem
      · refine ⟨path, ?_, rfl⟩
        split <;> exact List.mem_cons_self
      · obtain ⟨kept, hkept, hsame⟩ := ih hmem
        split
        · next hab =>
          rcases List.mem_cons.1 hkept with rfl | hkept
          · exact ⟨a, List.mem_cons_self, hab.trans hsame⟩
          · exact ⟨kept, List.mem_cons_of_mem _ hkept, hsame⟩
        · exact ⟨kept, List.mem_cons_of_mem _ hkept, hsame⟩

/-- Of paths in order, those that are not dropped are in order and differ from each other. -/
theorem pairwise_dropRepeated {paths : List String} (h : paths.Pairwise fun a b => pathLe a b = true) :
    (dropRepeated paths).Pairwise PathLt := by
  induction paths with
  | nil => exact .nil
  | cons a rest ih =>
    obtain ⟨ha, hpairwise⟩ := List.pairwise_cons.1 h
    have hbelow : ∀ x ∈ dropRepeated rest, pathLe a x = true := fun x hx => ha x (mem_of_mem_dropRepeated hx)
    have hkept := ih hpairwise
    rw [dropRepeated]
    cases hrest : dropRepeated rest with
    | nil => exact List.pairwise_singleton PathLt a
    | cons b others =>
      rw [hrest] at hbelow hkept
      obtain ⟨hb, hothers⟩ := List.pairwise_cons.1 hkept
      dsimp only
      split
      · next hab =>
        refine List.pairwise_cons.2 ⟨fun x hx => ⟨hbelow x (List.mem_cons_of_mem _ hx), ?_⟩, hothers⟩
        rw [hab]
        exact (hb x hx).2
      · next hab =>
        refine List.pairwise_cons.2 ⟨fun x hx => ⟨hbelow x hx, ?_⟩, hkept⟩
        rcases List.mem_cons.1 hx with rfl | hx
        · exact hab
        · -- A path that is the same as `a` cannot come behind `b`, which comes behind `a`.
          intro hax
          have hba : pathPartsLe (pathParts b) (pathParts a) = true := hax ▸ (hb x hx).1
          exact hab (pathPartsLe_antisymm (hbelow b List.mem_cons_self) hba)

/-- **The paths of a list are sorted,** and no two of them are the same path. -/
theorem pairwise_sortPaths (paths : List String) : (sortPaths paths).Pairwise PathLt := by
  apply pairwise_dropRepeated
  apply List.pairwise_mergeSort
  · intro a b c hab hbc
    exact pathPartsLe_trans hab hbc
  · intro a b
    rw [Bool.or_eq_true]
    exact pathPartsLe_total (pathParts a) (pathParts b)

theorem mem_of_mem_sortPaths {paths : List String} {path : String} (h : path ∈ sortPaths paths) : path ∈ paths :=
  List.mem_mergeSort.1 (mem_of_mem_dropRepeated h)

/-- **Every path of a list is listed,** in one of its spellings, and no other is. -/
theorem exists_mem_sortPaths_iff {paths : List String} {parts : List PathPart} :
    (∃ path ∈ sortPaths paths, pathParts path = parts) ↔ ∃ path ∈ paths, pathParts path = parts := by
  constructor
  · rintro ⟨path, hpath, hparts⟩
    exact ⟨path, mem_of_mem_sortPaths hpath, hparts⟩
  · rintro ⟨path, hpath, rfl⟩
    exact exists_mem_dropRepeated (List.mem_mergeSort.2 hpath)

end StyleTree
