import Mathlib.Algebra.Order.Group.Multiset
import Mathlib.Data.List.Forall2
import Mathlib.Data.List.TakeWhile
import Mathlib.Data.String.Basic

/-!
# `Proofs.Prelude` — facts about the types of the library

What the proofs need to know of `Except`, `Option`, `List`, `Multiset`, `Nat` and `String` and find nowhere else. Nothing
here is about stylesheets, so each fact stands in the namespace of its type.
-/

/-! ## Computations that may fail -/

namespace Except

variable {α β γ δ ε : Type} {x x' : Except ε α} {error : ε} {b : β}

theorem map_eq_ok {f : α → β} (h : x.map f = .ok b) : ∃ a, x = .ok a ∧ f a = b := by
  cases x with
  | error error => cases h
  | ok a => exact ⟨a, rfl, by cases h; rfl⟩

/-- A computation in two steps succeeds if both steps do, -/
theorem bind_eq_ok {f : α → Except ε β} (h : x >>= f = .ok b) : ∃ a, x = .ok a ∧ f a = .ok b := by
  cases x with
  | error error => cases h
  | ok a => exact ⟨a, rfl, h⟩

variable {keep : α → γ}

/-- Two computations that come to the same, as far as it is kept, fail alike or agree in what is kept. -/
theorem map_eq_map_cases (h : x.map keep = x'.map keep) : (∃ error, x = .error error ∧ x' = .error error) ∨
    ∃ a a', x = .ok a ∧ x' = .ok a' ∧ keep a = keep a' := by
  cases x with
  | error error =>
    cases x' with
    | error error' =>
      cases h
      exact .inl ⟨error, rfl, rfl⟩
    | ok a' => cases h
  | ok a =>
    cases x' with
    | error error' => cases h
    | ok a' => exact .inr ⟨a, a', rfl, rfl, Except.ok.inj h⟩

/-- They still do after a step that comes to the same from whatever agrees. -/
theorem map_bind_congr {result : β → δ} {f f' : α → Except ε β} (h : x.map keep = x'.map keep)
    (hf : ∀ a a', keep a = keep a' → (f a).map result = (f' a').map result) :
    (x >>= f).map result = (x' >>= f').map result := by
  obtain ⟨error, rfl, rfl⟩ | ⟨a, a', rfl, rfl, ha⟩ := map_eq_map_cases h
  · rfl
  · exact hf a a' ha

end Except

/-! ## Related values -/

namespace Option

variable {α β : Type} {related : α → β → Prop} {b? : Option β}

theorem Rel.eq_none (h : Option.Rel related .none b?) : b? = .none := by
  cases h
  rfl

theorem Rel.exists_eq_some {a : α} (h : Option.Rel related (.some a) b?) : ∃ b, b? = .some b ∧ related a b := by
  cases h with
  | some hrelated => exact ⟨_, rfl, hrelated⟩

end Option

namespace List

section Forall₂

variable {α β γ : Type} {related : α → β → Prop} {as : List α} {bs : List β}

theorem Forall₂.exists_of_mem_right (h : List.Forall₂ related as bs) {b : β} (hb : b ∈ bs) :
    ∃ a ∈ as, related a b := by
  induction h with
  | nil => cases hb
  | @cons a b' as bs hrelated _ ih =>
    rcases List.mem_cons.1 hb with rfl | hb
    · exact ⟨a, List.mem_cons_self, hrelated⟩
    · obtain ⟨a', ha', hrelated'⟩ := ih hb
      exact ⟨a', List.mem_cons_of_mem _ ha', hrelated'⟩

/-- What related elements have in common is common to the lists. -/
theorem Forall₂.map_eq_map {f : α → γ} {g : β → γ} (h : List.Forall₂ related as bs)
    (hsame : ∀ a b, related a b → f a = g b) : as.map f = bs.map g := by
  rw [← List.forall₂_eq_eq_eq, List.forall₂_map_left_iff, List.forall₂_map_right_iff]
  exact h.imp hsame

end Forall₂

/-! ## Runs and pieces -/

section Runs

variable {α : Type} {property : α → Bool} {run behind : List α}

/-- The first element is looked at alone, if there is one. -/
theorem forall_mem_head?_iff {as : List α} :
    (∀ a ∈ as.head?, property a = false) ↔ as.head?.any property = false := by
  cases as <;> simp

/-- A run is taken if no further element of the kind follows, -/
theorem takeWhile_run (hrun : ∀ a ∈ run, property a = true) (hbehind : ∀ a ∈ behind.head?, property a = false) :
    (run ++ behind).takeWhile property = run := by
  have hstop : behind.takeWhile property = [] := by
    cases behind with
    | nil => rfl
    | cons a behind => simp [hbehind a rfl]
  rw [List.takeWhile_append_of_pos hrun, hstop, List.append_nil]

/-- what follows it is left, -/
theorem dropWhile_run (hrun : ∀ a ∈ run, property a = true) (hbehind : ∀ a ∈ behind.head?, property a = false) :
    (run ++ behind).dropWhile property = behind := by
  rw [List.dropWhile_append_of_pos hrun]
  cases behind with
  | nil => rfl
  | cons a behind => simp [hbehind a rfl]

/-- and no further element of the kind follows what was taken. -/
theorem head?_dropWhile_eq_false (property : α → Bool) (as : List α) :
    ∀ a ∈ (as.dropWhile property).head?, property a = false := by
  intro a ha
  have hstop := List.head?_dropWhile_not property as
  rw [Option.mem_def] at ha
  simpa [ha] using hstop

end Runs

section Pieces

variable {α : Type} [DecidableEq α]

/-- The pieces between separators have the elements of the list. -/
theorem mem_of_mem_splitOn {separator a : α} {as piece : List α} (hpiece : piece ∈ as.splitOn separator)
    (ha : a ∈ piece) : a ∈ as := by
  induction as generalizing piece with
  | nil =>
    rw [List.splitOn_nil, List.mem_singleton] at hpiece
    exact hpiece ▸ ha
  | cons b as ih =>
    rw [List.splitOn_cons_eq_if_modifyHead] at hpiece
    split at hpiece
    · rcases List.mem_cons.1 hpiece with rfl | hpiece
      · cases ha
      · exact List.mem_cons_of_mem _ (ih hpiece ha)
    · cases hpieces : as.splitOn separator with
      | nil => exact absurd hpieces (List.splitOn_ne_nil separator as)
      | cons first others =>
        rw [hpieces] at hpiece ih
        rcases List.mem_cons.1 hpiece with rfl | hpiece
        · exact (List.mem_cons.1 ha).elim (fun h => h ▸ List.mem_cons_self)
            fun h => List.mem_cons_of_mem _ (ih List.mem_cons_self h)
        · exact List.mem_cons_of_mem _ (ih (List.mem_cons_of_mem _ hpiece) ha)

omit [DecidableEq α] in
/-- Pieces put together with separators, and one in front, begin with a separator each. -/
theorem cons_intercalate {separator : α} {pieces : List (List α)} (hpieces : pieces ≠ []) :
    separator :: [separator].intercalate pieces = pieces.flatMap (separator :: ·) := by
  induction pieces with
  | nil => exact absurd rfl hpieces
  | cons first pieces ih =>
    cases pieces with
    | nil => simp
    | cons second pieces =>
      rw [List.flatMap_cons, ← ih (List.cons_ne_nil second pieces), List.intercalate_cons_cons]
      simp

end Pieces

end List

/-! ## Lists as multisets -/

namespace Multiset

variable {α β : Type}

theorem coe_flatMap (f : α → List β) (as : List α) :
    (as.flatMap f : Multiset β) = (as.map fun a => (f a : Multiset β)).sum := by
  induction as with
  | nil => rfl
  | cons a as ih => rw [List.flatMap_cons, ← Multiset.coe_add, ih, List.map_cons, List.sum_cons]

theorem coe_map_eq_sum (f : α → β) (as : List α) :
    (as.map f : Multiset β) = (as.map fun a => ({f a} : Multiset β)).sum := by
  rw [← List.flatMap_pure_eq_map, coe_flatMap]
  rfl

theorem mem_sum_map {f : α → Multiset β} {as : List α} {b : β} : b ∈ (as.map f).sum ↔ ∃ a ∈ as, b ∈ f a := by
  induction as with
  | nil => simp
  | cons a as ih => simp [ih]

end Multiset

/-! ## Numerals -/

namespace Nat

/-- Behind digits that are already taken, a numeral means no less than they do. -/
theorem le_ofDigitChars (digits : List Char) (taken : Nat) : taken ≤ Nat.ofDigitChars 10 digits taken := by
  induction digits generalizing taken with
  | nil => exact Nat.le_refl taken
  | cons digit digits ih =>
    rw [Nat.ofDigitChars_cons]
    exact Nat.le_trans (by omega) (ih _)

end Nat

/-! ## Texts -/

namespace String

/-- A text has no more characters than bytes. -/
theorem length_toList_le (text : String) : text.toList.length ≤ text.utf8ByteSize := by
  induction text using String.push_induction with
  | empty => decide
  | push text c ih =>
    have hpos := c.utf8Size_pos
    rw [String.toList_push, List.length_append, String.utf8ByteSize_push, List.length_singleton]
    omega

theorem utf8ByteSize_ofList_concat (before : List Char) (c : Char) :
    (String.ofList (before ++ [c])).utf8ByteSize = (String.ofList before).utf8ByteSize + c.utf8Size := by
  rw [String.ofList_append, String.utf8ByteSize_append, ← String.singleton_eq_ofList, String.utf8ByteSize_singleton]

section Pieces

variable {separator : String} {mark : Char}

/-- Where no separator can begin any more, the rest of the text is one piece. -/
theorem splitOnAux_eq_singleton (hseparator : separator.toList.head? = some mark) {back : List Char}
    (hback : mark ∉ back) : ∀ front : List Char,
    (String.ofList (front ++ back)).splitOnAux separator 0 ⟨String.utf8Len front⟩ 0 []
      = [String.ofList (front ++ back)] := by
  have hmark : String.Pos.Raw.get separator 0 = mark := by
    have hget := String.get_of_valid [] separator.toList
    rw [List.nil_append, String.ofList_toList, List.headD_eq_head?_getD, hseparator] at hget
    exact hget
  induction back with
  | nil =>
    intro front
    have hwhole := String.extract_of_valid [] front []
    rw [String.splitOnAux, if_pos ((String.atEnd_of_valid front []).2 rfl)]
    simpa using hwhole
  | cons c back ih =>
    intro front
    obtain ⟨hne, hback⟩ := not_or.1 (List.mem_cons.not.1 hback)
    have hend : ¬ String.Pos.Raw.atEnd (String.ofList (front ++ c :: back)) ⟨String.utf8Len front⟩ = true := by
      rw [String.atEnd_of_valid]
      exact List.cons_ne_nil c back
    have hnext := ih hback (front ++ [c])
    rw [String.utf8Len_append, List.append_assoc, List.singleton_append] at hnext
    rw [String.splitOnAux, if_neg hend, String.get_of_valid, hmark, if_neg (by simpa using fun h => hne h.symm)]
    show String.splitOnAux _ separator 0 (String.Pos.Raw.next _ ⟨String.utf8Len front⟩) 0 [] = _
    rw [String.next_of_valid]
    simpa using hnext

/-- A text is in one piece if the character with which each separator begins is not in it. -/
theorem splitOn_eq_singleton {text : String} (hseparator : separator.toList.head? = some mark)
    (htext : mark ∉ text.toList) : text.splitOn separator = [text] := by
  have hnone : ¬ (separator == "") = true := by
    intro h
    rw [beq_iff_eq.1 h] at hseparator
    cases hseparator
  have hpieces := splitOnAux_eq_singleton hseparator htext []
  rw [List.nil_append, String.ofList_toList] at hpieces
  rw [String.splitOn, if_neg hnone]
  exact hpieces

end Pieces

end String
