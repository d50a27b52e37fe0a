import StyleTree.Proofs.SExp.Read

/-!
# `Proofs.SExp.Marks` — an expression listed from left to right

An expression is listed mark by mark: where each list begins, where it ends, and each atom with its place. The tokens
that spell an expression are those that bear its marks, one token for each (`spelledAll_iff_marks`). The place of a
closing parenthesis and the readings of both parentheses are the only things that tokens know and marks do not.
-/

namespace StyleTree

/-! ## Marks -/

/-- One step through an expression from left to right. -/
inductive Mark where
  /-- A list begins at this place. -/
  | opening (pos : Position)
  /-- The innermost list ends. -/
  | closing
  /-- An atom stands at this place. -/
  | atom (atom : Atom) (pos : Position)
deriving DecidableEq, Repr

namespace Token

variable {token : Token} {pos : Position}

/-- The mark that a token bears. The end mark of a text bears none. -/
def mark? (token : Token) : Option Mark :=
  match token.kind with
  | .openParen => some (.opening token.pos)
  | .closeParen => some .closing
  | _ => token.atom?.map (.atom · token.pos)

theorem mark?_eq_opening : token.mark? = some (.opening pos) ↔ token.kind = .openParen ∧ token.pos = pos := by
  cases hkind : token.kind <;> simp [mark?, atom?, hkind]

theorem mark?_eq_closing : token.mark? = some .closing ↔ token.kind = .closeParen := by
  cases hkind : token.kind <;> simp [mark?, atom?, hkind]

/-- What an atom is and where it stands can be read off its mark. -/
theorem mark?_eq_atom {a : Atom} : token.mark? = some (.atom a pos) ↔ token.atom? = some a ∧ token.pos = pos := by
  cases hkind : token.kind <;> simp [mark?, atom?, hkind]

/-- A token that bears a mark is not the end mark. -/
theorem kind_ne_of_mark? {mark : Mark} (h : token.mark? = some mark) : token.kind ≠ .endOfInput := by
  intro hkind
  simp [mark?, atom?, hkind] at h

end Token

namespace SExp

mutual

/-- The marks of an expression, from left to right. -/
def marks : SExp → List Mark
  | .atom a pos => [.atom a pos]
  | .list elements pos => .opening pos :: (marksAll elements ++ [.closing])

/-- The marks of several expressions, one expression after the other. -/
def marksAll : List SExp → List Mark
  | [] => []
  | e :: es => e.marks ++ marksAll es

end

theorem marksAll_eq_flatMap (es : List SExp) : marksAll es = es.flatMap marks := by
  induction es with
  | nil => rfl
  | cons e es ih => rw [marksAll, ih, List.flatMap_cons]

/-! ## Spelled by marks -/

mutual

/-- The tokens that spell an expression bear its marks. -/
theorem marks_of_spelled : ∀ {e : SExp} {tokens : List Token}, e.Spelled tokens →
    tokens.map Token.mark? = e.marks.map some
  | .atom a pos, _, ⟨token, rfl, hatom, hpos⟩ => by
    rw [marks, List.map_singleton, List.map_singleton, Token.mark?_eq_atom.2 ⟨hatom, hpos⟩]
  | .list elements pos, _, ⟨opening, closing, inner, rfl, hopening, hpos, hclosing, helements⟩ => by
    have hinner := marks_of_spelledAll helements
    simp [marks, Token.mark?_eq_opening.2 ⟨hopening, hpos⟩, Token.mark?_eq_closing.2 hclosing, hinner]

/-- The tokens that spell expressions in a row bear the marks of one after the other. -/
theorem marks_of_spelledAll : ∀ {es : List SExp} {tokens : List Token}, SpelledAll es tokens →
    tokens.map Token.mark? = (marksAll es).map some
  | [], _, h => by
    rw [SpelledAll] at h
    rw [h]
    rfl
  | e :: es, _, ⟨first, others, rfl, hfirst, hothers⟩ => by
    rw [marksAll, List.map_append, List.map_append, marks_of_spelled hfirst, marks_of_spelledAll hothers]

end

mutual

/-- The marks are enough: tokens that bear the marks of an expression spell it. By recursion on the expression, whose
    constructor says how the tokens are to be cut. -/
theorem spelled_of_marks : ∀ {e : SExp} {tokens : List Token}, tokens.map Token.mark? = e.marks.map some →
    e.Spelled tokens
  | .atom a pos, tokens, h => by
    obtain ⟨token, rfl, htoken⟩ := List.map_eq_singleton_iff.1 h
    obtain ⟨hatom, hpos⟩ := Token.mark?_eq_atom.1 htoken
    exact ⟨token, rfl, hatom, hpos⟩
  | .list elements pos, tokens, h => by
    rw [marks, List.map_cons, List.map_append] at h
    obtain ⟨opening, behind, rfl, hopening, hbehind⟩ := List.map_eq_cons_iff.1 h
    obtain ⟨inner, last, rfl, hinner, hlast⟩ := List.map_eq_append_iff.1 hbehind
    obtain ⟨closing, rfl, hclosing⟩ := List.map_eq_singleton_iff.1 hlast
    obtain ⟨hkind, hpos⟩ := Token.mark?_eq_opening.1 hopening
    exact ⟨opening, closing, inner, rfl, hkind, hpos, Token.mark?_eq_closing.1 hclosing, spelledAll_of_marks hinner⟩

/-- Tokens that bear the marks of expressions in a row spell them in a row. -/
theorem spelledAll_of_marks : ∀ {es : List SExp} {tokens : List Token},
    tokens.map Token.mark? = (marksAll es).map some → SpelledAll es tokens
  | [], tokens, h => by
    rw [SpelledAll]
    exact List.map_eq_nil_iff.1 h
  | e :: es, tokens, h => by
    rw [marksAll, List.map_append] at h
    obtain ⟨first, others, rfl, hfirst, hothers⟩ := List.map_eq_append_iff.1 h
    exact ⟨first, others, rfl, spelled_of_marks hfirst, spelledAll_of_marks hothers⟩

end

/-- **Expressions in a row are spelled by the tokens that bear their marks.** -/
theorem spelledAll_iff_marks {es : List SExp} {tokens : List Token} :
    SpelledAll es tokens ↔ tokens.map Token.mark? = (es.flatMap marks).map some := by
  rw [← marksAll_eq_flatMap]
  exact ⟨marks_of_spelledAll, spelledAll_of_marks⟩

/-- An expression is spelled by one token at least. -/
theorem ne_nil_of_spelled {e : SExp} {tokens : List Token} (h : e.Spelled tokens) : tokens ≠ [] := by
  cases e with
  | atom a pos =>
    obtain ⟨token, rfl, -⟩ := h
    exact List.cons_ne_nil token []
  | list elements pos =>
    obtain ⟨opening, closing, inner, rfl, -⟩ := h
    exact List.cons_ne_nil opening _

/-- No end mark is part of an expression. -/
theorem kind_ne_of_spelled {e : SExp} {tokens : List Token} (h : e.Spelled tokens) :
    ∀ token ∈ tokens, token.kind ≠ .endOfInput := by
  intro token htoken
  have hmark : token.mark? ∈ e.marks.map some := by
    rw [← marks_of_spelled h]
    exact List.mem_map_of_mem htoken
  obtain ⟨mark, -, hsome⟩ := List.mem_map.1 hmark
  exact Token.kind_ne_of_mark? hsome.symm

end SExp

end StyleTree
