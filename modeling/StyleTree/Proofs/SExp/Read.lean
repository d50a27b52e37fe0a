import StyleTree.SExp.Read

/-!
# `Proofs.SExp.Read` — reading undoes spelling out

An expression is spelled by a stretch of tokens: an atom by one token, a list by its elements between two
parentheses (`SExp.Spelled`). A reading takes such a stretch off the tokens and returns the expression, whatever stands
behind (`read_of_spelled`).

Nothing else is ever read (`spelled_of_read`). While a reading is under way, the open lists say what has been taken so
far, and that is the invariant of its steps (`StackSpelled`).
-/

namespace StyleTree

/-! ## Stretches of tokens -/

/-- The atom that a token is, if it is one. -/
def Token.atom? (token : Token) : Option Atom :=
  match token.kind with
  | .symbol => some (.symbol token.lexeme)
  | .keyword => some (.keyword token.lexeme)
  | .string => some (.string token.lexeme)
  | .number => some (.number token.lexeme)
  | .nil => some .nil
  | .openParen | .closeParen | .endOfInput => none

namespace SExp

mutual

/-- Whether the tokens spell the expression where it stands. -/
def Spelled : SExp → List Token → Prop
  | .atom a pos, tokens => ∃ token : Token, tokens = [token] ∧ token.atom? = some a ∧ token.pos = pos
  | .list elements pos, tokens =>
    ∃ (opening closing : Token) (inner : List Token), tokens = opening :: (inner ++ [closing]) ∧
      opening.kind = .openParen ∧ opening.pos = pos ∧ closing.kind = .closeParen ∧ SpelledAll elements inner

/-- Whether the tokens spell the expressions one after the other. -/
def SpelledAll : List SExp → List Token → Prop
  | [], tokens => tokens = []
  | e :: es, tokens => ∃ first others, tokens = first ++ others ∧ e.Spelled first ∧ SpelledAll es others

end

theorem spelledAll_append {es fs : List SExp} {tokens more : List Token} (hes : SpelledAll es tokens)
    (hfs : SpelledAll fs more) : SpelledAll (es ++ fs) (tokens ++ more) := by
  induction es generalizing tokens with
  | nil =>
    rw [SpelledAll] at hes
    rwa [hes]
  | cons e es ih =>
    obtain ⟨first, others, rfl, hfirst, hothers⟩ := hes
    exact ⟨first, others ++ more, List.append_assoc .., hfirst, ih hothers⟩

theorem spelledAll_singleton {e : SExp} {tokens : List Token} (h : e.Spelled tokens) : SpelledAll [e] tokens :=
  ⟨tokens, [], (List.append_nil tokens).symm, h, rfl⟩

/-! ## Spelled expressions are read -/

/-- The token of an atom delivers the atom to the innermost open list. -/
theorem ofToken_of_atom {token : Token} {a : Atom} (h : token.atom? = some a) (stack : List OpenList) :
    ReadStep.ofToken stack token = ReadStep.deliver (.atom a token.pos) stack := by
  unfold Token.atom? at h
  unfold ReadStep.ofToken
  cases hkind : token.kind <;> simp_all

/-- Goes on with a complete expression: the innermost open list takes it, or it is the result. -/
def resume (e : SExp) (stack : List OpenList) (rest : List Token) : Except ReadError SExp × List Token :=
  match stack with
  | [] => (.ok e, rest)
  | innermost :: outer => readInside (innermost.push e :: outer) rest

/-- A token that delivers an expression lets the reading resume with it. -/
theorem readInside_of_deliver {token : Token} {e : SExp} {stack outer : List OpenList}
    (h : ReadStep.ofToken stack token = ReadStep.deliver e outer) (rest : List Token) :
    readInside stack (token :: rest) = resume e outer rest := by
  rw [readInside, h]
  cases outer <;> rfl

mutual

/-- **An expression is read off the tokens that spell it**, inside any open lists. -/
theorem readInside_of_spelled : ∀ {e : SExp} {tokens : List Token}, e.Spelled tokens →
    ∀ (stack : List OpenList) (rest : List Token), readInside stack (tokens ++ rest) = resume e stack rest
  | .atom a pos, _, ⟨token, rfl, hatom, hpos⟩, stack, rest => by
    subst hpos
    exact readInside_of_deliver (ofToken_of_atom hatom stack) rest
  | .list elements pos, _, ⟨opening, closing, inner, rfl, hopening, hpos, hclosing, helements⟩, stack, rest => by
    subst hpos
    have hopen : ReadStep.ofToken stack opening = .inside (⟨opening.pos, []⟩ :: stack) := by
      simp [ReadStep.ofToken, hopening]
    have hclose : ReadStep.ofToken (⟨opening.pos, elements.reverse⟩ :: stack) closing
        = ReadStep.deliver (.list elements opening.pos) stack := by
      simp [ReadStep.ofToken, hclosing, OpenList.close]
    -- The list is opened, its elements fill it in reverse, and closing it turns them round again.
    rw [List.cons_append, List.append_assoc, readInside, hopen]
    show readInside (⟨opening.pos, []⟩ :: stack) (inner ++ ([closing] ++ rest)) = _
    rw [readInside_of_spelledAll helements, List.append_nil]
    exact readInside_of_deliver hclose rest

/-- The elements of a list are read into the innermost open list, where they stand the last one first. -/
theorem readInside_of_spelledAll : ∀ {es : List SExp} {tokens : List Token}, SpelledAll es tokens →
    ∀ (l : OpenList) (outer : List OpenList) (rest : List Token),
      readInside (l :: outer) (tokens ++ rest) = readInside (⟨l.pos, es.reverse ++ l.reversed⟩ :: outer) rest
  | [], _, h, l, outer, rest => by
    rw [SpelledAll] at h
    rw [h]
    rfl
  | e :: es, _, ⟨first, others, rfl, hfirst, hothers⟩, l, outer, rest => by
    rw [List.append_assoc, readInside_of_spelled hfirst]
    show readInside (l.push e :: outer) (others ++ rest) = _
    rw [readInside_of_spelledAll hothers, List.reverse_cons, List.append_assoc]
    rfl

end

/-- **An expression is read off the tokens that spell it, and the tokens behind them are left.** -/
theorem read_of_spelled {e : SExp} {tokens : List Token} (h : e.Spelled tokens) (rest : List Token) :
    read (tokens ++ rest) = (.ok e, rest) :=
  readInside_of_spelled h [] rest

/-! ## Read expressions were spelled -/

/-- Whether the tokens read so far are those of the open lists, innermost first. -/
def StackSpelled : List OpenList → List Token → Prop
  | [], tokens => tokens = []
  | innermost :: outer, tokens =>
    ∃ (before : List Token) (opening : Token) (inner : List Token), tokens = before ++ opening :: inner ∧
      StackSpelled outer before ∧ opening.kind = .openParen ∧ opening.pos = innermost.pos ∧
      SpelledAll innermost.reversed.reverse inner

/-- What is known after a step, given the tokens read so far. -/
def StepSpelled (read : List Token) : ReadStep → Prop
  | .inside stack => StackSpelled stack read
  | .complete e => e.Spelled read
  | .fail _ => True

/-- What has been taken spells the open lists before and after an expression is delivered to them. -/
theorem deliver_spelled {e : SExp} {stack : List OpenList} {read tokens : List Token} (hstack : StackSpelled stack read)
    (he : e.Spelled tokens) : StepSpelled (read ++ tokens) (ReadStep.deliver e stack) := by
  cases stack with
  | nil =>
    rw [StackSpelled] at hstack
    rwa [hstack]
  | cons innermost outer =>
    obtain ⟨before, opening, inner, rfl, hbefore, hopening, hpos, hinner⟩ := hstack
    refine ⟨before, opening, inner ++ tokens, by simp, hbefore, hopening, hpos, ?_⟩
    rw [OpenList.push, List.reverse_cons]
    exact spelledAll_append hinner (spelledAll_singleton he)

/-- **One token** keeps what the open lists say about the tokens read. -/
theorem step_spelled {stack : List OpenList} {read : List Token} (h : StackSpelled stack read) (token : Token) :
    StepSpelled (read ++ [token]) (ReadStep.ofToken stack token) := by
  cases hatom : token.atom? with
  | some a =>
    rw [ofToken_of_atom hatom]
    exact deliver_spelled h ⟨token, rfl, hatom, rfl⟩
  | none =>
    cases hkind : token.kind with
    | openParen =>
      simp only [ReadStep.ofToken, hkind]
      exact ⟨read, token, [], rfl, h, hkind, rfl, rfl⟩
    | closeParen =>
      simp only [ReadStep.ofToken, hkind]
      cases stack with
      | nil => trivial
      | cons innermost outer =>
        -- The tokens since the opening parenthesis are those of the list that is now complete.
        obtain ⟨before, opening, inner, rfl, hbefore, hopening, hpos, hinner⟩ := h
        rw [List.append_assoc]
        exact deliver_spelled hbefore ⟨opening, token, inner, rfl, hopening, hpos, hkind, hinner⟩
    | endOfInput =>
      simp only [ReadStep.ofToken, hkind]
      trivial
    | _ => simp [Token.atom?, hkind] at hatom

/-- A reading that succeeds has taken the tokens of its expression and no others. The invariant of the induction is
    that the open lists are spelled by what was taken so far. -/
theorem spelled_of_readInside {stack : List OpenList} {done tokens rest : List Token} {e : SExp}
    (hstack : StackSpelled stack done) (h : readInside stack tokens = (.ok e, rest)) :
    ∃ taken, tokens = taken ++ rest ∧ e.Spelled (done ++ taken) := by
  induction tokens generalizing stack done with
  | nil => cases h
  | cons token tokens ih =>
    have hstep := step_spelled hstack token
    rw [readInside] at h
    cases hofToken : ReadStep.ofToken stack token with
    | inside stack' =>
      rw [hofToken] at h hstep
      obtain ⟨taken, rfl, he⟩ := ih hstep h
      exact ⟨token :: taken, rfl, by rwa [List.append_assoc] at he⟩
    | complete e' =>
      rw [hofToken] at h hstep
      cases h
      exact ⟨[token], rfl, hstep⟩
    | fail error =>
      rw [hofToken] at h
      cases h

/-- **What a reading returns is spelled by the tokens it took.** -/
theorem spelled_of_read {tokens rest : List Token} {e : SExp} (h : read tokens = (.ok e, rest)) :
    ∃ taken, tokens = taken ++ rest ∧ e.Spelled taken := by
  have hstack : StackSpelled [] [] := by rw [StackSpelled]
  exact spelled_of_readInside hstack h

/-! ## Parts -/

mutual

/-- **Every part of an expression begins with a token of its stretch.** -/
theorem exists_token_of_mem : ∀ {e : SExp} {tokens : List Token}, e.Spelled tokens →
    ∀ {part : SExp}, part ∈ e.subexpressions → ∃ token ∈ tokens,
      (∃ elements, part = .list elements token.pos ∧ token.kind = .openParen) ∨
        ∃ a, part = .atom a token.pos ∧ token.atom? = some a
  | .atom a pos, _, ⟨token, rfl, hatom, hpos⟩, part, hpart => by
    rw [subexpressions, List.mem_singleton] at hpart
    subst hpos hpart
    exact ⟨token, List.mem_singleton_self _, .inr ⟨a, rfl, hatom⟩⟩
  | .list elements pos, _, ⟨opening, closing, inner, rfl, hopening, hpos, _, helements⟩, part, hpart => by
    subst hpos
    rw [subexpressions] at hpart
    rcases List.mem_cons.1 hpart with rfl | hpart
    · exact ⟨opening, List.mem_cons_self, .inl ⟨elements, rfl, hopening⟩⟩
    · obtain ⟨token, htoken, hbegins⟩ := exists_token_of_mem_all helements hpart
      exact ⟨token, by simp [htoken], hbegins⟩

theorem exists_token_of_mem_all : ∀ {es : List SExp} {tokens : List Token}, SpelledAll es tokens →
    ∀ {part : SExp}, part ∈ subexpressionsAll es → ∃ token ∈ tokens,
      (∃ elements, part = .list elements token.pos ∧ token.kind = .openParen) ∨
        ∃ a, part = .atom a token.pos ∧ token.atom? = some a
  | [], _, _, part, hpart => by
    rw [subexpressionsAll] at hpart
    cases hpart
  | e :: es, _, ⟨first, others, rfl, hfirst, hothers⟩, part, hpart => by
    rw [subexpressionsAll] at hpart
    rcases List.mem_append.1 hpart with hpart | hpart
    · obtain ⟨token, htoken, hbegins⟩ := exists_token_of_mem hfirst hpart
      exact ⟨token, List.mem_append_left _ htoken, hbegins⟩
    · obtain ⟨token, htoken, hbegins⟩ := exists_token_of_mem_all hothers hpart
      exact ⟨token, List.mem_append_right _ htoken, hbegins⟩

end

end SExp

end StyleTree
