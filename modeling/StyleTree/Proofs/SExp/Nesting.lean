import Mathlib.Algebra.Ring.Int.Defs
import StyleTree.Proofs.SExp.Blame
import StyleTree.Proofs.SExp.Marks

/-!
# `Proofs.SExp.Nesting` — counting parentheses

The reader keeps the open lists on a stack, but what becomes of a text can be told without one, by counting
parentheses. An expression that begins with a parenthesis ends where the count first comes back to zero; if it never
does, the list to blame is the last one from whose opening parenthesis on the count never comes back either.

The bridge is that the stack is as high as the count is, after every token, and that the tokens of whole expressions
let the count come back from each of their opening parentheses.

## Contents
- **Depth.** `Token.nesting`, with `Token.StaysInside` and `Token.Returns`, the two ways in which a count can go on.
- **Whole expressions.** `Token.Balanced`, what counting shows of the tokens of whole expressions, and
  `balanced_of_spelled`.
- **One token, all tokens.** `length_of_inside`, and `nesting_pos_of_unterminated`, the count where a list has no end.
- **Verdicts.** `SExp.Verdict`, what becomes of a token list, said by counting; `parse_eq_iff_verdict`.
-/

namespace StyleTree

namespace Token

/-! ## Depth -/

/-- How much deeper one is inside lists behind the token than before it. -/
def weight (token : Token) : Int :=
  match token.kind with
  | .openParen => 1
  | .closeParen => -1
  | _ => 0

/-- How many more parentheses open than close. -/
def nesting (tokens : List Token) : Int :=
  (tokens.map weight).sum

@[simp] theorem nesting_nil : nesting [] = 0 := rfl

@[simp] theorem nesting_cons (token : Token) (tokens : List Token) :
    nesting (token :: tokens) = token.weight + nesting tokens := by
  simp [nesting]

@[simp] theorem nesting_append (tokens more : List Token) : nesting (tokens ++ more) = nesting tokens + nesting more := by
  simp [nesting]

section Weights

variable {token : Token}

theorem weight_of_open (h : token.kind = .openParen) : token.weight = 1 := by
  simp [weight, h]

theorem weight_of_close (h : token.kind = .closeParen) : token.weight = -1 := by
  simp [weight, h]

theorem weight_of_atom {a : Atom} (h : token.atom? = some a) : token.weight = 0 := by
  unfold weight
  cases hkind : token.kind <;> simp [atom?, hkind] at h ⊢

theorem kind_of_weight_pos (h : 0 < token.weight) : token.kind = .openParen := by
  unfold weight at h
  split at h
  · assumption
  all_goals omega

end Weights

/-- Whether the count is never zero again, once it has begun. -/
def StaysInside (tokens : List Token) : Prop :=
  ∀ first, first <+: tokens → first ≠ [] → nesting first ≠ 0

/-- Whether the count comes back to zero at the end and no earlier. -/
def Returns (tokens : List Token) : Prop :=
  nesting tokens = 0 ∧ ∀ first, first <+: tokens → first ≠ [] → first ≠ tokens → nesting first ≠ 0

/-- A count that comes back does not stay inside. -/
theorem Returns.not_staysInside {taken rest tokens : List Token} (h : Returns taken) (hne : taken ≠ [])
    (htokens : tokens = taken ++ rest) : ¬StaysInside tokens := by
  intro hstays
  apply hstays taken _ hne h.1
  rw [htokens]
  exact List.prefix_append taken rest

/-- It comes back for the first time in one place only. -/
theorem Returns.unique {taken taken' rest rest' : List Token} (h : Returns taken) (h' : Returns taken')
    (hne : taken ≠ []) (hne' : taken' ≠ []) (happend : taken ++ rest = taken' ++ rest') :
    taken = taken' ∧ rest = rest' := by
  have hsame : taken = taken' := by
    by_contra hdiff
    have hprefix : taken <+: taken' ++ rest' := happend ▸ List.prefix_append taken rest
    rcases List.prefix_or_prefix_of_prefix hprefix (List.prefix_append taken' rest') with hshort | hlong
    · exact h'.2 taken hshort hne hdiff h.1
    · exact h.2 taken' hlong hne' (fun heq => hdiff heq.symm) h'.1
  rw [hsame] at happend
  exact ⟨hsame, List.append_cancel_left happend⟩

/-- What stays inside does so without the tokens behind it. -/
theorem StaysInside.of_append {tokens more : List Token} (h : StaysInside (tokens ++ more)) : StaysInside tokens :=
  fun first hfirst => h first (hfirst.trans (List.prefix_append tokens more))

/-- Whether every opening parenthesis has the one that closes it: from none of them on does the count stay inside. -/
def Matched (tokens : List Token) : Prop :=
  ∀ before opening after, tokens = before ++ opening :: after → opening.kind = .openParen →
    ¬StaysInside (opening :: after)

theorem matched_singleton {token : Token} (h : token.kind ≠ .openParen) : Matched [token] := by
  intro before opening after htokens hkind
  rcases List.cons_eq_append_iff.1 htokens with ⟨-, heq⟩ | ⟨others, -, heq⟩
  · cases heq
    exact absurd hkind h
  · simp at heq

theorem Matched.append {tokens more : List Token} (h : Matched tokens) (hmore : Matched more) :
    Matched (tokens ++ more) := by
  intro before opening after htokens hkind
  rcases List.append_eq_append_iff.1 htokens with ⟨others, rfl, hothers⟩ | ⟨others, hfirst, hothers⟩
  · exact hmore others opening after hothers hkind
  · rcases List.cons_eq_append_iff.1 hothers with ⟨rfl, hbehind⟩ | ⟨inner, rfl, rfl⟩
    · exact hmore [] opening after hbehind hkind
    · intro hstays
      exact h before opening inner hfirst hkind hstays.of_append

/-! ## Whole expressions -/

/-- What counting shows of tokens that are whole expressions: the count comes back to zero and is never below, and each
    opening parenthesis has the one that closes it. -/
structure Balanced (tokens : List Token) : Prop where
  returns : nesting tokens = 0
  nonneg : ∀ first, first <+: tokens → 0 ≤ nesting first
  matched : Matched tokens

theorem balanced_nil : Balanced [] where
  returns := rfl
  nonneg first hfirst := by
    rw [List.prefix_nil.1 hfirst]
    exact Int.le_of_eq nesting_nil.symm
  matched before opening after h := by simp at h

/-- An atom does not count. -/
theorem balanced_atom {token : Token} {a : Atom} (h : token.atom? = some a) : Balanced [token] where
  returns := by simp [weight_of_atom h]
  nonneg first hfirst := by
    rcases List.prefix_cons_iff.1 hfirst with rfl | ⟨others, rfl, hothers⟩
    · simp
    · rw [List.prefix_nil.1 hothers]
      simp [weight_of_atom h]
  matched := by
    apply matched_singleton
    intro hkind
    simp [atom?, hkind] at h

/-- What comes first in two lists is first in the one, or all of it and first in the other. -/
theorem prefix_append_cases {tokens more first : List Token} (h : first <+: tokens ++ more) :
    first <+: tokens ∨ ∃ others, others <+: more ∧ first = tokens ++ others := by
  rcases List.prefix_or_prefix_of_prefix h (List.prefix_append tokens more) with hshort | ⟨others, rfl⟩
  · exact .inl hshort
  · exact .inr ⟨others, (List.prefix_append_right_inj tokens).1 h, rfl⟩

theorem Balanced.append {tokens more : List Token} (h : Balanced tokens) (hmore : Balanced more) :
    Balanced (tokens ++ more) where
  returns := by rw [nesting_append, h.returns, hmore.returns, Int.add_zero]
  nonneg first hfirst := by
    rcases prefix_append_cases hfirst with hshort | ⟨others, hothers, rfl⟩
    · exact h.nonneg first hshort
    · rw [nesting_append, h.returns, Int.zero_add]
      exact hmore.nonneg others hothers
  matched := h.matched.append hmore.matched

section Enclosed

variable {opening closing : Token} {inner : List Token}

/-- Behind an opening parenthesis and whole expressions one is inside a list. -/
theorem nesting_pos_inside (hopening : opening.kind = .openParen) (h : Balanced inner) {first : List Token}
    (hfirst : first <+: opening :: inner) (hne : first ≠ []) : 0 < nesting first := by
  rcases List.prefix_cons_iff.1 hfirst with rfl | ⟨others, rfl, hothers⟩
  · exact absurd rfl hne
  · have hlevel := h.nonneg others hothers
    rw [nesting_cons, weight_of_open hopening]
    omega

theorem staysInside_of_balanced (hopening : opening.kind = .openParen) (h : Balanced inner) :
    StaysInside (opening :: inner) := by
  intro first hfirst hne
  have hpos := nesting_pos_inside hopening h hfirst hne
  omega

/-- What comes first in a list is the whole list, or inside it. -/
theorem nesting_pos_enclosed (hopening : opening.kind = .openParen) (h : Balanced inner) {first : List Token}
    (hfirst : first <+: opening :: (inner ++ [closing])) (hne : first ≠ [])
    (hshort : first ≠ opening :: (inner ++ [closing])) : 0 < nesting first := by
  rw [← List.cons_append] at hfirst hshort
  rcases prefix_append_cases hfirst with hinside | ⟨last, hlast, rfl⟩
  · exact nesting_pos_inside hopening h hinside hne
  · rcases List.prefix_cons_iff.1 hlast with rfl | ⟨others, rfl, hothers⟩
    · rw [List.append_nil]
      exact nesting_pos_inside hopening h List.prefix_rfl (List.cons_ne_nil _ _)
    · rw [List.prefix_nil.1 hothers] at hshort
      exact absurd rfl hshort

variable (hopening : opening.kind = .openParen) (hclosing : closing.kind = .closeParen) (h : Balanced inner)

include hopening hclosing h

theorem nesting_enclosed : nesting (opening :: (inner ++ [closing])) = 0 := by
  simp [weight_of_open hopening, weight_of_close hclosing, h.returns]

/-- **The count over a list comes back at its closing parenthesis.** -/
theorem returns_enclosed : Returns (opening :: (inner ++ [closing])) := by
  refine ⟨nesting_enclosed hopening hclosing h, ?_⟩
  intro first hfirst hne hshort
  have hpos := nesting_pos_enclosed hopening h hfirst hne hshort
  omega

theorem balanced_enclosed : Balanced (opening :: (inner ++ [closing])) where
  returns := nesting_enclosed hopening hclosing h
  nonneg first hfirst := by
    by_cases hne : first = []
    · simp [hne]
    by_cases hwhole : first = opening :: (inner ++ [closing])
    · rw [hwhole]
      exact Int.le_of_eq (nesting_enclosed hopening hclosing h).symm
    · exact Int.le_of_lt (nesting_pos_enclosed hopening h hfirst hne hwhole)
  matched := by
    have hinner : Matched (inner ++ [closing]) := h.matched.append (matched_singleton (by simp [hclosing]))
    intro before first after htokens hkind
    rcases List.cons_eq_append_iff.1 htokens with ⟨-, heq⟩ | ⟨others, -, hothers⟩
    · -- The first parenthesis is closed by the last one.
      cases heq
      intro hstays
      exact hstays _ List.prefix_rfl (List.cons_ne_nil _ _) (nesting_enclosed hopening hclosing h)
    · exact hinner others first after hothers hkind

end Enclosed

end Token

namespace SExp

mutual

/-- **The tokens of whole expressions are balanced.** -/
theorem balanced_of_spelled : ∀ {e : SExp} {tokens : List Token}, e.Spelled tokens → Token.Balanced tokens
  | .atom _ _, _, ⟨_, rfl, hatom, _⟩ => Token.balanced_atom hatom
  | .list _ _, _, ⟨_, _, _, rfl, hopening, _, hclosing, helements⟩ =>
    Token.balanced_enclosed hopening hclosing (balanced_of_spelledAll helements)

theorem balanced_of_spelledAll : ∀ {es : List SExp} {tokens : List Token}, SpelledAll es tokens →
    Token.Balanced tokens
  | [], _, h => by
    rw [SpelledAll] at h
    rw [h]
    exact Token.balanced_nil
  | _ :: _, _, ⟨_, _, rfl, hfirst, hothers⟩ => (balanced_of_spelled hfirst).append (balanced_of_spelledAll hothers)

end

/-! ## One token, all tokens -/

/-- **One token** makes the stack as much higher as it counts, and the reading goes on inside a list. -/
theorem length_of_inside {stack stack' : List OpenList} {token : Token}
    (h : ReadStep.ofToken stack token = .inside stack') :
    (stack'.length : Int) = stack.length + token.weight ∧ 0 < stack'.length := by
  have hdeliver : ∀ {e : SExp} {outer : List OpenList}, ReadStep.deliver e outer = .inside stack' →
      stack'.length = outer.length ∧ 0 < stack'.length := by
    intro e outer houter
    cases outer with
    | nil => simp [ReadStep.deliver] at houter
    | cons innermost outer =>
      cases houter
      simp
  cases hatom : token.atom? with
  | some a =>
    rw [ofToken_of_atom hatom] at h
    have hlength := hdeliver h
    rw [Token.weight_of_atom hatom]
    omega
  | none =>
    cases hkind : token.kind with
    | openParen =>
      simp only [ReadStep.ofToken, hkind] at h
      cases h
      simp [Token.weight_of_open hkind]
    | closeParen =>
      simp only [ReadStep.ofToken, hkind] at h
      cases stack with
      | nil => simp at h
      | cons innermost outer =>
        have hlength := hdeliver h
        rw [Token.weight_of_close hkind, List.length_cons]
        omega
    | endOfInput => simp [ReadStep.ofToken, hkind] at h
    | _ => simp [Token.atom?, hkind] at hatom

/-- No token but the end mark leaves a list without an end. -/
theorem ofToken_ne_unterminated {stack : List OpenList} {token : Token} {pos : Position}
    (h : ReadStep.ofToken stack token = .fail (.unterminatedList pos)) : token.kind = .endOfInput := by
  cases hatom : token.atom? with
  | some a =>
    rw [ofToken_of_atom hatom] at h
    exact absurd h deliver_ne_fail
  | none =>
    cases hkind : token.kind with
    | openParen => simp [ReadStep.ofToken, hkind] at h
    | closeParen =>
      simp only [ReadStep.ofToken, hkind] at h
      cases stack with
      | nil => cases h
      | cons innermost outer => exact absurd h deliver_ne_fail
    | endOfInput => rfl
    | _ => simp [Token.atom?, hkind] at hatom

/-- **A reading that finds no end** is inside a list after every token. -/
theorem nesting_pos_of_unterminated {stack : List OpenList} {own : List Token} {eof pos : Position}
    (hown : ∀ token ∈ own, token.kind ≠ .endOfInput)
    (h : (readInside stack (own ++ [Token.endOfInput eof])).1 = .error (.unterminatedList pos)) :
    ∀ first, first <+: own → first ≠ [] → 0 < stack.length + Token.nesting first := by
  induction own generalizing stack with
  | nil =>
    intro first hfirst hne
    exact absurd (List.prefix_nil.1 hfirst) hne
  | cons token own ih =>
    intro first hfirst hne
    rcases List.prefix_cons_iff.1 hfirst with rfl | ⟨others, rfl, hothers⟩
    · exact absurd rfl hne
    rw [List.cons_append, readInside] at h
    cases hofToken : ReadStep.ofToken stack token with
    | inside stack' =>
      rw [hofToken] at h
      have hlength := length_of_inside hofToken
      rw [Token.nesting_cons]
      by_cases hlast : others = []
      · rw [hlast, Token.nesting_nil]
        omega
      · have hlater := ih (fun t ht => hown t (List.mem_cons_of_mem _ ht)) h others hothers hlast
        omega
    | complete e =>
      rw [hofToken] at h
      cases h
    | fail error =>
      rw [hofToken] at h
      cases h
      exact absurd (ofToken_ne_unterminated hofToken) (hown token List.mem_cons_self)

/-! ## Verdicts -/

/-- Whether the list that begins at the token is the last one that is left open: its opening parenthesis has none that
    closes it, and every later one does. -/
def LastOpen (tokens : List Token) (opening : Token) : Prop :=
  ∃ before after, tokens = before ++ opening :: after ∧ opening.kind = .openParen ∧
    Token.StaysInside (opening :: after) ∧ Token.Matched after

/-- What becomes of a text with the given tokens, its end mark left out. A lone atom is an expression, and so are the
    tokens from an opening parenthesis to the place where the count comes back to zero; anything behind is refused. -/
inductive Verdict (tokens : List Token) : Except ReadError SExp → Prop
  /-- There are no tokens. -/
  | empty : tokens = [] → Verdict tokens (.error .emptyInput)
  /-- A closing parenthesis comes first. -/
  | close {first : Token} {rest : List Token} : tokens = first :: rest → first.kind = .closeParen →
      Verdict tokens (.error (.unexpectedCloseParen first.pos))
  /-- There is one atom. -/
  | atom {first : Token} {a : Atom} : tokens = [first] → first.atom? = some a → Verdict tokens (.ok (.atom a first.pos))
  /-- Something stands behind an atom. -/
  | behindAtom {first next : Token} {a : Atom} {rest : List Token} : tokens = first :: next :: rest →
      first.atom? = some a → Verdict tokens (.error (.unexpectedToken next.lexeme next.pos))
  /-- The count never comes back to zero. -/
  | unclosed {first opening : Token} {rest : List Token} : tokens = first :: rest → first.kind = .openParen →
      Token.StaysInside tokens → LastOpen tokens opening → Verdict tokens (.error (.unterminatedList opening.pos))
  /-- Something stands behind the place where the count comes back. -/
  | behindList {first next : Token} {inner rest : List Token} : tokens = first :: (inner ++ next :: rest) →
      first.kind = .openParen → Token.Returns (first :: inner) →
      Verdict tokens (.error (.unexpectedToken next.lexeme next.pos))
  /-- The count comes back at the last token, and the tokens bear the marks of the expression. -/
  | list {first : Token} {rest : List Token} {e : SExp} : tokens = first :: rest → first.kind = .openParen →
      Token.Returns tokens → tokens.map Token.mark? = e.marks.map some → Verdict tokens (.ok e)

/-- The last open list is the last. -/
theorem LastOpen.unique {tokens : List Token} {opening opening' : Token} (h : LastOpen tokens opening)
    (h' : LastOpen tokens opening') : opening = opening' := by
  obtain ⟨before, after, htokens, hkind, hstays, hmatched⟩ := h
  obtain ⟨before', after', htokens', hkind', hstays', hmatched'⟩ := h'
  rcases List.append_eq_append_iff.1 (htokens.symm.trans htokens') with ⟨between, -, heq⟩ | ⟨between, -, heq⟩
  · rcases List.cons_eq_append_iff.1 heq with ⟨-, hsame⟩ | ⟨inner, -, hafter⟩
    · exact (List.cons.inj hsame).1.symm
    · exact absurd hstays' (hmatched inner opening' after' hafter hkind')
  · rcases List.cons_eq_append_iff.1 heq with ⟨-, hsame⟩ | ⟨inner, -, hafter⟩
    · exact (List.cons.inj hsame).1
    · exact absurd hstays (hmatched' inner opening after hafter hkind)

/-- Tokens bear the marks of one expression only. -/
theorem eq_of_marks {tokens : List Token} {e e' : SExp} (h : tokens.map Token.mark? = e.marks.map some)
    (h' : tokens.map Token.mark? = e'.marks.map some) : e = e' := by
  have hread := read_of_spelled (spelled_of_marks h) []
  rw [read_of_spelled (spelled_of_marks h')] at hread
  exact (Except.ok.inj (congrArg Prod.fst hread)).symm

/-- **There is one verdict.** -/
theorem Verdict.unique {tokens : List Token} {result result' : Except ReadError SExp} (h : Verdict tokens result)
    (h' : Verdict tokens result') : result = result' := by
  have hall : tokens = tokens ++ [] := (List.append_nil tokens).symm
  -- What the first token is tells most of them apart; the others by where the count comes back.
  cases h with
  | empty htokens => cases h' <;> simp_all
  | close htokens hkind => cases h' <;> simp_all [Token.atom?]
  | atom htokens hatom => cases h' <;> simp_all [Token.atom?]
  | behindAtom htokens hatom => cases h' <;> simp_all [Token.atom?]
  | unclosed htokens hkind hstays hlast =>
    cases h' with
    | unclosed _ _ _ hlast' => rw [hlast.unique hlast']
    | behindList htokens' _ hreturns' => exact absurd hstays (hreturns'.not_staysInside (by simp) htokens')
    | list htokens' _ hreturns' _ => exact absurd hstays (hreturns'.not_staysInside (by simp [htokens']) hall)
    | _ => simp_all [Token.atom?]
  | behindList htokens hkind hreturns =>
    cases h' with
    | unclosed _ _ hstays' _ => exact absurd hstays' (hreturns.not_staysInside (by simp) htokens)
    | behindList htokens' _ hreturns' =>
      obtain ⟨-, hrest⟩ := hreturns.unique hreturns' (by simp) (by simp) (htokens.symm.trans htokens')
      cases hrest
      rfl
    | list htokens' _ hreturns' _ =>
      obtain ⟨-, hrest⟩ := hreturns.unique hreturns' (by simp) (by simp [htokens']) (htokens.symm.trans hall)
      cases hrest
    | _ => simp_all [Token.atom?]
  | list htokens hkind hreturns hmarks =>
    cases h' with
    | unclosed _ _ hstays' _ => exact absurd hstays' (hreturns.not_staysInside (by simp [htokens]) hall)
    | behindList htokens' _ hreturns' =>
      obtain ⟨-, hrest⟩ := hreturns'.unique hreturns (by simp) (by simp [htokens]) (htokens'.symm.trans hall)
      cases hrest
    | list _ _ _ hmarks' => rw [eq_of_marks hmarks hmarks']
    | _ => simp_all [Token.atom?]

theorem expectEnd_of_kind_ne {token : Token} (h : token.kind ≠ .endOfInput) (tokens : List Token) :
    expectEnd (token :: tokens) = .error (.unexpectedToken token.lexeme token.pos) :=
  if_neg h

/-- **A complete expression is the verdict**, or what stands behind it is. -/
theorem verdict_of_spelled {taken rest : List Token} {e : SExp} (h : e.Spelled taken)
    (hrest : ∀ token ∈ rest, token.kind ≠ .endOfInput) (eof : Position) :
    Verdict (taken ++ rest) ((expectEnd (rest ++ [Token.endOfInput eof])).map fun _ => e) := by
  cases e with
  | atom a pos =>
    obtain ⟨token, rfl, hatom, rfl⟩ := h
    cases rest with
    | nil => exact .atom rfl hatom
    | cons next rest =>
      show Verdict _ ((expectEnd (next :: (rest ++ [Token.endOfInput eof]))).map _)
      rw [expectEnd_of_kind_ne (hrest next List.mem_cons_self)]
      exact .behindAtom rfl hatom
  | list elements pos =>
    have hmarks := marks_of_spelled h
    obtain ⟨opening, closing, inner, rfl, hopening, hpos, hclosing, helements⟩ := h
    have hreturns := Token.returns_enclosed hopening hclosing (balanced_of_spelledAll helements)
    cases rest with
    | nil =>
      rw [List.append_nil]
      exact .list rfl hopening hreturns hmarks
    | cons next rest =>
      show Verdict _ ((expectEnd (next :: (rest ++ [Token.endOfInput eof]))).map _)
      rw [expectEnd_of_kind_ne (hrest next List.mem_cons_self)]
      exact .behindList rfl hopening hreturns

/-- **A failed reading is the verdict.** -/
theorem verdict_of_stuck {own left : List Token} {eof : Position} {error : ReadError}
    (hown : ∀ token ∈ own, token.kind ≠ .endOfInput)
    (h : read (own ++ [Token.endOfInput eof]) = (.error error, left)) : Verdict own (.error error) := by
  have hstack : StackSpelled [] [] := by rw [StackSpelled]
  obtain ⟨taken, more, htaken, hstuck⟩ := stuck_of_readInside hstack hown h
  rw [List.nil_append] at hstuck
  cases hstuck with
  | close hkind => exact .close htaken hkind
  | empty => exact .empty htaken
  | @unclosed before inner opening es hkind hinner =>
    rw [List.append_nil] at htaken
    have hinside := nesting_pos_of_unterminated hown (congrArg Prod.fst h)
    have hstays : Token.StaysInside own := by
      intro first hfirst hne
      have hpos := hinside first hfirst hne
      rw [List.length_nil] at hpos
      omega
    obtain ⟨first, rest, rfl⟩ : ∃ first rest, own = first :: rest := by
      cases before <;> exact ⟨_, _, htaken⟩
    have hfirst : first.kind = .openParen := by
      have hpos := hinside [first] (by simp) (by simp)
      apply Token.kind_of_weight_pos
      simpa using hpos
    have hbalanced := balanced_of_spelledAll hinner
    exact .unclosed rfl hfirst hstays
      ⟨before, inner, htaken, hkind, Token.staysInside_of_balanced hkind hbalanced, hbalanced.matched⟩

/-- The end mark is not part of a complete expression. -/
theorem exists_rest_of_spelled {own taken left : List Token} {eof : Position} {e : SExp}
    (h : own ++ [Token.endOfInput eof] = taken ++ left) (he : e.Spelled taken) :
    ∃ rest, own = taken ++ rest ∧ left = rest ++ [Token.endOfInput eof] := by
  rcases List.eq_nil_or_concat left with rfl | ⟨rest, last, rfl⟩
  · have hmem : Token.endOfInput eof ∈ taken := by
      rw [← List.append_nil taken, ← h]
      simp
    exact absurd rfl (kind_ne_of_spelled he _ hmem)
  · rw [List.concat_eq_append, ← List.append_assoc] at h
    obtain ⟨hown, hlast⟩ := List.append_inj' h rfl
    rw [List.concat_eq_append, ← hlast]
    exact ⟨rest, hown, rfl⟩

/-- What becomes of a text is told by its tokens. -/
theorem verdict_of_scan {text : String} {own : List Token} {eof : Position}
    (hscan : Token.scan text = .ok (own ++ [Token.endOfInput eof])) (hown : ∀ token ∈ own, token.kind ≠ .endOfInput) :
    Verdict own (parse text) := by
  rw [parse, hscan]
  dsimp only
  rcases hread : read (own ++ [Token.endOfInput eof]) with ⟨result, left⟩
  cases result with
  | error error => exact verdict_of_stuck hown hread
  | ok e =>
    obtain ⟨taken, htokens, hspelled⟩ := spelled_of_read hread
    obtain ⟨rest, rfl, rfl⟩ := exists_rest_of_spelled htokens hspelled
    have hrest : ∀ token ∈ rest, token.kind ≠ .endOfInput := fun token htoken =>
      hown token (List.mem_append_right taken htoken)
    have hverdict := verdict_of_spelled hspelled hrest eof
    dsimp only
    cases hend : expectEnd (rest ++ [Token.endOfInput eof]) <;> rw [hend] at hverdict <;> exact hverdict

/-- **A text is one expression, or is refused for what counting parentheses shows**, and there is no other outcome: the
    verdict on the tokens before the end mark is what becomes of the text. -/
theorem parse_eq_iff_verdict {text : String} {tokens : List Token} (h : Token.scan text = .ok tokens)
    (result : Except ReadError SExp) :
    parse text = result ↔ Verdict (tokens.filter fun token => token.kind ≠ .endOfInput) result := by
  obtain ⟨words, last, own, hdivides, rfl⟩ := divides_of_scan h
  have hown := hdivides.kind_ne
  have hfilter : (own ++ [Token.endOfInput (.after text.toList)]).filter (fun token => token.kind ≠ .endOfInput)
      = own := by
    rw [List.filter_append, List.filter_eq_self.2 fun token htoken => decide_eq_true (hown token htoken)]
    exact List.append_nil own
  have hverdict := verdict_of_scan h hown
  rw [hfilter]
  constructor
  · rintro rfl
    exact hverdict
  · exact hverdict.unique

/-- The tokens of a list that is left open around another one that is left open, with closed ones between and behind
    their opening parentheses. -/
def leftOpenTokens : List Token :=
  [⟨.openParen, "(", ⟨0, 1, 1⟩⟩, ⟨.symbol, "a", ⟨1, 1, 2⟩⟩, ⟨.openParen, "(", ⟨3, 1, 4⟩⟩, ⟨.symbol, "b", ⟨4, 1, 5⟩⟩,
    ⟨.closeParen, ")", ⟨5, 1, 6⟩⟩, ⟨.openParen, "(", ⟨7, 1, 8⟩⟩, ⟨.string, "(", ⟨8, 1, 9⟩⟩,
    ⟨.openParen, "(", ⟨12, 1, 13⟩⟩, ⟨.closeParen, ")", ⟨13, 1, 14⟩⟩]

theorem parse_eq_iff_verdict_leftOpen :
    Token.scan "(a (b) (\"(\" ()" = .ok (leftOpenTokens ++ [Token.endOfInput ⟨14, 1, 15⟩]) ∧
      parse "(a (b) (\"(\" ()" = .error (.unterminatedList ⟨7, 1, 8⟩) ∧
        Verdict leftOpenTokens (.error (.unterminatedList ⟨7, 1, 8⟩)) := by
  have hscan : Token.scan "(a (b) (\"(\" ()" = .ok (leftOpenTokens ++ [Token.endOfInput ⟨14, 1, 15⟩]) := by decide +kernel
  have hparse : parse "(a (b) (\"(\" ()" = .error (.unterminatedList ⟨7, 1, 8⟩) := by
    rw [parse, hscan]
    rfl
  exact ⟨hscan, hparse, (parse_eq_iff_verdict hscan _).1 hparse⟩

end SExp

end StyleTree
