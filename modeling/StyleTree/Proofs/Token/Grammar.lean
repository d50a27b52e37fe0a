import StyleTree.Proofs.Token.Scan

/-!
# `Proofs.Token.Grammar` — the texts that have tokens

A text is divided into the spellings of its tokens and the trivia between them. What such a division is can be said
without a scanner (`Divides`): every gap is trivia, every word is the spelling of its token and ends where it ends, and
every token stands where its word begins. The scanner finds a division whenever there is one, and a text has only one
(`scan_iff_divides`).

The scanner takes as much as it can at every step. That this leaves the next word whole (`spanTrivia_next_of_spells`) is
due to the ends that are asked of words, and to no word beginning like trivia.
-/

namespace StyleTree

namespace Token

/-! ## Divisions -/

/-- The spelling of a token in a text, with the trivia in front of it. -/
structure Word where
  /-- The trivia. -/
  gap : List Char
  /-- The spelling. -/
  spelling : List Char
deriving DecidableEq, Repr

/-- What stands behind the text `before` is divided into these words and, at its end, the trivia `last`. The words
    are those of the given tokens, which know their places in the whole text. -/
inductive Divides : (before text : List Char) → List Word → (last : List Char) → List Token → Prop
  /-- Nothing but trivia is left. -/
  | last {before gap : List Char} : Trivia [] gap → Divides before gap [] gap []
  /-- A gap, the word of a token, and then the rest. -/
  | word {before text gap spelling behind last : List Char} {words : List Word} {token : Token}
      {tokens : List Token} : text = gap ++ (spelling ++ behind) → Trivia (spelling ++ behind) gap →
      Spells token.kind token.lexeme.toList spelling → Ends token.kind behind →
      token.pos = .after (before ++ gap) → Divides (before ++ gap ++ spelling) behind words last tokens →
      Divides before text (⟨gap, spelling⟩ :: words) last (token :: tokens)

theorem eq_of_fields {token token' : Token} (hkind : token.kind = token'.kind)
    (hlexeme : token.lexeme = token'.lexeme) (hpos : token.pos = token'.pos) : token = token' := by
  cases token
  cases token'
  cases hkind
  cases hlexeme
  cases hpos
  rfl

/-! ## One word -/

/-- **The first word is taken as it is**: the gap is passed over, the spelling recognised, and nothing else. -/
theorem spanTrivia_next_of_spells {kind : Kind} {lexeme gap spelling behind : List Char}
    (hgap : Trivia (spelling ++ behind) gap) (hspells : Spells kind lexeme spelling) (hends : Ends kind behind) :
    ∃ c rest, spanTrivia false (gap ++ (spelling ++ behind)) = (gap, c :: rest) ∧
      Piece.next c rest = .ok ⟨kind, lexeme, spelling, behind⟩ := by
  obtain ⟨c, rest, rfl, hblank, hsemicolon, hnext⟩ := Piece.next_of_spells hspells hends
  have hbare : Bare (c :: rest ++ behind) := bare_cons.2 ⟨hblank, hsemicolon⟩
  exact ⟨c, rest ++ behind, spanTrivia_of_trivia hgap hbare, hnext⟩

theorem spanTrivia_of_last {gap : List Char} (hgap : Trivia [] gap) : spanTrivia false gap = (gap, []) := by
  have hspan := spanTrivia_of_trivia hgap bare_nil
  rwa [List.append_nil] at hspan

/-! ## All words -/

/-- **A divided text has the tokens of its division**, and the end mark stands behind it. -/
theorem scanFrom_of_divides {before text last : List Char} {words : List Word} {tokens : List Token}
    (h : Divides before text words last tokens) :
    scanFrom (.after before) text = .ok (tokens ++ [endOfInput (.after (before ++ text))]) := by
  induction h with
  | last hgap =>
    rw [scanFrom_of_trivia (spanTrivia_of_last hgap), Position.advanceAll_after]
    rfl
  | @word before text gap spelling behind last words token tokens htext hgap hspells hends hpos _ ih =>
    subst htext
    obtain ⟨c, rest, hspan, hnext⟩ := spanTrivia_next_of_spells hgap hspells hends
    have htoken : Piece.token ⟨token.kind, token.lexeme.toList, spelling, behind⟩ (.after (before ++ gap)) = token := by
      rw [Piece.token, String.ofList_toList, ← hpos]
    -- The tokens behind the first word begin where its spelling ends.
    rw [scanFrom_of_next hspan hnext, Position.advanceAll_after, Position.advanceAll_after, htoken, ih,
      List.append_assoc, List.append_assoc]
    rfl

/-- **A text with tokens is divided**, and its last token is the end mark. -/
theorem divides_of_scanFrom {pos : Position} {text : List Char} {tokens : List Token}
    (h : scanFrom pos text = .ok tokens) {before : List Char} (hpos : pos = .after before) :
    ∃ words last own, Divides before text words last own ∧
      tokens = own ++ [endOfInput (.after (before ++ text))] := by
  fun_induction scanFrom pos text generalizing tokens before with
  | case1 pos text gap htrivia =>
    have hgap := (trivia_of_spanTrivia text).1
    have htext := spanTrivia_append false text
    rw [htrivia] at hgap htext
    rw [List.append_nil] at htext
    subst htext hpos
    cases h
    exact ⟨[], gap, [], .last hgap, by rw [Position.advanceAll_after]; rfl⟩
  | case2 => cases h
  | case3 => cases h
  | case4 pos text gap c rest htrivia here piece hnext more hmore =>
    rename_i ih
    have hgap := (trivia_of_spanTrivia text).1
    have htext := spanTrivia_append false text
    have hsplit := Piece.spelling_append_rest hnext
    rw [htrivia] at hgap htext
    rw [← hsplit] at hgap htext
    obtain ⟨hspells, hends⟩ := Piece.spells_of_next hnext
    -- The rest is divided by the tokens that were found there; the first word goes in front.
    have hhere : here = .after (before ++ gap) := by rw [← Position.advanceAll_after, ← hpos]
    have hbehind : here.advanceAll piece.spelling = .after (before ++ gap ++ piece.spelling) := by
      rw [hhere, Position.advanceAll_after]
    obtain ⟨words, last, own, hown, rfl⟩ := ih hmore hbehind
    cases h
    have hlexeme : (piece.token here).lexeme.toList = piece.lexeme := String.toList_ofList
    refine ⟨⟨gap, piece.spelling⟩ :: words, last, piece.token here :: own,
      .word htext.symm hgap (hlexeme ▸ hspells) hends hhere hown, ?_⟩
    rw [← htext, List.append_assoc, List.append_assoc]
    rfl

/-! ## One word of many -/

/-- A word of a text is a word of the text that ends earlier. -/
theorem Divides.word_of_append {before gap spelling behind more last : List Char} {words : List Word} {token : Token}
    {tokens : List Token} (hgap : Trivia (spelling ++ (behind ++ more)) gap)
    (hspells : Spells token.kind token.lexeme.toList spelling) (hends : Ends token.kind (behind ++ more))
    (hpos : token.pos = .after (before ++ gap)) (h : Divides (before ++ gap ++ spelling) behind words last tokens) :
    Divides before (gap ++ (spelling ++ behind)) (⟨gap, spelling⟩ :: words) last (token :: tokens) := by
  rw [← List.append_assoc] at hgap
  exact .word rfl hgap.of_append hspells hends.of_append hpos h

/-- **Every token stands in the text where it says.** The text before it is divided by the tokens before it, and the
    text behind it by those behind it. -/
theorem Divides.split_at {before text last : List Char} {words : List Word} {tokens first others : List Token}
    {token : Token} (h : Divides before text words last tokens) (htokens : tokens = first ++ token :: others) :
    ∃ passed spelling behind, text = passed ++ (spelling ++ behind) ∧ token.pos = .after (before ++ passed) ∧
      Spells token.kind token.lexeme.toList spelling ∧ Ends token.kind behind ∧
        (∃ words₁ last₁, Divides before passed words₁ last₁ first) ∧
          ∃ words₂, Divides (before ++ passed ++ spelling) behind words₂ last others := by
  induction h generalizing first with
  | last => exact absurd htokens (by simp)
  | @word before text gap spelling behind last words token' tokens htext hgap hspells hends hpos hrest ih =>
    cases first with
    | nil =>
      cases htokens
      exact ⟨gap, spelling, behind, htext, hpos, hspells, hends, ⟨[], gap, .last hgap.alone⟩, words, hrest⟩
    | cons head first =>
      obtain ⟨rfl, hlater⟩ := List.cons.inj htokens
      obtain ⟨passed, spelling', behind', rfl, hpos', hspells', hends', ⟨words₁, last₁, hfirst⟩, words₂, hothers⟩ :=
        ih hlater
      -- The first word is one of what has been passed.
      have hpassed := Divides.word_of_append hgap hspells hends hpos hfirst
      refine ⟨gap ++ (spelling ++ passed), spelling', behind', ?_, ?_, hspells', hends', ⟨_, last₁, hpassed⟩, words₂,
        ?_⟩
      · rw [htext, List.append_assoc, List.append_assoc]
      · rw [hpos', List.append_assoc, List.append_assoc]
      · rwa [List.append_assoc before gap, List.append_assoc before, List.append_assoc gap] at hothers

/-- The end mark is none of the tokens of a division, since it has no spelling. -/
theorem Divides.kind_ne {before text last : List Char} {words : List Word} {tokens : List Token}
    (h : Divides before text words last tokens) : ∀ token ∈ tokens, token.kind ≠ .endOfInput := by
  induction h with
  | last => exact List.forall_mem_nil _
  | @word _ _ _ _ _ _ _ first _ _ _ hspells _ _ _ ih =>
    refine List.forall_mem_cons.2 ⟨?_, ih⟩
    intro hkind
    rw [hkind] at hspells
    cases hspells

/-! ## The grammar -/

/-- **A text is divided in one way only.** -/
theorem Divides.unique {before text last last' : List Char} {words words' : List Word} {tokens tokens' : List Token}
    (h : Divides before text words last tokens) (h' : Divides before text words' last' tokens') :
    words = words' ∧ last = last' ∧ tokens = tokens' := by
  induction h generalizing words' tokens' with
  | last hgap =>
    cases h' with
    | last => exact ⟨rfl, rfl, rfl⟩
    | word htext' hgap' hspells' hends' _ _ =>
      -- All of the text would be trivia, but the scanner stops at the first word.
      obtain ⟨c, rest, hspan, -⟩ := spanTrivia_next_of_spells hgap' hspells' hends'
      rw [← htext', spanTrivia_of_last hgap] at hspan
      cases hspan
  | @word before text gap spelling behind last words token tokens htext hgap hspells hends hpos _ ih =>
    obtain ⟨c, rest, hspan, hnext⟩ := spanTrivia_next_of_spells hgap hspells hends
    rw [← htext] at hspan
    cases h' with
    | last hgap' =>
      rw [spanTrivia_of_last hgap'] at hspan
      cases hspan
    | @word _ _ gap' spelling' behind' _ words' token' tokens' htext' hgap' hspells' hends' hpos' hrest' =>
      -- The scanner takes the first words of both divisions, so they are one word.
      obtain ⟨c', rest', hspan', hnext'⟩ := spanTrivia_next_of_spells hgap' hspells' hends'
      rw [← htext', hspan] at hspan'
      cases hspan'
      rw [hnext, Except.ok.injEq, Piece.mk.injEq] at hnext'
      obtain ⟨hkind, hlexeme, rfl, rfl⟩ := hnext'
      have htoken : token = token' := eq_of_fields hkind (String.toList_inj.1 hlexeme) (hpos.trans hpos'.symm)
      obtain ⟨hwords, hlast, htokens⟩ := ih hrest'
      exact ⟨by rw [hwords], hlast, by rw [htoken, htokens]⟩

/-- **The texts that have tokens are those that can be divided**, their tokens are those of the division with the end
    mark behind all text, and a text is divided in one way only. -/
theorem scan_iff_divides :
    (∀ (text : String) (tokens : List Token) (eof : Token), scan text = .ok (tokens ++ [eof]) ↔
      (∃ words last, Divides [] text.toList words last tokens) ∧ eof = endOfInput (.after text.toList)) ∧
    ∀ (text : String) (words words' : List Word) (last last' : List Char) (tokens tokens' : List Token),
      Divides [] text.toList words last tokens → Divides [] text.toList words' last' tokens' →
        words = words' ∧ last = last' ∧ tokens = tokens' := by
  constructor
  · intro text tokens eof
    constructor
    · intro h
      obtain ⟨words, last, own, hown, htokens⟩ := divides_of_scanFrom h Position.after_nil.symm
      obtain ⟨rfl, heof⟩ := List.append_inj' htokens rfl
      exact ⟨⟨words, last, hown⟩, List.singleton_inj.1 heof⟩
    · rintro ⟨⟨words, last, h⟩, rfl⟩
      exact scanFrom_of_divides h
  · intro text words words' last last' tokens tokens' h h'
    exact h.unique h'

/-- Words that touch: a number, a symbol that begins with a minus sign too, a keyword and a comment. -/
def touchingWords : List Word :=
  [⟨[' ', ';', 'é', '\n'], ['-', '2']⟩, ⟨[], ['-', '-', '5']⟩, ⟨[], [':', 'a']⟩]

theorem scan_iff_divides_touchingWords :
    scan " ;é\n-2--5:a;b" = .ok [⟨.number, "-2", ⟨5, 2, 1⟩⟩, ⟨.symbol, "--5", ⟨7, 2, 3⟩⟩, ⟨.keyword, "a", ⟨10, 2, 6⟩⟩,
      endOfInput ⟨14, 2, 10⟩] ∧
    ∀ words last tokens, Divides [] " ;é\n-2--5:a;b".toList words last tokens →
      words = touchingWords ∧ last = [';', 'b'] := by
  have hcomment : ∀ c ∈ ['é'], c ≠ '\n' := List.forall_mem_singleton.2 (by decide)
  have hgap : Trivia "-2--5:a;b".toList (' ' :: (';' :: (['é'] ++ ['\n']))) :=
    .blank (by decide) (.comment hcomment (by simp) (.blank (by decide) .nil))
  have hlast : Trivia [] (';' :: (['b'] ++ [])) := .comment (List.forall_mem_singleton.2 (by decide)) (by simp) .nil
  have hminus : IsNumeral ['-', '2'] := ⟨['2'], by simp, List.forall_mem_singleton.2 rfl, .inr rfl⟩
  have hname : ∀ c ∈ ['a'], isSymbolChar c = true := List.forall_mem_singleton.2 (by decide)
  have hkeyword : Divides " ;é\n-2--5".toList ":a;b".toList [⟨[], [':', 'a']⟩] [';', 'b']
      [⟨.keyword, "a", ⟨10, 2, 6⟩⟩] :=
    .word (by rfl) .nil (.keyword hname) (by decide) (by rfl) (.last hlast)
  have hsymbol : Divides " ;é\n-2".toList "--5:a;b".toList [⟨[], ['-', '-', '5']⟩, ⟨[], [':', 'a']⟩] [';', 'b']
      [⟨.symbol, "--5", ⟨7, 2, 3⟩⟩, ⟨.keyword, "a", ⟨10, 2, 6⟩⟩] :=
    .word (by rfl) .nil (.symbol (by decide)) (by decide) (by rfl) hkeyword
  have hdivides : Divides [] " ;é\n-2--5:a;b".toList touchingWords [';', 'b']
      [⟨.number, "-2", ⟨5, 2, 1⟩⟩, ⟨.symbol, "--5", ⟨7, 2, 3⟩⟩, ⟨.keyword, "a", ⟨10, 2, 6⟩⟩] :=
    .word (by rfl) hgap (.number hminus) (by decide) (by rfl) hsymbol
  refine ⟨(scan_iff_divides.1 _ _ _).2 ⟨⟨_, _, hdivides⟩, rfl⟩, ?_⟩
  intro words last tokens h
  obtain ⟨hwords, hlast, -⟩ := scan_iff_divides.2 _ _ _ _ _ _ _ h hdivides
  exact ⟨hwords, hlast⟩

end Token

end StyleTree
