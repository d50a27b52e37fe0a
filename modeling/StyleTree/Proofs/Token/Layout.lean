import StyleTree.Proofs.Token.Grammar

/-!
# `Proofs.Token.Layout` — the same words otherwise apart

What stands between two words of a text matters only in that it keeps them apart. If white space and whole comments
stand between the words in place of what stood there, the text has the same tokens, at other places: `Relaid` are words
with a `Separator` in front of each, and `exists_divides_of_relaid` finds the tokens.

The words of a text may touch, as a parenthesis and a name do. So the new gaps must do more than the old ones: each
ends whatever token stands before it.
-/

namespace StyleTree

/-! ## Between words -/

/-- White space, and comments that end with their line: what can stand in front of any text. -/
inductive Separator : List Char → Prop
  /-- There is none. -/
  | nil : Separator []
  /-- A white space character. -/
  | blank {c : Char} {gap : List Char} : isBlank c = true → Separator gap → Separator (c :: gap)
  /-- A comment with the line feed at its end. -/
  | comment {body gap : List Char} : (∀ c ∈ body, c ≠ '\n') → Separator gap →
      Separator (';' :: (body ++ '\n' :: gap))

namespace Separator

variable {gap : List Char}

/-- A separator is trivia, whatever stands behind it. -/
theorem trivia (h : Separator gap) (behind : List Char) : Trivia behind gap := by
  induction h with
  | nil => exact .nil
  | blank hblank _ ih => exact .blank hblank ih
  | comment hbody _ ih =>
    refine .comment hbody ?_ (.blank (by decide) ih)
    intro c hc
    cases hc
    rfl

/-- No name runs on into a separator. -/
theorem delimited (h : Separator gap) (hne : gap ≠ []) (behind : List Char) : Delimited (gap ++ behind) := by
  cases h with
  | nil => exact absurd rfl hne
  | blank hblank => exact delimited_cons.2 (isSymbolChar_of_isBlank hblank)
  | comment => exact delimited_cons.2 (by decide)

end Separator

namespace Token

/-! ## Texts of words -/

/-- The text that is made of the words and of what stands behind them. -/
def textOf (words : List Word) (last : List Char) : List Char :=
  words.foldr (fun word behind => word.gap ++ (word.spelling ++ behind)) last

/-! ## The same words -/

/-- The token as if it came from no text. -/
def unplaced (token : Token) : Token :=
  { token with pos := .synthetic }

/-- Whether the second words are the first ones with separators in front of them, and one behind them. Only the first
    word may have nothing in front of it. -/
structure Relaid (words words' : List Word) (last' : List Char) : Prop where
  spellings : words'.map Word.spelling = words.map Word.spelling
  separators : ∀ word ∈ words', Separator word.gap
  apart : ∀ word ∈ words'.tail, word.gap ≠ []
  last : Separator last'

/-- No name runs on into words that have something in front of them. -/
theorem delimited_textOf {words : List Word} {last : List Char} (hwords : ∀ word ∈ words, Separator word.gap)
    (hapart : ∀ word ∈ words, word.gap ≠ []) (hlast : Separator last) : Delimited (textOf words last) := by
  cases words with
  | nil =>
    show Delimited last
    by_cases hne : last = []
    · rw [hne]
      exact delimited_nil
    · have hdelimited := hlast.delimited hne []
      rwa [List.append_nil] at hdelimited
  | cons word words =>
    exact (hwords word List.mem_cons_self).delimited (hapart word List.mem_cons_self) _

/-- **The same words otherwise apart are those of the same tokens**, which stand elsewhere. -/
theorem exists_divides_of_relaid {before text last : List Char} {words : List Word} {tokens : List Token}
    (h : Divides before text words last tokens) : ∀ {words' : List Word} {last' : List Char},
      Relaid words words' last' → ∀ before' : List Char, ∃ tokens',
        Divides before' (textOf words' last') words' last' tokens' ∧ tokens'.map unplaced = tokens.map unplaced := by
  induction h with
  | last =>
    intro words' last' hrelaid before'
    rw [List.map_eq_nil_iff.1 hrelaid.spellings]
    exact ⟨[], .last (hrelaid.last.trivia []), rfl⟩
  | @word before text gap spelling behind last words token tokens _ _ hspells _ _ _ ih =>
    intro words' last' hrelaid before'
    obtain ⟨⟨gap', spelling'⟩, words', rfl, hspelling, hspellings⟩ := List.map_eq_cons_iff.1 hrelaid.spellings
    obtain rfl : spelling' = spelling := hspelling
    have hseparators : ∀ word ∈ words', Separator word.gap := fun word hword =>
      hrelaid.separators word (List.mem_cons_of_mem _ hword)
    have hrest : Relaid words words' last' :=
      ⟨hspellings, hseparators, fun word hword => hrelaid.apart word (List.mem_of_mem_tail hword), hrelaid.last⟩
    -- What stands behind the word ends any token, so it ends this one.
    have hends : Ends token.kind (textOf words' last') :=
      (delimited_textOf hseparators hrelaid.apart hrelaid.last).ends token.kind
    have hgap : Separator gap' := hrelaid.separators _ List.mem_cons_self
    obtain ⟨tokens', htokens', hsame⟩ := ih hrest (before' ++ gap' ++ spelling')
    refine ⟨⟨token.kind, token.lexeme, .after (before' ++ gap')⟩ :: tokens',
      .word rfl (hgap.trivia _) hspells hends rfl htokens', ?_⟩
    rw [List.map_cons, List.map_cons, hsame]
    rfl

end Token

end StyleTree
