import Mathlib.Data.List.DropRight
import StyleTree.Proofs.Token.Spelling
import StyleTree.Proofs.Token.Trivia

/-!
# `Proofs.Token.Scan` — what a token list says about its text

A position is kept up to date one character at a time. What it says can be read off the text before it as well: its
bytes, its line feeds, and the characters since the last of them (`Position.after`, `advanceAll_after`).

The scanner goes from one spelling to the next over the trivia between them. So the tokens of a text are found piece by
piece (`scanFrom_piece`), and every token but the end mark is a spelling that stands in the text where the token says
(`mem_scanFrom`). In particular none stands on a line further down than the text has bytes.
-/

namespace StyleTree

/-! ## Places counted afresh -/

namespace Position

/-- The place right behind the first characters of a text, counted over all of them. -/
def after (before : List Char) : Position where
  offset := (String.ofList before).utf8ByteSize
  line := 1 + before.count '\n'
  column := 1 + (before.rtakeWhile (· ≠ '\n')).length

theorem after_nil : after [] = .start := rfl

/-- One more character moves all three counts as it should. -/
theorem advance_after (before : List Char) (c : Char) : (after before).advance c = after (before ++ [c]) := by
  by_cases hc : c = '\n'
  · subst hc
    rw [advance, if_pos rfl, after, after, String.utf8ByteSize_ofList_concat]
    simp [Nat.add_assoc]
  · rw [advance, if_neg hc, after, after, String.utf8ByteSize_ofList_concat]
    simp [hc, Nat.add_assoc]

/-- **Going on over more text** is counting all of it afresh. -/
theorem advanceAll_after (before more : List Char) : (after before).advanceAll more = after (before ++ more) := by
  induction more generalizing before with
  | nil => rw [advanceAll_nil, List.append_nil]
  | cons c more ih => rw [advanceAll_cons, advance_after, ih, List.append_assoc, List.singleton_append]

/-- Only line feeds start new lines. -/
theorem line_advanceAll (p : Position) (text : List Char) : (p.advanceAll text).line = p.line + text.count '\n' := by
  induction text generalizing p with
  | nil => rfl
  | cons c text ih =>
    rw [advanceAll_cons, ih, advance]
    by_cases hc : c = '\n'
    · rw [if_pos hc, hc, List.count_cons_self]
      show p.line + 1 + _ = _
      omega
    · rw [if_neg hc, List.count_cons_of_ne hc]

theorem advanceAll_start (text : List Char) : start.advanceAll text = after text :=
  advanceAll_after [] text

end Position

namespace Token

/-! ## Step by step -/

theorem scanFrom_of_trivia {text gap : List Char} (h : spanTrivia false text = (gap, [])) (pos : Position) :
    scanFrom pos text = .ok [endOfInput (pos.advanceAll gap)] := by
  unfold scanFrom
  split
  · next h' => rw [h] at h'; cases h'; rfl
  · next h' => rw [h] at h'; cases h'

/-- A piece becomes a token behind the trivia before it, and the scan goes on behind the piece. -/
theorem scanFrom_of_next {text gap rest : List Char} {c : Char} {piece : Piece}
    (h : spanTrivia false text = (gap, c :: rest)) (hnext : Piece.next c rest = .ok piece) (pos : Position) :
    scanFrom pos text = (scanFrom ((pos.advanceAll gap).advanceAll piece.spelling) piece.rest).map
      (piece.token (pos.advanceAll gap) :: ·) := by
  rw [scanFrom]
  split
  · next h' => rw [h] at h'; cases h'
  · next gap' c' rest' h' =>
    rw [h] at h'
    cases h'
    split
    · next hfault => rw [hnext] at hfault; cases hfault
    · next piece' hpiece =>
      rw [hnext] at hpiece
      cases hpiece
      dsimp only
      cases scanFrom ((pos.advanceAll gap).advanceAll piece.spelling) piece.rest <;> rfl

/-- Where no piece can be taken the scan fails, behind the trivia before it. -/
theorem scanFrom_of_fault {text gap rest : List Char} {c : Char} {fault : Fault}
    (h : spanTrivia false text = (gap, c :: rest)) (hnext : Piece.next c rest = .error fault) (pos : Position) :
    scanFrom pos text = .error (fault.at (pos.advanceAll gap)) := by
  rw [scanFrom]
  split
  · next h' => rw [h] at h'; cases h'
  · next h' =>
    rw [h] at h'
    cases h'
    split
    · next hfault => rw [hnext] at hfault; cases hfault; rfl
    · next hpiece => rw [hnext] at hpiece; cases hpiece

theorem scanFrom_nil (pos : Position) : scanFrom pos [] = .ok [endOfInput pos] := by
  have htrivia : spanTrivia false [] = ([], []) := rfl
  rw [scanFrom_of_trivia htrivia, Position.advanceAll_nil]

/-- White space is passed over. -/
theorem scanFrom_blank {c : Char} (h : isBlank c = true) (pos : Position) (text : List Char) :
    scanFrom pos (c :: text) = scanFrom (pos.advance c) text := by
  have hpass := spanTrivia_cons_of_blank h text
  rcases htrivia : spanTrivia false text with ⟨gap, _ | ⟨d, rest⟩⟩
  · rw [htrivia] at hpass
    rw [scanFrom_of_trivia hpass, scanFrom_of_trivia htrivia, Position.advanceAll_cons]
  · rw [htrivia] at hpass
    cases hnext : Piece.next d rest with
    | ok piece => rw [scanFrom_of_next hpass hnext, scanFrom_of_next htrivia hnext, Position.advanceAll_cons]
    | error fault => rw [scanFrom_of_fault hpass hnext, scanFrom_of_fault htrivia hnext, Position.advanceAll_cons]

theorem scanFrom_blanks {gap : List Char} (h : ∀ c ∈ gap, isBlank c = true) (pos : Position) (text : List Char) :
    scanFrom pos (gap ++ text) = scanFrom (pos.advanceAll gap) text := by
  induction gap generalizing pos with
  | nil => rfl
  | cons c gap ih =>
    rw [List.cons_append, scanFrom_blank (h c List.mem_cons_self), ih fun d hd => h d (List.mem_cons_of_mem _ hd),
      Position.advanceAll_cons]

/-- A spelling is one token. -/
theorem scanFrom_piece {c : Char} {rest : List Char} {piece : Piece} (hblank : isBlank c = false)
    (hsemicolon : c ≠ ';') (h : Piece.next c rest = .ok piece) (pos : Position) :
    scanFrom pos (c :: rest)
      = (scanFrom (pos.advanceAll piece.spelling) piece.rest).map (piece.token pos :: ·) :=
  scanFrom_of_next (spanTrivia_cons_of_mark hblank hsemicolon rest) h pos

/-! ## Where tokens come from -/

/-- **A token is the end mark or a spelling somewhere in the text**, and it stands there. -/
theorem mem_scanFrom {pos : Position} {text : List Char} {tokens : List Token}
    (h : scanFrom pos text = .ok tokens) {token : Token} (htoken : token ∈ tokens) :
    token = endOfInput (pos.advanceAll text) ∨
      ∃ before c rest piece, text = before ++ c :: rest ∧ Piece.next c rest = .ok piece ∧
        token = piece.token (pos.advanceAll before) := by
  fun_induction scanFrom pos text generalizing tokens with
  | case1 pos text gap htrivia =>
    have htext := spanTrivia_append false text
    rw [htrivia, List.append_nil] at htext
    cases h
    exact .inl (by rw [← htext]; exact List.mem_singleton.1 htoken)
  | case2 => cases h
  | case3 => cases h
  | case4 pos text gap c rest htrivia here piece hnext more hmore =>
    rename_i ih
    have htext := spanTrivia_append false text
    have hrest := Piece.spelling_append_rest hnext
    rw [htrivia] at htext
    change gap ++ c :: rest = text at htext
    cases h
    rcases List.mem_cons.1 htoken with rfl | htoken
    · -- The first token stands behind the trivia.
      exact .inr ⟨gap, c, rest, piece, htext.symm, hnext, rfl⟩
    · -- A later one stands behind the first, at a place that is counted on from the end of its spelling.
      rw [← htext, ← hrest]
      rcases ih hmore htoken with hend | ⟨before, d, behind, later, hbefore, hlater, rfl⟩
      · exact .inl (by rw [hend, Position.advanceAll_append, Position.advanceAll_append])
      · refine .inr ⟨gap ++ piece.spelling ++ before, d, behind, later, ?_, hlater, ?_⟩
        · rw [hbefore, List.append_assoc, List.append_assoc]
        · rw [Position.advanceAll_append, Position.advanceAll_append]

/-! ## Lines -/

/-- **Every token stands on one of the first lines**, of which there are no more than the text has bytes. -/
theorem line_le_of_mem_scan {text : String} {tokens : List Token} (h : scan text = .ok tokens) {token : Token}
    (htoken : token ∈ tokens) (hkind : token.kind ≠ .endOfInput) : token.pos.line ≤ text.utf8ByteSize := by
  rcases mem_scanFrom h htoken with rfl | ⟨before, c, rest, piece, htext, -, rfl⟩
  · exact absurd rfl hkind
  · have hline : (Position.start.advanceAll before).line = 1 + before.count '\n' := by
      rw [Position.advanceAll_start]
      rfl
    -- The spelling has at least one character, which makes up for the first line having the number one.
    have hcount : before.count '\n' ≤ before.length := List.count_le_length
    have hlength := congrArg List.length htext
    have hsize := text.length_toList_le
    rw [List.length_append, List.length_cons] at hlength
    show (Position.start.advanceAll before).line ≤ text.utf8ByteSize
    omega

end Token

end StyleTree
