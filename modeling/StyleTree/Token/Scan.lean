import StyleTree.Text.Basic
import StyleTree.Token.Basic

/-!
# `StyleTree.Token.Scan` — from text to tokens

A text is a sequence of spellings with trivia between them. One spelling is recognised by looking at the
characters alone (`Piece.next`); positions are attached afterwards, by counting over the characters passed. So
what a text says does not depend on where it stands.

Whatever is split off, the trivia (`spanTrivia`), the inside of a quoted literal (`spanString`) or a whole piece,
comes with the lemma that nothing is lost by it. `Token.scan` is the token list of a text.
-/

namespace StyleTree

/-! ## Trivia -/

/-- Splits off leading white space and comments. A comment begins with a semicolon and ends before the
    next line feed; the flag says whether the text begins inside one. -/
def spanTrivia (inComment : Bool) : List Char → List Char × List Char
  | [] => ([], [])
  | c :: text =>
    if inComment && c != '\n' then passing c (spanTrivia true text)
    else if c == ';' then passing c (spanTrivia true text)
    else if isBlank c then passing c (spanTrivia false text)
    else ([], c :: text)
where
  /-- Counts one more character to the part split off. -/
  passing (c : Char) (split : List Char × List Char) : List Char × List Char :=
    (c :: split.1, split.2)

/-- The trivia and what stands behind it are the whole text. -/
theorem spanTrivia_append (inComment : Bool) (text : List Char) :
    (spanTrivia inComment text).1 ++ (spanTrivia inComment text).2 = text := by
  induction text generalizing inComment with
  | nil => rfl
  | cons c text ih =>
    unfold spanTrivia
    split
    · simp [spanTrivia.passing, ih]
    · split
      · simp [spanTrivia.passing, ih]
      · split
        · simp [spanTrivia.passing, ih]
        · rfl

/-! ## Quoted literals -/

/-- Why no token begins here, with positions still to be counted. -/
inductive Fault where
  /-- No token begins with this character. -/
  | unexpectedChar (c : Char)
  /-- A quoted literal has no end. -/
  | unterminatedString
  /-- A backslash stands before a character that it cannot escape, this many characters into the text. -/
  | invalidEscape (before : List Char) (c : Char)
deriving DecidableEq, Repr

/-- The same fault seen from further left. -/
def Fault.after (passed : List Char) : Fault → Fault
  | .invalidEscape before c => .invalidEscape (passed ++ before) c
  | fault => fault

/-- The fault of a text that begins at the given place. -/
def Fault.at (pos : Position) : Fault → LexError
  | .unexpectedChar c => .unexpectedChar c pos
  | .unterminatedString => .unterminatedString pos
  | .invalidEscape before c => .invalidEscape c (pos.advanceAll before)

/-- A spelling recognised at the start of a text. -/
structure Piece where
  /-- What it is. -/
  kind : Token.Kind
  /-- What it reads as. -/
  lexeme : List Char
  /-- The characters it is spelled with. -/
  spelling : List Char
  /-- The text behind it. -/
  rest : List Char
deriving DecidableEq, Repr

/-- The piece read after one more part of a quoted literal: `value` is spelled `spelled`. -/
def Piece.after (value : Char) (spelled : List Char) (piece : Piece) : Piece :=
  { piece with lexeme := value :: piece.lexeme, spelling := spelled ++ piece.spelling }

/-- Reads a quoted literal from behind its opening quote to its closing quote. -/
def spanString : List Char → Except Fault Piece
  | [] => .error .unterminatedString
  | '"' :: rest => .ok ⟨.string, [], ['"'], rest⟩
  | ['\\'] => .error .unterminatedString
  | '\\' :: letter :: rest =>
    match unescape? letter with
    | none => .error (.invalidEscape ['\\'] letter)
    | some value => continuing value ['\\', letter] (spanString rest)
  | c :: rest => continuing c [c] (spanString rest)
where
  /-- Puts one more character in front of what was read. -/
  continuing (value : Char) (spelled : List Char) : Except Fault Piece → Except Fault Piece
    | .ok piece => .ok (piece.after value spelled)
    | .error fault => .error (fault.after spelled)

/-! ## Spellings of every kind -/

namespace Piece

/-- A piece made of all leading characters with the given property. -/
def ofClass (kind : Token.Kind) (property : Char → Bool) (text : List Char) : Piece :=
  ⟨kind, text.takeWhile property, text.takeWhile property, text.dropWhile property⟩

/-- Puts characters that are not part of the reading in front of a piece. -/
def behind (opening : List Char) (piece : Piece) : Piece :=
  { piece with spelling := opening ++ piece.spelling }

/-- A number: the sign, if the text begins with one, and all digits behind it. -/
def number : List Char → Piece
  | '-' :: text =>
    let digits := ofClass .number Char.isDigit text
    { digits with lexeme := '-' :: digits.lexeme, spelling := '-' :: digits.spelling }
  | text => ofClass .number Char.isDigit text

/-- A symbol, or the word that stands for an absent value. -/
def word (text : List Char) : Piece :=
  let piece := ofClass .symbol isSymbolChar text
  if piece.lexeme = ['n', 'i', 'l'] then { piece with kind := .nil } else piece

/-- The token at the start of the text `c :: text`, which begins with no trivia. The order of the
    questions matters only between a number and a symbol: a minus sign begins either. -/
def next (c : Char) (text : List Char) : Except Fault Piece :=
  if c = '(' then .ok ⟨.openParen, ['('], ['('], text⟩
  else if c = ')' then .ok ⟨.closeParen, [')'], [')'], text⟩
  else if c = ':' then .ok ((ofClass .keyword isSymbolChar text).behind [':'])
  else if c = '"' then
    match spanString text with
    | .ok piece => .ok (piece.behind ['"'])
    | .error fault => .error (fault.after ['"'])
  else if startsNumber (c :: text) then .ok (number (c :: text))
  else if isSymbolStart c then .ok (word (c :: text))
  else .error (.unexpectedChar c)

/-- The token that a piece at the given place is. -/
def token (piece : Piece) (pos : Position) : Token :=
  ⟨piece.kind, String.ofList piece.lexeme, pos⟩

end Piece

/-! ## Nothing is lost -/

/-- A quoted literal and what stands behind it are the whole text. Each step of the reading takes a character, or a
    backslash and the character behind it, from the text to the spelling. -/
theorem spanString_append {text : List Char} {piece : Piece} (h : spanString text = .ok piece) :
    piece.spelling ++ piece.rest = text := by
  fun_induction spanString text generalizing piece with
  | case1 => cases h
  | case2 rest => cases h; rfl
  | case3 => cases h
  | case4 letter rest _ => cases h
  | case5 letter rest value hv ih => 
    cases hr : spanString rest with
    | error fault => simp [hr, spanString.continuing] at h
    | ok inner =>
      simp only [hr, spanString.continuing, Except.ok.injEq] at h
      subst h
      simp [Piece.after, ih hr]
  | case6 c rest _ _ _ ih =>
    cases hr : spanString rest with
    | error fault => simp [hr, spanString.continuing] at h
    | ok inner =>
      simp only [hr, spanString.continuing, Except.ok.injEq] at h
      subst h
      simp [Piece.after, ih hr]

namespace Piece

theorem ofClass_append (kind : Token.Kind) (property : Char → Bool) (text : List Char) :
    (ofClass kind property text).spelling ++ (ofClass kind property text).rest = text :=
  List.takeWhile_append_dropWhile

theorem number_append (text : List Char) : (number text).spelling ++ (number text).rest = text := by
  unfold number
  split
  · rw [List.cons_append, ofClass_append]
  · exact ofClass_append ..

theorem word_append (text : List Char) : (word text).spelling ++ (word text).rest = text := by
  simp only [word]
  split <;> exact ofClass_append .symbol isSymbolChar text

/-- A piece and the text behind it are the text it was taken from. -/
theorem spelling_append_rest {c : Char} {text : List Char} {piece : Piece}
    (h : next c text = .ok piece) : piece.spelling ++ piece.rest = c :: text := by
  unfold next at h
  split at h
  · cases h; simp_all
  split at h
  · cases h; simp_all
  split at h
  · cases h
    simp_all [behind, ofClass_append]
  split at h
  · split at h
    · next piece' hs =>
      cases h
      simp_all [behind, spanString_append hs]
    · cases h
  split at h
  · cases h; exact number_append _
  split at h
  · cases h; exact word_append _
  · cases h

/-- A piece is spelled with at least one character. -/
theorem spelling_ne_nil {c : Char} {text : List Char} {piece : Piece}
    (h : next c text = .ok piece) : piece.spelling ≠ [] := by
  unfold next at h
  split at h
  · cases h; simp
  split at h
  · cases h; simp
  split at h
  · cases h; simp [behind]
  split at h
  · split at h
    · cases h; simp [behind]
    · cases h
  split at h
  · next hnum =>
    cases h
    unfold number
    split
    · simp
    · -- No sign, so the text begins with a digit and the run of digits takes it.
      next hsign =>
      have hdigit : c.isDigit = true := by
        unfold startsNumber at hnum
        split at hnum
        · next heq => cases heq; exact absurd rfl (hsign _)
        · next heq => cases heq; exact hnum
        · cases hnum
      simp [ofClass, hdigit]
  split at h
  · next hstart =>
    cases h
    have hchar : isSymbolChar c = true := by simp [isSymbolChar, hstart]
    simp only [word]
    split <;> simp [ofClass, hchar]
  · cases h

/-- A piece takes at least one character, so that a scan comes to an end. -/
theorem rest_length_lt {c : Char} {text : List Char} {piece : Piece}
    (h : next c text = .ok piece) : piece.rest.length < (c :: text).length := by
  rw [← spelling_append_rest h, List.length_append]
  have := List.length_pos_iff.2 (spelling_ne_nil h)
  omega

end Piece

theorem spanTrivia_length_le (inComment : Bool) (text : List Char) :
    (spanTrivia inComment text).2.length ≤ text.length := by
  have := congrArg List.length (spanTrivia_append inComment text)
  rw [List.length_append] at this
  omega

/-! ## Token lists -/

namespace Token

/-- The tokens of a text whose first character stands at the given place, the end mark included. -/
def scanFrom (pos : Position) (text : List Char) : Except LexError (List Token) :=
  match _ : spanTrivia false text with
  | (gap, []) => .ok [endOfInput (pos.advanceAll gap)]
  | (gap, c :: rest) =>
    let here := pos.advanceAll gap
    match _ : Piece.next c rest with
    | .error fault => .error (fault.at here)
    | .ok piece =>
      match scanFrom (here.advanceAll piece.spelling) piece.rest with
      | .error e => .error e
      | .ok tokens => .ok (piece.token here :: tokens)
termination_by text.length
decreasing_by
  have hle := spanTrivia_length_le false text
  rw [‹spanTrivia false text = _›] at hle
  exact Nat.lt_of_lt_of_le (Piece.rest_length_lt ‹Piece.next c rest = _›) hle

/-- The tokens of a text, the end mark included. -/
def scan (text : String) : Except LexError (List Token) :=
  scanFrom .start text.toList

end Token

end StyleTree
