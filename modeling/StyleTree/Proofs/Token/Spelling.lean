import StyleTree.Proofs.Prelude
import StyleTree.Token.Scan

/-!
# `Proofs.Token.Spelling` — how single tokens are spelled

What a token of each kind may look like is said once, without the scanner: `Spells` for the characters it takes,
`Ends` for what may not follow. A symbol, a keyword or a number goes as far as its characters do, so the text
behind it begins with no further one (`Delimited`).

The scanner recognises exactly these spellings. One that ends is taken for what it is (`Piece.next_of_spells`), and
nothing else is ever taken for a token (`Piece.spells_of_next`).
-/

namespace StyleTree

/-! ## Characters -/

theorem blankTable_ascending : blankTable.Ascending := by
  simp [blankTable, CharTable.Ascending]

/-- The code points of white space. -/
def blankCodes : List Nat :=
  blankTable.flatMap fun range => List.range' range.1 (range.2 + 1 - range.1)

theorem mem_blankCodes {c : Char} (h : isBlank c = true) : c.toNat ∈ blankCodes := by
  obtain ⟨range, hrange, hlow, hhigh⟩ := (CharTable.contains_eq_true_iff blankTable_ascending c).1 h
  refine List.mem_flatMap.2 ⟨range, hrange, List.mem_range'_1.2 ⟨hlow, ?_⟩⟩
  omega

/-- White space and the characters of symbols have nothing in common. There are few white space characters, so
    they are looked up one by one. -/
theorem isSymbolChar_of_blankCode : ∀ code ∈ blankCodes, isSymbolChar (Char.ofNat code) = false := by
  decide +kernel

theorem isSymbolChar_of_isBlank {c : Char} (h : isBlank c = true) : isSymbolChar c = false := by
  have hcode := isSymbolChar_of_blankCode c.toNat (mem_blankCodes h)
  rwa [Char.ofNat_toNat] at hcode

theorem isSymbolChar_of_start {c : Char} (h : isSymbolStart c = true) : isSymbolChar c = true := by
  simp [isSymbolChar, h]

theorem isSymbolChar_of_isDigit {c : Char} (h : c.isDigit = true) : isSymbolChar c = true := by
  simp [isSymbolChar, h]

/-- The characters with a meaning of their own cannot stand inside a symbol. -/
theorem ne_of_isSymbolChar {c mark : Char} (h : isSymbolChar c = true) (hmark : isSymbolChar mark = false) :
    c ≠ mark := by
  rintro rfl
  rw [h] at hmark
  cases hmark

/-- Neither white space nor a comment begins with a character of a symbol. -/
theorem not_trivia_of_isSymbolChar {c : Char} (h : isSymbolChar c = true) : isBlank c = false ∧ c ≠ ';' := by
  refine ⟨Bool.eq_false_iff.2 fun hblank => ?_, ne_of_isSymbolChar h (by decide)⟩
  rw [isSymbolChar_of_isBlank hblank] at h
  cases h

/-- No symbol begins with a digit. There are ten of them, and they are looked up one by one. -/
theorem isSymbolStart_of_digitCode : ∀ code ∈ List.range' '0'.toNat 10, isSymbolStart (Char.ofNat code) = false := by
  decide +kernel

theorem isDigit_of_isSymbolStart {c : Char} (h : isSymbolStart c = true) : c.isDigit = false := by
  refine Bool.eq_false_iff.2 fun hdigit => ?_
  obtain ⟨hlow, hhigh⟩ := Char.isDigit_iff_toNat.1 hdigit
  have hcode : c.toNat ∈ List.range' '0'.toNat 10 := List.mem_range'_1.2 ⟨hlow, Nat.lt_succ_of_le hhigh⟩
  have hstart := isSymbolStart_of_digitCode c.toNat hcode
  rw [Char.ofNat_toNat, h] at hstart
  cases hstart

theorem isDigit_of_not_isSymbolChar {c : Char} (h : isSymbolChar c = false) : c.isDigit = false :=
  Bool.eq_false_iff.2 fun hdigit => ne_of_isSymbolChar (isSymbolChar_of_isDigit hdigit) h rfl

/-! ## Names and numerals -/

/-- A name that a symbol can have. -/
structure IsSymbolName (name : List Char) : Prop where
  start : ∃ c rest, name = c :: rest ∧ isSymbolStart c = true
  chars : ∀ c ∈ name, isSymbolChar c = true
  notNil : name ≠ ['n', 'i', 'l']
  notNumber : startsNumber name = false

instance (name : List Char) : Decidable (IsSymbolName name) :=
  decidable_of_iff (name.head?.any isSymbolStart = true ∧ name.all isSymbolChar = true ∧
      name ≠ ['n', 'i', 'l'] ∧ startsNumber name = false) (by
    constructor
    · rintro ⟨hstart, hchars, hnil, hnumber⟩
      cases name with
      | nil => cases hstart
      | cons c rest => exact ⟨⟨c, rest, rfl, hstart⟩, List.all_eq_true.1 hchars, hnil, hnumber⟩
    · rintro ⟨⟨c, rest, rfl, hstart⟩, hchars, hnil, hnumber⟩
      exact ⟨hstart, List.all_eq_true.2 hchars, hnil, hnumber⟩)

/-- What a name can be, one character after the other: of the names that begin like a symbol, only those that begin
    with a minus sign can begin a number. -/
theorem isSymbolName_iff {name : List Char} : IsSymbolName name ↔
    (∃ c ∈ name.head?, isSymbolStart c = true) ∧ (∀ c ∈ name, isSymbolChar c = true) ∧ name ≠ ['n', 'i', 'l'] ∧
      ∀ c rest, name = '-' :: c :: rest → c.isDigit = false := by
  constructor
  · rintro ⟨⟨c, rest, hname, hstart⟩, hchars, hnil, hnumber⟩
    refine ⟨⟨c, by rw [hname]; rfl, hstart⟩, hchars, hnil, ?_⟩
    rintro d more rfl
    exact hnumber
  · rintro ⟨⟨c, hc, hstart⟩, hchars, hnil, hminus⟩
    obtain ⟨rest, hname⟩ : ∃ rest, name = c :: rest := List.head?_eq_some_iff.1 hc
    refine ⟨⟨c, rest, hname, hstart⟩, hchars, hnil, ?_⟩
    subst hname
    unfold startsNumber
    split
    · next d more heq => exact hminus d more heq
    · next heq =>
      cases heq
      exact isDigit_of_isSymbolStart hstart
    · rfl

/-- A numeral: at least one digit, possibly behind a minus sign. -/
def IsNumeral (text : List Char) : Prop :=
  ∃ digits, digits ≠ [] ∧ (∀ c ∈ digits, c.isDigit = true) ∧ (text = digits ∨ text = '-' :: digits)

/-- A text that does not begin with a character of a symbol. -/
def Delimited (text : List Char) : Prop :=
  ∀ c ∈ text.head?, isSymbolChar c = false

@[simp] theorem delimited_nil : Delimited [] := by
  intro c hc
  cases hc

@[simp] theorem delimited_cons {c : Char} {text : List Char} : Delimited (c :: text) ↔ isSymbolChar c = false := by
  simp [Delimited]

theorem delimited_dropWhile (text : List Char) : Delimited (text.dropWhile isSymbolChar) :=
  List.head?_dropWhile_eq_false isSymbolChar text

/-- Whether a number begins here is settled by the spelling alone. -/
theorem startsNumber_append {c : Char} {name behind : List Char} (h : Delimited behind) :
    startsNumber (c :: name ++ behind) = startsNumber (c :: name) := by
  by_cases hminus : c = '-'
  · -- A minus sign begins a number only if a digit follows, and no digit does.
    subst hminus
    cases name with
    | cons d name => rfl
    | nil =>
      cases behind with
      | nil => rfl
      | cons d behind => exact isDigit_of_not_isSymbolChar (delimited_cons.1 h)
  · simp [startsNumber, hminus]

/-! ## Tokens -/

/-- The escapes of a quoted literal: the letter behind the backslash and the character that both stand for. -/
def escapes : List (Char × Char) :=
  [('n', '\n'), ('t', '\t'), ('r', '\r'), ('\\', '\\'), ('"', '"')]

theorem unescape?_eq_some_iff_mem {letter c : Char} : unescape? letter = some c ↔ (letter, c) ∈ escapes := by
  constructor
  · intro h
    unfold unescape? at h
    split at h <;> cases h <;> decide
  · intro h
    simp only [escapes, List.mem_cons, List.not_mem_nil, or_false, Prod.mk.injEq] at h
    rcases h with ⟨rfl, rfl⟩ | ⟨rfl, rfl⟩ | ⟨rfl, rfl⟩ | ⟨rfl, rfl⟩ | ⟨rfl, rfl⟩ <;> rfl

/-- The inside of a quoted literal, and the text it stands for. -/
inductive QuotedBody : List Char → List Char → Prop
  /-- Nothing stands for nothing. -/
  | nil : QuotedBody [] []
  /-- A character stands for itself, a line feed included. -/
  | plain {c : Char} {body value : List Char} : c ≠ '"' → c ≠ '\\' → QuotedBody body value →
      QuotedBody (c :: body) (c :: value)
  /-- A backslash and a letter stand for one character. -/
  | escaped {letter c : Char} {body value : List Char} : (letter, c) ∈ escapes → QuotedBody body value →
      QuotedBody ('\\' :: letter :: body) (c :: value)

/-- Every text has a literal that stands for it. -/
theorem quotedBody_flatMap_escape (text : List Char) : QuotedBody (text.flatMap escape) text := by
  induction text with
  | nil => exact .nil
  | cons c text ih =>
    rw [List.flatMap_cons]
    unfold escape
    split
    case h_6 hn ht hr hbackslash hquote => exact .plain hquote hbackslash ih
    all_goals exact .escaped (by decide) ih

/-- The spellings of tokens: a token of this kind that reads like this is spelled with these characters. -/
inductive Spells : Token.Kind → List Char → List Char → Prop
  /-- An opening parenthesis. -/
  | openParen : Spells .openParen ['('] ['(']
  /-- A closing parenthesis. -/
  | closeParen : Spells .closeParen [')'] [')']
  /-- A symbol is spelled by its name. -/
  | symbol {name : List Char} : IsSymbolName name → Spells .symbol name name
  /-- A keyword has a colon in front of its name, which may be empty. -/
  | keyword {name : List Char} : (∀ c ∈ name, isSymbolChar c = true) → Spells .keyword name (':' :: name)
  /-- A quoted literal stands for its inside, with the escapes resolved. -/
  | string {body value : List Char} : QuotedBody body value → Spells .string value ('"' :: (body ++ ['"']))
  /-- A number is kept as it is written. -/
  | number {text : List Char} : IsNumeral text → Spells .number text text
  /-- The absent value has a word of its own. -/
  | nil : Spells .nil ['n', 'i', 'l'] ['n', 'i', 'l']

/-- Whether a token of the kind ends where the given text begins. A parenthesis and a quoted literal end by
    themselves. -/
def Ends : Token.Kind → List Char → Prop
  | .number, behind => ∀ c ∈ behind.head?, c.isDigit = false
  | .symbol, behind | .keyword, behind | .nil, behind => Delimited behind
  | .openParen, _ | .closeParen, _ | .string, _ | .endOfInput, _ => True

instance (kind : Token.Kind) (behind : List Char) : Decidable (Ends kind behind) :=
  match kind with
  | .number => decidable_of_iff _ List.forall_mem_head?_iff.symm
  | .symbol | .keyword | .nil => decidable_of_iff _ List.forall_mem_head?_iff.symm
  | .openParen | .closeParen | .string | .endOfInput => inferInstanceAs (Decidable True)

/-- A text that no name runs on into ends every token. -/
theorem Delimited.ends {behind : List Char} (h : Delimited behind) (kind : Token.Kind) : Ends kind behind := by
  cases kind with
  | symbol | keyword | nil => exact h
  | number =>
    intro c hc
    exact isDigit_of_not_isSymbolChar (h c hc)
  | openParen | closeParen | string | endOfInput => trivial

/-- A token that ends where a text begins ends where less of the text does. -/
theorem Ends.of_append {kind : Token.Kind} {behind more : List Char} (h : Ends kind (behind ++ more)) :
    Ends kind behind := by
  cases behind with
  | nil => exact delimited_nil.ends kind
  | cons c behind => cases kind <;> exact h

namespace Piece

/-! ## Recognising -/

/-- All of a spelling is recognised if no further character belongs to its class. -/
theorem ofClass_of_all (kind : Token.Kind) {property : Char → Bool} {name behind : List Char}
    (hname : ∀ c ∈ name, property c = true) (hbehind : ∀ c ∈ behind.head?, property c = false) :
    ofClass kind property (name ++ behind) = ⟨kind, name, name, behind⟩ := by
  rw [ofClass, List.takeWhile_run hname hbehind, List.dropWhile_run hname hbehind]

/-- Behind a character of a symbol, the scanner decides between a number and a word. -/
theorem next_of_isSymbolChar {c : Char} (h : isSymbolChar c = true) (text : List Char) :
    next c text =
      if startsNumber (c :: text) then .ok (number (c :: text))
      else if isSymbolStart c then .ok (word (c :: text))
      else .error (.unexpectedChar c) := by
  rw [next, if_neg (ne_of_isSymbolChar h (by decide)), if_neg (ne_of_isSymbolChar h (by decide)),
    if_neg (ne_of_isSymbolChar h (by decide)), if_neg (ne_of_isSymbolChar h (by decide))]

/-- A word ends where no further character of a name comes, and is `nil` if that is all of it. -/
theorem next_word {c : Char} {name behind : List Char} (hstart : isSymbolStart c = true)
    (hchars : ∀ d ∈ c :: name, isSymbolChar d = true) (hnumber : startsNumber (c :: name) = false)
    (hbehind : Delimited behind) :
    next c (name ++ behind) = .ok
      ⟨if c :: name = ['n', 'i', 'l'] then .nil else .symbol, c :: name, c :: name, behind⟩ := by
  have hword := ofClass_of_all .symbol hchars hbehind
  rw [next_of_isSymbolChar (isSymbolChar_of_start hstart), ← List.cons_append, startsNumber_append hbehind, hnumber,
    if_neg (by simp), if_pos hstart, word, hword]
  by_cases hnil : c :: name = ['n', 'i', 'l'] <;> simp [hnil]

/-- A symbol is recognised by its name. -/
theorem next_symbol {c : Char} {name behind : List Char} (h : IsSymbolName (c :: name)) (hbehind : Delimited behind) :
    next c (name ++ behind) = .ok ⟨.symbol, c :: name, c :: name, behind⟩ := by
  obtain ⟨d, rest, heq, hstart⟩ := h.start
  cases heq
  rw [next_word hstart h.chars h.notNumber hbehind, if_neg h.notNil]

theorem next_nil {behind : List Char} (hbehind : Delimited behind) :
    next 'n' ('i' :: 'l' :: behind) = .ok ⟨.nil, ['n', 'i', 'l'], ['n', 'i', 'l'], behind⟩ := by
  have hchars : ['n', 'i', 'l'].all isSymbolChar = true := by decide
  have hword := @next_word 'n' ['i', 'l'] behind (by decide) (List.all_eq_true.1 hchars) (by decide) hbehind
  exact hword

theorem next_keyword {name behind : List Char} (h : ∀ c ∈ name, isSymbolChar c = true) (hbehind : Delimited behind) :
    next ':' (name ++ behind) = .ok ⟨.keyword, name, ':' :: name, behind⟩ := by
  show Except.ok ((ofClass .keyword isSymbolChar (name ++ behind)).behind [':']) = _
  rw [ofClass_of_all _ h hbehind]
  rfl

/-- A numeral is taken as far as its digits go. -/
theorem next_number {c : Char} {text behind : List Char} (h : IsNumeral (c :: text))
    (hend : ∀ d ∈ behind.head?, d.isDigit = false) :
    next c (text ++ behind) = .ok ⟨.number, c :: text, c :: text, behind⟩ := by
  obtain ⟨digits, hne, hdigits, heq | heq⟩ := h
  · subst heq
    have hc := hdigits c List.mem_cons_self
    have hminus : c ≠ '-' := by
      rintro rfl
      revert hc
      decide
    have hstarts : startsNumber (c :: (text ++ behind)) = true := by
      unfold startsNumber
      split <;> simp_all
    have hnumber : number (c :: (text ++ behind)) = ofClass .number Char.isDigit (c :: text ++ behind) := by
      unfold number
      split <;> simp_all
    rw [next_of_isSymbolChar (isSymbolChar_of_isDigit hc), hstarts, if_pos rfl, hnumber, ofClass_of_all _ hdigits hend]
  · cases heq
    obtain ⟨d, digits, rfl⟩ := List.exists_cons_of_ne_nil hne
    have hstarts : startsNumber ('-' :: (d :: digits ++ behind)) = true := hdigits d List.mem_cons_self
    rw [next_of_isSymbolChar (by decide), hstarts, if_pos rfl, number, ofClass_of_all _ hdigits hend]

/-- The inside of a quoted literal is read up to the quote that ends it. -/
theorem spanString_of_quotedBody {body value : List Char} (h : QuotedBody body value) (behind : List Char) :
    spanString (body ++ '"' :: behind) = .ok ⟨.string, value, body ++ ['"'], behind⟩ := by
  induction h with
  | nil => simp [spanString]
  | @plain c body value hquote hbackslash hbody ih =>
    -- The character stands for itself, since it is neither the end of the literal nor the mark of an escape.
    rw [List.cons_append, spanString, ih]
    · rfl
    · exact hquote
    · exact fun hc _ => hbackslash hc
    · exact fun _ _ hc _ => hbackslash hc
  | @escaped letter c body value hescape hbody ih =>
    simp only [List.cons_append, spanString, unescape?_eq_some_iff_mem.2 hescape, ih]
    rfl

theorem next_string {body value : List Char} (h : QuotedBody body value) (behind : List Char) :
    next '"' ((body ++ ['"']) ++ behind) = .ok ⟨.string, value, '"' :: (body ++ ['"']), behind⟩ := by
  rw [next, if_neg (by decide), if_neg (by decide), if_neg (by decide), if_pos rfl, List.append_assoc,
    List.singleton_append, spanString_of_quotedBody h]
  rfl

/-- A numeral begins with a character that may stand in a symbol. -/
theorem exists_cons_of_isNumeral {text : List Char} (h : IsNumeral text) :
    ∃ c rest, text = c :: rest ∧ isSymbolChar c = true := by
  obtain ⟨digits, hne, hdigits, rfl | rfl⟩ := h
  · obtain ⟨c, rest, rfl⟩ := List.exists_cons_of_ne_nil hne
    exact ⟨c, rest, rfl, isSymbolChar_of_isDigit (hdigits c List.mem_cons_self)⟩
  · exact ⟨'-', digits, rfl, by decide⟩

/-- **A spelling is recognised for what it is**, if it ends where the text behind it begins. No spelling begins like
    trivia. -/
theorem next_of_spells {kind : Token.Kind} {lexeme spelling behind : List Char} (h : Spells kind lexeme spelling)
    (hends : Ends kind behind) : ∃ c rest, spelling = c :: rest ∧ isBlank c = false ∧ c ≠ ';' ∧
      next c (rest ++ behind) = .ok ⟨kind, lexeme, spelling, behind⟩ := by
  cases h with
  | openParen => exact ⟨'(', [], rfl, by decide, by decide, rfl⟩
  | closeParen => exact ⟨')', [], rfl, by decide, by decide, rfl⟩
  | symbol hname =>
    obtain ⟨c, rest, rfl, hstart⟩ := hname.start
    have hmark := not_trivia_of_isSymbolChar (isSymbolChar_of_start hstart)
    exact ⟨c, rest, rfl, hmark.1, hmark.2, next_symbol hname hends⟩
  | keyword hname => exact ⟨':', lexeme, rfl, by decide, by decide, next_keyword hname hends⟩
  | string hbody => exact ⟨'"', _, rfl, by decide, by decide, next_string hbody behind⟩
  | number hnumeral =>
    obtain ⟨c, rest, rfl, hchar⟩ := exists_cons_of_isNumeral hnumeral
    have hmark := not_trivia_of_isSymbolChar hchar
    exact ⟨c, rest, rfl, hmark.1, hmark.2, next_number hnumeral hends⟩
  | nil => exact ⟨'n', ['i', 'l'], rfl, by decide, by decide, next_nil hends⟩

/-! ## What is recognised -/

/-- What the scanner takes a token for is settled by its first character, and for a minus sign by the one behind it. -/
theorem next_cases {c : Char} {text : List Char} {piece : Piece} (h : next c text = .ok piece) :
    (c = '(' ∧ piece = ⟨.openParen, ['('], ['('], text⟩) ∨ (c = ')' ∧ piece = ⟨.closeParen, [')'], [')'], text⟩) ∨
      (c = ':' ∧ piece = (ofClass .keyword isSymbolChar text).behind [':']) ∨
      (c = '"' ∧ ∃ inner, spanString text = .ok inner ∧ piece = inner.behind ['"']) ∨
      (startsNumber (c :: text) = true ∧ piece = number (c :: text)) ∨
      (startsNumber (c :: text) = false ∧ isSymbolStart c = true ∧ piece = word (c :: text)) := by
  unfold next at h
  split at h
  · next hc => exact .inl ⟨hc, by cases h; rfl⟩
  split at h
  · next hc => exact .inr (.inl ⟨hc, by cases h; rfl⟩)
  split at h
  · next hc => exact .inr (.inr (.inl ⟨hc, by cases h; rfl⟩))
  split at h
  · next hc =>
    split at h
    · next inner hinner => exact .inr (.inr (.inr (.inl ⟨hc, inner, hinner, by cases h; rfl⟩)))
    · cases h
  split at h
  · next hnumber => exact .inr (.inr (.inr (.inr (.inl ⟨hnumber, by cases h; rfl⟩))))
  split at h
  · next hnumber hstart =>
    exact .inr (.inr (.inr (.inr (.inr ⟨Bool.eq_false_iff.2 hnumber, hstart, by cases h; rfl⟩))))
  · cases h

theorem continuing_eq_ok {value : Char} {spelled : List Char} {read : Except Fault Piece} {piece : Piece}
    (h : spanString.continuing value spelled read = .ok piece) :
    ∃ inner, read = .ok inner ∧ piece = inner.after value spelled := by
  cases read with
  | error fault => cases h
  | ok inner => exact ⟨inner, rfl, by cases h; rfl⟩

/-- What is taken for a quoted literal is one. -/
theorem quotedBody_of_spanString {text : List Char} {piece : Piece} (h : spanString text = .ok piece) :
    piece.kind = .string ∧ ∃ body, piece.spelling = body ++ ['"'] ∧ QuotedBody body piece.lexeme := by
  fun_induction spanString text generalizing piece with
  | case1 => cases h
  | case2 rest =>
    cases h
    exact ⟨rfl, [], rfl, .nil⟩
  | case3 => cases h
  | case4 letter rest _ => cases h
  | case5 letter rest value hvalue ih =>
    obtain ⟨inner, hinner, rfl⟩ := continuing_eq_ok h
    obtain ⟨hkind, body, hspelling, hbody⟩ := ih hinner
    refine ⟨hkind, '\\' :: letter :: body, ?_, .escaped (unescape?_eq_some_iff_mem.1 hvalue) hbody⟩
    rw [after, hspelling]
    rfl
  | case6 c rest hquote hlast hletter ih =>
    have hbackslash : c ≠ '\\' := by
      intro hc
      cases rest with
      | nil => exact hlast hc rfl
      | cons letter rest => exact hletter letter rest hc rfl
    obtain ⟨inner, hinner, rfl⟩ := continuing_eq_ok h
    obtain ⟨hkind, body, hspelling, hbody⟩ := ih hinner
    refine ⟨hkind, c :: body, ?_, .plain hquote hbackslash hbody⟩
    rw [after, hspelling]
    rfl

/-- A word is a symbol or the word for an absent value, and goes as far as there are characters of symbols. -/
theorem spells_word {c : Char} {text : List Char} (hstart : isSymbolStart c = true)
    (hnumber : startsNumber (c :: text) = false) :
    Spells (word (c :: text)).kind (word (c :: text)).lexeme (word (c :: text)).spelling ∧
      Ends (word (c :: text)).kind (word (c :: text)).rest := by
  have hchar := isSymbolChar_of_start hstart
  have htake : (c :: text).takeWhile isSymbolChar = c :: text.takeWhile isSymbolChar := by simp [hchar]
  have hsplit : c :: text.takeWhile isSymbolChar ++ text.dropWhile isSymbolChar = c :: text := by
    rw [List.cons_append, List.takeWhile_append_dropWhile]
  by_cases hnil : (c :: text).takeWhile isSymbolChar = ['n', 'i', 'l']
  · have hword : word (c :: text)
        = ⟨.nil, ['n', 'i', 'l'], ['n', 'i', 'l'], (c :: text).dropWhile isSymbolChar⟩ := by
      simp [word, ofClass, hnil]
    rw [hword]
    exact ⟨.nil, delimited_dropWhile (c :: text)⟩
  · have hword : word (c :: text) = ofClass .symbol isSymbolChar (c :: text) := by simp [word, ofClass, hnil]
    -- The word ends where no character of a symbol follows, so the text behind it settles nothing.
    have hword_number : startsNumber ((c :: text).takeWhile isSymbolChar) = false := by
      rw [htake, ← startsNumber_append (delimited_dropWhile text), hsplit, hnumber]
    have hname : IsSymbolName ((c :: text).takeWhile isSymbolChar) :=
      ⟨⟨c, _, htake, hstart⟩, List.all_eq_true.1 List.all_takeWhile, hnil, hword_number⟩
    rw [hword]
    exact ⟨.symbol hname, delimited_dropWhile (c :: text)⟩

/-- A number has all digits that stand together. -/
theorem spells_number {c : Char} {text : List Char} (h : startsNumber (c :: text) = true) :
    Spells (number (c :: text)).kind (number (c :: text)).lexeme (number (c :: text)).spelling ∧
      Ends (number (c :: text)).kind (number (c :: text)).rest := by
  by_cases hminus : c = '-'
  · subst hminus
    cases text with
    | nil => cases h
    | cons d text =>
      have hd : d.isDigit = true := h
      have hnumeral : IsNumeral ('-' :: (d :: text).takeWhile Char.isDigit) :=
        ⟨_, by simp [hd], List.all_eq_true.1 List.all_takeWhile, .inr rfl⟩
      exact ⟨.number hnumeral, List.head?_dropWhile_eq_false Char.isDigit (d :: text)⟩
  · have hc : c.isDigit = true := by simpa [startsNumber, hminus] using h
    have hnumber : number (c :: text) = ofClass .number Char.isDigit (c :: text) := by simp [number, hminus]
    have hnumeral : IsNumeral ((c :: text).takeWhile Char.isDigit) :=
      ⟨_, by simp [hc], List.all_eq_true.1 List.all_takeWhile, .inl rfl⟩
    rw [hnumber]
    exact ⟨.number hnumeral, List.head?_dropWhile_eq_false Char.isDigit (c :: text)⟩

/-- **What is recognised is a spelling** of the token it is taken for, and it ends where the rest begins. -/
theorem spells_of_next {c : Char} {text : List Char} {piece : Piece} (h : next c text = .ok piece) :
    Spells piece.kind piece.lexeme piece.spelling ∧ Ends piece.kind piece.rest := by
  rcases next_cases h with ⟨-, rfl⟩ | ⟨-, rfl⟩ | ⟨-, rfl⟩ | ⟨-, inner, hinner, rfl⟩ | ⟨hnumber, rfl⟩ |
    ⟨hnumber, hstart, rfl⟩
  · exact ⟨.openParen, trivial⟩
  · exact ⟨.closeParen, trivial⟩
  · exact ⟨.keyword (List.all_eq_true.1 List.all_takeWhile), delimited_dropWhile text⟩
  · obtain ⟨hkind, body, hspelling, hbody⟩ := quotedBody_of_spanString hinner
    rw [behind, hspelling, hkind]
    exact ⟨.string hbody, trivial⟩
  · exact spells_number hnumber
  · exact spells_word hstart hnumber

end Piece

end StyleTree
