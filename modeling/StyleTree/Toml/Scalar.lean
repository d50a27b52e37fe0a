import StyleTree.Text.Basic

/-!
# `StyleTree.Toml.Scalar` — the values of a settings file

A settings file is a TOML document in which keys have strings, whole numbers and truth values. A key may also
have a table, in any of the ways that TOML has for writing one, but only to name a choice: nothing in such a
table has a value that is not empty.

A string stands between single quotes, where every character means itself, or between double quotes, where a
backslash begins an escape; with three quotes of either kind it may have several lines. Whole numbers have four
bases. What is left behind a string is shorter than the text it was read from (`length_basicBody`,
`length_literalBody`), so that reading ends.
-/

namespace StyleTree.Toml

/-! ## Values -/

/-- A value of a setting. -/
inductive Value where
  /-- A string. -/
  | string (s : String)
  /-- A whole number. -/
  | integer (n : Int)
  /-- A truth value. -/
  | boolean (b : Bool)
  /-- A table or an array with nothing in it. -/
  | empty
  /-- A table in which one key has a value with nothing in it. -/
  | choice (key : String)
deriving DecidableEq, Repr

/-- A value with the keys that lead to it. -/
structure Entry where
  /-- The keys, from the outside in. -/
  path : List String
  /-- The value. -/
  value : Value
deriving DecidableEq, Repr

/-- What stands behind the header of a table. -/
structure Section where
  /-- The keys that lead to the table. -/
  header : List String
  /-- What the table holds. -/
  entries : List Entry
deriving DecidableEq, Repr

/-- A document. -/
structure Document where
  /-- The entries before the first header. -/
  entries : List Entry
  /-- The headers with their entries. -/
  sections : List Section
deriving DecidableEq, Repr

/-! ## Characters -/

/-- Whether the character separates words on a line. -/
def isGap (c : Char) : Bool :=
  c == ' ' || c == '\t'

/-- Whether the character may stand for itself in a string or a comment: any but the controls, of which
    only the tab is allowed. -/
def isPlain (c : Char) : Bool :=
  c == '\t' || (0x20 ≤ c.toNat && c.toNat != 0x7f)

/-- Whether the character may stand in a key without quotes. -/
def isBareKeyChar (c : Char) : Bool :=
  c.isAlphanum || c == '_' || c == '-'

/-! ## Line ends -/

/-- The text with every line end written as a line feed; fails at a carriage return that ends no line. -/
def unifyLineEnds : List Char → Option (List Char)
  | [] => some []
  | '\r' :: '\n' :: text => (unifyLineEnds text).map ('\n' :: ·)
  | c :: text => if c == '\r' then none else (unifyLineEnds text).map (c :: ·)

/-! ## Strings -/

/-- The character that a backslash and one letter stand for. -/
def shortEscape? : Char → Option Char
  | '"' => some '"'
  | '\\' => some '\\'
  | 'b' => some '\x08'
  | 'f' => some '\x0c'
  | 'n' => some '\n'
  | 'r' => some '\r'
  | 't' => some '\t'
  | _ => none

/-- The character of a code point written in hexadecimal digits. -/
def codePoint? (digits : List Char) : Option Char := do
  let n ← hexValue? digits
  if n.isValidChar then some (Char.ofNat n) else none

/-- Puts one more character in front of what was read. -/
def adding (c : Char) : Option (List Char × List Char) → Option (List Char × List Char)
  | some (cs, rest) => some (c :: cs, rest)
  | none => none

/-- The end of a string of several lines, behind its three quotes: up to two further quotes are the last
    characters of the string. -/
def extraQuotes (quote : Char) : List Char → List Char × List Char
  | q₁ :: q₂ :: rest =>
    if q₁ == quote && q₂ == quote then ([quote, quote], rest)
    else if q₁ == quote then ([quote], q₂ :: rest)
    else ([], q₁ :: q₂ :: rest)
  | [q] => if q == quote then ([quote], []) else ([], [q])
  | [] => ([], [])

/-- Reads a string with escapes from behind its opening quotes. A string of several lines may break a line
    with a backslash: then the line end and all blanks and line ends behind it are left out, which is what
    `trimming` stands for. -/
def basicBody (multiline trimming : Bool) : List Char → Option (List Char × List Char)
  | [] => none
  | c :: text =>
    if trimming && (isGap c || c == '\n') then basicBody multiline true text
    else
      match c, text with
      | '"', text =>
        match multiline, text with
        | false, text => some ([], text)
        | true, '"' :: '"' :: rest => some (extraQuotes '"' rest)
        | true, text => adding '"' (basicBody multiline false text)
      | '\\', 'u' :: a :: b :: c :: d :: text =>
        match codePoint? [a, b, c, d] with
        | some char => adding char (basicBody multiline false text)
        | none => none
      | '\\', 'U' :: a :: b :: c :: d :: e :: f :: g :: h :: text =>
        match codePoint? [a, b, c, d, e, f, g, h] with
        | some char => adding char (basicBody multiline false text)
        | none => none
      | '\\', letter :: text =>
        match shortEscape? letter with
        | some char => adding char (basicBody multiline false text)
        | none =>
          if multiline && ((letter :: text).dropWhile isGap).head? == some '\n' then
            basicBody multiline true text
          else none
      | c, text =>
        if c != '\\' && (isPlain c || (multiline && c == '\n')) then
          adding c (basicBody multiline false text)
        else none

/-- Reads a string without escapes from behind its opening quotes. -/
def literalBody (multiline : Bool) : List Char → Option (List Char × List Char)
  | [] => none
  | c :: text =>
    if c == '\'' then
      match multiline, text with
      | false, text => some ([], text)
      | true, '\'' :: '\'' :: rest => some (extraQuotes '\'' rest)
      | true, text => adding c (literalBody multiline text)
    else if isPlain c || (multiline && c == '\n') then adding c (literalBody multiline text)
    else none

/-- A line end directly behind the opening quotes is not part of a string of several lines. -/
def dropFirstLineEnd : List Char → List Char
  | '\n' :: text => text
  | text => text

/-! ### What is left behind a string -/

/-- A character can only be added to what was read. -/
theorem adding_eq_some {c : Char} {read : Option (List Char × List Char)} {cs rest : List Char}
    (h : adding c read = some (cs, rest)) : ∃ cs', read = some (cs', rest) := by
  unfold adding at h
  split at h
  · cases h
    exact ⟨_, rfl⟩
  · cases h

theorem length_extraQuotes (quote : Char) (text : List Char) :
    (extraQuotes quote text).2.length ≤ text.length := by
  fun_cases extraQuotes quote text
  case case1 =>
    simp only [List.length_cons]
    omega
  all_goals simp

/-- Inside double quotes the closing quotes are taken, and maybe more, so less text is left than there was. -/
theorem length_basicBody {multiline trimming : Bool} {text cs rest : List Char}
    (h : basicBody multiline trimming text = some (cs, rest)) : rest.length < text.length := by
  fun_induction basicBody multiline trimming text generalizing cs <;>
    simp only [List.length_cons, List.length_nil] <;> grind [adding_eq_some, length_extraQuotes]

/-- Inside single quotes as well. -/
theorem length_literalBody {multiline : Bool} {text cs rest : List Char}
    (h : literalBody multiline text = some (cs, rest)) : rest.length < text.length := by
  fun_induction literalBody multiline text generalizing cs <;>
    grind [adding_eq_some, length_extraQuotes]

theorem length_dropFirstLineEnd (text : List Char) : (dropFirstLineEnd text).length ≤ text.length := by
  fun_cases dropFirstLineEnd text <;> simp

/-! ## Scalars -/

/-- The digits of a number without the single underscores that may stand between them. -/
def digitRun? (isDigit : Char → Bool) : List Char → Option (List Char)
  | [] => none
  | c :: text =>
    if isDigit c then
      match text with
      | [] => some [c]
      | '_' :: text => (digitRun? isDigit text).map (c :: ·)
      | text => (digitRun? isDigit text).map (c :: ·)
    else none

/-- A whole number in decimal, without leading zeros. -/
def decimal? (text : List Char) : Option Nat := do
  let digits ← digitRun? Char.isDigit text
  if digits.head? == some '0' && digits != ['0'] then none
  else some (Nat.ofDigitChars 10 digits 0)

/-- A whole number in the given base, of at most sixteen. -/
def based? (base : Nat) (text : List Char) : Option Nat := do
  let digits ← digitRun? (fun c => (hexDigit? c).any (· < base)) text
  return (digits.filterMap hexDigit?).foldl (fun n d => n * base + d) 0

/-- A whole number of 64 bits. Only decimal numbers have signs. -/
def integer? (text : List Char) : Option Int := do
  let n : Int ← match text with
    | '0' :: 'x' :: digits => based? 16 digits
    | '0' :: 'o' :: digits => based? 8 digits
    | '0' :: 'b' :: digits => based? 2 digits
    | '+' :: digits => decimal? digits
    | '-' :: digits => (decimal? digits).map fun n => -(n : Int)
    | digits => decimal? digits
  if -(Int.pow 2 63) ≤ n ∧ n < Int.pow 2 63 then some n else none

/-- A truth value or a whole number. -/
def scalar? (word : List Char) : Option Value :=
  if word = "true".toList then some (.boolean true)
  else if word = "false".toList then some (.boolean false)
  else (integer? word).map .integer

/-- Whether the character may stand in a truth value or a number. -/
def isScalarChar (c : Char) : Bool :=
  c.isAlphanum || c == '_' || c == '+' || c == '-'

end StyleTree.Toml
