import StyleTree.Json.Number

/-!
# `StyleTree.Json.Read` — JSON values from text

A text is split into tokens (`Json.tokens?`) and the tokens are read with the open arrays and objects on a stack
(`Json.parse?`). Nothing is forgiven: no comma before a closing bracket, no leading zero, no bare control in a
string, no text behind the value. Only what has the form of a value and stands for none gets through, as the
value that says so.
-/

namespace StyleTree.Json

/-! ## Strings -/

/-- The character that a backslash and one letter stand for. -/
def shortEscape? : Char → Option Char
  | '"' => some '"'
  | '\\' => some '\\'
  | '/' => some '/'
  | 'b' => some '\x08'
  | 'f' => some '\x0c'
  | 'n' => some '\n'
  | 'r' => some '\r'
  | 't' => some '\t'
  | _ => none

/-- The character of a surrogate pair, if the two units form one. -/
def ofSurrogates? (high low : Nat) : Option Char :=
  if 0xd800 ≤ high ∧ high < 0xdc00 ∧ 0xdc00 ≤ low ∧ low < 0xe000 then
    some (Char.ofNat (0x10000 + (high - 0xd800) * 0x400 + (low - 0xdc00)))
  else none

/-- The character of a unit that stands on its own, which no surrogate does. -/
def ofUnit? (unit : Nat) : Option Char :=
  if 0xd800 ≤ unit ∧ unit < 0xe000 then none else some (Char.ofNat unit)

/-- Reads a string from behind its opening quote; returns it with the text behind its closing quote. There is
    no string if an escape is half of a surrogate pair, but there still is text behind it. -/
def decodeString : List Char → Option (Option (List Char) × List Char)
  | [] => none
  | '"' :: rest => some (some [], rest)
  | '\\' :: 'u' :: a :: b :: c :: d :: rest =>
    match hexValue? [a, b, c, d] with
    | none => none
    | some unit =>
      match ofUnit? unit, rest with
      | some char, rest => adding (some char) (decodeString rest)
      | none, '\\' :: 'u' :: e :: f :: g :: h :: rest =>
        match (hexValue? [e, f, g, h]).bind (ofSurrogates? unit) with
        | some char => adding (some char) (decodeString rest)
        | none => adding none (decodeString ('\\' :: 'u' :: e :: f :: g :: h :: rest))
      | none, rest => adding none (decodeString rest)
  | '\\' :: letter :: rest =>
    match shortEscape? letter with
    | some char => adding (some char) (decodeString rest)
    | none => none
  | c :: rest => if c == '\\' || c.toNat < 0x20 then none else adding (some c) (decodeString rest)
where
  /-- Puts one more character in front of what was read. -/
  adding (c? : Option Char) :
      Option (Option (List Char) × List Char) → Option (Option (List Char) × List Char)
    | some (cs?, rest) => some (c?.bind fun c => cs?.map (c :: ·), rest)
    | none => none

/-! ## Tokens -/

/-- A bracket, a separator, or a whole value that holds no other. -/
inductive Token where
  /-- The beginning of an array. -/
  | openArray
  /-- The end of an array. -/
  | closeArray
  /-- The beginning of an object. -/
  | openObject
  /-- The end of an object. -/
  | closeObject
  /-- What stands between a key and its value. -/
  | colon
  /-- What stands between elements or members. -/
  | comma
  /-- A string, or what is written like one. -/
  | string (s? : Option String)
  /-- A number, a truth value or `null`. -/
  | scalar (value : Json)

/-- Whether the character may stand between tokens. -/
def isSpace (c : Char) : Bool :=
  c == ' ' || c == '\n' || c == '\t' || c == '\r'

/-- Whether the character may stand in a number. -/
def isNumberChar (c : Char) : Bool :=
  c.isDigit || ['-', '+', '.', 'e', 'E'].contains c

/-- The value that a word stands for. -/
def wordValue? (word : List Char) : Option Json :=
  if word = "null".toList then some .null
  else if word = "true".toList then some (.bool true)
  else if word = "false".toList then some (.bool false)
  else none

/-- The token at the start of the text `c :: text`, with the text behind it. -/
def nextToken? (c : Char) (text : List Char) : Option (Token × List Char) :=
  match c with
  | '[' => some (.openArray, text)
  | ']' => some (.closeArray, text)
  | '\x7b' => some (.openObject, text)
  | '\x7d' => some (.closeObject, text)
  | ':' => some (.colon, text)
  | ',' => some (.comma, text)
  | '"' => (decodeString text).map fun (s?, rest) => (.string (s?.map String.ofList), rest)
  | c =>
    if c.isAlpha then
      (wordValue? (c :: text.takeWhile Char.isAlpha)).map fun value =>
        (.scalar value, text.dropWhile Char.isAlpha)
    else
      (numberOf? (c :: text.takeWhile isNumberChar)).map fun value =>
        (.scalar value, text.dropWhile isNumberChar)

theorem decodeString.adding_eq_some {c? : Option Char} {read : Option (Option (List Char) × List Char)}
    {s? : Option (List Char)} {rest : List Char} (h : adding c? read = some (s?, rest)) :
    ∃ s'?, read = some (s'?, rest) := by
  cases read with
  | none => simp [adding] at h
  | some read =>
    simp only [adding, Option.some.injEq, Prod.mk.injEq] at h
    exact ⟨read.1, by rw [← h.2]⟩

/-- What a string leaves behind it is no longer than the text. -/
theorem length_of_decodeString {text rest : List Char} {s? : Option (List Char)}
    (h : decodeString text = some (s?, rest)) : rest.length ≤ text.length := by
  fun_induction decodeString text generalizing s?
  case case1 | case3 | case9 | case10 => cases h
  case case2 => cases h; simp
  -- In each further case the rest is that of a shorter text.
  all_goals
    next ih =>
    obtain ⟨_, h⟩ := decodeString.adding_eq_some h
    have := ih h
    simp only [List.length_cons] at this ⊢
    omega

/-- A token leaves no more text than stood behind its first character. -/
theorem length_of_nextToken? {c : Char} {text rest : List Char} {token : Token}
    (h : nextToken? c text = some (token, rest)) : rest.length ≤ text.length := by
  unfold nextToken? at h
  split at h
  case h_7 =>
    obtain ⟨⟨s?, rest'⟩, hs, heq⟩ := Option.map_eq_some_iff.1 h
    cases heq
    exact length_of_decodeString hs
  case h_8 =>
    split at h
    · obtain ⟨_, _, heq⟩ := Option.map_eq_some_iff.1 h
      cases heq
      exact (List.dropWhile_sublist _).length_le
    · obtain ⟨_, _, heq⟩ := Option.map_eq_some_iff.1 h
      cases heq
      exact (List.dropWhile_sublist _).length_le
  all_goals
    cases h
    exact Nat.le_refl _

/-- The tokens of a text. -/
def tokens? : List Char → Option (List Token)
  | [] => some []
  | c :: text =>
    if isSpace c then tokens? text
    else
      match _ : nextToken? c text with
      | none => none
      | some (token, rest) =>
        match tokens? rest with
        | none => none
        | some tokens => some (token :: tokens)
termination_by text => text.length
decreasing_by
  · simp
  · exact Nat.lt_succ_of_le (length_of_nextToken? ‹nextToken? c text = _›)

/-! ## Values -/

/-- An array or object that has not been closed. An object with a key that stands for no text will be no
    object, so its members are forgotten. -/
inductive Open where
  /-- An array with its elements so far, the latest first. -/
  | array (reversed : List Json)
  /-- An object with its members so far, the latest first. -/
  | object (reversed? : Option (List (String × Json)))
  /-- An object that waits for the value of a key. -/
  | member (reversed? : Option (List (String × Json))) (key? : Option String)

/-- What may come next. -/
inductive Wanted where
  /-- A value. -/
  | value
  /-- A value, or the end of an array that is still empty. -/
  | firstElement
  /-- A key. -/
  | key
  /-- A key, or the end of an object that is still empty. -/
  | firstKey
  /-- The colon behind a key. -/
  | colon (key? : Option String)
  /-- A comma, or the end of the innermost array or object. -/
  | separator

/-- What a token does to the reading. -/
inductive Step where
  /-- The reading goes on inside these arrays and objects, the innermost first. -/
  | inside (stack : List Open) (wanted : Wanted)
  /-- The value is complete. -/
  | complete (value : Json)
  /-- The token is out of place. -/
  | fail

/-- The value of a string, or of what is written like one. -/
def ofString? : Option String → Json
  | some s => .string s
  | none => .invalid

/-- The object with the given members, the latest first. -/
def ofReversed? : Option (List (String × Json)) → Json
  | some reversed => .object reversed.reverse
  | none => .invalid

/-- The members with one more. -/
def addMember (key? : Option String) (value : Json) (reversed? : Option (List (String × Json))) :
    Option (List (String × Json)) :=
  key?.bind fun key => reversed?.map ((key, value) :: ·)

namespace Step

/-- A value is complete: the array or object around it takes it, or it is the result. -/
def deliver (value : Json) : List Open → Step
  | [] => .complete value
  | .array reversed :: outer => .inside (.array (value :: reversed) :: outer) .separator
  | .member reversed? key? :: outer =>
    .inside (.object (addMember key? value reversed?) :: outer) .separator
  | .object _ :: _ => .fail

/-- The innermost array or object ends. -/
def close : List Open → Step
  | .array reversed :: outer => deliver (.array reversed.reverse) outer
  | .object reversed? :: outer => deliver (ofReversed? reversed?) outer
  | _ => .fail

/-- What the token does. -/
def ofToken (stack : List Open) : Wanted → Token → Step
  | .value, .scalar value | .firstElement, .scalar value => deliver value stack
  | .value, .string s? | .firstElement, .string s? => deliver (ofString? s?) stack
  | .value, .openArray | .firstElement, .openArray => .inside (.array [] :: stack) .firstElement
  | .value, .openObject | .firstElement, .openObject => .inside (.object (some []) :: stack) .firstKey
  | .firstElement, .closeArray => close stack
  | .key, .string key? | .firstKey, .string key? => .inside stack (.colon key?)
  | .firstKey, .closeObject => close stack
  | .colon key?, .colon =>
    match stack with
    | .object reversed? :: outer => .inside (.member reversed? key? :: outer) .value
    | _ => .fail
  | .separator, token =>
    match stack, token with
    | .array _ :: _, .comma => .inside stack .value
    | .array _ :: _, .closeArray => close stack
    | .object _ :: _, .comma => .inside stack .key
    | .object _ :: _, .closeObject => close stack
    | _, _ => .fail
  | _, _ => .fail

end Step

/-- Reads on inside the given arrays and objects, to the end of the tokens. -/
def readInside (stack : List Open) (wanted : Wanted) : List Token → Option Json
  | [] => none
  | token :: tokens =>
    match Step.ofToken stack wanted token with
    | .inside stack wanted => readInside stack wanted tokens
    | .complete value => if tokens.isEmpty then some value else none
    | .fail => none

/-- The value that a text is, if it is one. -/
def parse? (text : String) : Option Json :=
  (tokens? text.toList).bind (readInside [] .value)

end StyleTree.Json
