/-!
# `StyleTree.Files.Pattern` — name patterns

A pattern names files by wildcards: a question mark for one character, a star for any run of characters, a
bracketed class for one character of that class or, after an exclamation mark, one outside it. Two stars as a
whole part of a path stand for directories at any depth.

`Pattern.parse` takes a closing bracket directly behind the opening one for an ordinary member of the class, and
refuses what is no pattern with a `PatternError`. A text misses a pattern by a character that it has, or by ending
before the pattern does. `Pattern.compare` keeps the two apart; `Pattern.fits` only asks whether a whole name
fits.
-/

namespace StyleTree

/-- A range of characters; a single character is a range of one. -/
abbrev CharRange := Char × Char

/-- An element of a pattern. -/
inductive Wildcard where
  /-- The character itself. -/
  | char (c : Char)
  /-- Any one character. -/
  | anyChar
  /-- Any run of characters, also the empty one. -/
  | anyRun
  /-- Directories at any depth. -/
  | anyDepth
  /-- One character in one of the ranges. -/
  | within (ranges : List CharRange)
  /-- One character in none of the ranges. -/
  | except (ranges : List CharRange)
deriving DecidableEq, Repr

/-- Whether a character lies in one of the ranges. -/
def inRanges (ranges : List CharRange) (c : Char) : Bool :=
  ranges.any fun range => range.1 ≤ c && c ≤ range.2

/-- Whether the element stands for the character, alone or together with others. -/
def Wildcard.allows : Wildcard → Char → Bool
  | .char c, d => c == d
  | .anyChar, _ | .anyRun, _ | .anyDepth, _ => true
  | .within ranges, d => inRanges ranges d
  | .except ranges, d => !inRanges ranges d

/-- A pattern for one name, or for a path. -/
abbrev Pattern := List Wildcard

/-- Why a text is no pattern. -/
inductive PatternError.Cause where
  /-- There are more than two stars in a row. -/
  | wildcards
  /-- Two stars are not a whole part of the path. -/
  | recursiveWildcards
  /-- A class of characters has no end. -/
  | invalidRange
deriving DecidableEq, Repr

/-- A text that is no pattern. -/
structure PatternError where
  /-- The number of characters before the fault. -/
  position : Nat
  /-- What is wrong. -/
  cause : PatternError.Cause
deriving DecidableEq, Repr

/-- The error in words. -/
def PatternError.message (error : PatternError) : String :=
  let what := match error.cause with
    | .wildcards => "wildcards are either regular `*` or recursive `**`"
    | .recursiveWildcards => "recursive wildcards must form a single path component"
    | .invalidRange => "invalid range pattern"
  s!"Pattern syntax error near position {error.position}: {what}"

namespace Pattern

/-! ## Reading -/

/-- The ranges of a class: two characters with a hyphen between them, or one character. -/
def ranges : List Char → List CharRange
  | low :: '-' :: high :: rest => (low, high) :: ranges rest
  | c :: rest => (c, c) :: ranges rest
  | [] => []

/-- The members of a class and the text behind its closing bracket. The first member may be a closing
    bracket itself. -/
def splitClass? : List Char → Option (List Char × List Char)
  | [] => none
  | first :: text =>
    match text.dropWhile (· != ']') with
    | [] => none
    | _ :: rest => some (first :: text.takeWhile (· != ']'), rest)

/-- A class, from behind its opening bracket, with the number of characters up to its closing bracket and the
    text behind that. -/
def class? : List Char → Option (Wildcard × Nat × List Char)
  | '!' :: text => (splitClass? text).map fun (members, rest) =>
    (.except (ranges members), members.length + 2, rest)
  | text => (splitClass? text).map fun (members, rest) =>
    (.within (ranges members), members.length + 1, rest)

/-- What a run of stars at the given position stands for. `before` is the character in front of it, and
    `behind` the text behind it. -/
def starRun (position count : Nat) (before : Option Char) (behind : List Char) :
    Except PatternError Wildcard :=
  if count > 2 then .error ⟨position + 2, .wildcards⟩
  else if count < 2 then .ok .anyRun
  else if before ≠ none ∧ before ≠ some '/' then .error ⟨position - 1, .recursiveWildcards⟩
  else if behind = [] ∨ behind.head? = some '/' then .ok .anyDepth
  else .error ⟨position + 2, .recursiveWildcards⟩

/-- The text behind a run of stars, where `wildcard` is what they stand for. The slash behind two stars
    belongs to them. -/
def behindStars (wildcard : Wildcard) (behind : List Char) : List Char :=
  if wildcard = .anyDepth then behind.drop 1 else behind

theorem length_behindStars (wildcard : Wildcard) (text : List Char) (property : Char → Bool) :
    (behindStars wildcard (text.dropWhile property)).length ≤ text.length := by
  have := (List.dropWhile_sublist (l := text) property).length_le
  unfold behindStars
  split
  · rw [List.length_drop]
    omega
  · exact this

theorem length_splitClass? {text members rest : List Char}
    (h : splitClass? text = some (members, rest)) : rest.length ≤ text.length := by
  cases text with
  | nil => cases h
  | cons first text =>
    simp only [splitClass?] at h
    split at h
    · cases h
    · next heq =>
      cases h
      have := (List.dropWhile_sublist (l := text) (· != ']')).length_le
      rw [heq, List.length_cons] at this
      rw [List.length_cons]
      omega

/-- A class leaves no more text than stood behind its opening bracket. -/
theorem length_class? {text rest : List Char} {wildcard : Wildcard} {width : Nat}
    (h : class? text = some (wildcard, width, rest)) : rest.length ≤ text.length := by
  unfold class? at h
  split at h
  · obtain ⟨_, hsplit, heq⟩ := Option.map_eq_some_iff.1 h
    cases heq
    exact Nat.le_succ_of_le (length_splitClass? hsplit)
  · obtain ⟨_, hsplit, heq⟩ := Option.map_eq_some_iff.1 h
    cases heq
    exact length_splitClass? hsplit

/-- Reads a pattern from the given position on. `before` is the character in front of it. -/
def parseFrom (position : Nat) (before : Option Char) : List Char → Except PatternError Pattern
  | [] => .ok []
  | '?' :: rest => (parseFrom (position + 1) (some '?') rest).map (.anyChar :: ·)
  | '*' :: rest =>
    let stars := (rest.takeWhile (· == '*')).length + 1
    match starRun position stars before (rest.dropWhile (· == '*')) with
    | .error error => .error error
    | .ok wildcard =>
      let (last, width) := if wildcard = .anyDepth then ('/', stars + 1) else ('*', stars)
      (parseFrom (position + width) (some last) (behindStars wildcard (rest.dropWhile (· == '*')))).map
        (wildcard :: ·)
  | '[' :: rest =>
    match _ : class? rest with
    | none => .error ⟨position, .invalidRange⟩
    | some (wildcard, width, behind) =>
      (parseFrom (position + width + 1) (some ']') behind).map (wildcard :: ·)
  | c :: rest => (parseFrom (position + 1) (some c) rest).map (.char c :: ·)
termination_by text => text.length
decreasing_by
  · simp
  · exact Nat.lt_succ_of_le (length_behindStars ..)
  · exact Nat.lt_succ_of_le (length_class? ‹class? rest = _›)
  · simp

/-- Reads a pattern. -/
def parse (text : String) : Except PatternError Pattern :=
  parseFrom 0 none text.toList

/-- The name that a pattern without wildcards is. -/
def literal? (pattern : Pattern) : Option String :=
  (pattern.mapM char?).map String.ofList
where
  /-- The character that an element stands for, if it stands for just one. -/
  char? : Wildcard → Option Char
    | .char c => some c
    | _ => none

/-! ## Matching -/

/-- How a text compares with a pattern. -/
inductive Fit where
  /-- It fits. -/
  | fits
  /-- It has a character, or one more character, where the pattern does not allow it. -/
  | differs
  /-- It ends before the pattern does. -/
  | ends
deriving DecidableEq, Repr

/-- Compares the text, then the text without its first character and so on, until the outcome is not that a
    character differs. A text that ends too early does so without its first characters as well, so what stands
    behind a run is compared no further then: the time stays within the product of both lengths. -/
def compareEnds (compare : List Char → Fit) : List Char → Fit
  | [] => compare []
  | c :: text =>
    match compare (c :: text) with
    | .differs => compareEnds compare text
    | fit => fit

/-- Compares the characters of a name with the pattern. -/
def compare : Pattern → List Char → Fit
  | [], [] => .fits
  | [], _ :: _ => .differs
  | .anyRun :: pattern, text => compareEnds (compare pattern) text
  | .anyDepth :: pattern, text => compareEnds (compare pattern) text
  | _ :: _, [] => .ends
  | element :: pattern, c :: text => if element.allows c then compare pattern text else .differs

/-- Whether a name fits the pattern. -/
def fits (pattern : Pattern) (name : String) : Bool :=
  compare pattern name.toList = .fits

end Pattern

end StyleTree
