import StyleTree.Proofs.Json.Scalar
import StyleTree.Proofs.Prelude

/-!
# `Proofs.Json.RoundTrip` — a written value reads back

Whatever the layout, the text of a value has the tokens of the value (`tokens?_write`): what stands between them is
space, and no number or word runs on into what follows (`Ended`). A reader takes the tokens of a value to the value,
inside any open arrays and objects (`readInside_toTokens`). Both are proved by recursion on the value, and the second
needs to know what a reader does after each of its steps (`proceed`).

Not every value can be written so that it reads back. Those that can are `Json.Spellable`, and for them `parse?_write`
puts the two halves together.
-/

namespace StyleTree.Json

/-! ## Values that can be written -/

mutual

/-- A value that reads as itself where it is written: whole numbers fit a machine word, any other number is spelled like
    one, and everything stands for something. -/
def Spellable : Json → Prop
  | .natural n => n < wordBound
  | .numeral literal => numberOf? literal.toList = some (.numeral literal)
  | .array elements => ElementsSpellable elements
  | .object members => MembersSpellable members
  | .invalid => False
  | .null | .bool _ | .string _ => True

/-- Such values as the elements of an array. -/
def ElementsSpellable : List Json → Prop
  | [] => True
  | value :: values => value.Spellable ∧ ElementsSpellable values

/-- Such values in an object. -/
def MembersSpellable : List (String × Json) → Prop
  | [] => True
  | (_, value) :: members => value.Spellable ∧ MembersSpellable members

end

theorem elementsSpellable_iff {elements : List Json} :
    ElementsSpellable elements ↔ ∀ value ∈ elements, value.Spellable := by
  induction elements with
  | nil => simp [ElementsSpellable]
  | cons value values ih => rw [ElementsSpellable, ih, List.forall_mem_cons]

theorem membersSpellable_iff {members : List (String × Json)} :
    MembersSpellable members ↔ ∀ m ∈ members, m.2.Spellable := by
  induction members with
  | nil => simp [MembersSpellable]
  | cons m members ih => rw [MembersSpellable, ih, List.forall_mem_cons]

mutual

/-- The tokens of a value. -/
def toTokens : Json → List Token
  | .array elements => .openArray :: elementTokens true elements
  | .object members => .openObject :: memberTokens true members
  | .string s => [.string (some s)]
  | value => [.scalar value]

/-- The tokens of the elements left of an array, and of its closing bracket. The flag says whether there has been no
    element yet. -/
def elementTokens (first : Bool) : List Json → List Token
  | [] => [.closeArray]
  | value :: values => (if first then [] else [.comma]) ++ (value.toTokens ++ elementTokens false values)

/-- The tokens of the members left of an object, and of its closing bracket. -/
def memberTokens (first : Bool) : List (String × Json) → List Token
  | [] => [.closeObject]
  | (key, value) :: members => (if first then [] else [.comma])
      ++ (.string (some key) :: .colon :: (value.toTokens ++ memberTokens false members))

end

/-! ## Single tokens -/

/-- A text that neither a word nor a number runs on into. -/
def Ended (text : List Char) : Prop :=
  ∀ c ∈ text.head?, c.isAlpha = false ∧ isNumberChar c = false

section Tokens

variable {c : Char} {text behind : List Char}

theorem tokens?_nil : tokens? [] = some [] := by
  rw [tokens?]

/-- Space in front of a text makes no token. -/
theorem tokens?_space (h : isSpace c = true) (text : List Char) : tokens? (c :: text) = tokens? text := by
  rw [tokens?, if_pos h]

theorem tokens?_spaces {gap : List Char} (h : ∀ c ∈ gap, isSpace c = true) (text : List Char) :
    tokens? (gap ++ text) = tokens? text := by
  induction gap with
  | nil => rfl
  | cons c gap ih =>
    rw [List.cons_append, tokens?_space (h c List.mem_cons_self), ih fun d hd => h d (List.mem_cons_of_mem _ hd)]

/-- A text that begins with a token has that token and then those of the rest. -/
theorem tokens?_token {token : Token} {rest : List Char} (hc : isSpace c = false)
    (h : nextToken? c text = some (token, rest)) : tokens? (c :: text) = (tokens? rest).map (token :: ·) := by
  rw [tokens?, if_neg (by simp [hc])]
  split
  · next hnone => rw [h] at hnone; cases hnone
  · next token' rest' hsome =>
    rw [h] at hsome
    cases hsome
    cases tokens? rest <;> rfl

/-- The characters with a meaning of their own, and those that may stand between tokens. -/
def marks : List Char :=
  ['[', ']', '\x7b', '\x7d', ':', ',', '"', ' ', '\n', '\t', '\r']

/-- A character that is no mark begins a word or a number. -/
theorem tokens?_scalar {value : Json} {run : List Char} (hc : c ∉ marks) (hbehind : Ended behind)
    (h : (c.isAlpha = true ∧ (∀ d ∈ run, d.isAlpha = true) ∧ wordValue? (c :: run) = some value) ∨
      (c.isAlpha = false ∧ (∀ d ∈ run, isNumberChar d = true) ∧ numberOf? (c :: run) = some value)) :
    tokens? (c :: run ++ behind) = (tokens? behind).map (.scalar value :: ·) := by
  have hspace : isSpace c = false := by
    simp only [marks, List.mem_cons, List.not_mem_nil, or_false, not_or] at hc
    simp [isSpace, hc]
  rw [List.cons_append]
  refine tokens?_token hspace ?_
  unfold nextToken?
  split
  case h_8 =>
    rcases h with ⟨halpha, hrun, hvalue⟩ | ⟨halpha, hrun, hvalue⟩
    · have hstop := fun d hd => (hbehind d hd).1
      rw [if_pos halpha, List.takeWhile_run hrun hstop, List.dropWhile_run hrun hstop, hvalue]
      rfl
    · have hstop := fun d hd => (hbehind d hd).2
      rw [if_neg (by simp [halpha]), List.takeWhile_run hrun hstop, List.dropWhile_run hrun hstop, hvalue]
      rfl
  all_goals exact absurd hc (by decide)

/-- A character is none of some marks if it has a property that no mark has. -/
theorem not_mem_marks {property : Char → Bool} (h : property c = true) (hmarks : marks.all (!property ·) = true) :
    c ∉ marks := by
  intro hmem
  have hc := List.all_eq_true.1 hmarks c hmem
  rw [h] at hc
  cases hc

/-- A word is read as its value. -/
theorem tokens?_word {value : Json} {run : List Char} (hword : ∀ d ∈ c :: run, d.isAlpha = true)
    (hvalue : wordValue? (c :: run) = some value) (hbehind : Ended behind) :
    tokens? (c :: run ++ behind) = (tokens? behind).map (.scalar value :: ·) := by
  obtain ⟨halpha, hrun⟩ := List.forall_mem_cons.1 hword
  exact tokens?_scalar (not_mem_marks halpha (by decide)) hbehind (.inl ⟨halpha, hrun, hvalue⟩)

/-- A number is read as its value. -/
theorem tokens?_number {value : Json} (h : numberOf? text = some value) (hbehind : Ended behind) :
    tokens? (text ++ behind) = (tokens? behind).map (.scalar value :: ·) := by
  obtain ⟨c, run, rfl, hc, hchars⟩ := exists_cons_of_numberOf? h
  obtain ⟨hchar, hrun⟩ := List.forall_mem_cons.1 hchars
  have halpha : c.isAlpha = false := by
    rcases hc with rfl | hdigit
    · decide
    · obtain ⟨hlow, hhigh⟩ := Char.isDigit_iff_toNat.1 hdigit
      have hdigits : ∀ code ∈ List.range' '0'.toNat 10, (Char.ofNat code).isAlpha = false := by decide
      have hcode := hdigits c.toNat (List.mem_range'_1.2 ⟨hlow, Nat.lt_succ_of_le hhigh⟩)
      rwa [Char.ofNat_toNat] at hcode
  exact tokens?_scalar (not_mem_marks hchar (by decide)) hbehind (.inr ⟨halpha, hrun, h⟩)

/-- A string is read as its text. -/
theorem tokens?_string (s : String) (behind : List Char) :
    tokens? (encodeString s ++ behind) = (tokens? behind).map (.string (some s) :: ·) := by
  have hnext : nextToken? '"' (s.toList.flatMap encodeChar ++ '"' :: behind) = some (.string (some s), behind) := by
    show (decodeString _).map _ = _
    rw [decodeString_encode]
    simp
  rw [encodeString, List.cons_append, List.cons_append, List.append_assoc, List.singleton_append]
  exact tokens?_token (by decide) hnext

end Tokens

/-! ## The tokens of a text -/

/-- A layout whose blanks and line breaks are such. -/
structure Spacing.Blank (spacing : Spacing) : Prop where
  lead : ∀ depth, ∀ c ∈ spacing.lead depth, isSpace c = true
  behindColon : ∀ c ∈ spacing.behindColon, isSpace c = true

theorem Spacing.blank_lines : Spacing.lines.Blank where
  lead depth c hc := by
    rcases List.mem_cons.1 hc with rfl | hc
    · decide
    · rw [List.eq_of_mem_replicate hc]
      decide
  behindColon c hc := by
    rw [List.mem_singleton.1 hc]
    decide

theorem ended_of_isSpace {c : Char} (h : isSpace c = true) : c.isAlpha = false ∧ isNumberChar c = false := by
  simp only [isSpace, Bool.or_eq_true, beq_iff_eq] at h
  rcases h with ((rfl | rfl) | rfl) | rfl <;> decide

/-- Space ends a word or a number, and so does what stands behind it. -/
theorem ended_append {gap text : List Char} (hgap : ∀ c ∈ gap, isSpace c = true) (h : Ended text) :
    Ended (gap ++ text) := by
  cases gap with
  | nil => exact h
  | cons c gap =>
    intro d hd
    cases hd
    exact ended_of_isSpace (hgap c List.mem_cons_self)

/-- Where neither a letter nor a character of a number comes next, words and numbers have ended. -/
theorem ended_cons {c : Char} {text : List Char} (halpha : c.isAlpha = false) (hnumber : isNumberChar c = false) :
    Ended (c :: text) := by
  intro d hd
  cases hd
  exact ⟨halpha, hnumber⟩

section Layout

variable {spacing : Spacing} (hspacing : spacing.Blank)
include hspacing

/-- Nothing runs on into what is left of an array. -/
theorem ended_writeElements (depth : Nat) (elements : List Json) (behind : List Char) :
    Ended (writeElements spacing depth false elements behind) := by
  cases elements with
  | nil => exact ended_append (hspacing.lead depth) (ended_cons (by decide) (by decide))
  | cons value values => exact ended_cons (by decide) (by decide)

/-- Nothing runs on into what is left of an object. -/
theorem ended_writeMembers (depth : Nat) (members : List (String × Json)) (behind : List Char) :
    Ended (writeMembers spacing depth false members behind) := by
  cases members with
  | nil => exact ended_append (hspacing.lead depth) (ended_cons (by decide) (by decide))
  | cons member members => exact ended_cons (by decide) (by decide)

/-- What stands before an element is a comma, unless it is the first one, and space. -/
theorem tokens?_separator (depth : Nat) (first : Bool) (text : List Char) :
    tokens? (spacing.separator depth first ++ text) = (tokens? text).map ((if first then [] else [.comma]) ++ ·) := by
  cases first with
  | true =>
    show tokens? (spacing.lead depth ++ text) = _
    rw [tokens?_spaces (hspacing.lead depth)]
    simp
  | false =>
    show tokens? (',' :: (spacing.lead depth ++ text)) = _
    rw [tokens?_token (by decide) rfl, tokens?_spaces (hspacing.lead depth)]
    rfl

theorem tokens?_ending (depth : Nat) (empty : Bool) (text : List Char) :
    tokens? (spacing.ending depth empty ++ text) = tokens? text := by
  cases empty with
  | true => rfl
  | false => exact tokens?_spaces (hspacing.lead depth) text

/-- In front of the value of a member stand the key and a colon, in either layout. -/
theorem tokens?_memberKey (key : String) (text : List Char) :
    tokens? (memberKey spacing key ++ text) = (tokens? text).map (.string (some key) :: .colon :: ·) := by
  rw [memberKey, List.append_assoc, List.cons_append, tokens?_string, tokens?_token (by decide) rfl,
    tokens?_spaces hspacing.behindColon]
  cases tokens? text <;> rfl

end Layout

section Values

variable {spacing : Spacing}

mutual

/-- **The text of a value has the tokens of the value**, if what stands behind it is no part of it. -/
theorem tokens?_write (hspacing : spacing.Blank) (depth : Nat) : ∀ {value : Json}, value.Spellable →
    ∀ {behind : List Char}, Ended behind →
      tokens? (write spacing depth value behind) = (tokens? behind).map (value.toTokens ++ ·)
  | .null, _, behind, hbehind => tokens?_word (List.all_eq_true.1 rfl) rfl hbehind
  | .bool true, _, behind, hbehind => tokens?_word (List.all_eq_true.1 rfl) rfl hbehind
  | .bool false, _, behind, hbehind => tokens?_word (List.all_eq_true.1 rfl) rfl hbehind
  | .natural n, h, behind, hbehind => tokens?_number (numberOf?_decimal h) hbehind
  | .numeral literal, h, behind, hbehind => tokens?_number h hbehind
  | .string s, _, behind, _ => tokens?_string s behind
  | .invalid, h, _, _ => h.elim
  | .array elements, h, behind, _ => by
    rw [write, tokens?_token (by decide) rfl, tokens?_writeElements hspacing depth true h]
    cases tokens? behind <;> rfl
  | .object members, h, behind, _ => by
    rw [write, tokens?_token (by decide) rfl, tokens?_writeMembers hspacing depth true h]
    cases tokens? behind <;> rfl

theorem tokens?_writeElements (hspacing : spacing.Blank) (depth : Nat) (first : Bool) : ∀ {elements : List Json},
    ElementsSpellable elements → ∀ {behind : List Char},
      tokens? (writeElements spacing depth first elements behind)
        = (tokens? behind).map (elementTokens first elements ++ ·)
  | [], _, behind => by
    rw [writeElements, tokens?_ending hspacing, tokens?_token (by decide) rfl]
    rfl
  | value :: values, h, behind => by
    rw [writeElements, tokens?_separator hspacing,
      tokens?_write hspacing (depth + 1) h.1 (ended_writeElements hspacing depth values behind),
      tokens?_writeElements hspacing depth false h.2]
    cases tokens? behind <;> simp [elementTokens]

theorem tokens?_writeMembers (hspacing : spacing.Blank) (depth : Nat) (first : Bool) :
    ∀ {members : List (String × Json)}, MembersSpellable members → ∀ {behind : List Char},
      tokens? (writeMembers spacing depth first members behind)
        = (tokens? behind).map (memberTokens first members ++ ·)
  | [], _, behind => by
    rw [writeMembers, tokens?_ending hspacing, tokens?_token (by decide) rfl]
    rfl
  | (key, value) :: members, h, behind => by
    rw [writeMembers, tokens?_separator hspacing, tokens?_memberKey hspacing,
      tokens?_write hspacing (depth + 1) h.1 (ended_writeMembers hspacing depth members behind),
      tokens?_writeMembers hspacing depth false h.2]
    cases tokens? behind <;> simp [memberTokens]

end

end Values

/-! ## Reading -/

/-- What a reader makes of the tokens left after a step. -/
def proceed (step : Step) (tokens : List Token) : Option Json :=
  match step with
  | .inside stack wanted => readInside stack wanted tokens
  | .complete value => if tokens.isEmpty then some value else none
  | .fail => none

/-- A reading goes on by what the first token does. -/
theorem readInside_cons (stack : List Open) (wanted : Wanted) (token : Token) (tokens : List Token) :
    readInside stack wanted (token :: tokens) = proceed (Step.ofToken stack wanted token) tokens := by
  rw [readInside]
  cases Step.ofToken stack wanted token <;> rfl

/-- Where a value may stand. -/
def Wanted.TakesValue : Wanted → Prop
  | .value | .firstElement => True
  | .key | .firstKey | .colon _ | .separator => False

/-- What is wanted in an array in which there has been no element yet, or in which there has. -/
def Wanted.element (first : Bool) : Wanted :=
  if first then .firstElement else .separator

/-- What is wanted in an object in which there has been no member yet, or in which there has. -/
def Wanted.member (first : Bool) : Wanted :=
  if first then .firstKey else .separator

/-- The key of a member and the colon behind it open the member. -/
theorem readInside_key {wanted : Wanted} (h : wanted = .key ∨ wanted = .firstKey)
    {reversed? : Option (List (String × Json))} {outer : List Open} {key? : Option String} {tokens : List Token} :
    readInside (.object reversed? :: outer) wanted (.string key? :: .colon :: tokens)
      = readInside (.member reversed? key? :: outer) .value tokens := by
  rcases h with rfl | rfl <;> rfl

mutual

/-- **A value is read off its tokens**, inside any open arrays and objects. -/
theorem readInside_toTokens : ∀ {value : Json}, value.Spellable → ∀ (stack : List Open) {wanted : Wanted},
    wanted.TakesValue → ∀ tokens : List Token,
      readInside stack wanted (value.toTokens ++ tokens) = proceed (Step.deliver value stack) tokens
  | .null, _, stack, wanted, hwanted, tokens
  | .bool _, _, stack, wanted, hwanted, tokens
  | .natural _, _, stack, wanted, hwanted, tokens
  | .numeral _, _, stack, wanted, hwanted, tokens
  | .string _, _, stack, wanted, hwanted, tokens => by
    cases wanted with
    | value => exact readInside_cons ..
    | firstElement => exact readInside_cons ..
    | _ => exact hwanted.elim
  | .invalid, h, _, _, _, _ => h.elim
  | .array elements, h, stack, wanted, hwanted, tokens => by
    have hopen : Step.ofToken stack wanted .openArray = .inside (.array [] :: stack) .firstElement := by
      cases wanted with
      | value => rfl
      | firstElement => rfl
      | _ => exact hwanted.elim
    rw [toTokens, List.cons_append, readInside_cons, hopen]
    exact readInside_elementTokens h true [] stack tokens
  | .object members, h, stack, wanted, hwanted, tokens => by
    have hopen : Step.ofToken stack wanted .openObject = .inside (.object (some []) :: stack) .firstKey := by
      cases wanted with
      | value => rfl
      | firstElement => rfl
      | _ => exact hwanted.elim
    rw [toTokens, List.cons_append, readInside_cons, hopen]
    exact readInside_memberTokens h true [] stack tokens

/-- The elements left of an array go behind those before them. -/
theorem readInside_elementTokens : ∀ {elements : List Json}, ElementsSpellable elements → ∀ (first : Bool)
    (reversed : List Json) (outer : List Open) (tokens : List Token),
      readInside (.array reversed :: outer) (Wanted.element first) (elementTokens first elements ++ tokens)
        = proceed (Step.deliver (.array (reversed.reverse ++ elements)) outer) tokens
  | [], _, first, reversed, outer, tokens => by
    rw [elementTokens, List.append_nil, List.singleton_append, readInside_cons]
    cases first <;> rfl
  | value :: values, h, first, reversed, outer, tokens => by
    have hvalue := fun wanted hwanted => @readInside_toTokens value h.1 (.array reversed :: outer) wanted hwanted
    have hvalues := readInside_elementTokens h.2 false (value :: reversed) outer tokens
    have hreversed : (value :: reversed).reverse ++ values = reversed.reverse ++ value :: values := by simp
    rw [hreversed] at hvalues
    rw [elementTokens, List.append_assoc, List.append_assoc]
    cases first with
    | true =>
      show readInside _ .firstElement (value.toTokens ++ (elementTokens false values ++ tokens)) = _
      rw [hvalue .firstElement trivial]
      exact hvalues
    | false =>
      show readInside _ .separator (.comma :: (value.toTokens ++ (elementTokens false values ++ tokens))) = _
      rw [readInside_cons]
      show readInside _ .value (value.toTokens ++ (elementTokens false values ++ tokens)) = _
      rw [hvalue .value trivial]
      exact hvalues

/-- The members left of an object go behind those before them. -/
theorem readInside_memberTokens : ∀ {members : List (String × Json)}, MembersSpellable members → ∀ (first : Bool)
    (reversed : List (String × Json)) (outer : List Open) (tokens : List Token),
      readInside (.object (some reversed) :: outer) (Wanted.member first) (memberTokens first members ++ tokens)
        = proceed (Step.deliver (.object (reversed.reverse ++ members)) outer) tokens
  | [], _, first, reversed, outer, tokens => by
    rw [memberTokens, List.append_nil, List.singleton_append, readInside_cons]
    cases first <;> rfl
  | (key, value) :: members, h, first, reversed, outer, tokens => by
    have hvalue := @readInside_toTokens value h.1 (.member (some reversed) (some key) :: outer) .value trivial
    have hmembers := readInside_memberTokens h.2 false ((key, value) :: reversed) outer tokens
    have hreversed : ((key, value) :: reversed).reverse ++ members = reversed.reverse ++ (key, value) :: members := by
      simp
    rw [hreversed] at hmembers
    rw [memberTokens, List.append_assoc, List.cons_append, List.cons_append, List.append_assoc]
    cases first with
    | true =>
      show readInside _ .firstKey (.string (some key) :: .colon :: _) = _
      rw [readInside_key (.inr rfl), hvalue]
      exact hmembers
    | false =>
      show readInside _ .separator (.comma :: .string (some key) :: .colon :: _) = _
      rw [readInside_cons]
      show readInside (.object (some reversed) :: outer) .key (.string (some key) :: .colon :: _) = _
      rw [readInside_key (.inl rfl), hvalue]
      exact hmembers

end

/-! ## Both -/

/-- **A value is read from the text that is written for it**, in any layout. -/
theorem parse?_write {spacing : Spacing} (hspacing : spacing.Blank) (depth : Nat) {value : Json}
    (h : value.Spellable) : parse? (String.ofList (write spacing depth value [])) = some value := by
  have hended : Ended [] := fun c hc => by cases hc
  rw [parse?, String.toList_ofList, tokens?_write hspacing depth h hended, tokens?_nil]
  exact @readInside_toTokens value h [] .value trivial []

theorem parse?_pretty {value : Json} (h : value.Spellable) : parse? value.pretty = some value :=
  parse?_write Spacing.blank_lines 0 h

end StyleTree.Json
