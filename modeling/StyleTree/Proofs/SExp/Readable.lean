import StyleTree.Proofs.SExp.Places
import StyleTree.Proofs.SExp.Read
import StyleTree.Proofs.Token.Scan

/-!
# `Proofs.SExp.Readable` — expressions that can be written down

Not every expression that can be built can be written: a symbol whose name has a blank in it reads as two, and one that
is called `nil` as the absent value. The expressions that can be written (`SExp.Readable`) are those that can be read: a
readable atom is one token (`Atom.next_spelling`), and only readable expressions come out of a text
(`readable_of_parse`).
-/

namespace StyleTree

namespace Atom

/-! ## Atoms -/

/-- An atom that a reader takes for itself. Any text can be quoted, but not everything is a name or a numeral. -/
def Readable : Atom → Prop
  | .symbol name => IsSymbolName name.toList
  | .keyword name => ∀ c ∈ name.toList, isSymbolChar c = true
  | .string _ => True
  | .number text => IsNumeral text.toList
  | .nil => True

/-- A readable atom has a spelling as a token, which is how it is written. -/
theorem spells_of_readable {a : Atom} (h : a.Readable) : ∃ kind lexeme, Spells kind lexeme a.spelling ∧
    ∀ pos, (Token.mk kind (String.ofList lexeme) pos).atom? = some a := by
  cases a with
  | symbol name => exact ⟨.symbol, name.toList, .symbol h, fun pos => by simp [Token.atom?]⟩
  | keyword name => exact ⟨.keyword, name.toList, .keyword h, fun pos => by simp [Token.atom?]⟩
  | string value =>
    have hbody := quotedBody_flatMap_escape value.toList
    exact ⟨.string, value.toList, .string hbody, fun pos => by simp [Token.atom?]⟩
  | number text => exact ⟨.number, text.toList, .number h, fun pos => by simp [Token.atom?]⟩
  | nil => exact ⟨.nil, ['n', 'i', 'l'], .nil, fun _ => rfl⟩

/-- **A readable atom is spelled by one token**, if what stands behind it cannot be part of it. -/
theorem next_spelling {a : Atom} (h : a.Readable) {behind : List Char} (hbehind : Delimited behind) :
    ∃ c rest piece, a.spelling = c :: rest ∧ isBlank c = false ∧ c ≠ ';' ∧
      Piece.next c (rest ++ behind) = .ok piece ∧ piece.spelling = a.spelling ∧ piece.rest = behind ∧
        ∀ pos, (piece.token pos).atom? = some a := by
  obtain ⟨kind, lexeme, hspells, hatom⟩ := spells_of_readable h
  obtain ⟨c, rest, hspelling, hblank, hmark, hnext⟩ := Piece.next_of_spells hspells (hbehind.ends kind)
  exact ⟨c, rest, _, hspelling, hblank, hmark, hnext, rfl, rfl, hatom⟩

/-- What is spelled as an atom is readable. -/
theorem readable_of_spells {kind : Token.Kind} {lexeme spelling : List Char} {pos : Position} {a : Atom}
    (h : Spells kind lexeme spelling) (hatom : (Token.mk kind (String.ofList lexeme) pos).atom? = some a) :
    a.Readable := by
  cases h with
  | openParen | closeParen => cases hatom
  | symbol hname =>
    cases hatom
    show IsSymbolName (String.ofList lexeme).toList
    rwa [String.toList_ofList]
  | keyword hname =>
    cases hatom
    show ∀ c ∈ (String.ofList lexeme).toList, isSymbolChar c = true
    rwa [String.toList_ofList]
  | number hnumeral =>
    cases hatom
    show IsNumeral (String.ofList lexeme).toList
    rwa [String.toList_ofList]
  | string | nil =>
    cases hatom
    trivial

/-- **Only readable atoms are ever scanned.** -/
theorem readable_of_scan {text : String} {tokens : List Token} (h : Token.scan text = .ok tokens) {token : Token}
    (htoken : token ∈ tokens) {a : Atom} (hatom : token.atom? = some a) : a.Readable := by
  rcases Token.mem_scanFrom h htoken with rfl | ⟨_, _, _, _, -, hnext, rfl⟩
  · cases hatom
  · exact readable_of_spells (Piece.spells_of_next hnext).1 hatom

end Atom

/-! ## Names -/

/-- Whether the scanner reads a name as one symbol, all of it. -/
def ReadsAsSymbol (name : String) : Prop :=
  Token.scan name
    = .ok [⟨.symbol, name, .start⟩, Token.endOfInput (Position.start.advanceAll name.toList)]

/-- **The names that read as symbols** are those that a symbol can have. -/
theorem readsAsSymbol_iff {name : String} : ReadsAsSymbol name ↔ IsSymbolName name.toList := by
  constructor
  · intro h
    have hatom : (Token.mk .symbol name .start).atom? = some (.symbol name) := rfl
    exact (Atom.readable_of_scan h List.mem_cons_self hatom : Atom.Readable (.symbol name))
  · intro h
    obtain ⟨c, rest, hname, hstart⟩ := h.start
    have hmark := not_trivia_of_isSymbolChar (isSymbolChar_of_start hstart)
    rw [hname] at h
    have hnext := Piece.next_symbol h delimited_nil
    rw [List.append_nil] at hnext
    have hlexeme : String.ofList (c :: rest) = name := by rw [← hname, String.ofList_toList]
    rw [ReadsAsSymbol, Token.scan, hname, Token.scanFrom_piece hmark.1 hmark.2 hnext, Token.scanFrom_nil, Piece.token,
      hlexeme]
    rfl

instance (name : String) : Decidable (ReadsAsSymbol name) :=
  decidable_of_iff (IsSymbolName name.toList) readsAsSymbol_iff.symm

namespace SExp

/-! ## Expressions -/

/-- An expression whose atoms are all readable. -/
def Readable (e : SExp) : Prop :=
  ∀ a pos, .atom a pos ∈ e.subexpressions → a.Readable

@[simp] theorem readable_atom {a : Atom} {pos : Position} : (SExp.atom a pos).Readable ↔ a.Readable := by
  simp [Readable, subexpressions]

@[simp] theorem readable_list {elements : List SExp} {pos : Position} :
    (SExp.list elements pos).Readable ↔ ∀ e ∈ elements, e.Readable := by
  simp only [Readable, subexpressions, subexpressionsAll_eq_flatMap, List.mem_cons, List.mem_flatMap]
  constructor
  · intro h e he a pos' ha
    exact h a pos' (.inr ⟨e, he, ha⟩)
  · rintro h a pos' (ha | ⟨e, he, ha⟩)
    · cases ha
    · exact h e he a pos' ha

/-- Places have no part in it. -/
theorem readable_unplaced {e : SExp} : e.unplaced.Readable ↔ e.Readable := by
  induction e using elementInduction with
  | atom a pos => rw [unplaced_atom, readable_atom, readable_atom]
  | list elements pos ih =>
    rw [unplaced_list, readable_list, readable_list, List.forall_mem_map]
    exact forall₂_congr ih

/-- What the atoms of an expression can be, kind by kind. A string can be any text. -/
theorem readable_iff {e : SExp} : e.Readable ↔
    (∀ name pos, .atom (.symbol name) pos ∈ e.subexpressions → IsSymbolName name.toList) ∧
      (∀ name pos, .atom (.keyword name) pos ∈ e.subexpressions → ∀ c ∈ name.toList, isSymbolChar c = true) ∧
      ∀ text pos, .atom (.number text) pos ∈ e.subexpressions → IsNumeral text.toList := by
  constructor
  · intro h
    exact ⟨fun name => h (.symbol name), fun name => h (.keyword name), fun text => h (.number text)⟩
  · rintro ⟨hsymbol, hkeyword, hnumber⟩ a pos ha
    cases a with
    | symbol name => exact hsymbol name pos ha
    | keyword name => exact hkeyword name pos ha
    | number text => exact hnumber text pos ha
    | string | nil => trivial

theorem parse_eq_ok {text : String} {e : SExp} (h : parse text = .ok e) :
    ∃ tokens taken rest, Token.scan text = .ok tokens ∧ tokens = taken ++ rest ∧ e.Spelled taken := by
  unfold parse at h
  split at h
  · cases h
  · next tokens hscan =>
    split at h
    · cases h
    · next e' rest hread =>
      split at h
      · cases h
      · cases h
        obtain ⟨taken, htokens, hspelled⟩ := spelled_of_read hread
        exact ⟨tokens, taken, rest, hscan, htokens, hspelled⟩

/-- **Only readable expressions are ever read.** -/
theorem readable_of_parse {text : String} {e : SExp} (h : parse text = .ok e) : e.Readable := by
  obtain ⟨tokens, taken, rest, hscan, rfl, hspelled⟩ := parse_eq_ok h
  intro a pos hatom
  obtain ⟨token, htoken, ⟨_, heq, -⟩ | ⟨b, heq, hb⟩⟩ := exists_token_of_mem hspelled hatom
  · cases heq
  · cases heq
    exact Atom.readable_of_scan hscan (List.mem_append_left _ htoken) hb

/-! ## Lines -/

/-- **Every list begins on one of the first lines**, of which there are no more than the text has bytes. -/
theorem line_le_of_parse {text : String} {e : SExp} (h : parse text = .ok e) {elements : List SExp} {pos : Position}
    (hlist : .list elements pos ∈ e.subexpressions) : pos.line ≤ text.utf8ByteSize := by
  obtain ⟨tokens, taken, rest, hscan, rfl, hspelled⟩ := parse_eq_ok h
  obtain ⟨token, htoken, ⟨_, heq, hkind⟩ | ⟨_, heq, -⟩⟩ := exists_token_of_mem hspelled hlist
  · cases heq
    exact Token.line_le_of_mem_scan hscan (List.mem_append_left _ htoken) (by simp [hkind])
  · cases heq

end SExp

end StyleTree
