import StyleTree.Proofs.SExp.Readable
import StyleTree.SExp.Print

/-!
# `Proofs.SExp.RoundTrip` — a printed expression reads back

Whatever its layout, the text of an expression has the tokens of the expression and nothing else (`scanFrom_write`):
what stands between two elements is white space, and no atom runs on into what follows. So a reader gets the expression
back, with every part where the text has it (`printedAt`).

`parse_print` says this of readable expressions. By `parse_print_iff`, which spells out what readable means, no others
read back, and everything that a reader returns is among them.
-/

namespace StyleTree

/-! ## Between elements -/

namespace Place

theorem next_ne_first (place : Place) (e : SExp) : place.next e ≠ .first := by
  unfold next
  split <;> simp

/-- What stands in front of an element is white space. -/
theorem isBlank_of_mem_lead {place : Place} {margin : Nat} {e : SExp} {c : Char} (h : c ∈ place.lead margin e) :
    isBlank c = true := by
  unfold lead at h
  split at h
  · rcases List.mem_cons.1 h with rfl | h
    · decide
    · rw [List.eq_of_mem_replicate h]
      decide
  · cases h
  · rw [List.mem_singleton.1 h]
    decide

/-- Only the first element can stand right behind what is before it. -/
theorem lead_ne_nil {place : Place} (h : place ≠ .first) (margin : Nat) (e : SExp) : place.lead margin e ≠ [] := by
  unfold lead
  split <;> simp_all

theorem next_unplaced (place : Place) (e : SExp) : place.next e.unplaced = place.next e := by
  rw [next, SExp.isList_unplaced, next]

theorem lead_unplaced (place : Place) (margin : Nat) (e : SExp) :
    place.lead margin e.unplaced = place.lead margin e := by
  unfold lead
  rw [next_unplaced]

end Place

namespace SExp

/-! ## Places -/

mutual

/-- The expression with the places that its parts have where it is written from the given place on. -/
def printedAt (indent depth : Nat) (pos : Position) : SExp → SExp
  | .atom a _ => .atom a pos
  | .list elements _ => .list (printedRest indent (depth + 1) .first (pos.advance '(') elements) pos

/-- The elements left in a list with the places of their text, which begins at the given place. -/
def printedRest (indent depth : Nat) (place : Place) (pos : Position) : List SExp → List SExp
  | [] => []
  | e :: es =>
    e.printedAt indent depth (pos.advanceAll (place.lead (depth * indent) e))
      :: printedRest indent depth (place.next e)
        (pos.advanceAll (place.lead (depth * indent) e ++ write indent depth e [])) es

end

mutual

/-- Only places are told apart by printing. -/
theorem unplaced_printedAt (indent depth : Nat) (pos : Position) : ∀ e : SExp,
    (e.printedAt indent depth pos).unplaced = e.unplaced
  | .atom a _ => rfl
  | .list elements _ => by
    rw [printedAt, unplaced, unplaced, unplaced_printedRest indent (depth + 1) .first (pos.advance '(') elements]

theorem unplaced_printedRest (indent depth : Nat) (place : Place) (pos : Position) : ∀ es : List SExp,
    unplacedAll (printedRest indent depth place pos es) = unplacedAll es
  | [] => rfl
  | e :: es => by
    rw [printedRest, unplacedAll, unplacedAll, unplaced_printedAt indent depth _ e,
      unplaced_printedRest indent depth (place.next e) _ es]

end

/-! ## Scanning -/

theorem write_eq_append (indent depth : Nat) (e : SExp) (behind : List Char) :
    write indent depth e behind = write indent depth e [] ++ behind :=
  write_append indent depth e [] behind

/-- **No element runs on into what is left of its list.** -/
theorem delimited_writeRest {place : Place} (h : place ≠ .first) (indent depth : Nat) (es : List SExp)
    (behind : List Char) : Delimited (writeRest indent depth place es behind) := by
  cases es with
  | nil =>
    rw [writeRest, delimited_cons]
    decide
  | cons e es =>
    obtain ⟨c, gap, hlead⟩ := List.exists_cons_of_ne_nil (Place.lead_ne_nil h (depth * indent) e)
    have hblank : isBlank c = true := Place.isBlank_of_mem_lead (hlead ▸ List.mem_cons_self)
    rw [writeRest, hlead, List.cons_append, delimited_cons]
    exact isSymbolChar_of_isBlank hblank

theorem scanFrom_paren {c : Char} {kind : Token.Kind} {text : List Char} (hblank : isBlank c = false) (hmark : c ≠ ';')
    (h : Piece.next c text = .ok ⟨kind, [c], [c], text⟩) (pos : Position) :
    Token.scanFrom pos (c :: text)
      = (Token.scanFrom (pos.advance c) text).map (⟨kind, String.ofList [c], pos⟩ :: ·) :=
  Token.scanFrom_piece hblank hmark h pos

mutual

/-- **The text of a readable expression has the tokens of the expression**, which stand where they are written. -/
theorem scanFrom_write (indent depth : Nat) (pos : Position) : ∀ {e : SExp}, e.Readable →
    ∀ {behind : List Char}, Delimited behind → ∃ tokens, (e.printedAt indent depth pos).Spelled tokens ∧
      Token.scanFrom pos (write indent depth e behind)
        = (Token.scanFrom (pos.advanceAll (write indent depth e [])) behind).map (tokens ++ ·)
  | .atom a _, h, behind, hbehind => by
    obtain ⟨c, rest, piece, hspelling, hblank, hmark, hnext, hpiece, hrest, hatom⟩ :=
      Atom.next_spelling (readable_atom.1 h) hbehind
    refine ⟨[piece.token pos], ⟨_, rfl, hatom pos, rfl⟩, ?_⟩
    rw [write, write, hspelling, List.cons_append, Token.scanFrom_piece hblank hmark hnext, hpiece, hrest, hspelling,
      List.append_nil]
    rfl
  | .list elements _, h, behind, hbehind => by
    obtain ⟨inner, closing, hinner, hclosing, hscan⟩ :=
      scanFrom_writeRest indent (depth + 1) .first (pos.advance '(') (readable_list.1 h) behind
    refine ⟨⟨.openParen, String.ofList ['('], pos⟩ :: (inner ++ [closing]),
      ⟨_, closing, inner, rfl, rfl, rfl, hclosing, hinner⟩, ?_⟩
    rw [write, write, scanFrom_paren (by decide) (by decide) rfl, hscan, Position.advanceAll_cons]
    cases Token.scanFrom ((pos.advance '(').advanceAll (writeRest indent (depth + 1) .first elements [])) behind <;> rfl

/-- The elements of a list, however they are laid out, have their tokens and then that of the closing parenthesis. -/
theorem scanFrom_writeRest (indent depth : Nat) (place : Place) (pos : Position) : ∀ {es : List SExp},
    (∀ e ∈ es, e.Readable) → ∀ behind : List Char, ∃ (inner : List Token) (closing : Token),
      SpelledAll (printedRest indent depth place pos es) inner ∧ closing.kind = .closeParen ∧
        Token.scanFrom pos (writeRest indent depth place es behind)
          = (Token.scanFrom (pos.advanceAll (writeRest indent depth place es [])) behind).map
              ((inner ++ [closing]) ++ ·)
  | [], _, behind => by
    refine ⟨[], ⟨.closeParen, String.ofList [')'], pos⟩, rfl, rfl, ?_⟩
    rw [writeRest, writeRest, scanFrom_paren (by decide) (by decide) rfl, Position.advanceAll_cons,
      Position.advanceAll_nil]
    rfl
  | e :: es, h, behind => by
    obtain ⟨first, hfirst, hscanFirst⟩ :=
      scanFrom_write indent depth (pos.advanceAll (place.lead (depth * indent) e)) (h e List.mem_cons_self)
        (delimited_writeRest (place.next_ne_first e) indent depth es behind)
    obtain ⟨inner, closing, hinner, hclosing, hscanInner⟩ :=
      scanFrom_writeRest indent depth (place.next e)
        (pos.advanceAll (place.lead (depth * indent) e ++ write indent depth e []))
        (fun f hf => h f (List.mem_cons_of_mem _ hf)) behind
    refine ⟨first ++ inner, closing, ⟨first, inner, rfl, hfirst, hinner⟩, hclosing, ?_⟩
    -- Over what leads to the element, over the element, and from there over the rest of the list.
    rw [writeRest, writeRest, Token.scanFrom_blanks fun c hc => Place.isBlank_of_mem_lead hc, hscanFirst,
      ← Position.advanceAll_append, hscanInner, write_eq_append indent depth e (writeRest _ _ _ es []),
      ← List.append_assoc, Position.advanceAll_append _ (_ ++ _)]
    cases Token.scanFrom _ behind with
    | error error => rfl
    | ok tokens => simp [Except.map]

end

/-! ## Reading -/

/-- **A readable expression reads back**, with every part where the text has it. -/
theorem parse_print {e : SExp} (h : e.Readable) (indent : Nat) :
    parse (e.print indent) = .ok (e.printedAt indent 0 .start) := by
  obtain ⟨tokens, hspelled, hscan⟩ := scanFrom_write indent 0 .start h delimited_nil
  have htokens : Token.scan (e.print indent)
      = .ok (tokens ++ [Token.endOfInput (Position.start.advanceAll (write indent 0 e []))]) := by
    rw [Token.scan, print, String.toList_ofList, hscan, Token.scanFrom_nil]
    rfl
  rw [parse, htokens]
  simp only [read_of_spelled hspelled]
  rfl

/-! ## What reads back -/

mutual

/-- Where an expression came from does not show in its text. -/
theorem write_unplaced (indent depth : Nat) (behind : List Char) : ∀ e : SExp,
    write indent depth e.unplaced behind = write indent depth e behind
  | .atom a _ => rfl
  | .list elements _ => by
    rw [unplaced, write, write, writeRest_unplaced indent (depth + 1) .first behind elements]

theorem writeRest_unplaced (indent depth : Nat) (place : Place) (behind : List Char) : ∀ es : List SExp,
    writeRest indent depth place (unplacedAll es) behind = writeRest indent depth place es behind
  | [] => rfl
  | e :: es => by
    rw [unplacedAll, writeRest, writeRest, Place.lead_unplaced, Place.next_unplaced,
      writeRest_unplaced indent depth (place.next e) behind es, write_unplaced indent depth _ e]

end

theorem print_unplaced (e : SExp) (indent : Nat) : e.unplaced.print indent = e.print indent := by
  rw [print, print, write_unplaced]

/-- Expressions that differ in places alone are printed alike. -/
theorem print_eq_of_unplaced {e f : SExp} (h : e.unplaced = f.unplaced) (indent : Nat) :
    e.print indent = f.print indent := by
  rw [← print_unplaced e, h, print_unplaced]

/-- The text of an expression reads back as the expression if and only if the expression is readable. -/
theorem reads_back_iff (e : SExp) (indent : Nat) :
    (∃ e', parse (e.print indent) = .ok e' ∧ e'.unplaced = e.unplaced) ↔ e.Readable := by
  constructor
  · rintro ⟨e', hparse, hsame⟩
    -- Whatever a reader returns is readable, and places have no part in that.
    have hreadable : e'.Readable := readable_of_parse hparse
    rw [← readable_unplaced, hsame, readable_unplaced] at hreadable
    exact hreadable
  · intro h
    exact ⟨_, parse_print h indent, unplaced_printedAt indent 0 .start e⟩

/-- **An expression reads back from its text exactly if every atom can be spelled**, however deep the steps are:
    its symbols begin like symbols, go on like symbols and are neither the absent value nor numbers, its keywords are
    made of the characters of symbols or empty, and its numbers are digits, possibly behind a minus sign. Strings are
    free. So everything that a reader returns reads back, and has the same text then. -/
theorem parse_print_iff :
    (∀ (e : SExp) (indent : Nat), (∃ e', parse (e.print indent) = .ok e' ∧ e'.unplaced = e.unplaced) ↔
      (∀ name pos, .atom (.symbol name) pos ∈ e.subexpressions →
        (∃ c ∈ name.toList.head?, isSymbolStart c = true) ∧ (∀ c ∈ name.toList, isSymbolChar c = true) ∧
          name ≠ "nil" ∧ ∀ c rest, name.toList = '-' :: c :: rest → c.isDigit = false) ∧
      (∀ name pos, .atom (.keyword name) pos ∈ e.subexpressions → ∀ c ∈ name.toList, isSymbolChar c = true) ∧
      ∀ text pos, .atom (.number text) pos ∈ e.subexpressions → ∃ digits, digits ≠ [] ∧
        (∀ c ∈ digits, c.isDigit = true) ∧ (text.toList = digits ∨ text.toList = '-' :: digits)) ∧
    ∀ (text : String) (e : SExp), parse text = .ok e → ∀ indent, ∃ e', parse (e.print indent) = .ok e' ∧
      e'.unplaced = e.unplaced ∧ ∀ indent', e'.print indent' = e.print indent' := by
  constructor
  · intro e indent
    rw [reads_back_iff, readable_iff]
    refine and_congr (forall₃_congr fun name pos _ => ?_) Iff.rfl
    have hnil : name ≠ "nil" ↔ name.toList ≠ ['n', 'i', 'l'] := by
      rw [ne_eq, ← String.toList_inj]
      exact Iff.rfl
    rw [hnil]
    exact isSymbolName_iff
  · intro text e hparse indent
    obtain ⟨e', hback, hsame⟩ := (reads_back_iff e indent).2 (readable_of_parse hparse)
    exact ⟨e', hback, hsame, fun indent' => print_eq_of_unplaced hsame indent'⟩

/-- A list whose atoms are close to running together: a lone minus sign, a negative number, keywords without a name. -/
def crowded : SExp :=
  .ofList [symbol "-", .atom (.number "-2") .synthetic, .ofList [keyword "", string "\"", nil], keyword ""]

theorem parse_print_iff_crowded :
    parse (crowded.print 0) = .ok (crowded.printedAt 0 0 .start) ∧
      (∃ e', parse ((crowded.printedAt 0 0 .start).print 4) = .ok e' ∧ e'.print 0 = crowded.print 0) ∧
        ¬ ∃ e', parse ((symbol "-2").print 2) = .ok e' ∧ e'.unplaced = symbol "-2" := by
  have hreadable : crowded.Readable := by
    have hminus : IsSymbolName ['-'] := by decide
    have htwo : IsNumeral ['-', '2'] := ⟨['2'], by simp, List.forall_mem_singleton.2 rfl, .inr rfl⟩
    simp [crowded, ofList, symbol, keyword, string, nil, Atom.Readable, hminus, htwo]
  have hflat := parse_print hreadable 0
  obtain ⟨e', hdeep, -, hsame⟩ := parse_print_iff.2 (crowded.print 0) _ hflat 4
  refine ⟨hflat, ⟨e', hdeep, ?_⟩, ?_⟩
  · rw [hsame 0]
    exact print_eq_of_unplaced (unplaced_printedAt 0 0 .start crowded) 0
  · intro hback
    -- The name of the symbol is a minus sign with a digit behind it.
    obtain ⟨hsymbol, -⟩ := (parse_print_iff.1 (symbol "-2") 2).1 hback
    have hdigit := (hsymbol "-2" .synthetic (mem_subexpressions_self _)).2.2.2 '2' [] rfl
    exact absurd hdigit (by decide)

end SExp

end StyleTree
