import StyleTree.SExp.Basic

/-!
# `Proofs.SExp.Places` — expressions apart from their places

Where the parts of an expression stand matters for diagnostics alone. What an expression stands for is the same
without its places (`unplaced`), and a failure is the same but for the places that it names (`ReadError.unplaced`).

To follow two readings step by step, each outcome is stripped of its places (`withoutPlaces`): if one step comes to the
same on both sides, and what is done with its value does, so does the whole (`withoutPlaces_bind`).
-/

namespace StyleTree

namespace SExp

/-- To prove something of all expressions, prove it of atoms, and of a list whose elements have it. -/
theorem elementInduction {motive : SExp → Prop} (atom : ∀ a pos, motive (.atom a pos))
    (list : ∀ elements pos, (∀ e ∈ elements, motive e) → motive (.list elements pos)) : ∀ e, motive e
  | .atom a pos => atom a pos
  | .list elements pos => list elements pos fun e _ => elementInduction atom list e
termination_by e => sizeOf e
decreasing_by
  rename_i he
  have hlt : sizeOf e < sizeOf elements := List.sizeOf_lt_of_mem he
  simp only [SExp.list.sizeOf_spec]
  omega

theorem subexpressionsAll_eq_flatMap (es : List SExp) : subexpressionsAll es = es.flatMap subexpressions := by
  induction es with
  | nil => rfl
  | cons e es ih => rw [subexpressionsAll, ih, List.flatMap_cons]

/-- An expression is one of its own parts. -/
theorem mem_subexpressions_self (e : SExp) : e ∈ e.subexpressions := by
  cases e <;> rw [subexpressions] <;> exact List.mem_cons_self

/-- The elements of a part are parts. -/
theorem mem_subexpressions_of_element {whole e : SExp} {elements : List SExp} {pos : Position}
    (h : .list elements pos ∈ whole.subexpressions) (he : e ∈ elements) : e ∈ whole.subexpressions := by
  induction whole using elementInduction with
  | atom a pos' =>
    rw [subexpressions, List.mem_singleton] at h
    cases h
  | list parts pos' ih =>
    rw [subexpressions, subexpressionsAll_eq_flatMap] at h ⊢
    refine List.mem_cons_of_mem _ (List.mem_flatMap.2 ?_)
    rcases List.mem_cons.1 h with heq | h
    · cases heq
      exact ⟨e, he, mem_subexpressions_self e⟩
    · obtain ⟨part, hpart, h⟩ := List.mem_flatMap.1 h
      exact ⟨part, hpart, ih part hpart h⟩

/-! ## No places -/

mutual

/-- The expression as if it came from no text. -/
def unplaced : SExp → SExp
  | .atom a _ => .atom a .synthetic
  | .list elements _ => .list (unplacedAll elements) .synthetic

/-- Several expressions as if they came from no text. -/
def unplacedAll : List SExp → List SExp
  | [] => []
  | e :: es => e.unplaced :: unplacedAll es

end

theorem unplacedAll_eq_map (es : List SExp) : unplacedAll es = es.map unplaced := by
  induction es with
  | nil => rfl
  | cons e es ih => rw [unplacedAll, ih, List.map_cons]

@[simp] theorem unplaced_atom (a : Atom) (pos : Position) : (SExp.atom a pos).unplaced = .atom a .synthetic := rfl

@[simp] theorem unplaced_list (elements : List SExp) (pos : Position) :
    (SExp.list elements pos).unplaced = .list (elements.map unplaced) .synthetic := by
  rw [unplaced, unplacedAll_eq_map]

@[simp] theorem isList_unplaced (e : SExp) : e.unplaced.isList = e.isList := by
  cases e <;> rfl

@[simp] theorem isKeyword_unplaced (e : SExp) : e.unplaced.isKeyword = e.isKeyword := by
  cases e with
  | atom a pos => cases a <;> rfl
  | list elements pos => rfl

/-- A diagnostic names an expression by what it is, not by where it stands. -/
@[simp] theorem describe_unplaced (e : SExp) : e.unplaced.describe = e.describe := by
  cases e with
  | atom a pos => rfl
  | list elements pos =>
    cases elements with
    | nil => rfl
    | cons first rest =>
      cases first with
      | atom a pos' => cases a <;> rfl
      | list inner pos' => rfl

end SExp

/-! ## Failures -/

/-- The failure as if it was met in no text. -/
def LexError.unplaced : LexError → LexError
  | .unexpectedChar c _ => .unexpectedChar c .synthetic
  | .unterminatedString _ => .unterminatedString .synthetic
  | .invalidEscape c _ => .invalidEscape c .synthetic

/-- The failure as if it was met in no text. -/
def ReadError.unplaced : ReadError → ReadError
  | .lex error => .lex error.unplaced
  | .unexpectedToken lexeme _ => .unexpectedToken lexeme .synthetic
  | .expected what found _ => .expected what found .synthetic
  | .unknownField field node _ => .unknownField field node .synthetic
  | .unterminatedList _ => .unterminatedList .synthetic
  | .unexpectedCloseParen _ => .unexpectedCloseParen .synthetic
  | .emptyInput => .emptyInput

section

variable {α β γ : Type}

/-- What a reading comes to apart from places: what is kept of its value, or its failure as if it was met in no
    text. -/
def withoutPlaces (keep : α → β) : Except ReadError α → Except ReadError β
  | .ok a => .ok (keep a)
  | .error error => .error error.unplaced

variable {x : Except ReadError α}

/-- Stripped of places, a reading succeeds with what is kept of its value. -/
theorem withoutPlaces_eq_ok {keep : α → β} {b : β} : withoutPlaces keep x = .ok b ↔ ∃ a, x = .ok a ∧ keep a = b := by
  cases x <;> simp [withoutPlaces]

/-- Stripped of places, a reading fails with its own failure, which then names no place. -/
theorem withoutPlaces_eq_error {keep : α → β} {error : ReadError} :
    withoutPlaces keep x = .error error ↔ ∃ placed, x = .error placed ∧ placed.unplaced = error := by
  cases x <;> simp [withoutPlaces]

/-- Two readings that come to the same return the same values. -/
theorem eq_ok_iff_of_withoutPlaces {y : Except ReadError α} (h : withoutPlaces id x = withoutPlaces id y) {a : α} :
    x = .ok a ↔ y = .ok a := by
  cases x <;> cases y <;> simp_all [withoutPlaces]

/-- Two readings that agree but for places have the same value, if any. -/
theorem toOption_of_withoutPlaces {y : Except ReadError α} (h : withoutPlaces id x = withoutPlaces id y) :
    x.toOption = y.toOption := by
  cases x <;> cases y <;> simp_all [withoutPlaces, Except.toOption]

/-- **Readings that come to the same step by step** come to the same. -/
theorem withoutPlaces_bind {α' β' δ : Type} {x' : Except ReadError α'} {f : α → Except ReadError β}
    {f' : α' → Except ReadError β'} {keep : α → γ} {keep' : α' → γ} {result : β → δ} {result' : β' → δ}
    (hx : withoutPlaces keep x = withoutPlaces keep' x')
    (hf : ∀ a a', keep a = keep' a' → withoutPlaces result (f a) = withoutPlaces result' (f' a')) :
    withoutPlaces result (x >>= f) = withoutPlaces result' (x' >>= f') := by
  cases x with
  | error error =>
    obtain ⟨error', rfl, herror⟩ := withoutPlaces_eq_error.1 hx.symm
    exact congrArg Except.error herror.symm
  | ok a =>
    obtain ⟨a', rfl, ha⟩ := withoutPlaces_eq_ok.1 hx.symm
    exact hf a a' ha.symm

/-- What is done with the values of two readings that agree keeps them in agreement if it respects what is kept. -/
theorem withoutPlaces_map {α' β' δ : Type} {x' : Except ReadError α'} {f : α → β} {f' : α' → β'} {keep : α → γ}
    {keep' : α' → γ} {result : β → δ} {result' : β' → δ} (hx : withoutPlaces keep x = withoutPlaces keep' x')
    (hf : ∀ a a', keep a = keep' a' → result (f a) = result' (f' a')) :
    withoutPlaces result (x.map f) = withoutPlaces result' (x'.map f') :=
  withoutPlaces_bind hx fun a a' ha => congrArg Except.ok (hf a a' ha)

end

/-! ## Values -/

namespace SExp

variable {e : SExp}

/-- What is found in place of the thing wanted is the same without the places. -/
theorem withoutPlaces_mismatch (α : Type) (e : SExp) (what : Expectation) :
    withoutPlaces (id : α → α) (.error (e.unplaced.mismatch what)) = withoutPlaces id (.error (e.mismatch what)) := by
  simp only [withoutPlaces, mismatch, ReadError.unplaced, describe_unplaced]

/-- An expression without its places is the same symbol, or is refused in the same words. -/
theorem asSymbol_unplaced (e : SExp) : withoutPlaces id e.unplaced.asSymbol = withoutPlaces id e.asSymbol := by
  have hmismatch := withoutPlaces_mismatch String e .symbol
  cases e with
  | list elements pos => exact hmismatch
  | atom a pos =>
    cases a with
    | symbol name => rfl
    | _ => exact hmismatch

theorem asString_unplaced (e : SExp) : withoutPlaces id e.unplaced.asString = withoutPlaces id e.asString := by
  have hmismatch := withoutPlaces_mismatch String e .string
  cases e with
  | list elements pos => exact hmismatch
  | atom a pos =>
    cases a with
    | string value => rfl
    | _ => exact hmismatch

theorem asOptionalString_unplaced (e : SExp) :
    withoutPlaces id e.unplaced.asOptionalString = withoutPlaces id e.asOptionalString := by
  have hmismatch := withoutPlaces_mismatch (Option String) e .stringOrNil
  cases e with
  | list elements pos => exact hmismatch
  | atom a pos =>
    cases a with
    | string value => rfl
    | nil => rfl
    | _ => exact hmismatch

/-- A numeral says the same number wherever it stands. -/
theorem asNumber_unplaced (e : SExp) : withoutPlaces id e.unplaced.asNumber = withoutPlaces id e.asNumber := by
  have hmismatch := withoutPlaces_mismatch Nat e .number
  cases e with
  | list elements pos => exact hmismatch
  | atom a pos =>
    cases a with
    | number text =>
      rw [unplaced_atom, asNumber, asNumber]
      cases unsigned? text.toList <;> rfl
    | _ => exact hmismatch

theorem asBool_unplaced (e : SExp) : withoutPlaces id e.unplaced.asBool = withoutPlaces id e.asBool := by
  have hmismatch := withoutPlaces_mismatch Bool e .truthValue
  cases e with
  | list elements pos =>
    rw [unplaced_list] at hmismatch ⊢
    exact hmismatch
  | atom a pos =>
    cases a with
    | symbol name =>
      rw [unplaced_atom]
      by_cases htrue : name = "true"
      · subst htrue
        rfl
      · by_cases hfalse : name = "false"
        · subst hfalse
          rfl
        · simpa [asBool, htrue, hfalse] using hmismatch
    | _ => exact hmismatch

end SExp

end StyleTree
