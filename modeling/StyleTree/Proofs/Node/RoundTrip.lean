import StyleTree.Proofs.Node.Described
import StyleTree.Proofs.Node.Written
import StyleTree.Proofs.SExp.RoundTrip

/-!
# `Proofs.Node.RoundTrip` — a printed tree reads back

A tree is printed with quoted strings for all that may hold any text, and with its tags bare. So whether it reads back
hangs on the tags alone: each must read as one symbol, and not as the name of another kind of node (`Kind.Readable`).
Every tree that was read has such tags (`readable_of_parse`). So the trees that read back, whatever the indentation and
the file, are the readable ones and no others: `roundTrip_iff`.
-/

namespace StyleTree

namespace Node

/-! ## Trees that can be written -/

/-- A kind that reads back. A tag must read as one symbol and must not be the name of another kind; only a
    stylesheet without text is called a stylesheet. -/
def Kind.Readable : Kind → Prop
  | .rule _ | .inherit _ => True
  | .other tag text => ReadsAsSymbol tag ∧ tag ≠ "rule" ∧ tag ≠ "inherit" ∧ (tag = rootTag → text = none)

instance : ∀ kind : Kind, Decidable kind.Readable
  | .rule _ | .inherit _ => inferInstanceAs (Decidable True)
  | .other tag text =>
    inferInstanceAs (Decidable (ReadsAsSymbol tag ∧ tag ≠ "rule" ∧ tag ≠ "inherit" ∧ (tag = rootTag → text = none)))

theorem Kind.Readable.wellTagged {kind : Kind} (h : kind.Readable) : kind.WellTagged := by
  rcases kind with _ | _ | ⟨tag, text⟩
  · trivial
  · trivial
  · exact h.2

theorem Kind.Readable.isSymbolName {kind : Kind} (h : kind.Readable) : IsSymbolName kind.name.toList := by
  rcases kind with selector | target | ⟨tag, text⟩
  · show IsSymbolName "rule".toList
    decide
  · show IsSymbolName "inherit".toList
    decide
  · exact readsAsSymbol_iff.1 h.1

theorem isNumeral_decimal (n : Nat) : IsNumeral (decimal n) :=
  ⟨decimal n, Nat.toDigits_ne_nil, fun _ hc => Nat.isDigit_of_mem_toDigits (by decide) (by decide) hc, .inl rfl⟩

/-- What stands behind the name of a node can always be written. -/
theorem readable_argument {kind : Kind} {e : SExp} (h : e ∈ kind.argument.head?) : e.Readable := by
  rcases kind with (_ | selector) | target | ⟨tag, (_ | text)⟩ <;> cases h <;> exact SExp.readable_atom.2 trivial

/-- So can the fields of a node. -/
theorem readable_field {showLocations : Bool} {assumed : Option String} {n : Node} {field : Field}
    (h : field ∈ n.fields showLocations assumed) : ∀ e ∈ field.elements, e.Readable := by
  have hfield : field = ⟨"file", .synthetic, .string n.location.filename⟩ ∨
      field = ⟨"line", .synthetic, .number n.location.line⟩ ∨ field = ⟨"inherited", .synthetic, .symbol "true"⟩ := by
    revert h
    by_cases hfile : assumed = some n.location.filename <;> cases showLocations <;> cases hflag : n.inherited <;>
      simp +contextual [fields, hfile, hflag, or_imp]
  have hkeyword : ∀ name ∈ Form.knownFields, name.toList.all isSymbolChar = true := by decide
  have hknown := List.all_eq_true.1 (hkeyword field.name (name_mem_knownFields h))
  intro e he
  rcases List.mem_cons.1 he with rfl | he
  · exact SExp.readable_atom.2 hknown
  · rw [List.mem_singleton] at he
    subst he
    rcases hfield with rfl | rfl | rfl
    · exact SExp.readable_atom.2 trivial
    · refine SExp.readable_atom.2 ?_
      show IsNumeral (String.ofList (decimal n.location.line)).toList
      rw [String.toList_ofList]
      exact isNumeral_decimal n.location.line
    · refine SExp.readable_atom.2 ?_
      show IsSymbolName "true".toList
      decide

/-- **A tree whose kinds read back is written as a readable expression.** -/
theorem readable_toSExp (showLocations : Bool) (n : Node) : ∀ assumed : Option String,
    (∀ m ∈ n.preorder, m.kind.Readable) → (n.toSExp showLocations assumed).Readable := by
  induction n using childInduction with
  | step n ih =>
    intro assumed hkinds
    have hname : (SExp.atom (.symbol n.kind.name) .synthetic).Readable :=
      SExp.readable_atom.2 (hkinds n (mem_preorder_iff.2 (.inl rfl))).isSymbolName
    rw [toSExp_eq, SExp.readable_list]
    intro e he
    rcases List.mem_cons.1 he with rfl | he
    · exact hname
    rcases List.mem_append.1 he with he | he
    · exact readable_argument (Option.mem_toList.1 he)
    rcases List.mem_append.1 he with he | he
    · obtain ⟨field, hfield, he⟩ := List.mem_flatMap.1 he
      exact readable_field hfield e he
    · change e ∈ toSExps showLocations _ n.children at he
      rw [toSExps_eq_map, List.mem_map] at he
      obtain ⟨child, hchild, rfl⟩ := he
      exact ih child hchild _ fun m hm => hkinds m (mem_preorder_iff.2 (.inr ⟨child, hchild, hm⟩))

/-! ## Both ways -/

/-- A tree whose kinds read back reads back. -/
theorem parse_print_of_readable {n : Node} (hlines : ∀ m ∈ n.preorder, m.location.line < wordBound)
    (hkinds : ∀ m ∈ n.preorder, m.kind.Readable) (indent : Nat) (file : String) :
    parse (n.print indent) file = .ok n := by
  have hread := SExp.parse_print (readable_toSExp true n none hkinds) indent
  have hplaces : ((n.toSExp true none).printedAt indent 0 .start).unplaced = n.toSExp true none := by
    rw [SExp.unplaced_printedAt, unplaced_toSExp]
  rw [parse, print, hread]
  exact ofSExp_of_unplaced n (.inl rfl) hlines (fun m hm => (hkinds m hm).wellTagged) hplaces

/-- The kinds of the trees that are ever read all read back. -/
theorem readable_of_parse {text file : String} {root : Node} (h : parse text file = .ok root) :
    ∀ n ∈ root.preorder, n.kind.Readable := by
  intro n hn
  unfold parse at h
  split at h
  · cases h
  · next e he =>
    obtain ⟨elements, pos, hlist, hdescribed⟩ := exists_describedBy e h n hn
    rcases hkind : n.kind with _ | _ | ⟨tag, text⟩
    · trivial
    · trivial
    · have htagged := hdescribed.wellTagged
      obtain ⟨pos', hsymbol⟩ := hdescribed.exists_symbol hkind
      have hpart := SExp.mem_subexpressions_of_element hlist hsymbol
      have hreadable : Atom.Readable (.symbol tag) := SExp.readable_of_parse he _ _ hpart
      rw [hkind] at htagged
      exact ⟨readsAsSymbol_iff.2 hreadable, htagged⟩

/-- The lines of the trees that are ever read fit a machine word, as the sizes of their texts do. -/
theorem line_lt_of_parse {text file : String} {root : Node} (hsize : text.utf8ByteSize < wordBound)
    (h : parse text file = .ok root) : ∀ n ∈ root.preorder, n.location.line < wordBound := by
  intro n hn
  unfold parse at h
  split at h
  · cases h
  · next e he =>
    obtain ⟨elements, pos, hlist, hdescribed⟩ := exists_describedBy e h n hn
    rcases hdescribed.line with hline | hline
    · exact hline
    · have hpos := SExp.line_le_of_parse he hlist
      omega

/-! ## The exact domain -/

/-- **The trees that read back.** A tree whose lines fit a machine word reads back from its text if and only if
    all its kinds are readable, whatever the indentation and the file that the reader assumes. In particular a
    tree that was read from any text does. -/
theorem roundTrip_iff :
    (∀ root : Node, (∀ n ∈ root.preorder, n.location.line < wordBound) → ∀ (indent : Nat) (file : String),
      parse (root.print indent) file = .ok root ↔ ∀ n ∈ root.preorder, n.kind.Readable) ∧
      ∀ (text file : String) (root : Node), text.utf8ByteSize < wordBound → parse text file = .ok root →
        ∀ (indent : Nat) (file' : String), parse (root.print indent) file' = .ok root := by
  constructor
  · intro root hlines indent file
    constructor
    · intro h
      exact readable_of_parse h
    · intro hkinds
      exact parse_print_of_readable hlines hkinds indent file
  · intro text file root hsize h indent file'
    have hlines := line_lt_of_parse hsize h
    have hkinds := readable_of_parse h
    exact parse_print_of_readable hlines hkinds indent file'

/-- A page with nodes of all kinds, whose declaration has to be escaped. -/
def writtenPage : Node :=
  { root "page.css" with
    children := [
      { unresolvedRule with children := [declaration "content: \"\n\""] },
      { marker "base.css" with children := [{ rule ".a" with inherited := true, location := ⟨"base.css", 7⟩ }] }] }

theorem roundTrip_iff_writtenPage :
    parse (writtenPage.print 0) "other.css" = .ok writtenPage ∧
      parse (writtenPage.print 4) "page.css" = .ok writtenPage ∧
        parse ((other "nil" "").print 2) "page.css" ≠ .ok (other "nil" "") := by
  have hflat := (roundTrip_iff.1 writtenPage (by decide) 0 "other.css").2 (by decide)
  have hdeep := roundTrip_iff.2 (writtenPage.print 0) "other.css" writtenPage (by decide +kernel) hflat 4 "page.css"
  have hnil := (roundTrip_iff.1 (other "nil" "") (by decide) 2 "page.css").not.2 (by decide)
  exact ⟨hflat, hdeep, hnil⟩

end Node

end StyleTree
