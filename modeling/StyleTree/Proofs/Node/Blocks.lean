import StyleTree.Proofs.Node.Described
import StyleTree.Proofs.SExp.RoundTrip

/-!
# `Proofs.Node.Blocks` — one line for each node

An expression that is written for a tree is made of blocks: a block is a list with atoms in front and blocks behind them
(`SExp.Block`). The layout gives each block a line to begin, on which its atoms stand, and no atom breaks its line,
since a line feed inside a string is escaped (`oneLine_of_readable`). So the blocks of an expression begin on
consecutive lines, `lines_printedAt`.
-/

namespace StyleTree

/-! ## Atoms -/

/-- An atom that is written without a line feed. -/
def Atom.OneLine (a : Atom) : Prop :=
  '\n' ∉ a.spelling

theorem not_mem_escape (c : Char) : '\n' ∉ escape c := by
  unfold escape
  split
  case h_6 h _ _ _ _ => simpa using fun hc => h hc.symm
  all_goals decide

/-- A readable atom is written without a line feed: names and numerals have none, and strings escape theirs. -/
theorem Atom.oneLine_of_readable {a : Atom} (h : a.Readable) : a.OneLine := by
  have hchars : ∀ {name : List Char}, (∀ c ∈ name, isSymbolChar c = true) → '\n' ∉ name := by
    intro name hname hmem
    exact absurd (hname _ hmem) (by decide)
  cases a with
  | symbol name => exact hchars h.chars
  | keyword name =>
    rw [OneLine, spelling, List.mem_cons, not_or]
    exact ⟨by decide, hchars h⟩
  | string value =>
    have hvalue : '\n' ∉ value.toList.flatMap escape := by
      intro hmem
      obtain ⟨c, -, hc⟩ := List.mem_flatMap.1 hmem
      exact not_mem_escape c hc
    simp [OneLine, spelling, quotedLiteral, hvalue]
  | number text =>
    obtain ⟨digits, -, hdigits, htext | htext⟩ := h
    · rw [OneLine, spelling, htext]
      exact hchars fun c hc => isSymbolChar_of_isDigit (hdigits c hc)
    · rw [OneLine, spelling, htext, List.mem_cons, not_or]
      exact ⟨by decide, hchars fun c hc => isSymbolChar_of_isDigit (hdigits c hc)⟩
  | nil =>
    show '\n' ∉ ['n', 'i', 'l']
    decide

namespace SExp

/-! ## Blocks -/

/-- Whether a keyword takes what comes behind the given atoms. The flag says whether one takes the first of them. -/
def taking (taken : Bool) (atoms : List SExp) : Bool :=
  atoms.foldl (fun taken e => !taken && e.isKeyword) taken

/-- A list of atoms on one line with blocks behind them, none of which a keyword takes as its value. -/
inductive Block : SExp → Prop
  /-- The atoms stand in front of the blocks. -/
  | list {atoms blocks : List SExp} {pos : Position} : (∀ e ∈ atoms, ∃ a pos', e = .atom a pos' ∧ a.OneLine) →
      taking false atoms = false → (∀ e ∈ blocks, e.Block) → Block (.list (atoms ++ blocks) pos)

/-! ## Atoms and blocks in a list -/

/-- **Atoms stay on the line** on which they begin, if nothing before them went on a line of its own. -/
theorem exists_printedRest_atoms (indent depth : Nat) {atoms : List SExp}
    (h : ∀ e ∈ atoms, ∃ a pos', e = .atom a pos' ∧ a.OneLine) (blocks : List SExp) (behind : List Char) :
    ∀ (place : Place) (pos : Position) (taken : Bool), place ≠ .ownLine → ∃ (place' : Place) (pos' : Position),
      pos'.line = pos.line ∧
      descriptionsIn taken (printedRest indent depth place pos (atoms ++ blocks))
        = descriptionsIn (taking taken atoms) (printedRest indent depth place' pos' blocks) ∧
      (writeRest indent depth place (atoms ++ blocks) behind).count '\n'
        = (writeRest indent depth place' blocks behind).count '\n' := by
  induction atoms with
  | nil =>
    intro place pos taken _
    exact ⟨place, pos, rfl, rfl, rfl⟩
  | cons e atoms ih =>
    intro place pos taken hplace
    obtain ⟨⟨a, atomPos, rfl, hline⟩, hatoms⟩ := List.forall_mem_cons.1 h
    have hnext : place.next (.atom a atomPos) = .sameLine := by simp [Place.next, isList, hplace]
    have hlead : (place.lead (depth * indent) (.atom a atomPos)).count '\n' = 0 := by
      unfold Place.lead
      rw [hnext]
      cases place <;> rfl
    have hspelling : a.spelling.count '\n' = 0 := List.count_eq_zero.2 hline
    have hkeyword : ∀ pos', (SExp.atom a pos').isKeyword = (SExp.atom a atomPos).isKeyword := by
      intro pos'
      cases a <;> rfl
    obtain ⟨place', pos', hpos, hdescriptions, hcount⟩ := ih hatoms .sameLine
      (pos.advanceAll (place.lead (depth * indent) (.atom a atomPos) ++ write indent depth (.atom a atomPos) []))
      (!taken && (SExp.atom a atomPos).isKeyword) (by simp)
    refine ⟨place', pos', ?_, ?_, ?_⟩
    · rw [hpos, Position.line_advanceAll, write, List.append_nil, List.count_append, hlead, hspelling]
      rfl
    · rw [List.cons_append, printedRest, hnext, printedAt, descriptionsIn]
      cases taken with
      | true => exact hdescriptions
      | false =>
        rw [if_neg Bool.false_ne_true, hkeyword]
        exact hdescriptions
    · rw [List.cons_append, writeRest, hnext, write, List.count_append, List.count_append, hlead, hspelling, hcount]
      omega

/-- **Blocks begin on lines of their own**, one below the other, if each of them has its lines. -/
theorem lines_printedRest_blocks (indent depth : Nat) {blocks : List SExp} (hlists : ∀ e ∈ blocks, e.isList = true)
    (h : ∀ e ∈ blocks, ∀ pos, (e.printedAt indent depth pos).descriptions.map (·.position.line)
      = List.range' pos.line ((write indent depth e []).count '\n' + 1)) :
    ∀ (place : Place) (pos : Position),
      (descriptionsIn false (printedRest indent depth place pos blocks)).map (·.position.line)
        = List.range' (pos.line + 1) ((writeRest indent depth place blocks []).count '\n') := by
  induction blocks with
  | nil =>
    intro place pos
    rfl
  | cons e blocks ih =>
    intro place pos
    obtain ⟨hlist, hlists⟩ := List.forall_mem_cons.1 hlists
    obtain ⟨hfirst, hrest⟩ := List.forall_mem_cons.1 h
    have hnext : place.next e = .ownLine := by simp [Place.next, hlist]
    have hlead : (place.lead (depth * indent) e).count '\n' = 1 := by
      unfold Place.lead
      rw [hnext]
      simp [List.count_replicate]
    have hkeyword : (e.printedAt indent depth (pos.advanceAll (place.lead (depth * indent) e))).isKeyword = false := by
      cases e with
      | atom a pos' => cases hlist
      | list elements pos' => rfl
    have hcount : (writeRest indent depth place (e :: blocks) []).count '\n'
        = (write indent depth e []).count '\n' + 1 + (writeRest indent depth .ownLine blocks []).count '\n' := by
      rw [writeRest, hnext, write_eq_append, List.count_append, List.count_append, hlead]
      omega
    -- The first block begins on the next line, and the others below its last.
    have hbegin : (pos.advanceAll (place.lead (depth * indent) e)).line = pos.line + 1 := by
      rw [Position.line_advanceAll, hlead]
    have hbelow : (pos.advanceAll (place.lead (depth * indent) e ++ write indent depth e [])).line + 1
        = pos.line + 1 + ((write indent depth e []).count '\n' + 1) := by
      rw [Position.line_advanceAll, List.count_append, hlead]
      omega
    rw [printedRest, descriptionsIn, if_neg Bool.false_ne_true, hkeyword, List.map_append, hfirst, hbegin, hnext,
      ih hlists hrest, hbelow, hcount, List.range'_append_1]

/-! ## A whole block -/

/-- **The lists of a block begin on the lines of its text**, one on each. -/
theorem lines_printedAt {e : SExp} (h : e.Block) (indent : Nat) : ∀ (depth : Nat) (pos : Position),
    (e.printedAt indent depth pos).descriptions.map (·.position.line)
      = List.range' pos.line ((write indent depth e []).count '\n' + 1) := by
  induction h with
  | @list atoms blocks listPos hatoms htaking hblocks ih =>
    intro depth pos
    have hlists : ∀ e ∈ blocks, e.isList = true := by
      intro e he
      cases hblocks e he
      rfl
    obtain ⟨place, pos', hpos, hdescriptions, hcount⟩ :=
      exists_printedRest_atoms indent (depth + 1) hatoms blocks [] .first (pos.advance '(') false (by simp)
    have hrest := lines_printedRest_blocks indent (depth + 1) hlists (fun e he => ih e he (depth + 1)) place pos'
    have hwrite : (write indent depth (.list (atoms ++ blocks) listPos) []).count '\n'
        = (writeRest indent (depth + 1) place blocks []).count '\n' := by
      rw [write, List.count_cons_of_ne (by decide), hcount]
    rw [printedAt, descriptions, hdescriptions, htaking, List.map_cons, hrest, hpos, hwrite, Nat.add_comm,
      List.range'_succ]
    rfl

end SExp

end StyleTree
