import StyleTree.Toml.Scalar

/-!
# `StyleTree.Toml.Read` — settings documents as text

A document is read line by line: an entry, the header of a table, a comment or nothing. A string or an array may
go on over several lines. A document that says anything a setting could not hold is refused as a whole.

The readers of values, entries and headers (`Toml.value?`, `Toml.entry?`, `Toml.header?`) each come with the
lemma that they leave less text than they were given, or at least no more, by which `Toml.parse?` ends.
-/

namespace StyleTree.Toml

/-! ## Tables -/

/-- What is read, with the text behind it. -/
def withRest {α : Type} (make : String → α) : List Char × List Char → α × List Char
  | (cs, rest) => (make (String.ofList cs), rest)

theorem eq_some_of_withRest {α : Type} {make : String → α} {read : Option (List Char × List Char)} {a : α}
    {rest : List Char} (h : read.map (withRest make) = some (a, rest)) : ∃ cs, read = some (cs, rest) := by
  obtain ⟨⟨cs, behind⟩, hread, hmake⟩ := Option.map_eq_some_iff.1 h
  cases hmake
  exact ⟨cs, hread⟩

/-- Reads a key. -/
def key? (text : List Char) : Option (String × List Char) :=
  match text with
  | '"' :: text => (basicBody false false text).map (withRest id)
  | '\'' :: text => (literalBody false text).map (withRest id)
  | text =>
    if (text.takeWhile isBareKeyChar).isEmpty then none
    else some (String.ofList (text.takeWhile isBareKeyChar), text.dropWhile isBareKeyChar)

/-- A key takes at least one character, quoted or not. -/
theorem length_key? {text rest : List Char} {key : String} (h : key? text = some (key, rest)) :
    rest.length < text.length := by
  unfold key? at h
  split at h
  · obtain ⟨cs, hread⟩ := eq_some_of_withRest h
    exact Nat.lt_succ_of_lt (length_basicBody hread)
  · obtain ⟨cs, hread⟩ := eq_some_of_withRest h
    exact Nat.lt_succ_of_lt (length_literalBody hread)
  · split at h
    · cases h
    · next hne =>
      cases h
      have hlength := congrArg List.length (List.takeWhile_append_dropWhile (p := isBareKeyChar) (l := text))
      rw [List.isEmpty_iff, ← List.length_eq_zero_iff] at hne
      rw [List.length_append] at hlength
      omega

/-- Reads keys with dots between them, and the blanks behind them. -/
def keyPath? (text : List Char) : Option (List String × List Char) :=
  match _ : key? text with
  | none => none
  | some (key, rest) =>
    match _ : rest.dropWhile isGap with
    | '.' :: behind =>
      (keyPath? (behind.dropWhile isGap)).map fun (keys, rest) => (key :: keys, rest)
    | behind => some ([key], behind)
termination_by text.length
decreasing_by
  have := length_key? ‹key? text = _›
  have hrest := (List.dropWhile_sublist (l := rest) isGap).length_le
  have := (List.dropWhile_sublist (l := behind) isGap).length_le
  rw [‹rest.dropWhile isGap = _›, List.length_cons] at hrest
  omega

/-- Keys with dots between them take at least one character. -/
theorem length_keyPath? {text rest : List Char} {keys : List String}
    (h : keyPath? text = some (keys, rest)) : rest.length < text.length := by
  fun_induction keyPath? text generalizing keys with
  | case1 => cases h
  | case2 text key after hkey behind hbehind ih =>
    obtain ⟨⟨keys, rest⟩, hread, hkeys⟩ := Option.map_eq_some_iff.1 h
    cases hkeys
    have := ih hread
    have := length_key? hkey
    have hafter := (List.dropWhile_sublist (l := after) isGap).length_le
    have := (List.dropWhile_sublist (l := behind) isGap).length_le
    rw [hbehind, List.length_cons] at hafter
    omega
  | case3 text key after hkey =>
    cases h
    exact Nat.lt_of_le_of_lt (List.dropWhile_sublist (l := after) isGap).length_le (length_key? hkey)

/-- Skips blanks, line ends and comments inside an array. The flag says whether the text begins inside a
    comment. -/
def skipFiller (inComment : Bool) : List Char → Option (List Char)
  | [] => none
  | c :: text =>
    if c == '\n' then skipFiller false text
    else if inComment then if isPlain c then skipFiller true text else none
    else if isGap c then skipFiller false text
    else if c == '#' then skipFiller true text
    else some (c :: text)

theorem length_skipFiller {inComment : Bool} {text rest : List Char}
    (h : skipFiller inComment text = some rest) : rest.length ≤ text.length := by
  fun_induction skipFiller inComment text <;> grind

/-- What is left behind a table or an array with nothing in it. -/
def behindEmpty? : List Char → Option (List Char)
  | '\x7b' :: text =>
    match text.dropWhile isGap with
    | '\x7d' :: rest => some rest
    | _ => none
  | '[' :: text =>
    match skipFiller false text with
    | some (']' :: rest) => some rest
    | _ => none
  | _ => none

theorem length_behindEmpty? {text rest : List Char} (h : behindEmpty? text = some rest) :
    rest.length ≤ text.length := by
  unfold behindEmpty? at h
  split at h
  · next text =>
    split at h
    · next hgap =>
      cases h
      have hlength := (List.dropWhile_sublist (l := text) isGap).length_le
      rw [hgap, List.length_cons] at hlength
      rw [List.length_cons]
      omega
    · cases h
  · next text =>
    split at h
    · next hfiller =>
      cases h
      have hlength := length_skipFiller hfiller
      rw [List.length_cons] at hlength
      rw [List.length_cons]
      omega
    · cases h
  · cases h

/-- Reads a table on one line from behind its opening brace, if all it holds is an empty value. -/
def choice? (text : List Char) : Option (Value × List Char) :=
  match keyPath? (text.dropWhile isGap) with
  | some ([key], '=' :: text) =>
    match (behindEmpty? (text.dropWhile isGap)).map (·.dropWhile isGap) with
    | some ('\x7d' :: rest) => some (.choice key, rest)
    | _ => none
  | _ => none

theorem length_choice? {text rest : List Char} {value : Value} (h : choice? text = some (value, rest)) :
    rest.length ≤ text.length := by
  unfold choice? at h
  split at h
  · next key behind hpath =>
    split at h
    · next hclosed =>
      cases h
      obtain ⟨after, hempty, hgap⟩ := Option.map_eq_some_iff.1 hclosed
      have hpath := length_keyPath? hpath
      have hempty := length_behindEmpty? hempty
      have hafter := (List.dropWhile_sublist (l := after) isGap).length_le
      have := (List.dropWhile_sublist (l := behind) isGap).length_le
      have := (List.dropWhile_sublist (l := text) isGap).length_le
      rw [hgap] at hafter
      simp only [List.length_cons] at hpath hafter
      omega
    · cases h
  · cases h

/-- Reads a table or an array. -/
def table? (text : List Char) : Option (Value × List Char) :=
  match behindEmpty? text with
  | some rest => some (.empty, rest)
  | none =>
    match text with
    | '\x7b' :: text => choice? text
    | _ => none

theorem length_table? {text rest : List Char} {value : Value} (h : table? text = some (value, rest)) :
    rest.length ≤ text.length := by
  unfold table? at h
  split at h
  · next hempty =>
    cases h
    exact length_behindEmpty? hempty
  · split at h
    · exact Nat.le_succ_of_le (length_choice? h)
    · cases h

/-! ## Lines -/

/-- Reads a value. -/
def value? (text : List Char) : Option (Value × List Char) :=
  match text with
  | '"' :: '"' :: '"' :: text => (basicBody true false (dropFirstLineEnd text)).map (withRest .string)
  | '\'' :: '\'' :: '\'' :: text => (literalBody true (dropFirstLineEnd text)).map (withRest .string)
  | '"' :: text => (basicBody false false text).map (withRest .string)
  | '\'' :: text => (literalBody false text).map (withRest .string)
  | '\x7b' :: _ | '[' :: _ => table? text
  | text =>
    (scalar? (text.takeWhile isScalarChar)).map fun value => (value, text.dropWhile isScalarChar)

/-- A value, of whatever type, leaves no more text than it was given. -/
theorem length_value? {text rest : List Char} {value : Value} (h : value? text = some (value, rest)) :
    rest.length ≤ text.length := by
  unfold value? at h
  split at h
  · next text =>
    obtain ⟨cs, hread⟩ := eq_some_of_withRest h
    have := length_basicBody hread
    have := length_dropFirstLineEnd text
    simp only [List.length_cons]
    omega
  · next text =>
    obtain ⟨cs, hread⟩ := eq_some_of_withRest h
    have := length_literalBody hread
    have := length_dropFirstLineEnd text
    simp only [List.length_cons]
    omega
  · obtain ⟨cs, hread⟩ := eq_some_of_withRest h
    have := length_basicBody hread
    rw [List.length_cons]
    omega
  · obtain ⟨cs, hread⟩ := eq_some_of_withRest h
    have := length_literalBody hread
    rw [List.length_cons]
    omega
  · exact length_table? h
  · exact length_table? h
  · obtain ⟨_, _, heq⟩ := Option.map_eq_some_iff.1 h
    cases heq
    exact (List.dropWhile_sublist (l := text) isScalarChar).length_le

/-- What is left behind a comment, up to the line end. -/
def behindComment? (text : List Char) : Option (List Char) :=
  if (text.takeWhile (· != '\n')).all isPlain then some (text.dropWhile (· != '\n')) else none

theorem length_behindComment? {text rest : List Char} (h : behindComment? text = some rest) :
    rest.length ≤ text.length := by
  unfold behindComment? at h
  split at h
  · cases h
    exact (List.dropWhile_sublist (l := text) _).length_le
  · cases h

/-- What is left behind the blanks and the comment at the end of a line, up to the line end. -/
def lineEnd? (text : List Char) : Option (List Char) :=
  match text.dropWhile isGap with
  | [] => some []
  | '\n' :: text => some ('\n' :: text)
  | '#' :: text => behindComment? text
  | _ => none

theorem length_lineEnd? {text rest : List Char} (h : lineEnd? text = some rest) :
    rest.length ≤ text.length := by
  have hlength := (List.dropWhile_sublist (l := text) isGap).length_le
  unfold lineEnd? at h
  split at h
  · cases h
    exact Nat.zero_le _
  · next hgap =>
    cases h
    rw [← hgap]
    exact hlength
  · next hgap =>
    have := length_behindComment? h
    rw [hgap, List.length_cons] at hlength
    omega
  · cases h

/-- A line that says something. -/
inductive Line where
  /-- A value with its keys. -/
  | entry (entry : Entry)
  /-- The header of a table. -/
  | header (path : List String)

/-- Reads keys with their value, to the end of the line. -/
def entry? (text : List Char) : Option (Line × List Char) :=
  match keyPath? text with
  | some (path, '=' :: behind) =>
    match value? (behind.dropWhile isGap) with
    | some (value, rest) => (lineEnd? rest).map fun rest => (.entry ⟨path, value⟩, rest)
    | none => none
  | _ => none

/-- An entry takes at least its key. -/
theorem length_entry? {text rest : List Char} {line : Line} (h : entry? text = some (line, rest)) :
    rest.length < text.length := by
  unfold entry? at h
  split at h
  · next path behind hpath =>
    split at h
    · next value after hvalue =>
      obtain ⟨_, hend, heq⟩ := Option.map_eq_some_iff.1 h
      cases heq
      have hpath := length_keyPath? hpath
      have := length_value? hvalue
      have := length_lineEnd? hend
      have := (List.dropWhile_sublist (l := behind) isGap).length_le
      rw [List.length_cons] at hpath
      omega
    · cases h
  · cases h

/-- Reads the header of a table from behind its opening bracket, to the end of the line. -/
def header? (text : List Char) : Option (Line × List Char) :=
  match keyPath? (text.dropWhile isGap) with
  | some (path, ']' :: rest) => (lineEnd? rest).map fun rest => (.header path, rest)
  | _ => none

/-- A header takes at least its bracket. -/
theorem length_header? {text rest : List Char} {line : Line} (h : header? text = some (line, rest)) :
    rest.length < text.length := by
  unfold header? at h
  split at h
  · next path behind hpath =>
    obtain ⟨_, hend, heq⟩ := Option.map_eq_some_iff.1 h
    cases heq
    have hpath := length_keyPath? hpath
    have := length_lineEnd? hend
    have := (List.dropWhile_sublist (l := text) isGap).length_le
    rw [List.length_cons] at hpath
    omega
  · cases h

/-- Reads a line that is neither empty nor a mere comment. -/
def line? : List Char → Option (Line × List Char)
  | '[' :: text => header? text
  | text => entry? text

/-- A line takes at least one character, by which the lines of a document come to an end. -/
theorem length_line? {text rest : List Char} {line : Line} (h : line? text = some (line, rest)) :
    rest.length < text.length := by
  unfold line? at h
  split at h
  · exact Nat.lt_succ_of_lt (length_header? h)
  · exact length_entry? h

/-! ## Documents -/

/-- Reads the lines of a document. -/
def lines? (text : List Char) : Option (List Line) :=
  match _ : text.dropWhile isGap with
  | [] => some []
  | '\n' :: rest => lines? rest
  | '#' :: comment =>
    match _ : behindComment? comment with
    | some rest => lines? rest
    | none => none
  | c :: rest =>
    match _ : line? (c :: rest) with
    | some (line, rest) => (lines? rest).map (line :: ·)
    | none => none
termination_by text.length
decreasing_by
  all_goals
    have hlength := (List.dropWhile_sublist (l := text) isGap).length_le
    rw [‹text.dropWhile isGap = _›, List.length_cons] at hlength
  · omega
  · have := length_behindComment? ‹behindComment? comment = _›
    omega
  · have hline := length_line? ‹line? _ = _›
    rw [List.length_cons] at hline
    omega

/-- The document made of the given lines: each header takes the entries behind it. -/
def Document.ofLines : List Line → Document
  | [] => ⟨[], []⟩
  | line :: lines =>
    let behind := ofLines lines
    match line with
    | .entry entry => { behind with entries := entry :: behind.entries }
    | .header path => ⟨[], ⟨path, behind.entries⟩ :: behind.sections⟩

/-- The document that a text is. A mark of the byte order may stand at the start. -/
def parse? (text : String) : Option Document :=
  let lines := match text.toList with
    | '\ufeff' :: text => (unifyLineEnds text).bind lines?
    | text => (unifyLineEnds text).bind lines?
  lines.map Document.ofLines

end StyleTree.Toml
