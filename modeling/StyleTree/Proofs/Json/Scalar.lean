import Mathlib.Data.List.TakeWhile
import StyleTree.Json.Print
import StyleTree.Json.Read
import StyleTree.Proofs.Prelude

/-!
# `Proofs.Json.Scalar` — strings and numbers read back

What is written for a character of a string is read as that character alone, so a string reads back character by
character (`decodeString_encode`). What is written for a number that fits a machine word is read as that number
(`numberOf?_decimal`): it has no leading zero, all its digits are taken, and it is far from the end of the range.
-/

namespace StyleTree.Json

/-! ## Strings -/

/-- The controls read back from their code points. There are few of them, and they are looked up one by one. -/
theorem ofUnit?_of_control : ∀ code ∈ List.range 0x20,
    hexValue? ['0', '0', Nat.digitChar (code / 16), Nat.digitChar (code % 16)] = some code ∧
      ofUnit? code = some (Char.ofNat code) := by
  decide

/-- **One character** is read back, and nothing of the text behind it. -/
theorem decodeString_encodeChar (c : Char) (text : List Char) :
    decodeString (encodeChar c ++ text) = decodeString.adding (some c) (decodeString text) := by
  unfold encodeChar
  split
  case h_8 hquote hbackslash _ _ _ _ _ =>
    split
    · next hcontrol =>
      obtain ⟨hvalue, hunit⟩ := ofUnit?_of_control c.toNat (List.mem_range.2 hcontrol)
      simp only [List.cons_append, List.nil_append, decodeString, hvalue, hunit, Char.ofNat_toNat]
    · next hcontrol =>
      -- The character stands for itself, since it is no mark and no control.
      have hplain : (c == '\\' || decide (c.toNat < 0x20)) = false := by
        simpa [hcontrol] using hbackslash
      rw [List.singleton_append, decodeString, hplain]
      · rfl
      · exact hquote
      · exact fun _ _ _ _ _ hc _ => hbackslash hc
      · exact fun _ _ hc _ => hbackslash hc
  all_goals simp [decodeString, shortEscape?]

/-- **A string** is read back up to its closing quote. -/
theorem decodeString_encode (s rest : List Char) :
    decodeString (s.flatMap encodeChar ++ '"' :: rest) = some (some s, rest) := by
  induction s with
  | nil => simp [decodeString]
  | cons c s ih =>
    rw [List.flatMap_cons, List.append_assoc, decodeString_encodeChar, ih]
    rfl

/-! ## Numbers -/

theorem isDigit_of_mem_decimal {n : Nat} {c : Char} (h : c ∈ decimal n) : c.isDigit = true :=
  Nat.isDigit_of_mem_toDigits (by decide) (by decide) h

theorem decimal_ne_nil (n : Nat) : decimal n ≠ [] :=
  Nat.toDigits_ne_nil

/-- Only zero is written with a zero in front. -/
theorem eq_zero_of_head_decimal (n : Nat) (h : (decimal n).head? = some '0') : n = 0 := by
  induction n using Nat.strongRecOn with
  | ind n ih =>
    by_cases hsmall : n < 10
    · rw [decimal, Nat.toDigits_of_lt_base hsmall] at h
      exact Nat.digitChar_eq_zero.1 (Option.some.inj h)
    · -- The first digit is that of the tenth part, which would be zero.
      have htenth : (decimal (n / 10)).head? = some '0' := by
        rwa [decimal, Nat.toDigits_of_base_le (by decide) (Nat.le_of_not_lt hsmall), List.head?_append,
          Option.or_of_isSome (by simp [Nat.toDigits_ne_nil])] at h
      have hzero := ih (n / 10) (by omega) htenth
      omega

/-- All digits are taken if the number that they make fits a machine word. -/
theorem takeDigits_eq (digits : List Char) : ∀ taken : Nat, Nat.ofDigitChars 10 digits taken < wordBound →
    takeDigits taken digits = (Nat.ofDigitChars 10 digits taken, 0) := by
  induction digits with
  | nil =>
    intro taken _
    rfl
  | cons digit digits ih =>
    intro taken hfits
    rw [Nat.ofDigitChars_cons, Nat.mul_comm] at hfits ⊢
    have hmore : taken * 10 + (digit.toNat - '0'.toNat) < wordBound :=
      Nat.lt_of_le_of_lt (Nat.le_ofDigitChars digits _) hfits
    rw [takeDigits, if_pos hmore]
    exact ih _ hfits

/-- Rounding no more than doubles a number. -/
theorem roundToDouble_le (n : Nat) : roundToDouble n ≤ 2 * n := by
  by_cases hn : n = 0
  · rw [hn]
    decide
  · -- The unit is at most the power of two below the number.
    have hunit : Nat.pow 2 (n.log2 + 1 - 53) ≤ n :=
      Nat.le_trans (Nat.pow_le_pow_right (by decide) (by omega)) (Nat.log2_self_le hn)
    have hquotient := Nat.div_mul_le_self n (Nat.pow 2 (n.log2 + 1 - 53))
    unfold roundToDouble
    dsimp only
    split
    · rw [Nat.add_mul, Nat.one_mul]
      omega
    · omega

/-- A number that fits a machine word is far from infinity. -/
theorem overflows_decimal {n : Nat} (h : n < wordBound) : NumberParts.overflows ⟨decimal n, [], 0⟩ = false := by
  have hvalue : Nat.ofDigitChars 10 (decimal n) 0 = n := Nat.ofDigitChars_ten_toDigits
  have htake : takeDigits 0 (decimal n) = (n, 0) := by
    rw [takeDigits_eq _ _ (hvalue.symm ▸ h), hvalue]
  have hscaled : NumberParts.scaled ⟨decimal n, [], 0⟩ = (n, 0) := by
    simp [NumberParts.scaled, htake, takeDigits]
  have hround : roundToDouble n * roundToDouble (Nat.pow 10 0) < doubleBound := by
    have hone : roundToDouble (Nat.pow 10 0) = 1 := by decide
    have hbound : 2 * wordBound < doubleBound := by decide +kernel
    have hle := roundToDouble_le n
    rw [hone, Nat.mul_one]
    omega
  have hpower : ¬ ((greatestPower : Int) < 0) := by decide
  rw [NumberParts.overflows, hscaled]
  simp only [Int.lt_irrefl, or_false, gt_iff_lt, if_neg hpower]
  split
  · rfl
  · exact decide_eq_false (Nat.not_le.2 hround)

/-- The numeral of a number is a whole part and nothing else. -/
theorem numberParts?_decimal (n : Nat) : numberParts? (decimal n) = some ⟨decimal n, [], 0⟩ := by
  have hwhole : (decimal n).takeWhile Char.isDigit = decimal n :=
    List.takeWhile_eq_self_iff.2 fun _ hc => isDigit_of_mem_decimal hc
  have hrest : (decimal n).dropWhile Char.isDigit = [] :=
    List.dropWhile_eq_nil_iff.2 fun _ hc => isDigit_of_mem_decimal hc
  have hlead : ((decimal n).isEmpty || (decimal n).head? == some '0' && decimal n != ['0']) = false := by
    rw [List.isEmpty_eq_false_iff.2 (decimal_ne_nil n), Bool.false_or]
    cases hhead : (decimal n).head? == some '0' with
    | false => rfl
    | true =>
      rw [eq_zero_of_head_decimal n (beq_iff_eq.1 hhead)]
      decide
  have hunsigned : unsignedParts? (decimal n) = some ⟨decimal n, [], 0⟩ := by
    rw [unsignedParts?, hwhole, hrest]
    dsimp only
    rw [hlead]
    rfl
  unfold numberParts?
  split
  · next text hminus =>
    have hdigit : '-'.isDigit = true := isDigit_of_mem_decimal (hminus ▸ List.mem_cons_self : '-' ∈ decimal n)
    exact absurd hdigit (by decide)
  · exact hunsigned

/-- **A number that fits a machine word** is read back. -/
theorem numberOf?_decimal {n : Nat} (h : n < wordBound) : numberOf? (decimal n) = some (.natural n) := by
  have hvalue : Nat.ofDigitChars 10 (decimal n) 0 = n := Nat.ofDigitChars_ten_toDigits
  rw [numberOf?, numberParts?_decimal]
  simp only [overflows_decimal h, hvalue, h, Bool.false_eq_true, if_false, and_self, if_true]

/-! ## Characters of numbers -/

theorem isNumberChar_of_isDigit {c : Char} (h : c.isDigit = true) : isNumberChar c = true := by
  simp [isNumberChar, h]

theorem isNumberChar_of_digits? {text : List Char} {n : Nat} (h : digits? text = some n) :
    ∀ c ∈ text, isNumberChar c = true := by
  unfold digits? at h
  split at h
  · next hdigits =>
    rw [Bool.and_eq_true, List.all_eq_true] at hdigits
    exact fun c hc => isNumberChar_of_isDigit (hdigits.2 c hc)
  · cases h

theorem isNumberChar_of_exponent? {text : List Char} {e : Int} (h : exponent? text = some e) :
    ∀ c ∈ text, isNumberChar c = true := by
  unfold exponent? at h
  split at h
  · exact List.forall_mem_nil _
  · next mark rest =>
    split at h
    · next hmark =>
      refine List.forall_mem_cons.2 ⟨by rcases hmark with rfl | rfl <;> decide, ?_⟩
      split at h
      · obtain ⟨_, hvalue, -⟩ := Option.map_eq_some_iff.1 h
        obtain ⟨n, hn, -⟩ := Option.bind_eq_some_iff.1 hvalue
        exact List.forall_mem_cons.2 ⟨by decide, isNumberChar_of_digits? hn⟩
      · obtain ⟨n, hn, -⟩ := Option.map_eq_some_iff.1 h
        exact List.forall_mem_cons.2 ⟨by decide, isNumberChar_of_digits? hn⟩
      · obtain ⟨n, hn, -⟩ := Option.map_eq_some_iff.1 h
        exact isNumberChar_of_digits? hn
    · cases h

/-- A number without its sign begins with a digit and goes on with characters of numbers. -/
theorem exists_cons_of_unsignedParts? {text : List Char} {parts : NumberParts} (h : unsignedParts? text = some parts) :
    ∃ c rest, text = c :: rest ∧ c.isDigit = true ∧ ∀ d ∈ text, isNumberChar d = true := by
  have hsplit : text.takeWhile Char.isDigit ++ text.dropWhile Char.isDigit = text := List.takeWhile_append_dropWhile
  have hwhole : ∀ c ∈ text.takeWhile Char.isDigit, isNumberChar c = true := fun c hc =>
    isNumberChar_of_isDigit (List.all_eq_true.1 List.all_takeWhile c hc)
  unfold unsignedParts? at h
  dsimp only at h
  split at h
  · cases h
  next hlead =>
  have hrest : ∀ c ∈ text.dropWhile Char.isDigit, isNumberChar c = true := by
    split at h
    · next more hpoint =>
      split at h
      · cases h
      · obtain ⟨e, he, -⟩ := Option.map_eq_some_iff.1 h
        have hmore : more.takeWhile Char.isDigit ++ more.dropWhile Char.isDigit = more :=
          List.takeWhile_append_dropWhile
        rw [hpoint, ← hmore]
        refine List.forall_mem_cons.2 ⟨by decide, List.forall_mem_append.2 ⟨?_, isNumberChar_of_exponent? he⟩⟩
        exact fun c hc => isNumberChar_of_isDigit (List.all_eq_true.1 List.all_takeWhile c hc)
    · obtain ⟨e, he, -⟩ := Option.map_eq_some_iff.1 h
      exact isNumberChar_of_exponent? he
  cases text with
  | nil => simp at hlead
  | cons c rest =>
    refine ⟨c, rest, rfl, ?_, ?_⟩
    · -- If the first character were no digit, the whole part would be empty.
      cases hdigit : c.isDigit with
      | true => rfl
      | false => simp [hdigit] at hlead
    · rw [← hsplit]
      exact List.forall_mem_append.2 ⟨hwhole, hrest⟩

/-- **A number** begins with a digit or a minus sign and is made of characters of numbers. -/
theorem exists_cons_of_numberOf? {text : List Char} {value : Json} (h : numberOf? text = some value) :
    ∃ c rest, text = c :: rest ∧ (c = '-' ∨ c.isDigit = true) ∧ ∀ d ∈ text, isNumberChar d = true := by
  unfold numberOf? at h
  split at h
  · cases h
  · next parts hparts =>
    unfold numberParts? at hparts
    split at hparts
    · next text =>
      obtain ⟨_, _, -, -, hchars⟩ := exists_cons_of_unsignedParts? hparts
      exact ⟨'-', text, rfl, .inl rfl, List.forall_mem_cons.2 ⟨by decide, hchars⟩⟩
    · obtain ⟨c, rest, htext, hdigit, hchars⟩ := exists_cons_of_unsignedParts? hparts
      exact ⟨c, rest, htext, .inr hdigit, hchars⟩

end StyleTree.Json
