import StyleTree.Proofs.SExp.Places
import StyleTree.Proofs.Token.Layout
import StyleTree.SExp.Read

/-!
# `Proofs.SExp.Layout` — the same tokens elsewhere

Reading looks at what the tokens are and copies their places, but never looks at a place. So if the places are taken
away from the tokens and from the open lists, each step does what it did, without the places, and so does a whole
reading (`readInside_unplaced`). Hence the words of a text, otherwise apart, make the same expression or the same fault:
`parse_of_relaid`.
-/

namespace StyleTree

/-! ## Open lists and steps -/

/-- The open list as if it came from no text. -/
def OpenList.unplaced (l : OpenList) : OpenList :=
  ⟨.synthetic, l.reversed.map SExp.unplaced⟩

theorem OpenList.close_unplaced (l : OpenList) : l.unplaced.close = l.close.unplaced := by
  rw [close, close, SExp.unplaced_list, List.map_reverse]
  rfl

namespace ReadStep

/-- What a token does, as if it came from no text. -/
def unplaced : ReadStep → ReadStep
  | .inside stack => .inside (stack.map OpenList.unplaced)
  | .complete e => .complete e.unplaced
  | .fail error => .fail error.unplaced

theorem deliver_unplaced (e : SExp) (stack : List OpenList) :
    deliver e.unplaced (stack.map OpenList.unplaced) = (deliver e stack).unplaced := by
  cases stack <;> rfl

theorem atEnd_unplaced (stack : List OpenList) : atEnd (stack.map OpenList.unplaced) = (atEnd stack).unplaced := by
  cases stack <;> rfl

/-- **One token** does the same without the places. -/
theorem ofToken_unplaced (stack : List OpenList) (token : Token) :
    ofToken (stack.map OpenList.unplaced) token.unplaced = (ofToken stack token).unplaced := by
  obtain ⟨kind, lexeme, pos⟩ := token
  cases kind with
  | openParen => rfl
  | closeParen =>
    cases stack with
    | nil => rfl
    | cons innermost outer =>
      have hdeliver := deliver_unplaced innermost.close outer
      rwa [← OpenList.close_unplaced] at hdeliver
  | symbol => exact deliver_unplaced (.atom (.symbol lexeme) pos) stack
  | keyword => exact deliver_unplaced (.atom (.keyword lexeme) pos) stack
  | string => exact deliver_unplaced (.atom (.string lexeme) pos) stack
  | number => exact deliver_unplaced (.atom (.number lexeme) pos) stack
  | nil => exact deliver_unplaced (.atom .nil pos) stack
  | endOfInput => exact congrArg ReadStep.fail (atEnd_unplaced stack)

end ReadStep

namespace SExp

/-! ## A whole reading -/

/-- **All tokens** are read to the same expression or the same fault without the places, and the same are left. -/
theorem readInside_unplaced (stack : List OpenList) (tokens : List Token) :
    readInside (stack.map OpenList.unplaced) (tokens.map Token.unplaced)
      = (withoutPlaces unplaced (readInside stack tokens).1, (readInside stack tokens).2.map Token.unplaced) := by
  induction tokens generalizing stack with
  | nil =>
    rw [List.map_nil, readInside, readInside, ReadStep.atEnd_unplaced]
    rfl
  | cons token tokens ih =>
    rw [List.map_cons, readInside, readInside, ReadStep.ofToken_unplaced]
    cases ReadStep.ofToken stack token with
    | inside stack' => exact ih stack'
    | complete e => rfl
    | fail error => rfl

theorem expectEnd_unplaced (tokens : List Token) :
    withoutPlaces id (expectEnd (tokens.map Token.unplaced)) = withoutPlaces id (expectEnd tokens) := by
  cases tokens with
  | nil => rfl
  | cons token tokens =>
    obtain ⟨kind, lexeme, pos⟩ := token
    cases kind <;> rfl

/-- A text is read off its tokens, and none may be left. -/
theorem parse_of_scan {text : String} {tokens : List Token} (h : Token.scan text = .ok tokens) :
    parse text = (read tokens).1 >>= fun e => expectEnd (read tokens).2 >>= fun _ => .ok e := by
  rw [parse, h]
  dsimp only
  split
  · next hread => rw [hread]; rfl
  · next e rest hread =>
    rw [hread]
    show _ = expectEnd rest >>= fun _ => .ok e
    cases expectEnd rest <;> rfl

/-! ## Two texts -/

variable {text text' : String} {tokens tokens' : List Token}

/-- Two texts with the same tokens but for their places are read to the same. -/
theorem parse_of_tokens (h : Token.scan text = .ok tokens) (h' : Token.scan text' = .ok tokens')
    (hsame : tokens'.map Token.unplaced = tokens.map Token.unplaced) :
    withoutPlaces unplaced (parse text') = withoutPlaces unplaced (parse text) := by
  -- Both readings are the one without places, each with its own places taken away.
  have hread : ∀ tokens, read (tokens.map Token.unplaced)
      = (withoutPlaces unplaced (read tokens).1, (read tokens).2.map Token.unplaced) := readInside_unplaced []
  have hboth := (hread tokens').symm.trans (hsame ▸ hread tokens)
  obtain ⟨hvalue, hleft⟩ := Prod.mk.inj hboth
  rw [parse_of_scan h, parse_of_scan h']
  refine withoutPlaces_bind hvalue fun e' e he => ?_
  have hend : withoutPlaces id (expectEnd (read tokens').2) = withoutPlaces id (expectEnd (read tokens).2) := by
    rw [← expectEnd_unplaced (read tokens').2, hleft, expectEnd_unplaced]
  exact withoutPlaces_bind hend fun _ _ _ => congrArg Except.ok he

/-- **The words of a text, otherwise apart,** make the same expression but for its places, or the same fault. -/
theorem parse_of_relaid {words words' : List Token.Word} {last last' : List Char}
    (h : Token.Divides [] text.toList words last tokens) (hrelaid : Token.Relaid words words' last')
    (htext : text'.toList = Token.textOf words' last') :
    withoutPlaces unplaced (parse text') = withoutPlaces unplaced (parse text) := by
  obtain ⟨tokens', h', hsame⟩ := Token.exists_divides_of_relaid h hrelaid []
  rw [← htext] at h'
  refine parse_of_tokens (Token.scanFrom_of_divides h) (Token.scanFrom_of_divides h') ?_
  rw [List.map_append, List.map_append, hsame]
  rfl

end SExp

end StyleTree
