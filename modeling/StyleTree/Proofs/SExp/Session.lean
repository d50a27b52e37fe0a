import StyleTree.Proofs.SExp.Marks
import StyleTree.SExp.Session

/-!
# `Proofs.SExp.Session` — a session is a stream of expressions

Whatever a caller asks for, and in whatever order, the tokens are taken from left to right, none twice and none from
the end mark on. Where the end mark stands, or whether there is one, cannot be told from the answers: no step looks
further than the first (`answers_append`).

As long as the tokens are those of whole expressions in a row, each request is answered with the next of them
(`answers_of_spelledAll`); behind the last one every answer is the same (`answers_of_atEnd`). `answers_stream` is about
any tokens and any requests.
-/

namespace StyleTree

namespace Token

/-! ## The end -/

/-- The tokens before the first end mark, or all of them if there is none. -/
def beforeEnd (tokens : List Token) : List Token :=
  tokens.takeWhile fun token => token.kind ≠ .endOfInput

/-- Whether nothing that counts is left: there are no tokens, or the first is an end mark. -/
def AtEnd (tokens : List Token) : Prop :=
  ∀ token ∈ tokens.head?, token.kind = .endOfInput

theorem exists_eq_beforeEnd_append (tokens : List Token) : ∃ rest, tokens = beforeEnd tokens ++ rest ∧ AtEnd rest := by
  refine ⟨tokens.dropWhile fun token => token.kind ≠ .endOfInput, List.takeWhile_append_dropWhile.symm, ?_⟩
  intro token htoken
  have hstop := List.head?_dropWhile_not (fun token : Token => token.kind ≠ .endOfInput) tokens
  rw [Option.mem_def.1 htoken] at hstop
  simpa using hstop

end Token

namespace SExp

/-! ## What follows the end -/

section End

variable {rest : List Token} (hrest : Token.AtEnd rest)

include hrest

/-- **What follows the end** changes no reading, and is left. -/
theorem readInside_append (stack : List OpenList) (own : List Token) :
    readInside stack (own ++ rest) = ((readInside stack own).1, (readInside stack own).2 ++ rest) := by
  induction own generalizing stack with
  | nil =>
    cases rest with
    | nil => rfl
    | cons token rest =>
      have hkind : token.kind = .endOfInput := hrest token rfl
      show readInside stack (token :: rest) = _
      simp only [readInside, ReadStep.ofToken, hkind]
      rfl
  | cons token own ih =>
    rw [List.cons_append, readInside, readInside]
    cases ReadStep.ofToken stack token with
    | inside stack' => exact ih stack'
    | complete e => rfl
    | fail error => rfl

theorem expectEnd_append (own : List Token) : expectEnd (own ++ rest) = expectEnd own := by
  cases own with
  | cons token own => rfl
  | nil =>
    cases rest with
    | nil => rfl
    | cons token rest => exact if_pos (hrest token rfl)

/-- What follows the end of the tokens that count changes no answer, and is left behind the tokens that are. -/
theorem answer_append (own : List Token) (request : Request) :
    answer (own ++ rest) request = ((answer own request).1, (answer own request).2 ++ rest) := by
  cases request with
  | expression =>
    rw [answer, answer, read, readInside_append hrest, ← read]
    cases read own with
    | mk result left => cases result <;> rfl
  | ending =>
    rw [answer, answer, expectEnd_append hrest]
    cases expectEnd own <;> rfl

/-- **No answer tells what follows the end.** -/
theorem answers_append (own : List Token) (requests : List Request) :
    answers (own ++ rest) requests = ((answers own requests).1, (answers own requests).2 ++ rest) := by
  induction requests generalizing own with
  | nil => rfl
  | cons request requests ih =>
    rw [answers, answer_append hrest]
    dsimp only
    rw [ih]
    rfl

end End

/-! ## What is taken -/

/-- Whatever becomes of a reading, the tokens that it leaves are the last ones. -/
theorem readInside_suffix (stack : List OpenList) (tokens : List Token) : (readInside stack tokens).2 <:+ tokens := by
  induction tokens generalizing stack with
  | nil => exact List.suffix_rfl
  | cons token tokens ih =>
    rw [readInside]
    cases ReadStep.ofToken stack token with
    | inside stack' => exact (ih stack').trans (List.suffix_cons token tokens)
    | complete e => exact List.suffix_cons token tokens
    | fail error => exact List.suffix_rfl

/-- **One request** leaves the last tokens. -/
theorem answer_suffix (tokens : List Token) (request : Request) : (answer tokens request).2 <:+ tokens := by
  cases request with
  | expression =>
    have hread := readInside_suffix [] tokens
    rw [← read] at hread
    rw [answer]
    rcases hresult : read tokens with ⟨result, left⟩
    rw [hresult] at hread
    cases result <;> exact hread
  | ending =>
    rw [answer]
    cases expectEnd tokens <;> exact List.suffix_rfl

/-- Requests are answered in turn. -/
theorem answers_concat (tokens : List Token) (requests more : List Request) :
    answers tokens (requests ++ more)
      = ((answers tokens requests).1 ++ (answers (answers tokens requests).2 more).1,
        (answers (answers tokens requests).2 more).2) := by
  induction requests generalizing tokens with
  | nil => rfl
  | cons request requests ih =>
    rw [List.cons_append, answers]
    dsimp only
    rw [ih]
    rfl

/-- **A whole session** leaves the last tokens. -/
theorem answers_suffix (tokens : List Token) (requests : List Request) : (answers tokens requests).2 <:+ tokens := by
  induction requests generalizing tokens with
  | nil => exact List.suffix_rfl
  | cons request requests ih => exact (ih _).trans (answer_suffix tokens request)

/-- How many tokens have been taken when the requests are answered. -/
def cursor (tokens : List Token) (requests : List Request) : Nat :=
  tokens.length - (answers tokens requests).2.length

/-- The tokens left are those behind the cursor. -/
theorem answers_eq_drop (tokens : List Token) (requests : List Request) :
    (answers tokens requests).2 = tokens.drop (cursor tokens requests) :=
  List.suffix_iff_eq_drop.1 (answers_suffix tokens requests)

/-- Further requests put no token back. -/
theorem cursor_mono (tokens : List Token) (requests more : List Request) :
    cursor tokens requests ≤ cursor tokens (requests ++ more) := by
  have hlength := (answers_suffix (answers tokens requests).2 more).length_le
  rw [cursor, cursor, answers_concat]
  dsimp only
  omega

theorem cursor_le (tokens : List Token) (requests : List Request) :
    cursor tokens requests ≤ (Token.beforeEnd tokens).length := by
  obtain ⟨rest, htokens, hrest⟩ := Token.exists_eq_beforeEnd_append tokens
  have hlength := congrArg List.length htokens
  rw [cursor]
  conv => lhs; rw [htokens, answers_append hrest]
  simp only [List.length_append]
  omega

/-! ## Expressions in a row -/

theorem answers_of_spelledAll {es : List SExp} {own : List Token} (h : SpelledAll es own) (rest : List Token) :
    answers (own ++ rest) (es.map fun _ => .expression) = (es.map .expression, rest) := by
  induction es generalizing own with
  | nil =>
    rw [SpelledAll] at h
    rw [h]
    rfl
  | cons e es ih =>
    obtain ⟨first, others, rfl, hfirst, hothers⟩ := h
    have hanswer : answer (first ++ (others ++ rest)) .expression = (.expression e, others ++ rest) := by
      rw [answer, read_of_spelled hfirst]
    rw [List.append_assoc, List.map_cons, answers, hanswer]
    dsimp only
    rw [ih hothers]
    rfl

/-- What is answered when nothing is left. -/
def lastAnswer : Request → Answer
  | .expression => .refusal .emptyInput
  | .ending => .ending

theorem answer_of_atEnd {rest : List Token} (h : Token.AtEnd rest) (request : Request) :
    answer rest request = (lastAnswer request, rest) := by
  have happend := answer_append h [] request
  cases request <;> exact happend

theorem answers_of_atEnd {rest : List Token} (h : Token.AtEnd rest) (requests : List Request) :
    answers rest requests = (requests.map lastAnswer, rest) := by
  induction requests with
  | nil => rfl
  | cons request requests ih =>
    rw [answers, answer_of_atEnd h]
    dsimp only
    rw [ih]
    rfl

/-! ## Sessions -/

/-- An expression is asked for last. -/
theorem answers_expression {tokens : List Token} {requests : List Request} {e : SExp}
    (h : (answers tokens (requests ++ [.expression])).1 = (answers tokens requests).1 ++ [.expression e]) :
    ∃ taken, (answers tokens requests).2 = taken ++ (answers tokens (requests ++ [.expression])).2 ∧
      e.Spelled taken := by
  rw [answers_concat] at h ⊢
  have hanswer := List.append_cancel_left h
  rw [answers, answer] at hanswer ⊢
  rcases hread : read (answers tokens requests).2 with ⟨result, left⟩
  rw [hread] at hanswer
  cases result with
  | error error => simp [answers] at hanswer
  | ok e' =>
    simp only [answers, List.cons.injEq, Answer.expression.injEq, and_true] at hanswer
    subst hanswer
    exact spelled_of_read hread

theorem cursor_add_length (tokens : List Token) (requests : List Request) :
    cursor tokens requests + (answers tokens requests).2.length = tokens.length := by
  have hlength := (answers_suffix tokens requests).length_le
  rw [cursor]
  omega

/-- What has been taken in between lies between the two places of the cursor. -/
theorem drop_take_cursor {tokens taken : List Token} {requests more : List Request}
    (h : (answers tokens requests).2 = taken ++ (answers tokens (requests ++ more)).2) :
    (tokens.take (cursor tokens (requests ++ more))).drop (cursor tokens requests) = taken ∧
      cursor tokens (requests ++ more) = cursor tokens requests + taken.length := by
  have hbefore := cursor_add_length tokens requests
  have hbehind := cursor_add_length tokens (requests ++ more)
  have hlength : cursor tokens (requests ++ more) = cursor tokens requests + taken.length := by
    rw [h, List.length_append] at hbefore
    omega
  refine ⟨?_, hlength⟩
  rw [List.drop_take, ← answers_eq_drop, h, hlength, Nat.add_sub_cancel_left, List.take_left]

/-- **A session is a stream of expressions.** Whatever is asked for, and wherever the end mark stands, if there is one:
    the answers are those on the tokens before it; the cursor never goes past them, nor back, and what is left is what
    stands behind it; an expression that is returned takes at least one token, and just those that bear its marks. If
    the tokens bear the marks of some expressions one after the other, these are returned in turn, with their places,
    and from then on there is only the end: it is confirmed whenever that is asked for, and no expression is found. -/
theorem answers_stream (tokens : List Token) (requests : List Request) :
    (answers tokens requests).1 = (answers (Token.beforeEnd tokens) requests).1 ∧
    (answers tokens requests).2 = tokens.drop (cursor tokens requests) ∧
    cursor tokens requests ≤ (Token.beforeEnd tokens).length ∧
    (∀ more, cursor tokens requests ≤ cursor tokens (requests ++ more)) ∧
    (∀ e, (answers tokens (requests ++ [.expression])).1 = (answers tokens requests).1 ++ [.expression e] →
      cursor tokens requests < cursor tokens (requests ++ [.expression]) ∧
        ((tokens.take (cursor tokens (requests ++ [.expression]))).drop (cursor tokens requests)).map Token.mark?
          = e.marks.map some) ∧
    ∀ (es : List SExp) (more : List Request), (Token.beforeEnd tokens).map Token.mark? = (es.flatMap marks).map some →
      (answers tokens (es.map (fun _ => .expression) ++ more)).1 = es.map .expression ++ more.map lastAnswer := by
  obtain ⟨rest, htokens, hrest⟩ := Token.exists_eq_beforeEnd_append tokens
  refine ⟨?_, answers_eq_drop tokens requests, cursor_le tokens requests, cursor_mono tokens requests, ?_, ?_⟩
  · conv => lhs; rw [htokens, answers_append hrest]
  · intro e he
    obtain ⟨taken, hleft, hspelled⟩ := answers_expression he
    obtain ⟨htaken, hcursor⟩ := drop_take_cursor hleft
    rw [htaken]
    refine ⟨?_, marks_of_spelled hspelled⟩
    have hpos : 0 < taken.length := List.length_pos_iff.2 (ne_nil_of_spelled hspelled)
    omega
  · intro es more hmarks
    have hinturn := answers_of_spelledAll (spelledAll_iff_marks.2 hmarks) rest
    rw [← htokens] at hinturn
    rw [answers_concat, hinturn, answers_of_atEnd hrest]

/-- An atom and an empty list, with another atom behind the end mark. -/
def endedTokens : List Token :=
  [⟨.symbol, "a", ⟨0, 1, 1⟩⟩, ⟨.openParen, "(", ⟨2, 1, 3⟩⟩, ⟨.closeParen, ")", ⟨3, 1, 4⟩⟩, Token.endOfInput ⟨4, 1, 5⟩,
    ⟨.symbol, "b", ⟨4, 1, 5⟩⟩]

theorem answers_stream_endedTokens :
    ((endedTokens.take 3).drop 1).map Token.mark? = [some (.opening ⟨2, 1, 3⟩), some .closing] ∧
      (answers endedTokens [.expression, .expression, .ending, .expression, .ending]).1
        = [.expression (.atom (.symbol "a") ⟨0, 1, 1⟩), .expression (.list [] ⟨2, 1, 3⟩), .ending, .refusal .emptyInput,
          .ending] := by
  obtain ⟨-, -, -, -, htaken, -⟩ := answers_stream endedTokens [.ending, .expression]
  obtain ⟨-, -, -, -, -, hinturn⟩ := answers_stream endedTokens []
  refine ⟨(htaken (.list [] ⟨2, 1, 3⟩) rfl).2, ?_⟩
  exact hinturn [.atom (.symbol "a") ⟨0, 1, 1⟩, .list [] ⟨2, 1, 3⟩] [.ending, .expression, .ending] rfl

end SExp

end StyleTree
