import StyleTree.SExp.Read

/-!
# `StyleTree.SExp.Session` — one token list read in several steps

A caller can take expressions off a token list one after the other, and ask at any time whether that was all. Each
request goes on with the tokens that the one before it left, also if that one was refused (`SExp.answers`).
-/

namespace StyleTree.SExp

/-! ## Requests -/

/-- What a caller can ask for. -/
inductive Request where
  /-- The next expression. -/
  | expression
  /-- That nothing is left. -/
  | ending
deriving DecidableEq, Repr

/-- What a caller is told. -/
inductive Answer where
  /-- The expression asked for. -/
  | expression (e : SExp)
  /-- Nothing is left. -/
  | ending
  /-- Why the request cannot be met. -/
  | refusal (error : ReadError)
deriving Repr

/-! ## Sessions -/

/-- Answers one request; returns the answer with the tokens left for the next request. -/
def answer (tokens : List Token) : Request → Answer × List Token
  | .expression =>
    match read tokens with
    | (.ok e, left) => (.expression e, left)
    | (.error error, left) => (.refusal error, left)
  | .ending =>
    match expectEnd tokens with
    | .ok () => (.ending, tokens)
    | .error error => (.refusal error, tokens)

/-- Answers one request after the other; returns the answers with the tokens left by the last. -/
def answers (tokens : List Token) : List Request → List Answer × List Token
  | [] => ([], tokens)
  | request :: requests =>
    let (first, left) := answer tokens request
    let (others, last) := answers left requests
    (first :: others, last)

end StyleTree.SExp
