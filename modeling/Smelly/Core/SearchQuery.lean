/-
Module: Smelly.Core.SearchQuery
Purpose: Search expressions: the recursive descent parser over tokens, with the optional and, and
  the evaluation of its trees, which narrows the candidates for each side.
Trusted boundary: human-reviewed model of Parser and the tree nodes in
  smelly/search_query_parser.py, from the token list on.  Each call takes one of the recursions that
  Python allows; what str.lower does to keywords, parentheses and colons is assumed of
  `Casing.lower`
-/
import Mathlib.Data.Finset.Basic

namespace Smelly

namespace SearchQuery

/-- `TokenType`. -/
inductive TokenType where
  | opcode
  | word
  | quotedWord
  | eof
deriving DecidableEq, Repr

/-- `Token`. -/
structure Token where
  type : TokenType
  val : List Char
deriving DecidableEq, Repr

/-- `str.lower`, with what is known of it. -/
structure Casing where
  lower : List Char → List Char
  lower_and : lower "and".toList = "and".toList
  lower_or : lower "or".toList = "or".toList
  lower_not : lower "not".toList = "not".toList
  lower_open : lower ['('] = ['(']
  lower_close : lower [')'] = [')']
  lower_colon : ∀ text, ':' ∈ text → ':' ∈ lower text

/-! ### Trees -/

/-- `OrNode`, `AndNode`, `NotNode` and `TokenNode`. -/
inductive Node where
  | or (lhs rhs : Node)
  | and (lhs rhs : Node)
  | not (rhs : Node)
  | token (location query : List Char)
deriving DecidableEq, Repr

/-- `__call__`. -/
def Node.call {α : Type} [DecidableEq α]
    (getMatches : List Char → List Char → Finset α → Finset α) : Node → Finset α → Finset α
  | .or l r, candidates =>
    let lhs := l.call getMatches candidates
    lhs ∪ r.call getMatches (candidates \ lhs)
  | .and l r, candidates => r.call getMatches (l.call getMatches candidates)
  | .not r, candidates => candidates \ r.call getMatches candidates
  | .token location query, candidates => getMatches location query candidates

/-- `search`. -/
def Node.search {α : Type} [DecidableEq α] (self : Node) (universalSet : Finset α)
    (getMatches : List Char → List Char → Finset α → Finset α) : Finset α :=
  self.call getMatches universalSet

/-! ### The parser -/

/-- `ParseException`, and the end of the recursion. -/
inductive ParseError where
  | extraCharacters
  | missingParen
  | invalidSyntax
  | noLocation (tt : List Char)
  | tooMuchRecursion
deriving DecidableEq, Repr

/-- `msg`, for the `repr` of the query. -/
def ParseError.msg (reprQuery : List Char) : ParseError → List Char
  | .extraCharacters => "Extra characters at end of search".toList
  | .missingParen => "missing )".toList
  | .invalidSyntax => "Invalid syntax. Expected a lookup name or a word".toList
  | .noLocation tt => "No location specified before ".toList ++ tt
  | .tooMuchRecursion =>
    "Failed to parse ".toList ++ reprQuery ++ ", too much recursion required".toList

/-- `Parser`, without its tokens. -/
structure Parser where
  casing : Casing
  allowNoLocation : Bool
  locations : List (List Char)

/-- `token`, of the tokens that are still there. -/
def token? (tokens : List Token) : Option (List Char) := tokens.head?.map (·.val)

/-- `lcase_token`. -/
def Parser.lcaseToken (self : Parser) (tokens : List Token) : Option (List Char) :=
  tokens.head?.map fun token => self.casing.lower token.val

/-- `token_type`. -/
def tokenType (tokens : List Token) : TokenType :=
  (tokens.head?.map (·.type)).getD .eof

/-- `token_type in (WORD, QUOTED_WORD)`. -/
def startsWord (tokens : List Token) : Bool :=
  tokenType tokens = .word || tokenType tokens = .quotedWord

/-- What a rule of the grammar gives: the tree and the tokens behind it. -/
abbrev Result := Except ParseError (Node × List Token)

/-- `base_token`. -/
def Parser.baseToken (self : Parser) : List Token → Result
  | [] => .error .invalidSyntax
  | { type := .quotedWord, val := tt } :: rest =>
    if self.allowNoLocation then .ok (.token "all".toList tt, rest)
    else .error (.noLocation tt)
  | { type := _, val := tt } :: rest =>
    let words := tt.splitOn ':'
    let loc := self.casing.lower (words.headD [])
    if 1 < words.length ∧ loc ∈ self.locations then
      match rest with
      | { type := .quotedWord, val := quoted } :: behind =>
        if words.tail.length = 1 then .ok (.token loc quoted, behind)
        else .ok (.token (self.casing.lower loc) ([':'].intercalate words.tail), rest)
      | _ => .ok (.token (self.casing.lower loc) ([':'].intercalate words.tail), rest)
    else if self.allowNoLocation then
      .ok (.token "all".toList ([':'].intercalate words), rest)
    else .error (.noLocation tt)

mutual

/-- `or_expression`. -/
def Parser.orExpression (self : Parser) : Nat → List Token → Result
  | 0, _ => .error .tooMuchRecursion
  | depth + 1, tokens => do
      let (lhs, tokens) ← self.andExpression depth tokens
      if self.lcaseToken tokens = some "or".toList then
        let (rhs, tokens) ← self.orExpression depth tokens.tail
        return (.or lhs rhs, tokens)
      else return (lhs, tokens)

/-- `and_expression`. -/
def Parser.andExpression (self : Parser) : Nat → List Token → Result
  | 0, _ => .error .tooMuchRecursion
  | depth + 1, tokens => do
      let (lhs, tokens) ← self.notExpression depth tokens
      if self.lcaseToken tokens = some "and".toList then
        let (rhs, tokens) ← self.andExpression depth tokens.tail
        return (.and lhs rhs, tokens)
      else if (startsWord tokens ∨ token? tokens = some ['(']) ∧
          self.lcaseToken tokens ≠ some "or".toList then
        -- the optional 'and'
        let (rhs, tokens) ← self.andExpression depth tokens
        return (.and lhs rhs, tokens)
      else return (lhs, tokens)

/-- `not_expression`. -/
def Parser.notExpression (self : Parser) : Nat → List Token → Result
  | 0, _ => .error .tooMuchRecursion
  | depth + 1, tokens =>
    if self.lcaseToken tokens = some "not".toList then do
      let (rhs, tokens) ← self.notExpression depth tokens.tail
      return (.not rhs, tokens)
    else self.locationExpression depth tokens

/-- `location_expression`. -/
def Parser.locationExpression (self : Parser) : Nat → List Token → Result
  | 0, _ => .error .tooMuchRecursion
  | depth + 1, tokens =>
    if tokenType tokens = .opcode ∧ token? tokens = some ['('] then do
      let (res, tokens) ← self.orExpression depth tokens.tail
      if tokenType tokens ≠ .opcode ∨ token? tokens ≠ some [')'] then
        .error .missingParen
      else return (res, tokens.tail)
    else if !startsWord tokens then .error .invalidSyntax
    else self.baseToken tokens

end

/-- `parse`, from the tokens on, with the recursions that Python allows. -/
def Parser.parse (self : Parser) (recursions : Nat) (tokens : List Token) :
    Except ParseError Node := do
  let (prog, tokens) ← self.orExpression recursions tokens
  if tokens ≠ [] then .error .extraCharacters else return prog

end SearchQuery

end Smelly
