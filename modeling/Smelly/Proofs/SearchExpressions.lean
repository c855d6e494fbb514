/-
Module: Smelly.Proofs.SearchExpressions
Purpose: Search expressions, printed with every operand in parentheses, are parsed back exactly when
  no query without a location is read as the operator not, and a tree selects the candidates that
  satisfy its formula.
Trusted boundary: none
-/
import Smelly.Core.SearchQuery
import Mathlib.Data.Finset.Filter

namespace Smelly

namespace SearchQuery

/-! ### Evaluation -/

/-- The boolean formula of a tree, for one candidate. -/
def Node.holds {α : Type} (leaf : List Char → List Char → α → Bool) : Node → α → Bool
  | .or l r, x => l.holds leaf x || r.holds leaf x
  | .and l r, x => l.holds leaf x && r.holds leaf x
  | .not r, x => !r.holds leaf x
  | .token location query, x => leaf location query x

/-- A tree selects the candidates that satisfy its formula. -/
theorem call_holds {α : Type} [DecidableEq α] (leaf : List Char → List Char → α → Bool)
    (node : Node) :
    ∀ candidates : Finset α,
      node.call (fun location query among => among.filter fun x => leaf location query x)
        candidates = candidates.filter fun x => node.holds leaf x := by
  induction node with
  | or l r ihl ihr =>
    intro candidates
    rw [Node.call, ihl, ihr]
    ext x
    simp only [Finset.mem_union, Finset.mem_filter, Finset.mem_sdiff, Node.holds,
      Bool.or_eq_true, not_and]
    constructor
    · rintro (⟨member, left⟩ | ⟨⟨member, -⟩, right⟩)
      · exact ⟨member, Or.inl left⟩
      · exact ⟨member, Or.inr right⟩
    · rintro ⟨member, either⟩
      by_cases left : l.holds leaf x = true
      · exact Or.inl ⟨member, left⟩
      · exact Or.inr ⟨⟨member, fun _ => left⟩, either.resolve_left left⟩
  | and l r ihl ihr =>
    intro candidates
    rw [Node.call, ihl, ihr]
    ext x
    simp only [Finset.mem_filter, Node.holds, Bool.and_eq_true, and_assoc]
  | not r ih =>
    intro candidates
    rw [Node.call, ih]
    ext x
    simp only [Finset.mem_sdiff, Finset.mem_filter, Node.holds, Bool.not_eq_true', not_and,
      Bool.not_eq_true]
    constructor
    · rintro ⟨member, fails⟩
      exact ⟨member, fails member⟩
    · rintro ⟨member, fails⟩
      exact ⟨member, fun _ => fails⟩
  | token location query =>
    intro candidates
    rfl

/-! ### Printing -/

/-- Expressions: a query stands behind a location or alone. -/
inductive Expr where
  | or (l r : Expr)
  | and (l r : Expr)
  | not (r : Expr)
  | located (location query : List Char)
  | bare (query : List Char)
deriving DecidableEq, Repr

/-- The tree of an expression. -/
def Expr.node : Expr → Node
  | .or l r => .or l.node r.node
  | .and l r => .and l.node r.node
  | .not r => .not r.node
  | .located location query => .token location query
  | .bare query => .token "all".toList query

/-- Tokens in parentheses. -/
def parenthesised (tokens : List Token) : List Token :=
  { type := .opcode, val := ['('] } :: tokens ++ [{ type := .opcode, val := [')'] }]

/-- The tokens of an expression, with every operand in parentheses. -/
def Expr.print : Expr → List Token
  | .or l r =>
    parenthesised l.print ++ { type := .word, val := "or".toList } :: parenthesised r.print
  | .and l r =>
    parenthesised l.print ++ { type := .word, val := "and".toList } :: parenthesised r.print
  | .not r => { type := .word, val := "not".toList } :: parenthesised r.print
  | .located location query =>
    [{ type := .word, val := location ++ [':'] }, { type := .quotedWord, val := query }]
  | .bare query => [{ type := .quotedWord, val := query }]

/-- The printed form, where the whole expression may stand in parentheses too. -/
def printed (outer : Bool) (expr : Expr) : List Token :=
  if outer then parenthesised expr.print else expr.print

/-- The locations are known ones, and only with `allow_no_location` one is left out. -/
def Known (parser : Parser) : Expr → Prop
  | .or l r => Known parser l ∧ Known parser r
  | .and l r => Known parser l ∧ Known parser r
  | .not r => Known parser r
  | .located location _ => location ∈ parser.locations ∧ ':' ∉ location ∧
      parser.casing.lower location = location
  | .bare _ => parser.allowNoLocation = true

/-- No query without a location is the word not, in any case. -/
def NoBareNot (casing : Casing) : Expr → Prop
  | .or l r => NoBareNot casing l ∧ NoBareNot casing r
  | .and l r => NoBareNot casing l ∧ NoBareNot casing r
  | .not r => NoBareNot casing r
  | .located _ _ => True
  | .bare query => casing.lower query ≠ "not".toList

/-- The recursions that are enough for an expression. -/
def need : Expr → Nat
  | .or l r => max (need l) (need r) + 5
  | .and l r => max (need l) (need r) + 5
  | .not r => need r + 5
  | .located _ _ => 5
  | .bare _ => 5

/-! ### The rules of the grammar -/

variable {self : Parser}

/-- Tokens behind which an expression ends. -/
def Closed (rest : List Token) : Prop :=
  rest = [] ∨ ∃ more, rest = { type := .opcode, val := [')'] } :: more

/-- Tokens behind which a conjunction ends. -/
def Ends (self : Parser) (rest : List Token) : Prop :=
  self.lcaseToken rest ≠ some "and".toList ∧
    ¬((startsWord rest ∨ token? rest = some ['(']) ∧ self.lcaseToken rest ≠ some "or".toList)

theorem Closed.lcase {rest : List Token} (closed : Closed rest) (word : List Char)
    (other : word ≠ [')']) : self.lcaseToken rest ≠ some word := by
  obtain rfl | ⟨more, rfl⟩ := closed
  · exact fun same => nomatch same
  · intro same
    exact other ((Option.some.inj same).symm.trans self.casing.lower_close)

theorem Closed.ends {rest : List Token} (closed : Closed rest) : Ends self rest := by
  refine ⟨closed.lcase _ (by decide), ?_⟩
  rintro ⟨start, -⟩
  obtain rfl | ⟨more, rfl⟩ := closed
  · exact absurd start (by decide)
  · cases start with
    | inl word => exact absurd word (by simp [startsWord, tokenType])
    | inr opening => exact absurd (Option.some.inj opening) (by decide)

theorem orWord_ends (rest : List Token) :
    Ends self ({ type := .word, val := "or".toList } :: rest) := by
  have lower : self.lcaseToken ({ type := .word, val := "or".toList } :: rest) =
      some "or".toList := congrArg some self.casing.lower_or
  rw [Ends, lower]
  exact ⟨by decide, fun word => word.2 rfl⟩

theorem andExpression_done {depth : Nat} {tokens rest : List Token} {node : Node}
    (parsed : self.notExpression depth tokens = .ok (node, rest)) (ends : Ends self rest) :
    self.andExpression (depth + 1) tokens = .ok (node, rest) := by
  rw [Parser.andExpression, parsed]
  show (if self.lcaseToken rest = some "and".toList then _ else _) = _
  rw [if_neg ends.1, if_neg ends.2]
  rfl

theorem orExpression_done {depth : Nat} {tokens rest : List Token} {node : Node}
    (parsed : self.andExpression depth tokens = .ok (node, rest))
    (other : self.lcaseToken rest ≠ some "or".toList) :
    self.orExpression (depth + 1) tokens = .ok (node, rest) := by
  rw [Parser.orExpression, parsed]
  show (if self.lcaseToken rest = some "or".toList then _ else _) = _
  rw [if_neg other]
  rfl

/-- A rule that gives an error. -/
def Fails (result : Result) : Prop := ∃ error, result = .error error

theorem andExpression_fails {depth : Nat} {tokens : List Token}
    (fails : Fails (self.notExpression depth tokens)) :
    Fails (self.andExpression (depth + 1) tokens) := by
  obtain ⟨error, same⟩ := fails
  rw [Parser.andExpression, same]
  exact ⟨error, rfl⟩

theorem orExpression_fails {depth : Nat} {tokens : List Token}
    (fails : Fails (self.andExpression depth tokens)) :
    Fails (self.orExpression (depth + 1) tokens) := by
  obtain ⟨error, same⟩ := fails
  rw [Parser.orExpression, same]
  exact ⟨error, rfl⟩

/-- What is expected of an expression in front of `rest`. -/
def ParsesAs (good : Prop) (node : Node) (rest : List Token) (result : Result) : Prop :=
  (good → result = .ok (node, rest)) ∧ (¬good → Fails result)

/-- An expression in parentheses is read to its end. -/
theorem notExpression_parenthesised {good : Prop} {node : Node} {tokens : List Token}
    {enough : Nat} (inner : ∀ depth rest, enough ≤ depth → Closed rest →
      ParsesAs good node rest (self.orExpression depth (tokens ++ rest)))
    (depth : Nat) (deep : enough + 2 ≤ depth) (rest : List Token) :
    ParsesAs good node rest (self.notExpression depth (parenthesised tokens ++ rest)) := by
  obtain ⟨depth, rfl⟩ : ∃ less, depth = less + 2 := ⟨depth - 2, by omega⟩
  have plain : self.lcaseToken (parenthesised tokens ++ rest) ≠ some "not".toList := by
    intro same
    have lower := (Option.some.inj same).symm.trans self.casing.lower_open
    exact absurd lower (by decide)
  have opening : tokenType (parenthesised tokens ++ rest) = .opcode ∧
      token? (parenthesised tokens ++ rest) = some ['('] := ⟨rfl, rfl⟩
  have behind : (parenthesised tokens ++ rest).tail =
      tokens ++ { type := .opcode, val := [')'] } :: rest := by
    simp [parenthesised]
  obtain ⟨parses, fails⟩ := inner depth ({ type := .opcode, val := [')'] } :: rest) (by omega)
    (Or.inr ⟨rest, rfl⟩)
  rw [Parser.notExpression, if_neg plain, Parser.locationExpression, if_pos opening, behind]
  constructor
  · intro holds
    rw [parses holds]
    rfl
  · intro breaks
    obtain ⟨error, same⟩ := fails breaks
    rw [same]
    exact ⟨error, rfl⟩

/-- What is behind the operator of a disjunction. -/
theorem orExpression_or {goodL goodR : Prop} {l r : Node} {first second rest : List Token}
    {depth : Nat}
    (left : ParsesAs goodL l ({ type := .word, val := "or".toList } :: second ++ rest)
      (self.notExpression depth (first ++ { type := .word, val := "or".toList } :: second ++ rest)))
    (right : ParsesAs goodR r rest (self.orExpression (depth + 1) (second ++ rest))) :
    ParsesAs (goodL ∧ goodR) (.or l r) rest (self.orExpression (depth + 2)
      (first ++ { type := .word, val := "or".toList } :: second ++ rest)) := by
  have word : self.lcaseToken ({ type := .word, val := "or".toList } :: second ++ rest) =
      some "or".toList := congrArg some self.casing.lower_or
  by_cases holdsL : goodL
  · have lhs := andExpression_done (left.1 holdsL) (orWord_ends (second ++ rest))
    have step : self.orExpression (depth + 2)
        (first ++ { type := .word, val := "or".toList } :: second ++ rest) =
        (self.orExpression (depth + 1) (second ++ rest)).map
          fun parsed => (Node.or l parsed.1, parsed.2) := by
      rw [Parser.orExpression, lhs]
      show (if self.lcaseToken _ = some "or".toList then _ else _) = _
      rw [if_pos word]
      rfl
    rw [step]
    constructor
    · rintro ⟨-, holdsR⟩
      rw [right.1 holdsR]
      rfl
    · intro breaks
      obtain ⟨error, same⟩ := right.2 fun holdsR => breaks ⟨holdsL, holdsR⟩
      rw [same]
      exact ⟨error, rfl⟩
  · constructor
    · rintro ⟨holds, -⟩
      exact absurd holds holdsL
    · intro _
      exact orExpression_fails (andExpression_fails (left.2 holdsL))

/-- What is behind the operator of a conjunction. -/
theorem andExpression_and {goodL goodR : Prop} {l r : Node} {first second rest : List Token}
    {depth : Nat}
    (left : ParsesAs goodL l ({ type := .word, val := "and".toList } :: second ++ rest)
      (self.notExpression depth
        (first ++ { type := .word, val := "and".toList } :: second ++ rest)))
    (right : ParsesAs goodR r rest (self.andExpression depth (second ++ rest))) :
    ParsesAs (goodL ∧ goodR) (.and l r) rest (self.andExpression (depth + 1)
      (first ++ { type := .word, val := "and".toList } :: second ++ rest)) := by
  have word : self.lcaseToken ({ type := .word, val := "and".toList } :: second ++ rest) =
      some "and".toList := congrArg some self.casing.lower_and
  by_cases holdsL : goodL
  · have step : self.andExpression (depth + 1)
        (first ++ { type := .word, val := "and".toList } :: second ++ rest) =
        (self.andExpression depth (second ++ rest)).map
          fun parsed => (Node.and l parsed.1, parsed.2) := by
      rw [Parser.andExpression, left.1 holdsL]
      show (if self.lcaseToken _ = some "and".toList then _ else _) = _
      rw [if_pos word]
      rfl
    rw [step]
    constructor
    · rintro ⟨-, holdsR⟩
      rw [right.1 holdsR]
      rfl
    · intro breaks
      obtain ⟨error, same⟩ := right.2 fun holdsR => breaks ⟨holdsL, holdsR⟩
      rw [same]
      exact ⟨error, rfl⟩
  · constructor
    · rintro ⟨holds, -⟩
      exact absurd holds holdsL
    · intro _
      exact andExpression_fails (left.2 holdsL)

/-- What is behind the operator not. -/
theorem notExpression_not {good : Prop} {r : Node} {second rest : List Token} {depth : Nat}
    (right : ParsesAs good r rest (self.notExpression depth (second ++ rest))) :
    ParsesAs good (.not r) rest (self.notExpression (depth + 1)
      ({ type := .word, val := "not".toList } :: second ++ rest)) := by
  have word : self.lcaseToken ({ type := .word, val := "not".toList } :: second ++ rest) =
      some "not".toList := congrArg some self.casing.lower_not
  have advanced : ({ type := .word, val := "not".toList } :: second ++ rest).tail =
      second ++ rest := rfl
  rw [Parser.notExpression, if_pos word, advanced]
  constructor
  · intro holds
    rw [right.1 holds]
    rfl
  · intro breaks
    obtain ⟨error, same⟩ := right.2 breaks
    refine ⟨error, ?_⟩
    rw [same]
    rfl

/-- An expression that ends here, as a conjunction and as a disjunction. -/
theorem ParsesAs.closes {good : Prop} {node : Node} {tokens rest : List Token} {depth : Nat}
    (parsed : ParsesAs good node rest (self.notExpression depth tokens)) (closed : Closed rest) :
    ParsesAs good node rest (self.andExpression (depth + 1) tokens) ∧
      ParsesAs good node rest (self.orExpression (depth + 2) tokens) := by
  have conjunction : ParsesAs good node rest (self.andExpression (depth + 1) tokens) :=
    ⟨fun holds => andExpression_done (parsed.1 holds) closed.ends,
      fun breaks => andExpression_fails (parsed.2 breaks)⟩
  exact ⟨conjunction,
    fun holds => orExpression_done (conjunction.1 holds) (closed.lcase _ (by decide)),
    fun breaks => orExpression_fails (conjunction.2 breaks)⟩

/-! ### Leaves -/

theorem splitOn_location {location : List Char} (plain : ':' ∉ location) :
    (location ++ [':']).splitOn ':' = [location, []] := by
  induction location with
  | nil => decide
  | cons c location ih =>
    rw [List.mem_cons, not_or] at plain
    have other : (c == ':') = false := beq_eq_false_iff_ne.2 fun same => plain.1 same.symm
    rw [List.cons_append, List.splitOn_cons_eq_if_modifyHead, if_neg (by rw [other]; decide),
      ih plain.2]
    rfl

/-- A query behind a known location. -/
theorem notExpression_located {location : List Char} (known : location ∈ self.locations)
    (plain : ':' ∉ location) (lower : self.casing.lower location = location)
    (query : List Char) (depth : Nat) (rest : List Token) :
    self.notExpression (depth + 2) ((Expr.located location query).print ++ rest) =
      .ok (.token location query, rest) := by
  have word : self.lcaseToken ((Expr.located location query).print ++ rest) ≠
      some "not".toList := by
    intro same
    have colon := self.casing.lower_colon (location ++ [':']) (by simp)
    have lowered : self.casing.lower (location ++ [':']) = "not".toList := Option.some.inj same
    rw [lowered] at colon
    exact absurd colon (by decide)
  rw [Parser.notExpression, if_neg word, Parser.locationExpression,
    if_neg (by simp [Expr.print, tokenType]), if_neg (by simp [Expr.print, startsWord, tokenType])]
  show self.baseToken ({ type := .word, val := location ++ [':'] } ::
    { type := .quotedWord, val := query } :: rest) = _
  simp only [Parser.baseToken, splitOn_location plain]
  simp [lower, known]

/-- A query without a location, unless it is read as the operator. -/
theorem notExpression_bare {query : List Char} (allowed : self.allowNoLocation = true)
    (depth : Nat) {rest : List Token} (closed : Closed rest) :
    ParsesAs (self.casing.lower query ≠ "not".toList) (.token "all".toList query) rest
      (self.notExpression (depth + 3) ((Expr.bare query).print ++ rest)) := by
  constructor
  · intro other
    have word : self.lcaseToken ((Expr.bare query).print ++ rest) ≠ some "not".toList :=
      fun same => other (Option.some.inj same)
    rw [Parser.notExpression, if_neg word, Parser.locationExpression,
      if_neg (by simp [Expr.print, tokenType]),
      if_neg (by simp [Expr.print, startsWord, tokenType])]
    show self.baseToken ({ type := .quotedWord, val := query } :: rest) = _
    rw [Parser.baseToken, if_pos allowed]
  · intro same
    have word : self.lcaseToken ((Expr.bare query).print ++ rest) = some "not".toList :=
      congrArg some (not_not.1 same)
    have next : self.lcaseToken rest ≠ some "not".toList := closed.lcase _ (by decide)
    have noParen : ¬(tokenType rest = .opcode ∧ token? rest = some ['(']) := by
      rintro ⟨-, opening⟩
      obtain rfl | ⟨more, rfl⟩ := closed
      · cases opening
      · exact absurd (Option.some.inj opening) (by decide)
    have noWord : (!startsWord rest) = true := by
      obtain rfl | ⟨more, rfl⟩ := closed
      · decide
      · simp [startsWord, tokenType]
    refine ⟨.invalidSyntax, ?_⟩
    have advanced : ((Expr.bare query).print ++ rest).tail = rest := rfl
    rw [Parser.notExpression, if_pos word, advanced, Parser.notExpression, if_neg next, Parser.locationExpression, if_neg noParen,
      if_pos noWord]
    rfl

/-! ### Expressions -/

/-- An expression in front of a closing parenthesis or the end is parsed exactly if it has no bare
not. -/
theorem orExpression_print (expr : Expr) (known : Known self expr) :
    ∀ depth rest, need expr ≤ depth → Closed rest →
      ParsesAs (NoBareNot self.casing expr) expr.node rest
        (self.orExpression depth (expr.print ++ rest)) := by
  induction expr with
  | or l r ihl ihr =>
    intro depth rest deep closed
    rw [need] at deep
    obtain ⟨depth, rfl⟩ : ∃ less, depth = less + 4 := ⟨depth - 4, by omega⟩
    have left := notExpression_parenthesised (ihl known.1) (depth + 2) (by omega)
      ({ type := .word, val := "or".toList } :: parenthesised r.print ++ rest)
    have right := notExpression_parenthesised (ihr known.2) (depth + 1) (by omega) rest
    rw [← List.append_assoc] at left
    exact orExpression_or left (right.closes closed).2
  | and l r ihl ihr =>
    intro depth rest deep closed
    rw [need] at deep
    obtain ⟨depth, rfl⟩ : ∃ less, depth = less + 4 := ⟨depth - 4, by omega⟩
    have left := notExpression_parenthesised (ihl known.1) (depth + 2) (by omega)
      ({ type := .word, val := "and".toList } :: parenthesised r.print ++ rest)
    have right := notExpression_parenthesised (ihr known.2) (depth + 1) (by omega) rest
    rw [← List.append_assoc] at left
    have whole := andExpression_and left (right.closes closed).1
    exact ⟨fun holds => orExpression_done (whole.1 holds) (closed.lcase _ (by decide)),
      fun breaks => orExpression_fails (whole.2 breaks)⟩
  | not r ih =>
    intro depth rest deep closed
    rw [need] at deep
    obtain ⟨depth, rfl⟩ : ∃ less, depth = less + 3 := ⟨depth - 3, by omega⟩
    have right := notExpression_parenthesised (ih known) depth (by omega) rest
    exact ((notExpression_not right).closes closed).2
  | located location query =>
    intro depth rest deep closed
    rw [need] at deep
    obtain ⟨depth, rfl⟩ : ∃ less, depth = less + 4 := ⟨depth - 4, by omega⟩
    have parsed := notExpression_located known.1 known.2.1 known.2.2 query depth rest
    have leaf : ParsesAs True (.token location query) rest (self.notExpression (depth + 2)
        ((Expr.located location query).print ++ rest)) :=
      ⟨fun _ => parsed, fun never => absurd trivial never⟩
    exact (leaf.closes closed).2
  | bare query =>
    intro depth rest deep closed
    rw [need] at deep
    obtain ⟨depth, rfl⟩ : ∃ less, depth = less + 5 := ⟨depth - 5, by omega⟩
    exact ((notExpression_bare known depth closed).closes closed).2

/-- A tree that selects by its formula, whatever the candidates and the predicate for leaves are. -/
def SelectsByFormula (node : Node) : Prop :=
  ∀ (α : Type) [DecidableEq α] (leaf : List Char → List Char → α → Bool)
    (universalSet : Finset α),
    node.search universalSet
      (fun location query among => among.filter fun x => leaf location query x) =
        universalSet.filter fun x => node.holds leaf x

/-- A printed expression is parsed back to its tree, which selects by its formula, exactly if no
query without a location is the word not. -/
theorem parsesBack_iff (parser : Parser) (expr : Expr) (known : Known parser expr) (outer : Bool)
    (recursions : Nat) (deep : need expr + 4 ≤ recursions) :
    (parser.parse recursions (printed outer expr) = .ok expr.node ∧ SelectsByFormula expr.node) ↔
      NoBareNot parser.casing expr := by
  have selects : SelectsByFormula expr.node := fun α _ leaf universalSet =>
    call_holds leaf expr.node universalSet
  have whole : ParsesAs (NoBareNot parser.casing expr) expr.node []
      (parser.orExpression recursions (printed outer expr)) := by
    have inner := orExpression_print expr known
    cases outer with
    | false =>
      have parsed := inner recursions [] (by omega) (Or.inl rfl)
      rw [List.append_nil] at parsed
      exact parsed
    | true =>
      obtain ⟨depth, rfl⟩ : ∃ less, recursions = less + 2 := ⟨recursions - 2, by omega⟩
      have parsed := notExpression_parenthesised inner depth (by omega) []
      rw [List.append_nil] at parsed
      exact (parsed.closes (Or.inl rfl)).2
  constructor
  · rintro ⟨parsed, -⟩
    by_contra breaks
    obtain ⟨error, same⟩ := whole.2 breaks
    rw [Parser.parse, same] at parsed
    cases parsed
  · intro holds
    refine ⟨?_, selects⟩
    rw [Parser.parse, whole.1 holds]
    rfl

/-- `str.lower` for ASCII. -/
def asciiCasing : Casing where
  lower text := text.map Char.toLower
  lower_and := by decide
  lower_or := by decide
  lower_not := by decide
  lower_open := by decide
  lower_close := by decide
  lower_colon text member := List.mem_map.2 ⟨':', member, by decide⟩

/-- A parser with one location that may be left out. -/
def idParser : Parser where
  casing := asciiCasing
  allowNoLocation := true
  locations := ["id".toList]

/-- The words or and and as queries, and a parenthesis. -/
def wordQueries : Expr :=
  .or (.not (.bare "or".toList)) (.and (.located "id".toList ['(']) (.bare "And".toList))

theorem parsesBack_wordQueries :
    (idParser.parse 20 (printed true wordQueries) = .ok wordQueries.node ∧
      SelectsByFormula wordQueries.node) ↔ NoBareNot asciiCasing wordQueries := by
  apply parsesBack_iff idParser wordQueries
  · exact ⟨rfl, ⟨by decide, by decide, by decide⟩, rfl⟩
  · decide

/-- The query not beside another query. -/
def notQuery : Expr :=
  .or (.bare "not".toList) (.located "id".toList ['1'])

theorem notQuery_lost : idParser.parse 20 (printed false notQuery) ≠ .ok notQuery.node := by
  have rejected : idParser.parse 20 (printed false notQuery) = .error .invalidSyntax := by
    rfl
  rw [rejected]
  exact fun same => nomatch same

end SearchQuery

end Smelly
