/-
Module: Smelly.Core.Shlex
Purpose: The tokenizer that splits a command line into words, and the quoting of a word for a shell.
Trusted boundary: human-reviewed model of tools/utils/shlex/shlex.go and of `QuoteStringForSH` of
  tools/utils/shell.go, and of what `strings.Reader` and `strings.Builder` do with runes; the
  bounds of the loops are not reached
-/
import Smelly.Core.WordMotion

namespace Smelly

/-- `QuoteStringForSH`: the pieces between the apostrophes are quoted with apostrophes, and the
apostrophes with double quotes. -/
def quoteStringForSH (x : Bytes) : Bytes :=
  [0x22, 0x27, 0x22].intercalate ((x.splitOn 0x27).map fun p => [0x27] ++ p ++ [0x27])

namespace Shlex

/-! ### Tokens -/

/-- `TokenType`. -/
inductive TokenType where
  | UnknownToken
  | WordToken
  | SpaceToken
deriving DecidableEq, Repr

/-- `Token`. -/
structure Token where
  type : TokenType := .UnknownToken
  value : Bytes := []
  pos : Int := 0
deriving DecidableEq, Repr

/-- `runeTokenClass`. -/
inductive RuneTokenClass where
  | unknownRuneClass
  | spaceRuneClass
  | escapingQuoteRuneClass
  | nonEscapingQuoteRuneClass
  | escapeRuneClass
  | eofRuneClass
deriving DecidableEq, Repr

/-- `lexerState`. -/
inductive LexerState where
  | startState
  | inWordState
  | inSpaceState
  | escapingState
  | escapingQuotedState
  | quotingEscapingState
  | quotingState
deriving DecidableEq, Repr

/-- `ClassifyRune` of the default classifier. -/
def classifyRune (runeVal : UInt32) : RuneTokenClass :=
  if runeVal ∈ [0x20, 0x09, 0x0d, 0x0a] then .spaceRuneClass
  else if runeVal = 0x22 then .escapingQuoteRuneClass
  else if runeVal = 0x27 then .nonEscapingQuoteRuneClass
  else if runeVal = 0x5c then .escapeRuneClass
  else .unknownRuneClass

/-- The errors that the tokenizer returns, `io.EOF` first. -/
inductive TokenError where
  | EOF
  | ErrTrailingEscape
  | ErrTrailingQuoteEscape
  | ErrUnclosedDoubleQuote
  | ErrUnclosedSingleQuote
  | unknownTokenType
deriving DecidableEq, Repr

/-! ### Reading runes -/

/-- `redo_rune`. -/
structure RedoRune where
  char : UInt32 := 0
  sz : Nat := 0
  runeType : RuneTokenClass := .unknownRuneClass
deriving DecidableEq, Repr

/-- `Tokenizer`; the input is what the reader has left. -/
structure Tokenizer where
  input : Bytes
  pos : Int := 0
  redoRune : RedoRune := {}
deriving DecidableEq, Repr

/-- The rune that the loop of `scanStream` reads, with `t.pos` behind it. -/
def Tokenizer.nextRune (t : Tokenizer) : RedoRune × Tokenizer :=
  if t.redoRune.sz > 0 then
    (t.redoRune, { t with redoRune := { t.redoRune with sz := 0 }, pos := t.pos + t.redoRune.sz })
  else if t.input = [] then ({ runeType := .eofRuneClass }, t)
  else
    let (ch, size) := Readline.decodeRune t.input
    ({ char := ch, sz := size, runeType := classifyRune ch },
      { t with input := t.input.drop size, pos := t.pos + size })

/-- `unread_rune`. -/
def Tokenizer.unreadRune (t : Tokenizer) (rune : RedoRune) : Tokenizer :=
  { t with redoRune := rune, pos := t.pos - rune.sz }

/-- `WriteRune`. -/
def writeRune (value : Bytes) (r : UInt32) : Bytes :=
  value ++ String.utf8EncodeChar
    (if valid : r.isValidChar then ⟨r, valid⟩ else Char.ofNat Readline.runeError.toNat)

/-! ### The state machine -/

/-- The local variables of `scanStream`. -/
structure Scan where
  t : Tokenizer
  state : LexerState := .startState
  tokenType : TokenType := .UnknownToken
  value : Bytes := []
deriving DecidableEq, Repr

/-- What a round of the loop of `scanStream` comes to. -/
inductive Round where
  | next (scan : Scan)
  | done (token : Option Token) (err : Option TokenError) (t : Tokenizer)
deriving DecidableEq, Repr

/-- A round of the loop of `scanStream`. -/
def scanRound (posAtStart : Int) (s : Scan) : Round :=
  let (rune, t) := s.t.nextRune
  let token : Token := { type := s.tokenType, value := s.value, pos := posAtStart }
  match s.state with
  | .startState =>
    match rune.runeType with
    | .eofRuneClass => .done none (some .EOF) t
    | .spaceRuneClass =>
      .next { t, tokenType := .SpaceToken, value := writeRune s.value rune.char,
              state := .inSpaceState }
    | .escapingQuoteRuneClass =>
      .next { s with t, tokenType := .WordToken, state := .quotingEscapingState }
    | .nonEscapingQuoteRuneClass =>
      .next { s with t, tokenType := .WordToken, state := .quotingState }
    | .escapeRuneClass => .next { s with t, tokenType := .WordToken, state := .escapingState }
    | .unknownRuneClass =>
      .next { t, tokenType := .WordToken, value := writeRune s.value rune.char,
              state := .inWordState }
  | .inSpaceState =>
    match rune.runeType with
    | .spaceRuneClass => .next { s with t, value := writeRune s.value rune.char }
    | _ => .done (some token) none (t.unreadRune rune)
  | .inWordState =>
    match rune.runeType with
    | .eofRuneClass => .done (some token) none t
    | .spaceRuneClass => .done (some token) none (t.unreadRune rune)
    | .escapingQuoteRuneClass => .next { s with t, state := .quotingEscapingState }
    | .nonEscapingQuoteRuneClass => .next { s with t, state := .quotingState }
    | .escapeRuneClass => .next { s with t, state := .escapingState }
    | .unknownRuneClass => .next { s with t, value := writeRune s.value rune.char }
  | .escapingState =>
    match rune.runeType with
    | .eofRuneClass => .done (some token) (some .ErrTrailingEscape) t
    | _ => .next { s with t, state := .inWordState, value := writeRune s.value rune.char }
  | .escapingQuotedState =>
    match rune.runeType with
    | .eofRuneClass => .done (some token) (some .ErrTrailingQuoteEscape) t
    | _ => .next { s with t, state := .quotingEscapingState, value := writeRune s.value rune.char }
  | .quotingEscapingState =>
    match rune.runeType with
    | .eofRuneClass => .done (some token) (some .ErrUnclosedDoubleQuote) t
    | .escapingQuoteRuneClass => .next { s with t, state := .inWordState }
    | .escapeRuneClass => .next { s with t, state := .escapingQuotedState }
    | _ => .next { s with t, value := writeRune s.value rune.char }
  | .quotingState =>
    match rune.runeType with
    | .eofRuneClass => .done (some token) (some .ErrUnclosedSingleQuote) t
    | .nonEscapingQuoteRuneClass => .next { s with t, state := .inWordState }
    | _ => .next { s with t, value := writeRune s.value rune.char }

/-- The loop of `scanStream`.  The first argument bounds the rounds. -/
def scanLoop (posAtStart : Int) : Nat → Scan → Option Token × Option TokenError × Tokenizer
  | 0, s => (none, none, s.t)
  | rounds + 1, s =>
    match scanRound posAtStart s with
    | .next s => scanLoop posAtStart rounds s
    | .done token err t => (token, err, t)

/-- `scanStream`, which is `Tokenizer.Next`. -/
def scanStream (t : Tokenizer) : Option Token × Option TokenError × Tokenizer :=
  scanLoop t.pos (t.input.length + 3) { t }

/-! ### Splitting -/

/-- `Lexer.Next`: the next word, or an error.  The first argument bounds the tokens. -/
def lexerNext : Nat → Tokenizer → Except TokenError Bytes × Tokenizer
  | 0, t => (.error .unknownTokenType, t)
  | bound + 1, t =>
    match scanStream t with
    | (_, some err, t) => (.error err, t)
    | (none, none, t) => (.error .unknownTokenType, t)
    | (some token, none, t) =>
      match token.type with
      | .WordToken => (.ok token.value, t)
      | .SpaceToken => lexerNext bound t
      | .UnknownToken => (.error .unknownTokenType, t)

/-- The loop of `Split`, with the words so far. -/
def splitLoop : Nat → Tokenizer → List Bytes → List Bytes × Option TokenError
  | 0, _, subStrings => (subStrings, some .unknownTokenType)
  | bound + 1, t, subStrings =>
    match lexerNext (t.input.length + 3) t with
    | (.error err, _) => if err = .EOF then (subStrings, none) else (subStrings, some err)
    | (.ok word, t) => splitLoop bound t (subStrings ++ [word])

/-- `Split`. -/
def split (s : Bytes) : List Bytes × Option TokenError :=
  splitLoop (s.length + 1) { input := s } []

/-- The loop of `SplitForCompletion`, with the words so far and the last token. -/
def completionLoop : Nat → Tokenizer → List Bytes → Token → List Bytes × Int
  | 0, _, _, _ => ([], -1)
  | bound + 1, t, argv, token =>
    match scanStream t with
    | (_, some .EOF, _) =>
      if token.type = .SpaceToken then (argv ++ [[]], token.pos + token.value.length)
      else (argv, token.pos)
    | (none, _, _) => ([], -1)
    | (some ntoken, _, t) =>
      match ntoken.type with
      | .WordToken => completionLoop bound t (argv ++ [ntoken.value]) ntoken
      | .SpaceToken => completionLoop bound t argv ntoken
      | .UnknownToken => ([], -1)

/-- `SplitForCompletion`. -/
def splitForCompletion (s : Bytes) : List Bytes × Int :=
  completionLoop (s.length + 2) { input := s } [] {}

end Shlex

end Smelly
