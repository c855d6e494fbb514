/-
Module: Smelly.Proofs.WidthSegments
Purpose: For which texts with escape codes the scanner of the terminal counts the columns of each
  stretch of plain text as if it stood alone.
Trusted boundary: none
-/
import Mathlib.Data.List.Chain
import Smelly.Proofs.WidthAgreement

namespace Smelly

namespace Wcswidth

variable {t : WidthTables}

/-! ### Text in pieces -/

/-- A character of plain text or a whole escape code. -/
inductive ScanPiece where
  | text (ch : UInt32)
  | csi (body : List UInt32) (final : UInt32)
  | string (introducer : UInt32) (payload terminator : List UInt32)
  | twoChar (code : UInt32)
deriving DecidableEq, Repr

namespace ScanPiece

/-- The characters of a piece. -/
def characters : ScanPiece → List UInt32
  | text ch => [ch]
  | csi body final => 0x1b :: 0x5b :: (body ++ [final])
  | string introducer payload terminator => 0x1b :: introducer :: (payload ++ terminator)
  | twoChar code => [0x1b, code]

/-- Plain text holds no ESC; a CSI code ends with its first final character, a string with its first
ST; a code of two characters is one of those that the scanner knows. -/
def Complete : ScanPiece → Prop
  | text ch => ch ≠ 0x1b
  | csi body final =>
    (∀ ch ∈ body, ¬(0x40 ≤ ch ∧ ch ≤ 0x7e)) ∧ 0x40 ≤ final ∧ final ≤ 0x7e
  | string introducer payload terminator =>
    introducer ∈ stringIntroducers ∧ 0x9c ∉ payload ∧
      payload.IsChain (fun a b => ¬(a = 0x1b ∧ b = 0x5c)) ∧
      (terminator = [0x9c] ∨ terminator = [0x1b, 0x5c])
  | twoChar code => code ∈ escCharacters

/-- The piece is a code of two characters. -/
def isTwoChar : ScanPiece → Bool
  | twoChar _ => true
  | _ => false

end ScanPiece

/-- The text that the pieces make up. -/
def scanText (pieces : List ScanPiece) : List UInt32 := pieces.flatMap ScanPiece.characters

/-- The stretches of plain text before, between and behind the escape codes. -/
def plainSegments : List ScanPiece → List (List UInt32)
  | [] => [[]]
  | .text ch :: rest =>
    match plainSegments rest with
    | [] => [[ch]]
    | segment :: more => (ch :: segment) :: more
  | _ :: rest => [] :: plainSegments rest

/-- The columns of the stretches of plain text, each on its own. -/
def plainWidth (t : WidthTables) (pieces : List ScanPiece) : Int :=
  ((plainSegments pieces).map (wcswidthString t)).sum

/-- The columns of the plain text where it is read on from a state of the scanner, which is the
first one again behind a code. -/
def plainSteps (t : WidthTables) (state : WCSState) : List ScanPiece → Int
  | [] => 0
  | .text ch :: rest =>
    (wcswidthStep t state ch).2 + plainSteps t (wcswidthStep t state ch).1 rest
  | _ :: rest => plainSteps t {} rest

theorem plainSegments_ne_nil (pieces : List ScanPiece) : plainSegments pieces ≠ [] := by
  cases pieces with
  | nil => exact List.cons_ne_nil _ _
  | cons piece rest =>
    cases piece with
    | text ch =>
      unfold plainSegments
      split <;> exact List.cons_ne_nil _ _
    | csi body final => exact List.cons_ne_nil _ _
    | string introducer payload terminator => exact List.cons_ne_nil _ _
    | twoChar code => exact List.cons_ne_nil _ _

/-- Reading on counts the first stretch from the state and the others on their own. -/
theorem plainSteps_segments (pieces : List ScanPiece) (state : WCSState) :
    plainSteps t state pieces =
      (wcswidthSteps t state ((plainSegments pieces).headD [])).2 +
        (((plainSegments pieces).tail).map (wcswidthString t)).sum := by
  have code : ∀ (rest : List ScanPiece) (state : WCSState),
      (∀ state, plainSteps t state rest =
        (wcswidthSteps t state ((plainSegments rest).headD [])).2 +
          (((plainSegments rest).tail).map (wcswidthString t)).sum) →
      plainSteps t {} rest =
        (wcswidthSteps t state []).2 + ((plainSegments rest).map (wcswidthString t)).sum := by
    intro rest state ih
    obtain ⟨segment, more, segments⟩ := List.exists_cons_of_ne_nil (plainSegments_ne_nil rest)
    rw [ih, segments, List.map_cons, List.sum_cons]
    exact (Int.zero_add _).symm
  induction pieces generalizing state with
  | nil => rfl
  | cons piece rest ih =>
    cases piece with
    | text ch =>
      obtain ⟨segment, more, segments⟩ := List.exists_cons_of_ne_nil (plainSegments_ne_nil rest)
      have whole : plainSegments (.text ch :: rest) = (ch :: segment) :: more := by
        rw [plainSegments, segments]
      have read := ih (wcswidthStep t state ch).1
      rw [segments] at read
      rw [plainSteps, read, whole, ← Int.add_assoc]
      rfl
    | csi body final => exact code rest state ih
    | string introducer payload terminator => exact code rest state ih
    | twoChar code_ => exact code rest state ih

theorem plainWidth_eq (pieces : List ScanPiece) : plainWidth t pieces = plainSteps t {} pieces := by
  obtain ⟨segment, more, segments⟩ := List.exists_cons_of_ne_nil (plainSegments_ne_nil pieces)
  rw [plainSteps_segments, plainWidth, segments, List.map_cons, List.sum_cons]
  rfl

theorem wcswidthSteps_cons (state : WCSState) (ch : UInt32) (rest : List UInt32) :
    wcswidthSteps t state (ch :: rest) =
      ((wcswidthSteps t (wcswidthStep t state ch).1 rest).1,
        (wcswidthStep t state ch).2 + (wcswidthSteps t (wcswidthStep t state ch).1 rest).2) := rfl

theorem wcswidthSteps_append (state : WCSState) (first second : List UInt32) :
    wcswidthSteps t state (first ++ second) =
      ((wcswidthSteps t (wcswidthSteps t state first).1 second).1,
        (wcswidthSteps t state first).2 +
          (wcswidthSteps t (wcswidthSteps t state first).1 second).2) := by
  induction first generalizing state with
  | nil => simp [wcswidthSteps]
  | cons ch first ih =>
    rw [List.cons_append, wcswidthSteps_cons, ih, wcswidthSteps_cons]
    simp [Int.add_assoc]

/-! ### The scanner in a code -/

/-- The scanner between two pieces: in a stretch of text it is in the same state as if the stretch
stood alone; behind a code nothing of the text before counts, and behind a code of two characters it
still reads an escape code. -/
inductive ScanAt : Bool → WCSState → WCSState → Prop
  | text {s : WCSState} (state : s.parserState = .normal ∨ s.parserState = .flagPairStarted) :
      ScanAt false s s
  | code {s : WCSState} (width : s.prevWidth = 0) (state : s.parserState = .normal) :
      ScanAt false s {}
  | twoChar {s : WCSState} (width : s.prevWidth = 0) (state : s.parserState = .inEsc) :
      ScanAt true s {}

/-- An ESC between two pieces. -/
theorem wcswidthStep_esc {behind : Bool} {s f : WCSState} (h : ScanAt behind s f) :
    wcswidthStep t s 0x1b = ({ prevCh := 0x1b, prevWidth := 0, parserState := .inEsc }, 0) := by
  have between : s.parserState = .normal ∨ s.parserState = .flagPairStarted →
      wcswidthStep t s 0x1b = ({ prevCh := 0x1b, prevWidth := 0, parserState := .inEsc }, 0) := by
    intro state
    have noPair : isFlagPair s.prevCh 0x1b = false := by
      have noFlag : isFlagCodepoint 0x1b = false := by decide
      rw [isFlagPair, noFlag, Bool.and_false]
    rw [wcswidthStep_between state, if_neg fun h => absurd (noPair.symm.trans h.2) (by decide)]
    rfl
  cases h with
  | text state => exact between state
  | code _ state => exact between (Or.inl state)
  | twoChar _ state =>
    obtain ⟨prevCh, prevWidth, parserState⟩ := s
    cases state
    rfl

/-- The characters of a CSI code before the final one. -/
theorem wcswidthSteps_body {body : List UInt32} {s : WCSState} (state : s.parserState = .inCsi)
    (inside : ∀ ch ∈ body, ¬(0x40 ≤ ch ∧ ch ≤ 0x7e)) :
    ∃ q, wcswidthSteps t s body = (q, 0) ∧ q.parserState = .inCsi := by
  induction body generalizing s with
  | nil => exact ⟨s, rfl, state⟩
  | cons ch body ih =>
    have step : wcswidthStep t s ch =
        ({ prevCh := ch, prevWidth := 0, parserState := .inCsi }, 0) := by
      rw [wcswidthStep, state]
      simp only [if_neg (inside ch List.mem_cons_self)]
    obtain ⟨q, rest, still⟩ :=
      @ih { prevCh := ch, prevWidth := 0, parserState := .inCsi } rfl
        fun other mem => inside other (List.mem_cons_of_mem _ mem)
    refine ⟨q, ?_, still⟩
    rw [wcswidthSteps, step]
    simp only [rest, Int.add_zero]

/-- The characters of a string before its terminator. -/
theorem wcswidthSteps_payload {payload : List UInt32} {s : WCSState}
    (state : s.parserState = .inStTerminated) (noC1 : 0x9c ∉ payload)
    (noSt : (s.prevCh :: payload).IsChain fun a b => ¬(a = 0x1b ∧ b = 0x5c)) :
    ∃ q, wcswidthSteps t s payload = (q, 0) ∧ q.parserState = .inStTerminated := by
  induction payload generalizing s with
  | nil => exact ⟨s, rfl, state⟩
  | cons ch payload ih =>
    obtain ⟨first, later⟩ := List.isChain_cons_cons.1 noSt
    have goesOn : ¬(ch = 0x9c ∨ (ch = 0x5c ∧ s.prevCh = 0x1b)) := by
      rintro (same | ⟨backslash, esc⟩)
      · exact noC1 (List.mem_cons.2 (Or.inl same.symm))
      · exact first ⟨esc, backslash⟩
    have step : wcswidthStep t s ch =
        ({ prevCh := ch, prevWidth := 0, parserState := .inStTerminated }, 0) := by
      rw [wcswidthStep, state]
      simp only [if_neg goesOn]
    obtain ⟨q, rest, still⟩ :=
      @ih { prevCh := ch, prevWidth := 0, parserState := .inStTerminated } rfl
        (fun mem => noC1 (List.mem_cons_of_mem _ mem)) later
    refine ⟨q, ?_, still⟩
    rw [wcswidthSteps, step]
    simp only [rest, Int.add_zero]

/-- ST ends a string, and nothing of it counts. -/
theorem wcswidthSteps_terminator {terminator : List UInt32} {s : WCSState}
    (state : s.parserState = .inStTerminated)
    (ends : terminator = [0x9c] ∨ terminator = [0x1b, 0x5c]) :
    ∃ q, wcswidthSteps t s terminator = (q, 0) ∧ q.prevWidth = 0 ∧ q.parserState = .normal := by
  obtain ⟨prevCh, prevWidth, parserState⟩ := s
  cases state
  rcases ends with rfl | rfl
  · exact ⟨_, rfl, rfl, rfl⟩
  · exact ⟨_, rfl, rfl, rfl⟩

/-- The scanner counts nothing of an escape code and is between two pieces behind it. -/
theorem wcswidthSteps_code {piece : ScanPiece} {behind : Bool} {s f : WCSState}
    (h : ScanAt behind s f) (complete : piece.Complete) (code : ∀ ch, piece ≠ .text ch) :
    ∃ q, wcswidthSteps t s piece.characters = (q, 0) ∧ ScanAt piece.isTwoChar q {} := by
  have begun : ∀ rest, wcswidthSteps t s (0x1b :: rest) =
      wcswidthSteps t { prevCh := 0x1b, prevWidth := 0, parserState := .inEsc } rest := by
    intro rest
    rw [wcswidthSteps, wcswidthStep_esc h]
    simp only [Int.zero_add]
  cases piece with
  | text ch => exact absurd rfl (code ch)
  | csi body final =>
    obtain ⟨inside, low, high⟩ := complete
    obtain ⟨q, read, state⟩ := @wcswidthSteps_body t body
      { prevCh := 0x5b, prevWidth := 0, parserState := .inCsi } rfl inside
    have last : wcswidthStep t q final =
        ({ prevCh := final, prevWidth := 0, parserState := .normal }, 0) := by
      rw [wcswidthStep, state]
      simp only [if_pos (And.intro low high)]
    refine ⟨{ prevCh := final, prevWidth := 0, parserState := .normal }, ?_, .code rfl rfl⟩
    have bracket : wcswidthStep t { prevCh := 0x1b, prevWidth := 0, parserState := .inEsc } 0x5b =
        ({ prevCh := 0x5b, prevWidth := 0, parserState := .inCsi }, 0) := rfl
    rw [ScanPiece.characters, begun, wcswidthSteps, bracket]
    simp only [wcswidthSteps_append, read, wcswidthSteps, last]
    rfl
  | string introducer payload terminator =>
    obtain ⟨known, noC1, noSt, ends⟩ := complete
    have notBracket : ∀ ch ∈ stringIntroducers, ch ≠ 0x5b ∧ ch ≠ 0x1b :=
      forall_mem_of_all (by decide)
    have start : wcswidthStep t { prevCh := 0x1b, prevWidth := 0, parserState := .inEsc }
        introducer =
          ({ prevCh := introducer, prevWidth := 0, parserState := .inStTerminated }, 0) := by
      simp only [wcswidthStep, stepInEsc, if_neg (notBracket introducer known).1, if_pos known]
    have chain : (introducer :: payload).IsChain fun a b => ¬(a = 0x1b ∧ b = 0x5c) :=
      List.isChain_cons.2
        ⟨fun _ _ both => (notBracket introducer known).2 both.1, noSt⟩
    obtain ⟨q, read, state⟩ := @wcswidthSteps_payload t payload
      { prevCh := introducer, prevWidth := 0, parserState := .inStTerminated } rfl noC1 chain
    obtain ⟨last, readLast, width, normal⟩ := @wcswidthSteps_terminator t terminator q state ends
    refine ⟨last, ?_, .code width normal⟩
    rw [ScanPiece.characters, begun, wcswidthSteps, start]
    simp only [wcswidthSteps_append, read, readLast]
    rfl
  | twoChar code_ =>
    have known : code_ ∈ escCharacters := complete
    have other : ∀ ch ∈ escCharacters, ch ≠ 0x5b ∧ ch ∉ stringIntroducers :=
      forall_mem_of_all (by decide)
    have stays : wcswidthStep t { prevCh := 0x1b, prevWidth := 0, parserState := .inEsc } code_ =
        ({ prevCh := code_, prevWidth := 0, parserState := .inEsc }, 0) := by
      simp only [wcswidthStep, stepInEsc, if_neg (other code_ known).1,
        if_neg (other code_ known).2, if_pos known]
    refine ⟨{ prevCh := code_, prevWidth := 0, parserState := .inEsc }, ?_, .twoChar rfl rfl⟩
    rw [ScanPiece.characters, begun, wcswidthSteps, stays]
    rfl

/-! ### The scanner on text -/

/-- The characters that the scanner reads as part of an escape code behind an ESC. -/
def readInEsc : List UInt32 := 0x5b :: (stringIntroducers ++ escCharacters)

/-- A character of text leaves the scanner between two pieces. -/
theorem wcswidthStep_state {s : WCSState} {ch : UInt32} (esc : ch ≠ 0x1b)
    (state : s.parserState = .normal ∨ s.parserState = .flagPairStarted) :
    (wcswidthStep t s ch).1.parserState = .normal ∨
      (wcswidthStep t s ch).1.parserState = .flagPairStarted := by
  rw [wcswidthStep_between state]
  split
  · exact Or.inl rfl
  · rw [Wcswidth.stepNormal_text esc rfl]
    split
    · split <;> exact Or.inl rfl
    · split
      · split <;> exact Or.inl rfl
      · cases isFlagCodepoint ch
        · exact Or.inl rfl
        · exact Or.inr rfl

/-- A character of text counts what it counts in its stretch, unless it is read as part of the code
before it. -/
theorem wcswidthStep_piece {behind : Bool} {s f : WCSState} {ch : UInt32} (h : ScanAt behind s f)
    (esc : ch ≠ 0x1b) (free : behind = true → ch ∉ readInEsc) :
    (wcswidthStep t s ch).2 = (wcswidthStep t f ch).2 ∧
      ScanAt false (wcswidthStep t s ch).1 (wcswidthStep t f ch).1 := by
  have same : ∀ s' : WCSState, s'.prevWidth = 0 → s'.parserState = .normal →
      wcswidthStep t s' ch = wcswidthStep t {} ch := by
    intro s' width state
    rw [wcswidthStep_fresh esc width state, wcswidthStep_fresh esc rfl rfl]
  have next : ScanAt false (wcswidthStep t ({} : WCSState) ch).1 (wcswidthStep t {} ch).1 :=
    .text (wcswidthStep_state esc (Or.inl rfl))
  cases h with
  | text state => exact ⟨rfl, .text (wcswidthStep_state esc state)⟩
  | code width state =>
    rw [same s width state]
    exact ⟨rfl, next⟩
  | twoChar width state =>
    have unread := free rfl
    simp only [readInEsc, List.mem_cons, List.mem_append, not_or] at unread
    have text : wcswidthStep t s ch =
        wcswidthStep t { prevCh := 0x1b, prevWidth := 0, parserState := .normal } ch := by
      rw [wcswidthStep, state]
      simp only [stepInEsc, if_neg unread.1, if_neg unread.2.1, if_neg unread.2.2]
      rfl
    rw [text, same _ rfl rfl]
    exact ⟨rfl, next⟩

/-- A character that is read as part of the code before it counts nothing. -/
theorem wcswidthStep_swallowed {s f : WCSState} {ch : UInt32} (h : ScanAt true s f)
    (read : ch ∈ readInEsc) : (wcswidthStep t s ch).2 = 0 := by
  cases h with
  | twoChar width state =>
    rw [wcswidthStep, state]
    simp only [stepInEsc]
    by_cases bracket : ch = 0x5b
    · rw [if_pos bracket]
    · rw [if_neg bracket]
      by_cases introducer : ch ∈ stringIntroducers
      · rw [if_pos introducer]
      · rw [if_neg introducer]
        rcases List.mem_cons.1 read with same | others
        · exact absurd same bracket
        · rcases List.mem_append.1 others with mem | mem
          · exact absurd mem introducer
          · rw [if_pos mem]

/-! ### The whole text -/

/-- No character of text behind a code of two characters is one that the scanner reads as part of an
escape code. -/
def SwallowFree (pieces : List ScanPiece) : Prop :=
  pieces.IsChain fun piece next =>
    ∀ ch, piece.isTwoChar = true → next = .text ch → ch ∉ readInEsc

theorem scanText_cons (piece : ScanPiece) (pieces : List ScanPiece) :
    scanText (piece :: pieces) = piece.characters ++ scanText pieces := rfl

theorem plainSteps_code {piece : ScanPiece} (code : ∀ ch, piece ≠ .text ch) (f : WCSState)
    (pieces : List ScanPiece) : plainSteps t f (piece :: pieces) = plainSteps t {} pieces := by
  cases piece with
  | text ch => exact absurd rfl (code ch)
  | csi body final => rfl
  | string introducer payload terminator => rfl
  | twoChar code_ => rfl

/-- From one piece to the next, the scanner counts the columns of the stretches. -/
theorem scanPieces {pieces : List ScanPiece} {behind : Bool} {s f : WCSState}
    (h : ScanAt behind s f) (complete : ∀ piece ∈ pieces, piece.Complete)
    (first : ∀ ch, behind = true → pieces.head? = some (.text ch) → ch ∉ readInEsc)
    (free : SwallowFree pieces) :
    ∃ q f' behind', wcswidthSteps t s (scanText pieces) = (q, plainSteps t f pieces) ∧
      ScanAt behind' q f' := by
  induction pieces generalizing behind s f with
  | nil => exact ⟨s, f, behind, rfl, h⟩
  | cons piece rest ih =>
    obtain ⟨here, later⟩ := List.isChain_cons.1 free
    have completeLater := fun other mem => complete other (List.mem_cons_of_mem piece mem)
    by_cases text : ∃ ch, piece = .text ch
    · obtain ⟨ch, rfl⟩ := text
      obtain ⟨width, next⟩ := @wcswidthStep_piece t _ _ _ _ h
        (complete (.text ch) List.mem_cons_self) (fun two => first ch two rfl)
      obtain ⟨q, f', behind', read, ends⟩ :=
        ih next completeLater (fun _ two => nomatch two) later
      refine ⟨q, f', behind', ?_, ends⟩
      rw [scanText_cons, ScanPiece.characters, List.singleton_append, wcswidthSteps_cons, read,
        width]
      rfl
    · have code : ∀ ch, piece ≠ .text ch := fun ch same => text ⟨ch, same⟩
      obtain ⟨between, silent, next⟩ :=
        @wcswidthSteps_code t _ _ _ _ h (complete piece List.mem_cons_self) code
      obtain ⟨q, f', behind', read, ends⟩ := ih next completeLater
        (fun ch two head => here _ head ch two rfl) later
      refine ⟨q, f', behind', ?_, ends⟩
      rw [scanText_cons, wcswidthSteps_append, silent, plainSteps_code code]
      simp only [read, Int.zero_add]

/-- The start of a text is a stretch of text. -/
theorem scanAt_initial : ScanAt false {} {} := .text (Or.inl rfl)

theorem wcswidthString_swallowFree {pieces : List ScanPiece}
    (complete : ∀ piece ∈ pieces, piece.Complete) (free : SwallowFree pieces) :
    wcswidthString t (scanText pieces) = plainWidth t pieces := by
  obtain ⟨q, -, -, read, -⟩ :=
    @scanPieces t pieces _ _ _ scanAt_initial complete (fun _ two => nomatch two) free
  rw [plainWidth_eq, wcswidthString, read]

/-- A character of text behind a code is counted on its own. -/
theorem plainSteps_behind {piece : ScanPiece} (code : ∀ ch, piece ≠ .text ch)
    (front : List ScanPiece) (f : WCSState) (ch : UInt32) :
    plainSteps t f (front ++ [piece, .text ch]) =
      plainSteps t f (front ++ [piece]) + (wcswidthStep t {} ch).2 := by
  induction front generalizing f with
  | nil =>
    rw [List.nil_append, List.nil_append, plainSteps_code code, plainSteps_code code, plainSteps,
      plainSteps, plainSteps, Int.zero_add, Int.add_zero]
  | cons other front ih =>
    by_cases text : ∃ c, other = .text c
    · obtain ⟨c, rfl⟩ := text
      rw [List.cons_append, List.cons_append, plainSteps, plainSteps, ih, Int.add_assoc]
    · have code_ : ∀ c, other ≠ .text c := fun c same => text ⟨c, same⟩
      rw [List.cons_append, List.cons_append, plainSteps_code code_, plainSteps_code code_, ih]

/-- A character of text that the code before it swallows is missing from the columns. -/
theorem wcswidthString_swallowed (standard : t.Standard) {front : List ScanPiece} {code ch : UInt32}
    (complete : ∀ piece ∈ front ++ [.twoChar code], piece.Complete)
    (free : SwallowFree (front ++ [.twoChar code])) (read : ch ∈ readInEsc) :
    wcswidthString t (scanText (front ++ [.twoChar code, .text ch])) + 1 =
      plainWidth t (front ++ [.twoChar code, .text ch]) := by
  have isCode : ∀ c, ScanPiece.twoChar code ≠ .text c := fun _ => ScanPiece.noConfusion
  have completeFront : ∀ piece ∈ front, piece.Complete :=
    fun piece mem => complete piece (List.mem_append_left _ mem)
  obtain ⟨q, f, behind, scanned, between⟩ := @scanPieces t front _ _ _ scanAt_initial completeFront
    (fun _ two => nomatch two) (List.isChain_append.1 free).1
  obtain ⟨ended, silent, inEsc⟩ :=
    @wcswidthSteps_code t _ _ _ _ between (complete (.twoChar code) (by simp)) isCode
  have graphic : ∀ c ∈ readInEsc, 0x20 ≤ c ∧ c ≤ 0x7e ∧ c ≠ 0x1b :=
    forall_mem_of_all (by decide)
  obtain ⟨low, high, esc⟩ := graphic ch read
  have own : (wcswidthStep t {} ch).2 = 1 := by
    have noSelector : ¬(ch = 0xfe0f ∨ ch = 0xfe0e) := by
      rintro (rfl | rfl)
      · exact absurd high (by decide)
      · exact absurd high (by decide)
    rw [wcswidthStep_fresh esc rfl rfl, freshColumns, if_neg noSelector, columns,
      standard.ascii ch low high]
    rfl
  have text : scanText (front ++ [.twoChar code, .text ch]) =
      scanText front ++ ((ScanPiece.twoChar code).characters ++ [ch]) := by
    simp [scanText, ScanPiece.characters]
  have counted : wcswidthString t (scanText (front ++ [.twoChar code])) =
      plainSteps t {} (front ++ [.twoChar code]) := by
    rw [wcswidthString_swallowFree complete free, plainWidth_eq]
  have whole : scanText (front ++ [.twoChar code]) =
      scanText front ++ (ScanPiece.twoChar code).characters := by
    simp [scanText]
  rw [plainWidth_eq, plainSteps_behind isCode, own, ← counted, whole, text, wcswidthString,
    wcswidthString, wcswidthSteps_append, wcswidthSteps_append, wcswidthSteps_append]
  simp only [scanned, silent, wcswidthSteps, wcswidthStep_swallowed inEsc read, Int.add_zero]

/-- Up to every piece of the text, the columns are those of the plain text so far, each stretch of
it measured as if the codes around it were absent. -/
def MeasuresPlainText (t : WidthTables) (pieces : List ScanPiece) : Prop :=
  ∀ k, wcswidthString t (scanText (pieces.take k)) = plainWidth t (pieces.take k)

/-- The scanner measures the plain text alone exactly where no code of two characters swallows the
character behind it. -/
theorem widthScanner (standard : t.Standard) {pieces : List ScanPiece}
    (complete : ∀ piece ∈ pieces, piece.Complete) :
    MeasuresPlainText t pieces ↔ SwallowFree pieces := by
  constructor
  · intro measures
    induction pieces using List.reverseRecOn with
    | nil => exact List.IsChain.nil
    | append_singleton front piece ih =>
      have completeFront : ∀ other ∈ front, other.Complete :=
        fun other mem => complete other (List.mem_append_left _ mem)
      have free : SwallowFree front := by
        apply ih completeFront
        intro k
        have before := measures (min k front.length)
        rw [List.take_append_of_le_length (Nat.min_le_right _ _)] at before
        rwa [← List.take_eq_take_min] at before
      apply List.isChain_append.2
      refine ⟨free, List.isChain_singleton _, ?_⟩
      intro last atEnd next single ch two text read
      obtain rfl : next = piece := by simpa using single.symm
      obtain rfl := text
      obtain ⟨front', rfl⟩ := List.getLast?_eq_some_iff.1 atEnd
      cases last with
      | text c => exact Bool.noConfusion two
      | csi body final => exact Bool.noConfusion two
      | string introducer payload terminator => exact Bool.noConfusion two
      | twoChar code =>
        have missing := @wcswidthString_swallowed t standard front' code ch completeFront free
          read
        have whole := measures (front' ++ [ScanPiece.twoChar code, ScanPiece.text ch]).length
        rw [List.append_assoc, List.singleton_append, List.take_length] at whole
        omega
  · intro free k
    apply wcswidthString_swallowFree
    · exact fun piece mem => complete piece (List.mem_of_mem_take mem)
    · exact List.IsChain.take free k

/-- A link with a red word, and the cursor restored behind it. -/
def linkPieces : List ScanPiece :=
  [.text 0x61, .string 0x5d [0x38, 0x3b, 0x3b, 0x1b] [0x1b, 0x5c], .text 0x41,
    .csi [0x33, 0x31] 0x6d, .text 0x62, .twoChar 0x38, .text 0x41]

theorem linkPieces_complete : ∀ piece ∈ linkPieces, piece.Complete := by
  intro piece mem
  simp only [linkPieces, List.mem_cons, List.not_mem_nil, or_false] at mem
  rcases mem with rfl | rfl | rfl | rfl | rfl | rfl | rfl
  · exact fun same => absurd same (by decide)
  · refine ⟨by decide, by decide, ?_, Or.inr rfl⟩
    simp only [List.isChain_cons_cons, List.IsChain.singleton, and_true]
    decide
  · exact fun same => absurd same (by decide)
  · refine ⟨?_, by decide, by decide⟩
    intro ch mem
    simp only [List.mem_cons, List.not_mem_nil, or_false] at mem
    rcases mem with rfl | rfl
    · decide
    · decide
  · exact fun same => absurd same (by decide)
  · show (0x38 : UInt32) ∈ escCharacters
    decide
  · exact fun same => absurd same (by decide)

theorem widthScanner_link :
    (∀ piece ∈ linkPieces, piece.Complete) ∧ MeasuresPlainText smallTables linkPieces := by
  refine ⟨linkPieces_complete, (widthScanner smallTables_standard linkPieces_complete).2 ?_⟩
  simp only [SwallowFree, linkPieces, List.isChain_cons_cons, List.IsChain.singleton, and_true]
  have other : ∀ {piece next : ScanPiece}, piece.isTwoChar = false → ∀ ch,
      piece.isTwoChar = true → next = .text ch → ch ∉ readInEsc :=
    fun one _ two => absurd (one.symm.trans two) (by decide)
  refine ⟨other rfl, other rfl, other rfl, other rfl, other rfl, ?_⟩
  intro ch _ text
  obtain rfl := ScanPiece.text.inj text
  decide

/-- The cursor saved, and a word. -/
def savedPieces : List ScanPiece := [.twoChar 0x37, .text 0x44, .text 0x6f, .text 0x6e, .text 0x65]

/-- Behind DECSC the word `Done` takes one column instead of four. -/
theorem widthScanner_saved :
    (∀ piece ∈ savedPieces, piece.Complete) ∧ smallTables.Standard ∧
      wcswidthString smallTables (scanText savedPieces) = 1 ∧
      plainWidth smallTables savedPieces = 4 ∧ ¬ MeasuresPlainText smallTables savedPieces := by
  have read : wcswidthString smallTables (scanText savedPieces) = 1 := by decide
  have plain : plainWidth smallTables savedPieces = 4 := by decide
  refine ⟨?_, smallTables_standard, read, plain, ?_⟩
  · intro piece mem
    simp only [savedPieces, List.mem_cons, List.not_mem_nil, or_false] at mem
    rcases mem with rfl | rfl | rfl | rfl | rfl
    · show (0x37 : UInt32) ∈ escCharacters
      decide
    · exact fun same => absurd same (by decide)
    · exact fun same => absurd same (by decide)
    · exact fun same => absurd same (by decide)
    · exact fun same => absurd same (by decide)
  · intro measures
    have whole := measures 5
    rw [show savedPieces.take 5 = savedPieces from rfl, read, plain] at whole
    exact absurd whole (by decide)

end Wcswidth

end Smelly
