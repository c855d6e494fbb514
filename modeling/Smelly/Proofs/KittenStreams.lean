/-
Module: Smelly.Proofs.KittenStreams
Purpose: What a kitten is told of a stream of plain text, CSI codes and strings, read at once or in
  two pieces.
Trusted boundary: the caller keeps the flag for a bracketed paste as smelly_tests/datatypes.py does
-/
import Smelly.Core.KittenInput

namespace Smelly

namespace Kittens

/-! ### Streams -/

/-- Text without an escape. -/
structure PlainText where
  chars : Text
  plain : (0x1b : UInt32) ∉ chars

/-- A CSI code: parameter and intermediate characters, and a final character. -/
structure CsiCode where
  params : Text
  final : UInt32
  paramsRange : ∀ ch ∈ params, 0x20 ≤ ch ∧ ch ≤ 0x3f
  finalRange : 0x40 ≤ final ∧ final ≤ 0x7e

/-- The kinds of strings. -/
inductive StringKind where
  | dcs
  | osc
  | pm
  | apc
  deriving DecidableEq, Repr

/-- A string: no escape of its payload stands before a backslash. -/
structure StringCode where
  kind : StringKind
  payload : Text
  unterminated : ¬ [0x1b, 0x5c] <:+: payload

/-- The pieces of a stream. -/
inductive StreamItem where
  | text (t : PlainText)
  | csi (c : CsiCode)
  | string (s : StringCode)

/-- The character that introduces a string, behind the escape. -/
def StringKind.introducer : StringKind → UInt32
  | .dcs => ord 'P'
  | .osc => ord ']'
  | .pm => ord '^'
  | .apc => ord '_'

/-- The callback for the strings of a kind. -/
def StringKind.callback : StringKind → Callback
  | .dcs => .dcs
  | .osc => .osc
  | .pm => .pm
  | .apc => .apc

/-- What the callback for CSI codes is given. -/
def CsiCode.payload (c : CsiCode) : Text := c.params ++ [c.final]

/-- The characters of a CSI code. -/
def CsiCode.code (c : CsiCode) : Text := 0x1b :: ord '[' :: c.payload

/-- The characters of a string. -/
def StringCode.code (s : StringCode) : Text :=
  0x1b :: s.kind.introducer :: (s.payload ++ [0x1b, 0x5c])

/-- The characters of a piece. -/
def StreamItem.code : StreamItem → Text
  | .text t => t.chars
  | .csi c => c.code
  | .string s => s.code

/-- The characters of a stream. -/
def stream (items : List StreamItem) : Text := items.flatMap StreamItem.code

/-! ### What the callbacks should be told -/

/-- The payloads of the codes around a paste. -/
def pasteStart : Text := chars "200~"

def pasteEnd : Text := chars "201~"

/-- The flag of a caller behind one payload of a CSI code. -/
def pasteFlag (pasting : Bool) (payload : Text) : Bool :=
  if payload = pasteStart then true else if payload = pasteEnd then false else pasting

/-- The flag of a caller behind a call. -/
def callerFlag (pasting : Bool) (c : Call) : Bool :=
  if c.callback = .csi then pasteFlag pasting c.data else pasting

/-- The calls for a text, which is none where there is no text. -/
def textCalls (t : Text) : List Call := if t = [] then [] else [⟨.text, t⟩]

/-- The call for a CSI code; the one that ends a paste is no part of it. -/
def csiCall (pasting : Bool) (c : CsiCode) : Call :=
  if pasting ∧ c.payload ≠ pasteEnd then ⟨.text, c.code⟩ else ⟨.csi, c.payload⟩

/-- The call for a string. -/
def stringCall (pasting : Bool) (s : StringCode) : Call :=
  if pasting then ⟨.text, s.code⟩ else ⟨s.kind.callback, s.payload⟩

/-- The calls for a stream, behind a text that is yet to be passed on. -/
def expectedCalls : Bool → Text → List StreamItem → List Call
  | _, pending, [] => textCalls pending
  | pasting, pending, .text t :: rest => expectedCalls pasting (pending ++ t.chars) rest
  | pasting, pending, .csi c :: rest =>
    textCalls pending ++ csiCall pasting c :: expectedCalls (pasteFlag pasting c.payload) [] rest
  | pasting, pending, .string s :: rest =>
    textCalls pending ++ stringCall pasting s :: expectedCalls pasting [] rest

/-- What a callback is told, a character at a time for a text. -/
inductive Told where
  | typed (ch : UInt32)
  | code (c : Call)
  deriving DecidableEq, Repr

/-- What a call tells. -/
def Call.told (c : Call) : List Told :=
  if c.callback = .text then c.data.map .typed else [.code c]

/-- Two lists of calls are the same but for the places where texts are split. -/
def SameUpToText (calls others : List Call) : Prop :=
  calls.flatMap Call.told = others.flatMap Call.told

/-- The stream is passed on piece for piece, nothing is left, and the calls are the same when the
stream comes in two pieces. -/
structure Delivers (pasting : Bool) (items : List StreamItem) : Prop where
  calls : (parseInputFromTerminal (stream items) pasting).1 = expectedCalls pasting [] items
  leftover : (parseInputFromTerminal (stream items) pasting).2 = []
  pieces : ∀ before after, before ++ after = stream items →
    let first := parseInputFromTerminal before pasting
    let second := parseInputFromTerminal (first.2 ++ after) (first.1.foldl callerFlag pasting)
    SameUpToText (first.1 ++ second.1) (parseInputFromTerminal (stream items) pasting).1

/-- A payload of a CSI code that the scanner takes for one of those around a paste. -/
def TakenFor (w : UInt32) (payload : Text) : Prop :=
  payload.getLast? = some (ord '~') ∧ payload.take 3 = [ord '2', ord '0', w]

/-- The flag of a caller behind a piece of a stream. -/
def StreamItem.flag (pasting : Bool) : StreamItem → Bool
  | .text _ => pasting
  | .csi c => pasteFlag pasting c.payload
  | .string _ => pasting

/-- A CSI code ends at a character at which the scanner leaves it, and no other is taken for one of
those around a paste; a string stands outside of a paste, and its payload is not empty and has no
escape. -/
def StreamItem.Scannable (pasting : Bool) : StreamItem → Prop
  | .text _ => True
  | .csi c =>
    Scanner.endsCsi c.final = true ∧
    (pasting = false → TakenFor (ord '0') c.payload → c.payload = pasteStart) ∧
    (pasting = true → TakenFor (ord '1') c.payload → c.payload = pasteEnd)
  | .string s => pasting = false ∧ s.payload ≠ [] ∧ (0x1b : UInt32) ∉ s.payload

/-- Every piece of a stream is one that the scanner takes apart. -/
def Scannable : Bool → List StreamItem → Prop
  | _, [] => True
  | pasting, item :: rest => item.Scannable pasting ∧ Scannable (item.flag pasting) rest

instance (w : UInt32) (payload : Text) : Decidable (TakenFor w payload) :=
  inferInstanceAs (Decidable (_ ∧ _))

instance (pasting : Bool) : (item : StreamItem) → Decidable (item.Scannable pasting)
  | .text _ => isTrue trivial
  | .csi _ => inferInstanceAs (Decidable (_ ∧ _ ∧ _))
  | .string _ => inferInstanceAs (Decidable (_ ∧ _ ∧ _))

instance decideScannable : (pasting : Bool) → (items : List StreamItem) →
    Decidable (Scannable pasting items)
  | _, [] => isTrue trivial
  | pasting, item :: rest =>
    have := decideScannable (item.flag pasting) rest
    inferInstanceAs (Decidable (_ ∧ _))

/-! ### The scanner between two pieces and inside of one -/

/-- The scanner between two pieces: `pending` is yet to be passed on. -/
def resting (cb : Callback) (pasting : Bool) (calls : List Call) (front pending : Text) : Scanner :=
  { state := .NORMAL, callback := cb, inBracketedPasteMode := pasting, start := front.length
    count := pending.length, consumed := front.length, calls := calls }

/-- The scanner behind the escape of a code. -/
def escaped (cb : Callback) (pasting : Bool) (calls : List Call) (front : Text) : Scanner :=
  { state := .ESC, callback := cb, inBracketedPasteMode := pasting, start := front.length
    count := 0, consumed := front.length, calls := calls }

/-- The scanner inside of a code that begins behind `front`. -/
def within (state : State) (cb : Callback) (pasting : Bool) (calls : List Call) (front : Text)
    (count : Nat) : Scanner :=
  { state := state, callback := cb, inBracketedPasteMode := pasting, start := front.length + 1
    count := count, consumed := front.length, calls := calls }

variable {cb : Callback} {pasting : Bool} {calls : List Call} {front pending rest uo : Text}

theorem substring_middle (a b c : Text) :
    substring (a ++ (b ++ c)) a.length (a.length + b.length) = b := by
  rw [substring, List.drop_left, Nat.add_sub_cancel_left, List.take_left]

theorem substring_rest (a b : Text) : substring (a ++ b) a.length (a ++ b).length = b := by
  have whole := substring_middle a b []
  rwa [List.append_nil, ← List.length_append] at whole

theorem textCalls_eq (t : Text) : textCalls t = if t.length > 0 then [⟨.text, t⟩] else [] := by
  unfold textCalls
  cases t with
  | nil => rfl
  | cons ch t =>
    have some_ : (ch :: t).length > 0 := Nat.succ_pos _
    rw [if_neg (List.cons_ne_nil _ _), if_pos some_]

theorem call_text (p : Scanner) (same : uo = front ++ (pending ++ rest)) :
    p.call uo .text front.length pending.length =
      { p with
        calls := p.calls ++ textCalls pending
        consumed := front.length + pending.length
        count := 0 } := by
  have piece : substring uo front.length (front.length + pending.length) = pending := by
    rw [same]
    exact substring_middle front pending rest
  have notPasted : (p.inBracketedPasteMode && Callback.text != .text) = false := by
    rw [Bool.and_comm]
    rfl
  simp only [Scanner.call, notPasted, Bool.false_eq_true, if_false, piece, textCalls_eq]
  by_cases some_ : pending.length > 0
  · rw [if_pos some_, if_pos some_]
  · rw [if_neg some_, if_neg some_, List.append_nil]

/-- An escape passes the pending text on. -/
theorem step_escape (same : uo = front ++ (pending ++ rest)) (pos : Nat)
    (here : pos = (front ++ pending).length) :
    (resting cb pasting calls front pending).step uo pos 0x1b =
      escaped cb pasting (calls ++ textCalls pending) (front ++ pending) := by
  have length : front.length + pending.length = (front ++ pending).length :=
    List.length_append.symm
  simp only [Scanner.step, resting]
  rw [call_text _ same, here, length]
  rfl

theorem scan_append (p : Scanner) (pos : Nat) (first second : Text) :
    p.scan uo pos (first ++ second) =
      (p.scan uo pos first).scan uo (pos + first.length) second := by
  induction first generalizing p pos with
  | nil => rfl
  | cons ch first ih =>
    rw [List.cons_append, Scanner.scan, Scanner.scan, ih, List.length_cons, Nat.add_assoc,
      Nat.add_comm 1]

theorem scan_text {t : Text} (plain : (0x1b : UInt32) ∉ t) (pos : Nat) :
    (resting cb pasting calls front pending).scan uo pos t =
      resting cb pasting calls front (pending ++ t) := by
  induction t generalizing pending pos with
  | nil => rw [List.append_nil]; rfl
  | cons ch t ih =>
    obtain ⟨other, plain⟩ := List.mem_cons.not.1 plain |> not_or.1
    have counted : (resting cb pasting calls front pending).step uo pos ch =
        resting cb pasting calls front (pending ++ [ch]) := by
      simp [Scanner.step, resting, if_neg (Ne.symm other)]
    rw [Scanner.scan, counted, ih plain, List.append_assoc, List.singleton_append]

/-- The characters of a CSI code and of a payload are counted. -/
theorem scan_within {state : State} {t : Text}
    (counts : ∀ ch ∈ t, ∀ pos count, (within state cb pasting calls front count).step uo pos ch =
      within state cb pasting calls front (count + 1)) (pos count : Nat) :
    (within state cb pasting calls front count).scan uo pos t =
      within state cb pasting calls front (count + t.length) := by
  induction t generalizing pos count with
  | nil => rfl
  | cons ch t ih =>
    rw [Scanner.scan, counts ch (List.mem_cons_self ..), List.length_cons, Nat.add_comm t.length,
      ← Nat.add_assoc]
    exact ih (fun other mem => counts other (List.mem_cons_of_mem ch mem)) _ _

theorem scan_params {t : Text} (inner : ∀ ch ∈ t, Scanner.endsCsi ch = false) (pos count : Nat) :
    (within .CSI cb pasting calls front count).scan uo pos t =
      within .CSI cb pasting calls front (count + t.length) := by
  apply scan_within
  intro ch mem pos count
  simp [Scanner.step, within, Scanner.csi, inner ch mem]

theorem scan_payload {t : Text} (plain : (0x1b : UInt32) ∉ t) (pos count : Nat) :
    (within .ST cb pasting calls front count).scan uo pos t =
      within .ST cb pasting calls front (count + t.length) := by
  apply scan_within
  intro ch mem pos count
  have other : ch ≠ 0x1b := fun same => plain (same ▸ mem)
  simp [Scanner.step, within, if_neg other]

theorem CsiCode.params_endsCsi (c : CsiCode) : ∀ ch ∈ c.params, Scanner.endsCsi ch = false := by
  intro ch mem
  obtain ⟨low, high⟩ := c.paramsRange ch mem
  have numbers : (ord 'a').toNat = 97 ∧ (ord 'z').toNat = 122 ∧ (ord 'A').toNat = 65 ∧
      (ord 'Z').toNat = 90 ∧ (ord '@').toNat = 64 ∧ (ord '|').toNat = 124 ∧
      (ord '~').toNat = 126 := by decide
  simp only [Scanner.endsCsi, Bool.or_eq_false_iff, Bool.and_eq_false_iff, decide_eq_false_iff_not,
    beq_eq_false_iff_ne, ne_eq, UInt32.le_iff_toNat_le, ← UInt32.toNat_inj] at *
  have : (0x3f : UInt32).toNat = 63 ∧ (0x60 : UInt32).toNat = 96 ∧ (123 : UInt32).toNat = 123 ∧
    (125 : UInt32).toNat = 125 := by decide
  omega

/-! ### The end of a CSI code -/

theorem getD_payload {c : CsiCode} (same : uo = front ++ (c.code ++ rest)) (i : Nat) :
    uo.getD (front.length + 1 + (i + 1)) 0 = (c.payload ++ rest).getD i 0 := by
  have index : front.length + 1 + (i + 1) = front.length + (i + 2) := by omega
  rw [same, index, List.getD_eq_getElem?_getD, List.getElem?_append_right (Nat.le_add_right _ _),
    Nat.add_sub_cancel_left]
  rfl

/-- What the scanner looks at tells whether it takes the code for one of those around a paste. -/
theorem ibp_iff {c : CsiCode} (same : uo = front ++ (c.code ++ rest)) (state : State)
    (count : Nat) (w : UInt32) (digit : w ≠ ord '~') :
    (within state cb pasting calls front count).ibp uo c.final w = true ↔
      TakenFor w c.payload := by
  have last : c.payload.getLast? = some c.final := List.getLast?_concat
  simp only [Scanner.ibp, within, getD_payload same 0, getD_payload same 1, getD_payload same 2,
    Bool.and_eq_true, beq_iff_eq, TakenFor, last, Option.some.injEq, and_assoc]
  apply and_congr_right
  intro tilde
  have others : ord '~' ≠ ord '2' ∧ ord '~' ≠ ord '0' := by decide
  unfold CsiCode.payload
  rw [tilde]
  -- a payload of fewer than four characters has the tilde among the three
  match c.params with
  | [] => simp [others.1]
  | [a] => simp [others.2]
  | [a, b] => simp [Ne.symm digit]
  | a :: b :: d :: more => simp

theorem flag_end {payload : Text}
    (ends : pasting = true → TakenFor (ord '1') payload → payload = pasteEnd) {taken : Bool}
    (iff : taken = true ↔ TakenFor (ord '1') payload) :
    (if taken then false else pasting) = decide (pasting = true ∧ payload ≠ pasteEnd) := by
  cases pasting with
  | false => rw [ite_self]; rfl
  | true =>
    by_cases same : payload = pasteEnd
    · have yes : taken = true := iff.2 (same ▸ ⟨rfl, rfl⟩)
      rw [yes, same]
      rfl
    · have no : ¬ taken = true := fun yes => same (ends rfl (iff.1 yes))
      rw [if_neg no, decide_eq_true ⟨rfl, same⟩]

theorem flag_start {payload : Text}
    (starts : pasting = false → TakenFor (ord '0') payload → payload = pasteStart) {taken : Bool}
    (iff : taken = true ↔ TakenFor (ord '0') payload) :
    (if taken then true else decide (pasting = true ∧ payload ≠ pasteEnd)) =
      pasteFlag pasting payload := by
  unfold pasteFlag
  by_cases start : payload = pasteStart
  · have yes : taken = true := iff.2 (start ▸ ⟨rfl, rfl⟩)
    rw [yes, if_pos rfl, if_pos start]
  · rw [if_neg start]
    by_cases stop : payload = pasteEnd
    · have no : ¬ taken = true := by
        intro yes
        have digits := (iff.1 yes).2
        rw [stop] at digits
        exact absurd digits (by decide)
      rw [if_neg no, if_pos stop, decide_eq_false fun both => both.2 stop]
    · rw [if_neg stop]
      cases pasting with
      | true => simp [stop]
      | false =>
        have no : ¬ taken = true := fun yes => start (starts rfl (iff.1 yes))
        rw [if_neg no]
        rfl

theorem CsiCode.code_length (c : CsiCode) : c.code.length = c.payload.length + 2 := rfl

/-- What a callback is given of a CSI code. -/
theorem call_csi {c : CsiCode} (same : uo = front ++ (c.code ++ rest)) (p : Scanner)
    (flag : p.inBracketedPasteMode = decide (pasting = true ∧ c.payload ≠ pasteEnd)) :
    p.call uo .csi (front.length + 2) c.payload.length =
      { p with
        calls := p.calls ++ [csiCall pasting c]
        consumed := (front ++ c.code).length
        count := 0 } := by
  have whole : substring uo front.length (front.length + c.code.length) = c.code := by
    rw [same]
    exact substring_middle _ _ _
  have payload : substring uo (front.length + 2) (front.length + 2 + c.payload.length) =
      c.payload := by
    have parts : uo = (front ++ [0x1b, ord '[']) ++ (c.payload ++ rest) := by
      rw [same, List.append_assoc]
      rfl
    have read := substring_middle (front ++ [0x1b, ord '[']) c.payload rest
    rwa [← parts, List.length_append] at read
  have filled : c.payload.length > 0 := by
    rw [CsiCode.payload, List.length_append]
    exact Nat.succ_pos _
  have behind : (front ++ c.code).length = front.length + 2 + c.payload.length := by
    rw [List.length_append, c.code_length]
    omega
  have other : (Callback.csi != .text) = true := rfl
  unfold Scanner.call csiCall
  dsimp only
  rw [flag, behind, other, Bool.and_true]
  by_cases pasted : pasting = true ∧ c.payload ≠ pasteEnd
  · have amount : c.payload.length + 2 = c.code.length := rfl
    have start : front.length + 2 - 2 = front.length := Nat.add_sub_cancel _ _
    rw [decide_eq_true pasted, if_pos pasted, if_pos rfl, if_pos rfl, if_pos rfl, start, amount,
      whole, if_pos (amount ▸ Nat.succ_pos _)]
  · have direct : ¬ decide (pasting = true ∧ c.payload ≠ pasteEnd) = true := by
      rw [decide_eq_true_eq]
      exact pasted
    rw [if_neg pasted, if_neg direct, if_neg direct, if_neg direct, payload, if_pos filled]

/-- The last character of a CSI code passes the code on. -/
theorem step_final {c : CsiCode} (same : uo = front ++ (c.code ++ rest))
    (ends : Scanner.endsCsi c.final = true)
    (starts : pasting = false → TakenFor (ord '0') c.payload → c.payload = pasteStart)
    (stops : pasting = true → TakenFor (ord '1') c.payload → c.payload = pasteEnd) (pos : Nat)
    (here : pos + 1 = (front ++ c.code).length) :
    (within .CSI .csi pasting calls front c.params.length).step uo pos c.final =
      resting .csi (pasteFlag pasting c.payload) (calls ++ [csiCall pasting c])
        (front ++ c.code) [] := by
  have length : c.params.length + 1 = c.payload.length := by
    rw [CsiCode.payload, List.length_append]
    rfl
  -- the flag is cleared before the call, and set behind it
  let flag := decide (pasting = true ∧ c.payload ≠ pasteEnd)
  have cleared : (within .CSI .csi pasting calls front c.payload.length).setPasteMode uo c.final
      (ord '1') false = within .CSI .csi flag calls front c.payload.length :=
    congrArg (fun f => within .CSI .csi f calls front c.payload.length)
      (flag_end stops (ibp_iff same _ _ _ (by decide)))
  let counted := within .CSI .csi flag calls front c.payload.length
  have called : counted.call uo counted.callback (counted.start + 1) counted.count =
      { within .CSI .csi flag (calls ++ [csiCall pasting c]) front 0 with
        consumed := (front ++ c.code).length } :=
    call_csi same counted rfl
  have set := flag_start starts
    (@ibp_iff .csi flag (calls ++ [csiCall pasting c]) front rest uo c same .CSI 0 (ord '0')
      (by decide))
  change (if Scanner.endsCsi c.final then
    (within .CSI .csi pasting calls front (c.params.length + 1)).leaveCsi uo pos c.final else _) = _
  rw [if_pos ends, length, Scanner.leaveCsi, cleared, called, here]
  exact congrArg (fun f => resting .csi f (calls ++ [csiCall pasting c]) (front ++ c.code) []) set

/-! ### Whole pieces -/

/-- Behind its escape, the second character of a code tells what kind it is of. -/
theorem step_bracket (pos : Nat) (here : pos = front.length + 1) :
    (escaped cb pasting calls front).step uo pos (ord '[') =
      within .CSI .csi pasting calls front 0 := by
  rw [here]
  rfl

theorem step_introducer (kind : StringKind) (pos : Nat) (here : pos = front.length + 1) :
    (escaped cb pasting calls front).step uo pos kind.introducer =
      within .ST kind.callback pasting calls front 0 := by
  rw [here]
  cases kind with
  | dcs => rfl
  | osc => rfl
  | pm => rfl
  | apc => rfl

theorem scan_csi {c : CsiCode} (same : uo = front ++ (pending ++ (c.code ++ rest)))
    (ends : Scanner.endsCsi c.final = true)
    (starts : pasting = false → TakenFor (ord '0') c.payload → c.payload = pasteStart)
    (stops : pasting = true → TakenFor (ord '1') c.payload → c.payload = pasteEnd) (pos : Nat)
    (here : pos = (front ++ pending).length) :
    (resting cb pasting calls front pending).scan uo pos c.code =
      resting .csi (pasteFlag pasting c.payload) (calls ++ textCalls pending ++ [csiCall pasting c])
        (front ++ pending ++ c.code) [] := by
  have parts : uo = front ++ pending ++ (c.code ++ rest) := by
    rw [same, List.append_assoc]
  have behind : pos + 1 + 1 + c.params.length + 1 = (front ++ pending ++ c.code).length := by
    rw [@List.length_append _ (front ++ pending) _, c.code_length, CsiCode.payload,
      @List.length_append _ c.params _]
    simp only [List.length_singleton]
    omega
  unfold CsiCode.code CsiCode.payload
  rw [Scanner.scan, step_escape same pos here, Scanner.scan,
    step_bracket _ (congrArg Nat.succ here), scan_append, scan_params c.params_endsCsi,
    Nat.zero_add]
  exact step_final parts ends starts stops _ behind

/-- The backslash passes a string on that stands outside of a paste. -/
theorem step_backslash {s : StringCode} (same : uo = front ++ (s.code ++ rest))
    (filled : s.payload ≠ []) (pos : Nat) (here : pos + 1 = (front ++ s.code).length) :
    (within .ESC_ST s.kind.callback false calls front s.payload.length).step uo pos 0x5c =
      resting s.kind.callback false (calls ++ [stringCall false s]) (front ++ s.code) [] := by
  have payload : substring uo (front.length + 2) (front.length + 2 + s.payload.length) =
      s.payload := by
    have parts : uo =
        (front ++ [0x1b, s.kind.introducer]) ++ (s.payload ++ ([0x1b, 0x5c] ++ rest)) := by
      rw [same, StringCode.code]
      simp
    have read := substring_middle (front ++ [0x1b, s.kind.introducer]) s.payload
      ([0x1b, 0x5c] ++ rest)
    rwa [← parts, List.length_append] at read
  have behind : front.length + 2 + s.payload.length + 2 = (front ++ s.code).length := by
    rw [List.length_append, StringCode.code, List.length_cons, List.length_cons,
      List.length_append]
    simp only [List.length_cons, List.length_nil]
    omega
  let counted := within .ESC_ST s.kind.callback false calls front s.payload.length
  have called : counted.call uo s.kind.callback (front.length + 2) s.payload.length =
        { within .ESC_ST s.kind.callback false (calls ++ [stringCall false s]) front 0 with
          consumed := front.length + 2 + s.payload.length } := by
    have some_ : s.payload.length > 0 := List.length_pos_iff.2 filled
    simp [counted, Scanner.call, within, payload, if_pos some_, stringCall]
  change (let p := counted.call uo s.kind.callback (front.length + 2) s.payload.length
    ({ p with state := .NORMAL, start := pos + 1, consumed := p.consumed + 2 } : Scanner)) = _
  rw [called, here]
  exact congrArg (fun n => ({ resting s.kind.callback false (calls ++ [stringCall false s])
    (front ++ s.code) [] with consumed := n } : Scanner)) behind

theorem scan_string {s : StringCode} (same : uo = front ++ (pending ++ (s.code ++ rest)))
    (filled : s.payload ≠ []) (plain : (0x1b : UInt32) ∉ s.payload) (pos : Nat)
    (here : pos = (front ++ pending).length) :
    (resting cb false calls front pending).scan uo pos s.code =
      resting s.kind.callback false (calls ++ textCalls pending ++ [stringCall false s])
        (front ++ pending ++ s.code) [] := by
  have parts : uo = front ++ pending ++ (s.code ++ rest) := by
    rw [same, List.append_assoc]
  have behind : pos + 1 + 1 + s.payload.length + 1 + 1 = (front ++ pending ++ s.code).length := by
    rw [@List.length_append _ (front ++ pending) _, StringCode.code, List.length_cons,
      List.length_cons, @List.length_append _ s.payload _]
    simp only [List.length_cons, List.length_nil]
    omega
  unfold StringCode.code
  rw [Scanner.scan, step_escape same pos here, Scanner.scan,
    step_introducer s.kind _ (congrArg Nat.succ here), scan_append, scan_payload plain,
    Nat.zero_add]
  exact step_backslash parts filled _ behind

/-! ### Streams, and the beginning of a piece -/

/-- The flag of the scanner, and of a caller, behind a stream. -/
def flagAfter (pasting : Bool) (items : List StreamItem) : Bool :=
  items.foldl StreamItem.flag pasting

theorem textCalls_nil : textCalls [] = [] := rfl

theorem stream_cons (item : StreamItem) (items : List StreamItem) :
    stream (item :: items) = item.code ++ stream items := rfl

/-- The scanner behind a stream: what it has passed on and what is pending are what is expected. -/
theorem scan_stream {items : List StreamItem} (scannable : Scannable pasting items)
    (same : uo = front ++ (pending ++ (stream items ++ rest))) :
    ∃ cb' calls' front' pending',
      (resting cb pasting calls front pending).scan uo (front ++ pending).length (stream items) =
        resting cb' (flagAfter pasting items) calls' front' pending' ∧
      front' ++ pending' = front ++ (pending ++ stream items) ∧
      calls' ++ textCalls pending' = calls ++ expectedCalls pasting pending items := by
  induction items generalizing cb pasting calls front pending with
  | nil => exact ⟨cb, calls, front, pending, rfl, by rw [stream, List.flatMap_nil, List.append_nil],
      rfl⟩
  | cons item items ih =>
    have length : (front ++ pending).length + item.code.length =
        (front ++ pending ++ item.code).length := List.length_append.symm
    rw [stream_cons, List.append_assoc] at same
    rw [stream_cons, scan_append, length]
    cases item with
    | text t =>
      have next : uo = front ++ (pending ++ t.chars ++ (stream items ++ rest)) := by
        rw [same, List.append_assoc]
        rfl
      obtain ⟨cb', calls', front', pending', scanned, parts, passed⟩ :=
        @ih cb pasting calls front (pending ++ t.chars) scannable.2 next
      rw [← List.append_assoc] at scanned
      rw [List.append_assoc pending] at parts
      refine ⟨cb', calls', front', pending', ?_, parts, passed⟩
      rw [StreamItem.code, scan_text t.plain]
      exact scanned
    | csi c =>
      obtain ⟨⟨ends, starts, stops⟩, others⟩ := scannable
      have next : uo = front ++ pending ++ c.code ++ ([] ++ (stream items ++ rest)) := by
        rw [same, List.append_assoc, List.append_assoc]
        rfl
      obtain ⟨cb', calls', front', pending', scanned, parts, passed⟩ :=
        @ih .csi (pasteFlag pasting c.payload) (calls ++ textCalls pending ++ [csiCall pasting c])
          (front ++ pending ++ c.code) [] others next
      rw [List.append_nil] at scanned
      refine ⟨cb', calls', front', pending', ?_, ?_, ?_⟩
      · rw [StreamItem.code, scan_csi same ends starts stops _ rfl]
        exact scanned
      · rw [parts, List.nil_append, List.append_assoc, List.append_assoc]
        rfl
      · rw [passed, List.append_assoc, List.append_assoc]
        rfl
    | string s =>
      obtain ⟨⟨outside, filled, plain⟩, others⟩ := scannable
      subst outside
      have next : uo = front ++ pending ++ s.code ++ ([] ++ (stream items ++ rest)) := by
        rw [same, List.append_assoc, List.append_assoc]
        rfl
      obtain ⟨cb', calls', front', pending', scanned, parts, passed⟩ :=
        @ih s.kind.callback false (calls ++ textCalls pending ++ [stringCall false s])
          (front ++ pending ++ s.code) [] others next
      rw [List.append_nil] at scanned
      refine ⟨cb', calls', front', pending', ?_, ?_, ?_⟩
      · rw [StreamItem.code, scan_string same filled plain _ rfl]
        exact scanned
      · rw [parts, List.nil_append, List.append_assoc, List.append_assoc]
        rfl
      · rw [passed, List.append_assoc, List.append_assoc]
        rfl

/-- What stands of a piece that is yet to be completed. -/
inductive Begun : Text → Prop where
  | nothing : Begun []
  | escape : Begun [0x1b]
  | csi (t : Text) (inner : ∀ ch ∈ t, Scanner.endsCsi ch = false) : Begun (0x1b :: ord '[' :: t)
  | string (kind : StringKind) (t : Text) (plain : (0x1b : UInt32) ∉ t) :
    Begun (0x1b :: kind.introducer :: t)
  | terminator (kind : StringKind) (t : Text) (plain : (0x1b : UInt32) ∉ t) :
    Begun (0x1b :: kind.introducer :: (t ++ [0x1b]))

theorem finish_busy (p : Scanner) (busy : p.state ≠ .NORMAL) (front begun : Text)
    (consumed : p.consumed = front.length) : p.finish (front ++ begun) = (p.calls, begun) := by
  have none_ : ¬ (p.state = .NORMAL ∧ p.count > 0) := fun both => busy both.1
  unfold Scanner.finish
  rw [if_neg none_]
  dsimp only
  rw [consumed, substring_rest]

/-- A piece that is not complete is left over, and the text in front of it is passed on. -/
theorem finish_begun {begun : Text} (h : Begun begun) :
    ((resting cb pasting calls front pending).scan (front ++ (pending ++ begun))
        (front ++ pending).length begun).finish (front ++ (pending ++ begun)) =
      (calls ++ textCalls pending, begun) := by
  have parts : front ++ (pending ++ begun) = front ++ pending ++ begun :=
    (List.append_assoc ..).symm
  cases h with
  | nothing =>
    have whole : front ++ (pending ++ []) = front ++ (pending ++ []) := rfl
    rw [Scanner.scan, Scanner.finish]
    by_cases some_ : pending.length > 0
    · have flush : (resting cb pasting calls front pending).state = .NORMAL ∧
          (resting cb pasting calls front pending).count > 0 := ⟨rfl, some_⟩
      rw [if_pos flush]
      change (((resting cb pasting calls front pending).call _ .text front.length
        pending.length).calls, substring _ ((resting cb pasting calls front pending).call _ .text
        front.length pending.length).consumed _) = _
      rw [call_text _ whole, ← List.length_append, parts]
      exact congrArg _ (substring_rest (front ++ pending) [])
    · have empty : pending = [] := List.length_eq_zero_iff.1 (Nat.eq_zero_of_not_pos some_)
      rw [empty, textCalls_nil, List.append_nil calls]
      exact congrArg (Prod.mk calls) (substring_rest front [])
  | escape =>
    rw [Scanner.scan, step_escape rfl _ rfl, parts]
    exact finish_busy _ State.noConfusion _ _ rfl
  | csi t inner =>
    rw [Scanner.scan, step_escape rfl _ rfl, Scanner.scan, step_bracket _ rfl, scan_params inner,
      parts]
    exact finish_busy _ State.noConfusion _ _ rfl
  | string kind t plain =>
    rw [Scanner.scan, step_escape rfl _ rfl, Scanner.scan, step_introducer kind _ rfl,
      scan_payload plain, parts]
    exact finish_busy _ State.noConfusion _ _ rfl
  | terminator kind t plain =>
    rw [Scanner.scan, step_escape rfl _ rfl, Scanner.scan, step_introducer kind _ rfl, scan_append,
      scan_payload plain, parts]
    exact finish_busy _ State.noConfusion _ _ rfl

/-- What comes of a stream and the beginning of a piece. -/
theorem parse_stream {items : List StreamItem} (scannable : Scannable pasting items)
    {begun : Text} (h : Begun begun) :
    parseInputFromTerminal (stream items ++ begun) pasting =
      (expectedCalls pasting [] items, begun) := by
  obtain ⟨cb', calls', front', pending', scanned, parts, passed⟩ :=
    @scan_stream .text pasting [] [] [] begun (stream items ++ begun) items scannable rfl
  have behind : stream items ++ begun = front' ++ (pending' ++ begun) := by
    rw [← List.append_assoc, parts]
    rfl
  have length : 0 + (stream items).length = (front' ++ pending').length := by
    rw [parts, Nat.zero_add]
    rfl
  change ((resting .text pasting [] [] []).scan (stream items ++ begun) 0
    (stream items ++ begun)).finish _ = _
  rw [scan_append]
  change (Scanner.scan ((resting .text pasting [] [] []).scan (stream items ++ begun)
    ([] ++ [] : Text).length (stream items)) _ _ _).finish _ = _
  rw [scanned, behind, length, finish_begun h, passed]
  rfl

/-! ### Two pieces -/

/-- What is told of a piece, a character at a time for a text. -/
def StreamItem.told (pasting : Bool) : StreamItem → List Told
  | .text t => t.chars.map .typed
  | .csi c => (csiCall pasting c).told
  | .string s => (stringCall pasting s).told

/-- What is told of a stream. -/
def toldOf : Bool → List StreamItem → List Told
  | _, [] => []
  | pasting, item :: rest => item.told pasting ++ toldOf (item.flag pasting) rest

theorem told_textCalls (t : Text) : (textCalls t).flatMap Call.told = t.map .typed := by
  unfold textCalls
  by_cases empty : t = []
  · rw [if_pos empty, empty]
    rfl
  · rw [if_neg empty, List.flatMap_singleton]
    rfl

theorem told_expectedCalls (pasting : Bool) (pending : Text) (items : List StreamItem) :
    (expectedCalls pasting pending items).flatMap Call.told =
      pending.map .typed ++ toldOf pasting items := by
  induction items generalizing pasting pending with
  | nil =>
    rw [expectedCalls, told_textCalls, toldOf, List.append_nil]
  | cons item items ih =>
    cases item with
    | text t =>
      rw [expectedCalls, ih, List.map_append, List.append_assoc]
      rfl
    | csi c =>
      rw [expectedCalls, List.flatMap_append, told_textCalls, List.flatMap_cons, ih]
      rfl
    | string s =>
      rw [expectedCalls, List.flatMap_append, told_textCalls, List.flatMap_cons, ih]
      rfl

theorem foldl_textCalls (pasting : Bool) (t : Text) :
    (textCalls t).foldl callerFlag pasting = pasting := by
  unfold textCalls
  by_cases empty : t = []
  · rw [if_pos empty]
    rfl
  · rw [if_neg empty]
    rfl

theorem callerFlag_csiCall (pasting : Bool) (c : CsiCode) :
    callerFlag pasting (csiCall pasting c) = pasteFlag pasting c.payload := by
  unfold csiCall
  by_cases pasted : pasting = true ∧ c.payload ≠ pasteEnd
  · rw [if_pos pasted, pasted.1, pasteFlag, if_neg pasted.2, ite_self]
    rfl
  · rw [if_neg pasted]
    rfl

theorem callerFlag_stringCall (pasting : Bool) (s : StringCode) :
    callerFlag pasting (stringCall pasting s) = pasting := by
  cases pasting with
  | true => rfl
  | false =>
    cases kind : s.kind with
    | dcs | osc | pm | apc =>
      rw [stringCall, kind]
      rfl

/-- The caller's flag is that of the scanner. -/
theorem foldl_expectedCalls (pasting : Bool) (pending : Text) (items : List StreamItem) :
    (expectedCalls pasting pending items).foldl callerFlag pasting = flagAfter pasting items := by
  induction items generalizing pasting pending with
  | nil => exact foldl_textCalls pasting pending
  | cons item items ih =>
    cases item with
    | text t => exact ih pasting (pending ++ t.chars)
    | csi c =>
      rw [expectedCalls, List.foldl_append, foldl_textCalls, List.foldl_cons, callerFlag_csiCall]
      exact ih _ []
    | string s =>
      rw [expectedCalls, List.foldl_append, foldl_textCalls, List.foldl_cons,
        callerFlag_stringCall]
      exact ih _ []

/-- A proper beginning of a CSI code can be completed. -/
theorem CsiCode.begun {c : CsiCode} {before after : Text} (same : before ++ after = c.code)
    (some_ : after ≠ []) : Begun before := by
  match before, same with
  | [], _ => exact Begun.nothing
  | [ch], same =>
    obtain ⟨rfl, -⟩ := List.cons.inj same
    exact Begun.escape
  | ch :: bracket :: t, whole =>
    obtain ⟨rfl, behind⟩ := List.cons.inj whole
    obtain ⟨rfl, inner⟩ := List.cons.inj behind
    obtain ⟨more, last, rfl⟩ := List.eq_nil_or_concat after |>.resolve_left some_
    have parts : t ++ more ++ [last] = c.params ++ [c.final] := by
      rw [List.append_assoc, ← List.concat_eq_append]
      exact inner
    obtain ⟨params, -⟩ := List.append_inj' parts rfl
    apply Begun.csi
    intro ch mem
    exact c.params_endsCsi ch (params ▸ List.mem_append_left more mem)

/-- A proper beginning of a string can be completed. -/
theorem StringCode.begun {s : StringCode} (plain : (0x1b : UInt32) ∉ s.payload)
    {before after : Text} (same : before ++ after = s.code) (some_ : after ≠ []) :
    Begun before := by
  match before, same with
  | [], _ => exact Begun.nothing
  | [ch], same =>
    obtain ⟨rfl, -⟩ := List.cons.inj same
    exact Begun.escape
  | ch :: introducer :: t, whole =>
    obtain ⟨rfl, behind⟩ := List.cons.inj whole
    obtain ⟨rfl, inner⟩ := List.cons.inj behind
    have parts : t ++ after = s.payload ++ [0x1b, 0x5c] := inner
    rcases List.append_eq_append_iff.1 parts with ⟨more, payload, -⟩ | ⟨more, all, terminator⟩
    · apply Begun.string
      intro mem
      exact plain (payload ▸ List.mem_append_left more mem)
    · match more, terminator with
      | [], _ =>
        rw [all, List.append_nil]
        exact Begun.string _ _ plain
      | [ch], terminator =>
        obtain ⟨rfl, -⟩ := List.cons.inj terminator
        rw [all]
        exact Begun.terminator _ _ plain
      | ch :: backslash :: more, terminator =>
        obtain ⟨-, rest⟩ := List.cons.inj terminator
        obtain ⟨-, rest⟩ := List.cons.inj rest
        exact absurd (List.append_eq_nil_iff.1 rest.symm).2 some_

/-- A piece is completed where it is no text. -/
theorem StreamItem.begun {item : StreamItem} (scannable : item.Scannable pasting)
    {before after : Text} (same : before ++ after = item.code) (some_ : after ≠ []) :
    (∃ t, item = .text t) ∨ Begun before := by
  cases item with
  | text t => exact Or.inl ⟨t, rfl⟩
  | csi c => exact Or.inr (CsiCode.begun same some_)
  | string s => exact Or.inr (StringCode.begun scannable.2.2 same some_)

/-- Two parts of a stream are a stream and the beginning of a piece, and a stream that begins with
the whole piece. -/
theorem stream_split {items : List StreamItem} (scannable : Scannable pasting items)
    {before after : Text} (same : before ++ after = stream items) :
    ∃ first second begun, before = stream first ++ begun ∧ begun ++ after = stream second ∧
      Begun begun ∧ Scannable pasting first ∧ Scannable (flagAfter pasting first) second ∧
      toldOf pasting first ++ toldOf (flagAfter pasting first) second = toldOf pasting items := by
  induction items generalizing pasting before with
  | nil =>
    obtain ⟨rfl, rfl⟩ := List.append_eq_nil_iff.1 same
    exact ⟨[], [], [], rfl, rfl, Begun.nothing, trivial, trivial, rfl⟩
  | cons item items ih =>
    rw [stream_cons] at same
    rcases List.append_eq_append_iff.1 same.symm with ⟨more, rfl, rest⟩ | ⟨more, code, rfl⟩
    · obtain ⟨first, second, begun, whole, next, h, firstly, secondly, told⟩ :=
        ih scannable.2 rest.symm
      refine ⟨item :: first, second, begun, ?_, next, h, ⟨scannable.1, firstly⟩, secondly, ?_⟩
      · rw [whole, stream_cons, List.append_assoc]
      · rw [toldOf, List.append_assoc, toldOf]
        exact congrArg _ told
    · by_cases none_ : more = []
      · refine ⟨[item], items, [], ?_, ?_, Begun.nothing, ⟨scannable.1, trivial⟩, scannable.2, ?_⟩
        · rw [stream_cons, code, none_, stream, List.flatMap_nil, List.append_nil, List.append_nil,
            List.append_nil]
        · rw [none_]
          rfl
        · rw [toldOf, toldOf, toldOf, List.append_nil]
          rfl
      · rcases item.begun scannable.1 code.symm none_ with ⟨t, rfl⟩ | h
        · have plain := t.plain
          have chars : t.chars = before ++ more := code
          rw [chars, List.mem_append, not_or] at plain
          refine ⟨[.text ⟨before, plain.1⟩], .text ⟨more, plain.2⟩ :: items, [], ?_, rfl,
            Begun.nothing, ⟨trivial, trivial⟩, scannable, ?_⟩
          · rw [stream_cons, stream, List.flatMap_nil, List.append_nil, List.append_nil]
            rfl
          · rw [toldOf, toldOf, toldOf, toldOf, StreamItem.told, StreamItem.told, StreamItem.told,
              chars, List.map_append, List.append_nil, List.append_assoc]
            rfl
        · refine ⟨[], item :: items, before, rfl, ?_, h, trivial, scannable, rfl⟩
          rw [stream_cons, code, List.append_assoc]

/-- A stream that the scanner can take apart is passed on piece for piece. -/
theorem parseInputFromTerminal_delivers {pasting : Bool} {items : List StreamItem}
    (scannable : Scannable pasting items) : Delivers pasting items := by
  have whole := parse_stream scannable Begun.nothing
  rw [List.append_nil] at whole
  refine ⟨congrArg Prod.fst whole, congrArg Prod.snd whole, ?_⟩
  intro before after same
  obtain ⟨first, second, begun, rfl, next, h, firstly, secondly, told⟩ :=
    stream_split scannable same
  have later := parse_stream secondly Begun.nothing
  rw [List.append_nil] at later
  dsimp only
  rw [parse_stream firstly h, foldl_expectedCalls, next, later, whole]
  unfold SameUpToText
  rw [List.flatMap_append, told_expectedCalls, told_expectedCalls, told_expectedCalls, ← told]
  rfl

/-- A pasted code between two texts, and a string. -/
def pastedStream : List StreamItem :=
  [.text ⟨chars "a", by decide⟩,
    .csi ⟨chars "200", ord '~', forall_mem_of_all (by decide), by decide⟩,
    .csi ⟨chars "32", ord 'm', forall_mem_of_all (by decide), by decide⟩,
    .text ⟨chars "xy", by decide⟩,
    .csi ⟨chars "201", ord '~', forall_mem_of_all (by decide), by decide⟩,
    .string ⟨.apc, chars "x,;(", by decide⟩, .text ⟨chars "a", by decide⟩]

theorem parseInputFromTerminal_delivers_paste :
    stream pastedStream = chars "a\x1b[200~\x1b[32mxy\x1b[201~\x1b_x,;(\x1b\\a" ∧
      Delivers false pastedStream :=
  ⟨by decide, parseInputFromTerminal_delivers (by decide)⟩

/-- An OSC code whose payload has an escape in front of its last character. -/
def escapedPayload : List StreamItem :=
  [.string ⟨.osc, chars "x\x1by", by decide⟩, .text ⟨chars "z", by decide⟩]

/-- Behind an escape the scanner stays in the state `ESC_ST`, and counts every character twice. -/
theorem parseInputFromTerminal_escapedPayload :
    (parseInputFromTerminal (chars "\x1b]x\x1by\x1b\\z") false).1 =
        [⟨.osc, chars "x\x1by\x1b\\"⟩, ⟨.text, chars "z"⟩] ∧
      stream escapedPayload = chars "\x1b]x\x1by\x1b\\z" ∧ ¬ Delivers false escapedPayload := by
  refine ⟨by decide, by decide, ?_⟩
  intro delivers
  exact absurd delivers.calls (by decide)

end Kittens

end Smelly
