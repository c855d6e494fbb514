/-
Module: Smelly.Proofs.SgrGrammar
Purpose: The parameters of an SGR sequence as a list of items, each a list of numbers.  `parse_sgr`
  makes one call for each item of a printed list.
Trusted boundary: none
-/
import Smelly.Core.Sgr

namespace Smelly

/-! ### The grammar of the parameters -/

/-- The numbers of an item, separated by colons. -/
def itemText : List Nat → Text
  | [] => []
  | [n] => decimalText n
  | n :: rest => decimalText n ++ ord ':' :: itemText rest

/-- Items, each with a semi-colon behind it. -/
def itemsText (items : List (List Nat)) : Text := items.flatMap fun item => itemText item ++ [ord ';']

/-- An item that the parser takes as one attribute: no colour with its parameters missing. -/
structure PlainItem (item : List Nat) : Prop where
  nonempty : item ≠ []
  short : item.length ≤ 5
  small : ∀ n ∈ item, n < 256
  complete : item ≠ [38] ∧ item ≠ [48] ∧ item ≠ [58]

/-- The call for an item. -/
def itemCommand (item : List Nat) : Command :=
  .selectGraphicRendition (item.map Int.ofNat) none

/-- What the parser needs to know of printed numbers. -/
theorem decimalText_spec : ∀ n < 256, decimalText n ≠ [] ∧ (∀ ch ∈ decimalText n, isDigit ch) ∧
    toInt (utoi (decimalText n)) = n ∧ (decimalText n).length ≤ 3 := by
  have checked : ∀ n < 256, decimalText n ≠ [] ∧ (decimalText n).all isDigit = true ∧
      toInt (utoi (decimalText n)) = n ∧ (decimalText n).length ≤ 3 := by decide +kernel
  intro n small
  obtain ⟨nonempty, digits, rest⟩ := checked n small
  exact ⟨nonempty, List.all_eq_true.1 digits, rest⟩

/-! ### The parser on printed items -/

theorem sgrLoop_digits {p : SgrParser} (state : p.state ≠ .start)
    (room : p.params.length < maxParams) {digits : Text} (hdigits : ∀ ch ∈ digits, isDigit ch)
    (rest : Text) :
    sgrLoop none p (digits ++ rest) =
      sgrLoop none { p with number := p.number ++ digits } rest := by
  induction digits generalizing p with
  | nil => simp
  | cons ch digits ih =>
    have step : sgrStep none p ch = ({ p with number := p.number ++ [ch] }, false) := by
      unfold sgrStep
      rw [if_pos (hdigits ch List.mem_cons_self)]
      split
      · exact absurd ‹_› state
      · rfl
    rw [List.cons_append, sgrLoop, if_pos room, step]
    have later := ih (p := { p with number := p.number ++ [ch] }) state room
      fun c hc => hdigits c (List.mem_cons_of_mem _ hc)
    simpa using later

theorem sgrLoop_number {p : SgrParser} (state : p.state = .start)
    (room : p.params.length < maxParams) {digits : Text} (nonempty : digits ≠ [])
    (hdigits : ∀ ch ∈ digits, isDigit ch) (rest : Text) :
    sgrLoop none p (digits ++ rest) =
      sgrLoop none { p with state := .normal, params := [], number := digits } rest := by
  cases digits with
  | nil => exact absurd rfl nonempty
  | cons ch digits =>
    have step : sgrStep none p ch =
        ({ p with state := .normal, params := [], number := [ch] }, false) := by
      unfold sgrStep
      rw [if_pos (hdigits ch List.mem_cons_self), state]
    rw [List.cons_append, sgrLoop, if_pos room, step]
    exact sgrLoop_digits (by simp) (by simp [maxParams]) (fun c hc => hdigits c (List.mem_cons_of_mem _ hc))
      rest

/-- The parser has read the numbers `params`, the last of them up to its last digit. -/
structure Reading (params : List Nat) (commands : List Command) (p : SgrParser) : Prop where
  state : p.state = .multiple ∨ (p.state = .normal ∧ params.length = 1)
  number : p.number ≠ []
  room : p.params.length < maxParams
  read : p.params ++ [toInt (utoi p.number)] = params.map Int.ofNat
  commands : p.commands = commands

/-- A colon ends a number. -/
theorem reading_colon {params : List Nat} {commands : List Command} {p : SgrParser}
    (h : Reading params commands p) (rest : Text) :
    sgrLoop none p (ord ':' :: rest) =
      sgrLoop none { p with state := .multiple, params := params.map Int.ofNat, number := [] }
        rest := by
  have step : sgrStep none p (ord ':') = (p.next .multiple, false) := by
    unfold sgrStep
    rw [if_neg (by decide), if_neg (by decide), if_pos rfl]
    rcases h.state with state | ⟨state, -⟩ <;> rw [state]
  rw [sgrLoop, if_pos h.room, step]
  simp [SgrParser.next, SgrParser.readParam, h.read]

theorem sgrLoop_item_more {item : List Nat} (params : List Nat) (nonempty : item ≠ [])
    (small : ∀ n ∈ item, n < 256) {p : SgrParser} (state : p.state = .multiple)
    (number : p.number = []) (read : p.params = params.map Int.ofNat)
    (room : params.length + item.length < maxParams) :
    ∃ q, (∀ rest, sgrLoop none p (itemText item ++ rest) = sgrLoop none q rest) ∧
      Reading (params ++ item) p.commands q := by
  induction item generalizing p params with
  | nil => exact absurd rfl nonempty
  | cons n item ih =>
    obtain ⟨digits, hdigits, value, -⟩ := decimalText_spec n (small n List.mem_cons_self)
    have lt : p.params.length < maxParams := by
      rw [read, List.length_map]
      exact Nat.lt_of_le_of_lt (Nat.le_add_right _ _) room
    have first : Reading (params ++ [n]) p.commands { p with number := decimalText n } := by
      refine ⟨Or.inl state, digits, lt, ?_, rfl⟩
      rw [List.map_append, ← read]
      simp [value]
    have printed : ∀ rest, sgrLoop none p (decimalText n ++ rest) =
        sgrLoop none { p with number := decimalText n } rest := by
      intro rest
      rw [sgrLoop_digits (by rw [state]; decide) lt hdigits, number, List.nil_append]
    cases item with
    | nil => exact ⟨_, printed, first⟩
    | cons m item =>
      obtain ⟨q, hq, reading⟩ := ih (params ++ [n]) (List.cons_ne_nil m item)
        (fun k hk => small k (List.mem_cons_of_mem _ hk))
        (p := { p with
          state := .multiple, params := (params ++ [n]).map Int.ofNat, number := [] }) rfl rfl rfl (by simp at room ⊢; omega)
      refine ⟨q, fun rest => ?_, by simpa using reading⟩
      rw [← hq]
      simp only [itemText, List.append_assoc, List.cons_append]
      rw [printed, reading_colon first]

/-- Reading an item from the start. -/
theorem sgrLoop_item {item : List Nat} (plain : PlainItem item) {p : SgrParser}
    (state : p.state = .start) (room : p.params.length < maxParams) :
    ∃ q, (∀ rest, sgrLoop none p (itemText item ++ rest) = sgrLoop none q rest) ∧
      Reading item p.commands q := by
  cases item with
  | nil => exact absurd rfl plain.nonempty
  | cons n item =>
    obtain ⟨digits, hdigits, value, -⟩ := decimalText_spec n (plain.small n List.mem_cons_self)
    have first : Reading [n] p.commands
        { p with state := .normal, params := [], number := decimalText n } :=
      ⟨Or.inr ⟨rfl, rfl⟩, digits, (by simp [maxParams]), by simp [value], rfl⟩
    have printed := sgrLoop_number state room digits hdigits
    cases item with
    | nil => exact ⟨_, printed, first⟩
    | cons m item =>
      have short := plain.short
      obtain ⟨q, hq, reading⟩ := sgrLoop_item_more [n] (List.cons_ne_nil m item)
        (fun k hk => plain.small k (List.mem_cons_of_mem _ hk))
        (p := { p with state := .multiple, params := [n].map Int.ofNat, number := [] }) rfl rfl rfl (by simp [maxParams] at short ⊢; omega)
      refine ⟨q, fun rest => ?_, by simpa using reading⟩
      rw [← hq]
      simp only [itemText, List.append_assoc, List.cons_append]
      rw [printed, reading_colon first]

/-- A semi-colon behind an item makes the call for it. -/
theorem reading_semicolon {item : List Nat} (plain : PlainItem item) {commands : List Command}
    {p : SgrParser} (h : Reading item commands p) :
    ∃ q, (∀ rest, sgrLoop none p (ord ';' :: rest) = sgrLoop none q rest) ∧
      q.state = .start ∧ q.params = [] ∧ q.commands = commands ++ [itemCommand item] := by
  have step : sgrStep none p (ord ';') = (p.readParam.send none, false) := by
    unfold sgrStep
    rw [if_neg (by decide), if_pos rfl]
    rcases h.state with state | ⟨state, single⟩
    · rw [state]
    · rw [state]
      have colour : p.readParam.params.head? ∉ [some 38, some 48, some 58] := by
        obtain ⟨n, rfl⟩ := List.length_eq_one_iff.1 single
        have complete := plain.complete
        have read : p.readParam.params = [Int.ofNat n] := h.read
        rw [read]
        simp at complete ⊢
        omega
      exact if_neg colour
  refine ⟨p.readParam.send none, fun rest => ?_, rfl, rfl, ?_⟩
  · rw [sgrLoop, if_pos h.room, step]
  · simp [SgrParser.send, SgrParser.readParam, h.read, h.commands, itemCommand]

/-- At the end of the parameters the call for the last item is made. -/
theorem reading_finish {item : List Nat} {commands : List Command} {p : SgrParser}
    (h : Reading item commands p) :
    (sgrFinish none p).commands = commands ++ [itemCommand item] := by
  have room := h.room
  have last : (if p.number ≠ [] ∧ p.params.length < maxParams then p.readParam else p) =
      p.readParam := if_pos ⟨h.number, room⟩
  have read : p.readParam.params = item.map Int.ofNat := h.read
  have some_ : p.readParam.params ≠ [] := by simp [SgrParser.readParam]
  have sent : (p.readParam.send none).commands = commands ++ [itemCommand item] := by
    simp [SgrParser.send, SgrParser.readParam, h.read, h.commands, itemCommand]
  unfold sgrFinish
  rw [last]
  rcases h.state with state | ⟨state, -⟩
  · rw [state]
    dsimp only
    rw [if_pos some_, sent]
  · rw [state]
    dsimp only
    rw [if_pos some_, sent]

theorem itemsText_dropLast_cons (item other : List Nat) (rest : List (List Nat)) :
    (itemsText (item :: other :: rest)).dropLast =
      itemText item ++ ord ';' :: (itemsText (other :: rest)).dropLast := by
  have some_ : itemsText (other :: rest) ≠ [] := by simp [itemsText]
  have split : itemsText (item :: other :: rest) =
      (itemText item ++ [ord ';']) ++ itemsText (other :: rest) := rfl
  rw [split, List.dropLast_append_of_ne_nil some_, List.append_assoc]
  rfl

/-- The parser makes one call for each item. -/
theorem parseSgr_itemsText {items : List (List Nat)} (nonempty : items ≠ [])
    (plain : ∀ item ∈ items, PlainItem item) :
    parseSgr (itemsText items).dropLast none = items.map itemCommand := by
  have general : ∀ {items : List (List Nat)}, items ≠ [] → (∀ item ∈ items, PlainItem item) →
      ∀ {p : SgrParser}, p.state = .start → p.params.length < maxParams →
        (sgrLoop none p (itemsText items).dropLast).2 = false ∧
          (sgrFinish none (sgrLoop none p (itemsText items).dropLast).1).commands =
            p.commands ++ items.map itemCommand := by
    intro items
    induction items with
    | nil => exact fun nonempty => absurd rfl nonempty
    | cons item rest ih =>
      intro _ plain p state room
      have itemPlain := plain item List.mem_cons_self
      obtain ⟨q, hq, reading⟩ := sgrLoop_item itemPlain state room
      cases rest with
      | nil =>
        have text : (itemsText [item]).dropLast = itemText item ++ [] := by
          simp [itemsText]
        rw [text, hq]
        exact ⟨rfl, reading_finish reading⟩
      | cons other rest =>
        obtain ⟨r, hr, start, noParams, commands⟩ := reading_semicolon itemPlain reading
        obtain ⟨loop, finish⟩ := ih (List.cons_ne_nil other rest)
          (fun item hitem => plain item (List.mem_cons_of_mem _ hitem)) (p := r) start
          (by rw [noParams]; decide)
        rw [itemsText_dropLast_cons, hq, hr]
        refine ⟨loop, ?_⟩
        rw [finish, commands, List.map_cons, List.append_assoc]
        rfl
  obtain ⟨loop, finish⟩ := general nonempty plain (p := {}) rfl (by decide)
  unfold parseSgr
  cases hloop : sgrLoop none {} (itemsText items).dropLast with
  | mk q early =>
    rw [hloop] at loop finish
    cases early with
    | true => cases loop
    | false => exact finish

/-! ### The items as a CSI sequence -/

/-- A text that starts and ends with a digit. -/
structure Digital (text : Text) : Prop where
  nonempty : text ≠ []
  first : ∀ ch, text.head? = some ch → isDigit ch
  last : ∀ ch, text.getLast? = some ch → isDigit ch

theorem Digital.join {front back : Text} (hfront : Digital front) (hback : Digital back)
    (ch : UInt32) : Digital (front ++ ch :: back) where
  nonempty := by simp
  first := by
    intro c hc
    refine hfront.first c ?_
    rwa [List.head?_append, Option.or_of_isSome (List.isSome_head?.2 hfront.nonempty)] at hc
  last := by
    intro c hc
    refine hback.last c ?_
    have some_ : (ch :: back).getLast? = back.getLast? := by
      cases back with
      | nil => exact absurd rfl hback.nonempty
      | cons d back => exact List.getLast?_cons_cons
    rwa [List.getLast?_append, some_, Option.or_of_isSome
      (List.getLast?_isSome.2 hback.nonempty)] at hc

theorem decimalText_digital {n : Nat} (small : n < 256) : Digital (decimalText n) := by
  obtain ⟨nonempty, digits, -⟩ := decimalText_spec n small
  exact ⟨nonempty, fun ch hch => digits ch (List.mem_of_mem_head? hch),
    fun ch hch => digits ch (List.mem_of_getLast? hch)⟩

theorem itemText_digital {item : List Nat} (nonempty : item ≠ []) (small : ∀ n ∈ item, n < 256) :
    Digital (itemText item) := by
  induction item with
  | nil => exact absurd rfl nonempty
  | cons n rest ih =>
    have first := decimalText_digital (small n List.mem_cons_self)
    cases rest with
    | nil => exact first
    | cons m rest =>
      exact first.join (ih (List.cons_ne_nil m rest) fun k hk =>
        small k (List.mem_cons_of_mem _ hk)) _

theorem itemsText_digital {items : List (List Nat)} (nonempty : items ≠ [])
    (plain : ∀ item ∈ items, PlainItem item) : Digital (itemsText items).dropLast := by
  induction items with
  | nil => exact absurd rfl nonempty
  | cons item rest ih =>
    have itemPlain := plain item List.mem_cons_self
    have first := itemText_digital itemPlain.nonempty itemPlain.small
    cases rest with
    | nil => simpa [itemsText] using first
    | cons other rest =>
      rw [itemsText_dropLast_cons]
      exact first.join (ih (List.cons_ne_nil other rest) fun item hitem =>
        plain item (List.mem_cons_of_mem _ hitem)) _

/-- Printed items have no modifiers, so that `dispatch_csi` hands them to `parse_sgr`. -/
theorem csiSequenceCommands_digital {text : Text} (h : Digital text) :
    csiSequenceCommands text (ord 'm') = parseSgr text none := by
  have modifier : ∀ ch, isDigit ch = true → ch ∉ chars "><?!=" := by
    intro ch digit mem
    have listed : ∀ c ∈ chars "><?!=", isDigit c = false :=
      forall_mem_chars (by decide)
    rw [listed ch mem] at digit
    cases digit
  have secondary : ∀ ch, isDigit ch = true → isCsiSecondary ch = false := by
    intro ch digit
    have listed : ∀ c ∈ chars " !\"#$%&'()*+,-./", isDigit c = false :=
      forall_mem_chars (by decide)
    refine Bool.eq_false_iff.2 fun mem => ?_
    have mem : ch ∈ chars " !\"#$%&'()*+,-./" := of_decide_eq_true mem
    rw [listed ch mem] at digit
    cases digit
  cases text with
  | nil => exact absurd rfl h.nonempty
  | cons ch rest =>
    have start := modifier ch (h.first ch rfl)
    obtain ⟨last, hlast⟩ : ∃ last, (ch :: rest).getLast? = some last :=
      Option.isSome_iff_exists.1 (by simp)
    have stop := secondary last (h.last last hlast)
    unfold csiSequenceCommands
    simp only [start, if_false, if_true, hlast, stop, Bool.false_eq_true, and_self, true_and]

end Smelly
