/-
Module: Smelly.Proofs.CsiParameters
Purpose: What the parameter loops of `dispatch_csi` and `parse_sgr` read, against a reference that
  splits the body at its separators.
Trusted boundary: none
-/
import Smelly.Core.ParserDispatch

namespace Smelly

/-! ### The reference for `dispatch_csi` -/

/-- The value of a number: at most ten digits behind its leading zeros, as an `int`; without a digit
it is zero. -/
def numberValue (number : Text) : Int := toInt (utoi number)

/-- The fields of a CSI body, each with the character behind it.  Anything but a digit or a hyphen
ends a field. -/
def csiFields (field : Text) : Text → List (Text × Option UInt32)
  | [] => [(field, none)]
  | ch :: rest =>
    if isDigit ch ∨ ch = ord '-' then csiFields (field ++ [ch]) rest
    else (field, some ch) :: csiFields [] rest

/-- A hyphen stands at the start of the field only. -/
def hyphenLeads (field : Text × Option UInt32) : Bool := ord '-' ∉ field.1.tail

/-- The parameter of a field: an empty one counts if a semi-colon ends it. -/
def fieldParams (field : Text × Option UInt32) : List Int :=
  if field.1 ≠ [] then [numberValue field.1]
  else if field.2 = some (ord ';') then [0]
  else []

/-- The parameters of the fields behind those read so far: no more than `MAX_PARAMS`, and none at
all if a field in front of the last of these has a misplaced hyphen. -/
def fieldsParams (params : List Int) (fields : List (Text × Option UInt32)) : Option (List Int) :=
  let read := params ++ (fields.takeWhile hyphenLeads).flatMap fieldParams
  if maxParams ≤ read.length then some (read.take maxParams)
  else if fields.all hyphenLeads then some read
  else none

/-- The parameters of a CSI body. -/
def csiParameterList (body : Text) : Option (List Int) := fieldsParams [] (csiFields [] body)

/-! ### The reference for `parse_sgr` -/

/-- What a field of numbers with colons between them is read as. -/
inductive FieldReading where
  /-- All of its numbers. -/
  | numbers (values : List Int)
  /-- The first numbers of it, as many as there is room for. -/
  | cut (values : List Int)
  | malformed
deriving DecidableEq, Repr

/-- The numbers of a field.  At the end of the body a number without a digit is left out. -/
def readNumbers (atEnd : Bool) (values : List Int) : List Text → FieldReading
  | [] => .numbers values
  | number :: more =>
    if number.all isDigit then
      if more = [] then
        .numbers (if number = [] ∧ atEnd then values else values ++ [numberValue number])
      else if values.length + 1 < maxParams then
        readNumbers atEnd (values ++ [numberValue number]) more
      else .cut (values ++ [numberValue number])
    else .malformed

/-- The codes in front of a colour. -/
def isColorCode (value : Int) : Bool := value = 38 ∨ value = 48 ∨ value = 58

/-- The parameters of a colour group: its code, 5 and an index, or its code, 2 and three
components. -/
def isWholeColor (color : List Int) : Bool :=
  (color[1]? = some 5 ∧ color.length = 3) ∨ (color[1]? = some 2 ∧ color.length = 5)

/-- The groups of the fields of an SGR body, up to the first malformed one, which is `none`.  `color`
holds the parameters of the colour group that is being read, and is empty outside of one. -/
def sgrGroups (color : List Int) : List Text → List (Option (List Int))
  | [] => []
  | field :: rest =>
    if color = [] then
      if field = [] then some [0] :: sgrGroups [] rest
      else
        let numbers := field.splitOn (ord ':')
        if numbers.head? = some [] then [none]
        else match readNumbers rest.isEmpty [] numbers with
          | .malformed => [none]
          | .cut values => [some values]
          | .numbers values =>
            if rest ≠ [] ∧ values.length = 1 ∧ values.all isColorCode then sgrGroups values rest
            else some values :: sgrGroups [] rest
    else if field.all isDigit then
      let read := color ++ [numberValue field]
      if rest ≠ [] then
        if isWholeColor read then some read :: sgrGroups [] rest
        else if read[1]? = some 2 ∨ read[1]? = some 5 then sgrGroups read rest
        else [none]
      else
        -- a number without a digit is left out, which only an index may be
        let read := if field = [] then color else read
        if 2 ≤ color.length ∧ (isWholeColor read ∨ color[1]? = some 5) then [some read] else [none]
    else [none]

/-! ### The loop of `dispatch_csi` -/

theorem fieldsParams_cons {params : List Int} {field : Text × Option UInt32}
    {fields : List (Text × Option UInt32)} (leads : hyphenLeads field = true) :
    fieldsParams params (field :: fields) =
      fieldsParams (params ++ fieldParams field) fields := by
  unfold fieldsParams
  rw [List.takeWhile_cons_of_pos leads, List.flatMap_cons, ← List.append_assoc, List.all_cons,
    leads, Bool.true_and]

theorem length_fieldParams_le (field : Text × Option UInt32) :
    (fieldParams field).length ≤ 1 := by
  unfold fieldParams
  split
  · exact Nat.le_refl 1
  · split
    · exact Nat.le_refl 1
    · exact Nat.zero_le 1

/-- The last parameter there is room for. -/
theorem fieldsParams_full {params : List Int} (room : params.length < maxParams)
    {field : Text × Option UInt32} {fields : List (Text × Option UInt32)}
    (leads : hyphenLeads field = true)
    (full : maxParams ≤ (params ++ fieldParams field).length) :
    fieldsParams params (field :: fields) = some (params ++ fieldParams field) := by
  have exact_ : (params ++ fieldParams field).length = maxParams := by
    have one := length_fieldParams_le field
    rw [List.length_append] at full ⊢
    omega
  unfold fieldsParams
  rw [List.takeWhile_cons_of_pos leads, List.flatMap_cons, ← List.append_assoc]
  rw [if_pos (by rw [List.length_append]; omega), ← exact_, List.take_left']
  rfl

/-- The field that is being read comes first. -/
theorem csiFields_head (field text : Text) :
    ∃ more behind fields, csiFields field text = (field ++ more, behind) :: fields := by
  induction text generalizing field with
  | nil => exact ⟨[], none, [], by simp [csiFields]⟩
  | cons ch rest ih =>
    by_cases part : isDigit ch ∨ ch = ord '-'
    · obtain ⟨more, behind, fields, read⟩ := ih (field ++ [ch])
      exact ⟨ch :: more, behind, fields, by simp [csiFields, part, read]⟩
    · exact ⟨[], some ch, csiFields [] rest, by simp [csiFields, part]⟩

/-- A misplaced hyphen. -/
theorem fieldsParams_hyphen {params : List Int} (room : params.length < maxParams)
    {field : Text × Option UInt32} {fields : List (Text × Option UInt32)}
    (inside : hyphenLeads field = false) : fieldsParams params (field :: fields) = none := by
  have fits : ¬ maxParams ≤ params.length := by omega
  simp [fieldsParams, inside, fits]

/-- The loop reads the parameters of the fields, from any point of the body on. -/
theorem csiParamsLoop_from (text : Text) (params : List Int) (number : Text)
    (room : params.length < maxParams) (leads : ord '-' ∉ number.tail) :
    csiParamsLoop params number text = fieldsParams params (csiFields number text) := by
  induction text generalizing params number with
  | nil =>
    have hyphen : hyphenLeads (number, none) = true := decide_eq_true leads
    have value : (if number ≠ [] then params ++ [toInt (utoi number)] else params) =
        params ++ fieldParams (number, none) := by
      by_cases digits : number = []
      · simp [fieldParams, digits]
      · simp [fieldParams, digits, numberValue]
    rw [csiParamsLoop, csiFields, value]
    by_cases full : maxParams ≤ (params ++ fieldParams (number, none)).length
    · rw [fieldsParams_full room hyphen full]
    · rw [fieldsParams_cons hyphen, fieldsParams]
      simp only [List.takeWhile_nil, List.flatMap_nil, List.append_nil, if_neg full]
      rfl
  | cons ch rest ih =>
    by_cases digit : isDigit ch = true
    · have still : ord '-' ∉ (number ++ [ch]).tail := by
        have other : ord '-' ≠ ch := by
          rintro rfl
          exact absurd digit (by decide)
        cases number with
        | nil => simp
        | cons first number => simpa [other] using leads
      rw [csiParamsLoop, if_pos digit, ih params _ room still, csiFields, if_pos (.inl digit)]
    · by_cases hyphen : ch = ord '-'
      · have part : isDigit ch = true ∨ ch = ord '-' := .inr hyphen
        rw [csiParamsLoop, if_neg digit, if_pos hyphen, csiFields, if_pos part]
        cases number with
        | nil =>
          exact ih params [ch] room (by simp)
        | cons first number =>
          obtain ⟨more, behind, fields, read⟩ := csiFields_head (first :: number ++ [ch]) rest
          have inside : hyphenLeads (first :: number ++ [ch] ++ more, behind) = false := by
            simp [hyphenLeads, hyphen]
          rw [if_pos (List.cons_ne_nil first number), read, fieldsParams_hyphen room inside]
      · have ends : ¬ (isDigit ch ∨ ch = ord '-') := by
          rintro (h | h)
          · exact digit h
          · exact hyphen h
        have leading : hyphenLeads (number, some ch) = true := decide_eq_true leads
        have value : (if number ≠ [] then params ++ [toInt (utoi number)]
            else if ch = ord ';' then params ++ [0] else params) =
            params ++ fieldParams (number, some ch) := by
          by_cases digits : number = []
          · by_cases semicolon : ch = ord ';'
            · simp [fieldParams, digits, semicolon]
            · simp [fieldParams, digits, semicolon]
          · simp [fieldParams, digits, numberValue]
        rw [csiParamsLoop, if_neg digit, if_neg hyphen, csiFields, if_neg ends, value]
        by_cases full : maxParams ≤ (params ++ fieldParams (number, some ch)).length
        · rw [if_pos full, fieldsParams_full room leading full]
        · rw [if_neg full, fieldsParams_cons leading]
          exact ih _ [] (by omega) (by simp)

theorem csiParamsLoop_eq (body : Text) : csiParamsLoop [] [] body = csiParameterList body :=
  csiParamsLoop_from body [] [] (by decide) (by simp)

/-- There are never more than `MAX_PARAMS` parameters. -/
theorem length_fieldsParams {params read : List Int} {fields : List (Text × Option UInt32)}
    (h : fieldsParams params fields = some read) : read.length ≤ maxParams := by
  dsimp only [fieldsParams] at h
  split at h
  · obtain rfl := Option.some.inj h
    exact List.length_take_le _ _
  · split at h
    · obtain rfl := Option.some.inj h
      omega
    · cases h

/-! ### The loop of `parse_sgr` -/

section

variable (region : Option Region)

/-- The calls made so far, and an error report. -/
def reportBehind (commands : List Command) : List (Option Command) := commands.map some ++ [none]

/-- The calls and the error report behind the loop. -/
def endSgr (p : SgrParser) : List (Option Command) :=
  if sgrFinishReports p then reportBehind (sgrFinish region p).commands
  else (sgrFinish region p).commands.map some

/-- The calls `parse_sgr` has made in the end, from any point of the body on, with `none` for an
error report. -/
def runSgr (p : SgrParser) (text : Text) : List (Option Command) :=
  match sgrLoop region p text with
  | (p, true) => reportBehind p.commands
  | (p, false) => endSgr region p

theorem filterMap_reportBehind (commands : List Command) :
    (reportBehind commands).filterMap id = commands := by
  simp [reportBehind]

/-- `parse_sgr` makes these calls, and reports an error if there is one among them. -/
theorem parseSgr_eq_runSgr (body : Text) :
    parseSgr body region = (runSgr region {} body).filterMap id ∧
      (parseSgrReports body region = true ↔ none ∈ runSgr region {} body) := by
  unfold parseSgr parseSgrReports runSgr
  cases loop : sgrLoop region {} body with
  | mk p early =>
    cases early with
    | true => exact ⟨(filterMap_reportBehind _).symm, by simp [reportBehind]⟩
    | false =>
      dsimp only [endSgr]
      by_cases reports : sgrFinishReports p = true
      · rw [if_pos reports]
        exact ⟨(filterMap_reportBehind _).symm, by simp [reportBehind, reports]⟩
      · rw [if_neg reports]
        exact ⟨by simp, by simp [reports]⟩

variable {region}

theorem runSgr_nil (p : SgrParser) : runSgr region p [] = endSgr region p := rfl

/-- One round of the loop that goes on. -/
theorem runSgr_cons {p next : SgrParser} (room : p.params.length < maxParams) {ch : UInt32}
    (step : sgrStep region p ch = (next, false)) (rest : Text) :
    runSgr region p (ch :: rest) = runSgr region next rest := by
  unfold runSgr
  rw [sgrLoop, if_pos room, step]

/-- One round of the loop that returns. -/
theorem runSgr_stop {p next : SgrParser} (room : p.params.length < maxParams) {ch : UInt32}
    (step : sgrStep region p ch = (next, true)) (rest : Text) :
    runSgr region p (ch :: rest) = reportBehind next.commands := by
  unfold runSgr
  rw [sgrLoop, if_pos room, step]

/-- There is no room for another parameter. -/
theorem runSgr_full {p : SgrParser} (full : maxParams ≤ p.params.length) (text : Text) :
    runSgr region p text = endSgr region p := by
  unfold runSgr
  cases text with
  | nil => rfl
  | cons ch rest => rw [sgrLoop, if_neg (by omega)]

theorem readParam_eq (p : SgrParser) :
    p.readParam = { p with params := p.params ++ [numberValue p.number] } := rfl

/-- A text without separators. -/
def Unseparated (text : Text) : Prop := ord ':' ∉ text ∧ ord ';' ∉ text

theorem unseparated_cons {ch : UInt32} {text : Text} :
    Unseparated (ch :: text) ↔ (ch ≠ ord ':' ∧ ch ≠ ord ';') ∧ Unseparated text := by
  simp only [Unseparated]
  grind

/-- A character that is no digit and no separator is malformed in every state. -/
theorem sgrStep_other {p : SgrParser} {ch : UInt32} (digit : ¬ isDigit ch = true)
    (other : ch ≠ ord ':' ∧ ch ≠ ord ';') : sgrStep region p ch = (p, true) := by
  unfold sgrStep
  rw [if_neg digit, if_neg other.2, if_neg other.1]

/-- The characters of a number that has been started, or of what stands in its place. -/
theorem runSgr_number {p : SgrParser} (started : p.state ≠ .start)
    (room : p.params.length < maxParams) {number : Text} (plain : Unseparated number)
    (rest : Text) :
    runSgr region p (number ++ rest) =
      if number.all isDigit then runSgr region { p with number := p.number ++ number } rest
      else reportBehind p.commands := by
  induction number generalizing p with
  | nil => simp
  | cons ch number ih =>
    obtain ⟨other, plain⟩ := unseparated_cons.1 plain
    by_cases digit : isDigit ch = true
    · have step : sgrStep region p ch = ({ p with number := p.number ++ [ch] }, false) := by
        unfold sgrStep
        rw [if_pos digit]
        split
        · exact absurd ‹_› started
        · rfl
      rw [List.cons_append, runSgr_cons room step]
      have later := ih (p := { p with number := p.number ++ [ch] }) started room plain
      rw [later]
      simp [digit]
    · rw [List.cons_append, runSgr_stop room (sgrStep_other digit other)]
      simp [digit]

/-- The first number of a field. -/
theorem runSgr_first {p : SgrParser} (start : p.state = .start)
    (room : p.params.length < maxParams) {number : Text} (some_ : number ≠ [])
    (plain : Unseparated number) (rest : Text) :
    runSgr region p (number ++ rest) =
      if number.all isDigit then
        runSgr region { p with state := .normal, params := [], number := number } rest
      else reportBehind p.commands := by
  cases number with
  | nil => exact absurd rfl some_
  | cons ch number =>
    obtain ⟨other, plain⟩ := unseparated_cons.1 plain
    by_cases digit : isDigit ch = true
    · have step : sgrStep region p ch =
          ({ p with state := .normal, params := [], number := [ch] }, false) := by
        unfold sgrStep
        rw [if_pos digit, start]
      rw [List.cons_append, runSgr_cons room step,
        runSgr_number (by simp) (show ([] : List Int).length < maxParams by decide) plain]
      simp [digit]
    · rw [List.cons_append, runSgr_stop room (sgrStep_other digit other)]
      simp [digit]

/-- The call for a group. -/
def groupCommand (region : Option Region) (values : List Int) : Command :=
  .selectGraphicRendition values region

/-- At the end of the body the cells of the last number are not looked at between two groups. -/
theorem endSgr_between {p q : SgrParser} (startP : p.state = .start) (startQ : q.state = .start)
    (params : p.params = q.params) (commands : p.commands = q.commands) :
    endSgr region p = endSgr region q := by
  have same : (sgrFinish region p).commands = (sgrFinish region q).commands := by
    unfold sgrFinish
    simp only [startP, startQ, params]
    split
    · simp [SgrParser.send, commands]
    · simp [SgrParser.send, params, commands]
  unfold endSgr sgrFinishReports
  rw [same, startP, startQ]

/-- Nor in front of the next group. -/
theorem runSgr_between {p q : SgrParser} (startP : p.state = .start) (startQ : q.state = .start)
    (params : p.params = q.params) (commands : p.commands = q.commands) (text : Text) :
    runSgr region p text = runSgr region q text := by
  induction text generalizing p q with
  | nil =>
    exact endSgr_between startP startQ params commands
  | cons ch rest ih =>
    by_cases room : p.params.length < maxParams
    · have room' : q.params.length < maxParams := params ▸ room
      by_cases digit : isDigit ch = true
      · have step {r : SgrParser} (start : r.state = .start) : sgrStep region r ch =
            ({ state := .normal, params := [], number := [ch], commands := r.commands },
              false) := by
          unfold sgrStep
          rw [if_pos digit, start]
        rw [runSgr_cons room (step startP), runSgr_cons room' (step startQ), commands]
      · by_cases semicolon : ch = ord ';'
        · have step {r : SgrParser} (start : r.state = .start) : sgrStep region r ch =
              (({ r with params := r.params ++ [0] } : SgrParser).send region, false) := by
            unfold sgrStep
            rw [if_neg digit, if_pos semicolon, start]
          rw [runSgr_cons room (step startP), runSgr_cons room' (step startQ)]
          apply ih
          · rfl
          · rfl
          · rfl
          · simp [SgrParser.send, params, commands]
        · have step {r : SgrParser} (start : r.state = .start) :
              sgrStep region r ch = (r, true) := by
            unfold sgrStep
            rw [if_neg digit, if_neg semicolon, start]
            split <;> rfl
          rw [runSgr_stop room (step startP), runSgr_stop room' (step startQ), commands]
    · rw [runSgr_full (by omega), runSgr_full (by rw [← params]; omega)]
      exact endSgr_between startP startQ params commands

/-- What stands behind a field: nothing, or a semi-colon and the rest of the body. -/
def behindField : Option Text → Text
  | none => []
  | some rest => ord ';' :: rest

variable (region) in
/-- The calls behind a group that has been read. -/
def closeGroup (commands : List Command) (values : List Int) :
    Option Text → List (Option Command)
  | none => (commands ++ [groupCommand region values]).map some
  | some rest => runSgr region { commands := commands ++ [groupCommand region values] } rest

/-- `SEND_SGR` in front of the rest of the body. -/
theorem runSgr_send (p : SgrParser) (rest : Text) :
    runSgr region (p.send region) rest = closeGroup region p.commands p.params (some rest) := by
  apply runSgr_between
  · rfl
  · rfl
  · rfl
  · rfl

variable (region) in
/-- The numbers behind a colon, up to the end of the field. -/
theorem runSgr_multiple {field : Text} {p : SgrParser} (multiple : p.state = .multiple)
    (number : p.number = []) (some_ : p.params ≠ []) (room : p.params.length < maxParams)
    (plain : ord ';' ∉ field) (behind : Option Text) :
    runSgr region p (field ++ behindField behind) =
      match readNumbers behind.isNone p.params (field.splitOn (ord ':')) with
      | .malformed => reportBehind p.commands
      | .cut values => closeGroup region p.commands values none
      | .numbers values => closeGroup region p.commands values behind := by
  induction hlength : field.length using Nat.strongRecOn generalizing field p with
  | ind length ih =>
    have started : p.state ≠ .start := by rw [multiple]; decide
    by_cases colon : ord ':' ∈ field
    · -- a number and what stands behind its colon
      obtain ⟨first, more, rfl, leading⟩ := List.eq_append_cons_of_mem colon
      have plainFirst : Unseparated first := ⟨leading, fun h => plain (List.mem_append_left _ h)⟩
      have plainMore : ord ';' ∉ more := fun h =>
        plain (List.mem_append_right _ (List.mem_cons_of_mem _ h))
      have nonempty : more.splitOn (ord ':') ≠ [] := List.splitOn_ne_nil _ _
      rw [List.splitOn_append_cons_self_of_not_mem leading, readNumbers, List.append_assoc,
        List.cons_append, runSgr_number started room plainFirst, if_neg nonempty]
      by_cases digits : first.all isDigit = true
      · rw [if_pos digits, if_pos digits, number, List.nil_append]
        have step : sgrStep region { p with number := first } (ord ':') =
            ({ p with state := .multiple, params := p.params ++ [numberValue first],
                      number := [] }, false) := by
          unfold sgrStep
          rw [if_neg (by decide), if_neg (by decide), if_pos rfl]
          simp only [multiple]
          rfl
        have same : ({ p with number := first } : SgrParser).params.length < maxParams := room
        rw [runSgr_cons same step]
        by_cases fits : p.params.length + 1 < maxParams
        · rw [if_pos fits]
          apply ih more.length (by simp at hlength; omega) rfl rfl (by simp) (by simpa using fits)
            plainMore rfl
        · rw [if_neg fits, runSgr_full (by simp; omega)]
          simp [endSgr, sgrFinishReports, sgrFinish, SgrParser.send, closeGroup, groupCommand]
      · rw [if_neg digits, if_neg digits]
    · have single : field.splitOn (ord ':') = [field] := List.splitOn_eq_singleton colon
      rw [single, readNumbers, runSgr_number started room ⟨colon, plain⟩]
      by_cases digits : field.all isDigit = true
      · rw [if_pos digits, if_pos digits, if_pos rfl, number, List.nil_append]
        cases behind with
        | none =>
          rw [behindField, runSgr_nil]
          by_cases empty : field = []
          · simp [endSgr, sgrFinishReports, sgrFinish, multiple, empty, some_, SgrParser.send, closeGroup, groupCommand]
          · simp [endSgr, sgrFinishReports, sgrFinish, multiple, empty, room, SgrParser.send, SgrParser.readParam,
              closeGroup, groupCommand, numberValue]
        | some rest =>
          have step : sgrStep region { p with number := field } (ord ';') =
              (({ p with number := field } : SgrParser).readParam.send region, false) := by
            unfold sgrStep
            rw [if_neg (by decide), if_pos rfl]
            simp only [multiple]
          have same : ({ p with number := field } : SgrParser).params.length < maxParams := room
          rw [behindField, runSgr_cons same step, runSgr_send]
          simp [SgrParser.readParam, numberValue]
      · rw [if_neg digits, if_neg digits]

/-- `case NORMAL` at the end of the field: the group of the one number, or a colour begins. -/
theorem runSgr_normal {p : SgrParser} (normal : p.state = .normal) (noParams : p.params = [])
    (some_ : p.number ≠ []) (behind : Option Text) :
    runSgr region p (behindField behind) =
      match behind with
      | none => closeGroup region p.commands [numberValue p.number] none
      | some rest =>
        if isColorCode (numberValue p.number) then
          runSgr region
            { state := .color, params := [numberValue p.number], commands := p.commands } rest
        else closeGroup region p.commands [numberValue p.number] (some rest) := by
  have room : p.params.length < maxParams := by rw [noParams]; decide
  cases behind with
  | none =>
    rw [behindField, runSgr_nil]
    simp [endSgr, sgrFinishReports, sgrFinish, normal, some_, noParams, readParam_eq,
      SgrParser.send, closeGroup, groupCommand, show 0 < maxParams by decide]
  | some rest =>
    have read : p.readParam.params = [numberValue p.number] := by
      simp [SgrParser.readParam, noParams, numberValue]
    have code : p.readParam.params.head? ∈ [some (38 : Int), some 48, some 58] ↔
        isColorCode (numberValue p.number) = true := by
      rw [read]
      simp [isColorCode]
    by_cases color : isColorCode (numberValue p.number) = true
    · have step : sgrStep region p (ord ';') =
          ({ state := .color, params := [numberValue p.number], commands := p.commands },
            false) := by
        unfold sgrStep
        simp only [normal, if_pos (code.2 color)]
        rw [read]
        rfl
      rw [behindField, runSgr_cons room step]
      simp only [if_pos color]
    · have step : sgrStep region p (ord ';') = (p.readParam.send region, false) := by
        unfold sgrStep
        rw [if_neg (by decide), if_pos rfl]
        simp only [normal, if_neg (fun h => color (code.1 h))]
      rw [behindField, runSgr_cons room step, runSgr_send, read]
      simp only [if_neg color]
      rfl

/-- In front of a semi-colon every number counts. -/
theorem length_readNumbers {values read : List Int} {numbers : List Text} (some_ : numbers ≠ [])
    (h : readNumbers false values numbers = .numbers read) : values.length < read.length := by
  induction numbers generalizing values with
  | nil => exact absurd rfl some_
  | cons number more ih =>
    rw [readNumbers] at h
    split at h
    · split at h
      · obtain rfl := FieldReading.numbers.inj h
        simp
      · split at h
        · rename_i last _
          have longer := ih last h
          rw [List.length_append] at longer
          exact Nat.lt_of_succ_lt longer
        · cases h
    · cases h

/-- A field that is not empty, outside of a colour. -/
theorem runSgr_field {p : SgrParser} (start : p.state = .start) (noParams : p.params = [])
    {field : Text} (some_ : field ≠ []) (plain : ord ';' ∉ field) (behind : Option Text) :
    runSgr region p (field ++ behindField behind) =
      if (field.splitOn (ord ':')).head? = some [] then reportBehind p.commands
      else match readNumbers behind.isNone [] (field.splitOn (ord ':')) with
        | .malformed => reportBehind p.commands
        | .cut values => closeGroup region p.commands values none
        | .numbers values =>
          match behind with
          | none => closeGroup region p.commands values none
          | some rest =>
            if values.length = 1 ∧ values.all isColorCode then
              runSgr region { state := .color, params := values, commands := p.commands } rest
            else closeGroup region p.commands values (some rest) := by
  have room : p.params.length < maxParams := by rw [noParams]; decide
  by_cases colon : ord ':' ∈ field
  · obtain ⟨first, more, rfl, leading⟩ := List.eq_append_cons_of_mem colon
    have plainFirst : Unseparated first := ⟨leading, fun h => plain (List.mem_append_left _ h)⟩
    have plainMore : ord ';' ∉ more := fun h =>
      plain (List.mem_append_right _ (List.mem_cons_of_mem _ h))
    have nonempty : more.splitOn (ord ':') ≠ [] := List.splitOn_ne_nil _ _
    rw [List.splitOn_append_cons_self_of_not_mem leading, List.head?_cons, List.append_assoc,
      List.cons_append]
    by_cases missing : first = []
    · have step : sgrStep region p (ord ':') = (p, true) := by
        unfold sgrStep
        rw [if_neg (by decide), if_neg (by decide), if_pos rfl]
        simp only [start]
      rw [missing, List.nil_append, if_pos rfl, runSgr_stop room step]
    · have headed : some first ≠ some [] := fun h => missing (Option.some.inj h)
      rw [if_neg headed, readNumbers, runSgr_first start room missing plainFirst, if_neg nonempty]
      by_cases digits : first.all isDigit = true
      · have step : sgrStep region { p with state := .normal, params := [], number := first }
            (ord ':') = ({ p with state := .multiple, params := [numberValue first],
                                  number := [] }, false) := by
          rfl
        have same : ({ p with state := .normal, params := [], number := first }
            : SgrParser).params.length < maxParams := show 0 < maxParams by decide
        have one : ([] : List Int).length + 1 < maxParams := by decide
        rw [if_pos digits, if_pos digits, if_pos one, runSgr_cons same step]
        have read := runSgr_multiple region
          (p := { p with state := .multiple, params := [numberValue first], number := [] }) rfl rfl
          (List.cons_ne_nil _ _) one plainMore behind
        rw [read]
        cases numbers : readNumbers behind.isNone [numberValue first]
            (more.splitOn (ord ':')) with
        | malformed => simp only [List.nil_append, numbers]
        | cut values => simp only [List.nil_append, numbers]
        | numbers values =>
          simp only [List.nil_append, numbers]
          cases behind with
          | none => rfl
          | some rest =>
            have several := length_readNumbers nonempty numbers
            have group : ¬ (values.length = 1 ∧ values.all isColorCode = true) :=
              fun h => absurd h.1 (Nat.ne_of_gt several)
            exact (if_neg group).symm
      · rw [if_neg digits, if_neg digits]
  · have single : field.splitOn (ord ':') = [field] := List.splitOn_eq_singleton colon
    have headed : some field ≠ some [] := fun h => some_ (Option.some.inj h)
    rw [single, List.head?_cons, if_neg headed, readNumbers,
      runSgr_first start room some_ ⟨colon, plain⟩]
    by_cases digits : field.all isDigit = true
    · have kept : ¬ (field = [] ∧ behind.isNone = true) := fun h => some_ h.1
      rw [if_pos digits, if_pos digits, if_neg kept, runSgr_normal rfl rfl some_ behind]
      cases behind with
      | none => rfl
      | some rest => simp
    · rw [if_neg digits, if_neg digits]

/-! ### Colours -/

/-- The parameters of a colour group that is not complete. -/
def OpenColor (color : List Int) : Prop :=
  color.length = 1 ∨ (color[1]? = some 5 ∧ color.length = 2) ∨
    (color[1]? = some 2 ∧ 2 ≤ color.length ∧ color.length < 5)

/-- The state the parameters of an open colour leave the parser in. -/
def colorState (color : List Int) : SgrState :=
  if color.length = 1 then .color else if color[1]? = some 5 then .color1 else .color3

/-- The parser at the start of a field. -/
def atField (color : List Int) (commands : List Command) : SgrParser :=
  { state := if color = [] then .start else colorState color, params := color,
    commands := commands }

theorem OpenColor.ne_nil {color : List Int} (opened : OpenColor color) : color ≠ [] := by
  rintro rfl
  simp [OpenColor] at opened

theorem OpenColor.room {color : List Int} (opened : OpenColor color) :
    color.length < maxParams := by
  have small : color.length < 5 := by
    rcases opened with one | ⟨-, two⟩ | ⟨-, -, more⟩ <;> omega
  exact Nat.lt_trans small (by decide)

theorem colorState_cases (color : List Int) :
    colorState color = .color ∨ colorState color = .color1 ∨ colorState color = .color3 := by
  unfold colorState
  split
  · exact .inl rfl
  · split
    · exact .inr (.inl rfl)
    · exact .inr (.inr rfl)

/-- The characters of a field of a colour: digits, or the loop returns. -/
theorem runSgr_component {p : SgrParser}
    (inside : p.state = .color ∨ p.state = .color1 ∨ p.state = .color3)
    (room : p.params.length < maxParams) {field : Text} (plain : ord ';' ∉ field) (rest : Text) :
    runSgr region p (field ++ rest) =
      if field.all isDigit then runSgr region { p with number := p.number ++ field } rest
      else reportBehind p.commands := by
  have started : p.state ≠ .start := by
    rcases inside with h | h | h <;> rw [h] <;> decide
  by_cases colon : ord ':' ∈ field
  · obtain ⟨first, more, rfl, leading⟩ := List.eq_append_cons_of_mem colon
    have plainFirst : Unseparated first := ⟨leading, fun h => plain (List.mem_append_left _ h)⟩
    have step : sgrStep region { p with number := p.number ++ first } (ord ':') =
        ({ p with number := p.number ++ first }, true) := by
      unfold sgrStep
      rw [if_neg (by decide), if_neg (by decide), if_pos rfl]
      rcases inside with h | h | h <;> simp only [h]
    have same : ({ p with number := p.number ++ first } : SgrParser).params.length < maxParams :=
      room
    have notDigits : ¬ (first ++ ord ':' :: more).all isDigit = true := by
      intro digits
      have colonDigit : isDigit (ord ':') = false := by decide
      simp [colonDigit] at digits
    rw [List.append_assoc, List.cons_append, runSgr_number started room plainFirst,
      runSgr_stop same step, if_neg notDigits, ite_self]
  · exact runSgr_number started room ⟨colon, plain⟩ rest

/-- The five shapes of an open colour. -/
theorem OpenColor.shapes {color : List Int} (opened : OpenColor color) :
    ∃ code, color = [code] ∨ color = [code, 5] ∨ color = [code, 2] ∨
      (∃ red, color = [code, 2, red]) ∨ ∃ red green, color = [code, 2, red, green] := by
  match color with
  | [] => exact absurd rfl opened.ne_nil
  | [code] => exact ⟨code, .inl rfl⟩
  | [code, kind] =>
    rcases opened with one | ⟨five, -⟩ | ⟨two, -⟩
    · cases one
    · obtain rfl := Option.some.inj five
      exact ⟨code, .inr (.inl rfl)⟩
    · obtain rfl := Option.some.inj two
      exact ⟨code, .inr (.inr (.inl rfl))⟩
  | [code, kind, red] =>
    rcases opened with one | ⟨-, two⟩ | ⟨two, -⟩
    · cases one
    · cases two
    · obtain rfl := Option.some.inj two
      exact ⟨code, .inr (.inr (.inr (.inl ⟨red, rfl⟩)))⟩
  | [code, kind, red, green] =>
    rcases opened with one | ⟨-, two⟩ | ⟨two, -⟩
    · cases one
    · cases two
    · obtain rfl := Option.some.inj two
      exact ⟨code, .inr (.inr (.inr (.inr ⟨red, green, rfl⟩)))⟩
  | _ :: _ :: _ :: _ :: _ :: more =>
    rcases opened with one | ⟨-, two⟩ | ⟨-, -, small⟩
    · cases one
    · cases two
    · simp only [List.length_cons] at small
      omega

/-- A colour that goes on. -/
theorem OpenColor.append {color : List Int} (opened : OpenColor color) {value : Int}
    (whole : ¬ isWholeColor (color ++ [value]) = true)
    (kind : (color ++ [value])[1]? = some 2 ∨ (color ++ [value])[1]? = some 5) :
    OpenColor (color ++ [value]) := by
  obtain ⟨code, rfl | rfl | rfl | ⟨red, rfl⟩ | ⟨red, green, rfl⟩⟩ := opened.shapes
  · simp only [List.cons_append, List.nil_append, OpenColor] at kind ⊢
    simp at kind ⊢
    exact kind.symm
  · simp [isWholeColor] at whole
  · simp [OpenColor]
  · simp [OpenColor]
  · simp [isWholeColor] at whole

variable (region) in
/-- The step at a semi-colon behind a number of a colour. -/
theorem sgrStep_component {color : List Int} (opened : OpenColor color)
    (commands : List Command) (number : Text) :
    sgrStep region { atField color commands with number := number } (ord ';') =
      let read : SgrParser :=
        { atField color commands with number := number, params := color ++ [numberValue number] }
      if isWholeColor read.params then (read.send region, false)
      else if read.params[1]? = some 2 ∨ read.params[1]? = some 5 then
        (atField read.params commands, false)
      else (read, true) := by
  have notDigit : ¬ isDigit (ord ';') = true := by decide
  obtain ⟨code, rfl | rfl | rfl | ⟨red, rfl⟩ | ⟨red, green, rfl⟩⟩ := opened.shapes
  · -- the kind of colour
    by_cases two : numberValue number = 2
    · simp [sgrStep, notDigit, atField, colorState, readParam_eq, isWholeColor, two]
    · by_cases five : numberValue number = 5
      · simp [sgrStep, notDigit, atField, colorState, readParam_eq, isWholeColor,
          five]
      · simp [sgrStep, notDigit, atField, colorState, readParam_eq, isWholeColor,
          two, five]
  · simp [sgrStep, notDigit, atField, colorState, readParam_eq, isWholeColor]
  · simp [sgrStep, notDigit, atField, colorState, readParam_eq, isWholeColor]
  · simp [sgrStep, notDigit, atField, colorState, readParam_eq, isWholeColor]
  · simp [sgrStep, notDigit, atField, colorState, readParam_eq, isWholeColor]

/-- The number of a colour in front of a semi-colon. -/
theorem runSgr_component_semicolon {color : List Int} (opened : OpenColor color)
    (commands : List Command) (number rest : Text) :
    runSgr region { atField color commands with number := number } (ord ';' :: rest) =
      let read := color ++ [numberValue number]
      if isWholeColor read then closeGroup region commands read (some rest)
      else if read[1]? = some 2 ∨ read[1]? = some 5 then
        runSgr region (atField read commands) rest
      else reportBehind commands := by
  have step := sgrStep_component region opened commands number
  have room : ({ atField color commands with number := number } : SgrParser).params.length <
    maxParams := opened.room
  dsimp only at step ⊢
  split at step
  · rename_i whole
    rw [runSgr_cons room step, if_pos whole, runSgr_send]
    rfl
  · rename_i whole
    rw [if_neg whole]
    split at step
    · rename_i kind
      rw [runSgr_cons room step, if_pos kind]
    · rename_i kind
      rw [runSgr_stop room step, if_neg kind]
      rfl

/-- The number of a colour at the end of the body. -/
theorem runSgr_component_end {color : List Int} (opened : OpenColor color)
    (commands : List Command) (number : Text) :
    runSgr region { atField color commands with number := number } [] =
      let read := if number = [] then color else color ++ [numberValue number]
      if 2 ≤ color.length ∧ (isWholeColor read ∨ color[1]? = some 5) then
        closeGroup region commands read none
      else reportBehind commands := by
  rw [runSgr_nil]
  obtain ⟨code, rfl | rfl | rfl | ⟨red, rfl⟩ | ⟨red, green, rfl⟩⟩ := opened.shapes
  · simp [endSgr, sgrFinishReports, sgrFinish, atField, colorState]
  · by_cases empty : number = []
    · simp [endSgr, sgrFinishReports, sgrFinish, atField, colorState, empty, SgrParser.send, closeGroup, groupCommand]
    · simp [endSgr, sgrFinishReports, sgrFinish, atField, colorState, empty, SgrParser.send, closeGroup, groupCommand,
        readParam_eq, show 2 < maxParams by decide]
  · by_cases empty : number = []
    · simp [endSgr, sgrFinishReports, sgrFinish, atField, colorState, empty, isWholeColor]
    · simp [endSgr, sgrFinishReports, sgrFinish, atField, colorState, empty, isWholeColor,
        readParam_eq, show 2 < maxParams by decide]
  · by_cases empty : number = []
    · simp [endSgr, sgrFinishReports, sgrFinish, atField, colorState, empty, isWholeColor]
    · simp [endSgr, sgrFinishReports, sgrFinish, atField, colorState, empty, isWholeColor,
        readParam_eq, show 3 < maxParams by decide]
  · by_cases empty : number = []
    · simp [endSgr, sgrFinishReports, sgrFinish, atField, colorState, empty, isWholeColor]
    · simp [endSgr, sgrFinishReports, sgrFinish, atField, colorState, empty, isWholeColor, readParam_eq,
        SgrParser.send, closeGroup, groupCommand, show 4 < maxParams by decide]

/-! ### The whole body -/

/-- The fields of what stands behind a field. -/
def behindFields : Option Text → List Text
  | none => []
  | some rest => rest.splitOn (ord ';')

/-- The first field of a body. -/
theorem exists_field (text : Text) : ∃ field behind, text = field ++ behindField behind ∧
    ord ';' ∉ field ∧ text.splitOn (ord ';') = field :: behindFields behind := by
  by_cases semicolon : ord ';' ∈ text
  · obtain ⟨field, rest, rfl, plain⟩ := List.eq_append_cons_of_mem semicolon
    exact ⟨field, some rest, rfl, plain, List.splitOn_append_cons_self_of_not_mem plain rest⟩
  · exact ⟨text, none, (List.append_nil text).symm, semicolon,
      List.splitOn_eq_singleton semicolon⟩

theorem behindFields_isEmpty (behind : Option Text) :
    (behindFields behind).isEmpty = behind.isNone := by
  cases behind with
  | none => rfl
  | some rest => exact List.isEmpty_eq_false_iff.2 (List.splitOn_ne_nil _ _)

theorem behindFields_some_ne_nil (rest : Text) : behindFields (some rest) ≠ [] :=
  List.splitOn_ne_nil _ _

variable (region) in
/-- The calls for the groups of some fields. -/
def groupCommands (color : List Int) (fields : List Text) : List (Option Command) :=
  (sgrGroups color fields).map (Option.map (groupCommand region))

/-- The reference holds of the rest of the body. -/
def Follows (region : Option Region) (rest : Text) : Prop :=
  ∀ color commands, color = [] ∨ OpenColor color →
    runSgr region (atField color commands) rest =
      commands.map some ++ groupCommands region color (rest.splitOn (ord ';'))

theorem closeGroup_follows {behind : Option Text} (follows : ∀ rest ∈ behind, Follows region rest)
    (commands : List Command) (values : List Int) :
    closeGroup region commands values behind =
      commands.map some ++
        some (groupCommand region values) :: groupCommands region [] (behindFields behind) := by
  cases behind with
  | none => simp [closeGroup, behindFields, groupCommands, sgrGroups]
  | some rest =>
    have later := follows rest rfl [] (commands ++ [groupCommand region values]) (.inl rfl)
    rw [List.map_append, List.append_assoc] at later
    exact later

/-- An empty field outside of a colour. -/
theorem runSgr_empty (commands : List Command) (behind : Option Text) :
    runSgr region (atField [] commands) (behindField behind) =
      closeGroup region commands [0] behind := by
  cases behind with
  | none => rfl
  | some rest =>
    rfl

/-- One field outside of a colour. -/
theorem runSgr_outside {field : Text} {behind : Option Text} (plain : ord ';' ∉ field)
    (follows : ∀ rest ∈ behind, Follows region rest) (commands : List Command) :
    runSgr region (atField [] commands) (field ++ behindField behind) =
      commands.map some ++ groupCommands region [] (field :: behindFields behind) := by
  have closed := closeGroup_follows follows commands
  rw [groupCommands, sgrGroups]
  by_cases empty : field = []
  · rw [if_pos empty, empty, List.nil_append, runSgr_empty, closed]
    rfl
  · rw [if_neg empty, runSgr_field rfl rfl empty plain, behindFields_isEmpty]
    by_cases missing : (field.splitOn (ord ':')).head? = some []
    · simp only [if_pos missing]
      rfl
    · simp only [if_neg missing]
      cases numbers : readNumbers behind.isNone [] (field.splitOn (ord ':')) with
      | malformed => rfl
      | cut values => simp [atField, closeGroup]
      | numbers values =>
        cases behind with
        | none => simp [behindFields, sgrGroups, closeGroup, atField]
        | some rest =>
          simp only [behindFields_some_ne_nil, ne_eq, not_false_eq_true, true_and]
          by_cases code : values.length = 1 ∧ values.all isColorCode = true
          · rw [if_pos code, if_pos code]
            have opened : OpenColor values := .inl code.1
            have later := follows rest rfl values commands (.inr opened)
            rw [atField, if_neg opened.ne_nil, colorState, if_pos code.1] at later
            exact later
          · rw [if_neg code, if_neg code]
            exact closed values

/-- One field of a colour. -/
theorem runSgr_inside {color : List Int} (opened : OpenColor color) {field : Text}
    {behind : Option Text} (plain : ord ';' ∉ field)
    (follows : ∀ rest ∈ behind, Follows region rest) (commands : List Command) :
    runSgr region (atField color commands) (field ++ behindField behind) =
      commands.map some ++ groupCommands region color (field :: behindFields behind) := by
  have closed := closeGroup_follows follows commands
  have state : (atField color commands).state = colorState color := if_neg opened.ne_nil
  rw [groupCommands, sgrGroups, if_neg opened.ne_nil,
    runSgr_component (state ▸ colorState_cases color) opened.room plain]
  by_cases digits : field.all isDigit = true
  · simp only [if_pos digits]
    cases behind with
    | none =>
      rw [behindField, show (atField color commands).number ++ field = field from rfl,
        runSgr_component_end opened]
      generalize (if field = [] then color else color ++ [numberValue field]) = read
      by_cases whole : 2 ≤ color.length ∧ (isWholeColor read = true ∨ color[1]? = some 5)
      · rw [if_pos whole, if_pos whole]
        exact closed read
      · rw [if_neg whole, if_neg whole]
        rfl
    | some rest =>
      rw [behindField, show (atField color commands).number ++ field = field from rfl,
        runSgr_component_semicolon opened]
      simp only [behindFields_some_ne_nil, ne_eq]
      by_cases whole : isWholeColor (color ++ [numberValue field]) = true
      · rw [if_pos whole, if_pos whole]
        exact closed _
      · rw [if_neg whole, if_neg whole]
        by_cases kind : (color ++ [numberValue field])[1]? = some 2 ∨
            (color ++ [numberValue field])[1]? = some 5
        · rw [if_pos kind, if_pos kind]
          exact follows rest rfl _ commands (.inr (opened.append whole kind))
        · simp only [if_neg kind]
          rfl
  · simp only [if_neg digits]
    rfl

variable (region) in
theorem follows_all (text : Text) : Follows region text := by
  induction hlength : text.length using Nat.strongRecOn generalizing text with
  | ind length ih =>
    obtain ⟨field, behind, rfl, plain, split⟩ := exists_field text
    have follows : ∀ rest ∈ behind, Follows region rest := by
      intro rest last
      obtain rfl := Option.mem_def.1 last
      apply ih rest.length _ rest rfl
      rw [← hlength, List.length_append, behindField, List.length_cons]
      omega
    intro color commands inside
    rw [split]
    rcases inside with rfl | opened
    · exact runSgr_outside plain follows commands
    · exact runSgr_inside opened plain follows commands

/-- The calls of `parse_sgr`, with `none` for an error report, are the groups of the reference. -/
theorem runSgr_eq (body : Text) :
    runSgr region {} body = groupCommands region [] (body.splitOn (ord ';')) := by
  have all := follows_all region body [] [] (.inl rfl)
  exact all

/-! ### Bounds -/

variable (region) in
/-- The parameters fit in their array, and so do those of every call that has been made. -/
structure SgrInBounds (p : SgrParser) : Prop where
  params : p.params.length ≤ maxParams
  groups : ∀ command ∈ p.commands, ∃ values : List Int,
    command = groupCommand region values ∧ values.length ≤ maxParams

theorem SgrInBounds.send {p : SgrParser} (h : SgrInBounds region p) :
    SgrInBounds region (p.send region) where
  params := Nat.zero_le maxParams
  groups command made := by
    rcases List.mem_append.1 made with before | last
    · exact h.groups command before
    · exact ⟨p.params, List.mem_singleton.1 last, h.params⟩

/-- Parameters that are there, or one more where there is room. -/
theorem SgrInBounds.withParams {p q : SgrParser} (h : SgrInBounds region p)
    (commands : q.commands = p.commands) (params : q.params.length ≤ maxParams) :
    SgrInBounds region q where
  params := params
  groups command made := h.groups command (commands ▸ made)

theorem length_readParam {p : SgrParser} (room : p.params.length < maxParams) :
    p.readParam.params.length ≤ maxParams := by
  rw [readParam_eq, List.length_append]
  exact room

/-- The parameter of an empty field. -/
theorem SgrInBounds.withZero {p : SgrParser} (h : SgrInBounds region p)
    (room : p.params.length < maxParams) :
    SgrInBounds region { p with params := p.params ++ [0] } where
  params := by
    rw [List.length_append]
    exact room
  groups := h.groups

theorem SgrInBounds.step {p : SgrParser} (h : SgrInBounds region p)
    (room : p.params.length < maxParams) (ch : UInt32) :
    SgrInBounds region (sgrStep region p ch).1 := by
  have read : SgrInBounds region p.readParam := h.withParams rfl (length_readParam room)
  unfold sgrStep
  split
  · split
    · exact h.withParams rfl (Nat.zero_le maxParams)
    · exact h.withParams rfl h.params
  · split
    · split
      · exact (h.withZero room).send
      · dsimp only
        split
        · exact read.withParams rfl read.params
        · exact read.send
      · exact read.send
      · dsimp only
        split
        · exact read.withParams rfl read.params
        · split
          · exact read.withParams rfl read.params
          · exact read
      · exact read.send
      · dsimp only
        split
        · exact read.send
        · exact read.withParams rfl read.params
    · split
      · split
        · exact h
        · exact read.withParams rfl read.params
        · exact read.withParams rfl read.params
        · exact h
      · exact h

theorem SgrInBounds.loop {p : SgrParser} (h : SgrInBounds region p) (text : Text) :
    SgrInBounds region (sgrLoop region p text).1 := by
  induction text generalizing p with
  | nil => exact h
  | cons ch rest ih =>
    rw [sgrLoop]
    split
    · rename_i room
      have next := h.step room ch
      split
      · rename_i early
        rw [early] at next
        exact next
      · rename_i later
        rw [later] at next
        exact ih next
    · exact h

theorem SgrInBounds.finish {p : SgrParser} (h : SgrInBounds region p) :
    SgrInBounds region (sgrFinish region p) := by
  have read : SgrInBounds region
      (if p.number ≠ [] ∧ p.params.length < maxParams then p.readParam else p) := by
    split
    · exact h.withParams rfl (length_readParam ‹_ ∧ _›.2)
    · exact h
  have begun : SgrInBounds region
      (if p.params.length < maxParams then { p with params := p.params ++ [0] } else p) := by
    split
    · exact h.withZero ‹_›
    · exact h
  unfold sgrFinish
  dsimp only
  generalize (if p.number ≠ [] ∧ p.params.length < maxParams then p.readParam else p) = q at read ⊢
  split
  · exact begun.send
  · split
    · exact read.send
    · exact read
  · split
    · exact read.send
    · exact read
  · split
    · exact read.send
    · exact read
  · exact h
  · split
    · exact read.send
    · exact read

theorem sgrInBounds_start : SgrInBounds region {} where
  params := Nat.zero_le maxParams
  groups _ made := absurd made List.not_mem_nil

end

end Smelly
