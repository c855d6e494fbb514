/-
Module: Smelly.Core.TuiGraphics
Purpose: The graphics commands of the Go side: how a command and its payload are written as APC codes
  and how the text of an APC code is parsed.
Trusted boundary: human-reviewed model of tools/tui/graphics/command.go; the zlib writer is a
  parameter and the texts of errors, which the parser drops, are left out
-/
import Smelly.Lib.Base64
import Smelly.Lib.Fields
import Mathlib.Algebra.Ring.Nat

namespace Smelly.TuiGraphics

/-- `GRT_a`. -/
inductive GrtA where
  | transmit
  | transmitAndDisplay
  | query
  | display
  | delete
  | frame
  | animate
  | compose
deriving DecidableEq, Repr

/-- `String` of `GRT_a`. -/
def GrtA.toText : GrtA → List Char
  | .transmit => ['t']
  | .transmitAndDisplay => ['T']
  | .query => ['q']
  | .display => ['p']
  | .delete => ['d']
  | .frame => ['f']
  | .animate => ['a']
  | .compose => ['c']

/-- `GRT_a_from_string`. -/
def GrtA.fromString : List Char → Option GrtA
  | ['t'] => some .transmit
  | ['T'] => some .transmitAndDisplay
  | ['q'] => some .query
  | ['p'] => some .display
  | ['d'] => some .delete
  | ['f'] => some .frame
  | ['a'] => some .animate
  | ['c'] => some .compose
  | _ => none

/-- `GRT_q`. -/
inductive GrtQ where
  | noisy
  | onlyErrors
  | silent
deriving DecidableEq, Repr

/-- `String` of `GRT_q`. -/
def GrtQ.toText : GrtQ → List Char
  | .noisy => ['0']
  | .onlyErrors => ['1']
  | .silent => ['2']

/-- `GRT_q_from_string`. -/
def GrtQ.fromString : List Char → Option GrtQ
  | ['0'] => some .noisy
  | ['1'] => some .onlyErrors
  | ['2'] => some .silent
  | _ => none

/-- `GRT_f`. -/
inductive GrtF where
  | rgba
  | rgb
  | png
deriving DecidableEq, Repr

/-- `String` of `GRT_f`. -/
def GrtF.toText : GrtF → List Char
  | .rgba => ['3', '2']
  | .rgb => ['2', '4']
  | .png => ['1', '0', '0']

/-- `GRT_f_from_string`. -/
def GrtF.fromString : List Char → Option GrtF
  | ['3', '2'] => some .rgba
  | ['2', '4'] => some .rgb
  | ['1', '0', '0'] => some .png
  | _ => none

/-- `GRT_t`. -/
inductive GrtT where
  | direct
  | file
  | tempfile
  | sharedmem
deriving DecidableEq, Repr

/-- `String` of `GRT_t`. -/
def GrtT.toText : GrtT → List Char
  | .direct => ['d']
  | .file => ['f']
  | .tempfile => ['t']
  | .sharedmem => ['s']

/-- `GRT_t_from_string`. -/
def GrtT.fromString : List Char → Option GrtT
  | ['d'] => some .direct
  | ['f'] => some .file
  | ['t'] => some .tempfile
  | ['s'] => some .sharedmem
  | _ => none

/-- `GRT_o`. -/
inductive GrtO where
  | none
  | zlib
deriving DecidableEq, Repr

/-- `String` of `GRT_o`. -/
def GrtO.toText : GrtO → List Char
  | .none => []
  | .zlib => ['z']

/-- `GRT_o_from_string`. -/
def GrtO.fromString : List Char → Option GrtO
  | [] => some .none
  | ['z'] => some .zlib
  | _ => none

/-- `GRT_m`. -/
inductive GrtM where
  | nomore
  | more
deriving DecidableEq, Repr

/-- `String` of `GRT_m`. -/
def GrtM.toText : GrtM → List Char
  | .nomore => ['0']
  | .more => ['1']

/-- `GRT_m_from_string`. -/
def GrtM.fromString : List Char → Option GrtM
  | ['0'] => some .nomore
  | ['1'] => some .more
  | _ => none

/-- `GRT_C`. -/
inductive GrtC where
  | move
  | static
deriving DecidableEq, Repr

/-- `String` of `GRT_C`. -/
def GrtC.toText : GrtC → List Char
  | .move => ['0']
  | .static => ['1']

/-- `GRT_C_from_string`. -/
def GrtC.fromString : List Char → Option GrtC
  | ['0'] => some .move
  | ['1'] => some .static
  | _ => none

/-- `GRT_d`. -/
inductive GrtD where
  | deleteVisible
  | freeVisible
  | deleteById
  | freeById
  | deleteByNumber
  | freeByNumber
  | deleteByCursor
  | freeByCursor
  | deleteByFrame
  | freeByFrame
  | deleteByCell
  | freeByCell
  | deleteByCellZindex
  | freeByCellZindex
  | deleteByColumn
  | freeByColumn
  | deleteByRow
  | freeByRow
  | deleteByZindex
  | freeByZindex
deriving DecidableEq, Repr

/-- `String` of `GRT_d`. -/
def GrtD.toText : GrtD → List Char
  | .deleteVisible => ['a']
  | .freeVisible => ['A']
  | .deleteById => ['i']
  | .freeById => ['I']
  | .deleteByNumber => ['n']
  | .freeByNumber => ['N']
  | .deleteByCursor => ['c']
  | .freeByCursor => ['C']
  | .deleteByFrame => ['f']
  | .freeByFrame => ['F']
  | .deleteByCell => ['p']
  | .freeByCell => ['P']
  | .deleteByCellZindex => ['q']
  | .freeByCellZindex => ['Q']
  | .deleteByColumn => ['x']
  | .freeByColumn => ['X']
  | .deleteByRow => ['y']
  | .freeByRow => ['Y']
  | .deleteByZindex => ['z']
  | .freeByZindex => ['Z']

/-- `GRT_d_from_string`. -/
def GrtD.fromString : List Char → Option GrtD
  | ['a'] => some .deleteVisible
  | ['A'] => some .freeVisible
  | ['i'] => some .deleteById
  | ['I'] => some .freeById
  | ['n'] => some .deleteByNumber
  | ['N'] => some .freeByNumber
  | ['c'] => some .deleteByCursor
  | ['C'] => some .freeByCursor
  | ['f'] => some .deleteByFrame
  | ['F'] => some .freeByFrame
  | ['p'] => some .deleteByCell
  | ['P'] => some .freeByCell
  | ['q'] => some .deleteByCellZindex
  | ['Q'] => some .freeByCellZindex
  | ['x'] => some .deleteByColumn
  | ['X'] => some .freeByColumn
  | ['y'] => some .deleteByRow
  | ['Y'] => some .freeByRow
  | ['z'] => some .deleteByZindex
  | ['Z'] => some .freeByZindex
  | _ => none

/-- `GraphicsCommand`. -/
structure GraphicsCommand where
  a : GrtA := .transmit
  q : GrtQ := .noisy
  f : GrtF := .rgba
  t : GrtT := .direct
  o : GrtO := .none
  m : GrtM := .nomore
  C : GrtC := .move
  d : GrtD := .deleteVisible
  s : UInt64 := 0
  v : UInt64 := 0
  S : UInt64 := 0
  O : UInt64 := 0
  x : UInt64 := 0
  y : UInt64 := 0
  w : UInt64 := 0
  h : UInt64 := 0
  X : UInt64 := 0
  Y : UInt64 := 0
  c : UInt64 := 0
  r : UInt64 := 0
  i : UInt32 := 0
  I : UInt32 := 0
  p : UInt32 := 0
  z : Int32 := 0
  responseMessage : List Char := []
deriving DecidableEq, Repr

/-! ### Numbers -/

/-- A number as `fmt` prints it. -/
def uintText (n : Nat) : List Char := Nat.toDigits 10 n

/-- A signed number as `fmt` prints it. -/
def intText (n : Int) : List Char :=
  if n < 0 then '-' :: uintText n.natAbs else uintText n.natAbs

/-- `strconv.ParseUint` with base 10. -/
def parseUint (s : List Char) (bitSize : Nat) : Option Nat :=
  if s = [] ∨ ¬s.all Char.isDigit then none
  else
    let n := Nat.ofDigitChars 10 s 0
    if n < 2 ^ bitSize then some n else none

/-- `strconv.ParseInt` with base 10. -/
def parseInt (s : List Char) (bitSize : Nat) : Option Int :=
  match s with
  | '-' :: digits => do
      let n ← parseUint digits bitSize
      if n ≤ 2 ^ (bitSize - 1) then some (-(n : Int)) else none
  | '+' :: digits => do
      let n ← parseUint digits bitSize
      if n < 2 ^ (bitSize - 1) then some (n : Int) else none
  | digits => do
      let n ← parseUint digits bitSize
      if n < 2 ^ (bitSize - 1) then some (n : Int) else none

/-- `set_uval`. -/
def setUval (value : List Char) : Option UInt64 := (parseUint value 64).map UInt64.ofNat

/-- `set_u32val`. -/
def setU32val (value : List Char) : Option UInt32 := (parseUint value 32).map UInt32.ofNat

/-- `set_i32val`. -/
def setI32val (value : List Char) : Option Int32 := (parseInt value 32).map Int32.ofInt

/-! ### Writing -/

/-- `write_key`: the key and the text of a value that is not the default. -/
def writeKey {β : Type} [DecidableEq β] (text : β → List Char) (k : Char) (val defval : β) :
    List (Char × List Char) :=
  Fields.written text k val defval

namespace GraphicsCommand

/-- The keys and texts that `serialize_non_default_fields` prints. -/
def nonDefaultFields (self : GraphicsCommand) : List (Char × List Char) :=
  let null : GraphicsCommand := {}
  writeKey GrtA.toText 'a' self.a null.a ++
    writeKey GrtQ.toText 'q' self.q null.q ++
    writeKey GrtF.toText 'f' self.f null.f ++
    writeKey GrtT.toText 't' self.t null.t ++
    writeKey GrtO.toText 'o' self.o null.o ++
    writeKey GrtM.toText 'm' self.m null.m ++
    writeKey GrtC.toText 'C' self.C null.C ++
    writeKey GrtD.toText 'd' self.d null.d ++
    writeKey (fun n => uintText n.toNat) 's' self.s null.s ++
    writeKey (fun n => uintText n.toNat) 'v' self.v null.v ++
    writeKey (fun n => uintText n.toNat) 'S' self.S null.S ++
    writeKey (fun n => uintText n.toNat) 'O' self.O null.O ++
    writeKey (fun n => uintText n.toNat) 'x' self.x null.x ++
    writeKey (fun n => uintText n.toNat) 'y' self.y null.y ++
    writeKey (fun n => uintText n.toNat) 'w' self.w null.w ++
    writeKey (fun n => uintText n.toNat) 'h' self.h null.h ++
    writeKey (fun n => uintText n.toNat) 'X' self.X null.X ++
    writeKey (fun n => uintText n.toNat) 'Y' self.Y null.Y ++
    writeKey (fun n => uintText n.toNat) 'c' self.c null.c ++
    writeKey (fun n => uintText n.toNat) 'r' self.r null.r ++
    writeKey (fun n => uintText n.toNat) 'i' self.i null.i ++
    writeKey (fun n => uintText n.toNat) 'I' self.I null.I ++
    writeKey (fun n => uintText n.toNat) 'p' self.p null.p ++
    writeKey (fun n => intText n.toInt) 'z' self.z null.z

/-- `serialize_non_default_fields`. -/
def serializeNonDefaultFields (self : GraphicsCommand) : List (List Char) :=
  self.nonDefaultFields.map fun (k, val) => k :: '=' :: val

/-- What `WriteMetadata` writes. -/
def metadata (self : GraphicsCommand) : List Char :=
  [','].intercalate self.serializeNonDefaultFields

/-- What `serialize_to` writes. -/
def serializeTo (self : GraphicsCommand) (chunk : List Char) : List Char :=
  ['\x1b', '_', 'G'] ++ self.metadata ++ (if chunk.length > 0 then ';' :: chunk else []) ++
    ['\x1b', '\\']

/-- The loop of `WriteWithPayloadTo` over the encoded data. -/
def writeChunks (self gc : GraphicsCommand) (data : List Char) : List Char :=
  if data.length > 0 then
    let chunk := if data.length > 4096 then data.take 4096 else data
    let rest := if data.length > 4096 then data.drop 4096 else []
    let gc := { gc with m := if rest.length > 0 then .more else .nomore }
    gc.serializeTo chunk ++ writeChunks self { q := self.q, a := self.a } rest
  else []
termination_by data.length
decreasing_by
  split <;> simp <;> omega

/-- What `WriteWithPayloadTo` writes. -/
def writeWithPayloadTo (compressWithZlib : List UInt8 → List UInt8) (self : GraphicsCommand)
    (payload : List UInt8) : List Char :=
  if payload.length = 0 then self.serializeTo []
  else if payload.length ≤ 2048 then self.serializeTo (Base64.encode payload)
  else
    let compressed := compressWithZlib payload
    if self.f ≠ .png ∧ compressed.length < payload.length then
      self.writeChunks { self with o := .zlib } (Base64.encode compressed)
    else self.writeChunks self (Base64.encode payload)

/-! ### Parsing -/

/-- `SetString`; `none` is an error. -/
def setString (self : GraphicsCommand) (key : Char) (value : List Char) : Option GraphicsCommand :=
  match key with
  | 'a' => (GrtA.fromString value).map fun temp => { self with a := temp }
  | 'q' => (GrtQ.fromString value).map fun temp => { self with q := temp }
  | 'f' => (GrtF.fromString value).map fun temp => { self with f := temp }
  | 't' => (GrtT.fromString value).map fun temp => { self with t := temp }
  | 'o' => (GrtO.fromString value).map fun temp => { self with o := temp }
  | 'm' => (GrtM.fromString value).map fun temp => { self with m := temp }
  | 'C' => (GrtC.fromString value).map fun temp => { self with C := temp }
  | 'd' => (GrtD.fromString value).map fun temp => { self with d := temp }
  | 's' => (setUval value).map fun temp => { self with s := temp }
  | 'v' => (setUval value).map fun temp => { self with v := temp }
  | 'S' => (setUval value).map fun temp => { self with S := temp }
  | 'O' => (setUval value).map fun temp => { self with O := temp }
  | 'x' => (setUval value).map fun temp => { self with x := temp }
  | 'y' => (setUval value).map fun temp => { self with y := temp }
  | 'w' => (setUval value).map fun temp => { self with w := temp }
  | 'h' => (setUval value).map fun temp => { self with h := temp }
  | 'X' => (setUval value).map fun temp => { self with X := temp }
  | 'Y' => (setUval value).map fun temp => { self with Y := temp }
  | 'c' => (setUval value).map fun temp => { self with c := temp }
  | 'r' => (setUval value).map fun temp => { self with r := temp }
  | 'i' => (setU32val value).map fun temp => { self with i := temp }
  | 'I' => (setU32val value).map fun temp => { self with I := temp }
  | 'p' => (setU32val value).map fun temp => { self with p := temp }
  | 'z' => (setI32val value).map fun temp => { self with z := temp }
  | _ => none

end GraphicsCommand

/-- What the parser expects next. -/
inductive ParserState where
  | expectingKey
  | expectingEquals
  | expectingValue
deriving DecidableEq, Repr

/-- The variables of `GraphicsCommandFromAPCPayload`. -/
structure ApcParser where
  state : ParserState := .expectingKey
  currentKey : Char := '\x00'
  valueStartAt : Nat := 0
  payloadStartAt : Option Nat := none
  gc : GraphicsCommand := {}
deriving DecidableEq, Repr

/-- `add_key`: a key with an error leaves the command as it is. -/
def ApcParser.addKey (p : ApcParser) (raw : List Char) (pos : Nat) : GraphicsCommand :=
  (p.gc.setString p.currentKey ((raw.drop p.valueStartAt).take (pos - p.valueStartAt))).getD p.gc

/-- The loop of `GraphicsCommandFromAPCPayload`, from a position on. -/
def ApcParser.loop (raw : List Char) (p : ApcParser) (pos : Nat) : List Char → ApcParser
  | [] => p
  | ch :: rest =>
    if ch = ';' then
      { p with
        gc := if p.state = .expectingValue then p.addKey raw pos else p.gc
        state := .expectingKey
        payloadStartAt := some (pos + 1) }
    else
      let p : ApcParser :=
        match p.state with
        | .expectingKey => { p with currentKey := ch, state := .expectingEquals }
        | .expectingEquals =>
          if ch = '=' then { p with state := .expectingValue, valueStartAt := pos + 1 }
          else { p with state := .expectingKey }
        | .expectingValue =>
          if ch = ',' then { p with gc := p.addKey raw pos, state := .expectingKey } else p
      p.loop raw (pos + 1) rest

/-- The end of `GraphicsCommandFromAPCPayload`. -/
def ApcParser.finish (raw : List Char) (p : ApcParser) : GraphicsCommand :=
  let gc := if p.state = .expectingValue then p.addKey raw raw.length else p.gc
  match p.payloadStartAt with
  | some start =>
    let payload := raw.drop start
    if payload.length > 0 then { gc with responseMessage := payload } else gc
  | none => gc

/-- `GraphicsCommandFromAPCPayload`. -/
def graphicsCommandFromAPCPayload (raw : List Char) : GraphicsCommand :=
  (ApcParser.loop raw {} 0 raw).finish raw

/-- `GraphicsCommandFromAPC`. -/
def graphicsCommandFromAPC (raw : List Char) : Option GraphicsCommand :=
  match raw with
  | 'G' :: payload => some (graphicsCommandFromAPCPayload payload)
  | _ => none

/-- The APC codes in a text that is written to the terminal; inside a code, what was read of it. -/
def apcCodesFrom : Option (List Char) → List Char → List (List Char)
  | none, '\x1b' :: '_' :: rest => apcCodesFrom (some []) rest
  | none, _ :: rest => apcCodesFrom none rest
  | some code, '\x1b' :: '\\' :: rest => code :: apcCodesFrom none rest
  | some code, ch :: rest => apcCodesFrom (some (code ++ [ch])) rest
  | _, [] => []

/-- The APC codes in a text that is written to the terminal. -/
def apcCodes (text : List Char) : List (List Char) := apcCodesFrom none text

end Smelly.TuiGraphics
