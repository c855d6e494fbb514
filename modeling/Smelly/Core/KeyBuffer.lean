/-
Module: Smelly.Core.KeyBuffer
Purpose: The escape code of a key event as it is stored into the output buffer: the running position
  of `serialize`, what each `snprintf` stores, and the stores after the loop.
Trusted boundary: human-reviewed model of `serialize` in smelly/key_encoding.c; `pos` is a number
  without a bound
-/
import Smelly.Core.KeyEncoding
import Mathlib.Logic.Function.Basic

namespace Smelly

/-- `output` and `pos`: the byte stored last at each index, also behind the end of the buffer. -/
structure KeyOutput where
  pos : Nat := 0
  cells : Nat → Option UInt32 := fun _ => none

namespace KeyOutput

/-- What `snprintf` with this size stores at `pos`: the text, cut to the size, and a zero. -/
def snprintf (output : KeyOutput) (size : Nat) (text : Text) : Nat → Option UInt32 :=
  if size = 0 then output.cells
  else fun i =>
    if i < output.pos then output.cells i
    else match (text.take (size - 1) ++ [0])[i - output.pos]? with
      | some byte => some byte
      | none => output.cells i

/-- `P`, which moves `pos` by the length of the whole text. -/
def print (output : KeyOutput) (text : Text) : KeyOutput :=
  let size := if KEY_BUFFER_SIZE - 2 ≤ output.pos then 0 else KEY_BUFFER_SIZE - 2 - output.pos
  { pos := output.pos + text.length, cells := output.snprintf size text }

/-- `output[pos] = byte`. -/
def store (output : KeyOutput) (byte : UInt32) : KeyOutput :=
  { output with cells := Function.update output.cells output.pos (some byte) }

/-- The bytes of the buffer in front of its first zero. -/
def produced (output : KeyOutput) : Nat :=
  (List.range KEY_BUFFER_SIZE).findIdx fun i => output.cells i = some 0

end KeyOutput

/-- The texts that the loop of `serialize` prints for the bytes of the text. -/
def textPieces (codep : UInt32) (first : Bool) : Bytes → List Text
  | [] => []
  | byte :: rest =>
    let (state, codep) := decodeUtf8 utf8Accept codep byte
    if state = utf8Accept then
      (chars (if first then ";" else ":") ++ decimalText codep.toNat) ::
        textPieces codep false rest
    else textPieces codep first rest

/-- A text that is printed under a condition. -/
def pieceIf (cond : Bool) (text : Text) : List Text := if cond then [text] else []

/-- The texts that `serialize` prints, in order. -/
def serializePieces (data : EncodingData) : List Text :=
  let secondFieldNotEmpty := data.hasMods || data.addActions
  let thirdFieldNotEmpty := data.addText
  chars "\x1b[" ::
    (pieceIf (data.key ≠ 1 || data.addAlternates || secondFieldNotEmpty || thirdFieldNotEmpty)
      (decimalText data.key.toNat) ++
    (pieceIf data.addAlternates (chars ":") ++
    (pieceIf (data.addAlternates && data.shiftedKey ≠ 0) (decimalText data.shiftedKey.toNat) ++
    (pieceIf (data.addAlternates && data.alternateKey ≠ 0)
      (chars ":" ++ decimalText data.alternateKey.toNat) ++
    (pieceIf (secondFieldNotEmpty || thirdFieldNotEmpty) (chars ";") ++
    (pieceIf secondFieldNotEmpty data.encodedMods ++
    (pieceIf data.addActions (chars ":" ++ decimalText (data.action.toNat + 1)) ++
    (if thirdFieldNotEmpty then textPieces 0 true (data.text.getD []) else []))))))))

/-- `serialize`: the buffer, and in `pos` the length it returns. -/
def serializeInto (data : EncodingData) (csiTrailer : Char) : KeyOutput :=
  let output := ((serializePieces data).foldl KeyOutput.print {}).store (ord csiTrailer)
  { output with pos := output.pos + 1 }.store 0

end Smelly
