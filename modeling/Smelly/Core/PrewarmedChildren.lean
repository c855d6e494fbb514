/-
Module: Smelly.Core.PrewarmedChildren
Purpose: The ids of the children of the prewarm process that have died: the static buffer that
  `reap_prewarmed_children` reads them into, and the lines that are taken off its front.
Trusted boundary: human-reviewed model of reap_prewarmed_children in smelly/child-monitor.c; what
  `read` answers is an input, and `atoi` is defined where the number fits into an `int`
-/
import Smelly.Core.Charsets
import Smelly.Lib.Framing

namespace Smelly

namespace Prewarm

/-- The digits that `atoi` reads. -/
def atoiDigits (bytes : Bytes) : Nat :=
  (bytes.takeWhile fun b => 0x30 ≤ b ∧ b ≤ 0x39).foldl (fun n b => n * 10 + (b.toNat - 48)) 0

/-- `atoi` of the standard library. -/
def atoi (bytes : Bytes) : Int :=
  let number := bytes.dropWhile fun b => b = 0x20 ∨ (0x09 ≤ b ∧ b ≤ 0x0d)
  if number.head? = some 0x2d then -(atoiDigits number.tail)
  else if number.head? = some 0x2b then atoiDigits number.tail
  else atoiDigits number

/-- The statics `buf` and `buf_pos`, and the children that were marked for removal. -/
structure ReapBuffer where
  buf : Bytes := List.replicate 256 0
  bufPos : Nat := 0
  removed : List Int := []
deriving DecidableEq, Repr

/-- `memchr` for a newline, from index `i` on. -/
def memchrNewline (i : Nat) : Bytes → Option Nat
  | [] => none
  | b :: rest => if b = 10 then some i else memchrNewline (i + 1) rest

/-- `memmove(buf, buf + sz, sz)`; `none` if it leaves the array. -/
def moveTail (buf : Bytes) (sz : Nat) : Option Bytes :=
  if sz + sz ≤ buf.length then some ((buf.drop sz).take sz ++ buf.drop sz) else none

/-- The inner loop, with the rounds still possible.  The NUL byte that ends the line is moved
over. -/
def reapLines (enableCloseOnChildDeath : Bool) : Nat → ReapBuffer → Option ReapBuffer
  | 0, self => some self
  | rounds + 1, self =>
    if 1 < self.bufPos then
      match memchrNewline 0 (self.buf.take self.bufPos) with
      | none => some self
      | some nl => do
        let sz := nl + 1
        let pid := atoi (self.buf.take nl)
        let removed :=
          if enableCloseOnChildDeath ∧ pid ≠ 0 then self.removed ++ [pid] else self.removed
        let buf ← moveTail self.buf sz
        reapLines enableCloseOnChildDeath rounds { buf, bufPos := self.bufPos - sz, removed }
    else some self

/-- What `read` answers: some bytes, or an error. -/
inductive ReadAnswer where
  | data (bytes : Bytes)
  | interrupted
  | failed
deriving DecidableEq, Repr

/-- What `reap_prewarmed_children` does with one answer of `read`.  A call ends with an error other
than `EINTR` or without bytes, and the next call goes on with the same buffer. -/
def reapStep (enableCloseOnChildDeath : Bool) (self : ReapBuffer) : ReadAnswer → Option ReapBuffer
  | .interrupted => some self
  | .failed => some self
  | .data bytes =>
    if self.bufPos + bytes.length ≤ self.buf.length then
      let buf := self.buf.take self.bufPos ++ bytes ++ self.buf.drop (self.bufPos + bytes.length)
      let bufPos := self.bufPos + bytes.length
      reapLines enableCloseOnChildDeath bufPos { self with buf, bufPos }
    else none

end Prewarm

end Smelly
