/-
Module: Smelly.Core.KeyEncodingFlags
Purpose: The stacks of key encoding flags of the main and the alternate screen: two arrays of bytes
  whose high bit marks an entry in use, and the pointer that selects one of them.
Trusted boundary: human-reviewed model of screen_current_key_encoding_flags,
  screen_set_key_encoding_flags, screen_push_key_encoding_flags, screen_pop_key_encoding_flags and
  of what screen_toggle_screen_buffer does to the pointer
-/
import Smelly.Lib.Checked
import Smelly.Lib.MemoryBlock

namespace Smelly

open Checked MemoryBlock

/-- `arraysz(self->main_key_encoding_flags)`. -/
def keyEncodingFlagsSz : Nat := 8

/-- The loop that looks for the last entry in use, from the entry before `i` down. -/
def lastInUse (flags : List UInt8) : (i : Nat) → Option Nat
  | 0 => none
  | i + 1 => if flags.getD i 0 &&& 0x80 ≠ 0 then some i else lastInUse flags i

/-- `screen_current_key_encoding_flags`. -/
def currentKeyEncodingFlags (flags : List UInt8) : UInt8 :=
  match lastInUse flags keyEncodingFlagsSz with
  | some i => flags.getD i 0 &&& 0x7f
  | none => 0

/-- What `how` makes of an entry and the flags `q`. -/
def applyHow (how : UInt32) (q entry : UInt8) : UInt8 :=
  if how = 1 then q
  else if how = 2 then entry ||| q
  else if how = 3 then entry &&& ~~~q
  else entry

/-- `screen_set_key_encoding_flags`. -/
def setKeyEncodingFlags (flags : List UInt8) (val how : UInt32) : Option (List UInt8) :=
  let idx := (lastInUse flags keyEncodingFlagsSz).getD 0
  let q := val.toUInt8 &&& 0x7f
  modifyAt flags idx fun entry => applyHow how q entry ||| 0x80

/-- `screen_push_key_encoding_flags`. -/
def pushKeyEncodingFlags (flags : List UInt8) (val : UInt32) : Option (List UInt8) :=
  let q := val.toUInt8 &&& 0x7f
  let currentIdx := (lastInUse flags keyEncodingFlagsSz).getD 0
  if currentIdx = keyEncodingFlagsSz - 1 then do
    let flags ← move flags 0 1 (keyEncodingFlagsSz - 1)
    setAt flags currentIdx (0x80 ||| q)
  else do
    let flags ← modifyAt flags currentIdx (· ||| 0x80)
    setAt flags (currentIdx + 1) (0x80 ||| q)

/-- The loop of `screen_pop_key_encoding_flags`, from the entry before `i` down. -/
def popFrom (flags : List UInt8) : (i num : Nat) → Option (List UInt8)
  | 0, _ => some flags
  | i + 1, num =>
    if num = 0 then some flags
    else if flags.getD i 0 &&& 0x80 ≠ 0 then
      setAt flags i 0 >>= fun flags => popFrom flags i (num - 1)
    else popFrom flags i num

/-- `screen_pop_key_encoding_flags`. -/
def popKeyEncodingFlags (flags : List UInt8) (num : UInt32) : Option (List UInt8) :=
  popFrom flags keyEncodingFlagsSz num.toNat

inductive ScreenBuffer where
  | main
  | alt
deriving DecidableEq, Repr

def ScreenBuffer.other : ScreenBuffer → ScreenBuffer
  | main => alt
  | alt => main

/-- The two arrays of `Screen`; `keyEncodingFlags` is the one the pointer of that name selects. -/
structure KeyEncodingFlags where
  mainKeyEncodingFlags : List UInt8 := List.replicate keyEncodingFlagsSz 0
  altKeyEncodingFlags : List UInt8 := List.replicate keyEncodingFlagsSz 0
  keyEncodingFlags : ScreenBuffer := .main
deriving DecidableEq, Repr

def KeyEncodingFlags.array (self : KeyEncodingFlags) : ScreenBuffer → List UInt8
  | .main => self.mainKeyEncodingFlags
  | .alt => self.altKeyEncodingFlags

/-- Store through the pointer. -/
def KeyEncodingFlags.store (self : KeyEncodingFlags) (flags : List UInt8) : KeyEncodingFlags :=
  match self.keyEncodingFlags with
  | .main => { self with mainKeyEncodingFlags := flags }
  | .alt => { self with altKeyEncodingFlags := flags }

/-- The escape codes that change the flags, and the switch between the screens. -/
inductive FlagEvent where
  | set (val how : UInt32)
  | push (val : UInt32)
  | pop (num : UInt32)
  | toggleScreenBuffer
deriving DecidableEq, Repr

/-- One escape code. -/
def flagStep (self : KeyEncodingFlags) : FlagEvent → Option KeyEncodingFlags
  | .set val how => do
      let flags ← setKeyEncodingFlags (self.array self.keyEncodingFlags) val how
      some (self.store flags)
  | .push val => do
      let flags ← pushKeyEncodingFlags (self.array self.keyEncodingFlags) val
      some (self.store flags)
  | .pop num => do
      let flags ← popKeyEncodingFlags (self.array self.keyEncodingFlags) num
      some (self.store flags)
  | .toggleScreenBuffer => some { self with keyEncodingFlags := self.keyEncodingFlags.other }

end Smelly
