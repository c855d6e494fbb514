/-
Module: Smelly.Core.LongestCommon
Purpose: The longest text that several texts start or end with, as the command line tools look for
  it to complete a word.
Trusted boundary: human-reviewed model of tools/utils/longest-common.go; a string is its bytes, and
  the items are the strings that `next` gives before it is done
-/
import Smelly.Core.Charsets

namespace Smelly

namespace Utils

/-- The first `i` of the loop at which the strings differ, if there is one. -/
def firstDifference (maxLen : Nat) (differ : Nat → Bool) : Option Nat :=
  (List.range maxLen).find? differ

/-- The round of `LongestCommon` for a prefix. -/
def narrowPrefix (xfix q : Bytes) : Bytes :=
  match firstDifference (min q.length xfix.length) fun i => xfix[i]? ≠ q[i]? with
  | some i => xfix.take i
  | none => xfix

/-- The round of `LongestCommon` for a suffix. -/
def narrowSuffix (xfix q : Bytes) : Bytes :=
  let xi (i : Nat) := xfix.length - i - 1
  let si (i : Nat) := q.length - i - 1
  match firstDifference (min q.length xfix.length) fun i => xfix[xi i]? ≠ q[si i]? with
  | some i => xfix.drop (xi i + 1)
  | none => xfix

/-- The loop of `LongestCommon` over the items after the first. -/
def longestCommonLoop (isPrefix : Bool) (xfix : Bytes) : List Bytes → Bytes
  | [] => xfix
  | q :: rest =>
    if min q.length xfix.length = 0 then []
    else longestCommonLoop isPrefix
      (if isPrefix then narrowPrefix xfix q else narrowSuffix xfix q) rest

/-- `LongestCommon`. -/
def longestCommon (strs : List Bytes) (isPrefix : Bool) : Bytes :=
  match strs with
  | [] => []
  | xfix :: rest => if xfix = [] then [] else longestCommonLoop isPrefix xfix rest

/-- `Prefix`. -/
def commonPrefix (strs : List Bytes) : Bytes := longestCommon strs true

/-- `Suffix`. -/
def commonSuffix (strs : List Bytes) : Bytes := longestCommon strs false

end Utils

end Smelly
