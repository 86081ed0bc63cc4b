import QboxPlatform.Foundation.Bytes

/-!
# The ranges that direct access is granted for

The parameter is a comma-separated list of ranges, `start:size` or `start-end`.  A list with an
ill-formed or out-of-range entry grants nothing, an empty one everything.
-/

namespace QboxPlatform.StrataFlash

open Foundation

/-- A range of offsets, its ends included. -/
structure DmiRange where
  start : Nat
  last : Nat
  deriving DecidableEq

def isSpace (char : Char) : Bool :=
  char ∈ [' ', '\t', '\n', '\x0b', '\x0c', '\r']

def removeSpaces (text : List Char) : List Char := text.filter fun char => !isSpace char

/-- The value of a digit or letter, as `std::stoull` counts them. -/
def digitValue (char : Char) : Option Nat :=
  if '0' ≤ char ∧ char ≤ '9' then some (char.toNat - '0'.toNat)
  else if 'a' ≤ char ∧ char ≤ 'f' then some (char.toNat - 'a'.toNat + 10)
  else if 'A' ≤ char ∧ char ≤ 'F' then some (char.toNat - 'A'.toNat + 10)
  else none

/-- The number that a text of digits of a base stands for. -/
def parseDigits (base : Nat) (text : List Char) : Option Nat :=
  if text = [] then none
  else
    text.foldlM (fun value char => do
      let digit ← digitValue char
      if digit < base then some (value * base + digit) else none) 0

/-- The magnitude of a number in base 8, 10 or 16, after its prefix. -/
def parseMagnitude (text : List Char) : Option Nat :=
  if text.take 2 = ['0', 'x'] ∨ text.take 2 = ['0', 'X'] then parseDigits 16 (text.drop 2)
  else if text.head? = some '0' then parseDigits 8 text
  else parseDigits 10 text

/-- `parse_u64`: `std::stoull` has to take the whole text; a minus sign negates modulo `2 ^ 64`. -/
def parseU64 (text : List Char) : Option Nat := do
  let negative := text.head? == some '-'
  let unsigned := if negative || text.head? == some '+' then text.drop 1 else text
  let magnitude ← parseMagnitude unsigned
  if 2 ^ 64 ≤ magnitude then none
  else if negative then some ((2 ^ 64 - magnitude) % 2 ^ 64)
  else some magnitude

/-- The texts before and after the first occurrence of a separator. -/
def splitAt (separator : Char) (token : List Char) : List Char × List Char :=
  (token.takeWhile (· ≠ separator), (token.dropWhile (· ≠ separator)).drop 1)

def parseDmiRange (token : List Char) : Option DmiRange :=
  if ':' ∈ token ∧ '-' ∈ token then none
  else if ':' ∈ token then do
    let start ← parseU64 (splitAt ':' token).1
    let value ← parseU64 (splitAt ':' token).2
    if value = 0 ∨ 2 ^ 64 - 1 - (value - 1) < start then none
    else some ⟨start, start + value - 1⟩
  else if '-' ∈ token then do
    let start ← parseU64 (splitAt '-' token).1
    let value ← parseU64 (splitAt '-' token).2
    if value < start then none else some ⟨start, value⟩
  else none

/-- One entry of the list, cut off at the end of the array. -/
def dmiRangeOf (size : Nat) (token : List Char) : Option DmiRange := do
  let range ← parseDmiRange token
  if size ≤ range.start then none else some ⟨range.start, min range.last (size - 1)⟩

/-- `p_dmi_ranges`, and the ranges of the text that was parsed last. -/
structure DmiRanges where
  spec : List Char
  openSpec : List Char
  ranges : List DmiRange
  valid : Bool

namespace DmiRanges

/-- `refresh_dmi_ranges`, for an array of `size` bytes. -/
def refresh (dmi : DmiRanges) (size : Nat) : DmiRanges :=
  let spec := removeSpaces dmi.spec
  if spec = dmi.openSpec then dmi
  else if spec = [] then { dmi with openSpec := spec, ranges := [], valid := true }
  else
    match (spec.splitOn ',').mapM (dmiRangeOf size) with
    | none => { dmi with openSpec := spec, ranges := [], valid := false }
    | some ranges => { dmi with openSpec := spec, ranges := ranges, valid := true }

/-- `find_dmi_range`, with the cache that it may have refreshed. -/
def find (dmi : DmiRanges) (size offset len : Nat) : Option DmiRange × DmiRanges :=
  if size = 0 ∨ size ≤ offset ∨ (len ≠ 0 ∧ size - offset < len) then (none, dmi)
  else
    let refreshed := dmi.refresh size
    if !refreshed.valid then (none, refreshed)
    else
      let last := if len = 0 then offset else offset + len - 1
      if refreshed.openSpec = [] then (some ⟨0, size - 1⟩, refreshed)
      else
        (refreshed.ranges.find? fun candidate =>
          candidate.start ≤ offset && last ≤ candidate.last, refreshed)

end DmiRanges

end QboxPlatform.StrataFlash
