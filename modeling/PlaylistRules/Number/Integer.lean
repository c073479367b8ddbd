/-!
# Decimal integers

Integers written with ASCII digits: the digits of a natural number, padded fields, and the
reading of an optionally signed integer within given bounds.

## Main definitions

* `Number.digits`, `Number.padded` : the digits of a natural number, with zeros in front.
* `Number.signed` : the digits of an integer, after a minus sign when it is negative.
* `Number.readDigits?` : a natural number from a text of digits.
* `Number.readSigned?` : an integer from digits after an optional sign.
* `Number.readInt64?`, `Number.readUInt64?` : the same within sixty-four bits.
-/

namespace PlaylistRules.Number

/-- The decimal digits of a natural number. -/
def digits (n : Nat) : List Char :=
  Nat.toDigits 10 n

/-- The digits of a natural number with zeros in front, up to a given length. -/
def padded (length : Nat) (n : Nat) : List Char :=
  List.replicate (length - (digits n).length) '0' ++ digits n

/-- The digits of an integer, after a minus sign when it is negative. -/
def signed (i : Int) : List Char :=
  if i < 0 then '-' :: digits i.natAbs else digits i.natAbs

/-- The value of an ASCII digit. -/
def digitValue (c : Char) : Nat :=
  c.toNat - '0'.toNat

/-- The number whose digits continue a number that was read so far. -/
def digitsFrom (start : Nat) (cs : List Char) : Nat :=
  cs.foldl (fun n c => 10 * n + digitValue c) start

/-- A natural number from a text of one or more ASCII digits. -/
def readDigits? (cs : List Char) : Option Nat :=
  if cs.isEmpty then none
  else if cs.all Char.isDigit then some (digitsFrom 0 cs)
  else none

/-- An integer from ASCII digits after an optional sign. -/
def readSigned? : List Char → Option Int
  | '+' :: cs => (readDigits? cs).map Int.ofNat
  | '-' :: cs => (readDigits? cs).map fun n => -(n : Int)
  | cs => (readDigits? cs).map Int.ofNat

/-- The smallest signed integer of sixty-four bits. -/
def minInt64 : Int := -0x8000000000000000

/-- The largest signed integer of sixty-four bits. -/
def maxInt64 : Int := 0x7fffffffffffffff

/-- The signed word of an integer, when it is within sixty-four bits. -/
def toInt64? (i : Int) : Option Int64 :=
  if minInt64 ≤ i ∧ i ≤ maxInt64 then some (Int64.ofInt i) else none

/-- A signed integer of sixty-four bits from its text. -/
def readInt64? (cs : List Char) : Option Int64 :=
  (readSigned? cs).bind toInt64?

/-- An unsigned integer of sixty-four bits from its text, which may start with a plus sign. -/
def readUInt64? (cs : List Char) : Option UInt64 :=
  let n? := match cs with
    | '+' :: ds => readDigits? ds
    | ds => readDigits? ds
  n?.bind fun n => if n < UInt64.size then some (UInt64.ofNat n) else none

/-- The word of an integer within the bounds keeps its value. -/
theorem toInt_of_toInt64? {i : Int} {w : Int64} (h : toInt64? i = some w) : w.toInt = i := by
  unfold toInt64? at h
  split at h
  · rename_i hi
    cases h
    simp only [minInt64, maxInt64] at hi
    exact Int64.toInt_ofInt_of_le (by omega) (by omega)
  · simp at h

/-- Every signed word is found again from its value. -/
theorem toInt64?_toInt (w : Int64) : toInt64? w.toInt = some w := by
  have lower := w.minValue_le_toInt
  have upper := w.toInt_lt
  have hb : minInt64 ≤ w.toInt ∧ w.toInt ≤ maxInt64 := by
    simp only [minInt64, maxInt64]
    have : Int64.minValue.toInt = -0x8000000000000000 := by decide
    omega
  simp [toInt64?, hb]

end PlaylistRules.Number
