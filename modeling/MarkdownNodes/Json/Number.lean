import MarkdownNodes.ReadError

/-! JSON numbers: the grammar, and the value a number text denotes. A number with a point or an exponent,
or too large for 64 bits, is a floating point number: the leading digits that fit 64 unsigned bits,
scaled by a power of ten. A number beyond the range of floating point numbers is malformed. -/

namespace MarkdownNodes.Json

/-- A step that reads a value from the front of a text and leaves the rest. -/
abbrev Reader (α : Type) := List Char → Except ReadError (α × List Char)

namespace Number

/-- The parts of a number text: sign, digits before and after the point, and the signed exponent. -/
structure Parts where
  negative : Bool
  whole : List Char
  fraction : Option (List Char)
  exponent : Option (Bool × List Char)

/-- One or more digits. -/
def digits : Reader (List Char)
  | [] => .error .ended
  | c :: rest =>
      if c.isDigit then .ok (c :: rest.takeWhile Char.isDigit, rest.dropWhile Char.isDigit)
      else .error .malformed

/-- The digits before the point; a leading zero stands alone. -/
def wholeDigits (cs : List Char) : Except ReadError (List Char × List Char) := do
  let (whole, rest) ← digits cs
  if whole.head? == some '0' && whole != ['0'] then .error .malformed else .ok (whole, rest)

/-- The digits after a point, if there is one. -/
def fractionDigits : Reader (Option (List Char))
  | '.' :: rest => do
      let (fraction, rest) ← digits rest
      .ok (some fraction, rest)
  | rest => .ok (none, rest)

/-- The exponent, if there is one; the flag says that it is negative. -/
def exponentDigits : Reader (Option (Bool × List Char))
  | c :: rest =>
      if c == 'e' || c == 'E' then do
        let (negative, rest) := match rest with
          | '+' :: rest => (false, rest)
          | '-' :: rest => (true, rest)
          | rest => (false, rest)
        let (exponent, rest) ← digits rest
        .ok (some (negative, exponent), rest)
      else .ok (none, c :: rest)
  | [] => .ok (none, [])

/-- The digits of a natural number, appended to one read before. -/
def append (n : Nat) (ds : List Char) : Nat := ds.foldl (fun n d => 10 * n + (d.toNat - 48)) n

/-- Appends digits for as long as the result fits 64 bits; gives the result, how many digits were
taken, and how many were left. -/
def appendFitting (n : Nat) : List Char → Nat × Nat × Nat
  | [] => (n, 0, 0)
  | d :: ds =>
      let next := append n [d]
      if next < UInt64.size then
        let (result, taken, left) := appendFitting next ds
        (result, taken + 1, left)
      else (n, 0, ds.length + 1)

/-- Divides by a power of ten, at most by `10 ^ 308` at a time. -/
def shrink (x : Float) (e : Nat) : Float :=
  if e ≤ 308 then x / Float.ofScientific 1 false e
  else if x == 0 then x
  else shrink (x / Float.ofScientific 1 false 308) (e - 308)
termination_by e

/-- The floating point number for `significand * 10 ^ exponent`, unless it is out of range. -/
def scaled (significand : Nat) (exponent : Int) : Option Float :=
  let x := significand.toUInt64.toFloat
  if exponent < 0 then some (shrink x exponent.natAbs)
  else if 308 < exponent then (if x == 0 then some x else none)
  else
    let result := x * Float.ofScientific 1 false exponent.natAbs
    if result.isInf then none else some result

/-- The greatest exponent that is looked at. -/
def exponentLimit : Nat := 0x7FFFFFFF

/-- The floating point number of a number text, without its sign. An exponent beyond the limit makes
the number zero if it is negative or the digits are zero. -/
def Parts.magnitude (p : Parts) : Option Float :=
  let (significand, _, dropped) := appendFitting 0 p.whole
  let (significand, places, _) := appendFitting significand (p.fraction.getD [])
  let base : Int := dropped - places
  match p.exponent with
  | none => scaled significand base
  | some (negative, ds) =>
      let e := append 0 ds
      if e ≤ exponentLimit then scaled significand (if negative then base - e else base + e)
      else if significand == 0 || negative then some 0
      else none

/-- The value of a number text. Minus zero is no integer. -/
def Parts.value (p : Parts) : Option Json :=
  let n := append 0 p.whole
  let isInt := p.fraction.isNone && p.exponent.isNone
  if isInt && !p.negative && decide (n < UInt64.size) then some (.int n)
  else if isInt && p.negative && decide (0 < n) && decide (n ≤ UInt64.size / 2) then some (.int (-n))
  else p.magnitude.map fun x => .float (if p.negative then -x else x)

/-- A number, after its sign. -/
def unsigned (negative : Bool) (cs : List Char) : Except ReadError (Json × List Char) := do
  let (whole, rest) ← wholeDigits cs
  let (fraction, rest) ← fractionDigits rest
  let (exponent, rest) ← exponentDigits rest
  match ({ negative, whole, fraction, exponent } : Parts).value with
  | some value => .ok (value, rest)
  | none => .error .malformed

end MarkdownNodes.Json.Number
