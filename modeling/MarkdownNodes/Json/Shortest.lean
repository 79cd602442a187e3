/-! The shortest decimal text of a binary floating point number. Digits are selected in exact integer
arithmetic: of the decimals that round to the number, one with the fewest digits, and of those the
nearest. How the digits are laid out is a separate step. -/

namespace MarkdownNodes.Json.Shortest

/-- A positive finite number `m * 2 ^ q`. -/
structure Binary where
  m : Nat
  q : Int
  /-- The gap to the number below is half the gap to the number above. -/
  narrowBelow : Bool

/-- The magnitude that a bit pattern stands for. -/
def Binary.ofBits (bits : UInt64) : Binary :=
  let e := ((bits >>> 52) &&& 0x7FF).toNat
  let f := (bits &&& 0xFFFFFFFFFFFFF).toNat
  if e == 0 then ⟨f, -1074, false⟩ else ⟨0x10000000000000 + f, (e : Int) - 1075, f == 0 && decide (1 < e)⟩

/-- The decimal number `digits * 10 ^ exponent`. -/
structure Decimal where
  digits : Nat
  exponent : Int
  deriving DecidableEq

/-- Compares `a * 10 ^ i` with `b * 2 ^ j`. -/
def compareScaled (a : Nat) (i : Int) (b : Nat) (j : Int) : Ordering :=
  compare (a * Nat.pow 10 i.toNat * Nat.pow 2 (-j).toNat) (b * Nat.pow 2 j.toNat * Nat.pow 10 (-i).toNat)

/-- The decimal lies among the reals that round to the number: between the halfway points to its
neighbours, which belong to it exactly when `m` is even. -/
def Binary.readsBack (x : Binary) (d : Decimal) : Bool :=
  let below := if x.narrowBelow then 4 * x.m - 1 else 4 * x.m - 2
  let low := compareScaled d.digits d.exponent below (x.q - 2)
  let high := compareScaled d.digits d.exponent (4 * x.m + 2) (x.q - 2)
  let ends := x.m % 2 == 0
  (low == .gt || (ends && low == .eq)) && (high == .lt || (ends && high == .eq))

/-- The least `k` with `m * 2 ^ q < 10 ^ k`, found from the binary logarithm in at most two steps up. -/
def Binary.scale (x : Binary) : Int :=
  let guess := ((x.m.log2 : Int) + x.q) * 30103 / 100000
  let above (k : Int) : Bool := compareScaled 1 k x.m x.q == .gt
  if above guess then guess else if above (guess + 1) then guess + 1 else guess + 2

/-- The number in units of `10 ^ e`, as a quotient of naturals. -/
def Binary.over (x : Binary) (e : Int) : Nat × Nat :=
  (x.m * Nat.pow 2 x.q.toNat * Nat.pow 10 (-e).toNat, Nat.pow 2 (-x.q).toNat * Nat.pow 10 e.toNat)

/-- Of the two multiples of `10 ^ e` next to the number, the one that reads back to it; if both do,
the nearer, and on a tie the even one. -/
def Binary.onGrid (x : Binary) (e : Int) : Option Decimal :=
  let (num, den) := x.over e
  let low := num / den
  match x.readsBack ⟨low, e⟩, x.readsBack ⟨low + 1, e⟩ with
  | false, false => none
  | true, false => some ⟨low, e⟩
  | false, true => some ⟨low + 1, e⟩
  | true, true =>
      match compare (2 * (num % den)) den with
      | .lt => some ⟨low, e⟩
      | .gt => some ⟨low + 1, e⟩
      | .eq => some (if low % 2 == 0 then ⟨low, e⟩ else ⟨low + 1, e⟩)

/-- Moves trailing zeros of the digits into the exponent. -/
def Decimal.strip : Nat → Decimal → Decimal
  | 0, d => d
  | fuel + 1, d =>
      if d.digits % 10 == 0 then strip fuel ⟨d.digits / 10, d.exponent + 1⟩ else d

/-- The shortest decimal of the number: the grids of one to seventeen digits are tried in turn. -/
def Binary.shortest (x : Binary) : Decimal :=
  let k := x.scale
  let found := (List.range 17).findSome? fun (n : Nat) => x.onGrid (k - (n + 1))
  let (num, den) := x.over (k - 17)
  (found.getD ⟨num / den, k - 17⟩).strip 17

/-- Digits are written positionally if the leading one stands for 10^-5 up to 10^15, always with a
decimal point. Any other number has one digit in front, a point only if more digits follow, and a
signed exponent. -/
def Decimal.text (d : Decimal) : String :=
  let digits := Nat.toDigits 10 d.digits
  let zeros (n : Int) : List Char := List.replicate n.toNat '0'
  let point : Int := digits.length + d.exponent
  let exponent := (if 0 < point then ['+'] else []) ++ (toString (point - 1)).toList
  String.ofList <|
    if 0 ≤ d.exponent ∧ point ≤ 16 then digits ++ zeros d.exponent ++ ['.', '0']
    else if 0 < point ∧ point ≤ 16 then digits.take point.toNat ++ '.' :: digits.drop point.toNat
    else if -5 < point ∧ point ≤ 0 then ['0', '.'] ++ zeros (-point) ++ digits
    else match digits with
      | [digit] => digit :: 'e' :: exponent
      | digit :: more => digit :: '.' :: more ++ 'e' :: exponent
      | [] => []

/-- The text of a finite number; the sign of zero shows. -/
def text (x : Float) : String :=
  let bits := x.toBits
  let magnitude := Binary.ofBits bits
  let body := if magnitude.m == 0 then "0.0" else magnitude.shortest.text
  if bits >>> 63 == 1 then "-" ++ body else body

end MarkdownNodes.Json.Shortest
