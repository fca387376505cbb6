import FormatScan.Word

/-!
# Numbers of double precision as decimal text

A double is written with the fewest digits that read back as the same double,
and of those with the digits nearest to it. Positional notation serves up to
sixteen places in front of the point and down to four zeros behind it, and an
exponent with its sign serves beyond. A decimal text is read through the leading digits that
fit a word of 64 bits, scaled by one power of ten.
-/

namespace FormatScan.Real

/-- A nonnegative decimal number, `digits * 10 ^ exponent`. -/
structure Decimal where
  /-- The digits as a number. -/
  digits : Nat
  /-- The power of ten. -/
  exponent : Int
deriving DecidableEq, Repr

/-- The magnitude of a finite double, `mantissa * 2 ^ exponent`. -/
structure Binary where
  /-- The mantissa, below twice the number of fractions. -/
  mantissa : Nat
  /-- The power of two. -/
  exponent : Int
  /-- The next smaller double is only half as far away as the next larger. -/
  lowerNear : Bool
deriving DecidableEq, Repr

/-- The number of fractions that share an exponent. -/
def fractionSize : Nat := 4503599627370496

/-- The bit that is set in a negative double. -/
def signBit : UInt64 := 9223372036854775808

/-- The magnitude that the bits of a finite double stand for. -/
def Binary.ofBits (bits : UInt64) : Binary :=
  let fraction : Nat := bits.toNat % fractionSize
  let biased : Nat := bits.toNat / fractionSize % 2048
  if biased == 0 then ⟨fraction, -1074, false⟩
  else ⟨fractionSize + fraction, (biased : Int) - 1075, fraction == 0 && 1 < biased⟩

/-- A nonnegative fraction. -/
structure Ratio where
  /-- The numerator. -/
  num : Nat
  /-- The denominator, never zero where it is used. -/
  den : Nat

/-- The fraction `n * base ^ exponent`. -/
def Ratio.scaled (n base : Nat) (exponent : Int) : Ratio :=
  if 0 ≤ exponent then ⟨n * Nat.pow base exponent.toNat, 1⟩
  else ⟨n, Nat.pow base (-exponent).toNat⟩

/-- Order of fractions. -/
def Ratio.le (a b : Ratio) : Bool := decide (a.num * b.den ≤ b.num * a.den)

/-- Strict order of fractions. -/
def Ratio.lt (a b : Ratio) : Bool := decide (a.num * b.den < b.num * a.den)

/-- Whether a decimal number reads back as a double: it lies between the points
half-way to the neighbours, which themselves read back as the even one of two
doubles. -/
def Binary.readsAs (x : Binary) (d : Decimal) : Bool :=
  let value := Ratio.scaled d.digits 10 d.exponent
  let low := Ratio.scaled (4 * x.mantissa - (if x.lowerNear then 1 else 2)) 2 (x.exponent - 2)
  let high := Ratio.scaled (4 * x.mantissa + 2) 2 (x.exponent - 2)
  if x.mantissa % 2 == 0 then low.le value && value.le high
  else low.lt value && value.lt high

/-- The power of ten of the leading digit of a positive fraction. -/
def Ratio.magnitude (r : Ratio) : Int :=
  if r.den ≤ r.num then ((toString (r.num / r.den)).length : Int) - 1
  else
    let shift := ((List.range 400).find? fun k => r.den ≤ r.num * Nat.pow 10 k).getD 400
    Int.negOfNat shift

/-- The two decimal numbers with `count` digits around a double. -/
def Binary.around (x : Binary) (count : Nat) : Decimal × Decimal :=
  let value := Ratio.scaled x.mantissa 2 x.exponent
  let unit := value.magnitude - ((count : Int) - 1)
  let grid := Ratio.scaled 1 10 unit
  let below := value.num * grid.den / (value.den * grid.num)
  (⟨below, unit⟩, ⟨below + 1, unit⟩)

/-- Whether the first of two decimal numbers around a double is the nearer one.
Of two equally near ones it is the one with an even last digit. -/
def Binary.prefersFirst (x : Binary) (pair : Decimal × Decimal) : Bool :=
  let value := Ratio.scaled (2 * x.mantissa) 2 x.exponent
  let middle := Ratio.scaled (pair.1.digits + pair.2.digits) 10 pair.1.exponent
  if value.lt middle then true
  else if middle.lt value then false
  else pair.1.digits % 2 == 0

/-- The shortest decimal number that reads back as a positive double. -/
def Binary.shortest (x : Binary) : Decimal :=
  let found := (List.range 17).findSome? fun n =>
    let pair := x.around (n + 1)
    match x.readsAs pair.1, x.readsAs pair.2 with
    | true, true => some (if x.prefersFirst pair then pair.1 else pair.2)
    | true, false => some pair.1
    | false, true => some pair.2
    | false, false => none
  found.getD (x.around 17).1

/-- A decimal number without zeros at its end. -/
def Decimal.trim (d : Decimal) : Decimal :=
  let digits := (toString d.digits).toList
  let zeros := (digits.reverse.takeWhile (· == '0')).length
  if d.digits == 0 then d else ⟨d.digits / Nat.pow 10 zeros, d.exponent + zeros⟩

/-- A decimal number as text. -/
def Decimal.render (d : Decimal) : List Char :=
  let digits := (toString d.digits).toList
  let point : Int := digits.length + d.exponent
  if 0 ≤ d.exponent && point ≤ 16 then
    digits ++ List.replicate d.exponent.toNat '0' ++ ['.', '0']
  else if 0 < point && point ≤ 16 then
    digits.take point.toNat ++ ['.'] ++ digits.drop point.toNat
  else if -5 < point && point ≤ 0 then
    ['0', '.'] ++ List.replicate (-point).toNat '0' ++ digits
  else
    let sign := if point ≤ 0 then '-' else '+'
    let exponent := (toString (point - 1).natAbs).toList
    let fraction := if digits.length == 1 then [] else '.' :: digits.drop 1
    digits.take 1 ++ fraction ++ 'e' :: sign :: exponent

/-- The text of a finite double, given by its bits. -/
def render (bits : UInt64) : List Char :=
  let sign := if signBit ≤ bits then ['-'] else []
  let x := Binary.ofBits bits
  if x.mantissa == 0 then sign ++ ['0', '.', '0'] else sign ++ x.shortest.trim.render

/-- A power of ten, up to the largest double that is one. -/
def powerOfTen (exponent : Nat) : Float := Float.ofScientific 1 false exponent

/-- Scale a double by a power of ten, in steps that stay in range. There is no
result when the scaled number is too large. -/
def scale? (x : Float) (exponent : Int) : Option Float :=
  if h : exponent < -308 then
    if x == 0 then some x else scale? (x / powerOfTen 308) (exponent + 308)
  else if exponent < 0 then some (x / powerOfTen (-exponent).toNat)
  else if exponent ≤ 308 then
    let scaled := x * powerOfTen exponent.toNat
    if scaled.isInf then none else some scaled
  else if x == 0 then some x
  else none
termination_by (-exponent).toNat
decreasing_by omega

/-- Digits gathered into a word of 64 bits. -/
structure Gathered where
  /-- The digits as a number. -/
  value : Nat
  /-- How many of the digits went in. -/
  count : Nat
  /-- Some digit did not fit, so that the rest is left out. -/
  full : Bool

/-- Gather digits into a word as long as they fit. -/
def gather (start : Nat) (digits : List Nat) : Gathered :=
  digits.foldl (fun state digit =>
    if state.full || Word.largest < state.value * 10 + digit then { state with full := true }
    else ⟨state.value * 10 + digit, state.count + 1, false⟩) ⟨start, 0, false⟩

/-- The bits of the double that a decimal text stands for: digits in front of
the point, digits behind it, and a power of ten. Digits that do not fit a word
count in front of the point as zeros and are left out behind it. -/
def ofDigits? (negative : Bool) (whole fraction : List Nat) (exponent : Int) : Option UInt64 :=
  let front := gather 0 whole
  let back := gather front.value fraction
  let dropped : Int := whole.length - front.count
  let power := exponent + dropped - back.count
  let scaled := if back.value == 0 then some 0 else scale? (UInt64.ofNat back.value).toFloat power
  scaled.map fun x => (if negative then -x else x).toBits

end FormatScan.Real
