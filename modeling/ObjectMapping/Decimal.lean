import ObjectMapping.Binary

/-! # Shortest decimals

The written form of a number of double precision is the shortest decimal that reads back as the same
number (`Binary.shortest`), found by testing the two neighbours of the number on the grids of one,
two, …, seventeen digits in exact arithmetic. -/

namespace ObjectMapping

/-- A decimal number: a sign and `digits * 10 ^ exponent`. -/
structure Decimal where
  /-- Whether the number stands below zero. -/
  negative : Bool
  /-- The digits, as a number. -/
  digits : Nat
  /-- The power of ten by which the digits count. -/
  exponent : Int
deriving DecidableEq

/-- The nearest magnitude of double precision, or none when the number is too large. -/
def Decimal.toBinary? (d : Decimal) : Option Binary :=
  let size : Int := (Nat.toDigits 10 d.digits).length + d.exponent
  if d.digits = 0 ∨ size < -330 then some ⟨0, -1074⟩
  else if 310 < size then none
  else
    let (up, down) := Binary.power 10 d.exponent
    Binary.ofRatio? (d.digits * up) down

/-- Whether `digits * 10 ^ place` reads back as the magnitude: it lies between the midpoints to the
two neighbours, ends included when the significand is even. -/
def Binary.readsBack (b : Binary) (digits : Nat) (place : Int) : Bool :=
  let below := if b.significand = leastFull ∧ -1074 < b.exponent then 1 else 2
  let (tenUp, tenDown) := Binary.power 10 place
  let (twoUp, twoDown) := Binary.power 2 (b.exponent - 2)
  let point := digits * tenUp * twoDown
  let low := (4 * b.significand - below) * twoUp * tenDown
  let high := (4 * b.significand + 2) * twoUp * tenDown
  if b.significand % 2 = 0 then low ≤ point && point ≤ high else low < point && point < high

/-- The magnitude divided by `10 ^ place`, as a numerator and a denominator. -/
def Binary.onGrid (b : Binary) (place : Int) : Nat × Nat :=
  let (tenUp, tenDown) := Binary.power 10 place
  let (twoUp, twoDown) := Binary.power 2 b.exponent
  (b.significand * twoUp * tenDown, tenUp * twoDown)

/-- The neighbour on a decimal grid that reads back, the nearer one if both do. -/
def Binary.neighbour? (b : Binary) (place : Int) : Option Nat :=
  let (num, den) := b.onGrid place
  let low := num / den
  match b.readsBack low place, b.readsBack (low + 1) place with
  | true, true =>
    let twice := 2 * (num % den)
    some (if twice < den then low else if den < twice then low + 1 else low + low % 2)
  | true, false => some low
  | false, true => some (low + 1)
  | false, false => none

/-- The number of decimal digits in front of the point, counted down below one. -/
def Binary.magnitude (b : Binary) : Int :=
  let (num, den) := b.onGrid 0
  let guess : Int := ((Nat.toDigits 10 num).length : Int) - (Nat.toDigits 10 den).length
  let (gNum, gDen) := b.onGrid guess
  if gNum < gDen then guess else guess + 1

/-- A decimal with the zeros at its end moved into the exponent. -/
def Decimal.trim (d : Decimal) : Decimal :=
  let zeros := ((Nat.toDigits 10 d.digits).reverse.takeWhile (· = '0')).length
  if d.digits = 0 then ⟨d.negative, 0, 0⟩
  else ⟨d.negative, d.digits / Nat.pow 10 zeros, d.exponent + zeros⟩

/-- **The shortest decimal** that reads back as the magnitude. -/
def Binary.shortest (negative : Bool) (b : Binary) : Decimal :=
  if b.significand = 0 then ⟨negative, 0, 0⟩
  else
    let places := (List.range 17).map fun (n : Nat) => b.magnitude - (n : Int) - 1
    match places.findSome? fun place => (b.neighbour? place).map fun c => (c, place) with
    | some (digits, place) => Decimal.trim ⟨negative, digits, place⟩
    | none => ⟨negative, 0, 0⟩

/-- The digits of a trimmed decimal, positional between `10 ^ -5` and `10 ^ 16`. Elsewhere one digit
stands in front of the point, and the exponent behind the digits has its sign, a plus too. -/
def Decimal.text (d : Decimal) : String :=
  let digits := Nat.toDigits 10 d.digits
  let point : Int := digits.length + d.exponent
  let zeros (n : Int) := List.replicate n.toNat '0'
  let body :=
    if d.digits = 0 then ['0', '.', '0']
    else if 0 ≤ d.exponent ∧ point ≤ 16 then digits ++ zeros d.exponent ++ ['.', '0']
    else if 0 < point ∧ point ≤ 16 then
      digits.take point.toNat ++ ['.'] ++ digits.drop point.toNat
    else if -5 < point ∧ point ≤ 0 then ['0', '.'] ++ zeros (-point) ++ digits
    else
      let rest := digits.drop 1
      digits.take 1 ++ (if rest.isEmpty then [] else '.' :: rest) ++
        (if 0 < point then ['e', '+'] else ['e']) ++ (toString (point - 1)).toList
  String.ofList (if d.negative then '-' :: body else body)

end ObjectMapping
