/-! # Double precision

Numbers of double precision by magnitude: 53 significant bits, smallest exponent `-1074`. A quotient
of integers is rounded to the nearest of them, a tie to the even significand (`Binary.ofRatio?`). A
product, a quotient or a power of ten is the exact one, rounded. So every step of a computation
rounds, and a result in two steps may differ from the one that is rounded once. -/

namespace ObjectMapping

/-- A magnitude of double precision, `significand * 2 ^ exponent`. -/
structure Binary where
  /-- The significant bits, as a number below `2 ^ 53`. -/
  significand : Nat
  /-- The power of two by which the bits count. -/
  exponent : Int
deriving DecidableEq

/-- The quotient rounded to the nearest integer, a tie to the even neighbour. -/
def Binary.roundDiv (num den : Nat) : Nat :=
  let quo := num / den
  let rem := num % den
  if 2 * rem < den then quo else if den < 2 * rem then quo + 1 else quo + quo % 2

/-- `base ^ exponent` as a numerator and a denominator. -/
def Binary.power (base : Nat) (exponent : Int) : Nat × Nat :=
  (base.pow exponent.toNat, base.pow (-exponent).toNat)

/-- The least significand with all 53 bits in use, `2 ^ 52`. -/
def Binary.leastFull : Nat := 0x10000000000000

/-- The quotient `num / den` rounded to double precision with the given least bit. -/
def Binary.roundAt (num den : Nat) (least : Int) : Binary :=
  let (up, down) := Binary.power 2 least
  let bits := Binary.roundDiv (num * down) (den * up)
  if bits = 2 * leastFull then ⟨leastFull, least + 1⟩ else ⟨bits, least⟩

/-- **The nearest magnitude** to the quotient `num / den`, or none when the number is too large. -/
def Binary.ofRatio? (num den : Nat) : Option Binary :=
  if num = 0 then some ⟨0, -1074⟩
  else
    let guess : Int := (Nat.log2 num : Int) - Nat.log2 den - 52
    let (up, down) := Binary.power 2 guess
    let least := if num * down < den * up * Binary.leastFull then guess - 1 else guess
    let rounded := Binary.roundAt num den (max least (-1074))
    if 971 < rounded.exponent then none else some rounded

/-- The magnitude as a numerator and a denominator. -/
def Binary.ratio (b : Binary) : Nat × Nat :=
  let (up, down) := Binary.power 2 b.exponent
  (b.significand * up, down)

/-- The product, rounded. -/
def Binary.times? (b c : Binary) : Option Binary :=
  Binary.ofRatio? (b.ratio.1 * c.ratio.1) (b.ratio.2 * c.ratio.2)

/-- The quotient, rounded. -/
def Binary.over? (b c : Binary) : Option Binary :=
  Binary.ofRatio? (b.ratio.1 * c.ratio.2) (b.ratio.2 * c.ratio.1)

/-! ### Powers of ten -/

/-- The largest power of ten of double precision, as an exponent. -/
def Binary.largestTen : Nat := 308

/-- A power of ten, rounded. -/
def Binary.ten? (power : Nat) : Option Binary := Binary.ofRatio? (Nat.pow 10 power) 1

/-- The magnitude divided by a power of ten. A power that is too large is divided by in steps of the
largest one. -/
def Binary.overTen? (b : Binary) (power : Nat) : Option Binary :=
  if power ≤ Binary.largestTen then do b.over? (← Binary.ten? power)
  else if b.significand = 0 then some b
  else do
    let b ← b.over? (← Binary.ten? Binary.largestTen)
    b.overTen? (power - Binary.largestTen)
termination_by power
decreasing_by
  have : 0 < Binary.largestTen := by decide
  omega

/-- The magnitude times a power of ten, or none when the number is too large. -/
def Binary.timesTen? (b : Binary) (power : Int) : Option Binary :=
  if b.significand = 0 then some b
  else if power < 0 then b.overTen? (-power).toNat
  else if Binary.largestTen < power then none
  else do b.times? (← Binary.ten? power.toNat)

end ObjectMapping
