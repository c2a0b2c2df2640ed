import ObjectMapping.Decimal
import ObjectMapping.Toml.Text
import ObjectMapping.Toml.Value

/-! # TOML numbers and moments

Integers are written in base ten with an optional sign and no leading zero, or without a sign in
base sixteen, eight or two after `0x`, `0o` or `0b`. Decimals have a fraction, an exponent or both.
Single underscores may stand between digits. Moments are dates, times of day, or a date and a time
with an optional offset; the day has to exist in its month. -/

namespace ObjectMapping.Toml

/-- Whether a character is a digit of base ten. -/
def isDigit (c : Char) : Bool := '0' ≤ c && c ≤ '9'

/-- The digits that follow a digit, where a single underscore may stand before each. -/
def moreDigits (allowed : Char → Bool) : Reader (List Char)
  | [] => some ([], [])
  | ['_'] => none
  | '_' :: c :: rest => if allowed c then cons c (moreDigits allowed rest) else none
  | c :: rest => if allowed c then cons c (moreDigits allowed rest) else some ([], c :: rest)

/-- One or more digits, where a single underscore may stand between two. -/
def digits (allowed : Char → Bool) : Reader (List Char)
  | c :: rest => if allowed c then cons c (moreDigits allowed rest) else none
  | [] => none

/-- A sign, if there is one: whether it is a minus. -/
def sign : List Char → Bool × List Char
  | '-' :: rest => (true, rest)
  | '+' :: rest => (false, rest)
  | cs => (false, cs)

/-- The digits of a whole number in base ten: a zero alone, or digits that begin with another. -/
def wholeDigits : Reader (List Char)
  | '0' :: rest => some (['0'], rest)
  | cs => digits isDigit cs

/-- The value of digits of base ten. -/
def decimalValue (ds : List Char) : Nat := ds.foldl (fun n c => 10 * n + (c.toNat - '0'.toNat)) 0

/-- An integer of 64 bits, if a number is one. -/
def int64? (n : Int) : Option Int :=
  if -0x8000000000000000 ≤ n ∧ n ≤ 0x7FFFFFFFFFFFFFFF then some n else none

/-- An integer in a base other than ten, after its mark. -/
def basedInteger (allowed : Char → Bool) (base : Nat) (cs : List Char) :
    Option (Value × List Char) := do
  let (ds, rest) ← digits allowed cs
  let value := ds.foldl (fun n c => base * n + (hexValue? [c]).getD 0) 0
  return (.integer (← int64? value), rest)

/-- An integer. -/
def integer : Reader Value
  | '0' :: 'x' :: rest => basedInteger (fun c => (hexValue? [c]).isSome) 16 rest
  | '0' :: 'o' :: rest => basedInteger (fun c => '0' ≤ c && c ≤ '7') 8 rest
  | '0' :: 'b' :: rest => basedInteger (fun c => c = '0' || c = '1') 2 rest
  | cs => do
    let (negative, cs) := sign cs
    let (ds, rest) ← wholeDigits cs
    let value : Int := decimalValue ds
    return (.integer (← int64? (if negative then -value else value)), rest)

/-- The exponent of a decimal. -/
def exponent : Reader Int
  | c :: cs =>
    if c = 'e' ∨ c = 'E' then do
      let (negative, cs) := sign cs
      let (ds, rest) ← digits isDigit cs
      let value : Int := decimalValue ds
      return (if negative then -value else value, rest)
    else none
  | [] => none

/-- A decimal, given by its value; one too large to hold is refused unless it is negative. -/
def decimalOf (written : List Char) (negative : Bool) (whole fraction : List Char) (power : Int)
    (rest : List Char) : Option (Value × List Char) :=
  let d : Decimal := ⟨negative, decimalValue (whole ++ fraction), power - fraction.length⟩
  if d.toBinary?.isNone && !negative then none
  else some (.decimal (String.ofList (written.take (written.length - rest.length))), rest)

/-- A decimal in digits. -/
def digitDecimal (cs : List Char) : Option (Value × List Char) := do
  let (negative, afterSign) := sign cs
  let (whole, afterWhole) ← wholeDigits afterSign
  match afterWhole with
  | '.' :: afterPoint =>
    let (fraction, afterFraction) ← digits isDigit afterPoint
    match afterFraction with
    | 'e' :: _ | 'E' :: _ =>
      let (power, rest) ← exponent afterFraction
      decimalOf cs negative whole fraction power rest
    | rest => decimalOf cs negative whole fraction 0 rest
  | _ =>
    let (power, rest) ← exponent afterWhole
    decimalOf cs negative whole [] power rest

/-- One of the decimals in words: infinity or no number, with an optional sign. -/
def wordDecimal (cs : List Char) : Option (Value × List Char) :=
  match (sign cs).2 with
  | 'i' :: 'n' :: 'f' :: rest => some (.decimal "inf", rest)
  | 'n' :: 'a' :: 'n' :: rest => some (.decimal "nan", rest)
  | _ => none

/-- A number of exactly the given count of digits. -/
def fixedDigits (count : Nat) (cs : List Char) : Option (Nat × List Char) :=
  let ds := cs.take count
  if ds.length = count ∧ ds.all isDigit then some (decimalValue ds, cs.drop count) else none

/-- The text after an expected character. -/
def expect (c : Char) : List Char → Option (List Char)
  | d :: rest => if c = d then some rest else none
  | [] => none

/-- The number of days of a month. -/
def daysIn (year month : Nat) : Nat :=
  if month = 2 then
    if year % 4 = 0 ∧ (year % 100 ≠ 0 ∨ year % 400 = 0) then 29 else 28
  else if month = 4 ∨ month = 6 ∨ month = 9 ∨ month = 11 then 30
  else 31

/-- The text after a date. -/
def afterDate (cs : List Char) : Option (List Char) := do
  let (year, cs) ← fixedDigits 4 cs
  let (month, cs) ← fixedDigits 2 (← expect '-' cs)
  let (day, cs) ← fixedDigits 2 (← expect '-' cs)
  if 1 ≤ month ∧ month ≤ 12 ∧ 1 ≤ day ∧ day ≤ daysIn year month then some cs else none

/-- The text after a fraction of a second, if there is one. -/
def afterFraction : List Char → List Char
  | '.' :: c :: rest => if isDigit c then rest.dropWhile isDigit else '.' :: c :: rest
  | cs => cs

/-- The text after hours and minutes. -/
def afterMinutes (cs : List Char) : Option (List Char) := do
  let (hour, cs) ← fixedDigits 2 cs
  let (minute, cs) ← fixedDigits 2 (← expect ':' cs)
  if hour ≤ 23 ∧ minute ≤ 59 then some cs else none

/-- The text after a time of day. -/
def afterTime (cs : List Char) : Option (List Char) := do
  let cs ← afterMinutes cs
  let (second, cs) ← fixedDigits 2 (← expect ':' cs)
  if second ≤ 60 then some (afterFraction cs) else none

/-- The text after an offset, if there is one. -/
def afterOffset (cs : List Char) : List Char :=
  match cs with
  | 'Z' :: rest | 'z' :: rest => rest
  | '+' :: rest | '-' :: rest => (afterMinutes rest).getD cs
  | _ => cs

/-- The text after a moment. -/
def afterMoment (cs : List Char) : Option (List Char) :=
  match afterDate cs with
  | some rest =>
    match rest with
    | 'T' :: time | 't' :: time | ' ' :: time => some (((afterTime time).map afterOffset).getD rest)
    | _ => some rest
  | none => afterTime cs

/-- A moment. -/
def moment (cs : List Char) : Option (Value × List Char) :=
  (afterMoment cs).map fun rest =>
    (.moment (String.ofList (cs.take (cs.length - rest.length))), rest)

/-- A truth value. -/
def truth : Reader Value
  | 't' :: 'r' :: 'u' :: 'e' :: rest => some (.boolean true, rest)
  | 'f' :: 'a' :: 'l' :: 's' :: 'e' :: rest => some (.boolean false, rest)
  | _ => none

/-- A value that holds no others. -/
def scalar (cs : List Char) : Option (Value × List Char) :=
  match cs with
  | '"' :: _ | '\'' :: _ => (anyText cs).map fun (t, rest) => (.text t, rest)
  | _ => moment cs <|> digitDecimal cs <|> wordDecimal cs <|> integer cs <|> truth cs

end ObjectMapping.Toml
