import ObjectMapping.Json

/-! # Reading JSON text

The value that a JSON text writes (`Json.read?`). A number that is written without fraction and
exponent and fits into 64 bits is an integer; any other number is held as the shortest decimal of
double precision, and so is a negative zero. Such a number is computed in two roundings: the digits
that fit into 64 bits, and these times a power of ten. It may therefore be a neighbour of the number
of double precision that is nearest to the text. -/

namespace ObjectMapping.Json

/-- The characters from the first that is no blank of JSON on. -/
def skipBlanks (cs : List Char) : List Char :=
  cs.dropWhile fun c => c = ' ' || c = '\t' || c = '\n' || c = '\r'

/-! ### Strings -/

/-- What stands before the closing quote, escapes included, and what comes after it. -/
def splitString : List Char → Option (List Char × List Char)
  | [] => none
  | '"' :: rest => some ([], rest)
  | ['\\'] => none
  | '\\' :: c :: rest => (splitString rest).map fun (body, after) => ('\\' :: c :: body, after)
  | c :: rest => (splitString rest).map fun (body, after) => (c :: body, after)

/-- The value of a hexadecimal digit. -/
def hexDigit? (c : Char) : Option Nat :=
  if '0' ≤ c ∧ c ≤ '9' then some (c.toNat - '0'.toNat)
  else if 'a' ≤ c ∧ c ≤ 'f' then some (c.toNat - 'a'.toNat + 10)
  else if 'A' ≤ c ∧ c ≤ 'F' then some (c.toNat - 'A'.toNat + 10)
  else none

/-- The code of the character that a letter after a backslash stands for. -/
def escapeCode? (c : Char) : Option Nat :=
  match c with
  | '"' | '\\' | '/' => some c.toNat
  | 'b' => some 0x08
  | 'f' => some 0x0C
  | 'n' => some 0x0A
  | 'r' => some 0x0D
  | 't' => some 0x09
  | _ => none

/-- The codes that the inside of a string writes; a control character has to be escaped. -/
def codes? : List Char → Option (List Nat)
  | [] => some []
  | '\\' :: 'u' :: a :: b :: c :: d :: rest => do
    let digits ← [a, b, c, d].mapM hexDigit?
    return digits.foldl (fun n digit => 16 * n + digit) 0 :: (← codes? rest)
  | '\\' :: c :: rest => do return (← escapeCode? c) :: (← codes? rest)
  | c :: rest => if c.toNat < 0x20 then none else do return c.toNat :: (← codes? rest)

/-- The characters of codes, where a pair of surrogates stands for one character and a surrogate
without its partner for none. -/
def ofCodes? : List Nat → Option (List Char)
  | [] => some []
  | [n] => if n.isValidChar then some [Char.ofNat n] else none
  | n :: m :: rest =>
    if n.isValidChar then do return Char.ofNat n :: (← ofCodes? (m :: rest))
    else if n < 0xDC00 ∧ 0xDC00 ≤ m ∧ m < 0xE000 then do
      return Char.ofNat (0x10000 + (n - 0xD800) * 0x400 + (m - 0xDC00)) :: (← ofCodes? rest)
    else none

/-- A string after its opening quote. -/
def string? (cs : List Char) : Option (String × List Char) := do
  let (body, rest) ← splitString cs
  return (String.ofList (← ofCodes? (← codes? body)), rest)

/-! ### Numbers -/

/-- The number that digits write. -/
def digitsValue (cs : List Char) : Nat :=
  cs.foldl (fun n c => 10 * n + (c.toNat - '0'.toNat)) 0

/-- Whether a sign is there that says minus, and what comes after it. -/
def minus : List Char → Bool × List Char
  | '-' :: rest => (true, rest)
  | cs => (false, cs)

/-- Digits at the start of a text, at least one, and what comes after them. -/
def digits? (cs : List Char) : Option (List Char × List Char) :=
  let digits := cs.takeWhile Char.isDigit
  if digits = [] then none else some (digits, cs.dropWhile Char.isDigit)

/-- The digits after the point, if there is one. -/
def fraction? : List Char → Option (Option (List Char) × List Char)
  | '.' :: rest => (digits? rest).map fun (digits, rest) => (some digits, rest)
  | cs => some (none, cs)

/-- The exponent, if there is one. -/
def exponent? (cs : List Char) : Option (Option Int × List Char) :=
  match cs with
  | 'e' :: rest | 'E' :: rest => do
    let (negative, rest) :=
      match rest with
      | '+' :: rest => (false, rest)
      | rest => minus rest
    let (digits, rest) ← digits? rest
    let n : Int := digitsValue digits
    return (some (if negative then -n else n), rest)
  | cs => some (none, cs)

/-- The greatest significand, 64 bits that are all ones. -/
def greatestSignificand : Nat := 0xFFFFFFFFFFFFFFFF

/-- A significand with digits put behind it as long as they fit, and the digits from the first one
that does not on. -/
def extendSignificand (significand : Nat) : List Char → Nat × List Char
  | [] => (significand, [])
  | c :: cs =>
    let next := 10 * significand + (c.toNat - '0'.toNat)
    if next ≤ greatestSignificand then extendSignificand next cs else (significand, c :: cs)

/-- The number with the given digits in front of the point and behind it, times a power of ten; none
when it is too large. A digit that does not fit counts as a zero. -/
def real? (negative : Bool) (whole fraction : List Char) (power : Int) : Option Decimal := do
  let (significand, unread) := extendSignificand 0 whole
  let (significand, unreadFraction) := extendSignificand significand fraction
  let places : Int := fraction.length - unreadFraction.length
  let b ← (← Binary.ofRatio? significand 1).timesTen? (power + unread.length - places)
  return b.shortest negative

example : real? false ['9'] ['5'] 30 = some ⟨false, 9499999999999999, 15⟩ := by decide +kernel

/-- A number, without needless zeros in front. -/
def number? (cs : List Char) : Option (Json × List Char) := do
  let (negative, cs) := minus cs
  let (whole, cs) ← digits? cs
  if whole.head? = some '0' ∧ whole ≠ ['0'] then none
  let (fraction, cs) ← fraction? cs
  let (exponent, cs) ← exponent? cs
  let value := digitsValue whole
  let n : Int := if negative then -value else value
  let fits := -0x8000000000000000 ≤ n ∧ n ≤ 0xFFFFFFFFFFFFFFFF
  if fraction = none ∧ exponent = none ∧ ¬(negative ∧ value = 0) ∧ fits then
    return (.int n, cs)
  else
    return (.real (← real? negative whole (fraction.getD []) (exponent.getD 0)), cs)

/-! ### Values -/

mutual

/-- A value. The `room` bounds the number of values inside one another or in one list, and every
value has a character of its own. -/
def value? : (room : Nat) → List Char → Option (Json × List Char)
  | 0, _ => none
  | room + 1, cs =>
    match skipBlanks cs with
    | 'n' :: 'u' :: 'l' :: 'l' :: rest => some (.null, rest)
    | 't' :: 'r' :: 'u' :: 'e' :: rest => some (.bool true, rest)
    | 'f' :: 'a' :: 'l' :: 's' :: 'e' :: rest => some (.bool false, rest)
    | '"' :: rest => (string? rest).map fun (s, rest) => (.str s, rest)
    | '[' :: rest =>
      match skipBlanks rest with
      | ']' :: rest => some (.arr [], rest)
      | rest => (itemsFrom? room rest).map fun (items, rest) => (.arr items, rest)
    | '\x7b' :: rest =>
      match skipBlanks rest with
      | '\x7d' :: rest => some (.obj [], rest)
      | rest => (membersFrom? room rest).map fun (members, rest) => (object members, rest)
    | cs => number? cs

/-- The items of a list from one item on. -/
def itemsFrom? : (room : Nat) → List Char → Option (List Json × List Char)
  | 0, _ => none
  | room + 1, cs => do
    let (j, rest) ← value? room cs
    match skipBlanks rest with
    | ',' :: rest =>
      let (more, rest) ← itemsFrom? room rest
      return (j :: more, rest)
    | ']' :: rest => return ([j], rest)
    | _ => none

/-- The members of an object from one member on. -/
def membersFrom? : (room : Nat) → List Char → Option (List (String × Json) × List Char)
  | 0, _ => none
  | room + 1, cs => do
    match skipBlanks cs with
    | '"' :: rest =>
      let (name, rest) ← string? rest
      match skipBlanks rest with
      | ':' :: rest =>
        let (j, rest) ← value? room rest
        match skipBlanks rest with
        | ',' :: rest =>
          let (more, rest) ← membersFrom? room rest
          return ((name, j) :: more, rest)
        | '\x7d' :: rest => return ([(name, j)], rest)
        | _ => none
      | _ => none
    | _ => none

end

/-- **The value that a text writes.** -/
def read? (text : String) : Option Json := do
  let cs := text.toList
  let (j, rest) ← value? (2 * cs.length + 2) cs
  if skipBlanks rest = [] then some j else none

end ObjectMapping.Json
