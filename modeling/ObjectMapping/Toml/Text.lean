import ObjectMapping.Toml.Layout

/-! # TOML texts

A text is written in one of four ways: between double quotes with escapes or between single quotes
as it stands, and each on one line or, with the quotes tripled, on several. In the latter a line end
right after the opening quotes does not count, every line end reads as a line feed, and up to two
quotes may stand in front of the closing ones. -/

namespace ObjectMapping.Toml

/-- The value of hexadecimal digits. -/
def hexValue? (digits : List Char) : Option Nat :=
  digits.foldlM (fun value c =>
    if '0' ≤ c ∧ c ≤ '9' then some (16 * value + (c.toNat - '0'.toNat))
    else if 'a' ≤ c ∧ c ≤ 'f' then some (16 * value + (c.toNat - 'a'.toNat + 10))
    else if 'A' ≤ c ∧ c ≤ 'F' then some (16 * value + (c.toNat - 'A'.toNat + 10))
    else none) 0

/-- The character with a code point in hexadecimal digits. -/
def codePoint? (digits : List Char) : Option Char := do
  let n ← hexValue? digits
  if n.isValidChar then some (Char.ofNat n) else none

/-- The character that a letter stands for after a backslash. -/
def escapeLetter? : Char → Option Char
  | 'b' => some '\x08'
  | 't' => some '\t'
  | 'n' => some '\n'
  | 'f' => some '\x0c'
  | 'r' => some '\r'
  | '"' => some '"'
  | '\\' => some '\\'
  | _ => none

/-- The reader's answer with one more character in front. -/
def cons (c : Char) : Option (List Char × List Char) → Option (List Char × List Char)
  | some (text, rest) => some (c :: text, rest)
  | none => none

/-- A text on one line between double quotes, after the opening one. -/
def basicLine : Reader (List Char)
  | '"' :: rest => some ([], rest)
  | '\\' :: 'u' :: a :: b :: c :: d :: rest =>
    (codePoint? [a, b, c, d]).bind fun x => cons x (basicLine rest)
  | '\\' :: 'U' :: a :: b :: c :: d :: e :: f :: g :: h :: rest =>
    (codePoint? [a, b, c, d, e, f, g, h]).bind fun x => cons x (basicLine rest)
  | '\\' :: c :: rest => (escapeLetter? c).bind fun x => cons x (basicLine rest)
  | c :: rest => if isPrintable c && c ≠ '\\' then cons c (basicLine rest) else none
  | [] => none

/-- A text on one line between single quotes, after the opening one. -/
def literalLine : Reader (List Char)
  | '\'' :: rest => some ([], rest)
  | c :: rest => if isPrintable c then cons c (literalLine rest) else none
  | [] => none

/-- Whether only spaces stand before the next line end. -/
def atLineEnd (cs : List Char) : Bool :=
  match skipSpaces cs with
  | '\n' :: _ => true
  | '\r' :: '\n' :: _ => true
  | _ => false

/-- A text on several lines between tripled double quotes, after the opening ones. The flag says
whether spaces and line ends are being skipped, as they are after a backslash at the end of a
line. -/
def basicLines : (skipping : Bool) → Reader (List Char)
  | true, ' ' :: rest => basicLines true rest
  | true, '\t' :: rest => basicLines true rest
  | true, '\n' :: rest => basicLines true rest
  | true, '\r' :: '\n' :: rest => basicLines true rest
  | _, '"' :: '"' :: '"' :: '"' :: '"' :: rest => some (['"', '"'], rest)
  | _, '"' :: '"' :: '"' :: '"' :: rest => some (['"'], rest)
  | _, '"' :: '"' :: '"' :: rest => some ([], rest)
  | _, '\n' :: rest => cons '\n' (basicLines false rest)
  | _, '\r' :: '\n' :: rest => cons '\n' (basicLines false rest)
  | _, '\\' :: 'u' :: a :: b :: c :: d :: rest =>
    (codePoint? [a, b, c, d]).bind fun x => cons x (basicLines false rest)
  | _, '\\' :: 'U' :: a :: b :: c :: d :: e :: f :: g :: h :: rest =>
    (codePoint? [a, b, c, d, e, f, g, h]).bind fun x => cons x (basicLines false rest)
  | _, '\\' :: c :: rest =>
    if atLineEnd (c :: rest) then basicLines true (c :: rest)
    else (escapeLetter? c).bind fun x => cons x (basicLines false rest)
  | _, c :: rest => if isPrintable c && c ≠ '\\' then cons c (basicLines false rest) else none
  | _, [] => none

/-- A text on several lines between tripled single quotes, after the opening ones. -/
def literalLines : Reader (List Char)
  | '\'' :: '\'' :: '\'' :: '\'' :: '\'' :: rest => some (['\'', '\''], rest)
  | '\'' :: '\'' :: '\'' :: '\'' :: rest => some (['\''], rest)
  | '\'' :: '\'' :: '\'' :: rest => some ([], rest)
  | '\n' :: rest => cons '\n' (literalLines rest)
  | '\r' :: '\n' :: rest => cons '\n' (literalLines rest)
  | c :: rest => if isPrintable c then cons c (literalLines rest) else none
  | [] => none

/-- The text without a line end at its start. -/
def dropLineEnd : List Char → List Char
  | '\n' :: rest => rest
  | '\r' :: '\n' :: rest => rest
  | cs => cs

/-- A text on one line, as names of entries are quoted. -/
def textLine : Reader String
  | '"' :: rest => (basicLine rest).map fun (t, r) => (String.ofList t, r)
  | '\'' :: rest => (literalLine rest).map fun (t, r) => (String.ofList t, r)
  | _ => none

/-- A text in any of the four forms. -/
def anyText : Reader String
  | '"' :: '"' :: '"' :: rest =>
    (basicLines false (dropLineEnd rest)).map fun (t, r) => (String.ofList t, r)
  | '\'' :: '\'' :: '\'' :: rest =>
    (literalLines (dropLineEnd rest)).map fun (t, r) => (String.ofList t, r)
  | cs => textLine cs

end ObjectMapping.Toml
