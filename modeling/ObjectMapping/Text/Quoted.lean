import ObjectMapping.Text.Hidden

/-! # Quoted text

How a message shows a text that may hold anything: in double quotes, with quotes and backslashes
escaped, the common control characters by letter, every other hidden character by its code point in
lower-case hexadecimal, and all else as it is. -/

namespace ObjectMapping

/-- The hexadecimal digits of a number, in lower case and without padding. -/
def Text.hexDigits (n : Nat) : List Char := Nat.toDigits 16 n

/-- One character as quoted text shows it. -/
def Text.quotedChar (c : Char) : List Char :=
  match c with
  | '\x00' => ['\\', '0']
  | '\t' => ['\\', 't']
  | '\r' => ['\\', 'r']
  | '\n' => ['\\', 'n']
  | '"' => ['\\', '"']
  | '\\' => ['\\', '\\']
  | c => if Text.isHidden c then ['\\', 'u', '\x7b'] ++ Text.hexDigits c.toNat ++ ['\x7d'] else [c]

/-- A text in quotes. -/
def Text.quoted (s : String) : String :=
  String.ofList ('"' :: s.toList.flatMap Text.quotedChar ++ ['"'])

end ObjectMapping
