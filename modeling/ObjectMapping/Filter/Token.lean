import ObjectMapping.Filter.Fault
import ObjectMapping.Text.AsciiCase
import ObjectMapping.Text.Blank

/-! # Tokens of filter text

Filter text is a sequence of lexemes with blanks between them: quoted texts, bare words, signs of
comparison, parentheses and commas. A token is a lexeme with the place where it begins, counted in
bytes of the UTF-8 encoding.

* **`Lexeme.read`** — the lexeme at the start of a text; what it uses and what it leaves make up the
  text (`Lexeme.read_append`).
* **`Token.scan`** — the tokens of a text, or the place and the cause of the first fault. -/

namespace ObjectMapping

/-- A **lexeme** of filter text. -/
inductive Lexeme where
  /-- A quoted text, without its quotes and escapes. -/
  | quoted (text : String)
  /-- A bare word. -/
  | word (text : String)
  /-- A comparison. -/
  | sign (comparison : Comparison)
  /-- An opening parenthesis. -/
  | opening
  /-- A closing parenthesis. -/
  | closing
  /-- A comma. -/
  | comma
deriving DecidableEq

namespace Lexeme

/-- The characters that stand for themselves and so end a word. -/
def marks : List Char := ['(', ')', '=', '!', '~', '<', '>', ',', '"']

/-- Whether a character can be part of a word. -/
def isWordChar (c : Char) : Bool := !Text.isBlank c && !marks.contains c

/-- What stands before the closing quote, escapes included, and what comes after it. -/
def splitQuoted : List Char → Option (List Char × List Char)
  | [] => none
  | '"' :: rest => some ([], rest)
  | ['\\'] => none
  | '\\' :: c :: rest => (splitQuoted rest).map fun (body, after) => ('\\' :: c :: body, after)
  | c :: rest => (splitQuoted rest).map fun (body, after) => (c :: body, after)

/-- The text inside quotes with its escapes undone: a backslash stands for the character after
it. -/
def unescape : List Char → List Char
  | [] => []
  | '\\' :: c :: rest => c :: unescape rest
  | c :: rest => c :: unescape rest

/-- The lexeme of a bare word: the word `IN`, in any case of its letters, is a comparison. -/
def ofWord (s : String) : Lexeme :=
  if Text.eqIgnoringCase s "in" then .sign .oneOf else .word s

/-- A **reading** of a lexeme: the lexeme, what it uses after its first character, and the rest. -/
structure Reading where
  /-- The lexeme. -/
  lexeme : Lexeme
  /-- The characters of the lexeme after the first. -/
  used : List Char
  /-- The characters after the lexeme. -/
  rest : List Char

/-- The lexeme that begins with a character which is not blank. -/
def read (c : Char) (cs : List Char) : Except FilterFault Reading :=
  match c, cs with
  | '(', cs => .ok ⟨.opening, [], cs⟩
  | ')', cs => .ok ⟨.closing, [], cs⟩
  | ',', cs => .ok ⟨.comma, [], cs⟩
  | '=', cs => .ok ⟨.sign .equal, [], cs⟩
  | '~', cs => .ok ⟨.sign .contains, [], cs⟩
  | '!', '=' :: rest => .ok ⟨.sign .notEqual, ['='], rest⟩
  | '!', '~' :: rest => .ok ⟨.sign .notContains, ['~'], rest⟩
  | '!', _ => .error .loneBang
  | '<', '=' :: rest => .ok ⟨.sign .lessOrEqual, ['='], rest⟩
  | '<', cs => .ok ⟨.sign .less, [], cs⟩
  | '>', '=' :: rest => .ok ⟨.sign .greaterOrEqual, ['='], rest⟩
  | '>', cs => .ok ⟨.sign .greater, [], cs⟩
  | '"', cs =>
    match splitQuoted cs with
    | some (body, rest) => .ok ⟨.quoted (String.ofList (unescape body)), body ++ ['"'], rest⟩
    | none => .error .unterminated
  | c, cs =>
    let word := cs.takeWhile isWordChar
    .ok ⟨ofWord (String.ofList (c :: word)), word, cs.dropWhile isWordChar⟩

/-- A quoted text is cut at its closing quote. -/
theorem splitQuoted_append {cs body rest : List Char} (h : splitQuoted cs = some (body, rest)) :
    cs = body ++ '"' :: rest := by
  fun_induction splitQuoted cs generalizing body with
  | case1 => simp at h
  | case2 tail => simp_all
  | case3 => simp at h
  | case4 c tail ih =>
    obtain ⟨⟨b, r⟩, hs, he⟩ := Option.map_eq_some_iff.1 h
    simp only [Prod.mk.injEq] at he
    obtain ⟨rfl, rfl⟩ := he
    simp [ih hs]
  | case5 c tail _ _ _ ih =>
    obtain ⟨⟨b, r⟩, hs, he⟩ := Option.map_eq_some_iff.1 h
    simp only [Prod.mk.injEq] at he
    obtain ⟨rfl, rfl⟩ := he
    simp [ih hs]

/-- **What a lexeme uses and what it leaves** make up the characters it was read from. -/
theorem read_append {c : Char} {cs : List Char} {r : Reading} (h : read c cs = .ok r) :
    r.used ++ r.rest = cs := by
  unfold read at h
  split at h
  case h_13 =>
    split at h
    · next body rest hs =>
      cases h
      simpa using (splitQuoted_append hs).symm
    · simp at h
  case h_8 => simp at h
  case h_14 =>
    cases h
    exact List.takeWhile_append_dropWhile
  all_goals
    cases h
    rfl

end Lexeme

/-- The number of bytes of characters in the UTF-8 encoding. -/
def Text.width : List Char → Nat
  | [] => 0
  | c :: rest => c.utf8Size + Text.width rest

/-- A **token**: a lexeme and where it begins. -/
structure Token where
  /-- The lexeme. -/
  lexeme : Lexeme
  /-- The place of its first character, in bytes from the start. -/
  offset : Nat
deriving DecidableEq

/-- **The tokens of a text** that begins at an offset. -/
def Token.scan (offset : Nat) : List Char → Except FilterError (List Token)
  | [] => .ok []
  | c :: cs =>
    if Text.isBlank c then scan (offset + c.utf8Size) cs
    else
      match h : Lexeme.read c cs with
      | .error fault => .error ⟨offset, fault⟩
      | .ok r =>
        have : r.rest.length < cs.length + 1 := by
          have := congrArg List.length (Lexeme.read_append h)
          simp at this
          omega
        (scan (offset + Text.width (c :: r.used)) r.rest).map (⟨r.lexeme, offset⟩ :: ·)
termination_by cs => cs.length

end ObjectMapping
