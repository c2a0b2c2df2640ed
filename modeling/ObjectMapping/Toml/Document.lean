import ObjectMapping.Toml.Number
import ObjectMapping.Toml.Table

/-! # TOML documents

A document is a sequence of statements, each on a line of its own: a value under a name, the header
of a table, or the header of one more table of a list. Lists and inline tables nest at most
seventy-nine deep, and a dotted name has at most as many parts. Main definition: `Toml.read?`. -/

namespace ObjectMapping.Toml

/-- How deep lists and inline tables nest, and how many parts a dotted name has, at most. -/
def nestingLimit : Nat := 79

/-- Whether a character may stand in a name without quotes. -/
def isNameChar (c : Char) : Bool :=
  ('A' ≤ c && c ≤ 'Z') || ('a' ≤ c && c ≤ 'z') || isDigit c || c = '-' || c = '_'

/-- One part of a dotted name. -/
def namePart (cs : List Char) : Option (String × List Char) :=
  match cs with
  | '"' :: _ | '\'' :: _ => textLine cs
  | _ =>
    let name := cs.takeWhile isNameChar
    if name.isEmpty then none else some (String.ofList name, cs.dropWhile isNameChar)

/-- The parts of a dotted name, with spaces around each. The `room` bounds the number of parts. -/
def nameParts : (room : Nat) → Reader (List String)
  | 0, _ => none
  | room + 1, cs => do
    let (part, cs) ← namePart (skipSpaces cs)
    match skipSpaces cs with
    | '.' :: rest =>
      let (parts, rest) ← nameParts room rest
      return (part :: parts, rest)
    | rest => return ([part], rest)

/-- A dotted name: the parts in front of the last, and the last. -/
def dottedName (cs : List Char) : Option ((List String × String) × List Char) := do
  let (parts, rest) ← nameParts nestingLimit cs
  return ((parts.dropLast, ← parts.getLast?), rest)

/-- A value under a name: the name, an equals sign and the value, with spaces between them. -/
def assignment (value : Reader Value) (cs : List Char) :
    Option ((List String × String × Value) × List Char) := do
  let ((path, name), cs) ← dottedName cs
  let cs ← expect '=' cs
  let (v, rest) ← value (skipSpaces cs)
  return ((path, name, v), rest)

/-- The items of a list after its opening bracket, up to the closing one. -/
def listItems (value : Reader Value) : (room : Nat) → Reader (List Value)
  | 0, _ => none
  | room + 1, cs => do
    match ← skipLayout false cs with
    | ']' :: rest => return ([], rest)
    | cs =>
      let (v, cs) ← value cs
      match ← skipLayout false cs with
      | ',' :: rest =>
        let (vs, rest) ← listItems value room rest
        return (v :: vs, rest)
      | ']' :: rest => return ([v], rest)
      | _ => none

/-- The entries of an inline table from one of them up to the closing brace. -/
def inlineEntries (value : Reader Value) : (room : Nat) → Table → Reader Table
  | 0, _, _ => none
  | room + 1, t, cs => do
    let ((path, name, v), cs) ← assignment value cs
    let t ← t.assign path name v
    match skipSpaces cs with
    | ',' :: rest => inlineEntries value room t rest
    | '\x7d' :: rest => return (t, rest)
    | _ => none

/-- A value in which lists and inline tables nest at most `room` deep. -/
def value : (room : Nat) → Reader Value
  | 0, cs => scalar cs
  | room + 1, cs =>
    match cs with
    | '[' :: rest =>
      (listItems (value room) (rest.length + 1) rest).map fun (vs, rest) => (.list vs, rest)
    | '\x7b' :: rest =>
      match skipSpaces rest with
      | '\x7d' :: rest => some (.table [], rest)
      | _ =>
        (inlineEntries (value room) (rest.length + 1) (.new .header) rest).map fun (t, rest) =>
          (t.finish, rest)
    | _ => scalar cs

/-- One **statement** of a document. -/
inductive Statement where
  /-- A value under a dotted name. -/
  | assign (path : List String) (name : String) (value : Value)
  /-- The header of a table. -/
  | open (path : List String) (name : String)
  /-- The header of one more table of a list. -/
  | append (path : List String) (name : String)

/-- The statement on a line that is neither empty nor a comment, and the text after its line. -/
def statement (cs : List Char) : Option (Statement × List Char) := do
  match cs with
  | '[' :: '[' :: rest =>
    let ((path, name), rest) ← dottedName rest
    let rest ← lineTail (← expect ']' (← expect ']' rest))
    return (.append path name, rest)
  | '[' :: rest =>
    let ((path, name), rest) ← dottedName rest
    let rest ← lineTail (← expect ']' rest)
    return (.open path name, rest)
  | cs =>
    let ((path, name, v), rest) ← assignment (value nestingLimit) cs
    return (.assign path name v, ← lineTail rest)

/-- The statements of a text. The `room` bounds the number of lines. -/
def statements : (room : Nat) → List Char → Option (List Statement)
  | 0, _ => none
  | room + 1, cs =>
    match skipSpaces cs with
    | [] => some []
    | c :: rest =>
      if c = '#' ∨ c = '\n' ∨ c = '\r' then do statements room (← lineTail (c :: rest))
      else do
        let (s, rest) ← statement (c :: rest)
        return s :: (← statements room rest)

/-- A **document under assembly**: its tables, and the path of the table that is being filled. -/
structure Draft where
  /-- The table of the whole document. -/
  root : Table := .new .header
  /-- The path of the table that is being filled. -/
  path : List String := []

/-- The document after one more statement. -/
def Draft.add (d : Draft) : Statement → Option Draft
  | .assign path name v => do
    return { d with root := ← d.root.update .passed (·.assign path name v) d.path }
  | .open path name => do
    return { root := ← d.root.open? path name, path := path ++ [name] }
  | .append path name => do
    return { root := ← d.root.append? path name, path := path ++ [name] }

/-- The text without a mark of the byte order at its start. -/
def dropMark : List Char → List Char
  | '\uFEFF' :: rest => rest
  | cs => cs

/-- **The table that a text writes**, or none when the text is not a document. -/
def read? (text : String) : Option Value := do
  let cs := dropMark text.toList
  let draft ← (← statements (cs.length + 1) cs).foldlM Draft.add {}
  return draft.root.finish

end ObjectMapping.Toml
