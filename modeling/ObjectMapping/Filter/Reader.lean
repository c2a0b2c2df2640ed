import ObjectMapping.Filter.Token

/-! # Reading filters

Filter text is read from its tokens by the grammar

* a filter is one or more conjunctions with the word `OR` between them,
* a conjunction is one or more operands with the word `AND` between them,
* an operand is a filter in parentheses or a condition,
* a condition is the name of a field, a comparison and a literal; after `IN` the literal is a list
  in parentheses.

Each reader takes a `Cursor` and gives what it has read with the cursor after it. A reader for
operands is built from one for what stands in parentheses (`Cursor.operand`), so
`Cursor.filter` recurs on a bound for the number of readings inside one another; since no more than
`Filter.depthLimit` parentheses are open at once, a bound one above that limit is never reached. -/

namespace ObjectMapping

/-- A **place in the tokens** of a text. -/
structure Cursor where
  /-- The tokens from here on. -/
  rest : List Token
  /-- Where the last token of the text begins. -/
  lastOffset : Nat
  /-- The number of parentheses that are open. -/
  opened : Nat

namespace Cursor

/-- The place at the start of the tokens of a text. -/
def start (tokens : List Token) : Cursor :=
  ⟨tokens, (tokens.getLast?.map Token.offset).getD 0, 0⟩

/-- The lexeme at a place. -/
def lexeme? (c : Cursor) : Option Lexeme := c.rest.head?.map Token.lexeme

/-- The offset that a fault at a place is reported with: that of the token there, and behind the
last token its own. -/
def offset (c : Cursor) : Nat := (c.rest.head?.map Token.offset).getD c.lastOffset

/-- The place after the token here; behind the last token there is no further place. -/
def next (c : Cursor) : Cursor := { c with rest := c.rest.tail }

/-- The refusal at a place. -/
def fail {α : Type} (c : Cursor) (fault : FilterFault) : Except FilterError (α × Cursor) :=
  .error ⟨c.offset, fault⟩

/-- The text here, quoted or bare. -/
def text? (c : Cursor) : Option String :=
  match c.lexeme? with
  | some (.quoted s) | some (.word s) => some s
  | _ => none

/-- Where there is a text there is a token. -/
theorem rest_ne_nil_of_text? {c : Cursor} {s : String} (h : c.text? = some s) : c.rest ≠ [] := by
  intro hr
  simp [text?, lexeme?, hr] at h

/-! ### Conditions -/

/-- The name of a field. -/
def field (c : Cursor) : Except FilterError (String × Cursor) :=
  match c.text? with
  | some s => .ok (s, c.next)
  | none => c.next.fail .noField

/-- A comparison. -/
def comparison (c : Cursor) : Except FilterError (Comparison × Cursor) :=
  match c.lexeme? with
  | some (.sign s) => .ok (s, c.next)
  | _ => c.next.fail .noComparison

end Cursor

namespace Literal

/-- The number that digits write, if there are digits only and at least one. -/
def digits? (cs : List Char) : Option Nat :=
  if cs ≠ [] ∧ cs.all Char.isDigit then
    some (cs.foldl (fun n c => 10 * n + (c.toNat - '0'.toNat)) 0)
  else none

/-- The integer that a word writes: digits with or without a sign in front. -/
def integer? : List Char → Option Int
  | '+' :: cs => (digits? cs).map Int.ofNat
  | '-' :: cs => (digits? cs).map fun n => -(n : Int)
  | cs => (digits? cs).map Int.ofNat

/-- The number that a word writes, if it fits into 64 bits. -/
def number? (s : String) : Option Int64 :=
  (integer? s.toList).bind fun n =>
    if -0x8000000000000000 ≤ n ∧ n ≤ 0x7FFFFFFFFFFFFFFF then some (Int64.ofInt n) else none

/-- The literal that a bare word stands for: a number, a truth value or else a text. -/
def ofWord (s : String) : Literal :=
  match number? s with
  | some n => .number n
  | none =>
    if Text.eqIgnoringCase s "true" then .bool true
    else if Text.eqIgnoringCase s "false" then .bool false
    else .text s

end Literal

namespace Cursor

/-- A literal that is no list. -/
def scalar (c : Cursor) : Except FilterError (Literal × Cursor) :=
  match c.lexeme? with
  | some (.quoted s) => .ok (.text s, c.next)
  | some (.word s) => .ok (.ofWord s, c.next)
  | _ => c.next.fail .noLiteral

/-- The items of a list from one item on, up to the closing parenthesis. -/
def items (c : Cursor) : Except FilterError (List String × Cursor) :=
  match _h : c.text? with
  | none => c.next.fail .noItem
  | some s =>
    match c.next.lexeme? with
    | some .comma => do
      let (more, c) ← items c.next.next
      return (s :: more, c)
    | some .closing => .ok ([s], c.next.next)
    | _ => c.next.next.fail .noSeparator
termination_by c.rest.length
decreasing_by
  have := List.length_pos_iff.2 (rest_ne_nil_of_text? _h)
  simp only [next, List.length_tail]
  omega

/-- A list in parentheses, which may be empty. -/
def list (c : Cursor) : Except FilterError (Literal × Cursor) :=
  match c.lexeme? with
  | some .opening =>
    match c.next.lexeme? with
    | some .closing => .ok (.list [], c.next.next)
    | _ => do
      let (items, c) ← c.next.items
      return (.list items, c)
  | _ => c.next.fail .noList

/-- The literal after a comparison. -/
def literal (comparison : Comparison) (c : Cursor) : Except FilterError (Literal × Cursor) :=
  if comparison = .oneOf then c.list else c.scalar

/-- **A condition.** -/
def condition (c : Cursor) : Except FilterError (Filter × Cursor) := do
  let (field, c) ← c.field
  let (comparison, c) ← c.comparison
  let (literal, c) ← c.literal comparison
  return (.compare field comparison literal, c)

/-! ### Groups and chains -/

/-- A **reader of filters**: it gives a filter with the place after it, or a fault. -/
abbrev FilterReader := Cursor → Except FilterError (Filter × Cursor)

/-- **An operand**: a filter in parentheses, for which there is a reader, or a condition. -/
def operand (inner : FilterReader) (c : Cursor) : Except FilterError (Filter × Cursor) :=
  if c.lexeme? = some .opening then
    if c.opened = Filter.depthLimit then c.fail .tooDeep
    else do
      let (f, c) ← inner { c.next with opened := c.opened + 1 }
      let c : Cursor := { c with opened := c.opened - 1 }
      match c.lexeme? with
      | some .closing => return (f, c.next)
      | _ => c.next.fail .noClosing
  else c.condition

/-- Whether the word here is that of a connective, in any case of its letters. -/
def isAt (c : Cursor) (connective : Connective) : Bool :=
  match c.lexeme? with
  | some (.word s) => Text.eqIgnoringCase s connective.text
  | _ => false

/-- Two filters joined by the connective at a place, unless the node is too deep. -/
def node (c : Cursor) (left : Filter) (connective : Connective) (right : Filter) :
    Except FilterError Filter :=
  if Filter.depthLimit ≤ max left.depth right.depth then .error ⟨c.offset, .tooDeep⟩
  else .ok (.binary left connective right)

/-- A filter followed by operands with a connective between them, joined from the left. The `rounds`
bound the number of operands. -/
def chain (connective : Connective) (reader : FilterReader) :
    (rounds : Nat) → Filter → Cursor → Except FilterError (Filter × Cursor)
  | 0, left, c => .ok (left, c)
  | rounds + 1, left, c =>
    if c.isAt connective then do
      let (right, after) ← reader c.next
      let joined ← c.node left connective right
      chain connective reader rounds joined after
    else .ok (left, c)

/-- One or more operands with a connective between them, joined from the left. -/
def operands (connective : Connective) (reader : FilterReader) (c : Cursor) :
    Except FilterError (Filter × Cursor) := do
  let (left, after) ← reader c
  chain connective reader after.rest.length left after

/-- **A filter**: conjunctions joined by `OR`. The `room` bounds how many readings of a filter stand
inside one another. -/
def filter : (room : Nat) → FilterReader
  | 0 => fun c => c.fail .tooDeep
  | room + 1 => operands .or (operands .and (operand (filter room)))

end Cursor

namespace Filter

/-- The filter that tokens write; no tokens write the empty filter. -/
def ofTokens (tokens : List Token) : Except FilterError Filter :=
  if tokens.isEmpty then .ok .empty
  else do
    let (f, c) ← (Cursor.start tokens).filter (depthLimit + 1)
    match c.rest with
    | [] => return f
    | t :: _ => .error ⟨t.offset, .trailing⟩

/-- **The filter that a text writes.** -/
def read (text : String) : Except FilterError Filter := do
  ofTokens (← Token.scan 0 text.toList)

end Filter

end ObjectMapping
