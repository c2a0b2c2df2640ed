/-! # Files

What is found at the path of an optional file. A file that is missing, cannot be read, is not text
or does not hold what it should is no error: something else is taken in its place. -/

namespace ObjectMapping

/-- What is found at a **path**. -/
inductive File where
  /-- Nothing. -/
  | missing
  /-- Something that cannot be read as a file. -/
  | directory
  /-- A file with the given bytes. -/
  | bytes (content : List UInt8)
deriving DecidableEq

namespace File

/-- The text of a file, whose bytes have to encode one. -/
def text? : File → Option String
  | .bytes content => String.fromUTF8? ⟨content.toArray⟩
  | _ => none

/-- What a file holds, or the fallback when it holds nothing of the kind. -/
def load {ε α : Type} (file : File) (read : String → Except ε α) (fallback : α) : α :=
  match file.text?.map read with
  | some (.ok a) => a
  | _ => fallback

end File

end ObjectMapping
