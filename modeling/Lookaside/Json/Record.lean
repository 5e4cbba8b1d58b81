import Lookaside.Json.Outline

namespace Lookaside.Json

inductive Scalar where
  | null
  | flag (b : Bool)
  | integer (i : Int)
  | text (s : String)
deriving DecidableEq, Repr

namespace Scalar

def ofOption {α : Type} (f : α → Scalar) : Option α → Scalar
  | none => .null
  | some a => f a

def write : Scalar → Bytes
  | .null => Bytes.ofAscii ['n', 'u', 'l', 'l']
  | .flag true => Bytes.ofAscii ['t', 'r', 'u', 'e']
  | .flag false => Bytes.ofAscii ['f', 'a', 'l', 's', 'e']
  | .integer i => Bytes.ofAscii (Digits.ofInt i)
  | .text s => Literal.write s

def item : Scalar → Item
  | .null => .null
  | .flag b => .flag b
  | .integer i => .integer i
  | .text s => .text (Literal.pieces s)

end Scalar

namespace Record

def writeField (field : String × Scalar) : Bytes :=
  Literal.write field.1 ++ Ascii.colon :: field.2.write

def write (fields : List (String × Scalar)) : Bytes :=
  Ascii.braceOpen :: (List.intercalate [Ascii.comma] (fields.map writeField) ++ [Ascii.braceClose])

end Record

end Lookaside.Json
