import Lookaside.Json.Record
import Lookaside.Log.Line

namespace Lookaside.Log

def Field.scalar : Field → Json.Scalar
  | text s => .text s
  | number n => .integer n
  | flag b => .flag b

def Field.plain : Field → String
  | text s => s
  | number n => String.ofList (Digits.ofInt n)
  | flag true => "true"
  | flag false => "false"

namespace Line

def plain (l : Line) : String :=
  String.intercalate " "
    (l.level.name :: l.message :: l.fields.map fun f => f.1 ++ "=" ++ f.2.plain)

def json (l : Line) : Bytes :=
  Json.Record.write
    (("level", .text l.level.name) :: ("message", .text l.message) ::
      l.fields.map fun f => (f.1, f.2.scalar))

end Line

end Lookaside.Log
