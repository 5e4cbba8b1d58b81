import Lookaside.Json.Record

namespace Lookaside.Json

structure RecordFormat (E : Type) where
  names : List String
  values : E → List Scalar
  /-- The value with the given fields; `none` is a field that was left out. -/
  ofColumns? : List (Option Item) → Option E

namespace RecordFormat

variable {E : Type}

def encode (format : RecordFormat E) (e : E) : Bytes :=
  Record.write (format.names.zip (format.values e))

def decode? (format : RecordFormat E) (b : Bytes) : Option E :=
  ((Outline.ofBytes? b).bind (Outline.columns? format.names)).bind format.ofColumns?

end RecordFormat

end Lookaside.Json
