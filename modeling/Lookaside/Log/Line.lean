namespace Lookaside.Log

inductive Level where
  | trace
  | debug
  | info
  | warn
deriving DecidableEq, Repr

inductive Field where
  | text (s : String)
  | number (n : Int)
  | flag (b : Bool)
deriving DecidableEq, Repr

structure Line where
  level : Level
  message : String
  fields : List (String × Field)
deriving DecidableEq, Repr

namespace Field

def ofNat (n : Nat) : Field := .number n

end Field

namespace Level

def name : Level → String
  | trace => "TRACE"
  | debug => "DEBUG"
  | info => "INFO"
  | warn => "WARN"

end Level

end Lookaside.Log
