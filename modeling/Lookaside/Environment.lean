import Lookaside.Bytes
import Lookaside.Digits

namespace Lookaside

abbrev Environment := String → Option Bytes

namespace Environment

def text? (env : Environment) (name : String) : Option String :=
  (env name).bind Bytes.text?

def readFlag? (s : String) : Option Bool :=
  if s = "true" then some true else if s = "false" then some false else none

def maxWord : Nat := 18446744073709551615

def readDigits? (cs : List Char) : Option Nat :=
  if cs = [] then none else (cs.mapM Digits.decimal?).map (Digits.value 10)

/-- Reads a machine word: decimal digits, a plus sign before them or not. -/
def readWord? (s : String) : Option Nat :=
  let digits := match s.toList with
    | '+' :: cs => cs
    | cs => cs
  (readDigits? digits).filter (· ≤ maxWord)

def flag? (env : Environment) (name : String) : Option Bool :=
  (env.text? name).bind readFlag?

def word? (env : Environment) (name : String) : Option Nat :=
  (env.text? name).bind readWord?

end Environment

end Lookaside
