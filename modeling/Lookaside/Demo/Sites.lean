import Lookaside.Entity.Domain

namespace Lookaside.Demo

structure Stamp where
  key : Uuid
  time : Calendar.UtcTime

def hosts : List (String × String) :=
  [("example.com", "en-US"), ("example.dk", "da-DK"), ("example.de", "de-DE"),
    ("example.fr", "fr-FR"), ("example.es", "es-ES")]

def host (i : Nat) : String × String :=
  hosts.get ⟨i % 5, Nat.mod_lt i (by decide)⟩

def root (round : Nat) : Int32 := 1000 + Int32.ofNat round

def decimalText (n : Nat) : String :=
  String.ofList ((Digits.decimal n).map Digits.char)

def siteName (i : Nat) : String :=
  if i < 5 then (host i).1
  else if i % 3 = 0 then "*" ++ renderNumber (root (i / 5))
  else "site" ++ decimalText (i / 5) ++ "." ++ (host i).1

def site (i : Nat) (stamp : Stamp) : Domain :=
  ((Domain.new (siteName i) stamp.key stamp.time).withRootContent (root (i / 5))).withLanguage
    (host i).2

def sites (count : Nat) (stamps : Nat → Stamp) : List Domain :=
  (List.range count).map fun i => site i (stamps i)

/-- The most domains that a list can hold: of 9223372036854775807 bytes each of them takes 88. -/
def maxSites : Nat := 9223372036854775807 / 88

def sites? (count : Nat) (stamps : Nat → Stamp) : Option (List Domain) :=
  if count ≤ maxSites then some (sites count stamps) else none

end Lookaside.Demo
