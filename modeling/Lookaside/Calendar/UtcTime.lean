import Lookaside.Calendar.Date
import Lookaside.Digits

namespace Lookaside.Calendar

def IsTime (hour minute second nano : Nat) : Prop :=
  hour < 24 ∧ minute < 60 ∧ second ≤ 60 ∧ nano < 1000000000

instance (hour minute second nano : Nat) : Decidable (IsTime hour minute second nano) :=
  inferInstanceAs (Decidable (_ ∧ _))

structure UtcTime where
  date : Date
  hour : Nat
  minute : Nat
  second : Nat
  nano : Nat
  isTime : IsTime hour minute second nano
deriving DecidableEq, Repr

namespace UtcTime

def epoch : UtcTime := ⟨.epoch, 0, 0, 0, 0, by decide⟩

def padded (width n : Nat) : List Char :=
  (Digits.fixed 10 width n).map Digits.char

def writeYear (year : Int) : List Char :=
  -- any other year has a sign and at least four digits
  if 0 ≤ year ∧ year ≤ 9999 then padded 4 year.natAbs
  else
    (if year < 0 then '-' else '+') ::
      (if year.natAbs ≤ 9999 then padded 4 year.natAbs
       else (Digits.decimal year.natAbs).map Digits.char)

def writeFraction (nano : Nat) : List Char :=
  if nano = 0 then []
  else if nano % 1000000 = 0 then '.' :: padded 3 (nano / 1000000)
  else if nano % 1000 = 0 then '.' :: padded 6 (nano / 1000)
  else '.' :: padded 9 nano

def write (t : UtcTime) : List Char :=
  writeYear t.date.year ++ '-' :: padded 2 t.date.month ++ '-' :: padded 2 t.date.day ++
    'T' :: padded 2 t.hour ++ ':' :: padded 2 t.minute ++ ':' :: padded 2 t.second ++
    writeFraction t.nano ++ ['Z']

end UtcTime

end Lookaside.Calendar
