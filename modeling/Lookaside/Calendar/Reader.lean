import Lookaside.Blank
import Lookaside.Calendar.UtcTime

/-!
# Reading timestamps

`UtcTime.read?` accepts the notation of `UtcTime.write` and, around it, more of RFC 3339: any offset,
any number of fraction digits, a lower-case `t` or `z` or a blank for the `T`, one-digit numbers,
years with a sign, and blanks between the parts. Offsets are converted to UTC.
-/

namespace Lookaside.Calendar.Reader

def number? (width : Nat) (cs : List Char) : Option (Nat × List Char) :=
  let ds := ((cs.take width).takeWhile fun c => (Digits.decimal? c).isSome)
  if ds = [] then none
  else some (Digits.value 10 (ds.filterMap Digits.decimal?), cs.drop ds.length)

def char? (c : Char) : List Char → Option (List Char)
  | [] => none
  | d :: cs => if d = c then some cs else none

def year? (cs : List Char) : Option (Int × List Char) :=
  match dropBlanks cs with
  | '-' :: cs => (number? cs.length cs).map fun r => (-(r.1 : Int), r.2)
  | '+' :: cs => (number? cs.length cs).map fun r => ((r.1 : Int), r.2)
  -- only a year with a sign may have more than four digits
  | cs => (number? 4 cs).map fun r => ((r.1 : Int), r.2)

def pair? (cs : List Char) : Option (Nat × List Char) :=
  number? 2 (dropBlanks cs)

def next? (separator : Char) (cs : List Char) : Option (Nat × List Char) :=
  (char? separator (dropBlanks cs)).bind pair?

def fraction? : List Char → Option (Nat × List Char)
  | '.' :: cs =>
    let ds := cs.takeWhile fun c => (Digits.decimal? c).isSome
    -- what is less than a nanosecond is dropped
    let kept := ds.take 9
    if ds = [] then none
    else
      some (Digits.value 10 (kept.filterMap Digits.decimal? ++ List.replicate (9 - kept.length) 0),
        cs.drop ds.length)
  | cs => some (0, cs)

def separator? : List Char → Option (List Char)
  | [] => none
  | c :: cs => if c = 'T' ∨ c = 't' ∨ c = ' ' then some cs else none

def sign? : List Char → Option (Int × List Char)
  | '+' :: cs => some (1, cs)
  | '-' :: cs => some (-1, cs)
  -- the mathematical minus
  | '\u2212' :: cs => some (-1, cs)
  | _ => none

def twoDigits? : List Char → Option (Nat × List Char)
  | a :: b :: cs => do return (10 * (← Digits.decimal? a) + (← Digits.decimal? b), cs)
  | _ => none

def numericOffset? (cs : List Char) : Option (Int × List Char) := do
  let (sign, cs) ← sign? cs
  let (hours, cs) ← twoDigits? cs
  let (minutes, cs) ← twoDigits? (cs.dropWhile fun c => c = ':' || isBlank c)
  if hours < 24 ∧ minutes < 60 then return (sign * (60 * hours + minutes : Nat), cs) else none

def offset? : List Char → Option (Int × List Char)
  | 'Z' :: cs => some (0, cs)
  | 'z' :: cs => some (0, cs)
  | a :: b :: c :: cs =>
    if [a, b, c].map Char.toUpper = ['U', 'T', 'C'] then some (0, cs)
    else numericOffset? (a :: b :: c :: cs)
  | _ => none

def toUtc? (date : Date) (hour minute second nano : Nat) (offset : Int) : Option UtcTime :=
  if _h : IsTime hour minute second nano then
    let minutes := (60 * hour + minute : Int) - offset
    let date? := if minutes < 0 then date.previous? else if minutes < 1440 then date else date.next?
    let time := (minutes % 1440).toNat
    date?.map fun date =>
      ⟨date, time / 60, time % 60, second, nano, by unfold IsTime at *; omega⟩
  else none

end Reader

def UtcTime.read? (cs : List Char) : Option UtcTime := do
  let (year, cs) ← Reader.year? cs
  let (month, cs) ← Reader.next? '-' cs
  let (day, cs) ← Reader.next? '-' cs
  let cs ← Reader.separator? cs
  let (hour, cs) ← Reader.pair? cs
  let (minute, cs) ← Reader.next? ':' cs
  let (second, cs) ← Reader.next? ':' cs
  let (nano, cs) ← Reader.fraction? cs
  let (offset, cs) ← Reader.offset? (dropBlanks cs)
  if dropBlanks cs ≠ [] then none
  else Reader.toUtc? (← Date.of? year month day) hour minute second nano offset

end Lookaside.Calendar
