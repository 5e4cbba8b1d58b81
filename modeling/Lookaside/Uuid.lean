import Lookaside.Digits

namespace Lookaside

structure Uuid where
  bits : BitVec 128
deriving DecidableEq, Repr

namespace Uuid

def nil : Uuid := ⟨0⟩

def digits (u : Uuid) : List Char :=
  (Digits.fixed 16 32 u.bits.toNat).map Digits.char

def hyphenate (cs : List Char) : List Char :=
  cs.take 8 ++ '-' :: (cs.drop 8).take 4 ++ '-' :: (cs.drop 12).take 4 ++
    '-' :: (cs.drop 16).take 4 ++ '-' :: cs.drop 20

def write (u : Uuid) : List Char :=
  hyphenate u.digits

def ofDigits? (cs : List Char) : Option Uuid :=
  if cs.length = 32 then (cs.mapM Digits.hex?).map fun ds => ⟨.ofNat 128 (Digits.value 16 ds)⟩
  else none

def dehyphenate? (cs : List Char) : Option (List Char) :=
  let plain := cs.take 8 ++ (cs.drop 9).take 4 ++ (cs.drop 14).take 4 ++ (cs.drop 19).take 4 ++
    cs.drop 24
  if hyphenate plain = cs then some plain else none

def ofHyphenated? (cs : List Char) : Option Uuid :=
  (dehyphenate? cs).bind ofDigits?

def ofUrn? (cs : List Char) : Option Uuid :=
  if (cs.take 9).map Char.toLower = ['u', 'r', 'n', ':', 'u', 'u', 'i', 'd', ':'] then
    ofHyphenated? (cs.drop 9)
  else none

/-- Reads any of the four notations; their lengths tell them apart. -/
def read? (cs : List Char) : Option Uuid :=
  if cs.length = 32 then ofDigits? cs
  else if cs.length = 36 then ofHyphenated? cs
  else if cs.length = 38 then
    if cs.head? = some '\x7b' ∧ cs.getLast? = some '\x7d' then
      ofHyphenated? (cs.drop 1).dropLast
    else none
  else if cs.length = 45 then ofUrn? cs
  else none

/-- A random identifier made of 128 random bits: six of them give way to version and variant. -/
def random (bits : BitVec 128) : Uuid :=
  let mask : BitVec 128 := 0xf000c000000000000000#128
  let marks : BitVec 128 := 0x40008000000000000000#128
  ⟨(bits &&& ~~~ mask) ||| marks⟩

def version (u : Uuid) : Nat :=
  (u.bits >>> 76).toNat % 16

end Uuid

end Lookaside
