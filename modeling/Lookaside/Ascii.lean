namespace Lookaside.Ascii

abbrev tab : UInt8 := 0x09
abbrev lineFeed : UInt8 := 0x0a
abbrev carriageReturn : UInt8 := 0x0d
abbrev space : UInt8 := 0x20
abbrev quote : UInt8 := 0x22
abbrev plus : UInt8 := 0x2b
abbrev comma : UInt8 := 0x2c
abbrev minus : UInt8 := 0x2d
abbrev dot : UInt8 := 0x2e
abbrev slash : UInt8 := 0x2f
abbrev zero : UInt8 := 0x30
abbrev nine : UInt8 := 0x39
abbrev colon : UInt8 := 0x3a
abbrev equals : UInt8 := 0x3d
abbrev bracketOpen : UInt8 := 0x5b
abbrev backslash : UInt8 := 0x5c
abbrev bracketClose : UInt8 := 0x5d
abbrev braceOpen : UInt8 := 0x7b
abbrev braceClose : UInt8 := 0x7d

abbrev ofChar (c : Char) : UInt8 := c.toNat.toUInt8

def isDigit (b : UInt8) : Bool := zero ≤ b && b ≤ nine

end Lookaside.Ascii
