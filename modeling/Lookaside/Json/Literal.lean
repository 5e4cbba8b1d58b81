import Lookaside.Ascii
import Lookaside.Bytes
import Lookaside.Digits

/-!
# JSON string literals

A literal is read in two steps. `Literal.scan?` finds its end and turns every escape into a `Piece`;
`Literal.text?` joins surrogate pairs and asks for valid UTF-8. The first step alone decides whether
a literal is well formed, so that a value nobody looks at may hold any bytes. `Literal.write` escapes
as little as the format allows, and `scan?_write` and `text?_pieces` say that reading undoes it.
-/

namespace Lookaside.Json

inductive Piece where
  | byte (b : UInt8)
  | unit (u : Nat)
deriving DecidableEq, Repr

namespace Literal

def shortEscape? (b : UInt8) : Option UInt8 :=
  if b = Ascii.quote then some Ascii.quote
  else if b = Ascii.backslash then some Ascii.backslash
  else if b = Ascii.slash then some Ascii.slash
  else if b = Ascii.ofChar 'b' then some 0x08
  else if b = Ascii.ofChar 'f' then some 0x0c
  else if b = Ascii.ofChar 'n' then some Ascii.lineFeed
  else if b = Ascii.ofChar 'r' then some Ascii.carriageReturn
  else if b = Ascii.ofChar 't' then some Ascii.tab
  else none

def hex? (b : UInt8) : Option Nat :=
  Digits.hex? (Char.ofNat b.toNat)

def unit? (a b c d : UInt8) : Option Nat := do
  return Digits.value 16 [← hex? a, ← hex? b, ← hex? c, ← hex? d]

def ofUnit (u : Nat) : Piece :=
  if u < 0x80 then .byte u.toUInt8 else .unit u

def scan? : Bytes → Option (List Piece × Bytes)
  | [] => none
  | 0x5c :: 0x75 :: a :: b :: c :: d :: rest => do
    let u ← unit? a b c d
    let (pieces, rest) ← scan? rest
    return (ofUnit u :: pieces, rest)
  | 0x5c :: e :: rest => do
    let b ← shortEscape? e
    let (pieces, rest) ← scan? rest
    return (.byte b :: pieces, rest)
  | b :: rest =>
    if b = Ascii.quote then some ([], rest)
    else if b < Ascii.space || b = Ascii.backslash then none
    else do
      let (pieces, rest) ← scan? rest
      return (.byte b :: pieces, rest)

def isHighSurrogate (u : Nat) : Bool := 0xD800 ≤ u && u ≤ 0xDBFF

def isLowSurrogate (u : Nat) : Bool := 0xDC00 ≤ u && u ≤ 0xDFFF

def encode? : List Piece → Option Bytes
  | [] => some []
  | .byte b :: rest => (encode? rest).map (b :: ·)
  -- a surrogate stands for nothing without its other half
  | .unit u :: .unit v :: rest =>
    if isHighSurrogate u then
      if isLowSurrogate v then
        let c := 0x10000 + (u - 0xD800) * 0x400 + (v - 0xDC00)
        (encode? rest).map (String.utf8EncodeChar (Char.ofNat c) ++ ·)
      else none
    else if isLowSurrogate u then none
    else (encode? (.unit v :: rest)).map (String.utf8EncodeChar (Char.ofNat u) ++ ·)
  | .unit u :: rest =>
    if isHighSurrogate u || isLowSurrogate u then none
    else (encode? rest).map (String.utf8EncodeChar (Char.ofNat u) ++ ·)

def text? (pieces : List Piece) : Option String :=
  (encode? pieces).bind Bytes.text?

def pieces (s : String) : List Piece :=
  (Bytes.ofText s).map .byte

def writeByte (b : UInt8) : Bytes :=
  if b = Ascii.quote then [Ascii.backslash, Ascii.quote]
  else if b = Ascii.backslash then [Ascii.backslash, Ascii.backslash]
  else if b = 0x08 then [Ascii.backslash, Ascii.ofChar 'b']
  else if b = 0x0c then [Ascii.backslash, Ascii.ofChar 'f']
  else if b = Ascii.lineFeed then [Ascii.backslash, Ascii.ofChar 'n']
  else if b = Ascii.carriageReturn then [Ascii.backslash, Ascii.ofChar 'r']
  else if b = Ascii.tab then [Ascii.backslash, Ascii.ofChar 't']
  else if b < Ascii.space then
    Ascii.backslash :: Ascii.ofChar 'u'
      :: Bytes.ofAscii ((Digits.fixed 16 4 b.toNat).map Digits.char)
  else [b]

def write (s : String) : Bytes :=
  Ascii.quote :: ((Bytes.ofText s).flatMap writeByte ++ [Ascii.quote])

theorem encode?_map_byte (bs : Bytes) : encode? (bs.map .byte) = some bs := by
  induction bs with
  | nil => rfl
  | cons b bs ih => simp [encode?, ih]

@[simp] theorem text?_pieces (s : String) : text? (pieces s) = some s := by
  simp [text?, pieces, encode?_map_byte]

theorem length_scan? {s : Bytes} {ps : List Piece} {rest : Bytes} (h : scan? s = some (ps, rest)) :
    rest.length < s.length := by
  fun_induction scan? s generalizing ps rest with
  | case1 => simp at h
  | case2 a b c d rest' ih =>
    simp only [Option.bind_eq_bind, Option.bind_eq_some_iff, Option.pure_def, Option.some.injEq,
      Prod.mk.injEq, Prod.exists] at h
    obtain ⟨u, -, ps', r, hr, rfl, rfl⟩ := h
    have := ih hr
    simp only [List.length_cons]; omega
  | case3 e rest' _ ih =>
    simp only [Option.bind_eq_bind, Option.bind_eq_some_iff, Option.pure_def, Option.some.injEq,
      Prod.mk.injEq, Prod.exists] at h
    obtain ⟨u, -, ps', r, hr, rfl, rfl⟩ := h
    have := ih hr
    simp only [List.length_cons]; omega
  | case4 => simp at h; obtain ⟨-, rfl⟩ := h; simp
  | case5 => simp at h
  | case6 b rest' _ _ _ _ ih =>
    simp only [Option.bind_eq_bind, Option.bind_eq_some_iff, Option.pure_def, Option.some.injEq,
      Prod.mk.injEq, Prod.exists] at h
    obtain ⟨ps', r, hr, rfl, rfl⟩ := h
    have := ih hr
    simp only [List.length_cons]; omega

theorem scan?_quote (rest : Bytes) : scan? (Ascii.quote :: rest) = some ([], rest) := by
  rw [scan?] <;> simp [Ascii.quote]

theorem hex?_char (d : Nat) (h : d < 16) : hex? (Ascii.ofChar (Digits.char d)) = some d := by
  revert d; decide

theorem scan?_short (e c : UInt8) (s : Bytes) (h : shortEscape? e = some c) (hu : e ≠ 0x75) :
    scan? (Ascii.backslash :: e :: s) = (scan? s).map fun r => (.byte c :: r.1, r.2) := by
  rw [scan?]
  · simp [h]; cases scan? s <;> rfl
  · grind

theorem scan?_control (b : UInt8) (s : Bytes) (h : b < Ascii.space) :
    scan? (Ascii.backslash :: Ascii.ofChar 'u'
      :: (Bytes.ofAscii ((Digits.fixed 16 4 b.toNat).map Digits.char) ++ s)) =
    (scan? s).map fun r => (.byte b :: r.1, r.2) := by
  have small : b.toNat < 32 := h
  have unit : unit? 48 48 (Ascii.ofChar (Digits.char (b.toNat / 16)))
      (Ascii.ofChar (Digits.char (b.toNat % 16))) = some b.toNat := by
    have h3 := hex?_char (b.toNat / 16) (by omega)
    have h4 := hex?_char (b.toNat % 16) (by omega)
    have h0 : hex? 48 = some 0 := by decide
    simp only [unit?, h3, h4, h0, Option.bind_eq_bind, Option.bind_some, Option.pure_def,
      Option.some.injEq]
    simp [Digits.value]; omega
  have digits : Bytes.ofAscii ((Digits.fixed 16 4 b.toNat).map Digits.char) =
      [48, 48, Ascii.ofChar (Digits.char (b.toNat / 16)),
        Ascii.ofChar (Digits.char (b.toNat % 16))] := by
    have e1 : b.toNat / 16 / 16 / 16 % 16 = 0 := by omega
    have e2 : b.toNat / 16 / 16 % 16 = 0 := by omega
    have e3 : b.toNat / 16 % 16 = b.toNat / 16 := by omega
    simp [Bytes.ofAscii, Digits.fixed, Ascii.ofChar, e1, e2, e3]
    decide
  rw [digits]
  show scan? (0x5c :: 0x75 :: 48 :: 48 :: _ :: _ :: s) = _
  rw [scan?, unit]
  have : ofUnit b.toNat = .byte b := by simp [ofUnit]; omega
  simp [this]; cases scan? s <;> rfl

theorem scan?_plain (b : UInt8) (s : Bytes) (q : b ≠ Ascii.quote) (e : b ≠ Ascii.backslash)
    (c : ¬ b < Ascii.space) :
    scan? (b :: s) = (scan? s).map fun r => (.byte b :: r.1, r.2) := by
  rw [scan?]
  · simp [q, e, c]; cases scan? s <;> rfl
  · grind
  · grind

theorem scan?_writeByte (b : UInt8) (s : Bytes) :
    scan? (writeByte b ++ s) = (scan? s).map fun r => (.byte b :: r.1, r.2) := by
  unfold writeByte
  split
  · next h => subst h; exact scan?_short _ _ _ (by decide) (by decide)
  split
  · next h => subst h; exact scan?_short _ _ _ (by decide) (by decide)
  split
  · next h => subst h; exact scan?_short _ _ _ (by decide) (by decide)
  split
  · next h => subst h; exact scan?_short _ _ _ (by decide) (by decide)
  split
  · next h => subst h; exact scan?_short _ _ _ (by decide) (by decide)
  split
  · next h => subst h; exact scan?_short _ _ _ (by decide) (by decide)
  split
  · next h => subst h; exact scan?_short _ _ _ (by decide) (by decide)
  split
  · next h => exact scan?_control b s h
  · next q e _ _ _ _ _ c => exact scan?_plain b s q e c

theorem scan?_write (s : String) (rest : Bytes) :
    scan? ((Bytes.ofText s).flatMap writeByte ++ Ascii.quote :: rest) = some (pieces s, rest) := by
  unfold pieces
  induction Bytes.ofText s with
  | nil => simpa using scan?_quote rest
  | cons b bs ih => simp [List.append_assoc, scan?_writeByte, ih]
end Literal

end Lookaside.Json
