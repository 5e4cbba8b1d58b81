import Lookaside.Json.Literal

namespace Lookaside.Json

inductive Frame where
  | array
  | object
deriving DecidableEq, Repr

inductive Token where
  | opening (frame : Frame)
  | closing (frame : Frame)
  | colon
  | comma
  | null
  | flag (b : Bool)
  | integer (i : Int)
  | number
  | text (pieces : List Piece)
deriving DecidableEq, Repr

def isBlankByte (b : UInt8) : Bool :=
  b = Ascii.space || b = Ascii.tab || b = Ascii.lineFeed || b = Ascii.carriageReturn

namespace Token

def afterWord? (word : List Char) (s : Bytes) : Option Bytes :=
  if (Bytes.ofAscii word).isPrefixOf s then some (s.drop word.length) else none

def digits (s : Bytes) : Bytes × Bytes :=
  (s.takeWhile Ascii.isDigit, s.dropWhile Ascii.isDigit)

def fraction? : Bytes → Option (Bool × Bytes)
  | [] => some (false, [])
  | b :: s =>
    if b = Ascii.dot then
      -- a point needs a digit after it
      if (digits s).1 = [] then none else some (true, (digits s).2)
    else some (false, b :: s)

def dropSign : Bytes → Bytes
  | [] => []
  | b :: s => if b = Ascii.plus || b = Ascii.minus then s else b :: s

def exponent? : Bytes → Option (Bool × Bytes)
  | [] => some (false, [])
  | b :: s =>
    if b = Ascii.ofChar 'e' || b = Ascii.ofChar 'E' then
      if (digits (dropSign s)).1 = [] then none else some (true, (digits (dropSign s)).2)
    else some (false, b :: s)

def magnitude (ds : Bytes) : Nat :=
  Digits.value 10 (ds.map fun b => b.toNat - Ascii.zero.toNat)

def isWhole (ds : Bytes) : Bool :=
  ds ≠ [] && (ds.head? ≠ some Ascii.zero || ds.length = 1)

def ofNumber (negative : Bool) (ds : Bytes) (inexact : Bool) : Token :=
  if inexact then .number
  else if negative then
    -- negative zero is no integer
    if magnitude ds = 0 then .number else .integer (-(magnitude ds : Int))
  else .integer (magnitude ds)

def unsigned? (negative : Bool) (s : Bytes) : Option (Token × Bytes) :=
  if isWhole (digits s).1 then
    (fraction? (digits s).2).bind fun f =>
      (exponent? f.2).map fun e => (ofNumber negative (digits s).1 (f.1 || e.1), e.2)
  else none

def punctuation? (b : UInt8) : Option Token :=
  if b = Ascii.braceOpen then some (.opening .object)
  else if b = Ascii.braceClose then some (.closing .object)
  else if b = Ascii.bracketOpen then some (.opening .array)
  else if b = Ascii.bracketClose then some (.closing .array)
  else if b = Ascii.colon then some .colon
  else if b = Ascii.comma then some .comma
  else none

def word? (b : UInt8) : Option (List Char × Token) :=
  if b = Ascii.ofChar 'n' then some (['u', 'l', 'l'], .null)
  else if b = Ascii.ofChar 't' then some (['r', 'u', 'e'], .flag true)
  else if b = Ascii.ofChar 'f' then some (['a', 'l', 's', 'e'], .flag false)
  else none

def scan? : Bytes → Option (Token × Bytes)
  | [] => none
  | b :: s =>
    match punctuation? b with
    | some t => some (t, s)
    | none =>
      if b = Ascii.quote then (Literal.scan? s).map fun r => (.text r.1, r.2)
      else if b = Ascii.minus then unsigned? true s
      else if Ascii.isDigit b then unsigned? false (b :: s)
      else (word? b).bind fun w => (afterWord? w.1 s).map fun r => (w.2, r)

theorem length_digits_le (s : Bytes) : (digits s).2.length ≤ s.length :=
  (List.dropWhile_suffix _).length_le

theorem length_dropSign_le (s : Bytes) : (dropSign s).length ≤ s.length := by
  cases s with
  | nil => simp [dropSign]
  | cons b s => rw [dropSign]; split <;> simp

theorem length_fraction? {s : Bytes} {r : Bool × Bytes} (h : fraction? s = some r) :
    r.2.length ≤ s.length := by
  cases s with
  | nil => simp [fraction?] at h; simp [← h]
  | cons b s =>
    have := length_digits_le s
    rw [fraction?] at h
    split at h
    · split at h
      · simp at h
      · simp at h; rw [← h]; simp only [List.length_cons]; omega
    · simp at h; simp [← h]

theorem length_exponent? {s : Bytes} {r : Bool × Bytes} (h : exponent? s = some r) :
    r.2.length ≤ s.length := by
  cases s with
  | nil => simp [exponent?] at h; simp [← h]
  | cons b s =>
    have := length_digits_le (dropSign s)
    have := length_dropSign_le s
    rw [exponent?] at h
    split at h
    · split at h
      · simp at h
      · simp at h; rw [← h]; simp only [List.length_cons]; omega
    · simp at h; simp [← h]

theorem length_unsigned? {negative : Bool} {s : Bytes} {r : Token × Bytes}
    (h : unsigned? negative s = some r) : r.2.length < s.length := by
  rw [unsigned?] at h
  split at h
  · next whole =>
    obtain ⟨f, hf, h⟩ := Option.bind_eq_some_iff.1 h
    obtain ⟨e, he, rfl⟩ := Option.map_eq_some_iff.1 h
    have := length_fraction? hf
    have := length_exponent? he
    have split : (digits s).1 ++ (digits s).2 = s := List.takeWhile_append_dropWhile
    have some_digit : 0 < (digits s).1.length := by
      simp [isWhole] at whole
      exact List.length_pos_iff.2 whole.1
    have := congrArg List.length split
    rw [List.length_append] at this
    simp only; omega
  · simp at h

theorem length_afterWord? {word : List Char} {s r : Bytes} (h : afterWord? word s = some r) :
    r.length ≤ s.length := by
  rw [afterWord?] at h
  split at h
  · simp at h; simp [← h]
  · simp at h

theorem length_scan? {s : Bytes} {r : Token × Bytes} (h : scan? s = some r) :
    r.2.length < s.length := by
  cases s with
  | nil => simp [scan?] at h
  | cons b s =>
    rw [scan?] at h
    split at h
    · cases h; simp
    · split at h
      · obtain ⟨q, hq, rfl⟩ := Option.map_eq_some_iff.1 h
        have := Literal.length_scan? hq
        simp only [List.length_cons]; omega
      · split at h
        · have := length_unsigned? h
          simp only [List.length_cons]; omega
        · split at h
          · exact length_unsigned? h
          · obtain ⟨w, -, h⟩ := Option.bind_eq_some_iff.1 h
            obtain ⟨q, hq, rfl⟩ := Option.map_eq_some_iff.1 h
            have := length_afterWord? hq
            simp only [List.length_cons]; omega

def list? (s : Bytes) : Option (List Token) :=
  if s.dropWhile isBlankByte = [] then some []
  else
    match _h : scan? (s.dropWhile isBlankByte) with
    | none => none
    | some (t, rest) => (list? rest).map (t :: ·)
termination_by s.length
decreasing_by
  have shorter := length_scan? _h
  have := (List.dropWhile_suffix isBlankByte (l := s)).length_le
  simp only at shorter; omega

end Token

end Lookaside.Json
