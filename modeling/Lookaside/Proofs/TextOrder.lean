import Lookaside.Bytes
import Mathlib

namespace Lookaside.Bytes

theorem cons_ofNat_lt {m n : Nat} (small : n < 256) {s t : Bytes} (h : m < n ∨ m = n ∧ s < t) :
    UInt8.ofNat m :: s < UInt8.ofNat n :: t := by
  rw [List.cons_lt_cons_iff]
  refine h.imp (fun lt => ?_) (fun ⟨same, lt⟩ => ⟨congrArg _ same, lt⟩)
  rw [UInt8.lt_iff_toNat_lt, UInt8.toNat_ofNat_of_lt' small, UInt8.toNat_ofNat_of_lt' (lt.trans small)]
  exact lt

def sextets : Nat → Nat → Bytes
  | 0, _ => []
  | k + 1, n => UInt8.ofNat (n / 64 ^ k % 64 + 128) :: sextets k n

theorem sextets_lt {m n : Nat} (lt : m < n) {k : Nat} (high : m / 64 ^ k = n / 64 ^ k) (s t : Bytes) :
    sextets k m ++ s < sextets k n ++ t := by
  induction k with
  | zero =>
      rw [Nat.pow_zero, Nat.div_one, Nat.div_one] at high
      omega
  | succ k ih =>
      rw [Nat.pow_succ, ← Nat.div_div_eq_div_mul, ← Nat.div_div_eq_div_mul] at high
      have le : m / 64 ^ k ≤ n / 64 ^ k := Nat.div_le_div_right (Nat.le_of_lt lt)
      refine cons_ofNat_lt (by omega) ?_
      rcases Nat.lt_or_ge (m / 64 ^ k) (n / 64 ^ k) with less | same
      · exact .inl (by omega)
      · have same := Nat.le_antisymm le same
        exact .inr ⟨by rw [same], ih same⟩

def following (n : Nat) : Nat :=
  if n ≤ 127 then 0 else if n ≤ 2047 then 1 else if n ≤ 65535 then 2 else 3

def lead (n : Nat) : Nat :=
  n / 64 ^ following n + if n ≤ 127 then 0 else if n ≤ 2047 then 192 else if n ≤ 65535 then 224 else 240

theorem lead_small {n : Nat} (h : n < 1114112) : lead n < 256 := by
  rw [lead, following]
  split
  · omega
  · split
    · omega
    · split <;> omega

theorem lead_lt {m n : Nat} (lt : m < n) :
    lead m < lead n ∨ lead m = lead n ∧ following m = following n ∧
      m / 64 ^ following m = n / 64 ^ following m := by
  simp only [lead, following]
  split_ifs <;> simp only [Nat.reducePow, true_and] <;> omega

theorem toNat_lt (c : Char) : c.toNat < 1114112 := by
  have valid := c.valid
  simp only [UInt32.isValidChar, Nat.isValidChar] at valid
  show c.val.toNat < 1114112
  omega

theorem utf8EncodeChar_eq (c : Char) :
    String.utf8EncodeChar c = UInt8.ofNat (lead c.toNat) :: sextets (following c.toNat) c.toNat := by
  have top := toNat_lt c
  simp only [String.utf8EncodeChar, Char.toNat_val, lead, following]
  generalize c.toNat = n at top ⊢
  split_ifs <;> simp (disch := omega) only [sextets, Nat.reducePow, Nat.div_one, Nat.add_zero, Nat.mod_eq_of_lt]

theorem utf8EncodeChar_append_lt {c d : Char} (lt : c < d) (s t : Bytes) :
    String.utf8EncodeChar c ++ s < String.utf8EncodeChar d ++ t := by
  have less : c.toNat < d.toNat := lt
  rw [utf8EncodeChar_eq, utf8EncodeChar_eq, List.cons_append, List.cons_append]
  refine cons_ofNat_lt (lead_small (toNat_lt d)) ?_
  rcases lead_lt less with first | ⟨same, length, high⟩
  · exact .inl first
  · exact .inr ⟨same, length ▸ sextets_lt less high s t⟩

theorem ofText_eq (s : String) : ofText s = s.toList.flatMap String.utf8EncodeChar := by
  rw [ofText, ← String.utf8Encode_toList, List.utf8Encode, List.toList_data_toByteArray]

theorem encode_lt {cs ds : List Char} (lt : cs < ds) :
    cs.flatMap String.utf8EncodeChar < ds.flatMap String.utf8EncodeChar := by
  induction ds generalizing cs with
  | nil => exact absurd lt (List.not_lt_nil cs)
  | cons d ds ih =>
      cases cs with
      | nil =>
          rw [List.flatMap_cons, utf8EncodeChar_eq, List.cons_append]
          exact List.nil_lt_cons _ _
      | cons c cs =>
          rw [List.flatMap_cons, List.flatMap_cons]
          rcases List.cons_lt_cons_iff.1 lt with less | ⟨rfl, rest⟩
          · exact utf8EncodeChar_append_lt less _ _
          · exact List.append_left_lt (ih rest)

/-- Texts that are in order character by character are so byte by byte. -/
theorem ofText_lt_ofText {a b : String} (lt : a < b) : ofText a < ofText b := by
  rw [String.lt_iff_toList_lt] at lt
  rw [ofText_eq, ofText_eq]
  exact encode_lt lt

end Lookaside.Bytes
