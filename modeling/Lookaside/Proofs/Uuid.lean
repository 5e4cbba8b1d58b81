import Lookaside.Uuid

namespace Lookaside

namespace Digits

theorem mapM_hex?_char {ds : List Nat} (small : ∀ d ∈ ds, d < 16) :
    (ds.map char).mapM hex? = some ds := by
  induction ds with
  | nil => rfl
  | cons d ds ih =>
      have head := hex?_char (small d (by simp))
      have tail := ih fun x member => small x (by simp [member])
      simp [List.mapM_cons, head, tail]

end Digits

namespace Uuid

theorem length_digits (u : Uuid) : u.digits.length = 32 := by
  simp [digits, Digits.length_fixed]

theorem ofDigits?_digits (u : Uuid) : ofDigits? u.digits = some u := by
  have small : ∀ d ∈ Digits.fixed 16 32 u.bits.toNat, d < 16 :=
    fun d member => Digits.lt_of_mem_fixed member (by decide)
  have value : Digits.value 16 (Digits.fixed 16 32 u.bits.toNat) = u.bits.toNat :=
    Digits.value_fixed 16 32 _ u.bits.isLt
  rw [ofDigits?, if_pos u.length_digits, digits, Digits.mapM_hex?_char small, Option.map_some, value,
    BitVec.ofNat_toNat, BitVec.setWidth_eq]

theorem length_hyphenate {cs : List Char} (h : cs.length = 32) : (hyphenate cs).length = 36 := by
  simp [hyphenate, h]

theorem groups_append (cs : List Char) :
    cs.take 8 ++ ((cs.drop 8).take 4 ++ ((cs.drop 12).take 4 ++ ((cs.drop 16).take 4 ++
      cs.drop 20))) = cs := by
  have fourth : (cs.drop 16).take 4 ++ cs.drop 20 = cs.drop 16 := by
    simpa using List.take_append_drop 4 (cs.drop 16)
  have third : (cs.drop 12).take 4 ++ cs.drop 16 = cs.drop 12 := by
    simpa using List.take_append_drop 4 (cs.drop 12)
  have second : (cs.drop 8).take 4 ++ cs.drop 12 = cs.drop 8 := by
    simpa using List.take_append_drop 4 (cs.drop 8)
  rw [fourth, third, second, List.take_append_drop]

theorem dehyphenate?_hyphenate {cs : List Char} (h : cs.length = 32) :
    dehyphenate? (hyphenate cs) = some cs := by
  have plain : (hyphenate cs).take 8 ++ ((hyphenate cs).drop 9).take 4 ++
      ((hyphenate cs).drop 14).take 4 ++ ((hyphenate cs).drop 19).take 4 ++
      (hyphenate cs).drop 24 = cs := by
    simpa [hyphenate, List.drop_append, h, List.drop_take, List.append_assoc] using
      groups_append cs
  rw [dehyphenate?]
  simp only [plain, if_true]

theorem read?_write (u : Uuid) : read? u.write = some u := by
  have length : u.write.length = 36 := length_hyphenate u.length_digits
  rw [read?, if_neg (by simp [length]), if_pos length, ofHyphenated?, write,
    dehyphenate?_hyphenate u.length_digits, Option.bind_some, ofDigits?_digits]

end Uuid

end Lookaside
