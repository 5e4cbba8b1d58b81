namespace Lookaside.Digits

def value (base : Nat) (ds : List Nat) : Nat :=
  ds.foldl (fun n d => base * n + d) 0

def fixed (base : Nat) : Nat → Nat → List Nat
  | 0, _ => []
  | width + 1, n => fixed base width (n / base) ++ [n % base]

def decimal (n : Nat) : List Nat :=
  if n < 10 then [n] else decimal (n / 10) ++ [n % 10]
termination_by n
decreasing_by omega

@[simp] theorem value_concat (base : Nat) (ds : List Nat) (d : Nat) :
    value base (ds ++ [d]) = base * value base ds + d := by
  simp [value]

theorem length_fixed (base width n : Nat) : (fixed base width n).length = width := by
  induction width generalizing n with
  | zero => rfl
  | succ width ih => simp [fixed, ih]

theorem value_fixed (base width n : Nat) (h : n < Nat.pow base width) :
    value base (fixed base width n) = n := by
  induction width generalizing n with
  | zero => simp at h; simp [fixed, value, h]
  | succ width ih =>
    have bound : n / base < Nat.pow base width :=
      Nat.div_lt_of_lt_mul (by rw [Nat.mul_comm]; exact h)
    rw [fixed, value_concat, ih _ bound]
    exact Nat.div_add_mod n base

theorem value_decimal (n : Nat) : value 10 (decimal n) = n := by
  fun_induction decimal n with
  | case1 n h => simp [value]
  | case2 n h ih => rw [value_concat, ih]; omega

theorem lt_of_mem_fixed {base width n d : Nat} (h : d ∈ fixed base width n) (pos : 0 < base) :
    d < base := by
  induction width generalizing n with
  | zero => simp [fixed] at h
  | succ width ih =>
    simp only [fixed, List.mem_append, List.mem_singleton] at h
    rcases h with h | rfl
    · exact ih h
    · exact Nat.mod_lt _ pos

theorem lt_of_mem_decimal {n d : Nat} (h : d ∈ decimal n) : d < 10 := by
  fun_induction decimal n with
  | case1 n small => simp at h; omega
  | case2 n big ih =>
    simp only [List.mem_append, List.mem_singleton] at h
    rcases h with h | rfl
    · exact ih h
    · omega

theorem decimal_injective {m n : Nat} (h : decimal m = decimal n) : m = n := by
  rw [← value_decimal m, h, value_decimal]

abbrev char (d : Nat) : Char := Nat.digitChar d

def hex? (c : Char) : Option Nat :=
  if '0' ≤ c ∧ c ≤ '9' then some (c.toNat - '0'.toNat)
  else if 'a' ≤ c ∧ c ≤ 'f' then some (c.toNat - 'a'.toNat + 10)
  else if 'A' ≤ c ∧ c ≤ 'F' then some (c.toNat - 'A'.toNat + 10)
  else none

def decimal? (c : Char) : Option Nat :=
  if '0' ≤ c ∧ c ≤ '9' then some (c.toNat - '0'.toNat) else none

theorem hex?_char {d : Nat} (h : d < 16) : hex? (char d) = some d := by
  revert d; decide

theorem decimal?_char {d : Nat} (h : d < 10) : decimal? (char d) = some d := by
  revert d; decide

def ofInt (i : Int) : List Char :=
  if i < 0 then '-' :: (decimal i.natAbs).map char else (decimal i.natAbs).map char

end Lookaside.Digits
