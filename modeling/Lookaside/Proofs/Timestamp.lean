import Lookaside.Calendar.Reader

namespace Lookaside.Digits

theorem filterMap_decimal?_char {ds : List Nat} (small : ∀ d ∈ ds, d < 10) :
    (ds.map char).filterMap decimal? = ds := by
  induction ds with
  | nil => rfl
  | cons d ds ih =>
      rw [List.map_cons, List.filterMap_cons_some (decimal?_char (small d (by simp))),
        ih fun x member => small x (by simp [member])]

theorem value_append_zeros (ds : List Nat) (k : Nat) :
    value 10 (ds ++ List.replicate k 0) = value 10 ds * Nat.pow 10 k := by
  induction k with
  | zero => simp
  | succ k ih =>
      have shift : Nat.pow 10 (k + 1) = Nat.pow 10 k * 10 := rfl
      rw [List.replicate_succ', ← List.append_assoc, value_concat, ih, shift, Nat.add_zero,
        Nat.mul_comm 10, Nat.mul_assoc]

theorem isBlank_char {d : Nat} (h : d < 10) : isBlank (char d) = false := by
  revert d; decide

end Lookaside.Digits

namespace Lookaside.Calendar

open Digits

theorem dropBlanks_cons {c : Char} (cs : List Char) (h : isBlank c = false) :
    dropBlanks (c :: cs) = c :: cs := by
  simp [dropBlanks, h]

theorem padded_cons (width n : Nat) (pos : 0 < width) :
    ∃ d cs, d < 10 ∧ UtcTime.padded width n = char d :: cs := by
  cases h : fixed 10 width n with
  | nil =>
      have := length_fixed 10 width n
      rw [h] at this
      simp at this
      omega
  | cons d ds =>
      exact ⟨d, ds.map char, lt_of_mem_fixed (by rw [h]; simp) (by decide),
        by rw [UtcTime.padded, h, List.map_cons]⟩

namespace Reader

theorem number?_append (width : Nat) {ds : List Nat} (rest : List Char) (any : ds ≠ [])
    (small : ∀ d ∈ ds, d < 10) (fits : ds.length ≤ width)
    (stop : (rest.take (width - ds.length)).takeWhile (fun c => (decimal? c).isSome) = []) :
    number? width (ds.map char ++ rest) = some (value 10 ds, rest) := by
  have digit : ∀ c ∈ ds.map char, (decimal? c).isSome = true := by
    intro c member
    obtain ⟨d, hd, rfl⟩ := List.mem_map.1 member
    rw [decimal?_char (small d hd)]
    rfl
  have taken : ((ds.map char ++ rest).take width).takeWhile (fun c => (decimal? c).isSome) =
      ds.map char := by
    rw [List.take_append, List.take_of_length_le (by simpa using fits), List.length_map,
      List.takeWhile_append_of_pos digit, stop, List.append_nil]
  rw [number?]
  simp only [taken, filterMap_decimal?_char small, List.drop_left]
  simp [any]

theorem number?_padded (width : Nat) {n : Nat} (rest : List Char) (pos : 0 < width)
    (h : n < Nat.pow 10 width) :
    number? width (UtcTime.padded width n ++ rest) = some (n, rest) := by
  have length := length_fixed 10 width n
  have any : fixed 10 width n ≠ [] := by
    intro nil
    rw [nil] at length
    simp at length
    omega
  have read := number?_append width rest any
    (fun d member => lt_of_mem_fixed member (by decide)) (by omega) (by simp [length])
  rwa [value_fixed 10 width n h] at read

theorem pair?_padded {n : Nat} (rest : List Char) (h : n < 100) :
    pair? (UtcTime.padded 2 n ++ rest) = some (n, rest) := by
  obtain ⟨d, cs, small, start⟩ := padded_cons 2 n (by decide)
  have read := number?_padded 2 rest (by decide) h
  rw [start, List.cons_append] at read ⊢
  rw [pair?, dropBlanks_cons _ (isBlank_char small), read]

theorem next?_padded {separator : Char} {n : Nat} (rest : List Char)
    (visible : isBlank separator = false) (h : n < 100) :
    next? separator (separator :: (UtcTime.padded 2 n ++ rest)) = some (n, rest) := by
  rw [next?, dropBlanks_cons _ visible, char?, if_pos rfl, Option.bind_some, pair?_padded rest h]

def yearDigits (n : Nat) : List Nat :=
  if n ≤ 9999 then fixed 10 4 n else decimal n

theorem value_yearDigits (n : Nat) : value 10 (yearDigits n) = n := by
  rw [yearDigits]
  split
  · next short => exact value_fixed 10 4 n (show n < 10000 by omega)
  · exact value_decimal n

theorem lt_of_mem_yearDigits {n d : Nat} (h : d ∈ yearDigits n) : d < 10 := by
  rw [yearDigits] at h
  split at h
  · exact lt_of_mem_fixed h (by decide)
  · exact lt_of_mem_decimal h

theorem yearDigits_ne_nil (n : Nat) : yearDigits n ≠ [] := by
  rw [yearDigits]
  split
  · simp [fixed]
  · rw [decimal]
    split <;> simp

theorem writeYear_signed {year : Int} (h : ¬ (0 ≤ year ∧ year ≤ 9999)) :
    UtcTime.writeYear year =
      (if year < 0 then '-' else '+') :: (yearDigits year.natAbs).map char := by
  rw [UtcTime.writeYear, if_neg h, yearDigits, apply_ite (List.map char)]
  rfl

theorem year?_writeYear (year : Int) (rest : List Char) :
    year? (UtcTime.writeYear year ++ '-' :: rest) = some (year, '-' :: rest) := by
  by_cases plain : 0 ≤ year ∧ year ≤ 9999
  · have small : year.natAbs < 10000 := by omega
    have read := number?_padded 4 ('-' :: rest) (by decide) small
    obtain ⟨d, cs, hd, start⟩ := padded_cons 4 year.natAbs (by decide)
    have minus : char d ≠ '-' := by clear start; revert d; decide
    have plus : char d ≠ '+' := by clear start minus; revert d; decide
    rw [UtcTime.writeYear, if_pos plain]
    rw [start, List.cons_append] at read ⊢
    rw [year?, dropBlanks_cons _ (isBlank_char hd)]
    split
    · next h => exact absurd (List.cons.inj h).1 minus
    · next h => exact absurd (List.cons.inj h).1 plus
    · rw [read, Option.map_some, Int.natAbs_of_nonneg plain.1]
  · have stop (k : Nat) : (('-' :: rest).take k).takeWhile (fun c => (decimal? c).isSome) = [] := by
      cases k with
      | zero => rfl
      | succ k =>
          rw [List.take_succ_cons, List.takeWhile_cons_of_neg (by decide)]
    have read := number?_append ((yearDigits year.natAbs).map char ++ '-' :: rest).length
      ('-' :: rest) (yearDigits_ne_nil year.natAbs) (fun d => lt_of_mem_yearDigits) (by simp) (stop _)
    rw [value_yearDigits] at read
    rw [writeYear_signed plain]
    by_cases negative : year < 0
    · rw [if_pos negative, List.cons_append, year?, dropBlanks_cons _ (by decide)]
      simp only [read, Option.map_some, Option.some.injEq, Prod.mk.injEq, and_true]
      omega
    · rw [if_neg negative, List.cons_append, year?, dropBlanks_cons _ (by decide)]
      simp only [read, Option.map_some, Option.some.injEq, Prod.mk.injEq, and_true]
      omega

theorem fraction?_padded (width : Nat) {n : Nat} (pos : 0 < width) (fits : width ≤ 9)
    (h : n < Nat.pow 10 width) :
    fraction? ('.' :: (UtcTime.padded width n ++ ['Z'])) =
      some (n * Nat.pow 10 (9 - width), ['Z']) := by
  have length : (UtcTime.padded width n).length = width := by
    rw [UtcTime.padded, List.length_map, length_fixed]
  have small : ∀ d ∈ fixed 10 width n, d < 10 := fun d member => lt_of_mem_fixed member (by decide)
  have digit : ∀ c ∈ UtcTime.padded width n, (decimal? c).isSome = true := by
    intro c member
    obtain ⟨d, hd, rfl⟩ := List.mem_map.1 member
    rw [decimal?_char (small d hd)]
    rfl
  have taken : (UtcTime.padded width n ++ ['Z']).takeWhile (fun c => (decimal? c).isSome) =
      UtcTime.padded width n := by
    rw [List.takeWhile_append_of_pos digit, List.takeWhile_cons_of_neg (by decide), List.append_nil]
  have any : UtcTime.padded width n ≠ [] := by
    intro nil
    rw [nil] at length
    exact absurd length.symm (Nat.ne_of_gt pos)
  have kept : (UtcTime.padded width n).take 9 = UtcTime.padded width n :=
    List.take_of_length_le (by rw [length]; exact fits)
  have value : value 10 ((UtcTime.padded width n).filterMap decimal? ++
      List.replicate (9 - width) 0) = n * Nat.pow 10 (9 - width) := by
    rw [UtcTime.padded, filterMap_decimal?_char small, value_append_zeros,
      value_fixed 10 width n h]
  rw [fraction?]
  have rest : (UtcTime.padded width n ++ ['Z']).drop width = ['Z'] := List.drop_left' length
  simp only [taken, kept, value, if_neg any, length, rest]

theorem fraction?_writeFraction {nano : Nat} (h : nano < 1000000000) :
    fraction? (UtcTime.writeFraction nano ++ ['Z']) = some (nano, ['Z']) := by
  rw [UtcTime.writeFraction]
  split
  · next zero => rw [zero]; rfl
  split
  · next millis =>
      have small : nano / 1000000 < 1000 := by omega
      have value : nano / 1000000 * 1000000 = nano := by omega
      rw [List.cons_append, fraction?_padded 3 (by decide) (by decide) small]
      exact congrArg (fun n => some (n, ['Z'])) value
  split
  · next micros =>
      have small : nano / 1000 < 1000000 := by omega
      have value : nano / 1000 * 1000 = nano := by omega
      rw [List.cons_append, fraction?_padded 6 (by decide) (by decide) small]
      exact congrArg (fun n => some (n, ['Z'])) value
  · rw [List.cons_append, fraction?_padded 9 (by decide) (by decide) h]
    exact congrArg (fun n => some (n, ['Z'])) (Nat.mul_one nano)

theorem toUtc?_zero {date : Date} {hour minute second nano : Nat}
    (h : IsTime hour minute second nano) :
    toUtc? date hour minute second nano 0 = some ⟨date, hour, minute, second, nano, h⟩ := by
  have bounds : hour < 24 ∧ minute < 60 := ⟨h.1, h.2.1⟩
  have hours : ((60 * hour + minute : Int) - 0) % 1440 = (60 * hour + minute : Nat) := by omega
  rw [toUtc?, dif_pos h]
  have early : ¬ (60 * hour + minute : Int) - 0 < 0 := by omega
  have late : (60 * hour + minute : Int) - 0 < 1440 := by omega
  simp only [hours, if_neg early, if_pos late, Int.toNat_natCast, Option.map_some]
  congr 2 <;> omega

end Reader

open Reader in
theorem UtcTime.read?_write (t : UtcTime) : UtcTime.read? t.write = some t := by
  obtain ⟨date, hour, minute, second, nano, isTime⟩ := t
  obtain ⟨hh, hm, hs, hn⟩ := isTime
  obtain ⟨year, month, day, isDate⟩ := date
  have days : daysIn year month ≤ 31 := by
    rw [daysIn]
    repeat' split
    all_goals decide
  have month_lt : month < 100 := by have := isDate.2.2.2.1; omega
  have day_lt : day < 100 := by have := isDate.2.2.2.2.2; omega
  rw [UtcTime.read?, UtcTime.write]
  simp only [List.append_assoc, List.cons_append]
  rw [year?_writeYear]
  simp only [Option.bind_eq_bind, Option.bind_some]
  rw [next?_padded _ (by decide) month_lt]
  simp only [Option.bind_some]
  rw [next?_padded _ (by decide) day_lt]
  simp only [Option.bind_some, separator?, true_or, if_true]
  rw [pair?_padded _ (by omega)]
  simp only [Option.bind_some]
  rw [next?_padded _ (by decide) (by omega)]
  simp only [Option.bind_some]
  rw [next?_padded _ (by decide) (by omega)]
  simp only [Option.bind_some]
  rw [fraction?_writeFraction hn]
  simp only [Option.bind_some, dropBlanks_cons [] (show isBlank 'Z' = false by decide), offset?]
  rw [if_neg (by simp [dropBlanks]), Date.of?, dif_pos isDate]
  exact toUtc?_zero ⟨hh, hm, hs, hn⟩

end Lookaside.Calendar
