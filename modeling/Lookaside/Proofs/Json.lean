import Lookaside.Json.Format
import Mathlib.Data.List.Forall2

namespace Lookaside.Digits

theorem head?_decimal_ne_zero {n : Nat} (pos : 0 < n) : (decimal n).head? ≠ some 0 := by
  fun_induction decimal n with
  | case1 n small => simpa using Nat.ne_of_gt pos
  | case2 n big ih =>
      have rest := ih (by omega)
      cases h : decimal (n / 10) with
      | nil =>
          have := value_decimal (n / 10)
          rw [h] at this
          simp [value] at this
          omega
      | cons d ds => simpa [h] using rest

theorem decimal_ne_nil (n : Nat) : decimal n ≠ [] := by
  rw [decimal]
  split <;> simp

end Lookaside.Digits

namespace Lookaside.Json

def Scalar.token : Scalar → Token
  | .null => .null
  | .flag b => .flag b
  | .integer i => .integer i
  | .text s => .text (Literal.pieces s)

theorem Scalar.scan?_token (x : Scalar) (ts : List Token) :
    Item.scan? (x.token :: ts) = some (x.item, ts) := by
  cases x <;> rfl

namespace Token

def Delimited (s : Bytes) : Prop :=
  ∃ b r, s = b :: r ∧ (b = Ascii.comma ∨ b = Ascii.braceClose)

def digitBytes (n : Nat) : Bytes :=
  Bytes.ofAscii ((Digits.decimal n).map Digits.char)

theorem digitBytes_eq (n : Nat) :
    digitBytes n = (Digits.decimal n).map fun d => Ascii.ofChar (Digits.char d) := by
  simp [digitBytes, Bytes.ofAscii]

theorem isDigit_char {d : Nat} (h : d < 10) : Ascii.isDigit (Ascii.ofChar (Digits.char d)) = true := by
  revert d; decide

theorem char_sub_zero {d : Nat} (h : d < 10) :
    (Ascii.ofChar (Digits.char d)).toNat - Ascii.zero.toNat = d := by
  revert d; decide

theorem isDigit_of_mem_digitBytes {n : Nat} {b : UInt8} (h : b ∈ digitBytes n) :
    Ascii.isDigit b = true := by
  rw [digitBytes_eq] at h
  obtain ⟨d, member, rfl⟩ := List.mem_map.1 h
  exact isDigit_char (Digits.lt_of_mem_decimal member)

theorem digits_digitBytes (n : Nat) {rest : Bytes} (stop : Delimited rest) :
    digits (digitBytes n ++ rest) = (digitBytes n, rest) := by
  obtain ⟨b, r, rfl, h⟩ := stop
  have all : ∀ c ∈ digitBytes n, Ascii.isDigit c = true := fun c => isDigit_of_mem_digitBytes
  have other : Ascii.isDigit b = false := by rcases h with rfl | rfl <;> decide
  rw [digits, List.takeWhile_append_of_pos all, List.dropWhile_append_of_pos all]
  simp [other]

theorem magnitude_digitBytes (n : Nat) : magnitude (digitBytes n) = n := by
  have back : (Digits.decimal n).map (fun d => (Ascii.ofChar (Digits.char d)).toNat - Ascii.zero.toNat) =
      Digits.decimal n :=
    (List.map_congr_left fun d member => char_sub_zero (Digits.lt_of_mem_decimal member)).trans
      (List.map_id' _)
  rw [magnitude, digitBytes_eq, List.map_map]
  exact (congrArg (Digits.value 10) back).trans (Digits.value_decimal n)

theorem isWhole_digitBytes (n : Nat) : isWhole (digitBytes n) = true := by
  have zero : ∀ d < 10, Ascii.ofChar (Digits.char d) = Ascii.zero → d = 0 := by decide
  rw [digitBytes_eq]
  cases h : Digits.decimal n with
  | nil => exact absurd h (Digits.decimal_ne_nil n)
  | cons d ds =>
      have small : d < 10 := Digits.lt_of_mem_decimal (n := n) (by simp [h])
      by_cases first : d = 0
      · rcases Nat.eq_zero_or_pos n with rfl | pos
        · rw [Digits.decimal, if_pos (by decide)] at h
          simp [isWhole, ← (List.cons.inj h).2]
        · exact absurd (by simp [h, first]) (Digits.head?_decimal_ne_zero pos)
      · simp only [isWhole, List.map_cons]
        simpa using Or.inl fun same => first (zero d small same)

theorem unsigned?_digitBytes (negative : Bool) (n : Nat) {rest : Bytes} (stop : Delimited rest) :
    unsigned? negative (digitBytes n ++ rest) =
      some (ofNumber negative (digitBytes n) false, rest) := by
  rw [unsigned?, digits_digitBytes n stop, if_pos (isWhole_digitBytes n)]
  obtain ⟨b, r, rfl, h⟩ := stop
  have dot : b ≠ Ascii.dot := by rcases h with rfl | rfl <;> decide
  have e : (b = Ascii.ofChar 'e' || b = Ascii.ofChar 'E') = false := by
    rcases h with rfl | rfl <;> decide
  simp only [fraction?, if_neg dot, Option.bind_some, exponent?, e]
  rfl

theorem punctuation?_digit {b : UInt8} (h : Ascii.isDigit b = true) : punctuation? b = none := by
  rw [punctuation?]
  repeat' split
  all_goals first | rfl | (rename_i same; subst same; revert h; decide)

theorem scan?_integer (i : Int) {rest : Bytes} (stop : Delimited rest) :
    scan? (Bytes.ofAscii (Digits.ofInt i) ++ rest) = some (.integer i, rest) := by
  by_cases negative : i < 0
  · have minus : Bytes.ofAscii (Digits.ofInt i) = Ascii.minus :: digitBytes i.natAbs := by
      simp [Digits.ofInt, negative, Bytes.ofAscii, digitBytes]
    rw [minus, List.cons_append, scan?]
    have nonzero : i.natAbs ≠ 0 := by omega
    have value : -(i.natAbs : Int) = i := by omega
    simp only [show punctuation? Ascii.minus = none from rfl,
      if_neg (show ¬ Ascii.minus = Ascii.quote by decide), if_pos, unsigned?_digitBytes true _ stop,
      ofNumber, magnitude_digitBytes, nonzero, value, Bool.false_eq_true, if_false]
  · have plain : Bytes.ofAscii (Digits.ofInt i) = digitBytes i.natAbs := by
      simp [Digits.ofInt, negative, digitBytes]
    have value : (i.natAbs : Int) = i := by omega
    rw [plain]
    have read := unsigned?_digitBytes false i.natAbs stop
    cases h : digitBytes i.natAbs with
    | nil => exact absurd (by simpa [digitBytes_eq] using h) (Digits.decimal_ne_nil i.natAbs)
    | cons b bs =>
        have digit : Ascii.isDigit b = true := isDigit_of_mem_digitBytes (n := i.natAbs) (by simp [h])
        have quote : b ≠ Ascii.quote := by rintro rfl; revert digit; decide
        have minus : b ≠ Ascii.minus := by rintro rfl; revert digit; decide
        rw [h] at read
        rw [List.cons_append] at read ⊢
        rw [scan?, punctuation?_digit digit]
        simp only [if_neg quote, if_neg minus, if_pos digit, read, ← h, ofNumber,
          magnitude_digitBytes, value, Bool.false_eq_true, if_false]

theorem scan?_scalar (x : Scalar) {rest : Bytes} (stop : Delimited rest) :
    scan? (x.write ++ rest) = some (x.token, rest) := by
  cases x with
  | null => rfl
  | flag b => cases b <;> rfl
  | integer i => exact scan?_integer i stop
  | text s =>
      have read := Literal.scan?_write s rest
      simp only [Scalar.write, Literal.write, List.cons_append, List.append_assoc,
        List.nil_append] at read ⊢
      rw [scan?, show punctuation? Ascii.quote = none from rfl]
      simp only [if_pos, read, Option.map_some, Scalar.token]

theorem write_scalar_cons (x : Scalar) : ∃ b s, x.write = b :: s ∧ isBlankByte b = false := by
  cases x with
  | null => exact ⟨_, _, rfl, by decide⟩
  | flag b => cases b <;> exact ⟨_, _, rfl, by decide⟩
  | text s => exact ⟨_, _, rfl, by decide⟩
  | integer i =>
      by_cases negative : i < 0
      · exact ⟨Ascii.minus, digitBytes i.natAbs,
          by simp [Scalar.write, Digits.ofInt, negative, Bytes.ofAscii, digitBytes], by decide⟩
      · have plain : (Scalar.integer i).write = digitBytes i.natAbs := by
          simp [Scalar.write, Digits.ofInt, negative, digitBytes]
        cases h : digitBytes i.natAbs with
        | nil => exact absurd (by simpa [digitBytes_eq] using h) (Digits.decimal_ne_nil i.natAbs)
        | cons b bs =>
            refine ⟨b, bs, plain.trans h, ?_⟩
            have digit : Ascii.isDigit b = true :=
              isDigit_of_mem_digitBytes (n := i.natAbs) (by simp [h])
            simp only [isBlankByte, Bool.or_eq_false_iff, decide_eq_false_iff_not]
            refine ⟨⟨⟨?_, ?_⟩, ?_⟩, ?_⟩ <;> (rintro rfl; revert digit; decide)

theorem list?_scan {b : UInt8} {s rest : Bytes} {t : Token} (visible : isBlankByte b = false)
    (read : scan? (b :: s) = some (t, rest)) : list? (b :: s) = (list? rest).map (t :: ·) := by
  have whole : (b :: s).dropWhile isBlankByte = b :: s := by simp [visible]
  rw [list?, whole, if_neg (by simp)]
  split
  · next h => rw [read] at h; cases h
  · next h =>
      rw [read] at h
      cases h
      rfl

theorem list?_punctuation {b : UInt8} {t : Token} (rest : Bytes) (h : punctuation? b = some t)
    (visible : isBlankByte b = false) : list? (b :: rest) = (list? rest).map (t :: ·) :=
  list?_scan visible (by rw [scan?, h])

theorem list?_scalar (x : Scalar) {rest : Bytes} (stop : Delimited rest) :
    list? (x.write ++ rest) = (list? rest).map (x.token :: ·) := by
  obtain ⟨b, s, h, visible⟩ := write_scalar_cons x
  have read := scan?_scalar x stop
  rw [h, List.cons_append] at read ⊢
  exact list?_scan visible read

theorem list?_literal (s : String) (rest : Bytes) :
    list? (Literal.write s ++ rest) = (list? rest).map (.text (Literal.pieces s) :: ·) := by
  have read := Literal.scan?_write s rest
  simp only [Literal.write, List.cons_append, List.append_assoc, List.nil_append]
  refine list?_scan (by decide) ?_
  rw [scan?, show punctuation? Ascii.quote = none from rfl]
  simp only [if_pos, read, Option.map_some]

end Token

namespace Record

def fieldTokens (field : String × Scalar) : List Token :=
  [.text (Literal.pieces field.1), .colon, field.2.token]

def tokens (fields : List (String × Scalar)) : List Token :=
  List.intercalate [.comma] (fields.map fieldTokens) ++ [.closing .object]

theorem list?_writeField (field : String × Scalar) {rest : Bytes} (stop : Token.Delimited rest) :
    Token.list? (writeField field ++ rest) = (Token.list? rest).map (fieldTokens field ++ ·) := by
  rw [writeField, List.append_assoc, Token.list?_literal, List.cons_append,
    Token.list?_punctuation _ rfl (by decide), Token.list?_scalar _ stop]
  cases Token.list? rest <;> rfl

theorem list?_writeFields (fields : List (String × Scalar)) :
    Token.list? (List.intercalate [Ascii.comma] (fields.map writeField) ++ [Ascii.braceClose]) =
      some (tokens fields) := by
  have last : Token.list? [Ascii.braceClose] = some [.closing .object] := by
    rw [Token.list?_punctuation [] rfl (by decide), Token.list?]
    simp
  induction fields with
  | nil => exact last
  | cons field fields ih =>
      cases fields with
      | nil =>
          simp only [List.map_cons, List.map_nil, List.intercalate_singleton, tokens]
          rw [list?_writeField field ⟨_, _, rfl, Or.inr rfl⟩, last]
          rfl
      | cons next fields =>
          simp only [List.map_cons, List.intercalate_cons_cons, tokens, List.append_assoc,
            List.cons_append, List.nil_append] at ih ⊢
          rw [list?_writeField field ⟨_, _, rfl, Or.inl rfl⟩,
            Token.list?_punctuation _ rfl (by decide), ih]
          rfl

end Record

namespace Outline

theorem members?_tokens (fields : List (String × Scalar)) (some_field : fields ≠ []) :
    members? (Record.tokens fields) = some (fields.map fun f => (f.1, f.2.item)) := by
  induction fields with
  | nil => exact absurd rfl some_field
  | cons field fields ih =>
      cases fields with
      | nil =>
          rw [members?.eq_def]
          simp only [Record.tokens, Record.fieldTokens, List.map_cons, List.map_nil,
            List.intercalate_singleton, List.cons_append, List.nil_append,
            Literal.text?_pieces, Option.bind_some]
          split
          all_goals simp_all [Scalar.scan?_token]
      | cons next fields =>
          have rest := ih (by simp)
          rw [members?.eq_def]
          simp only [Record.tokens, List.map_cons, List.intercalate_cons_cons,
            Record.fieldTokens, List.cons_append, List.nil_append, Literal.text?_pieces,
            Option.bind_some] at rest ⊢
          split
          all_goals simp_all [Scalar.scan?_token]

theorem ofBytes?_write (fields : List (String × Scalar)) :
    ofBytes? (Record.write fields) = some (.object (fields.map fun f => (f.1, f.2.item))) := by
  rw [ofBytes?, Record.write, Token.list?_punctuation _ rfl (by decide),
    Record.list?_writeFields fields]
  cases fields with
  | nil => rfl
  | cons field fields =>
      have read := members?_tokens (field :: fields) (by simp)
      have first : ∃ t ts, Record.tokens (field :: fields) = .text t :: ts := by
        cases fields <;> exact ⟨_, _, rfl⟩
      obtain ⟨t, ts, h⟩ := first
      rw [h] at read ⊢
      simp only [Option.map_some, Option.bind_some, ofTokens?, read]

theorem member?_zip {names : List String} {items : List Item} (distinct : names.Nodup)
    (same : names.length = items.length) {i : Nat} {name : String} {item : Item}
    (hn : names[i]? = some name) (hi : items[i]? = some item) :
    member? (names.zip items) name = some (some item) := by
  have only : (names.zip items).filter (fun m => m.1 = name) = [(name, item)] := by
    induction names generalizing items i with
    | nil => simp at hn
    | cons n names ih =>
        cases items with
        | nil => simp at hi
        | cons x items =>
            obtain ⟨fresh, distinct⟩ := List.nodup_cons.1 distinct
            cases i with
            | zero =>
                simp only [List.getElem?_cons_zero, Option.some.injEq] at hn hi
                subst hn hi
                have none_left : (names.zip items).filter (fun m => m.1 = n) = [] := by
                  rw [List.filter_eq_nil_iff]
                  intro m member eq
                  exact fresh (of_decide_eq_true eq ▸ (List.of_mem_zip member).1)
                simp [none_left]
            | succ i =>
                simp only [List.getElem?_cons_succ] at hn hi
                have other : n ≠ name := by
                  rintro rfl
                  exact fresh (List.mem_of_getElem? hn)
                simpa [other] using ih distinct (by simpa using same) hn hi
  rw [member?, only]

theorem columns?_object {names : List String} (items : List Item) (distinct : names.Nodup)
    (same : names.length = items.length) :
    columns? names (.object (names.zip items)) = some (items.map some) := by
  have found : List.Forall₂ (fun name item => member? (names.zip items) name = some (some item))
      names items :=
    List.forall₂_iff_get.2 ⟨same, fun i hn hi =>
      member?_zip distinct same (List.getElem?_eq_getElem hn) (List.getElem?_eq_getElem hi)⟩
  clear distinct same
  rw [columns?]
  generalize names.zip items = members at found
  induction found with
  | nil => rfl
  | cons head tail ih => simp [List.mapM_cons, head, ih]

end Outline

/-- Reading undoes writing if the field names differ and the fields make up the value. -/
theorem RecordFormat.decode?_encode {E : Type} {format : RecordFormat E} {e : E}
    (distinct : format.names.Nodup) (same : format.names.length = (format.values e).length)
    (whole : format.ofColumns? ((format.values e).map fun x => some x.item) = some e) :
    format.decode? (format.encode e) = some e := by
  have members : (format.names.zip (format.values e)).map (fun f => (f.1, f.2.item)) =
      format.names.zip ((format.values e).map Scalar.item) := by
    simp [List.zip_map_right, Prod.map]
  have columns := Outline.columns?_object ((format.values e).map Scalar.item) distinct
    (by simpa using same)
  rw [decode?, encode, Outline.ofBytes?_write, members, Option.bind_some, columns, List.map_map]
  exact whole

end Lookaside.Json
