import Lookaside.Marker
import Lookaside.Proofs.Kinds
import Mathlib

namespace Lookaside

namespace Json

namespace Token

def byte? : Token → Option UInt8
  | opening .object => some Ascii.braceOpen
  | closing .object => some Ascii.braceClose
  | opening .array => some Ascii.bracketOpen
  | closing .array => some Ascii.bracketClose
  | colon => some Ascii.colon
  | comma => some Ascii.comma
  | _ => none

variable {s rest : Bytes} {t : Token} {mark : UInt8}

theorem punctuation?_byte {b : UInt8} (h : punctuation? b = some t) : t.byte? = some b := by
  rw [punctuation?] at h
  split_ifs at h <;> (cases h; subst b; rfl)

theorem punctuation?_of_byte? (h : t.byte? = some mark) : punctuation? mark = some t := by
  rw [byte?.eq_def] at h
  split at h <;> cases h <;> rfl

theorem byte?_ofNumber (negative : Bool) (ds : Bytes) (inexact : Bool) :
    (ofNumber negative ds inexact).byte? = none := by
  rw [ofNumber]
  split_ifs <;> rfl

theorem byte?_unsigned? {negative : Bool} (h : unsigned? negative s = some (t, rest)) :
    t.byte? = none := by
  rw [unsigned?] at h
  split at h
  · obtain ⟨f, -, h⟩ := Option.bind_eq_some_iff.1 h
    obtain ⟨e, -, h⟩ := Option.map_eq_some_iff.1 h
    cases h
    exact byte?_ofNumber ..
  · cases h

theorem byte?_word? {b : UInt8} {word : List Char × Token} (h : word? b = some word) :
    word.2.byte? = none := by
  rw [word?] at h
  split_ifs at h <;> (cases h; rfl)

theorem scan?_mark_iff (given : t.byte? = some mark) :
    scan? s = some (t, rest) ↔ s = mark :: rest := by
  constructor
  · intro read
    cases s with
    | nil => cases read
    | cons b s =>
        rw [scan?] at read
        split at read
        · next punctuation =>
            cases read
            cases (punctuation?_byte punctuation).symm.trans given
            rfl
        · have other : t.byte? = none := by
            split_ifs at read
            · obtain ⟨r, -, read⟩ := Option.map_eq_some_iff.1 read
              cases read
              rfl
            · exact byte?_unsigned? read
            · exact byte?_unsigned? read
            · obtain ⟨w, word, read⟩ := Option.bind_eq_some_iff.1 read
              obtain ⟨r, -, read⟩ := Option.map_eq_some_iff.1 read
              cases read
              exact byte?_word? word
          cases other.symm.trans given
  · rintro rfl
    rw [scan?, punctuation?_of_byte? given]

theorem list?_eq_nil_iff : list? s = some [] ↔ ∀ b ∈ s, isBlankByte b = true := by
  rw [list?, ← List.dropWhile_eq_nil_iff]
  split
  · next blank => simp [blank]
  · next visible =>
      refine ⟨fun h => ?_, fun blank => absurd blank visible⟩
      split at h
      · cases h
      · obtain ⟨ts, -, h⟩ := Option.map_eq_some_iff.1 h
        cases h

theorem list?_eq_cons_iff {ts : List Token} :
    list? s = some (t :: ts) ↔
      ∃ rest, scan? (s.dropWhile isBlankByte) = some (t, rest) ∧ list? rest = some ts := by
  rw [list?]
  split
  · next blank => simp [blank, scan?]
  · split
    · next unread => simp [unread]
    · next t' rest read =>
        rw [read]
        constructor
        · intro h
          obtain ⟨ts', tail, h⟩ := Option.map_eq_some_iff.1 h
          cases h
          exact ⟨rest, rfl, tail⟩
        · rintro ⟨rest, same, tail⟩
          cases same
          rw [tail]
          rfl

theorem isBlankByte_mark (given : t.byte? = some mark) : isBlankByte mark = false := by
  rw [byte?.eq_def] at given
  split at given <;> cases given <;> rfl

theorem list?_mark_iff {ts : List Token} (given : t.byte? = some mark) :
    list? s = some (t :: ts) ↔ ∃ blanks rest, (∀ b ∈ blanks, isBlankByte b = true) ∧
      s = blanks ++ mark :: rest ∧ list? rest = some ts := by
  rw [list?_eq_cons_iff]
  constructor
  · rintro ⟨rest, read, tail⟩
    have whole := List.takeWhile_append_dropWhile (p := isBlankByte) (l := s)
    rw [(scan?_mark_iff given).1 read] at whole
    exact ⟨_, rest, fun b member => List.mem_takeWhile_imp member, whole.symm, tail⟩
  · rintro ⟨blanks, rest, blank, rfl, tail⟩
    have visible : ¬ isBlankByte mark = true := by simp [isBlankByte_mark given]
    rw [List.dropWhile_append_of_pos blank, List.dropWhile_cons_of_neg visible]
    exact ⟨rest, (scan?_mark_iff given).2 rfl, tail⟩

end Token

namespace Outline

theorem items?_ne_nil (ts : List Token) : items? ts ≠ some [] := by
  rw [items?]
  split
  · intro h
    cases h
  · intro h
    obtain ⟨items, -, h⟩ := Option.map_eq_some_iff.1 h
    cases h
  · intro h
    cases h

theorem ofTokens?_empty_iff {ts : List Token} :
    ofTokens? ts = some (.array []) ↔ ts = [.opening .array, .closing .array] := by
  refine ⟨fun h => ?_, fun h => h ▸ rfl⟩
  rw [ofTokens?.eq_def] at h
  split at h
  · cases h
  · obtain ⟨members, -, h⟩ := Option.map_eq_some_iff.1 h
    cases h
  · rfl
  · obtain ⟨items, read, h⟩ := Option.map_eq_some_iff.1 h
    cases h
    exact absurd read (items?_ne_nil _)
  · cases h

end Outline

theorem RecordFormat.decode?_of_isMarker {E : Type} {format : RecordFormat E} (some_field : format.names ≠ [])
    {b : Bytes} (marks : Marker.isMarker b = true) : format.decode? b = none := by
  have outline : Outline.ofBytes? b = some (.array []) := of_decide_eq_true marks
  have unequal : ¬ ([] : List Item).length = format.names.length := by
    rw [List.length_nil, eq_comm, List.length_eq_zero_iff]
    exact some_field
  rw [decode?, outline, Option.bind_some, Outline.columns?, if_neg unequal]
  rfl

end Json

open Json

/-- A marker is a pair of brackets with nothing but blanks around and between them. -/
theorem Marker.isMarker_iff {b : Bytes} :
    isMarker b = true ↔ ∃ before between after, (∀ c ∈ before ++ between ++ after, isBlankByte c = true) ∧
      b = before ++ Ascii.bracketOpen :: (between ++ Ascii.bracketClose :: after) := by
  have tokens : isMarker b = true ↔ Token.list? b = some [.opening .array, .closing .array] := by
    rw [isMarker, decide_eq_true_iff, Outline.ofBytes?, Option.bind_eq_some_iff]
    simp only [Outline.ofTokens?_empty_iff, exists_eq_right]
  simp only [tokens, Token.list?_mark_iff (t := .opening .array) rfl,
    Token.list?_mark_iff (t := .closing .array) rfl, Token.list?_eq_nil_iff, List.forall_mem_append]
  constructor
  · rintro ⟨before, _, blank, rfl, between, after, blank', rfl, blank''⟩
    exact ⟨before, between, after, ⟨⟨blank, blank'⟩, blank''⟩, rfl⟩
  · rintro ⟨before, between, after, ⟨⟨blank, blank'⟩, blank''⟩, rfl⟩
    exact ⟨before, _, blank, rfl, between, after, blank', rfl, blank''⟩

namespace Kind

theorem exists_format (kind : Kind) : ∃ format : RecordFormat kind.Record,
    format.names ≠ [] ∧ ∀ b, (Entity.decode? b : Option kind.Record) = format.decode? b := by
  cases kind with
  | member => exact ⟨Member.format, by decide, fun _ => rfl⟩
  | memberExt => exact ⟨MemberExt.format, by decide, fun _ => rfl⟩
  | language => exact ⟨Language.format, by decide, fun _ => rfl⟩
  | token => exact ⟨AccessToken.format, by decide, fun _ => rfl⟩
  | domain => exact ⟨Domain.format, by decide, fun _ => rfl⟩

theorem decode?_of_isMarker (kind : Kind) {b : Bytes} (marks : Marker.isMarker b = true) :
    (Entity.decode? b : Option kind.Record) = none := by
  obtain ⟨format, some_field, reads⟩ := kind.exists_format
  exact (reads b).trans (RecordFormat.decode?_of_isMarker some_field marks)

/-- No bytes are read both as the marker and as an entity. So no stored entity is taken for the marker, and
the marker, whatever blanks stand around it, is taken for no entity. -/
theorem markers_apart (kind : Kind) :
    (∀ b, Marker.isMarker b = true → (Entity.decode? b : Option kind.Record) = none) ∧
      (∀ (e : kind.Record) (value : Bytes), Entity.encode e = .ok value → Marker.isMarker value = false) ∧
      ∀ before after : Bytes, (∀ b ∈ before ++ after, isBlankByte b = true) →
        Marker.isMarker (before ++ Marker.bytes ++ after) = true ∧
          (Entity.decode? (before ++ Marker.bytes ++ after) : Option kind.Record) = none := by
  refine ⟨fun b => kind.decode?_of_isMarker, fun e value encoded => ?_, fun before after blank => ?_⟩
  · rw [← Bool.not_eq_true]
    intro marks
    cases (decode?_encode encoded).symm.trans (kind.decode?_of_isMarker marks)
  · have marks : Marker.isMarker (before ++ Marker.bytes ++ after) = true := by
      refine Marker.isMarker_iff.2 ⟨before, [], after, by rwa [List.append_nil], ?_⟩
      rw [List.append_assoc]
      rfl
    exact ⟨marks, kind.decode?_of_isMarker marks⟩

theorem languages_apart :
    let spaced : Bytes := [Ascii.bracketOpen, Ascii.tab, Ascii.bracketClose]
    let listed : Bytes := Bytes.ofAscii ['[', ' ', '"', '[', ']', '"', ' ', ']']
    Marker.isMarker spaced = true ∧ (Entity.decode? spaced : Option Language) = none ∧
      Entity.decode? listed = some (⟨"[]"⟩ : Language) ∧
      Marker.isMarker (Language.format.encode ⟨"[]"⟩) = false ∧
      (∀ b ∈ ([Ascii.lineFeed] ++ [Ascii.carriageReturn, Ascii.space] : Bytes), isBlankByte b = true) ∧
      (Entity.decode? ([Ascii.lineFeed] ++ Marker.bytes ++ [Ascii.carriageReturn, Ascii.space]) :
        Option Language) = none := by
  intro spaced listed
  have marks : Marker.isMarker spaced = true := Marker.isMarker_iff.2 ⟨[], [Ascii.tab], [], by decide +kernel, rfl⟩
  have blank : ∀ b ∈ ([Ascii.lineFeed] ++ [Ascii.carriageReturn, Ascii.space] : Bytes), isBlankByte b = true := by
    decide +kernel
  obtain ⟨unread, stored, surrounded⟩ := markers_apart .language
  refine ⟨marks, unread spaced marks, ?_, stored ⟨"[]"⟩ _ rfl, blank, (surrounded _ _ blank).2⟩
  dsimp only [listed]
  cbv

end Kind

end Lookaside
