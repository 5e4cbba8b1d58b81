import Lookaside.Proofs.Entity
import Lookaside.Proofs.Key

namespace Lookaside

def Key.Owned (E : Type) {I : Type} [Entity E I] (key : String) : Prop :=
  key = family E ∨ ∃ id : I, item E id = .ok key

namespace Key

variable {E I : Type} [Entity E I]

theorem owned_family : Owned E (family E) := .inl rfl

theorem owned_item {id : I} {key : String} (h : item E id = .ok key) : Owned E key := .inr ⟨id, h⟩

theorem Owned.eq_append {key : String} (h : Owned E key) :
    ∃ rest, key = family E ++ rest ∧ (rest = "" ∨ ∃ id : I, rest = Entity.renderId E id) := by
  rcases h with rfl | ⟨id, keyed⟩
  · exact ⟨"", String.append_empty.symm, .inl rfl⟩
  · obtain ⟨-, rfl⟩ := item_ok_iff.1 keyed
    exact ⟨_, rfl, .inr ⟨id, rfl⟩⟩

theorem Owned.family_prefix {key : String} (h : Owned E key) :
    (family E).toList <+: key.toList := by
  obtain ⟨rest, rfl, -⟩ := h.eq_append
  rw [String.toList_append]
  exact List.prefix_append _ _

end Key

theorem renderNumber_chars {n : Int32} {c : Char} (h : c ∈ (renderNumber n).toList) :
    c = '-' ∨ ∃ d < 10, c = Digits.char d := by
  have digit : c ∈ (Digits.decimal n.toInt.natAbs).map Digits.char → ∃ d < 10, c = Digits.char d := by
    intro member
    obtain ⟨d, hd, rfl⟩ := List.mem_map.1 member
    exact ⟨d, Digits.lt_of_mem_decimal hd, rfl⟩
  rw [renderNumber, String.toList_ofList, Digits.ofInt] at h
  split at h
  · rcases List.mem_cons.1 h with sign | member
    · exact .inl sign
    · exact .inr (digit member)
  · exact .inr (digit h)

theorem not_mem_renderNumber (n : Int32) : 'E' ∉ (renderNumber n).toList := by
  intro member
  rcases renderNumber_chars member with sign | ⟨d, small, same⟩
  · revert sign
    decide
  · revert same
    revert d
    decide

inductive Kind where
  | member
  | memberExt
  | language
  | token
  | domain
deriving DecidableEq, Repr

namespace Kind

def Record : Kind → Type
  | member => Member
  | memberExt => MemberExt
  | language => Language
  | token => AccessToken
  | domain => Domain

def Id : Kind → Type
  | member => Int32
  | memberExt => Int32
  | language => String
  | token => String
  | domain => Int32

instance entity : (kind : Kind) → Entity kind.Record kind.Id
  | member => inferInstanceAs (Entity Member Int32)
  | memberExt => inferInstanceAs (Entity MemberExt Int32)
  | language => inferInstanceAs (Entity Language String)
  | token => inferInstanceAs (Entity AccessToken String)
  | domain => inferInstanceAs (Entity Domain Int32)

instance distinctIds : (kind : Kind) → DistinctIds kind.Record
  | member => inferInstanceAs (DistinctIds Member)
  | memberExt => inferInstanceAs (DistinctIds MemberExt)
  | language => inferInstanceAs (DistinctIds Language)
  | token => inferInstanceAs (DistinctIds AccessToken)
  | domain => inferInstanceAs (DistinctIds Domain)

theorem decode?_encode {kind : Kind} {e : kind.Record} {value : Bytes}
    (encoded : Entity.encode e = .ok value) : Entity.decode? value = some e := by
  cases kind with
  | member =>
      cases encoded
      exact Member.decode?_encode e
  | memberExt =>
      cases encoded
      exact MemberExt.decode?_encode e
  | language =>
      cases encoded
      exact Language.decode?_encode e
  | domain =>
      cases encoded
      exact Domain.decode?_encode e
  | token =>
      have stored : (if AccessToken.poison e then Except.error "poisoned" else .ok (AccessToken.format.encode e)) =
        .ok value := encoded
      split at stored
      · cases stored
      · cases stored
        exact AccessToken.decode?_encode e

theorem eq_of_family_prefix {a b : Kind}
    (h : (Key.family a.Record).toList <+: (Key.family b.Record).toList) :
    a = b ∨ a = member ∧ b = memberExt := by
  revert h
  cases a <;> cases b <;> decide

theorem not_owned_member {key : String} (ext : (Key.family MemberExt).toList <+: key.toList) :
    ¬ Key.Owned Member key := by
  intro owned
  obtain ⟨rest, rfl, text⟩ := owned.eq_append
  have shared : (Key.family MemberExt).toList = (Key.family Member).toList ++ ['E', 'x', 't', '_'] := by
    decide
  rw [shared, String.toList_append, List.prefix_append_right_inj] at ext
  have letter : 'E' ∈ rest.toList := ext.subset List.mem_cons_self
  rcases text with rfl | ⟨id, rfl⟩
  · cases letter
  · exact not_mem_renderNumber id letter

theorem eq_of_owned {a b : Kind} {key : String} (ha : Key.Owned a.Record key)
    (hb : Key.Owned b.Record key) : a = b := by
  rcases List.prefix_or_prefix_of_prefix ha.family_prefix hb.family_prefix with h | h
  · rcases eq_of_family_prefix h with same | ⟨rfl, rfl⟩
    · exact same
    · exact absurd ha (not_owned_member hb.family_prefix)
  · rcases eq_of_family_prefix h with same | ⟨rfl, rfl⟩
    · exact same.symm
    · exact absurd hb (not_owned_member ha.family_prefix)

theorem eq_of_item {a b : Kind} {i : a.Id} {j : b.Id} {key : String}
    (hi : Key.item a.Record i = .ok key) (hj : Key.item b.Record j = .ok key) :
    (⟨a, i⟩ : (kind : Kind) × kind.Id) = ⟨b, j⟩ := by
  obtain rfl := eq_of_owned (Key.owned_item hi) (Key.owned_item hj)
  rw [Key.item_injective DistinctIds.renderId_injective hi hj]

theorem ne_family_of_item {a : Kind} (b : Kind) {i : a.Id} {key : String}
    (keyed : Key.item a.Record i = .ok key) : key ≠ Key.family b.Record := by
  rintro rfl
  obtain rfl := eq_of_owned (Key.owned_item keyed) Key.owned_family
  exact Key.item_ne_family keyed rfl

/-- A key tells the type and the id that it is made for, and no key of an id is a family key. Only the empty
text has no key. -/
theorem keys_unambiguous (a b : Kind) :
    (∀ (i : a.Id) (j : b.Id) (key : String), Key.item a.Record i = .ok key →
        Key.item b.Record j = .ok key → (⟨a, i⟩ : (kind : Kind) × kind.Id) = ⟨b, j⟩) ∧
      (∀ (i : a.Id) (key : String), Key.item a.Record i = .ok key →
        key ≠ Key.family b.Record ∧ Key.isItem a.Record key = true) ∧
      Key.isItem a.Record (Key.family a.Record) = false ∧
      ∀ i : a.Id, (∃ key, Key.item a.Record i = .ok key) ↔ Entity.renderId a.Record i ≠ "" := by
  refine ⟨fun i j key => eq_of_item, fun i key keyed => ?_, Key.isItem_family, fun i => ?_⟩
  · exact ⟨ne_family_of_item b keyed, Key.isItem_item keyed⟩
  · constructor
    · rintro ⟨key, keyed⟩
      exact (Key.item_ok_iff.1 keyed).1
    · intro text
      exact ⟨_, Key.item_ok_iff.2 ⟨text, rfl⟩⟩

theorem extended_key_unambiguous :
    let key := "uRepo_Member_Ext_-2147483648"
    Key.item (Record memberExt) Int32.minValue = .ok key ∧
      Key.item (Record memberExt) (-2147483648 : Int32) = .ok key ∧
      (⟨memberExt, Int32.minValue⟩ : (kind : Kind) × kind.Id) = ⟨memberExt, (-2147483648 : Int32)⟩ ∧
      Key.isItem (Record member) key = true ∧ (∀ n : Int32, Key.item (Record member) n ≠ .ok key) ∧
      key ≠ Key.family (Record member) ∧ Key.isItem (Record memberExt) key = true := by
  intro key
  have made : Key.item (Record memberExt) Int32.minValue = .ok key :=
    Key.item_ok_iff.2 ⟨renderNumber_ne_empty _, by decide +kernel⟩
  have made' : Key.item (Record memberExt) (-2147483648 : Int32) = .ok key :=
    Key.item_ok_iff.2 ⟨renderNumber_ne_empty _, by decide +kernel⟩
  have looks : Key.isItem (Record member) key = true :=
    Key.isItem_iff.2 ⟨"Ext_-2147483648", by decide, by decide⟩
  obtain ⟨same, -⟩ := keys_unambiguous memberExt memberExt
  obtain ⟨other, apart, -⟩ := keys_unambiguous memberExt member
  refine ⟨made, made', same Int32.minValue (-2147483648 : Int32) key made made', looks, fun n keyed => ?_,
    apart Int32.minValue key made⟩
  cases congrArg Sigma.fst (other Int32.minValue n key made keyed)

end Kind

end Lookaside
