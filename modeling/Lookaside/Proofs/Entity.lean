import Lookaside.Entity.AccessToken
import Lookaside.Entity.Domain
import Lookaside.Entity.Language
import Lookaside.Entity.Member
import Lookaside.Proofs.Json
import Lookaside.Proofs.Timestamp
import Lookaside.Proofs.Uuid

namespace Lookaside

open Json

/-! ## Ids -/

theorem Digits.map_char_injective {ds es : List Nat} (hd : ∀ d ∈ ds, d < 10) (he : ∀ e ∈ es, e < 10)
    (h : ds.map char = es.map char) : ds = es := by
  rw [← filterMap_decimal?_char hd, h, filterMap_decimal?_char he]

theorem Digits.ofInt_injective {a b : Int} (h : ofInt a = ofInt b) : a = b := by
  have minus (n : Nat) : ∀ c ∈ (decimal n).map char, c ≠ '-' := by
    intro c member
    obtain ⟨d, hd, rfl⟩ := List.mem_map.1 member
    have small := lt_of_mem_decimal hd
    clear hd member
    revert d; decide
  have first (n : Nat) (cs : List Char) : (decimal n).map char ≠ '-' :: cs :=
    fun same => minus n '-' (by rw [same]; simp) rfl
  have abs (m n : Nat) (same : (decimal m).map char = (decimal n).map char) : m = n :=
    decimal_injective (map_char_injective (fun _ => lt_of_mem_decimal)
      (fun _ => lt_of_mem_decimal) same)
  rw [ofInt, ofInt] at h
  split at h
  · split at h
    · have := abs _ _ (List.cons.inj h).2; omega
    · exact absurd h.symm (first _ _)
  · split at h
    · exact absurd h (first _ _)
    · have := abs _ _ h; omega

theorem renderNumber_injective : Function.Injective renderNumber := by
  intro a b h
  rw [renderNumber, renderNumber, String.ofList_inj] at h
  exact Int32.toInt_inj.1 (Digits.ofInt_injective h)

theorem renderNumber_ne_empty (n : Int32) : renderNumber n ≠ "" := by
  intro empty
  have none_left : Digits.ofInt n.toInt = [] := by
    simpa [renderNumber] using congrArg String.toList empty
  rw [Digits.ofInt] at none_left
  split at none_left
  · simp at none_left
  · exact Digits.decimal_ne_nil _ (by simpa using none_left)

class DistinctIds (E : Type) {I : outParam Type} [Entity E I] : Prop where
  renderId_injective : Function.Injective (Entity.renderId E : I → String)

instance : DistinctIds MemberExt := ⟨renderNumber_injective⟩

instance : DistinctIds Language := ⟨Function.injective_id⟩

instance : DistinctIds AccessToken := ⟨Function.injective_id⟩

/-! ## Stored forms -/

theorem Item.text?_item (s : String) : Item.text? (Scalar.text s).item = some s :=
  Literal.text?_pieces s

theorem Item.flag?_item (b : Bool) : Item.flag? (Scalar.flag b).item = some b := rfl

theorem Item.int32?_item (n : Int32) : Item.int32? (Scalar.integer n.toInt).item = some n := by
  rw [Scalar.item, Item.int32?, if_pos ⟨n.minValue_le_toInt, n.toInt_le⟩, Int32.ofInt_toInt]

theorem Item.optional_ofOption {α : Type} {read : Item → Option α} {f : α → Scalar}
    (h : ∀ a, read (f a).item = some a) (given : ∀ a, (f a).item ≠ .null) (x : Option α) :
    Item.optional read (some (Scalar.ofOption f x).item) = some x := by
  cases x with
  | none => rfl
  | some a =>
      rw [Scalar.ofOption, Item.optional]
      · rw [h, Option.map_some]
      · exact given a

theorem Item.optional_text (x : Option String) :
    Item.optional Item.text? (some (Scalar.ofOption .text x).item) = some x :=
  Item.optional_ofOption Item.text?_item (fun _ => Item.noConfusion) x

theorem Item.optional_int32 (x : Option Int32) :
    Item.optional Item.int32? (some (Scalar.ofOption (fun n => .integer n.toInt) x).item) = some x :=
  Item.optional_ofOption Item.int32?_item (fun _ => Item.noConfusion) x

theorem Member.decode?_encode (m : Member) : Member.format.decode? (Member.format.encode m) = some m :=
  RecordFormat.decode?_encode (by decide) rfl (by
    simp [Member.format, Item.required, Item.int32?_item, Item.text?_item])

theorem MemberExt.decode?_encode (m : MemberExt) :
    MemberExt.format.decode? (MemberExt.format.encode m) = some m :=
  RecordFormat.decode?_encode (by decide) rfl (by
    simp [MemberExt.format, Item.required, Item.int32?_item, Item.text?_item, Item.optional_text])

theorem Language.decode?_encode (l : Language) :
    Language.format.decode? (Language.format.encode l) = some l :=
  RecordFormat.decode?_encode (by decide) rfl (by
    simp [Language.format, Item.required, Item.text?_item])

theorem AccessToken.decode?_encode (t : AccessToken) :
    AccessToken.format.decode? (AccessToken.format.encode t) = some t :=
  RecordFormat.decode?_encode (by decide) rfl (by
    simp [AccessToken.format, Item.required, Item.text?_item, Item.flag?_item])

theorem Domain.decode?_encode (d : Domain) : Domain.format.decode? (Domain.format.encode d) = some d :=
  RecordFormat.decode?_encode (by decide) rfl (by
    simp [Domain.format, Item.required, Item.int32?_item, Item.text?_item, Item.optional_int32,
      Item.optional_text, Uuid.read?_write, Calendar.UtcTime.read?_write])

def Recoverable (E : Type) {I : Type} [Entity E I] : Prop :=
  ∀ e : E, ∃ bytes, Entity.encode e = .ok bytes ∧ Entity.decode? bytes = some e

/-- Access tokens are left out, because some of them refuse to be stored. -/
theorem stored_values_recoverable :
    Recoverable Member ∧ Recoverable MemberExt ∧ Recoverable Language ∧ Recoverable Domain :=
  ⟨fun m => ⟨_, rfl, m.decode?_encode⟩, fun m => ⟨_, rfl, m.decode?_encode⟩,
    fun l => ⟨_, rfl, l.decode?_encode⟩, fun d => ⟨_, rfl, d.decode?_encode⟩⟩

/-! ## Numbered entities -/

/-- What a repository that assigns ids and a cache rely on. -/
class LawfulNumbered (E : Type) [NumberedEntity E] : Prop where
  renderId_eq : ∀ n : Int32, Entity.renderId E n = renderNumber n
  hasIdentity_iff : ∀ e : E, Entity.hasIdentity e = true ↔ 0 < Entity.id e
  id_withId : ∀ (n : Int32) (e : E), Entity.id (NumberedEntity.withId n e) = n
  decode?_encode : ∀ e : E, ∃ bytes, Entity.encode e = .ok bytes ∧ Entity.decode? bytes = some e

instance : LawfulNumbered Member where
  renderId_eq _ := rfl
  hasIdentity_iff _ := decide_eq_true_iff
  id_withId _ _ := rfl
  decode?_encode m := ⟨_, rfl, Member.decode?_encode m⟩

instance : LawfulNumbered Domain where
  renderId_eq _ := rfl
  hasIdentity_iff _ := decide_eq_true_iff
  id_withId _ _ := rfl
  decode?_encode d := ⟨_, rfl, Domain.decode?_encode d⟩

instance {E : Type} [NumberedEntity E] [LawfulNumbered E] : DistinctIds E where
  renderId_injective a b h := by
    rw [LawfulNumbered.renderId_eq, LawfulNumbered.renderId_eq] at h
    exact renderNumber_injective h

end Lookaside
