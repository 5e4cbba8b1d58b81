import Lookaside.Proofs.Growth
import Lookaside.Proofs.Transparency
import Mathlib

namespace Lookaside.Table

open Repository

variable {E : Type}

/-! ## Rows in a list -/

section

variable [NumberedEntity E] {t : Table E} {spare : Nat}

theorem Sound.find?_all (h : t.Sound spare) (id : Int32) :
    t.all.find? (fun e => Entity.id e = id) = t.get id := by
  cases found : t.get id with
  | none =>
      refine List.find?_eq_none.2 fun e member same => ?_
      obtain ⟨id', present⟩ := mem_all.1 member
      rw [← of_decide_eq_true same, h.own present, present] at found
      cases found
  | some e =>
      cases listed : t.all.find? (fun e => Entity.id e = id) with
      | none =>
          have missing := List.find?_eq_none.1 listed e (mem_all.2 ⟨id, found⟩)
          exact absurd (decide_eq_true (h.own found)) missing
      | some e' =>
          obtain ⟨id', present⟩ := mem_all.1 (List.mem_of_find?_eq_some listed)
          have same : Entity.id e' = id := by simpa using List.find?_some listed
          rw [← same, h.own present, present] at found
          exact found

end

/-! ## One call -/

variable [NumberedEntity E]

def adds : Record E Int32 → Bool
  | .save e => creates e
  | _ => false

def issued? : Record E Int32 → Except RepositoryError (Answer E) → Option Int32
  | .save e, .ok (.written saved) => if Entity.hasIdentity e then none else some (Entity.id saved)
  | _, _ => none

theorem creations_cons (record : Record E Int32) (records : List (Record E Int32)) :
    creations (record :: records) = creations records + if adds record then 1 else 0 :=
  List.countP_cons

theorem creations_replicate {e : E} (new : creates e = true) (n : Nat) :
    creations (List.replicate n (.save e)) = n := by
  rw [creations, List.countP_replicate, if_pos new]

theorem save_adding_none (t : Table E) {e : E} (old : ¬ creates e = true) :
    (∃ error, t.save e = (.error error, t)) ∨
      Entity.hasIdentity e = true ∧ t.contains (Entity.id e) = true ∧ t.save e = (.ok e, t.put e) := by
  rcases t.save_cases e with refused | updated | ⟨new, -⟩
  · exact .inl refused
  · exact .inr updated
  · exact absurd new old

theorem nextId_perform (t : Table E) (record : Record E Int32) :
    (repository.perform record t).2.nextId = if adds record then t.nextId + 1 else t.nextId := by
  cases record with
  | save e =>
      show (t.save e).2.nextId = if creates e then t.nextId + 1 else t.nextId
      split
      · next new => exact Growing.nextId_save new
      · next old =>
          rcases t.save_adding_none old with ⟨error, saved⟩ | ⟨-, -, saved⟩
          · rw [saved]
          · rw [saved]
            rfl
  | delete e =>
      show (t.delete e).2.nextId = _
      rcases t.delete_cases e with ⟨error, deleted⟩ | deleted
      all_goals
        rw [deleted]
        rfl
  | _ => rfl

theorem issued?_perform [LawfulNumbered E] (t : Table E) (record : Record E Int32) :
    issued? record (repository.perform record t).1 = if adds record then some t.nextId else none := by
  cases record with
  | save e =>
      show issued? (.save e) ((t.save e).1.map .written) = if creates e then some t.nextId else none
      split
      · next new =>
          rw [t.save_new new]
          rw [creates, Bool.and_eq_true, Bool.not_eq_true'] at new
          show (if Entity.hasIdentity e then none else _) = _
          rw [if_neg (ne_true_of_eq_false new.2), LawfulNumbered.id_withId]
      · next old =>
          rcases t.save_adding_none old with ⟨error, saved⟩ | ⟨identity, -, saved⟩ <;> rw [saved]
          · rfl
          · exact if_pos identity
  | _ => rfl

namespace Growing

variable [LawfulNumbered E] {spare : Nat} {t : Table E}

omit [LawfulNumbered E] in
theorem mono (h : t.Growing spare) {less : Nat} (le : less ≤ spare) : t.Growing less :=
  ⟨h.toSound.mono le, h.free⟩

theorem save_any {e : E} (h : t.Growing (spare + if creates e then 1 else 0)) :
    (t.save e).2.Growing spare := by
  by_cases new : creates e = true
  · rw [if_pos new] at h
    exact h.save new
  · rcases t.save_adding_none new with ⟨error, saved⟩ | ⟨-, present, saved⟩
    · rw [saved]
      exact h.mono (Nat.le_add_right _ _)
    · refine ⟨h.toSound.save, fun {id} le => ?_⟩
      rw [saved] at le ⊢
      rw [get_put, if_neg]
      · exact h.free le
      -- a row that is written over has been there before
      · rintro rfl
        rw [contains_eq, h.free le] at present
        cases present

omit [LawfulNumbered E] in
theorem delete (h : t.Growing spare) (e : E) : (t.delete e).2.Growing spare := by
  refine ⟨h.toSound.delete e, fun {id} le => ?_⟩
  rcases t.delete_cases e with ⟨error, deleted⟩ | deleted <;> rw [deleted] at le ⊢
  · exact h.free le
  · rw [get_erase, h.free le, ite_self]

theorem perform {record : Record E Int32} {records : List (Record E Int32)}
    (h : t.Growing (creations (record :: records))) :
    (repository.perform record t).2.Growing (creations records) := by
  rw [creations_cons] at h
  cases record with
  | save e => exact h.save_any
  | delete e => exact (h.mono (Nat.le_add_right _ _)).delete e
  | _ => exact h.mono (Nat.le_add_right _ _)

end Growing

/-! ## Runs -/

def after (records : List (Record E Int32)) (t : Table E) : Table E :=
  records.foldl (fun t record => (repository.perform record t).2) t

/-- The next id tells how many rows have been added. It starts anew from the least number when the greatest has been
given out. -/
theorem nextId_after (t : Table E) (records : List (Record E Int32)) :
    (t.after records).nextId = t.nextId + Int32.ofNat (creations records) := by
  induction records generalizing t with
  | nil => exact (Int32.add_zero _).symm
  | cons record records ih =>
      refine (ih _).trans ?_
      rw [nextId_perform, creations_cons]
      split
      · rw [Int32.ofNat_add, Int32.add_assoc, Int32.add_comm 1]
        rfl
      · rfl

theorem get_after_new [LawfulNumbered E] (t : Table E) (records : List (Record E Int32)) {e : E}
    (new : creates e = true) {id : Int32} (next : t.nextId + Int32.ofNat (creations records) = id) :
    (t.after (records ++ [.save e])).get id = some (NumberedEntity.withId id e) := by
  rw [← t.nextId_after records] at next
  rw [after, List.foldl_append]
  show ((t.after records).save e).2.get id = _
  rw [save_new _ new, next, get_put, if_pos (LawfulNumbered.id_withId id e)]

theorem count_perform (t : Table E) (record : Record E Int32) :
    (repository.perform record t).2.count ≤ t.count + if adds record then 1 else 0 := by
  cases record with
  | save e =>
      show (t.save e).2.count ≤ t.count + if creates e then 1 else 0
      split
      · next new =>
          rw [t.save_new new]
          exact Std.TreeMap.size_insert_le
      · next old =>
          rcases t.save_adding_none old with ⟨error, saved⟩ | ⟨-, present, saved⟩ <;> rw [saved]
          · exact Nat.le_refl _
          · rw [count_put, if_pos present]
            exact Nat.le_refl _
  | delete e =>
      show (t.delete e).2.count ≤ t.count
      rcases t.delete_cases e with ⟨error, deleted⟩ | deleted
      · rw [deleted]
      · rw [deleted]
        exact Std.TreeMap.size_erase_le
  | _ => exact Nat.le_refl _

theorem count_after_le (t : Table E) (records : List (Record E Int32)) :
    (t.after records).count ≤ t.count + creations records := by
  induction records generalizing t with
  | nil => exact Nat.le_refl _
  | cons record records ih =>
      have rest := ih (repository.perform record t).2
      have step := t.count_perform record
      rw [creations_cons]
      exact Nat.le_trans rest (by omega)

def issued : List (Record E Int32) → Table E → List Int32
  | [], _ => []
  | record :: records, t =>
    (issued? record (repository.perform record t).1).toList ++
      issued records (repository.perform record t).2

namespace Growing

variable [LawfulNumbered E] {t : Table E} {records later : List (Record E Int32)}

theorem after (h : t.Growing (creations (records ++ later))) :
    (t.after records).Growing (creations later) := by
  induction records generalizing t with
  | nil => exact h
  | cons record records ih => exact ih h.perform

omit [LawfulNumbered E] in
theorem toInt_nextId_perform {record : Record E Int32} (h : t.Growing (creations (record :: records))) :
    (repository.perform record t).2.nextId.toInt = t.nextId.toInt + if adds record then 1 else 0 := by
  rw [creations_cons] at h
  rw [nextId_perform]
  split
  · next new =>
      rw [if_pos new] at h
      exact h.toInt_next
  · exact (Int.add_zero _).symm

theorem nextId_le_after (h : t.Growing (creations records)) : t.nextId ≤ (t.after records).nextId := by
  induction records generalizing t with
  | nil => exact Int32.le_refl _
  | cons record records ih =>
      have step := h.toInt_nextId_perform
      have rest := ih h.perform
      rw [Int32.le_iff_toInt_le] at rest ⊢
      show t.nextId.toInt ≤ ((repository.perform record t).2.after records).nextId.toInt
      split at step <;> omega

theorem issued_lt (h : t.Growing (creations records)) :
    ∀ id ∈ t.issued records, id < (t.after records).nextId := by
  induction records generalizing t with
  | nil => exact nofun
  | cons record records ih =>
      intro id member
      rcases List.mem_append.1 member with first | rest
      · have step := h.toInt_nextId_perform
        have later := nextId_le_after h.perform
        rw [issued?_perform] at first
        split at first
        · next new =>
            cases Option.mem_toList.1 first
            rw [if_pos new] at step
            rw [Int32.le_iff_toInt_le] at later
            rw [Int32.lt_iff_toInt_lt]
            show t.nextId.toInt < ((repository.perform record t).2.after records).nextId.toInt
            omega
        · cases first
      · exact ih h.perform id rest

end Growing

theorem Growing.issued_lt_new [LawfulNumbered E] {t : Table E} {earlier later : List (Record E Int32)}
    {e : E} (h : t.Growing (creations (earlier ++ .save e :: later))) (new : creates e = true) :
    ∃ saved, ((t.after earlier).save e).1 = .ok saved ∧ ∀ id ∈ t.issued earlier, id < Entity.id saved := by
  have enough : creations earlier ≤ creations (earlier ++ .save e :: later) := by
    rw [creations, creations, List.countP_append]
    exact Nat.le_add_right _ _
  refine ⟨_, congrArg Prod.fst (Table.save_new _ new), ?_⟩
  rw [LawfulNumbered.id_withId]
  exact (h.mono enough).issued_lt

/-- A list of the rows in the order of their ids, from which every read can be told. -/
structure Shows (t : Table E) (rows : List E) : Prop where
  all : repository.getMany [] t = (.ok rows, t)
  sorted : rows.Pairwise fun a b => Entity.id a < Entity.id b
  count : repository.count t = (.ok rows.length, t)
  get : ∀ id, repository.get id t = (.ok (rows.find? fun e => Entity.id e = id), t)
  contains : ∀ id, repository.contains id t = (.ok (rows.any fun e => Entity.id e = id), t)
  getMany : ∀ ids, ids ≠ [] → repository.getMany ids t =
    (.ok (ids.filterMap fun id => rows.find? fun e => Entity.id e = id), t)

theorem Sound.shows_all {t : Table E} {spare : Nat} (h : t.Sound spare) : t.Shows t.all where
  all := rfl
  sorted := h.filed.sorted_all
  count := by
    rw [length_all]
    rfl
  get id := by
    rw [h.find?_all]
    rfl
  contains id := by
    rw [← List.isSome_find?, h.find?_all, ← contains_eq]
    rfl
  getMany ids some_ids := by
    simp only [h.find?_all]
    show (Except.ok (t.getMany ids), t) = _
    rw [Table.getMany, if_neg (by simpa using some_ids)]

theorem Growing.lt_nextId {t : Table E} {spare : Nat} (h : t.Growing spare) {id : Int32} {e : E}
    (found : t.get id = some e) : id < t.nextId := by
  refine Int32.not_le.1 fun le => ?_
  rw [h.free le] at found
  cases found

/-- As long as the ids do not run out, rows are numbered in order and no number is given out twice, and all
reads agree on which rows there are. -/
theorem ids_given_out_once [LawfulNumbered E] {records : List (Record E Int32)}
    (few : creations records < 2147483647) :
    let t := (empty : Table E).after records
    (∀ id e, t.get id = some e → Entity.id e = id ∧ 1 ≤ id.toInt ∧ id.toInt ≤ t.nextId.toInt - 1) ∧
      (∀ earlier e later, records = earlier ++ .save e :: later → Entity.hasIdentity e = false →
        let answer := (repository.save e ((empty : Table E).after earlier)).1
        (∃ reason, NumberedEntity.validate e = .error reason ∧ answer = .error (.invalidData reason)) ∨
          ∃ saved, answer = .ok saved ∧ ∀ id ∈ (empty : Table E).issued earlier, id < Entity.id saved) ∧
      ∃ rows, t.Shows rows := by
  intro t
  have start : (empty : Table E).Growing (creations records) := .empty few
  have growing : t.Growing (creations ([] : List (Record E Int32))) :=
    Growing.after ((List.append_nil records).symm ▸ start)
  refine ⟨?_, ?_, t.all, growing.shows_all⟩
  · intro id e found
    have positive := growing.positive found
    have below := growing.lt_nextId found
    rw [Int32.lt_iff_toInt_lt] at positive below
    exact ⟨growing.own found, positive, Int.le_sub_one_of_lt below⟩
  · rintro earlier e later rfl transient answer
    cases valid : NumberedEntity.validate e with
    | error reason => exact .inl ⟨reason, rfl, congrArg Prod.fst (Table.save_invalid _ valid)⟩
    | ok _ => exact .inr (start.issued_lt_new (by rw [creates, valid, transient]; rfl))

theorem site_ids_given_out_once :
    let site : Int32 → String → Domain := fun id name => { Domain.new name .nil .epoch with id }
    let earlier : List (Record Domain Int32) :=
      [.save (site 0 "a.example"), .save (site (-3) "b.example"), .save (site 0 " "),
        .save (site 9 "c.example"), .save (site 1 "www.a.example"), .delete (site 2 "b.example")]
    let records := earlier ++ [.save (site 0 "c.example"), .getMany []]
    let t := (empty : Table Domain).after records
    creations records < 2147483647 ∧ (empty : Table Domain).issued records = [1, 2, 3] ∧
      t.all = [site 1 "www.a.example", site 3 "c.example"] ∧
      (∀ id e, t.get id = some e → Entity.id e = id ∧ 1 ≤ id.toInt ∧ id.toInt ≤ t.nextId.toInt - 1) ∧
      (∃ saved, (repository.save (site 0 "c.example") ((empty : Table Domain).after earlier)).1 = .ok saved ∧
        ∀ id ∈ (empty : Table Domain).issued earlier, id < Entity.id saved) ∧
      ∃ rows, t.Shows rows := by
  intro site earlier records t
  have few : creations records < 2147483647 := by decide
  have issued : (empty : Table Domain).issued records = [1, 2, 3] := by decide +kernel
  have rows : t.all = [site 1 "www.a.example", site 3 "c.example"] := by decide +kernel
  obtain ⟨own, fresh, shown⟩ := ids_given_out_once few
  refine ⟨few, issued, rows, own, ?_, shown⟩
  have valid : NumberedEntity.validate (site 0 "c.example") = .ok () := by decide
  rcases fresh earlier (site 0 "c.example") [.getMany []] rfl rfl with ⟨reason, refused, -⟩ | given
  · exact absurd (valid.symm.trans refused) nofun
  · exact given

end Lookaside.Table
