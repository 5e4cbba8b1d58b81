import Lookaside.Proofs.Numbering
import Mathlib

namespace Lookaside.Table

open Repository

variable {E : Type} [NumberedEntity E] {t : Table E} {e : E} {error : RepositoryError}

theorem Filed.not_contains_iff (h : t.Filed) {id : Int32} :
    t.contains id = false ↔ ∀ row ∈ t.all, Entity.id row ≠ id := by
  rw [contains_eq, Option.isSome_eq_false_iff, Option.isNone_iff_eq_none]
  constructor
  · rintro absent row member rfl
    obtain ⟨id, found⟩ := mem_all.1 member
    rw [h found, found] at absent
    cases absent
  · intro others
    refine Option.eq_none_iff_forall_ne_some.2 fun row found => ?_
    exact others row (mem_all.2 ⟨id, found⟩) (h found)

theorem Filed.after (h : t.Filed) (records : List (Record E Int32)) : (t.after records).Filed := by
  induction records generalizing t with
  | nil => exact h
  | cons record records ih => exact ih (h.perform record)

theorem save_error_iff : (t.save e).1 = .error error ↔
    (∃ reason, NumberedEntity.validate e = .error reason ∧ error = .invalidData reason) ∨
      NumberedEntity.validate e = .ok () ∧ Entity.hasIdentity e = true ∧
        t.contains (Entity.id e) = false ∧ error = notFound e := by
  cases valid : NumberedEntity.validate e with
  | error reason =>
      rw [save_invalid t valid]
      constructor
      · rintro ⟨⟩
        exact .inl ⟨reason, rfl, rfl⟩
      · rintro (⟨_, ⟨⟩, rfl⟩ | ⟨⟨⟩, -⟩)
        rfl
  | ok _ =>
      by_cases identity : Entity.hasIdentity e = true
      · by_cases present : t.contains (Entity.id e) = true
        · rw [save_present valid identity present]
          simp [present]
        · simp [save, valid, identity, present, eq_comm]
      · simp [save, valid, identity]

theorem delete_error_iff :
    (t.delete e).1 = .error error ↔ t.contains (Entity.id e) = false ∧ error = notFound e := by
  rw [delete]
  split
  · next present => simp [present]
  · next absent => simp [absent, eq_comm]

theorem perform_of_error {record : Record E Int32}
    (failed : (repository.perform record t).1 = .error error) : (repository.perform record t).2 = t := by
  cases record with
  | save e =>
      replace failed : (t.save e).1.map Answer.written = .error error := failed
      rcases t.save_cases e with ⟨reason, saved⟩ | ⟨-, -, saved⟩ | ⟨-, saved⟩
      · exact congrArg Prod.snd saved
      all_goals
        rw [saved] at failed
        cases failed
  | delete e =>
      replace failed : ((t.delete e).1.map fun _ => Answer.deleted) = .error error := failed
      rcases t.delete_cases e with ⟨reason, deleted⟩ | deleted
      · exact congrArg Prod.snd deleted
      · rw [deleted] at failed
        cases failed
  | _ => rfl

theorem issued?_error (record : Record E Int32) (error : RepositoryError) :
    issued? record (.error error) = none := by
  cases record <;> rfl

structure Slot (E : Type) where
  record : Record E Int32
  inserted : Bool

namespace Slot

def records (slots : List (Slot E)) : List (Record E Int32) :=
  slots.map (·.record)

def plain (slots : List (Slot E)) : List (Record E Int32) :=
  records (slots.filter (!·.inserted))

def answered (slots : List (Slot E)) (t : Table E) :
    List (Slot E × Except RepositoryError (Answer E)) :=
  slots.zip (repository.answers (records slots) t)

/-- Whatever has been put in between fails. -/
def Idle (slots : List (Slot E)) (t : Table E) : Prop :=
  ∀ pair ∈ answered slots t, pair.1.inserted = true → pair.2.isOk = false

instance (slots : List (Slot E)) (t : Table E) : Decidable (Idle slots t) :=
  inferInstanceAs (Decidable (∀ pair ∈ answered slots t, pair.1.inserted = true → pair.2.isOk = false))

def plainAnswers (slots : List (Slot E)) (t : Table E) : List (Except RepositoryError (Answer E)) :=
  ((answered slots t).filter (!·.1.inserted)).map (·.2)

variable {slot : Slot E} {slots : List (Slot E)}

theorem answered_cons (slot : Slot E) (slots : List (Slot E)) (t : Table E) :
    answered (slot :: slots) t = (slot, (repository.perform slot.record t).1) ::
      answered slots (repository.perform slot.record t).2 := rfl

theorem idle_cons : Idle (slot :: slots) t ↔
    (slot.inserted = true → (repository.perform slot.record t).1.isOk = false) ∧
      Idle slots (repository.perform slot.record t).2 := by
  rw [Idle, answered_cons, List.forall_mem_cons]
  rfl

theorem Idle.unseen (idle : Idle slots t) :
    repository.answers (plain slots) t = plainAnswers slots t ∧
      t.issued (plain slots) = t.issued (records slots) ∧
      t.after (plain slots) = t.after (records slots) := by
  -- for every table, since what is not put in between may change it
  induction slots generalizing t with
  | nil => exact ⟨rfl, rfl, rfl⟩
  | cons slot slots ih =>
      obtain ⟨fails, rest⟩ := idle_cons.1 idle
      obtain ⟨answers, ids, tables⟩ := ih rest
      rw [plainAnswers, answered_cons]
      cases inserted : slot.inserted with
      | false =>
          have kept : plain (slot :: slots) = slot.record :: plain slots := by
            simp [plain, records, inserted]
          rw [kept, List.filter_cons_of_pos (by simp [inserted])]
          exact ⟨congrArg (_ :: ·) answers, congrArg (_ ++ ·) ids, tables⟩
      | true =>
          have dropped : plain (slot :: slots) = plain slots := by
            simp [plain, inserted]
          cases failed : (repository.perform slot.record t).1 with
          | ok answer =>
              rw [failed] at fails
              exact absurd (fails inserted) nofun
          | error error =>
              have same := perform_of_error failed
              have no_more : t.issued (records (slot :: slots)) = t.issued (records slots) := by
                show (issued? slot.record (repository.perform slot.record t).1).toList ++ _ = _
                rw [failed, issued?_error, same]
                rfl
              have no_change : t.after (records (slot :: slots)) = t.after (records slots) :=
                congrArg (Table.after (records slots)) same
              rw [same] at answers ids tables
              rw [dropped, List.filter_cons_of_neg (by simp [inserted]), same, no_more, no_change]
              exact ⟨answers, ids, tables⟩

end Slot

/-- A save fails if the entity is not valid, or else if it has identity and no row has its id, and a
deletion fails if no row has the id. Nothing changes then, and a run answers the same and gives out the
same ids without the calls that fail. -/
theorem failed_writes_unseen (earlier : List (Record E Int32)) :
    let t := (empty : Table E).after earlier
    (∀ e error, (repository.save e t).1 = .error error ↔
      (∃ reason, NumberedEntity.validate e = .error reason ∧ error = .invalidData reason) ∨
        NumberedEntity.validate e = .ok () ∧ Entity.hasIdentity e = true ∧
          (∀ row ∈ t.all, Entity.id row ≠ Entity.id e) ∧
          error = .notFound (Entity.typeName E) (Entity.renderId E (Entity.id e))) ∧
      (∀ e error, (repository.delete e t).1 = .error error ↔
        (∀ row ∈ t.all, Entity.id row ≠ Entity.id e) ∧
          error = .notFound (Entity.typeName E) (Entity.renderId E (Entity.id e))) ∧
      (∀ record error, (repository.perform record t).1 = .error error →
        (repository.perform record t).2 = t) ∧
      ∀ slots : List (Slot E), Slot.Idle slots t →
        repository.answers (Slot.plain slots) t = Slot.plainAnswers slots t ∧
          t.issued (Slot.plain slots) = t.issued (Slot.records slots) ∧
          t.after (Slot.plain slots) = t.after (Slot.records slots) := by
  intro t
  have filed : t.Filed := filed_empty.after earlier
  refine ⟨fun e error => ?_, fun e error => ?_, fun record error => perform_of_error, fun slots => Slot.Idle.unseen⟩
  · rw [← filed.not_contains_iff]
    exact save_error_iff
  · rw [← filed.not_contains_iff]
    exact delete_error_iff

theorem failed_site_writes_unseen :
    let site : Int32 → String → Domain := fun id name => { Domain.new name .nil .epoch with id }
    let t := (empty : Table Domain).after
      [.save (site 0 "a.example"), .save (site (-7) "b.example"), .delete (site 2 "")]
    let missing : RepositoryError := .notFound "Domain" "9"
    let slots : List (Slot Domain) := [⟨.save (site 0 ""), true⟩, ⟨.save (site 0 "c.example"), false⟩,
      ⟨.delete (site 2 "b.example"), true⟩, ⟨.save (site 2 "b.example"), true⟩, ⟨.getMany [], false⟩]
    (repository.save (site 9 "c.example") t).1 = .error missing ∧
      (repository.save (site 9 " ") t).1 = .error (.invalidData "domain name must not be empty") ∧
      (repository.delete (site 9 " ") t).1 = .error missing ∧ Slot.Idle slots t ∧
      Slot.plainAnswers slots t = repository.answers [.save (site 0 "c.example"), .getMany []] t ∧
      t.issued (Slot.records slots) = [3] := by
  intro site t missing slots
  obtain ⟨saves, deletes, -, unseen⟩ := failed_writes_unseen (E := Domain)
    [.save (site 0 "a.example"), .save (site (-7) "b.example"), .delete (site 2 "")]
  have rows : t.all = [site 1 "a.example"] := by decide +kernel
  have others : ∀ row ∈ t.all, Entity.id row ≠ 9 := by
    rw [rows]
    decide
  have rendered : renderNumber 9 = "9" := by decide +kernel
  have idle : Slot.Idle slots t := by decide +kernel
  obtain ⟨answers, ids, -⟩ := unseen slots idle
  refine ⟨?_, ?_, ?_, idle, answers.symm, ?_⟩
  · exact (saves _ _).2 (.inr ⟨by decide, by decide, others, congrArg _ rendered.symm⟩)
  · exact (saves _ _).2 (.inl ⟨_, by decide, rfl⟩)
  · exact (deletes _ _).2 ⟨others, congrArg _ rendered.symm⟩
  · rw [← ids]
    decide +kernel

end Lookaside.Table
