import Lookaside.Entity.Member
import Lookaside.Proofs.Operations
import Mathlib

namespace Lookaside.Policy

variable {ρ E I : Type} [Entity E I]

/-- An answer to a request for all entities that does not come from the repository has as many entities
as the repository counts, unless it has none and the marker is there. -/
theorem cached_all_counted {p : Policy ρ E} {counter : Call ρ Nat}
    (validates : p.options.validateCount = true) (given : p.counter? = some counter) {w : World ρ}
    {fetch : List I → Call ρ (List (Option E))} {es : List E}
    (result : ((p.getMany [] fetch).run w).value.result = .ok es)
    (silent : ((p.getMany [] fetch).run w).notes.filterMap Note.errand? = []) :
    (es ≠ [] ∧ (counter w.keeper).1 = .ok es.length ∧
        ((p.getMany [] fetch).run w).notes.filterMap Note.count? = [.ok es.length]) ∨
      (es = [] ∧ p.options.allowZeroCount = true ∧
        (∃ value, w.link.memory.store.lookup? w.link.memory.now (Key.family E) = some value ∧
          Marker.isMarker value = true) ∧
        ((p.getMany [] fetch).run w).notes.filterMap Note.count? = []) := by
  have hit := readCached_of_getMany result silent
  rw [getMany_of_hit hit]
  obtain ⟨counter?, valid, -, answer⟩ := readAll_hit hit
  rw [validator_of_counter validates given] at valid
  cases valid
  rcases answer with ⟨some_found, agreed, counts⟩ | ⟨none_found, allowed, marked, counts⟩
  · exact .inl ⟨some_found, agreed counter rfl, counts⟩
  · exact .inr ⟨none_found, allowed, marked, counts⟩

def validating : Policy Nat Member :=
  (Policy.new ⟨true, true, none⟩).withCounter fun n => (.ok n, n)

def oneMember (key : String) (value : Bytes) : World Nat :=
  ⟨.ofMemory ⟨⟨2, [⟨key, value, none⟩]⟩, 0⟩, 1⟩

theorem cached_member_counted :
    let fetch : List Int32 → Call Nat (List (Option Member)) := fun _ n => (.ok [], n)
    let w := oneMember "uRepo_Member_1" (Member.format.encode ⟨1, "ada"⟩)
    let es : List Member := [⟨1, "ada"⟩]
    validating.options.validateCount = true ∧
      validating.counter? = some (fun n => (.ok n, n)) ∧
      ((validating.getMany [] fetch).run w).value.result = .ok es ∧
      ((validating.getMany [] fetch).run w).notes.filterMap Note.errand? = [] ∧
      ((es ≠ [] ∧ Except.ok w.keeper = Except.ok (ε := RepositoryError) es.length ∧
          ((validating.getMany [] fetch).run w).notes.filterMap Note.count? = [.ok es.length]) ∨
        (es = [] ∧ validating.options.allowZeroCount = true ∧
          (∃ value, w.link.memory.store.lookup? w.link.memory.now (Key.family Member) = some value ∧
            Marker.isMarker value = true) ∧
          ((validating.getMany [] fetch).run w).notes.filterMap Note.count? = [])) := by
  intro fetch w es
  have result : ((validating.getMany [] fetch).run w).value.result = .ok es := by
    dsimp only [fetch, w, es]
    cbv
  have silent : ((validating.getMany [] fetch).run w).notes.filterMap Note.errand? = [] := by
    dsimp only [fetch, w, es]
    cbv
  exact ⟨rfl, rfl, result, silent, cached_all_counted rfl rfl result silent⟩

theorem marker_not_counted :
    ¬ ∀ (w : World Nat) (fetch : List Int32 → Call Nat (List (Option Member))) (es : List Member),
      ((validating.getMany [] fetch).run w).value.result = .ok es →
      ((validating.getMany [] fetch).run w).notes.filterMap Note.errand? = [] →
      w.keeper = es.length := by
  intro counted
  have total := counted (oneMember "uRepo_Member_" Marker.bytes) (fun _ n => (.ok [some ⟨1, "ada"⟩], n))
    [] (by cbv) (by cbv)
  cases total

end Lookaside.Policy
