import Lookaside.Proofs.Discharge
import Lookaside.Proofs.Retention
import Mathlib

namespace Lookaside

variable {E I : Type} [Entity E I]

namespace Change

theorem key_cases {change : Change E} {key : String} (h : change.key = key) :
    change.fills? = some key ∨ change = .clear key := by
  subst h
  cases change with
  | clear key => exact .inr rfl
  | _ => exact .inl rfl

theorem capacity_make (deadline : Option Nat) (s : Store) (change : Change E) :
    (change.make deadline s).capacity = s.capacity := by
  cases change with
  | store key e =>
      rw [make]
      split <;> rfl
  | _ => rfl

theorem make_of_fills {change : Change E} {key : String} (fills : change.fills? = some key)
    (storable : ∀ k e, change = .store k e → ∃ value, Entity.encode e = .ok value)
    (deadline : Option Nat) (s : Store) :
    ∃ value, change.make deadline s = s.push ⟨key, value, deadline⟩ := by
  cases change with
  | clear key => cases fills
  | mark key =>
      cases fills
      exact ⟨_, rfl⟩
  | store key e =>
      cases fills
      obtain ⟨value, encoded⟩ := storable key e rfl
      exact ⟨value, by rw [make, encoded]⟩

end Change

namespace Store

variable {s : Store} {keys keys' : List String} {e : Entry} {deadline : Option Nat}

theorem capacity_foldl_make (changes : List (Change E)) (s : Store) :
    (changes.foldl (Change.make deadline) s).capacity = s.capacity := by
  induction changes generalizing s with
  | nil => rfl
  | cons change changes ih => exact (ih _).trans (change.capacity_make deadline s)

theorem Ahead.mono (h : s.Ahead keys e) (sub : keys ⊆ keys') : s.Ahead keys' e := by
  obtain ⟨front, back, entries, among⟩ := h
  exact ⟨front, back, entries, fun x member => sub (among x member)⟩

theorem Ahead.push_among (wf : s.WellFormed) (h : s.Ahead keys e) {x : Entry} (other : e.key ≠ x.key)
    (among : x.key ∈ keys) (few : keys.toFinset.card < s.capacity) : (s.push x).Ahead keys e := by
  have same : (x.key :: keys).toFinset = keys.toFinset := by simp [among]
  exact (h.push wf other (same ▸ few)).mono (List.cons_subset.2 ⟨among, List.Subset.refl _⟩)

theorem Ahead.foldl_make (wf : s.WellFormed) (h : s.Ahead keys e) {changes : List (Change E)}
    (others : e.key ∉ changes.map Change.key)
    (among : ∀ change ∈ changes, ∀ key, change.fills? = some key → key ∈ keys)
    (few : keys.toFinset.card < s.capacity) : (changes.foldl (Change.make deadline) s).Ahead keys e := by
  induction changes generalizing s with
  | nil => exact h
  | cons change changes ih =>
      rw [List.map_cons, List.mem_cons, not_or] at others
      rw [List.forall_mem_cons] at among
      refine ih (wf.make change) ?_ others.2 among.2 (by rw [Change.capacity_make]; exact few)
      cases change with
      | clear key => exact h.erase others.1
      | mark key => exact h.push_among wf others.1 (among.1 key rfl) few
      | store key row =>
          rw [Change.make]
          split
          · exact h.push_among wf others.1 (among.1 key rfl) few
          · exact h

theorem filled_first (wf : s.WellFormed) {change : Change E} {changes : List (Change E)} {key : String}
    (fills : change.fills? = some key)
    (storable : ∀ k e, change = .store k e → ∃ value, Entity.encode e = .ok value)
    (others : key ∉ changes.map Change.key)
    (few : (changes.filterMap Change.fills?).toFinset.card < s.capacity) :
    ∃ x ∈ (changes.foldl (Change.make deadline) (change.make deadline s)).entries,
      x.key = key ∧ x.deadline = deadline := by
  -- what later changes put in under other keys goes in front and drives out only what stands last
  obtain ⟨value, made⟩ := Change.make_of_fills fills storable deadline s
  have first : (change.make deadline s).Ahead (changes.filterMap Change.fills?) ⟨key, value, deadline⟩ :=
    (made ▸ ahead_push_self (Nat.lt_of_le_of_lt (Nat.zero_le _) few) _).mono (List.nil_subset _)
  refine ⟨_, (first.foldl_make (wf.make change) others ?_ ?_).mem, rfl, rfl⟩
  · exact fun other member k fills' => List.mem_filterMap.2 ⟨other, member, fills'⟩
  · rw [Change.capacity_make]
    exact few

/-- A key that is filled and not cleared is there in the end, if there is room for all that are filled. -/
theorem filled_foldl (deadline : Option Nat) (wf : s.WellFormed) {changes : List (Change E)} {key : String}
    (filled : key ∈ changes.filterMap Change.fills?) (kept : .clear key ∉ changes)
    (storable : ∀ k e, .store k e ∈ changes → ∃ value, Entity.encode e = .ok value)
    (few : (changes.filterMap Change.fills?).toFinset.card ≤ s.capacity) :
    ∃ x ∈ (changes.foldl (Change.make deadline) s).entries, x.key = key ∧ x.deadline = deadline := by
  induction changes generalizing s with
  | nil => cases filled
  | cons change changes ih =>
      have kept' : .clear key ∉ changes := fun member => kept (List.mem_cons_of_mem _ member)
      have fewer : (changes.filterMap Change.fills?).toFinset ⊆
          ((change :: changes).filterMap Change.fills?).toFinset := by
        intro k member
        have part := (List.sublist_cons_self change changes).filterMap Change.fills?
        exact List.mem_toFinset.2 (part.subset (List.mem_toFinset.1 member))
      by_cases again : key ∈ changes.filterMap Change.fills?
      · refine ih (wf.make change) again kept' (fun k e member => storable k e (List.mem_cons_of_mem _ member)) ?_
        rw [Change.capacity_make]
        exact Nat.le_trans (Finset.card_le_card fewer) few
      · -- the key is filled for the last time, so only others are put in after it
        refine filled_first wf ?_ (fun k e same => storable k e (same ▸ List.mem_cons_self)) ?_ ?_
        · obtain ⟨other, member, fills⟩ := List.mem_filterMap.1 filled
          rcases List.mem_cons.1 member with rfl | member
          · exact fills
          · exact absurd (List.mem_filterMap.2 ⟨other, member, fills⟩) again
        · intro member
          obtain ⟨other, here, same⟩ := List.mem_map.1 member
          rcases Change.key_cases same with fills | rfl
          · exact again (List.mem_filterMap.2 ⟨other, here, fills⟩)
          · exact kept' here
        · refine Nat.lt_of_lt_of_le (Finset.card_lt_card ⟨fewer, fun back => ?_⟩) few
          exact again (List.mem_toFinset.1 (back (List.mem_toFinset.2 filled)))

end Store

end Lookaside
