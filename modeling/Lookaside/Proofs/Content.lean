import Lookaside.Proofs.Entity
import Lookaside.Proofs.Key
import Lookaside.Proofs.Session
import Mathlib

namespace Lookaside

variable {ρ E I : Type} [Entity E I]

def Operation.Honest : Operation ρ E I → Prop
  | get id fetch => ∀ k (e : E), (fetch id k).1 = .ok (some e) → Entity.id e = id
  | _ => True

/-- The marker under the family key, or an entity under its own key. -/
def Policy.Content (p : Policy ρ E) (key : String) (value : Bytes) : Prop :=
  (key = Key.family E ∧ value = Marker.bytes ∧ p.options.allowZeroCount = true) ∨
    ∃ e : E, Entity.hasIdentity e = true ∧ Entity.renderId E (Entity.id e) ≠ "" ∧
      Key.item E (Entity.id e) = .ok key ∧ Entity.encode e = .ok value

theorem Policy.within_content (p : Policy ρ E) : p.Within p.Content where
  mark allowed := .inl ⟨rfl, rfl, allowed⟩
  store e _ _ identity keyed encoded :=
    .inr ⟨e, identity, (Key.item_ok_iff.1 keyed).1, keyed, encoded⟩

theorem Operation.Honest.within {operation : Operation ρ E I} (h : operation.Honest)
    (p : Policy ρ E) : operation.Within p.Content := by
  cases operation with
  | get id fetch =>
      intro k e found identity key bytes keyed encoded
      have own : Entity.id e = id := h k e found
      subst own
      exact .inr ⟨e, identity, (Key.item_ok_iff.1 keyed).1, keyed, encoded⟩
  | _ => trivial

theorem Policy.Content.of_item [DistinctIds E] {p : Policy ρ E} {key : String} {value : Bytes}
    (h : p.Content key value) {id : I} (keyed : Key.item E id = .ok key) :
    ∃ e : E, Entity.id e = id ∧ Entity.hasIdentity e = true ∧ Entity.encode e = .ok value := by
  rcases h with ⟨family, -, -⟩ | ⟨e, identity, -, own, encoded⟩
  · exact absurd family (Key.item_ne_family keyed)
  · exact ⟨e, Key.item_injective DistinctIds.renderId_injective own keyed, identity, encoded⟩

theorem Session.content_play {p : Policy ρ E} {s : Session ρ E} {log : List (Written Unit)}
    {moves : List (Move ρ E I)} (h : s.Sound p.Content () log)
    (honest : ∀ operation, .call operation ∈ moves → operation.Honest) :
    ∀ x ∈ ((play p moves).run s).state.world.link.memory.store.entries, p.Content x.key x.value := by
  intro x stored
  have sound := sound_play p.within_content
    (fun operation member => (honest operation member).within p) h
  obtain ⟨_, latest⟩ := sound.explained x stored
  exact sound.written _ (Written.latest?_some latest).1 rfl

theorem stored_under_own_key [DistinctIds E] (p : Policy ρ E) {capacity : Nat} {memory : Memory}
    (made : Memory.create capacity = .ok memory) (faults : Cache.Faults) (keeper : ρ)
    {moves : List (Move ρ E I)}
    (honest : ∀ operation, .call operation ∈ moves → operation.Honest) :
    let after := ((Session.play p moves).run (.start memory faults keeper)).state.world.link.memory
    (∀ x ∈ after.store.entries,
      (x.key = Key.family E ∧ x.value = Marker.bytes ∧ p.options.allowZeroCount = true) ∨
        ∃ e : E, Entity.hasIdentity e = true ∧ Entity.renderId E (Entity.id e) ≠ "" ∧
          Key.item E (Entity.id e) = .ok x.key ∧ Entity.encode e = .ok x.value) ∧
      ∀ (id : I) (key : String) (value : Bytes), Key.item E id = .ok key →
        (after.get key).1 = some value →
          ∃ e : E, Entity.id e = id ∧ Entity.hasIdentity e = true ∧
            Entity.encode e = .ok value := by
  have content := Session.content_play (p := p) (Session.sound_start made faults keeper) honest
  refine ⟨content, ?_⟩
  intro id key value keyed found
  obtain ⟨x, stored, rfl, -, rfl⟩ := Store.lookup?_some found
  exact (content x stored).of_item keyed

theorem members_under_own_keys :
    let p : Policy Unit Member := .new ⟨false, true, none⟩
    let moves : List (Move Unit Member Int32) :=
      [.call (.getMany [] fun _ k => (.ok [], k)), .call (.save ⟨0, "ada"⟩ fun k => (.ok ⟨7, "ada"⟩, k)),
        .call (.get 9 fun _ k => (.ok (some ⟨9, "bob"⟩), k)), .discharge 2, .discharge 0]
    let memory : Memory := ⟨⟨2, []⟩, 1000000000⟩
    let after :=
      ((Session.play p moves).run (.start memory .never ())).state.world.link.memory
    Memory.create 2 = .ok memory ∧
      (∀ operation, .call operation ∈ moves → operation.Honest) ∧
      after.store.entries.map (·.key) = ["uRepo_Member_", "uRepo_Member_9"] ∧
      (∀ x ∈ after.store.entries,
        (x.key = Key.family Member ∧ x.value = Marker.bytes ∧ p.options.allowZeroCount = true) ∨
          ∃ e : Member, Entity.hasIdentity e = true ∧ Entity.renderId Member (Entity.id e) ≠ "" ∧
            Key.item Member (Entity.id e) = .ok x.key ∧ Entity.encode e = .ok x.value) ∧
        ∀ (id : Int32) (key : String) (value : Bytes), Key.item Member id = .ok key →
          (after.get key).1 = some value →
            ∃ e : Member, Entity.id e = id ∧ Entity.hasIdentity e = true ∧
              Entity.encode e = .ok value := by
  intro p moves memory after
  have honest : ∀ operation, .call operation ∈ moves → operation.Honest := by
    intro operation member
    simp only [moves, List.mem_cons, Move.call.injEq, reduceCtorEq, List.not_mem_nil, or_false] at member
    rcases member with rfl | rfl | rfl
    · trivial
    · trivial
    · rintro k e found
      cases found
      rfl
  exact ⟨rfl, honest, by dsimp only [after, moves, memory, p]; cbv,
    stored_under_own_key p (show Memory.create 2 = .ok memory from rfl) .never () honest⟩

end Lookaside
