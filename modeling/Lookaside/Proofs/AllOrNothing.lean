import Lookaside.Proofs.Entity
import Lookaside.Proofs.Operations
import Lookaside.Proofs.Unread
import Mathlib

namespace Lookaside

variable {ρ E I : Type}

theorem mapM_some_iff {α β : Type} {f : α → Option β} {xs : List α} {ys : List β} :
    xs.mapM f = some ys ↔ List.Forall₂ (fun x y => f x = some y) xs ys := by
  induction xs generalizing ys with
  | nil => cases ys <;> simp
  | cons x xs ih =>
      simp only [List.mapM_cons, Option.bind_eq_bind, Option.bind_eq_some_iff, Option.pure_def,
        Option.some.injEq]
      constructor
      · rintro ⟨y, found, ys, rest, rfl⟩
        exact .cons found (ih.1 rest)
      · rintro (_ | ⟨found, rest⟩)
        exact ⟨_, found, _, ih.2 rest, rfl⟩

theorem mapM_none_iff {α β : Type} {f : α → Option β} {xs : List α} :
    xs.mapM f = none ↔ ∃ x ∈ xs, f x = none := by
  induction xs with
  | nil => simp
  | cons x xs ih =>
      rw [List.mapM_cons, List.exists_mem_cons_iff, ← ih]
      cases f x <;> cases xs.mapM f <;> simp

variable [Entity E I]

def Cache.Link.cached? (E : Type) [Entity E I] (l : Cache.Link) (id : I) : Option E :=
  (l.memory.store.lookup? l.memory.now (Key.family E ++ Entity.renderId E id)).bind Entity.decode?

namespace Policy

open Act Lookup

theorem value_readMany {ids : List I} (texts : ∀ id ∈ ids, Entity.renderId E id ≠ "") {w : World ρ}
    (wf : w.link.memory.store.WellFormed) (never : w.link.faults = .never) :
    ((readMany ids : Act ρ I (Except PolicyError (Option (List E)))).run w).value =
      .ok (ids.mapM (w.link.cached? E)) := by
  have found (requested : Nat) : ((allOf requested (ids.map fun id => Key.family E ++ Entity.renderId E id) :
      Act ρ I (Option (List E))).run w).value = ids.mapM (w.link.cached? E) :=
    (allOf_never never wf).trans List.mapM_map
  rw [readMany, Key.mapM_item_of_texts texts]
  dsimp only
  rw [Step.run_bind, found]
  cases ids.mapM (w.link.cached? E) <;> rfl

theorem stores_eq (es : List E) :
    stores es = (es.filter fun e => Entity.hasIdentity e && Entity.renderId E (Entity.id e) ≠ "").map
      fun e => .store (Key.family E ++ Entity.renderId E (Entity.id e)) e := by
  rw [stores, ← List.filterMap_eq_map, List.filterMap_filter]
  refine List.filterMap_congr fun e _ => ?_
  rw [cacheKey?, Key.item]
  by_cases text : Entity.renderId E (Entity.id e) = "" <;> cases Entity.hasIdentity e <;>
    simp [text, Except.toOption]

/-- Either the cache answers, with every entity in its place, or the repository does. -/
theorem all_or_nothing (p : Policy ρ E) {ids : List I} (some_ids : ids ≠ [])
    (texts : ∀ id ∈ ids, Entity.renderId E id ≠ "") {w : World ρ}
    (wf : w.link.memory.store.WellFormed) (never : w.link.faults = .never)
    (fetch : List I → Call ρ (List (Option E))) :
    let run := (p.getMany ids fetch).run w
    let answer := fetch ids w.keeper
    ((∀ id ∈ ids, w.link.cached? E id ≠ none) →
        run.notes.filterMap Note.errand? = [] ∧ run.state.keeper = w.keeper ∧
          ∃ es, run.value = settled (.ok es) ∧ List.Forall₂ (fun id e => w.link.cached? E id = some e) ids es) ∧
      ((∃ id ∈ ids, w.link.cached? E id = none) →
        run.notes.filterMap Note.errand? = [.fetchMany ids] ∧ run.state.keeper = answer.2 ∧
          (∀ replies, answer.1 = .ok replies →
            let entities := replies.filterMap id
            let changes := (entities.filter fun e =>
              Entity.hasIdentity e && Entity.renderId E (Entity.id e) ≠ "").map
                fun e => Change.store (Key.family E ++ Entity.renderId E (Entity.id e)) e
            run.value = p.scheduled changes (.ok entities) ∧ ∀ change ∈ changes, change.key ≠ Key.family E) ∧
          ∀ error, answer.1 = .error error → run.value = settled (.error (.repository error))) := by
  intro run answer
  have cached : ((p.readCached ids).run w).value = .ok (ids.mapM (w.link.cached? E)) := by
    rw [readCached, if_neg (by simpa using some_ids), value_readMany texts wf never]
  have keeper : ((p.readCached ids).run w).state.keeper = w.keeper := by
    rw [readCached, if_neg (by simpa using some_ids)]
    exact (looksUp_readMany ids).keeper w
  refine ⟨fun present => ?_, fun missing => ?_⟩
  · have some_all : ids.mapM (w.link.cached? E) ≠ none := by
      rw [Ne, mapM_none_iff]
      rintro ⟨id, member, absent⟩
      exact present id member absent
    obtain ⟨es, found⟩ := Option.ne_none_iff_exists'.1 some_all
    rw [found] at cached
    have hit : run = _ := getMany_of_hit cached fetch
    rw [hit]
    exact ⟨p.errands_readCached ids w, keeper, es, rfl, mapM_some_iff.1 found⟩
  · rw [mapM_none_iff.2 missing] at cached
    obtain ⟨value, state, errands⟩ := getMany_of_miss cached fetch
    rw [keeper, List.isEmpty_eq_false_iff.2 some_ids] at value
    rw [keeper] at state
    refine ⟨errands, congrArg World.keeper state, fun replies answered => ?_, fun error failed => ?_⟩
    · intro entities changes
      have same : p.collects false entities = changes := stores_eq entities
      refine ⟨?_, fun change member => ?_⟩
      · rw [value, answered, ← same]
        rfl
      · rw [← same] at member
        obtain ⟨e, -, key, cacheable, rfl⟩ := mem_stores member
        exact Key.item_ne_family (cacheKey?_some.1 cacheable).2
    · rw [value, failed]
      rfl

theorem members_all_or_nothing :
    let p : Policy Unit Member := .new ⟨true, false, none⟩
    let ada := Member.format.encode ⟨1, "ada"⟩
    let w : World Unit := ⟨.ofMemory ⟨⟨2, [⟨"uRepo_Member_1", ada, none⟩, ⟨"uRepo_Member_2", [], none⟩]⟩, 10⟩, ()⟩
    let fetch : List Int32 → Call Unit (List (Option Member)) :=
      fun _ k => (.ok [some ⟨1, "bob"⟩, none, some ⟨0, "new"⟩], k)
    let all := (p.getMany [1, 2, 1] fetch).run w
    let one := (p.getMany [1, 1] fetch).run w
    w.link.memory.store.WellFormed ∧ all.notes.filterMap Note.errand? = [.fetchMany [1, 2, 1]] ∧
      all.value = p.scheduled [.store "uRepo_Member_1" ⟨1, "bob"⟩] (.ok [⟨1, "bob"⟩, ⟨0, "new"⟩]) ∧
      one.notes.filterMap Note.errand? = [] ∧
      ∃ es, one.value = settled (.ok es) ∧
        List.Forall₂ (fun id e => w.link.cached? Member id = some e) [1, 1] es := by
  intro p ada w fetch all one
  have wf : w.link.memory.store.WellFormed := ⟨by decide, by decide⟩
  have readable : w.link.cached? Member 1 = some ⟨1, "ada"⟩ := by
    dsimp only [w, ada]
    cbv
  have unreadable : w.link.cached? Member 2 = none := by
    dsimp only [w, ada]
    cbv
  have numbered (ids : List Int32) : ∀ id ∈ ids, Entity.renderId Member id ≠ "" :=
    fun id _ => renderNumber_ne_empty id
  obtain ⟨-, missed⟩ := p.all_or_nothing (List.cons_ne_nil 1 [2, 1]) (numbered _) wf rfl fetch
  obtain ⟨hit, -⟩ := p.all_or_nothing (List.cons_ne_nil 1 [1]) (numbered _) wf rfl fetch
  obtain ⟨asked, -, answered, -⟩ := missed ⟨2, by decide, unreadable⟩
  obtain ⟨silent, -, found⟩ := hit (by simp [readable])
  refine ⟨wf, asked, ?_, silent, found⟩
  exact (answered _ rfl).1.trans (by cbv)

end Policy

end Lookaside
