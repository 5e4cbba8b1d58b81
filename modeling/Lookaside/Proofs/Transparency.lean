import Lookaside.Proofs.Serving
import Lookaside.Repository.Monitor
import Mathlib

/-!
# A table behind a cache

A cached table answers as the bare table does, whatever is evicted or expires and however reading from
the cache fails. Only a request for all rows may be answered otherwise: with validated counts the rows
come in another order, and without them some may be missing, but none is wrong.
-/

namespace Lookaside

variable {ρ E I : Type}

/-! ## Runs of calls -/

namespace Repository

inductive Answer (E : Type) where
  | found (entity? : Option E)
  | many (entities : List E)
  | whether (present : Bool)
  | written (entity : E)
  | deleted
  | counted (n : Nat)
deriving DecidableEq, Repr

def perform (r : Repository ρ E I) : Record E I → Call ρ (Answer E)
  | .get id => fun k => ((r.get id k).1.map .found, (r.get id k).2)
  | .getMany ids => fun k => ((r.getMany ids k).1.map .many, (r.getMany ids k).2)
  | .contains id => fun k => ((r.contains id k).1.map .whether, (r.contains id k).2)
  | .save e => fun k => ((r.save e k).1.map .written, (r.save e k).2)
  | .delete e => fun k => ((r.delete e k).1.map fun _ => .deleted, (r.delete e k).2)
  | .count => fun k => ((r.count k).1.map .counted, (r.count k).2)

def answers (r : Repository ρ E I) : List (Record E I) → ρ → List (Except RepositoryError (Answer E))
  | [], _ => []
  | record :: records, k => (r.perform record k).1 :: answers r records (r.perform record k).2

end Repository

open Repository

namespace CachedRepository

variable [Entity E I]

def perform (c : CachedRepository ρ E I) :
    Record E I → Effect ρ I (Except RepositoryError (Answer E))
  | .get id => return (← c.get id).map .found
  | .getMany ids => return (← c.getMany ids).map .many
  | .contains id => return (← c.contains id).map .whether
  | .save e => return (← c.save e).map .written
  | .delete e => return (← c.delete e).map fun _ => .deleted
  | .count => return (← c.count).map .counted

def answers (c : CachedRepository ρ E I) : List (Span × Record E I) → World ρ →
    List (Except Overflow (Except RepositoryError (Answer E)))
  | [], _ => []
  | (span, record) :: calls, w =>
    let r := Step.run (ExceptT.run (c.perform record)) (w.wait span)
    r.value :: answers c calls r.state

end CachedRepository

/-- What the cache may make of an answer of the repository. -/
def Transparent (options : Policy.Options) : Record E I → Except RepositoryError (Answer E) →
    Except Overflow (Except RepositoryError (Answer E)) → Prop
  | .getMany [], bare, cached => ∃ rows es, bare = .ok (.many rows) ∧ cached = .ok (.ok (.many es)) ∧
      Selects options rows es
  | _, bare, cached => cached = .ok bare

/-! ## Runs of a table behind a cache -/

variable [NumberedEntity E]

namespace Table

def creations (records : List (Record E Int32)) : Nat :=
  records.countP fun
    | .save e => creates e
    | _ => false

variable [LawfulNumbered E]

omit [LawfulNumbered E] in
theorem Filed.perform {t : Table E} (h : t.Filed) (record : Record E Int32) :
    (repository.perform record t).2.Filed := by
  cases record with
  | save e => exact h.save e
  | delete e => exact h.delete e
  | _ => exact h

theorem Sound.perform {t : Table E} {record : Record E Int32} {records : List (Record E Int32)}
    (h : t.Sound (creations (record :: records))) :
    (repository.perform record t).2.Sound (creations records) := by
  rw [creations, List.countP_cons] at h
  cases record with
  | save e => exact h.save
  | delete e => exact (h.mono (Nat.le_add_right _ _)).delete e
  | _ => exact h.mono (Nat.le_add_right _ _)

variable {w : World (Table E)} {options : Policy.Options} {deadline : Option Nat}

theorem serves_perform (h : Agreeing w) (filed : w.keeper.Filed)
    (fits : w.link.memory.deadline options.ttl = .ok deadline) (record : Record E Int32) :
    Serves w ((cached E options).perform record)
      (fun a => Transparent options record (repository.perform record w.keeper).1 (.ok a))
      (repository.perform record w.keeper).2 := by
  cases record with
  | get id =>
      refine (h.serves_get filed fits id).map ?_
      rintro _ rfl
      rfl
  | contains id =>
      refine (h.serves_contains id).map ?_
      rintro _ rfl
      rfl
  | save e =>
      refine (h.serves_save filed fits e).map ?_
      rintro _ rfl
      rfl
  | delete e =>
      refine (h.serves_delete fits e).map ?_
      rintro _ rfl
      rfl
  | count =>
      refine h.serves_count.map ?_
      rintro _ rfl
      rfl
  | getMany ids =>
      cases ids with
      | nil =>
          refine (h.serves_all filed fits).map ?_
          rintro _ ⟨es, rfl, selected⟩
          exact ⟨_, es, rfl, rfl, selected⟩
      | cons id ids =>
          refine (h.serves_getMany filed fits (List.cons_ne_nil id ids)).map ?_
          rintro _ rfl
          rfl

theorem transparent_answers {calls : List (Span × Record E Int32)} (h : Agreeing w)
    (sound : w.keeper.Sound (creations (calls.map (·.2))))
    (fits : ∀ ttl, options.ttl = some ttl →
      Span.seconds (w.link.memory.now + (calls.map (·.1)).sum + ttl) ≤ Memory.lastSecond) :
    List.Forall₂ (fun call cached => Transparent options call.1 call.2 cached)
      ((calls.map (·.2)).zip (repository.answers (calls.map (·.2)) w.keeper))
      ((cached E options).answers calls w) := by
  induction calls generalizing w with
  | nil => exact .nil
  | cons call calls ih =>
      obtain ⟨span, record⟩ := call
      have fits' : ∀ ttl, options.ttl = some ttl → Span.seconds
          ((w.wait span).link.memory.now + (calls.map (·.1)).sum + ttl) ≤ Memory.lastSecond := by
        intro ttl given
        have sum : (w.wait span).link.memory.now + (calls.map (·.1)).sum =
            w.link.memory.now + (((span, record) :: calls).map (·.1)).sum := by
          rw [List.map_cons, List.sum_cons, ← Nat.add_assoc]
          rfl
        rw [sum]
        exact fits ttl given
      have agreeing : Agreeing (w.wait span) := ⟨h.coherent, h.wellFormed, h.writable⟩
      obtain ⟨deadline, lives⟩ := Memory.deadline_ok fits'
      have served := serves_perform agreeing sound.filed lives record
      obtain ⟨a, value, transparent⟩ := served.value
      refine .cons ?_ ?_
      · show Transparent options record _ (Step.run _ _).value
        rw [value]
        exact transparent
      · have rest := ih served.agreeing (served.keeper ▸ sound.perform) (served.now ▸ fits')
        rw [served.keeper] at rest
        exact rest

/-- A table behind a cache answers as a table does. -/
theorem cached_transparent {capacity : Nat} {memory : Memory}
    (made : Memory.create capacity = .ok memory) {faults : Cache.Faults}
    (writable : faults.SpareWrites) {calls : List (Span × Record E Int32)}
    (fits : ∀ ttl, options.ttl = some ttl →
      Span.seconds (memory.now + (calls.map (·.1)).sum + ttl) ≤ Memory.lastSecond)
    (few : creations (calls.map (·.2)) < 2147483647) :
    List.Forall₂ (fun call cached => Transparent options call.1 call.2 cached)
      ((calls.map (·.2)).zip (repository.answers (calls.map (·.2)) (empty : Table E)))
      ((cached E options).answers calls ⟨⟨memory, faults, 0⟩, empty⟩) := by
  refine transparent_answers (w := ⟨⟨memory, faults, 0⟩, empty⟩) ⟨?_, ?_, writable⟩
    (sound_empty few) fits
  · rw [Memory.create_ok made]
    exact coherent_nil _ _
  · rw [Memory.create_ok made]
    exact Store.wellFormed_nil _

theorem cached_members_transparent :
    let options : Policy.Options := ⟨true, true, some 500000000⟩
    let memory : Memory := ⟨⟨1, []⟩, 1000000000⟩
    let faults : Cache.Faults := .ofRules [⟨.get, some "uRepo_Member_2", .connectionFailed "down"⟩]
    let calls : List (Span × Record Member Int32) :=
      [(0, .getMany []), (7, .save ⟨0, "ada"⟩), (0, .save ⟨0, "bob"⟩), (600000000, .get 2),
        (0, .getMany []), (0, .get 1), (0, .delete ⟨1, "ada"⟩), (0, .delete ⟨1, "ada"⟩),
        (9, .contains 1), (0, .getMany []), (0, .count)]
    let cached := (Table.cached Member options).answers calls ⟨⟨memory, faults, 0⟩, empty⟩
    Memory.create 1 = .ok memory ∧ faults.SpareWrites ∧
      (∀ ttl, options.ttl = some ttl →
        Span.seconds (memory.now + (calls.map (·.1)).sum + ttl) ≤ Memory.lastSecond) ∧
      creations (calls.map (·.2)) < 2147483647 ∧
      cached = [.ok (.ok (.many [])), .ok (.ok (.written ⟨1, "ada"⟩)),
        .ok (.ok (.written ⟨2, "bob"⟩)), .ok (.ok (.found (some ⟨2, "bob"⟩))),
        .ok (.ok (.many [⟨1, "ada"⟩, ⟨2, "bob"⟩])), .ok (.ok (.found (some ⟨1, "ada"⟩))),
        .ok (.ok .deleted), .ok (.error (.notFound "Member" "1")), .ok (.ok (.whether false)),
        .ok (.ok (.many [⟨2, "bob"⟩])), .ok (.ok (.counted 1))] ∧
      List.Forall₂ (fun call answer => Transparent options call.1 call.2 answer)
        ((calls.map (·.2)).zip (repository.answers (calls.map (·.2)) (empty : Table Member)))
        cached := by
  intro options memory faults calls cached
  have writable : faults.SpareWrites := by
    intro n r write
    have other : (Cache.FaultRule.mk .get (some "uRepo_Member_2") (.connectionFailed "down")).covers r =
        false := by
      cases r <;> first | rfl | simp [Cache.Request.method] at write
    simp only [faults, Cache.Faults.ofRules, List.find?_cons, other, List.find?_nil, Option.map_none]
  have fits : ∀ ttl, options.ttl = some ttl →
      Span.seconds (memory.now + (calls.map (·.1)).sum + ttl) ≤ Memory.lastSecond := by
    rintro _ ⟨⟩
    decide
  have few : creations (calls.map (·.2)) < 2147483647 := by decide
  refine ⟨rfl, writable, fits, few, ?_,
    cached_transparent (show Memory.create 1 = .ok memory from rfl) writable fits few⟩
  dsimp only [cached, options, memory, faults, calls]
  cbv

end Table

end Lookaside
