import Lookaside.Proofs.Operations
import Lookaside.Proofs.Writing

/-!
# Sessions

In a session the operations of one policy are called in any order, with any answers to what they call
back for, and their outboxes are held until they are discharged, in any order, or dropped. Time passes
between the calls, and the keeper of the entities may change by itself.
-/

namespace Lookaside

inductive Operation (ρ E I : Type) where
  | get (id : I) (fetch : I → Call ρ (Option E))
  | getCached (id : I)
  | contains (id : I) (fetch : I → Call ρ Bool)
  | getMany (ids : List I) (fetch : List I → Call ρ (List (Option E)))
  | save (entity : E) (persist : Call ρ E)
  | remove (entity : E) (persist : Call ρ Unit)

structure Session (ρ E : Type) where
  world : World ρ
  held : List (Outbox E)

inductive Move (ρ E I : Type) where
  | call (operation : Operation ρ E I)
  | discharge (n : Nat)
  | drop (n : Nat)
  | wait (span : Span)
  | alter (change : ρ → ρ)

variable {ρ E I : Type} [Entity E I]

def Operation.outbox (p : Policy ρ E) : Operation ρ E I → Act ρ I (Outbox E)
  | get id fetch => return (← p.get id fetch).outbox
  | getCached id => do
    let _ ← (Policy.getCached id : Act ρ I (Except PolicyError (Option E)))
    return .empty
  | contains id fetch => do
    let _ ← Policy.contains E id fetch
    return .empty
  | getMany ids fetch => return (← p.getMany ids fetch).outbox
  | save e persist => return (← p.save e persist).outbox
  | remove e persist => return (← p.remove e persist).outbox

@[reducible] def Operation.Value : Operation ρ E I → Type
  | get .. => Option E
  | getCached _ => Option E
  | contains .. => Bool
  | getMany .. => List E
  | save .. => E
  | remove .. => Unit

def Operation.defer (p : Policy ρ E) : (operation : Operation ρ E I) →
    Act ρ I (Deferred E operation.Value)
  | get id fetch => p.get id fetch
  | getCached id => return Policy.settled (← Policy.getCached id)
  | contains id fetch => return Policy.settled (← Policy.contains E id fetch)
  | getMany ids fetch => p.getMany ids fetch
  | save e persist => p.save e persist
  | remove e persist => p.remove e persist

theorem Operation.outbox_eq (p : Policy ρ E) (operation : Operation ρ E I) :
    operation.outbox p = Deferred.outbox <$> operation.defer p := by
  cases operation with
  | getCached id => simp [outbox, defer, Policy.settled]
  | contains id fetch => simp [outbox, defer, Policy.settled]
  | _ => rfl

def Policy.refusal? {α : Type} : Except KeyError α → Option PolicyError
  | .error error => some error.toPolicy
  | .ok _ => none

def Operation.refusal? (p : Policy ρ E) : Operation ρ E I → Option PolicyError
  | get id _ => Policy.refusal? (Key.item E id)
  | getCached id => Policy.refusal? (Key.item E id)
  | contains id _ => Policy.refusal? (Key.item E id)
  | getMany ids _ =>
    if ids.isEmpty then
      match p.validator with
      | .error error => some error
      | .ok _ => none
    else Policy.refusal? (ids.mapM (Key.item E))
  | save .. => none
  | remove e _ => Policy.refusal? (Key.item E (Entity.id e))

def Move.step (p : Policy ρ E) : Move ρ E I → Step (Session ρ E) (Note I) Unit
  | call operation => fun s =>
    let r := (operation.outbox p).run s.world
    ⟨(), ⟨r.state, s.held ++ [r.value]⟩, r.notes⟩
  | discharge n => fun s =>
    match s.held[n]? with
    | none => ⟨(), s, []⟩
    | some outbox =>
      let r := Step.run (ExceptT.run (outbox.discharge : Effect ρ I Unit)) s.world
      ⟨(), ⟨r.state, s.held.eraseIdx n⟩, r.notes⟩
  | drop n => fun s => ⟨(), { s with held := s.held.eraseIdx n }, []⟩
  | wait span => fun s =>
    ⟨(), { s with world.link.memory := s.world.link.memory.wait span }, []⟩
  | alter change => fun s => ⟨(), { s with world.keeper := change s.world.keeper }, []⟩

def Session.play (p : Policy ρ E) : List (Move ρ E I) → Step (Session ρ E) (Note I) Unit
  | [] => pure ()
  | move :: moves => do
    move.step p
    play p moves

/-! ## What is scheduled -/

structure Policy.Within (P : String → Bytes → Prop) (p : Policy ρ E) : Prop where
  mark : p.options.allowZeroCount = true → P (Key.family E) Marker.bytes
  store : ∀ (e : E) key bytes, Entity.hasIdentity e = true → Key.item E (Entity.id e) = .ok key →
    Entity.encode e = .ok bytes → P key bytes

def Operation.Within (P : String → Bytes → Prop) : Operation ρ E I → Prop
  | get id fetch => ∀ k (e : E), (fetch id k).1 = .ok (some e) → Entity.hasIdentity e = true →
    ∀ key bytes, Key.item E id = .ok key → Entity.encode e = .ok bytes → P key bytes
  | _ => True

variable {P : String → Bytes → Prop} {p : Policy ρ E}

open Act Policy

section

variable {C : {α : Type} → Act ρ I α → Prop} (h : Act.Closed C)
include h

theorem Operation.closed_defer (p : Policy ρ E) (operation : Operation ρ E I) : C (operation.defer p) := by
  cases operation with
  | get id fetch => exact p.closed_get (h.policy E) id fetch
  | getCached id => exact h.bind (closed_getCached (h.policy E).toClosed id) fun _ => h.pure _
  | contains id fetch => exact h.bind (closed_contains (h.policy E) id fetch) fun _ => h.pure _
  | getMany ids fetch => exact p.closed_getMany h ids fetch
  | save e persist => exact p.closed_save h e persist
  | remove e persist => exact p.closed_remove (h.policy E) e persist

theorem Operation.closed_outbox (p : Policy ρ E) (operation : Operation ρ E I) : C (operation.outbox p) := by
  rw [outbox_eq, ← bind_pure_comp]
  exact h.bind (operation.closed_defer h p) fun _ => h.pure _

end

theorem Operation.spares_defer (p : Policy ρ E) (operation : Operation ρ E I) :
    Spares (operation.defer p) :=
  operation.closed_defer closed_spares p

theorem Operation.run_outbox (p : Policy ρ E) (operation : Operation ρ E I) (w : World ρ) :
    (operation.outbox p).run w = ⟨((operation.defer p).run w).value.outbox,
      ((operation.defer p).run w).state, ((operation.defer p).run w).notes⟩ := by
  rw [outbox_eq, Step.run_map]

theorem Operation.spares_outbox (p : Policy ρ E) (operation : Operation ρ E I) :
    Spares (operation.outbox p) :=
  operation.closed_outbox closed_spares p

/-- What an operation that leaves these notes may come to: only a callback that answers gets anything
scheduled. -/
inductive Operation.Answers (p : Policy ρ E) (w : World ρ) (notes : List (Note I)) :
    (operation : Operation ρ E I) → Deferred E operation.Value → Prop where
  | refused {operation : Operation ρ E I} {error : PolicyError} (h : operation.refusal? p = some error) :
    Answers p w notes operation (settled (.error error))
  | found (operation : Operation ρ E I) (a : operation.Value) :
    Answers p w notes operation (settled (.ok a))
  | uncounted (ids : List I) (fetch : List I → Call ρ (List (Option E))) {cause : RepositoryError}
    (counted : .counted (.error cause) ∈ notes) :
    Answers p w notes (.getMany ids fetch) (settled (.error (.repository cause)))
  | get {id : I} {key : String} (keyed : Key.item E id = .ok key) (fetch : I → Call ρ (Option E))
    (called : notes.filterMap Note.errand? = [.fetch id]) :
    Answers p w notes (.get id fetch) (p.fetched key (fetch id w.keeper).1)
  | contains (id : I) (fetch : I → Call ρ Bool) (called : notes.filterMap Note.errand? = [.fetch id]) :
    Answers p w notes (.contains id fetch) (settled ((fetch id w.keeper).1.mapError .repository))
  | getMany (ids : List I) (fetch : List I → Call ρ (List (Option E)))
    (called : notes.filterMap Note.errand? = [.fetchMany ids]) :
    Answers p w notes (.getMany ids fetch)
      (p.collected ids.isEmpty (fetch ids ((p.readCached ids).run w).state.keeper).1)
  | save (e : E) (persist : Call ρ E) (called : notes.filterMap Note.errand? = [.persist]) :
    Answers p w notes (.save e persist) (p.saved e (persist w.keeper).1)
  | remove {e : E} {key : String} (keyed : Key.item E (Entity.id e) = .ok key) (persist : Call ρ Unit)
    (called : notes.filterMap Note.errand? = [.persist]) :
    Answers p w notes (.remove e persist) (p.removed key (persist w.keeper).1)

theorem Operation.refused_of_readCached {ids : List I} {w : World ρ} {error : PolicyError}
    (h : ((p.readCached ids).run w).value = .error error) (fetch : List I → Call ρ (List (Option E))) :
    (getMany ids fetch).refusal? p = some error ∨
      ∃ cause, error = .repository cause ∧ .counted (.error cause) ∈ ((p.readCached ids).run w).notes := by
  rw [readCached] at h ⊢
  split at h
  · next all =>
      -- only a read of everything asks for a count
      rw [if_pos all, refusal?, if_pos all]
      rcases readAll_error h with refused | ⟨-, cause, -, -, rfl, counted⟩
      · exact .inl (by rw [refused])
      · exact .inr ⟨cause, rfl, counted⟩
  · next some_ids =>
      obtain ⟨cause, keyless, rfl⟩ := readMany_error h
      rw [refusal?, if_neg some_ids, keyless]
      exact .inl rfl

theorem Operation.answers_defer (p : Policy ρ E) (operation : Operation ρ E I) (w : World ρ) :
    operation.Answers p w ((operation.defer p).run w).notes ((operation.defer p).run w).value := by
  cases operation with
  | getCached id =>
      rw [defer, Policy.getCached]
      cases keyed : Key.item E id with
      | error error => exact .refused (by rw [refusal?, keyed]; rfl)
      | ok key => exact .found _ _
  | contains id fetch =>
      rw [defer, Step.run_bind, Step.run_pure]
      dsimp only
      rw [List.append_nil]
      cases keyed : Key.item E id with
      | error error =>
          rw [Policy.contains, keyed]
          exact .refused (by rw [refusal?, keyed]; rfl)
      | ok key =>
          cases found : (w.link.value? key).bind (Entity.decode? (E := E)) with
          | some e =>
              rw [(contains_of_hit keyed fetch found).1]
              exact .found (.contains id fetch) true
          | none =>
              obtain ⟨value, -, called⟩ := contains_of_miss keyed fetch found
              rw [value]
              exact .contains id fetch called
  | save e persist =>
      rw [defer, value_save]
      exact .save e persist (p.errands_save e persist w)
  | remove e persist =>
      rw [defer]
      cases keyed : Key.item E (Entity.id e) with
      | error error =>
          rw [remove_of_invalid p keyed]
          exact .refused (by rw [refusal?, keyed]; rfl)
      | ok key =>
          rw [remove_of_key p keyed]
          exact .remove keyed persist rfl
  | get id fetch =>
      rw [defer]
      cases keyed : Key.item E id with
      | error error =>
          rw [get_of_invalid p keyed]
          exact .refused (by rw [refusal?, keyed]; rfl)
      | ok key =>
          cases found : (w.link.value? key).bind (Entity.decode? (E := E)) with
          | some e =>
              rw [(get_of_hit keyed p fetch found).1]
              exact .found (.get id fetch) (some e)
          | none =>
              obtain ⟨value, -, called⟩ := get_of_miss keyed p fetch found
              rw [value]
              exact .get keyed fetch called
  | getMany ids fetch =>
      rw [defer]
      cases cached : ((p.readCached ids).run w).value with
      | ok found =>
          cases found with
          | some es =>
              rw [getMany_of_hit cached]
              exact .found (.getMany ids fetch) es
          | none =>
              obtain ⟨value, -, called⟩ := getMany_of_miss cached fetch
              rw [value]
              exact .getMany ids fetch called
      | error error =>
          rw [getMany_of_error cached]
          rcases refused_of_readCached cached fetch with refused | ⟨cause, rfl, counted⟩
          · exact .refused refused
          · exact .uncounted ids fetch counted

section

variable {operation : Operation ρ E I} {w : World ρ} {notes : List (Note I)}
  {d : Deferred E operation.Value}

theorem Operation.Answers.lifetime (h : operation.Answers p w notes d) :
    ∀ batch, d.outbox.batch? = some batch → batch.ttl = p.options.ttl := by
  have scheduled : ∀ {changes : List (Change E)} batch,
      (Outbox.holding (p.batch changes)).batch? = some batch → batch.ttl = p.options.ttl := by
    rintro _ _ ⟨⟩
    rfl
  cases h with
  | refused => rintro _ ⟨⟩
  | found => rintro _ ⟨⟩
  | uncounted => rintro _ ⟨⟩
  | contains => rintro _ ⟨⟩
  | get keyed fetch _ =>
      cases (fetch _ w.keeper).1 with
      | error error => rintro _ ⟨⟩
      | ok found =>
          cases found with
          | none => rintro _ ⟨⟩
          | some e =>
              rw [fetched]
              split
              · exact scheduled
              · rintro _ ⟨⟩
  | getMany ids fetch _ =>
      cases (fetch ids _).1 with
      | error error => rintro _ ⟨⟩
      | ok replies => exact scheduled
  | save e persist _ => cases (persist w.keeper).1 <;> exact scheduled
  | remove keyed persist _ =>
      cases (persist w.keeper).1 with
      | error error => rintro _ ⟨⟩
      | ok _ => exact scheduled

end

/-- Which call and which answer have a change scheduled by an operation that leaves these notes. -/
inductive Operation.Causes (p : Policy ρ E) (w : World ρ) (notes : List (Note I)) :
    Operation ρ E I → Change E → Prop where
  | fetched {id : I} {key : String} {fetch : I → Call ρ (Option E)} {e : E} (keyed : Key.item E id = .ok key)
    (found : (fetch id w.keeper).1 = .ok (some e)) (identity : Entity.hasIdentity e = true) :
    Causes p w notes (.get id fetch) (.store key e)
  | stored (operation : Operation ρ E I) {e : E} {key : String} (cacheable : cacheKey? e = some key) :
    Causes p w notes operation (.store key e)
  | marked {fetch : List I → Call ρ (List (Option E))} {replies : List (Option E)}
    (called : notes.filterMap Note.errand? = [.fetchMany []])
    (answer : (fetch [] ((p.readCached ([] : List I)).run w).state.keeper).1 = .ok replies)
    (none_found : replies.filterMap id = []) (allowed : p.options.allowZeroCount = true) :
    Causes p w notes (.getMany [] fetch) (.mark (Key.family E))
  | saved {e : E} {persist : Call ρ E} {key : String}
    (cleared : key = Key.family E ∨ cacheKey? e = some key) :
    Causes p w notes (.save e persist) (.clear key)
  | removed {e : E} {persist : Call ρ Unit} {key : String}
    (cleared : key = Key.family E ∨ Key.item E (Entity.id e) = .ok key) :
    Causes p w notes (.remove e persist) (.clear key)

section

variable {operation : Operation ρ E I} {w : World ρ} {notes : List (Note I)} {change : Change E}

theorem Operation.causes_stores {es : List E} (h : change ∈ stores es) :
    operation.Causes p w notes change := by
  obtain ⟨e, -, key, cacheable, rfl⟩ := mem_stores h
  exact .stored operation cacheable

theorem Operation.Answers.causes {d : Deferred E operation.Value} (h : operation.Answers p w notes d)
    (member : change ∈ d.outbox.changes) : operation.Causes p w notes change := by
  cases h with
  | refused => cases member
  | found => cases member
  | uncounted => cases member
  | contains => cases member
  | @get id key keyed fetch _ =>
      match answer : (fetch id w.keeper).1 with
      | .error error =>
          rw [answer] at member
          cases member
      | .ok none =>
          rw [answer] at member
          cases member
      | .ok (some e) =>
          rw [answer, Policy.fetched] at member
          split at member
          · next identity =>
              cases List.mem_singleton.1 member
              exact .fetched keyed answer identity
          · cases member
  | getMany ids fetch called =>
      cases answer : (fetch ids ((p.readCached ids).run w).state.keeper).1 with
      | error error =>
          rw [answer] at member
          cases member
      | ok replies =>
          rw [answer] at member
          rcases p.mem_collects member with ⟨rfl, all, none_found, allowed⟩ | stored
          · cases List.isEmpty_iff.1 all
            exact .marked called answer none_found allowed
          · exact causes_stores stored
  | save e persist _ =>
      cases answer : (persist w.keeper).1 with
      | ok persisted =>
          rw [answer] at member
          rcases List.mem_append.1 member with stored | family
          · exact causes_stores stored
          · cases List.mem_singleton.1 family
            exact .saved (.inl rfl)
      | error error =>
          rw [answer] at member
          rcases List.mem_append.1 member with item | family
          · obtain ⟨key, cacheable, rfl⟩ := mem_clears item
            exact .saved (.inr cacheable)
          · cases List.mem_singleton.1 family
            exact .saved (.inl rfl)
  | remove keyed persist _ =>
      cases answer : (persist w.keeper).1 with
      | ok _ =>
          rw [answer] at member
          rcases List.mem_cons.1 member with rfl | family
          · exact .removed (.inr keyed)
          · cases List.mem_singleton.1 family
            exact .removed (.inl rfl)
      | error error =>
          rw [answer] at member
          cases member

theorem Operation.causes_defer (p : Policy ρ E) (operation : Operation ρ E I) (w : World ρ)
    (member : change ∈ ((operation.defer p).run w).value.outbox.changes) :
    operation.Causes p w ((operation.defer p).run w).notes change :=
  (operation.answers_defer p w).causes member

theorem Operation.Causes.writes {key : String} (h : operation.Causes p w notes (.clear key)) :
    (∃ e persist, operation = .save e persist) ∨ ∃ e persist, operation = .remove e persist := by
  cases h with
  | saved => exact .inl ⟨_, _, rfl⟩
  | removed => exact .inr ⟨_, _, rfl⟩

end

inductive Operation.Schedules (p : Policy ρ E) : Operation ρ E I → Change E → Prop where
  | clear (operation : Operation ρ E I) (key : String) : Schedules p operation (.clear key)
  | store (operation : Operation ρ E I) {e : E} {key : String} (cacheable : cacheKey? e = some key) :
    Schedules p operation (.store key e)
  | fetched {id : I} {key : String} {fetch : I → Call ρ (Option E)} {k : ρ} {e : E}
    (keyed : Key.item E id = .ok key) (found : (fetch id k).1 = .ok (some e))
    (identity : Entity.hasIdentity e = true) : Schedules p (.get id fetch) (.store key e)
  | mark (fetch : List I → Call ρ (List (Option E))) (allowed : p.options.allowZeroCount = true) :
    Schedules p (.getMany [] fetch) (.mark (Key.family E))

theorem Operation.Causes.schedules {operation : Operation ρ E I} {w : World ρ} {notes : List (Note I)}
    {change : Change E} (h : operation.Causes p w notes change) : operation.Schedules p change := by
  cases h with
  | fetched keyed found identity => exact .fetched keyed found identity
  | stored _ cacheable => exact .store _ cacheable
  | marked _ _ _ allowed => exact .mark _ allowed
  | saved => exact .clear _ _
  | removed => exact .clear _ _

theorem Operation.schedules_defer (p : Policy ρ E) (operation : Operation ρ E I) (w : World ρ) :
    ∀ change ∈ ((operation.defer p).run w).value.outbox.changes, operation.Schedules p change :=
  fun _ member => (operation.causes_defer p w member).schedules

theorem Operation.Schedules.within {operation : Operation ρ E I} {change : Change E}
    (h : operation.Schedules p change) (within : p.Within P) (honest : operation.Within P) :
    change.Within P := by
  cases h with
  | clear => trivial
  | store _ cacheable =>
      obtain ⟨identity, keyed⟩ := cacheKey?_some.1 cacheable
      exact fun bytes encoded => within.store _ _ bytes identity keyed encoded
  | fetched keyed found identity =>
      exact fun bytes encoded => honest _ _ found identity _ bytes keyed encoded
  | mark fetch allowed => exact within.mark allowed

theorem Operation.within_outbox (h : p.Within P) {operation : Operation ρ E I}
    (honest : operation.Within P) (w : World ρ) :
    ((operation.outbox p).run w).value.Within P := by
  rw [run_outbox, Outbox.within_iff]
  exact fun change member => (operation.schedules_defer p w change member).within h honest

/-! ## Moves and sessions -/

variable {τ : Type} {t : τ} {log : List (Written τ)} {s : Session ρ E}

structure Session.Sound (P : String → Bytes → Prop) (t : τ) (log : List (Written τ))
    (s : Session ρ E) : Prop where
  held : ∀ outbox ∈ s.held, outbox.Within P
  written : ∀ v ∈ log, v.writer = t → P v.key v.value
  explained : s.world.link.memory.store.Explained log

theorem Session.Sound.silent {s' : Session ρ E} (h : s.Sound P t log)
    (held : ∀ outbox ∈ s'.held, outbox ∈ s.held)
    (same : s'.world.link.memory.store = s.world.link.memory.store) :
    s'.Sound P t (log ++ Written.ofNotes t ([] : List (Note I))) := by
  rw [Written.ofNotes, List.filterMap_nil, List.map_nil, List.append_nil]
  exact ⟨fun outbox member => h.held outbox (held outbox member), h.written, same ▸ h.explained⟩

theorem Session.Sound.act {α : Type} {x : Act ρ I α} (hx : Records P x) (h : s.Sound P t log)
    {held : List (Outbox E)} (within : ∀ outbox ∈ held, outbox.Within P) :
    (⟨(x.run s.world).state, held⟩ : Session ρ E).Sound P t
      (log ++ Written.ofNotes t (x.run s.world).notes) where
  held := within
  written v member writer := by
    cases List.mem_append.1 member with
    | inl before => exact h.written v before writer
    | inr now =>
        obtain ⟨pair, noted, rfl⟩ := List.mem_map.1 now
        exact hx.permitted s.world pair noted
  explained := hx.explained t s.world log h.explained

theorem Move.sound_step (within : p.Within P) {move : Move ρ E I}
    (honest : ∀ operation, move = .call operation → operation.Within P) (h : s.Sound P t log) :
    ((move.step p).run s).state.Sound P t (log ++ Written.ofNotes t ((move.step p).run s).notes) := by
  cases move with
  | call operation =>
      refine h.act (operation.spares_outbox p).records fun outbox member => ?_
      cases List.mem_append.1 member with
      | inl before => exact h.held outbox before
      | inr new =>
          cases List.mem_singleton.1 new
          exact operation.within_outbox within (honest operation rfl) s.world
  | discharge n =>
      show Session.Sound P t _ (Outcome.state (Step.run _ _))
      cases found : s.held[n]? with
      | none => simpa only [step, Step.run, found] using h.silent (fun _ member => member) rfl
      | some outbox =>
          have last := h.held outbox (List.mem_of_getElem? found)
          simpa only [step, Step.run, found] using
            h.act (Outbox.records_discharge last) fun outbox member =>
              h.held outbox (List.mem_of_mem_eraseIdx member)
  | drop n => exact h.silent (fun _ member => List.mem_of_mem_eraseIdx member) rfl
  | wait span => exact h.silent (fun _ member => member) rfl
  | alter change => exact h.silent (fun _ member => member) rfl

theorem Session.sound_play (within : p.Within P) {moves : List (Move ρ E I)}
    (honest : ∀ operation, .call operation ∈ moves → operation.Within P) (h : s.Sound P t log) :
    ((play p moves).run s).state.Sound P t (log ++ Written.ofNotes t ((play p moves).run s).notes) := by
  induction moves generalizing s log with
  | nil => exact h.silent (fun _ member => member) rfl
  | cons move moves ih =>
      rw [play, Step.run_bind, Written.ofNotes_append, ← List.append_assoc]
      refine ih (fun operation member => honest operation (List.mem_cons_of_mem _ member)) ?_
      refine move.sound_step within (fun operation same => ?_) h
      exact honest operation (same ▸ List.mem_cons_self)

def Session.start (memory : Memory) (faults : Cache.Faults) (keeper : ρ) : Session ρ E :=
  ⟨⟨⟨memory, faults, 0⟩, keeper⟩, []⟩

theorem Session.sound_start {capacity : Nat} {memory : Memory}
    (made : Memory.create capacity = .ok memory) (faults : Cache.Faults) (keeper : ρ) :
    (start memory faults keeper : Session ρ E).Sound P t [] := by
  rw [Memory.create_ok made]
  refine ⟨?_, ?_, ?_⟩
  · intro outbox none
    cases none
  · intro v none
    cases none
  · intro x none
    cases none

end Lookaside
