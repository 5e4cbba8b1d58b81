import Lookaside.Entity.Member
import Lookaside.Proofs.Discharge
import Lookaside.Proofs.Session
import Mathlib

namespace Lookaside

variable {ρ E I : Type}

namespace Note

def calls (notes : List (Note I)) : List (Note I) :=
  notes.filter (·.event?.isNone)

theorem calls_append (notes notes' : List (Note I)) : calls (notes ++ notes') = calls notes ++ calls notes' :=
  List.filter_append _ _

theorem calls_events {notes : List (Note I)} (h : ∀ note ∈ notes, ∃ e, note = .event e) :
    calls notes = [] := by
  refine List.filter_eq_nil_iff.2 fun note member => ?_
  obtain ⟨e, rfl⟩ := h note member
  exact Bool.false_ne_true

/-- Lookups, then at most one count, then at most one errand. -/
def Orderly (notes : List (Note I)) : Prop :=
  ∃ (lookups : List Cache.Exchange) (count? : Option (Except RepositoryError Nat))
    (errand? : Option (Errand I)),
    calls notes = lookups.map .exchange ++ (count?.map .counted).toList ++ (errand?.map .called).toList ∧
      ∀ x ∈ lookups, x.request.method = .get ∨ x.request.method = .scan

variable {notes notes' : List (Note I)}

theorem calls_lookups (h : ∀ note ∈ notes, note.IsLookup) :
    ∃ lookups : List Cache.Exchange, calls notes = lookups.map .exchange ∧
      ∀ x ∈ lookups, x.request.method = .get ∨ x.request.method = .scan := by
  induction notes with
  | nil => exact ⟨[], rfl, List.forall_mem_nil _⟩
  | cons note notes ih =>
      rw [List.forall_mem_cons] at h
      obtain ⟨lookups, calls, looked⟩ := ih h.2
      cases h.1 with
      | event e => exact ⟨lookups, calls, looked⟩
      | get key reply =>
          exact ⟨.get key reply :: lookups, congrArg (List.cons _) calls,
            List.forall_mem_cons.2 ⟨.inl rfl, looked⟩⟩
      | scan start reply =>
          exact ⟨.scan start reply :: lookups, congrArg (List.cons _) calls,
            List.forall_mem_cons.2 ⟨.inr rfl, looked⟩⟩

theorem orderly_lookups (h : ∀ note ∈ notes, note.IsLookup) : Orderly notes := by
  obtain ⟨lookups, calls, looked⟩ := calls_lookups h
  exact ⟨lookups, none, none, by simpa using calls, looked⟩

theorem Orderly.after (h : Orderly notes') (before : ∀ note ∈ notes, note.IsLookup) :
    Orderly (notes ++ notes') := by
  obtain ⟨lookups, calls, looked⟩ := calls_lookups before
  obtain ⟨lookups', count?, errand?, calls', looked'⟩ := h
  refine ⟨lookups ++ lookups', count?, errand?, ?_, List.forall_mem_append.2 ⟨looked, looked'⟩⟩
  rw [calls_append, calls, calls', List.map_append]
  simp only [List.append_assoc]

theorem Orderly.calling (h : Orderly notes) (silent : notes.filterMap errand? = []) (errand : Errand I)
    (events : ∀ note ∈ notes', ∃ e, note = .event e) : Orderly (notes ++ .called errand :: notes') := by
  obtain ⟨lookups, count?, errand?, calls', looked⟩ := h
  have none_yet : errand? = none := by
    cases errand? with
    | none => rfl
    | some earlier =>
        have member : .called earlier ∈ calls notes := by
          rw [calls']
          exact List.mem_append_right _ List.mem_cons_self
        have := List.filterMap_eq_nil_iff.1 silent _ (List.mem_of_mem_filter member)
        cases this
  subst none_yet
  refine ⟨lookups, count?, some errand, ?_, looked⟩
  have called : calls (.called errand :: notes') = [.called errand] :=
    congrArg (List.cons _) (calls_events events)
  rw [calls_append, called, calls']
  simp

theorem orderly_nil : Orderly ([] : List (Note I)) :=
  ⟨[], none, none, rfl, List.forall_mem_nil _⟩

theorem orderly_errand (errand : Errand I) (events : ∀ note ∈ notes, ∃ e, note = .event e) :
    Orderly (.called errand :: notes) :=
  orderly_nil.calling rfl errand events

end Note

namespace Policy

open Act Lookup Note

variable [Entity E I] {p : Policy ρ E} {w : World ρ}

theorem orderly_accept (counter? : Option (Call ρ Nat)) (es : List E) (w : World ρ) :
    Orderly ((accept counter? es : Act ρ I _).run w).notes := by
  cases counter? with
  | none => exact orderly_lookups (List.forall_mem_singleton.2 (.event _))
  | some counter =>
      rw [accept, Step.run_bind, run_count]
      cases reply : (counter w.keeper).1 with
      | error error => exact ⟨[], some (.error error), none, rfl, List.forall_mem_nil _⟩
      | ok total =>
          dsimp only
          split <;> exact ⟨[], some (.ok total), none, rfl, List.forall_mem_nil _⟩

theorem orderly_readCached (p : Policy ρ E) (ids : List I) (w : World ρ) :
    Orderly ((p.readCached ids).run w).notes := by
  rw [readCached]
  split
  · rw [readAll]
    split
    · exact orderly_nil
    · rw [Step.run_bind]
      refine Orderly.after ?_ (p.looksUp_readSource.lookups w)
      split
      · exact orderly_lookups (p.looksUp_readMarker.lookups _)
      · exact orderly_accept _ _ _
  · exact orderly_lookups ((looksUp_readMany ids).lookups w)

theorem orderly_get (p : Policy ρ E) (id : I) (fetch : I → Call ρ (Option E)) (w : World ρ) :
    Orderly ((p.get id fetch).run w).notes := by
  cases keyed : Key.item E id with
  | error error =>
      rw [get_of_invalid p keyed]
      exact orderly_nil
  | ok key =>
      rw [get_eq keyed, Step.run_bind]
      refine Orderly.after ?_ ((looksUp_one key).lookups w)
      cases ((one key : Act ρ I (Option E)).run w).value with
      | some e => exact orderly_lookups (List.forall_mem_singleton.2 (.event _))
      | none =>
          rw [serve, Step.run_bind, run_report]
          refine Orderly.after ?_ (List.forall_mem_singleton.2 (.event _))
          exact orderly_errand _ ((p.reports_keepFetched key _).events _)

theorem orderly_getMany (p : Policy ρ E) (ids : List I) (fetch : List I → Call ρ (List (Option E)))
    (w : World ρ) : Orderly ((p.getMany ids fetch).run w).notes := by
  match cached : ((p.readCached ids).run w).value with
  | .error error =>
      rw [getMany_of_error cached]
      exact p.orderly_readCached ids w
  | .ok (some entities) =>
      rw [getMany_of_hit cached]
      exact p.orderly_readCached ids w
  | .ok none =>
      rw [getMany_eq, Step.run_bind, cached]
      exact (p.orderly_readCached ids w).calling (p.errands_readCached ids w) _
        ((p.reports_keepMany ids _).events _)

theorem orderly_contains (id : I) (fetch : I → Call ρ Bool) (w : World ρ) :
    Orderly ((contains E id fetch).run w).notes := by
  cases keyed : Key.item E id with
  | error error =>
      rw [contains, keyed]
      exact orderly_nil
  | ok key =>
      rw [contains_eq keyed, Step.run_bind]
      refine Orderly.after ?_ ((looksUp_one key).lookups w)
      cases ((one key : Act ρ I (Option E)).run w).value with
      | some e => exact orderly_nil
      | none => exact orderly_errand _ (List.forall_mem_nil _)

end Policy

open Act Note Policy

variable [Entity E I]

theorem Operation.orderly_defer (p : Policy ρ E) (operation : Operation ρ E I) (w : World ρ) :
    Orderly ((operation.defer p).run w).notes := by
  cases operation with
  | get id fetch => exact orderly_get p id fetch w
  | getMany ids fetch => exact orderly_getMany p ids fetch w
  | getCached id =>
      exact orderly_lookups (((looksUp_getCached id).bind fun _ => looksUp_pure _).lookups w)
  | contains id fetch =>
      rw [defer, Step.run_bind]
      exact (List.append_nil _).symm ▸ orderly_contains id fetch w
  | save e persist =>
      rw [defer, save_eq, Step.run_bind, run_call]
      exact orderly_errand _ ((p.reports_keepSaved e _).events _)
  | remove e persist =>
      rw [defer]
      cases keyed : Key.item E (Entity.id e) with
      | error error =>
          rw [remove_of_invalid p keyed]
          exact orderly_nil
      | ok key =>
          rw [remove_of_key p keyed]
          exact orderly_errand _ (List.forall_mem_nil _)

theorem Deferred.run_commit {α : Type} {d : Deferred E α} {w w' : World ρ} {notes : List (Note I)}
    (discharged : Step.run (ExceptT.run (d.outbox.discharge : Effect ρ I Unit)) w = ⟨.ok (), w', notes⟩) :
    Step.run (ExceptT.run (d.commit : Effect ρ I _)) w = ⟨.ok d.result, w', notes⟩ := by
  rw [commit, ExceptT.run_bind, Step.run_bind, discharged]
  exact congrArg (Outcome.mk _ _) (List.append_nil notes)

theorem Deferred.of_run_commit {α : Type} {d : Deferred E α} {w w' : World ρ} {notes : List (Note I)}
    {result : Except PolicyError α}
    (committed : Step.run (ExceptT.run (d.commit : Effect ρ I _)) w = ⟨.ok result, w', notes⟩) :
    result = d.result ∧
      Step.run (ExceptT.run (d.outbox.discharge : Effect ρ I Unit)) w = ⟨.ok (), w', notes⟩ := by
  rw [commit, ExceptT.run_bind, Step.run_bind] at committed
  rcases run : Step.run (ExceptT.run (d.outbox.discharge : Effect ρ I Unit)) w with ⟨done, after, notes'⟩
  rw [run] at committed
  cases done with
  | error overflow => cases committed
  | ok _ =>
      cases committed
      exact ⟨rfl, congrArg (Outcome.mk _ _) (List.append_nil notes').symm⟩

variable {p : Policy ρ E} {s : Session ρ E}

theorem Move.touched_step (move : Move ρ E I) (spares : ∀ n, move ≠ .discharge n) :
    let memory := ((move.step p).run s).state.world.link.memory
    Store.Touched s.world.link.memory.now s.world.link.memory.store memory.store ∧
      s.world.link.memory.now ≤ memory.now := by
  cases move with
  | call operation =>
      have reads := (operation.spares_outbox p).link s.world
      exact ⟨reads.touched, Nat.le_of_eq reads.now.symm⟩
  | discharge n => exact absurd rfl (spares n)
  | drop n => exact ⟨.refl _, Nat.le_refl _⟩
  | wait span => exact ⟨.refl _, Nat.le_add_right _ _⟩
  | alter change => exact ⟨.refl _, Nat.le_refl _⟩

theorem Session.kept_play (wf : s.world.link.memory.store.WellFormed) {moves : List (Move ρ E I)}
    (spare : ∀ n, .discharge n ∉ moves) :
    let memory := ((play p moves).run s).state.world.link.memory
    s.world.link.memory.now ≤ memory.now ∧ ∀ x : Entry, x.isExpired memory.now = false →
      (x ∈ memory.store.entries ↔ x ∈ s.world.link.memory.store.entries) := by
  induction moves generalizing s with
  | nil => exact ⟨Nat.le_refl _, fun _ _ => .rfl⟩
  | cons move moves ih =>
      obtain ⟨touched, sooner⟩ := move.touched_step (p := p) (s := s) fun n same =>
        spare n (same ▸ List.mem_cons_self)
      obtain ⟨later, kept⟩ := ih (touched.wellFormed wf) fun n member =>
        spare n (List.mem_cons_of_mem _ member)
      refine ⟨Nat.le_trans sooner later, fun x live => (kept x live).trans ⟨touched.mem, ?_⟩⟩
      intro stored
      exact touched.mem_of_live wf stored (Entry.isExpired_of_le (Nat.le_trans sooner later) live)

/-- Nothing is written before a discharge, and a discharge writes what is scheduled. -/
theorem writes_deferred (p : Policy ρ E) :
    (∀ (operation : Operation ρ E I) (w : World ρ),
      let deferred := ((operation.defer p).run w).value
      Note.Orderly ((operation.defer p).run w).notes ∧
        ∀ (w' : World ρ) (deadline : Option Nat),
          w'.link.memory.deadline p.options.ttl = .ok deadline →
          let discharged := Step.run (ExceptT.run (deferred.outbox.discharge : Effect ρ I Unit)) w'
          discharged.value = .ok () ∧
            (∃ events parts, discharged.notes = events ++ parts.flatten ∧
              (∀ note ∈ events, ∃ e, note = .event e) ∧
              List.Forall₂ (Change.Trace p.options.ttl) deferred.outbox.changes parts) ∧
            Step.run (ExceptT.run (deferred.commit : Effect ρ I _)) w' =
              ⟨.ok deferred.result, discharged.state, discharged.notes⟩) ∧
      ∀ (s : Session ρ E) (moves : List (Move ρ E I)), s.world.link.memory.store.WellFormed →
        (∀ n, .discharge n ∉ moves) →
        let memory := ((Session.play p moves).run s).state.world.link.memory
        ∀ x : Entry, x.isExpired memory.now = false →
          (x ∈ memory.store.entries ↔ x ∈ s.world.link.memory.store.entries) := by
  refine ⟨fun operation w => ?_, fun s moves wf spare => (Session.kept_play wf spare).2⟩
  intro deferred
  refine ⟨operation.orderly_defer p w, fun w' deadline fits => ?_⟩
  obtain ⟨after, events, notes, run, reports, applied⟩ := Outbox.applied_discharge (I := I) fits
    (operation.answers_defer p w).lifetime
  obtain ⟨parts, rfl, traces⟩ := applied.traces
  intro discharged
  have done : discharged = ⟨.ok (), after, events ++ parts.flatten⟩ := run
  rw [done]
  exact ⟨rfl, ⟨events, parts, rfl, reports, traces⟩, Deferred.run_commit run⟩

theorem member_write_deferred :
    let p : Policy Unit Member := .new ⟨false, true, some 5000000000⟩
    let operation : Operation Unit Member Int32 := .save ⟨0, "ada"⟩ fun k => (.ok ⟨7, "ada"⟩, k)
    let memory : Memory := ⟨⟨2, [⟨"uRepo_Member_", Marker.bytes, some 4000000000⟩]⟩, 1000000000⟩
    let w : World Unit := ⟨⟨memory, .ofRules [⟨.set, none, .connectionFailed "down"⟩], 0⟩, ()⟩
    let moves : List (Move Unit Member Int32) := [.call operation, .wait 3000000000, .drop 0]
    let deferred := ((operation.defer p).run w).value
    let after := ((Session.play p moves).run ⟨w, []⟩).state.world.link.memory
    w.link.memory.deadline p.options.ttl = .ok (some 6000000000) ∧
      deferred.outbox.changes = [.store "uRepo_Member_7" ⟨7, "ada"⟩, .clear "uRepo_Member_"] ∧
      (∃ events parts,
        (Step.run (ExceptT.run (deferred.outbox.discharge : Effect Unit Int32 Unit)) w).notes =
            events ++ parts.flatten ∧
          (∀ note ∈ events, ∃ e, note = .event e) ∧
          List.Forall₂ (Change.Trace p.options.ttl) deferred.outbox.changes parts) ∧
      memory.store.WellFormed ∧ (∀ n, .discharge n ∉ moves) ∧ after.now = 4000000000 ∧
      ∀ x : Entry, x.isExpired after.now = false →
        (x ∈ after.store.entries ↔ x ∈ memory.store.entries) := by
  intro p operation memory w moves deferred after
  have fits : w.link.memory.deadline p.options.ttl = .ok (some 6000000000) := by
    dsimp only [w, memory, p]
    cbv
  have changes : deferred.outbox.changes =
      [.store "uRepo_Member_7" ⟨7, "ada"⟩, .clear "uRepo_Member_"] := by
    dsimp only [deferred, operation, w, memory, p]
    cbv
  have wf : memory.store.WellFormed := ⟨by simp [memory], by simp [memory]⟩
  have spare : ∀ n, .discharge n ∉ moves := by simp [moves]
  have now : after.now = 4000000000 := by
    dsimp only [after, moves, operation, w, memory, p]
    cbv
  have deferring := writes_deferred (I := Int32) p
  exact ⟨fits, changes, ((deferring.1 operation w).2 w _ fits).2.1, wf, spare, now,
    deferring.2 ⟨w, []⟩ moves wf spare⟩

end Lookaside
