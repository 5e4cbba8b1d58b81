import Lookaside.CachedRepository
import Lookaside.Proofs.Session

namespace Lookaside

variable {ρ E I α : Type}

def Note.milestone? (note : Note I) : Option Log.Milestone :=
  note.event?.bind Log.Event.milestone?

namespace Act

structure Steady (x : Act ρ I α) : Prop where
  milestones : ∀ w, (x.run w).notes.filterMap Note.milestone? = []
  faults : ∀ w, (x.run w).state.link.faults = w.link.faults
  capacity : ∀ w, (x.run w).state.link.memory.store.capacity = w.link.memory.store.capacity
  now : ∀ w, (x.run w).state.link.memory.now = w.link.memory.now

theorem Spares.steady {x : Act ρ I α} (spares : Spares x)
    (quiet : ∀ w, (x.run w).notes.filterMap Note.milestone? = []) : Steady x where
  milestones := quiet
  faults w := (spares.link w).faults
  capacity w := (spares.link w).touched.capacity
  now w := (spares.link w).now

theorem steady_keeper (f : Call ρ α) : Steady (keeper f : Act ρ I _) :=
  ⟨fun _ => rfl, fun _ => rfl, fun _ => rfl, fun _ => rfl⟩

theorem closed_steady : Closed (fun {α : Type} (x : Act ρ I α) => Steady x) where
  pure _ := ⟨fun _ => rfl, fun _ => rfl, fun _ => rfl, fun _ => rfl⟩
  bind hx hf := {
    milestones w := by
      rw [Step.run_bind, List.filterMap_append, hx.milestones, (hf _).milestones]
      rfl
    faults w := ((hf _).faults _).trans (hx.faults w)
    capacity w := ((hf _).capacity _).trans (hx.capacity w)
    now w := ((hf _).now _).trans (hx.now w) }
  report e quiet := (spares_report e).steady fun _ => List.filterMap_cons_none quiet
  get key := (looksUp_get key).toSpares.steady fun _ => rfl
  scan start := (looksUp_scan start).toSpares.steady fun _ => rfl
  call errand f := (spares_call errand f).steady fun _ => rfl
  count f := (spares_count f).steady fun _ => rfl

theorem steady_delete (key : String) : Steady (delete key : Act ρ I _) where
  milestones _ := rfl
  faults w := by
    rw [run_delete]
    rcases w.link.delete_leaves key with left | left <;> rw [left] <;> rfl
  capacity w := by
    rw [run_delete]
    rcases w.link.delete_leaves key with left | left <;> rw [left] <;> rfl
  now w := by
    rw [run_delete]
    rcases w.link.delete_leaves key with left | left <;> rw [left] <;> rfl

theorem steady_set (key : String) (value : Bytes) (ttl : Option Span) :
    Steady (ExceptT.run (Act.set key value ttl : Effect ρ I _)) where
  milestones w := by
    rw [run_set]
    dsimp only
    split <;> rfl
  faults w := by
    rw [run_set]
    rcases w.link.set_leaves key value ttl with left | ⟨deadline, left⟩ <;> rw [left] <;> rfl
  capacity w := by
    rw [run_set]
    rcases w.link.set_leaves key value ttl with left | ⟨deadline, left⟩ <;> rw [left] <;> rfl
  now w := by
    rw [run_set]
    rcases w.link.set_leaves key value ttl with left | ⟨deadline, left⟩ <;> rw [left] <;> rfl

end Act

theorem Outbox.steady_discharge [Entity E I] (outbox : Outbox E) :
    Act.Steady (ExceptT.run (outbox.discharge : Effect ρ I Unit)) :=
  Outbox.closed_discharge Act.closed_steady (fun _ _ => Act.steady_delete _) fun change _ ttl =>
    change.within_key fun value => Act.steady_set change.key value ttl

namespace CachedRepository

open Act

variable [Entity E I] (c : CachedRepository ρ E I)

theorem steady_settle {operation : Act ρ I (Deferred E α)} (h : Steady operation) :
    Steady (ExceptT.run (settle operation)) :=
  closed_steady.andThen (closed_steady.lift h) fun _ =>
    closed_steady.andThen (closed_steady.andThen
      (Outbox.steady_discharge _) fun _ => closed_steady.pure _) fun _ => closed_steady.pure _

theorem steady_get (id : I) : Steady (ExceptT.run (c.get id)) :=
  steady_settle (c.policy.closed_get (closed_steady.policy E) id _)

theorem steady_getMany (ids : List I) : Steady (ExceptT.run (c.getMany ids)) :=
  steady_settle (c.policy.closed_getMany closed_steady ids _)

theorem steady_contains (id : I) : Steady (ExceptT.run (c.contains id)) :=
  closed_steady.lift (closed_steady.bind (Policy.closed_contains (closed_steady.policy E) id _) fun _ =>
    closed_steady.pure _)

theorem steady_save (e : E) : Steady (ExceptT.run (c.save e)) := by
  refine closed_steady.andThen (steady_settle (c.policy.closed_save closed_steady e _)) fun answer => ?_
  split
  · exact closed_steady.andThen (closed_steady.lift (closed_steady.report _ rfl)) fun _ =>
      closed_steady.pure _
  · exact closed_steady.pure _

theorem steady_delete (e : E) : Steady (ExceptT.run (c.delete e)) := by
  refine closed_steady.andThen (steady_settle (c.policy.closed_remove (closed_steady.policy E) e _)) fun answer => ?_
  split
  · exact closed_steady.andThen (closed_steady.lift (closed_steady.report _ rfl)) fun _ =>
      closed_steady.pure _
  · exact closed_steady.pure _

omit [Entity E I] in
theorem steady_count : Steady (ExceptT.run c.count) :=
  closed_steady.lift (steady_keeper c.repository.count)

end CachedRepository

namespace Session

variable [Entity E I] {p : Policy ρ E}

theorem faults_step (s : Session ρ E) (move : Move ρ E I) :
    ((move.step p).run s).state.world.link.faults = s.world.link.faults := by
  cases move with
  | call operation => exact (operation.closed_outbox Act.closed_steady p).faults s.world
  | discharge n =>
      cases found : s.held[n]? with
      | none => simp only [Move.step, Step.run, found]
      | some outbox =>
          simpa only [Move.step, Step.run, found] using
            (Outbox.steady_discharge (I := I) outbox).faults s.world
  | _ => rfl

theorem faults_play (s : Session ρ E) (moves : List (Move ρ E I)) :
    ((play p moves).run s).state.world.link.faults = s.world.link.faults := by
  induction moves generalizing s with
  | nil => rfl
  | cons move moves ih => exact (ih _).trans (faults_step s move)

end Session

end Lookaside
