import Lookaside.Proofs.Writing

namespace Lookaside

variable {ρ E I : Type}

def Cache.Exchange.error? : Exchange → Option CacheError
  | get _ (.error error) => some error
  | set _ _ _ (.error error) => some error
  | delete _ (.error error) => some error
  | scan _ (.error error) => some error
  | _ => none

variable [Entity E I]

/-! ## One change -/

structure World.Stored (w : World ρ) (store : Store) (w' : World ρ) : Prop where
  keeper : w'.keeper = w.keeper
  faults : w'.link.faults = w.link.faults
  memory : w'.link.memory = { w.link.memory with store := store }

theorem World.Stored.trans {w w' w'' : World ρ} {store store' : Store} (h : w.Stored store w')
    (h' : w'.Stored store' w'') : w.Stored store' w'' where
  keeper := h'.keeper.trans h.keeper
  faults := h'.faults.trans h.faults
  memory := by rw [h'.memory, h.memory]

theorem World.stored_self (w : World ρ) : w.Stored w.link.memory.store w := ⟨rfl, rfl, rfl⟩

namespace Change

def make (deadline : Option Nat) (s : Store) : Change E → Store
  | .store key e =>
    match Entity.encode e with
    | .ok value => s.push ⟨key, value, deadline⟩
    | .error _ => s
  | .mark key => s.push ⟨key, Marker.bytes, deadline⟩
  | .clear key => s.erase key

def request? (ttl : Option Span) : Change E → Option Cache.Request
  | store key e => (Entity.encode e).toOption.map fun value => .set key value ttl
  | mark key => some (.set key Marker.bytes ttl)
  | clear key => some (.delete key)

def isRefused (l : Cache.Link) (ttl : Option Span) (change : Change E) : Bool :=
  (change.request? ttl).any fun r => (l.fault? r).isSome

def failed : Change E → CacheError → Log.Event
  | store key _ => .storeFailed key
  | mark key => .markFailed key
  | clear key => .clearFailed key

/-- The notes that a change leaves: what it asked for, with a report if that was refused, or the report
that its entity has no stored form. -/
inductive Trace (ttl : Option Span) : Change E → List (Note I) → Prop where
  | done {change : Change E} {x : Cache.Exchange} (asked : change.request? ttl = some x.request)
    (granted : x.error? = none) : Trace ttl change [.exchange x]
  | refused {change : Change E} {x : Cache.Exchange} {error : CacheError}
    (asked : change.request? ttl = some x.request) (refused : x.error? = some error) :
    Trace ttl change [.exchange x, .event (change.failed error)]
  | unencodable {key : String} {e : E} {reason : String} (h : Entity.encode e = .error reason) :
    Trace ttl (.store key e) [.event (.unencodable key (.encodingFailed reason))]

structure Applied (ttl : Option Span) (deadline : Option Nat) (change : Change E) (w w' : World ρ)
    (notes : List (Note I)) : Prop where
  stored : w.Stored (if change.isRefused w.link ttl then w.link.memory.store
    else change.make deadline w.link.memory.store) w'
  trace : change.Trace ttl notes

end Change

namespace Store.WellFormed

variable {s : Store} {deadline : Option Nat}

theorem make (wf : s.WellFormed) (change : Change E) : (change.make deadline s).WellFormed := by
  cases change with
  | store key e =>
      rw [Change.make]
      split
      · exact wf.push _
      · exact wf
  | mark key => exact wf.push _
  | clear key => exact wf.erase key

theorem foldl_make (wf : s.WellFormed) (changes : List (Change E)) :
    (changes.foldl (Change.make deadline) s).WellFormed := by
  induction changes generalizing s with
  | nil => exact wf
  | cons change changes ih => exact ih (wf.make change)

end Store.WellFormed

def Cache.Link.afterSet (l : Link) (key : String) (value : Bytes) (ttl : Option Span)
    (deadline : Option Nat) : Link :=
  l.after { l.memory with
    store := if (l.fault? (.set key value ttl)).isSome then l.memory.store
      else l.memory.store.push ⟨key, value, deadline⟩ }

theorem Cache.Link.set_fits {l : Link} {ttl : Option Span} {deadline : Option Nat}
    (fits : l.memory.deadline ttl = .ok deadline) (key : String) (value : Bytes) :
    ∃ reply, l.set key value ttl = (.ok reply, l.afterSet key value ttl deadline) := by
  rw [set, afterSet]
  cases l.fault? (.set key value ttl) with
  | some e => exact ⟨_, rfl⟩
  | none =>
      rw [Memory.set, fits]
      exact ⟨_, rfl⟩

def Memory.deadline? (m : Memory) (ttl : Option Span) : Option Nat :=
  (m.deadline ttl).toOption.join

theorem Cache.Link.set_done {l : Link} {key : String} {value : Bytes} {ttl : Option Span}
    {reply : Except CacheError Unit} (done : (l.set key value ttl).1 = .ok reply) :
    l.set key value ttl = (.ok reply, l.afterSet key value ttl (l.memory.deadline? ttl)) := by
  rw [afterSet, Memory.deadline?]
  rw [set] at done ⊢
  cases fault : l.fault? (.set key value ttl) with
  | some e =>
      rw [fault] at done
      cases done
      rfl
  | none =>
      rw [fault, Memory.set] at done
      rw [Memory.set]
      cases fits : l.memory.deadline ttl with
      | error overflow =>
          rw [fits] at done
          cases done
      | ok deadline =>
          rw [fits] at done
          cases done
          rfl

theorem Cache.Link.delete_eq (l : Link) (key : String) :
    ∃ reply, l.delete key = (reply, l.after { l.memory with
      store := if (l.fault? (.delete key)).isSome then l.memory.store
        else l.memory.store.erase key }) := by
  rw [delete]
  cases l.fault? (.delete key) <;> exact ⟨_, rfl⟩

section

open Act

variable {ttl : Option Span} {deadline : Option Nat} {w : World ρ}

theorem Change.trace_reportFailure {change : Change E} {α : Type} {x : Cache.Exchange}
    {reply : Except CacheError α} (asked : change.request? ttl = some x.request)
    (granted : ∀ a, reply = .ok a → x.error? = none)
    (refused : ∀ error, reply = .error error → x.error? = some error) (w : World ρ) :
    change.Trace ttl (.exchange x :: ((reportFailure change.failed reply : Act ρ I Unit).run w).notes) := by
  cases reply with
  | error error => exact .refused asked (refused error rfl)
  | ok a => exact .done asked (granted a rfl)

theorem Change.applied_set (change : Change E) {key : String} {value : Bytes}
    {reply : Except CacheError Unit}
    (set : w.link.set key value ttl = (.ok reply, w.link.afterSet key value ttl deadline))
    (asked : change.request? ttl = some (.set key value ttl))
    (made : change.make deadline w.link.memory.store = w.link.memory.store.push ⟨key, value, deadline⟩) :
    ∃ w' notes, Step.run (ExceptT.run (do
        let reply ← Act.set key value ttl
        Effect.lift (reportFailure change.failed reply) : Effect ρ I Unit)) w = ⟨.ok (), w', notes⟩ ∧
      change.Applied ttl deadline w w' notes := by
  have reports := reports_reportFailure (ρ := ρ) (I := I) change.failed reply
  rw [ExceptT.run_bind, Step.run_bind, run_set, set]
  dsimp only
  rw [Effect.run_lift, reports.value, reports.state]
  refine ⟨_, _, rfl, ⟨rfl, rfl, ?_⟩, trace_reportFailure asked ?_ ?_ _⟩
  · rw [isRefused, asked, made]
    rfl
  · rintro _ rfl
    rfl
  · rintro _ rfl
    rfl

theorem Change.applied_of_replies (change : Change E)
    (replies : ∀ key value, change.request? ttl = some (.set key value ttl) →
      ∃ reply, w.link.set key value ttl = (.ok reply, w.link.afterSet key value ttl deadline)) :
    ∃ w' notes, Step.run (ExceptT.run (change.apply ttl : Effect ρ I Unit)) w = ⟨.ok (), w', notes⟩ ∧
      change.Applied ttl deadline w w' notes := by
  cases change with
  | store key e =>
      rw [apply]
      cases encoded : Entity.encode e with
      | ok value =>
          have asked : (store key e).request? ttl = some (.set key value ttl) := by
            rw [request?, encoded]
            rfl
          obtain ⟨reply, set⟩ := replies key value asked
          exact (store key e).applied_set set asked (by rw [make, encoded])
      | error reason =>
          -- nothing is asked of the cache, so no change is refused either
          refine ⟨_, _, rfl, ⟨rfl, rfl, ?_⟩, .unencodable encoded⟩
          rw [isRefused, request?, make, encoded]
          rfl
  | mark key =>
      obtain ⟨reply, set⟩ := replies key Marker.bytes rfl
      exact (mark key).applied_set set rfl rfl
  | clear key =>
      obtain ⟨reply, delete⟩ := w.link.delete_eq key
      have reports := reports_reportFailure (ρ := ρ) (I := I) (.clearFailed key) reply
      rw [apply, Effect.run_lift, Step.run_bind, run_delete, delete]
      dsimp only
      rw [reports.value, reports.state]
      refine ⟨_, _, rfl, ⟨rfl, rfl, rfl⟩, trace_reportFailure rfl ?_ ?_ _⟩
      · rintro _ rfl
        rfl
      · rintro _ rfl
        rfl

theorem Change.applied_apply (fits : w.link.memory.deadline ttl = .ok deadline) (change : Change E) :
    ∃ w' notes, Step.run (ExceptT.run (change.apply ttl : Effect ρ I Unit)) w = ⟨.ok (), w', notes⟩ ∧
      change.Applied ttl deadline w w' notes :=
  change.applied_of_replies fun key value _ => Cache.Link.set_fits fits key value

section

variable {w' : World ρ} {notes : List (Note I)}

theorem Act.reply_of_done {α : Type} {key : String} {value : Bytes}
    {f : Except CacheError Unit → Effect ρ I α} {a : α}
    (done : Step.run (ExceptT.run (Act.set key value ttl >>= f)) w = ⟨.ok a, w', notes⟩) :
    ∃ reply, (w.link.set key value ttl).1 = .ok reply := by
  cases replied : (w.link.set key value ttl).1 with
  | ok reply => exact ⟨reply, rfl⟩
  | error overflow =>
      rw [ExceptT.run_bind, Step.run_bind, run_set, replied] at done
      cases done

theorem Change.reply_of_done {change : Change E} {key : String} {value : Bytes}
    (done : Step.run (ExceptT.run (change.apply ttl : Effect ρ I Unit)) w = ⟨.ok (), w', notes⟩)
    (asked : change.request? ttl = some (.set key value ttl)) :
    ∃ reply, (w.link.set key value ttl).1 = .ok reply := by
  cases change with
  | store _ e =>
      rw [request?] at asked
      cases encoded : Entity.encode e with
      | error reason =>
          rw [encoded] at asked
          cases asked
      | ok value =>
          rw [encoded] at asked
          cases asked
          rw [apply, encoded] at done
          exact Act.reply_of_done done
  | mark _ =>
      cases asked
      exact Act.reply_of_done done
  | clear _ => cases asked

theorem Change.applied_of_done {change : Change E}
    (done : Step.run (ExceptT.run (change.apply ttl : Effect ρ I Unit)) w = ⟨.ok (), w', notes⟩) :
    change.Applied ttl (w.link.memory.deadline? ttl) w w' notes := by
  have replies (key : String) (value : Bytes) (asked : change.request? ttl = some (.set key value ttl)) :=
    (change.reply_of_done done asked).imp fun _ replied => Cache.Link.set_done replied
  obtain ⟨_, _, run, applied⟩ := change.applied_of_replies (I := I) replies
  cases run.symm.trans done
  exact applied

end

/-! ## All changes of a batch -/

inductive Batch.Applied (ttl : Option Span) (deadline : Option Nat) :
    List (Change E) → World ρ → World ρ → List (Note I) → Prop where
  | nil (w : World ρ) : Applied ttl deadline [] w w []
  | cons {change : Change E} {changes : List (Change E)} {w w' w'' : World ρ}
    {notes notes' : List (Note I)} : change.Applied ttl deadline w w' notes →
    Applied ttl deadline changes w' w'' notes' →
    Applied ttl deadline (change :: changes) w w'' (notes ++ notes')

theorem Batch.applied_applyAll (fits : w.link.memory.deadline ttl = .ok deadline)
    (changes : List (Change E)) :
    ∃ w' notes, Step.run (ExceptT.run (applyAll ttl changes : Effect ρ I Unit)) w = ⟨.ok (), w', notes⟩ ∧
      Applied ttl deadline changes w w' notes := by
  induction changes generalizing w with
  | nil => exact ⟨w, [], rfl, .nil w⟩
  | cons change changes ih =>
      obtain ⟨w', notes, run, applied⟩ := change.applied_apply (I := I) fits
      obtain ⟨w'', notes', run', applied'⟩ := ih (w := w') (by rw [applied.stored.memory]; exact fits)
      refine ⟨w'', notes ++ notes', ?_, .cons applied applied'⟩
      rw [applyAll, ExceptT.run_bind, Step.run_bind, run]
      dsimp only
      rw [run']

/-- What has been applied to the end has made every change that was not refused, whether or not the clock
can represent the deadline. -/
theorem Batch.applied_of_done {changes : List (Change E)} {w' : World ρ} {notes : List (Note I)}
    (done : Step.run (ExceptT.run (applyAll ttl changes : Effect ρ I Unit)) w = ⟨.ok (), w', notes⟩) :
    Applied ttl (w.link.memory.deadline? ttl) changes w w' notes := by
  induction changes generalizing w notes with
  | nil =>
      cases done
      exact .nil _
  | cons change changes ih =>
      rw [applyAll, ExceptT.run_bind, Step.run_bind] at done
      rcases run : Step.run (ExceptT.run (change.apply ttl : Effect ρ I Unit)) w with ⟨value, between, first⟩
      rw [run] at done
      cases value with
      | error overflow => cases done
      | ok _ =>
          have applied := Change.applied_of_done run
          -- the clock stands still, so all changes have the deadline of the first one
          have same : between.link.memory.deadline? ttl = w.link.memory.deadline? ttl := by
            rw [applied.stored.memory]
            rfl
          dsimp only at done
          rcases rest : Step.run (ExceptT.run (applyAll ttl changes : Effect ρ I Unit)) between with ⟨_, _, _⟩
          rw [rest] at done
          cases done
          exact .cons applied (same ▸ ih rest)

namespace Batch.Applied

variable {changes : List (Change E)} {w' : World ρ} {notes : List (Note I)}

theorem traces (h : Applied ttl deadline changes w w' notes) :
    ∃ parts, notes = parts.flatten ∧ List.Forall₂ (Change.Trace ttl) changes parts := by
  induction h with
  | nil => exact ⟨[], rfl, .nil⟩
  | cons applied _ ih =>
      obtain ⟨parts, rfl, traces⟩ := ih
      exact ⟨_ :: parts, rfl, .cons applied.trace traces⟩

end Batch.Applied

theorem Outbox.run_discharge {batch : Batch E} (fits : w.link.memory.deadline batch.ttl = .ok deadline) :
    ∃ after notes, Step.run (ExceptT.run (Batch.applyAll batch.ttl batch.changes : Effect ρ I Unit)) w =
        ⟨.ok (), after, notes⟩ ∧ Batch.Applied batch.ttl deadline batch.changes w after notes ∧
      Step.run (ExceptT.run (discharge ⟨some batch⟩ : Effect ρ I Unit)) w =
        ⟨.ok (), after, .event (.discharging batch.changes.length) :: notes⟩ := by
  obtain ⟨after, notes, run, applied⟩ := Batch.applied_applyAll (I := I) fits batch.changes
  refine ⟨after, notes, run, applied, ?_⟩
  rw [discharge, ExceptT.run_bind, Step.run_bind, Effect.run_lift, Act.run_report]
  dsimp only
  rw [Batch.apply, run]
  rfl

theorem Outbox.applied_discharge (fits : w.link.memory.deadline ttl = .ok deadline) {outbox : Outbox E}
    (lifetime : ∀ batch, outbox.batch? = some batch → batch.ttl = ttl) :
    ∃ w' events notes, Step.run (ExceptT.run (outbox.discharge : Effect ρ I Unit)) w =
        ⟨.ok (), w', events ++ notes⟩ ∧ (∀ note ∈ events, ∃ e, note = .event e) ∧
      Batch.Applied ttl deadline outbox.changes w w' notes := by
  obtain ⟨batch?⟩ := outbox
  cases batch? with
  | none => exact ⟨w, [], [], rfl, List.forall_mem_nil _, .nil w⟩
  | some batch =>
      cases lifetime batch rfl
      obtain ⟨w', notes, -, applied, run⟩ := run_discharge (I := I) fits
      exact ⟨w', [_], notes, run, List.forall_mem_singleton.2 ⟨_, rfl⟩, applied⟩

theorem Outbox.applied_of_done {outbox : Outbox E} {w' : World ρ} {notes : List (Note I)}
    (lifetime : ∀ batch, outbox.batch? = some batch → batch.ttl = ttl)
    (done : Step.run (ExceptT.run (outbox.discharge : Effect ρ I Unit)) w = ⟨.ok (), w', notes⟩) :
    ∃ notes' : List (Note I),
      Batch.Applied ttl (w.link.memory.deadline? ttl) outbox.changes w w' notes' := by
  rw [discharge] at done
  rw [changes]
  cases held : outbox.batch? with
  | none =>
      rw [held] at done
      cases done
      exact ⟨[], .nil _⟩
  | some batch =>
      rw [held] at done
      dsimp only at done
      rw [ExceptT.run_bind, Step.run_bind, Effect.run_lift, run_report] at done
      dsimp only at done
      rw [Batch.apply, lifetime batch held] at done
      rcases run : Step.run (ExceptT.run (Batch.applyAll ttl batch.changes : Effect ρ I Unit)) w with
        ⟨_, _, notes'⟩
      rw [run] at done
      cases done
      exact ⟨notes', Batch.applied_of_done run⟩

/-! ## Changes that nothing prevents -/

def Cache.Faults.SpareWrites (faults : Cache.Faults) : Prop :=
  ∀ n r, r.method = .set ∨ r.method = .delete → faults n r = none

theorem Cache.Faults.never_spareWrites : never.SpareWrites := fun _ _ _ => rfl

theorem Change.writes_of_asked {change : Change E} {r : Cache.Request} (asked : change.request? ttl = some r) :
    r.method = .set ∨ r.method = .delete := by
  cases change with
  | store key e =>
      obtain ⟨value, -, rfl⟩ := Option.map_eq_some_iff.1 asked
      exact .inl rfl
  | mark key =>
      cases asked
      exact .inl rfl
  | clear key =>
      cases asked
      exact .inr rfl

theorem Change.not_isRefused {l : Cache.Link} (spared : l.faults.SpareWrites) (ttl : Option Span)
    (change : Change E) : change.isRefused l ttl = false := by
  cases requested : change.request? ttl with
  | none => rw [isRefused, requested]; rfl
  | some r =>
      rw [isRefused, requested, Option.any_some, Cache.Link.fault?, spared _ r (writes_of_asked requested)]
      rfl

theorem Batch.Applied.stored {changes : List (Change E)} {w' : World ρ} {notes : List (Note I)}
    (h : Batch.Applied ttl deadline changes w w' notes) (spared : w.link.faults.SpareWrites) :
    w.Stored (changes.foldl (Change.make deadline) w.link.memory.store) w' := by
  induction h with
  | nil w => exact w.stored_self
  | @cons change changes w w' w'' notes notes' applied _ ih =>
      have stored := applied.stored
      rw [change.not_isRefused spared, if_neg Bool.false_ne_true] at stored
      have later := ih (stored.faults ▸ spared)
      rw [stored.memory] at later
      exact stored.trans later

theorem Outbox.discharge_done (spared : w.link.faults.SpareWrites)
    (fits : w.link.memory.deadline ttl = .ok deadline) {outbox : Outbox E}
    (lifetime : ∀ batch, outbox.batch? = some batch → batch.ttl = ttl) :
    (Step.run (ExceptT.run (outbox.discharge : Effect ρ I Unit)) w).value = .ok () ∧
      w.Stored (outbox.changes.foldl (Change.make deadline) w.link.memory.store)
        (Step.run (ExceptT.run (outbox.discharge : Effect ρ I Unit)) w).state := by
  obtain ⟨w', events, notes, run, -, applied⟩ := applied_discharge (I := I) fits lifetime
  rw [run]
  exact ⟨rfl, applied.stored spared⟩

/-! ## What is left in the store -/

def Change.fills? : Change E → Option String
  | store key _ => some key
  | mark key => some key
  | clear _ => none

theorem Change.mem_make {deadline : Option Nat} {change : Change E} {s : Store} {x : Entry}
    (h : x ∈ (change.make deadline s).entries) : change.fills? = some x.key ∨ x ∈ s.entries := by
  cases change with
  | store key e =>
      rw [make] at h
      split at h
      · rcases Store.mem_push h with rfl | ⟨old, -⟩
        · exact .inl rfl
        · exact .inr old
      · exact .inr h
  | mark key =>
      rcases Store.mem_push h with rfl | ⟨old, -⟩
      · exact .inl rfl
      · exact .inr old
  | clear key => exact .inr (Store.mem_erase.1 h).1

def Cache.Faults.SpareDeletes (faults : Cache.Faults) : Prop :=
  ∀ n key, faults n (.delete key) = none

variable {w' : World ρ} {notes : List (Note I)}

theorem Change.Applied.mem {change : Change E} (h : change.Applied ttl deadline w w' notes) {x : Entry}
    (member : x ∈ w'.link.memory.store.entries) :
    change.fills? = some x.key ∨ x ∈ w.link.memory.store.entries := by
  rw [h.stored.memory] at member
  dsimp only at member
  split at member
  · exact .inr member
  · exact mem_make member

namespace Batch.Applied

variable {changes : List (Change E)}

theorem steady (h : Applied ttl deadline changes w w' notes) :
    w'.link.faults = w.link.faults ∧ w'.link.memory.now = w.link.memory.now := by
  induction h with
  | nil => exact ⟨rfl, rfl⟩
  | cons applied _ ih =>
      have stored := applied.stored
      exact ⟨ih.1.trans stored.faults, ih.2.trans (by rw [stored.memory])⟩

theorem mem (h : Applied ttl deadline changes w w' notes) {x : Entry}
    (member : x ∈ w'.link.memory.store.entries) :
    (∃ change ∈ changes, change.fills? = some x.key) ∨ x ∈ w.link.memory.store.entries := by
  induction h with
  | nil => exact .inr member
  | cons applied _ ih =>
      rcases ih member with ⟨change, later, fills⟩ | between
      · exact .inl ⟨change, List.mem_cons_of_mem _ later, fills⟩
      · refine (applied.mem between).imp_left fun fills => ?_
        exact ⟨_, List.mem_cons_self, fills⟩

theorem cleared {key : String} (h : Applied ttl deadline (changes ++ [.clear key]) w w' notes)
    (spared : w.link.faults.SpareDeletes) {x : Entry} (member : x ∈ w'.link.memory.store.entries) :
    x.key ≠ key := by
  induction changes generalizing w notes with
  | nil =>
      obtain _ | ⟨applied, _ | _⟩ := h
      have granted : (Change.clear key : Change E).isRefused w.link ttl = false := by
        rw [Change.isRefused, Change.request?, Option.any_some, Cache.Link.fault?, spared]
        rfl
      rw [applied.stored.memory, granted] at member
      exact (Store.mem_erase.1 member).2
  | cons change changes ih =>
      obtain _ | ⟨applied, rest⟩ := h
      exact ih rest (applied.stored.faults ▸ spared)

end Batch.Applied

end

end Lookaside
