import Lookaside.Proofs.Closure
import Lookaside.Proofs.Store
import Mathlib.Data.List.Forall2

namespace Lookaside

namespace Cache.Link

structure Reads (l l' : Link) : Prop where
  faults : l'.faults = l.faults
  now : l'.memory.now = l.memory.now
  touched : Store.Touched l.memory.now l.memory.store l'.memory.store

theorem Reads.refl (l : Link) : Reads l l := ⟨rfl, rfl, .refl _⟩

theorem Reads.trans {l l' l'' : Link} (h : Reads l l') (h' : Reads l' l'') : Reads l l'' :=
  ⟨h'.faults.trans h.faults, h'.now.trans h.now, h.touched.trans (h.now ▸ h'.touched)⟩

theorem reads_get (l : Link) (key : String) : Reads l (l.get key).2 := by
  rw [get]
  split
  · exact ⟨rfl, rfl, .refl _⟩
  · exact ⟨rfl, rfl, .touch key (.refl _)⟩

theorem reads_scan (l : Link) (start : String) : Reads l (l.scan start).2 := by
  rw [scan]
  split <;> exact ⟨rfl, rfl, .refl _⟩

def value? (l : Link) (key : String) : Option Bytes :=
  (l.get key).1.toOption.join

def values (l : Link) (start : String) : List (String × Bytes) :=
  (l.scan start).1.toOption.getD []

theorem value?_of_reached {l : Link} {key : String} (reached : l.fault? (.get key) = none) :
    l.value? key = l.memory.store.lookup? l.memory.now key := by
  rw [value?, get, reached]
  rfl

theorem value?_never {l : Link} (h : l.faults = .never) (key : String) :
    l.value? key = l.memory.store.lookup? l.memory.now key :=
  value?_of_reached (by rw [fault?, h]; rfl)

theorem values_never {l : Link} (h : l.faults = .never) (start : String) :
    l.values start = l.memory.scan start := by
  rw [values, scan, fault?, h]
  rfl

theorem value?_some {l : Link} {key : String} {value : Bytes} (h : l.value? key = some value) :
    l.memory.store.lookup? l.memory.now key = some value := by
  rw [value?, get] at h
  split at h
  · cases h
  · exact h

theorem mem_values {l : Link} {start : String} {pair : String × Bytes}
    (h : pair ∈ l.values start) : pair ∈ l.memory.scan start := by
  rw [values, scan] at h
  split at h
  · cases h
  · exact h

theorem values_distinct {l : Link} (wf : l.memory.store.WellFormed) (start : String) :
    ((l.values start).map (·.1)).Nodup := by
  rw [values, scan]
  split
  · exact List.nodup_nil
  · exact wf.scan_distinct _ _

end Cache.Link

namespace Note

variable {I : Type} {note : Note I}

def write? : Note I → Option (String × Bytes)
  | .exchange (.set key value _ (.ok ())) => some (key, value)
  | _ => none

inductive IsLookup : Note I → Prop where
  | get (key : String) (reply : Except CacheError (Option Bytes)) : IsLookup (.exchange (.get key reply))
  | scan (start : String) (reply : Except CacheError (List (String × Bytes))) :
    IsLookup (.exchange (.scan start reply))
  | event (e : Log.Event) : IsLookup (.event e)

theorem IsLookup.errand? (h : note.IsLookup) : note.errand? = none := by
  cases h <;> rfl

theorem IsLookup.count? (h : note.IsLookup) : note.count? = none := by
  cases h <;> rfl

end Note

/-! ## Acts that only look things up -/

namespace Act

variable {ρ I α β : Type}

structure Spares (x : Act ρ I α) : Prop where
  link : ∀ w, Cache.Link.Reads w.link (x.run w).state.link
  writes : ∀ w, (x.run w).notes.filterMap Note.write? = []

theorem spares_pure (a : α) : Spares (pure a : Act ρ I α) :=
  ⟨fun _ => .refl _, fun _ => rfl⟩

theorem Spares.bind {x : Act ρ I α} {f : α → Act ρ I β} (hx : Spares x) (hf : ∀ a, Spares (f a)) :
    Spares (x >>= f) where
  link w := (hx.link w).trans ((hf _).link _)
  writes w := by rw [Step.run_bind, List.filterMap_append, hx.writes, (hf _).writes]; rfl

theorem spares_report (e : Log.Event) : Spares (report e : Act ρ I Unit) :=
  ⟨fun _ => .refl _, fun _ => rfl⟩

theorem spares_call (errand : Errand I) (f : Call ρ α) : Spares (Act.call errand f) :=
  ⟨fun _ => .refl _, fun _ => rfl⟩

theorem spares_count (f : Call ρ Nat) : Spares (count f : Act ρ I _) :=
  ⟨fun _ => .refl _, fun _ => rfl⟩

structure LooksUp (x : Act ρ I α) : Prop extends Spares x where
  keeper : ∀ w, (x.run w).state.keeper = w.keeper
  lookups : ∀ w, ∀ note ∈ (x.run w).notes, note.IsLookup

namespace LooksUp

variable {x : Act ρ I α} {f : α → Act ρ I β}

theorem errands (h : LooksUp x) (w : World ρ) : (x.run w).notes.filterMap Note.errand? = [] :=
  List.filterMap_eq_nil_iff.2 fun note member => (h.lookups w note member).errand?

theorem counts (h : LooksUp x) (w : World ρ) : (x.run w).notes.filterMap Note.count? = [] :=
  List.filterMap_eq_nil_iff.2 fun note member => (h.lookups w note member).count?

theorem bind (hx : LooksUp x) (hf : ∀ a, LooksUp (f a)) : LooksUp (x >>= f) where
  toSpares := hx.toSpares.bind fun a => (hf a).toSpares
  keeper w := ((hf _).keeper _).trans (hx.keeper w)
  lookups w := List.forall_mem_append.2 ⟨hx.lookups w, (hf _).lookups _⟩

end LooksUp

theorem looksUp_pure (a : α) : LooksUp (pure a : Act ρ I α) :=
  ⟨spares_pure a, fun _ => rfl, nofun⟩

theorem looksUp_report (e : Log.Event) : LooksUp (report e : Act ρ I Unit) :=
  ⟨spares_report e, fun _ => rfl, fun _ => List.forall_mem_singleton.2 (.event e)⟩

theorem looksUp_get (key : String) : LooksUp (get key : Act ρ I _) :=
  ⟨⟨fun w => w.link.reads_get key, fun _ => rfl⟩, fun _ => rfl,
    fun _ => List.forall_mem_singleton.2 (.get key _)⟩

theorem looksUp_scan (start : String) : LooksUp (scan start : Act ρ I _) :=
  ⟨⟨fun w => w.link.reads_scan start, fun _ => rfl⟩, fun _ => rfl,
    fun _ => List.forall_mem_singleton.2 (.scan start _)⟩

theorem closed_spares : Closed (fun {α : Type} (x : Act ρ I α) => Spares x) where
  pure := spares_pure
  bind := Spares.bind
  report e _ := spares_report e
  get key := (looksUp_get key).toSpares
  scan start := (looksUp_scan start).toSpares
  call := spares_call
  count := spares_count

structure Reports (x : Act ρ I α) (a : α) : Prop where
  value : ∀ w, (x.run w).value = a
  state : ∀ w, (x.run w).state = w
  events : ∀ w, ∀ note ∈ (x.run w).notes, ∃ e, note = .event e

namespace Reports

variable {x : Act ρ I α} {a : α} {f : α → Act ρ I β} {b : β}

theorem looksUp (h : Reports x a) : LooksUp x where
  link w := by
    rw [h.state]
    exact .refl _
  writes w := List.filterMap_eq_nil_iff.2 fun note member => by
    obtain ⟨e, rfl⟩ := h.events w note member
    rfl
  keeper w := by rw [h.state]
  lookups w note member := by
    obtain ⟨e, rfl⟩ := h.events w note member
    exact .event e

theorem bind (hx : Reports x a) (hf : Reports (f a) b) : Reports (x >>= f) b where
  value w := by
    rw [Step.run_bind, hx.value]
    exact hf.value _
  state w := by
    rw [Step.run_bind, hx.value, hx.state]
    exact hf.state w
  events w := by
    rw [Step.run_bind, hx.value]
    exact List.forall_mem_append.2 ⟨hx.events w, hf.events _⟩

end Reports

theorem reports_pure (a : α) : Reports (pure a : Act ρ I α) a :=
  ⟨fun _ => rfl, fun _ => rfl, nofun⟩

theorem reports_report (e : Log.Event) : Reports (report e : Act ρ I Unit) () :=
  ⟨fun _ => rfl, fun _ => rfl, fun _ => List.forall_mem_singleton.2 ⟨e, rfl⟩⟩

theorem Reports.after (e : Log.Event) {x : Act ρ I α} {a : α} (h : Reports x a) :
    Reports (report e >>= fun _ => x) a :=
  (reports_report e).bind h

theorem reports_reportFailure (event : CacheError → Log.Event) (reply : Except CacheError α) :
    Reports (reportFailure event reply : Act ρ I Unit) () := by
  cases reply with
  | error error => exact reports_report _
  | ok _ => exact reports_pure _

end Act

/-! ## Lookups of entities -/

namespace Lookup

open Act

variable {E ρ I : Type} [Entity E I]

theorem looksUp_one (key : String) : LooksUp (one key : Act ρ I (Option E)) := by
  refine (looksUp_get key).bind fun reply => ?_
  split
  · split
    · exact looksUp_pure _
    · exact (looksUp_report _).bind fun _ => looksUp_pure _
  · exact looksUp_pure _
  · exact (looksUp_report _).bind fun _ => looksUp_pure _

theorem reports_decodeAll (entries : List (String × Bytes)) :
    Reports (decodeAll entries : Act ρ I (List E)) (entries.filterMap fun e => Entity.decode? e.2) := by
  induction entries with
  | nil => exact reports_pure _
  | cons entry entries ih =>
      rw [decodeAll, List.filterMap_cons]
      split
      · next e decoded =>
          rw [decoded]
          exact ih.bind (reports_pure _)
      · next undecodable =>
          rw [undecodable]
          exact ih.after _

theorem looksUp_family : LooksUp (family : Act ρ I (List E)) := by
  refine (looksUp_scan _).bind fun reply => ?_
  split
  · exact (reports_decodeAll _).looksUp
  · exact (looksUp_report _).bind fun _ => looksUp_pure _

theorem looksUp_marker : LooksUp (marker E : Act ρ I Bool) := by
  refine (looksUp_get _).bind fun reply => ?_
  split
  · exact looksUp_pure _
  · exact looksUp_pure _
  · exact (looksUp_report _).bind fun _ => looksUp_pure _

variable (E) in
theorem closed_looksUp : Lookup.Closed E (fun {α : Type} (x : Act ρ I α) => LooksUp x) where
  pure := looksUp_pure
  bind := LooksUp.bind
  report e _ := looksUp_report e
  one key _ := looksUp_one key
  family := looksUp_family
  marker := looksUp_marker

theorem looksUp_allOf (requested : Nat) (keys : List String) :
    LooksUp (allOf requested keys : Act ρ I (Option (List E))) :=
  closed_allOf (closed_looksUp E) requested fun key _ => looksUp_one key

theorem value_one (key : String) (w : World ρ) :
    ((one key : Act ρ I (Option E)).run w).value = (w.link.value? key).bind Entity.decode? := by
  rw [one, Step.run_bind, run_get, Cache.Link.value?]
  cases (w.link.get key).1 with
  | error error => rfl
  | ok found =>
      cases found with
      | none => rfl
      | some bytes =>
          show Outcome.value (Step.run _ _) = Entity.decode? bytes
          dsimp only
          split
          · next h => exact h.symm
          · next h => exact h.symm

def listed (E : Type) [Entity E I] (entries : List (String × Bytes)) : List E :=
  (entries.filter fun e => Key.isItem E e.1).filterMap fun e => Entity.decode? e.2

theorem value_family (w : World ρ) :
    ((family : Act ρ I (List E)).run w).value = listed E (w.link.values (Key.family E)) := by
  rw [family, Step.run_bind, run_scan, Cache.Link.values]
  cases (w.link.scan (Key.family E)).1 with
  | error error => rfl
  | ok entries => exact (reports_decodeAll _).value _

theorem memory_family (w : World ρ) :
    ((family : Act ρ I (List E)).run w).state.link.memory = w.link.memory := by
  have same : (w.link.scan (Key.family E)).2.memory = w.link.memory := by
    rw [Cache.Link.scan]
    split <;> rfl
  rw [family, Step.run_bind, run_scan]
  dsimp only
  cases (w.link.scan (Key.family E)).1 with
  | error error => exact same
  | ok entries =>
      dsimp only
      rw [(reports_decodeAll _).state]
      exact same

theorem value_marker (w : World ρ) :
    ((marker E : Act ρ I Bool).run w).value =
      ((w.link.value? (Key.family E)).map Marker.isMarker).getD false := by
  rw [marker, Step.run_bind, run_get, Cache.Link.value?]
  cases (w.link.get (Key.family E)).1 with
  | error error => rfl
  | ok found => cases found <;> rfl

theorem forall₂_of_allOf {requested : Nat} {keys : List String} {w : World ρ} {es : List E}
    (wf : w.link.memory.store.WellFormed)
    (h : ((allOf requested keys : Act ρ I (Option (List E))).run w).value = some es) :
    List.Forall₂ (fun key e => (w.link.memory.store.lookup? w.link.memory.now key).bind
      Entity.decode? = some e) keys es := by
  induction keys generalizing w es with
  | nil =>
      cases h
      exact .nil
  | cons key keys ih =>
      rw [allOf, Step.run_bind] at h
      have found := value_one (E := E) (I := I) key w
      have reads := (looksUp_one (E := E) (I := I) key).link w
      cases first : ((one key : Act ρ I (Option E)).run w).value with
      | none =>
          rw [first] at h
          cases h
      | some e =>
          rw [first] at h found
          simp only [Step.run_bind, Step.run_pure] at h
          obtain ⟨rest, hrest, rfl⟩ := Option.map_eq_some_iff.1 h
          obtain ⟨bytes, stored, decoded⟩ := Option.bind_eq_some_iff.1 found.symm
          refine .cons ?_ ?_
          · rw [Cache.Link.value?_some stored]
            exact decoded
          · have tail := ih (reads.touched.wellFormed wf) hrest
            simpa only [reads.now, reads.touched.lookup?_eq wf] using tail

end Lookup

end Lookaside
