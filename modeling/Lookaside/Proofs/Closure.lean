import Lookaside.Policy
import Lookaside.Proofs.Key

/-!
# Properties that all operations share

The operations of a policy are put together from lookups, callbacks and reports. A property that these
have, and that a sequence has if its parts have it, is a property of every operation. Some properties
hold of every request to the cache; others only of the lookup that a request is part of, or only as long
as nobody is called back.
-/

namespace Lookaside

variable {ρ E I : Type}

def Log.Event.milestone? : Event → Option Milestone
  | milestone m => some m
  | _ => none

structure Log.Event.Quiet (e : Log.Event) : Prop where
  milestone : e.milestone? = none
  level : decide (e.line.level = .warn) = false

/-- A property that all acts have which are put together from lookups, callbacks and reports of anything
but milestones. -/
structure Act.Closed (C : {α : Type} → Act ρ I α → Prop) : Prop where
  pure : ∀ {α : Type} (a : α), C (pure a : Act ρ I α)
  bind : ∀ {α β : Type} {x : Act ρ I α} {f : α → Act ρ I β}, C x → (∀ a, C (f a)) → C (x >>= f)
  report : ∀ e : Log.Event, e.milestone? = none → C (Act.report e : Act ρ I Unit)
  get : ∀ key, C (Act.get key : Act ρ I _)
  scan : ∀ start, C (Act.scan start : Act ρ I _)
  call : ∀ {α : Type} (errand : Errand I) (f : Call ρ α), C (Act.call errand f)
  count : ∀ f : Call ρ Nat, C (Act.count f : Act ρ I _)

structure Lookup.Closed (E : Type) [Entity E I] (C : {α : Type} → Act ρ I α → Prop) : Prop where
  pure : ∀ {α : Type} (a : α), C (pure a : Act ρ I α)
  bind : ∀ {α β : Type} {x : Act ρ I α} {f : α → Act ρ I β}, C x → (∀ a, C (f a)) → C (x >>= f)
  report : ∀ e : Log.Event, e.Quiet → C (Act.report e : Act ρ I Unit)
  one : ∀ key, Key.isItem E key = true → C (one key : Act ρ I (Option E))
  family : C (family : Act ρ I (List E))
  marker : C (marker E : Act ρ I Bool)

structure Policy.Closed (E : Type) [Entity E I] (C : {α : Type} → Act ρ I α → Prop) : Prop
    extends Lookup.Closed E C where
  call : ∀ {α : Type} (errand : Errand I) (f : Call ρ α), C (Act.call errand f)
  count : ∀ f : Call ρ Nat, C (Act.count f : Act ρ I _)

variable {C : {α : Type} → Act ρ I α → Prop}

/-! ## Requests -/

section

variable (h : Act.Closed C)
include h

namespace Act.Closed

variable {α β : Type}

theorem after {e : Log.Event} (quiet : e.milestone? = none) {x : Act ρ I α} (hx : C x) :
    C (Act.report e >>= fun _ => x) :=
  h.bind (h.report e quiet) fun _ => hx

theorem reportFailure {event : CacheError → Log.Event} (quiet : ∀ error, (event error).milestone? = none)
    (reply : Except CacheError α) : C (Act.reportFailure event reply : Act ρ I Unit) := by
  cases reply with
  | ok _ => exact h.pure _
  | error error => exact h.report _ (quiet error)

theorem lift {x : Act ρ I α} (hx : C x) : C (ExceptT.run (Effect.lift x)) :=
  h.bind hx fun _ => h.pure _

theorem andThen {x : Effect ρ I α} {f : α → Effect ρ I β} (hx : C x.run) (hf : ∀ a, C (f a).run) :
    C (x >>= f).run := by
  rw [ExceptT.run_bind]
  refine h.bind hx fun a => ?_
  cases a with
  | error overflow => exact h.pure _
  | ok a => exact hf a

end Act.Closed

variable [Entity E I]

namespace Lookup

theorem closed_one (key : String) : C (one key : Act ρ I (Option E)) := by
  refine h.bind (h.get key) fun reply => ?_
  split
  · split
    · exact h.pure _
    · exact h.after rfl (h.pure _)
  · exact h.pure _
  · exact h.after rfl (h.pure _)

theorem closed_decodeAll (entries : List (String × Bytes)) : C (decodeAll entries : Act ρ I (List E)) := by
  induction entries with
  | nil => exact h.pure _
  | cons entry entries ih =>
      rw [decodeAll]
      split
      · exact h.bind ih fun _ => h.pure _
      · exact h.after rfl ih

theorem closed_family : C (family : Act ρ I (List E)) := by
  refine h.bind (h.scan _) fun reply => ?_
  split
  · exact closed_decodeAll h _
  · exact h.after rfl (h.pure _)

theorem closed_marker : C (marker E : Act ρ I Bool) := by
  refine h.bind (h.get _) fun reply => ?_
  split
  · exact h.pure _
  · exact h.pure _
  · exact h.after rfl (h.pure _)

end Lookup

variable (E) in
theorem Act.Closed.policy : Policy.Closed E C where
  pure := h.pure
  bind := h.bind
  report e quiet := h.report e quiet.milestone
  one key _ := Lookup.closed_one h key
  family := Lookup.closed_family h
  marker := Lookup.closed_marker h
  call := h.call
  count := h.count

end

variable [Entity E I]

/-! ## Lookups -/

section

variable (h : Lookup.Closed E C)
include h

theorem Lookup.Closed.after {α : Type} {e : Log.Event} (quiet : e.Quiet) {x : Act ρ I α} (hx : C x) :
    C (Act.report e >>= fun _ => x) :=
  h.bind (h.report e quiet) fun _ => hx

theorem Lookup.closed_allOf (requested : Nat) {keys : List String}
    (ones : ∀ key ∈ keys, C (one key : Act ρ I (Option E))) :
    C (allOf requested keys : Act ρ I (Option (List E))) := by
  induction keys with
  | nil => exact h.pure _
  | cons key keys ih =>
      rw [List.forall_mem_cons] at ones
      refine h.bind ones.1 fun found => ?_
      split
      · exact h.bind (ih ones.2) fun _ => h.pure _
      · exact h.after ⟨rfl, rfl⟩ (h.pure _)

namespace Policy

theorem closed_getCached (id : I) : C (getCached id : Act ρ I (Except PolicyError (Option E))) := by
  rw [getCached]
  split
  · exact h.pure _
  · next keyed => exact h.bind (h.one _ (Key.isItem_item keyed)) fun _ => h.pure _

theorem closed_readMany (ids : List I) :
    C (readMany ids : Act ρ I (Except PolicyError (Option (List E)))) := by
  rw [readMany]
  split
  · exact h.pure _
  · next keys mapped =>
      refine h.bind (Lookup.closed_allOf h _ fun key member => ?_) fun found => ?_
      · exact h.one key (Key.isItem_of_mapM mapped key member)
      · split
        · exact h.after ⟨rfl, rfl⟩ (h.pure _)
        · exact h.pure _

variable (p : Policy ρ E)

theorem closed_readSource : C (p.readSource : Act ρ I (List E)) := by
  rw [readSource]
  split
  · exact h.family
  · exact h.pure _

theorem closed_readMarker : C (p.readMarker : Act ρ I (Except PolicyError (Option (List E)))) := by
  rw [readMarker]
  split
  · refine h.bind h.marker fun marked => ?_
    split
    · exact h.after ⟨rfl, rfl⟩ (h.pure _)
    · exact h.pure _
  · exact h.pure _

end Policy

end

/-! ## Lookups and callbacks -/

namespace Policy

section

variable (h : Policy.Closed E C)
include h

theorem closed_contains (id : I) (fetch : I → Call ρ Bool) : C (contains E id fetch) := by
  rw [contains]
  split
  · exact h.pure _
  · next keyed =>
      refine h.bind (h.one _ (Key.isItem_item keyed)) fun found => ?_
      split
      · exact h.pure _
      · exact h.bind (h.call _ _) fun _ => h.pure _

theorem closed_accept (counter? : Option (Call ρ Nat)) (es : List E) :
    C (accept counter? es : Act ρ I _) := by
  unfold accept
  split
  · exact h.after ⟨rfl, rfl⟩ (h.pure _)
  · refine h.bind (h.count _) fun reply => ?_
    split
    · exact h.pure _
    · split
      · exact h.after ⟨rfl, rfl⟩ (h.pure _)
      · exact h.after ⟨rfl, rfl⟩ (h.pure _)

variable (p : Policy ρ E)

theorem closed_get (id : I) (fetch : I → Call ρ (Option E)) : C (p.get id fetch) := by
  rw [get]
  split
  · exact h.pure _
  · next keyed =>
      refine h.bind (h.one _ (Key.isItem_item keyed)) fun found => ?_
      split
      · exact h.after ⟨rfl, rfl⟩ (h.pure _)
      · refine h.after ⟨rfl, rfl⟩ (h.bind (h.call _ _) fun answer => ?_)
        split
        · split <;> exact h.pure _
        · exact h.pure _
        · exact h.pure _

theorem closed_remove (e : E) (persist : Call ρ Unit) : C (p.remove e persist : Act ρ I _) := by
  rw [remove]
  split
  · exact h.pure _
  · refine h.bind (h.call _ persist) fun answer => ?_
    split <;> exact h.pure _

theorem closed_readAll : C (p.readAll : Act ρ I (Except PolicyError (Option (List E)))) := by
  rw [readAll]
  split
  · exact h.pure _
  · refine h.bind (p.closed_readSource h.toClosed) fun es => ?_
    split
    · exact p.closed_readMarker h.toClosed
    · exact closed_accept h _ _

end

/-! ## Operations that form keys of entities -/

variable (h : Act.Closed C)
include h

theorem closed_identityKey (e : E) : C (identityKey e : Act ρ I (Option String)) := by
  rw [identityKey]
  split
  · split
    · exact h.pure _
    · exact h.after rfl (h.pure _)
  · exact h.pure _

theorem closed_storing (e : E) : C (storing e : Act ρ I (List (Change E))) := by
  refine h.bind (closed_identityKey h e) fun key? => ?_
  split <;> exact h.pure _

theorem closed_clearing (e : E) : C (clearing e : Act ρ I (List (Change E))) := by
  refine h.bind (closed_identityKey h e) fun key? => ?_
  split <;> exact h.pure _

theorem closed_storingAll (es : List E) : C (storingAll es : Act ρ I (List (Change E))) := by
  induction es with
  | nil => exact h.pure _
  | cons e es ih => exact h.bind (closed_storing h e) fun _ => h.bind ih fun _ => h.pure _

variable (p : Policy ρ E)

theorem closed_save (e : E) (persist : Call ρ E) : C (p.save e persist : Act ρ I _) := by
  refine h.bind (h.call _ persist) fun answer => ?_
  split
  · exact h.bind (closed_storing h _) fun _ => h.pure _
  · exact h.after rfl (h.bind (closed_clearing h e) fun _ => h.pure _)

theorem closed_collecting (all : Bool) (es : List E) :
    C (p.collecting all es : Act ρ I (List (Change E))) := by
  rw [collecting]
  split
  · exact h.pure _
  · exact closed_storingAll h es

end Policy

end Lookaside
