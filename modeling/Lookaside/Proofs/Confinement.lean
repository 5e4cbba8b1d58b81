import Lookaside.Proofs.Isolation
import Lookaside.Proofs.Kinds
import Mathlib

namespace Lookaside

variable {ρ E I α β : Type}

def Cache.Request.Writes (r : Request) : Prop :=
  r.method = .set ∨ r.method = .delete

/-! ## Acts that write under some keys only -/

namespace Act

variable {P : String → Prop}

structure Confined (P : String → Prop) (x : Act ρ I α) : Prop where
  asks : ∀ (w : World ρ) (exchange : Cache.Exchange), .exchange exchange ∈ (x.run w).notes →
    exchange.request.Writes → P exchange.request.key
  stores : ∀ w : World ρ, ∀ e ∈ (x.run w).state.link.memory.store.entries,
    P e.key ∨ e ∈ w.link.memory.store.entries
  now : ∀ w : World ρ, (x.run w).state.link.memory.now = w.link.memory.now
  wellFormed : ∀ w : World ρ, w.link.memory.store.WellFormed →
    (x.run w).state.link.memory.store.WellFormed

theorem Spares.confined {x : Act ρ I α} (spares : Spares x)
    (asks : ∀ (w : World ρ) (exchange : Cache.Exchange), .exchange exchange ∈ (x.run w).notes →
      ¬ exchange.request.Writes) : Confined P x where
  asks w exchange member writes := absurd writes (asks w exchange member)
  stores w _ member := .inr ((spares.link w).touched.mem member)
  now w := (spares.link w).now
  wellFormed w := (spares.link w).touched.wellFormed

theorem LooksUp.confined {x : Act ρ I α} (looksUp : LooksUp x) : Confined P x := by
  refine looksUp.toSpares.confined fun w exchange member => ?_
  cases looksUp.lookups w _ member <;> simp [Cache.Request.Writes, Cache.Exchange.request, Cache.Request.method]

theorem closed_confined (P : String → Prop) : Closed (fun {α : Type} (x : Act ρ I α) => Confined P x) where
  pure a := (looksUp_pure a).confined
  bind hx hf := {
    asks w exchange member writes := by
      rw [Step.run_bind] at member
      rcases List.mem_append.1 member with first | second
      · exact hx.asks w exchange first writes
      · exact (hf _).asks _ exchange second writes
    stores w e member := ((hf _).stores _ e member).elim .inl (hx.stores w e)
    now w := ((hf _).now _).trans (hx.now w)
    wellFormed w wf := (hf _).wellFormed _ (hx.wellFormed w wf) }
  report e _ := (looksUp_report e).confined
  get key := (looksUp_get key).confined
  scan start := (looksUp_scan start).confined
  call errand f := (spares_call errand f).confined fun _ _ member => nomatch List.mem_singleton.1 member
  count f := (spares_count f).confined fun _ _ member => nomatch List.mem_singleton.1 member

theorem confined_delete {key : String} (own : P key) : Confined P (delete key : Act ρ I _) where
  asks w exchange member _ := by
    cases List.mem_singleton.1 member
    exact own
  stores w e member := by
    rw [run_delete] at member
    rcases w.link.delete_leaves key with same | erased
    · rw [same] at member
      exact .inr member
    · rw [erased] at member
      exact .inr (Store.mem_erase.1 member).1
  now w := by
    rw [run_delete]
    rcases w.link.delete_leaves key with left | left <;> rw [left] <;> rfl
  wellFormed w wf := by
    rw [run_delete]
    rcases w.link.delete_leaves key with same | erased
    · rw [same]
      exact wf
    · rw [erased]
      exact wf.erase key

theorem confined_set {key : String} (own : P key) (value : Bytes) (ttl : Option Span) :
    Confined P (ExceptT.run (Act.set key value ttl : Effect ρ I _)) where
  asks w exchange member _ := by
    rw [run_set] at member
    dsimp only at member
    split at member
    · cases member
    · cases List.mem_singleton.1 member
      exact own
  stores w e member := by
    rw [run_set] at member
    rcases w.link.set_leaves key value ttl with same | ⟨deadline, pushed⟩
    · rw [same] at member
      exact .inr member
    · rw [pushed] at member
      rcases Store.mem_push member with rfl | ⟨old, -⟩
      · exact .inl own
      · exact .inr old
  now w := by
    rw [run_set]
    rcases w.link.set_leaves key value ttl with left | ⟨deadline, left⟩ <;> rw [left] <;> rfl
  wellFormed w wf := by
    rw [run_set]
    rcases w.link.set_leaves key value ttl with same | ⟨deadline, pushed⟩
    · rw [same]
      exact wf
    · rw [pushed]
      exact wf.push _

end Act

open Act

variable [Entity E I]

/-! ## What a policy schedules -/

open Policy

variable {p : Policy ρ E}

def Outbox.Owned (outbox : Outbox E) : Prop :=
  ∀ change ∈ outbox.changes, Key.Owned E change.key

theorem Policy.owned_of_cacheKey? {e : E} {key : String} (h : cacheKey? e = some key) :
    Key.Owned E key :=
  Key.owned_item (cacheKey?_some.1 h).2

theorem Operation.Causes.owned {operation : Operation ρ E I} {w : World ρ} {notes : List (Note I)}
    {change : Change E} (h : operation.Causes p w notes change) : Key.Owned E change.key := by
  cases h with
  | fetched keyed => exact Key.owned_item keyed
  | stored _ cacheable => exact owned_of_cacheKey? cacheable
  | marked => exact Key.owned_family
  | saved cleared =>
      rcases cleared with rfl | cacheable
      · exact Key.owned_family
      · exact owned_of_cacheKey? cacheable
  | removed cleared =>
      rcases cleared with rfl | keyed
      · exact Key.owned_family
      · exact Key.owned_item keyed

theorem Operation.owned_outbox (p : Policy ρ E) (operation : Operation ρ E I) (w : World ρ) :
    ((operation.outbox p).run w).value.Owned := by
  rw [run_outbox]
  exact fun change member => (operation.causes_defer p w member).owned

/-! ## Sessions -/

namespace Session

variable {s s' s'' : Session ρ E} {notes notes' : List (Note I)}

structure Tidy (s : Session ρ E) : Prop where
  held : ∀ outbox ∈ s.held, outbox.Owned
  wellFormed : s.world.link.memory.store.WellFormed

structure Confined (s : Session ρ E) (notes : List (Note I)) (s' : Session ρ E) : Prop where
  tidy : s'.Tidy
  asks : ∀ exchange : Cache.Exchange, .exchange exchange ∈ notes → exchange.request.Writes →
    Key.Owned E exchange.request.key
  stores : ∀ e ∈ s'.world.link.memory.store.entries,
    Key.Owned E e.key ∨ e ∈ s.world.link.memory.store.entries
  now : s.world.link.memory.now ≤ s'.world.link.memory.now

theorem Confined.trans (h : Confined s notes s') (h' : Confined s' notes' s'') :
    Confined s (notes ++ notes') s'' where
  tidy := h'.tidy
  asks exchange member := (List.mem_append.1 member).elim (h.asks exchange) (h'.asks exchange)
  stores e member := (h'.stores e member).elim .inl (h.stores e)
  now := Nat.le_trans h.now h'.now

theorem Tidy.act {x : Act ρ I α} (h : s.Tidy) (confined : x.Confined (Key.Owned E))
    {held : List (Outbox E)} (owned : ∀ outbox ∈ held, outbox.Owned) :
    Confined s (x.run s.world).notes ⟨(x.run s.world).state, held⟩ where
  tidy := ⟨owned, confined.wellFormed _ h.wellFormed⟩
  asks := confined.asks s.world
  stores := confined.stores s.world
  now := Nat.le_of_eq (confined.now s.world).symm

theorem Tidy.silent (h : s.Tidy) (held : ∀ outbox ∈ s'.held, outbox ∈ s.held)
    (store : s'.world.link.memory.store = s.world.link.memory.store)
    (now : s.world.link.memory.now ≤ s'.world.link.memory.now) :
    Confined s ([] : List (Note I)) s' where
  tidy := ⟨fun outbox member => h.held outbox (held outbox member), store ▸ h.wellFormed⟩
  asks := nofun
  stores _ member := .inr (store ▸ member)
  now := now

theorem confined_step (h : s.Tidy) (move : Move ρ E I) :
    Confined s ((move.step p).run s).notes ((move.step p).run s).state := by
  cases move with
  | call operation =>
      refine h.act (operation.closed_outbox (closed_confined _) p) fun outbox member => ?_
      rcases List.mem_append.1 member with before | new
      · exact h.held outbox before
      · cases List.mem_singleton.1 new
        exact operation.owned_outbox p s.world
  | discharge n =>
      cases found : s.held[n]? with
      | none => simpa only [Move.step, Step.run, found] using h.silent (fun _ member => member) rfl le_rfl
      | some outbox =>
          have last := h.held outbox (List.mem_of_getElem? found)
          have confined := Outbox.closed_discharge (I := I) (closed_confined (ρ := ρ) (Key.Owned E))
            (fun change member => confined_delete (last change member))
            fun change member ttl => change.within_key fun value => confined_set (last change member) value ttl
          simpa only [Move.step, Step.run, found] using
            h.act confined fun outbox member => h.held outbox (List.mem_of_mem_eraseIdx member)
  | drop n => exact h.silent (fun _ member => List.mem_of_mem_eraseIdx member) rfl le_rfl
  | wait span => exact h.silent (fun _ member => member) rfl (Nat.le_add_right _ _)
  | alter change => exact h.silent (fun _ member => member) rfl le_rfl

theorem confined_play (h : s.Tidy) (moves : List (Move ρ E I)) :
    Confined s ((play p moves).run s).notes ((play p moves).run s).state := by
  induction moves generalizing s with
  | nil => exact h.silent (fun _ member => member) rfl le_rfl
  | cons move moves ih =>
      have first := confined_step (p := p) h move
      exact first.trans (ih first.tidy)

end Session

/-! ## Two types -/

section

variable {A B J : Type} [Entity A I] [Entity B J] {q : Policy ρ B}

structure Shared.Tidy (s : Shared ρ A B) : Prop where
  first : Session.Tidy ⟨s.world, s.first⟩
  second : Session.Tidy ⟨s.world, s.second⟩

theorem Shared.tidy_play {p : Policy ρ A} {s : Shared ρ A B} (h : s.Tidy)
    (moves : List (Move ρ A I ⊕ Move ρ B J)) : (play p q moves s).Tidy := by
  induction moves generalizing s with
  | nil => exact h
  | cons move moves ih =>
      refine ih ?_
      cases move with
      | inl move =>
          have tidy := (Session.confined_step (p := p) h.first move).tidy
          exact ⟨tidy, h.second.held, tidy.wellFormed⟩
      | inr move =>
          have tidy := (Session.confined_step (p := q) h.second move).tidy
          exact ⟨⟨h.first.held, tidy.wellFormed⟩, tidy⟩

end

theorem Policy.value_getCached {id : I} {key : String} (keyed : Key.item E id = .ok key) (w : World ρ) :
    ((getCached id : Act ρ I (Except PolicyError (Option E))).run w).value =
      .ok ((w.link.value? key).bind Entity.decode?) := by
  rw [getCached, keyed, ← Lookup.value_one (I := I)]
  rfl

theorem Session.Confined.lookup? {s s' : Session ρ E} {notes : List (Note I)} (h : Confined s notes s')
    (wf : s.world.link.memory.store.WellFormed) {key : String} (other : ¬ Key.Owned E key) {value : Bytes}
    (found : s'.world.link.memory.store.lookup? s'.world.link.memory.now key = some value) :
    s.world.link.memory.store.lookup? s.world.link.memory.now key = some value := by
  obtain ⟨e, member, rfl, live, rfl⟩ := Store.lookup?_some found
  exact wf.lookup?_eq ((h.stores e member).resolve_left other) (Entry.isExpired_of_le h.now live)

namespace Kind

/-- What a policy of one type does between two lookups by id of another type can make the second lookup
fail, but not find anything else than the first did when it reached the cache. -/
theorem neighbour_undisturbed {a b : Kind} (distinct : a ≠ b) (p : Policy ρ a.Record)
    (q : Policy ρ b.Record) {memory : Memory} (wf : memory.store.WellFormed) (faults : Cache.Faults)
    (keeper : ρ) (before : List (Move ρ a.Record a.Id ⊕ Move ρ b.Record b.Id))
    (moves : List (Move ρ a.Record a.Id)) (id : b.Id) :
    let shared := Shared.play p q before (.start memory faults keeper)
    let earlier := (Policy.getCached id : Act ρ b.Id (Except PolicyError (Option b.Record))).run shared.world
    let run := (Session.play p moves).run ⟨earlier.state, shared.first⟩
    let later :=
      (Policy.getCached id : Act ρ b.Id (Except PolicyError (Option b.Record))).run run.state.world
    (∀ exchange, .exchange exchange ∈ run.notes → exchange.request.Writes →
        Key.Owned a.Record exchange.request.key) ∧
      (∀ outbox ∈ run.state.held, ∀ change ∈ outbox.changes, Key.Owned a.Record change.key) ∧
      ((∀ key, Key.item b.Record id = .ok key → shared.world.link.fault? (.get key) = none) →
        later.value = earlier.value ∨ later.value = .ok none) := by
  intro shared earlier run later
  have tidy : shared.Tidy :=
    Shared.tidy_play ⟨⟨List.forall_mem_nil _, wf⟩, List.forall_mem_nil _, wf⟩ before
  have reads := (Policy.looksUp_getCached (E := b.Record) id).link shared.world
  have wf' : earlier.state.link.memory.store.WellFormed := reads.touched.wellFormed tidy.first.wellFormed
  have confined := Session.confined_play (p := p) (s := ⟨earlier.state, shared.first⟩)
    ⟨tidy.first.held, wf'⟩ moves
  refine ⟨confined.asks, confined.tidy.held, fun reached => ?_⟩
  cases keyed : Key.item b.Record id with
  | error error =>
      have refused (w : World ρ) : ((Policy.getCached id : Act ρ b.Id
          (Except PolicyError (Option b.Record))).run w).value = .error error.toPolicy := by
        rw [Policy.getCached, keyed]
        rfl
      exact .inl ((refused _).trans (refused _).symm)
  | ok key =>
      have first : earlier.value = _ := Policy.value_getCached keyed shared.world
      have second : later.value = _ := Policy.value_getCached keyed run.state.world
      rw [first, second]
      cases value : run.state.world.link.value? key with
      | none => exact .inr rfl
      | some bytes =>
          have other : ¬ Key.Owned a.Record key :=
            fun owned => distinct (eq_of_owned owned (Key.owned_item keyed))
          have found := confined.lookup? wf' other (Cache.Link.value?_some value)
          rw [reads.now, reads.touched.lookup?_eq tidy.first.wellFormed] at found
          rw [Cache.Link.value?_of_reached (reached key keyed), found]
          exact .inl rfl

theorem extended_member_undisturbed :
    let p : Policy Unit (Record member) := .new .new
    let q : Policy Unit (Record memberExt) := .new .new
    let memory : Memory := ⟨⟨2, []⟩, 1000000000⟩
    let before : List (Move Unit (Record member) (Id member) ⊕
        Move Unit (Record memberExt) (Id memberExt)) :=
      [.inr (.call (.get (1 : Int32) fun _ k => (.ok (some (⟨1, "ada", none⟩ : MemberExt)), k))),
        .inr (.discharge 0)]
    let moves : List (Move Unit (Record member) (Id member)) :=
      [.call (.save (⟨0, "bob"⟩ : Member) fun k => (.ok (⟨1, "bob"⟩ : Member), k)), .discharge 0]
    let shared := Shared.play p q before (.start memory .never ())
    let earlier := (Policy.getCached (1 : Int32) :
      Act Unit (Id memberExt) (Except PolicyError (Option (Record memberExt)))).run shared.world
    let run := (Session.play p moves).run ⟨earlier.state, shared.first⟩
    let later := (Policy.getCached (1 : Int32) :
      Act Unit (Id memberExt) (Except PolicyError (Option (Record memberExt)))).run run.state.world
    member ≠ memberExt ∧ memory.store.WellFormed ∧
      (∀ key, Key.item (Record memberExt) (1 : Int32) = .ok key →
        shared.world.link.fault? (.get key) = none) ∧
      earlier.value = .ok (some (⟨1, "ada", none⟩ : MemberExt)) ∧
      run.state.world.link.memory.store.entries.map (·.key) = ["uRepo_Member_1", "uRepo_Member_Ext_1"] ∧
      (∀ exchange, .exchange exchange ∈ run.notes → exchange.request.Writes →
        Key.Owned (Record member) exchange.request.key) ∧
      (∀ outbox ∈ run.state.held, ∀ change ∈ outbox.changes, Key.Owned (Record member) change.key) ∧
      (later.value = earlier.value ∨ later.value = .ok none) := by
  intro p q memory before moves shared earlier run later
  have wf : memory.store.WellFormed := Store.wellFormed_nil 2
  have reached : ∀ key, Key.item (Record memberExt) (1 : Int32) = .ok key →
      shared.world.link.fault? (.get key) = none := by
    intro key _
    dsimp only [shared, before, memory, p, q]
    cbv
  obtain ⟨asks, held, undisturbed⟩ :=
    neighbour_undisturbed (by decide : member ≠ memberExt) p q wf .never () before moves (1 : Int32)
  refine ⟨by decide, wf, reached, ?_, ?_, asks, held, undisturbed reached⟩
  · dsimp only [earlier, shared, before, memory, p, q]
    cbv
  · dsimp only [run, earlier, shared, before, moves, memory, p, q]
    cbv

end Kind

end Lookaside
