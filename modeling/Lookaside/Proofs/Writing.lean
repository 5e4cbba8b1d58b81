import Lookaside.Outbox
import Lookaside.Proofs.Reading

namespace Lookaside

theorem Memory.create_ok {capacity start slots : Nat} {memory : Memory}
    (h : create capacity start slots = .ok memory) : memory = ⟨⟨capacity, []⟩, start⟩ := by
  rw [create, Store.create] at h
  split at h
  · cases h
  · split at h
    · cases h
    · cases h
      rfl

theorem Memory.create_granted {capacity slots : Nat} (start : Nat) (positive : 0 < capacity)
    (granted : capacity * 8 / 7 ≤ slots) : create capacity start slots = .ok ⟨⟨capacity, []⟩, start⟩ := by
  rw [create, Store.create, if_neg (Nat.ne_of_gt positive), if_neg (Nat.not_lt.2 granted)]
  rfl

theorem Memory.create_too_large {capacity slots : Nat} (start : Nat) (positive : 0 < capacity)
    (large : slots < capacity * 8 / 7) : create capacity start slots = .error .tooLarge := by
  rw [create, Store.create, if_neg (Nat.ne_of_gt positive), if_pos large]
  rfl

theorem Memory.capacity_pos {capacity start slots : Nat} {memory : Memory}
    (h : create capacity start slots = .ok memory) : 0 < capacity := by
  rcases Nat.eq_zero_or_pos capacity with rfl | positive
  · cases h
  · exact positive

theorem Memory.deadline_ok {m : Memory} {ttl? : Option Span} {later : Span}
    (fits : ∀ ttl, ttl? = some ttl → Span.seconds (m.now + later + ttl) ≤ lastSecond) :
    ∃ deadline, m.deadline ttl? = .ok deadline := by
  cases ttl? with
  | none => exact ⟨none, rfl⟩
  | some ttl =>
      have sooner : Span.seconds (m.now + ttl) ≤ Span.seconds (m.now + later + ttl) :=
        Nat.div_le_div_right (by omega)
      refine ⟨some (m.now + ttl), ?_⟩
      rw [deadline, if_neg (Nat.not_lt.2 (Nat.le_trans sooner (fits ttl rfl)))]

def World.Fits {ρ : Type} (options : Policy.Options) (later : Span) (w : World ρ) : Prop :=
  ∀ ttl, options.ttl = some ttl → Span.seconds (w.link.memory.now + later + ttl) ≤ Memory.lastSecond

theorem World.Fits.of_le {ρ : Type} {options : Policy.Options} {later later' : Span} {w w' : World ρ}
    (h : w.Fits options later) (le : w'.link.memory.now + later' ≤ w.link.memory.now + later) :
    w'.Fits options later' :=
  fun ttl given => Nat.le_trans (Nat.div_le_div_right (Nat.add_le_add_right le ttl)) (h ttl given)

theorem Memory.deadline_congr {m m' : Memory} (now : m'.now = m.now) (ttl : Option Span) :
    m'.deadline ttl = m.deadline ttl := by
  rw [deadline.eq_def, deadline.eq_def, now]

theorem Memory.deadline_some {m : Memory} {span : Span} {deadline : Option Nat}
    (fits : m.deadline (some span) = .ok deadline) :
    deadline = some (m.now + span) := by
  rw [Memory.deadline] at fits
  split at fits
  · cases fits
  · cases fits
    rfl

theorem Memory.alive_of_deadline {m : Memory} {ttl : Option Span} {deadline : Option Nat}
    (fits : m.deadline ttl = .ok deadline) (key : String) (value : Bytes) :
    Entry.isExpired m.now ⟨key, value, deadline⟩ = false := by
  cases ttl with
  | none => cases fits; rfl
  | some span =>
      rw [deadline_some fits]
      exact decide_eq_false (Nat.not_lt.2 (Nat.le_add_right _ _))

structure Written (τ : Type) where
  writer : τ
  key : String
  value : Bytes
deriving DecidableEq, Repr

namespace Written

variable {τ I : Type}

def ofNotes (t : τ) (notes : List (Note I)) : List (Written τ) :=
  (notes.filterMap Note.write?).map fun v => ⟨t, v.1, v.2⟩

theorem ofNotes_append (t : τ) (a b : List (Note I)) :
    ofNotes t (a ++ b) = ofNotes t a ++ ofNotes t b := by
  rw [ofNotes, List.filterMap_append, List.map_append]
  rfl

def latest? (log : List (Written τ)) (key : String) : Option (Written τ) :=
  log.findRev? (·.key = key)

theorem latest?_append (log log' : List (Written τ)) (key : String) :
    latest? (log ++ log') key = (latest? log' key).or (latest? log key) := by
  simp only [latest?, List.findRev?_eq_find?_reverse, List.reverse_append, List.find?_append]

theorem latest?_some {log : List (Written τ)} {key : String} {v : Written τ}
    (h : latest? log key = some v) : v ∈ log ∧ v.key = key := by
  rw [latest?, List.findRev?_eq_find?_reverse] at h
  exact ⟨List.mem_reverse.1 (List.mem_of_find?_eq_some h), by simpa using List.find?_some h⟩

end Written

/-- Every stored value is the one that was written last under its key. -/
def Store.Explained {τ : Type} (log : List (Written τ)) (s : Store) : Prop :=
  ∀ x ∈ s.entries, ∃ t, Written.latest? log x.key = some ⟨t, x.key, x.value⟩

namespace Store.Explained

variable {τ : Type} {log : List (Written τ)} {s s' : Store}

theorem mono (h : Explained log s) (sub : ∀ x ∈ s'.entries, x ∈ s.entries) : Explained log s' :=
  fun x hx => h x (sub x hx)

theorem push (h : Explained log s) (t : τ) (e : Entry) :
    Explained (log ++ [⟨t, e.key, e.value⟩]) (s.push e) := by
  intro x hx
  rw [Written.latest?_append]
  rcases mem_push hx with rfl | ⟨hx, other⟩
  · exact ⟨t, by simp [Written.latest?, List.findRev?]⟩
  · obtain ⟨t', found⟩ := h x hx
    exact ⟨t', by simpa [Written.latest?, List.findRev?, Ne.symm other] using found⟩

end Store.Explained

/-! ## Requests that write -/

namespace Cache.Link

theorem delete_leaves (l : Link) (key : String) :
    (l.delete key).2 = l.after l.memory ∨ (l.delete key).2 = l.after (l.memory.delete key) := by
  rw [delete]
  cases l.fault? (.delete key) with
  | some e => exact .inl rfl
  | none => exact .inr rfl

theorem set_leaves (l : Link) (key : String) (value : Bytes) (ttl : Option Span) :
    (l.set key value ttl).2 = l.after l.memory ∨ ∃ deadline, (l.set key value ttl).2 =
      l.after { l.memory with store := l.memory.store.push ⟨key, value, deadline⟩ } := by
  rw [set]
  cases l.fault? (.set key value ttl) with
  | some e => exact .inl rfl
  | none =>
      rw [Memory.set]
      cases l.memory.deadline ttl with
      | error overflow => exact .inl rfl
      | ok deadline => exact .inr ⟨deadline, rfl⟩

end Cache.Link

/-! ## Acts that note what they write -/

namespace Act

variable {ρ I α β : Type} {P : String → Bytes → Prop}

theorem run_set (key : String) (value : Bytes) (ttl : Option Span) (w : World ρ) :
    Step.run (ExceptT.run (Act.set key value ttl : Effect ρ I _)) w =
      ⟨(w.link.set key value ttl).1, { w with link := (w.link.set key value ttl).2 },
        match (w.link.set key value ttl).1 with
        | .error _ => []
        | .ok reply => [.exchange (.set key value ttl reply)]⟩ := rfl

structure Records (P : String → Bytes → Prop) (x : Act ρ I α) : Prop where
  permitted : ∀ w, ∀ v ∈ (x.run w).notes.filterMap Note.write?, P v.1 v.2
  explained : ∀ {τ : Type} (t : τ) (w : World ρ) (log : List (Written τ)),
    w.link.memory.store.Explained log →
      (x.run w).state.link.memory.store.Explained (log ++ Written.ofNotes t (x.run w).notes)

theorem Spares.records {x : Act ρ I α} (h : Spares x) : Records P x where
  permitted w := by
    rw [h.writes w]
    exact fun _ none => nomatch none
  explained t w log explained := by
    rw [Written.ofNotes, h.writes w, List.map_nil, List.append_nil]
    exact explained.mono fun x member => (h.link w).touched.mem member

theorem Records.bind {x : Act ρ I α} {f : α → Act ρ I β} (hx : Records P x)
    (hf : ∀ a, Records P (f a)) : Records P (x >>= f) where
  permitted w v member := by
    rw [Step.run_bind, List.filterMap_append] at member
    cases List.mem_append.1 member with
    | inl first => exact hx.permitted w v first
    | inr second => exact (hf _).permitted _ v second
  explained t w log explained := by
    rw [Step.run_bind, Written.ofNotes_append, ← List.append_assoc]
    exact (hf _).explained t _ _ (hx.explained t w log explained)

theorem closed_records (P : String → Bytes → Prop) :
    Closed (fun {α : Type} (x : Act ρ I α) => Records P x) where
  pure a := (spares_pure a).records
  bind := Records.bind
  report e _ := (spares_report e).records
  get key := (looksUp_get key).toSpares.records
  scan start := (looksUp_scan start).toSpares.records
  call errand f := (spares_call errand f).records
  count f := (spares_count f).records

theorem records_delete (key : String) : Records P (delete key : Act ρ I _) where
  permitted w := fun _ none => nomatch none
  explained t w log explained := by
    have kept : (w.link.delete key).2.memory.store.Explained log := by
      rcases w.link.delete_leaves key with same | erased
      · rw [same]
        exact explained
      · rw [erased]
        exact explained.mono fun x member => (Store.mem_erase.1 member).1
    exact (List.append_nil log).symm ▸ kept

theorem records_set {key : String} {value : Bytes} (fits : P key value) (ttl : Option Span) :
    Records P (ExceptT.run (Act.set key value ttl : Effect ρ I _)) where
  permitted w v member := by
    rw [run_set] at member
    dsimp only at member
    split at member
    · cases member
    · next reply _ =>
        cases reply with
        | error error => cases member
        | ok _ =>
            cases List.mem_singleton.1 member
            exact fits
  explained t w log explained := by
    rw [run_set, Cache.Link.set]
    split
    · exact (List.append_nil log).symm ▸ explained
    · rw [Memory.set]
      cases w.link.memory.deadline ttl with
      | error overflow => exact (List.append_nil log).symm ▸ explained
      | ok deadline => exact explained.push t ⟨key, value, deadline⟩

end Act

/-! ## Changes and batches -/

def Change.Within {E I : Type} [Entity E I] (P : String → Bytes → Prop) : Change E → Prop
  | .store key e => ∀ bytes, Entity.encode e = .ok bytes → P key bytes
  | .mark key => P key Marker.bytes
  | .clear _ => True

def Outbox.Within {E I : Type} [Entity E I] (P : String → Bytes → Prop) (outbox : Outbox E) : Prop :=
  ∀ batch, outbox.batch? = some batch → ∀ change ∈ batch.changes, change.Within P

def Outbox.changes {E : Type} (outbox : Outbox E) : List (Change E) :=
  outbox.batch?.elim [] Batch.changes

variable {ρ E I : Type} [Entity E I] {P Q : String → Bytes → Prop}

theorem Change.Within.mono {change : Change E} (h : change.Within P) (sub : ∀ key value, P key value → Q key value) :
    change.Within Q := by
  cases change with
  | store key e => exact fun bytes encoded => sub key bytes (h bytes encoded)
  | mark key => exact sub key Marker.bytes h
  | clear key => trivial

theorem Change.within_key (change : Change E) (own : ∀ value, P change.key value) : change.Within P := by
  cases change with
  | store key e => exact fun bytes _ => own bytes
  | mark key => exact own Marker.bytes
  | clear key => trivial

theorem Outbox.within_iff {outbox : Outbox E} :
    outbox.Within P ↔ ∀ change ∈ outbox.changes, change.Within P := by
  rw [Within, changes]
  cases outbox.batch? with
  | none => exact ⟨fun _ => nofun, fun _ => nofun⟩
  | some batch => simp

section

variable {C : {α : Type} → Act ρ I α → Prop} (h : Act.Closed C)
include h

theorem Change.closed_apply {ttl : Option Span} {change : Change E}
    (deletes : C (Act.delete change.key : Act ρ I _))
    (sets : change.Within fun key value => C (ExceptT.run (Act.set key value ttl : Effect ρ I _))) :
    C (ExceptT.run (change.apply ttl : Effect ρ I Unit)) := by
  cases change with
  | store key e =>
      rw [apply]
      split
      · next bytes encoded =>
          exact h.andThen (sets bytes encoded) fun reply => h.lift (h.reportFailure (fun _ => rfl) reply)
      · exact h.lift (h.report _ rfl)
  | mark key => exact h.andThen sets fun reply => h.lift (h.reportFailure (fun _ => rfl) reply)
  | clear key => exact h.lift (h.bind deletes fun reply => h.reportFailure (fun _ => rfl) reply)

theorem Batch.closed_applyAll {ttl : Option Span} {changes : List (Change E)}
    (deletes : ∀ change ∈ changes, C (Act.delete change.key : Act ρ I _))
    (sets : ∀ change ∈ changes,
      change.Within fun key value => C (ExceptT.run (Act.set key value ttl : Effect ρ I _))) :
    C (ExceptT.run (applyAll ttl changes : Effect ρ I Unit)) := by
  induction changes with
  | nil => exact h.pure _
  | cons change changes ih =>
      rw [List.forall_mem_cons] at deletes sets
      exact h.andThen (change.closed_apply h deletes.1 sets.1) fun _ => ih deletes.2 sets.2

theorem Outbox.closed_discharge {outbox : Outbox E}
    (deletes : ∀ change ∈ outbox.changes, C (Act.delete change.key : Act ρ I _))
    (sets : ∀ change ∈ outbox.changes, ∀ ttl,
      change.Within fun key value => C (ExceptT.run (Act.set key value ttl : Effect ρ I _))) :
    C (ExceptT.run (outbox.discharge : Effect ρ I Unit)) := by
  rw [changes] at deletes sets
  rw [discharge]
  cases held : outbox.batch? with
  | none => exact h.pure _
  | some batch =>
      rw [held] at deletes sets
      exact h.andThen (h.lift (h.report _ rfl)) fun _ =>
        Batch.closed_applyAll h deletes fun change member => sets change member batch.ttl

end

theorem Outbox.records_discharge {outbox : Outbox E} (h : outbox.Within P) :
    Act.Records P (ExceptT.run (outbox.discharge : Effect ρ I Unit)) :=
  Outbox.closed_discharge (Act.closed_records P) (fun change _ => Act.records_delete change.key)
    fun change member ttl => (Outbox.within_iff.1 h change member).mono fun _ _ fits => Act.records_set fits ttl

end Lookaside
