import Lookaside.Proofs.Entity
import Lookaside.Proofs.Key
import Lookaside.Proofs.Session
import Mathlib

/-!
# Two policies on one cache

A scan for one type takes up whatever lies under a key that starts with the family key of the type.
Policies of two types that share a cache are therefore kept apart just if nothing that one of them may
write looks like an item of the other; it is enough that neither family key starts the other.
-/

namespace Lookaside

inductive Side where
  | first
  | second
deriving DecidableEq, Repr

structure Shared (ρ A B : Type) where
  world : World ρ
  first : List (Outbox A)
  second : List (Outbox B)
  log : List (Written Side)

namespace Shared

variable {ρ A B I J : Type} [Entity A I] [Entity B J]

def start (memory : Memory) (faults : Cache.Faults) (keeper : ρ) : Shared ρ A B :=
  ⟨⟨⟨memory, faults, 0⟩, keeper⟩, [], [], []⟩

def step (p : Policy ρ A) (q : Policy ρ B) (s : Shared ρ A B) :
    Move ρ A I ⊕ Move ρ B J → Shared ρ A B
  | .inl move =>
    let r := (move.step p).run ⟨s.world, s.first⟩
    ⟨r.state.world, r.state.held, s.second, s.log ++ Written.ofNotes .first r.notes⟩
  | .inr move =>
    let r := (move.step q).run ⟨s.world, s.second⟩
    ⟨r.state.world, s.first, r.state.held, s.log ++ Written.ofNotes .second r.notes⟩

def play (p : Policy ρ A) (q : Policy ρ B) (moves : List (Move ρ A I ⊕ Move ρ B J))
    (s : Shared ρ A B) : Shared ρ A B :=
  moves.foldl (step p q) s

end Shared

section

variable {ρ E I : Type} [Entity E I]

/-- What policies of a type may write: the marker, or an entity under an item key. -/
def Deposit (E : Type) {I : Type} [Entity E I] (key : String) (value : Bytes) : Prop :=
  (key = Key.family E ∧ value = Marker.bytes) ∨
    ∃ (id : I) (e : E), Entity.hasIdentity e = true ∧ Key.item E id = .ok key ∧
      Entity.encode e = .ok value

theorem Policy.within_deposit (p : Policy ρ E) : p.Within (Deposit E) where
  mark _ := .inl ⟨rfl, rfl⟩
  store e _ _ identity keyed encoded := .inr ⟨_, e, identity, keyed, encoded⟩

theorem Operation.within_deposit (operation : Operation ρ E I) : operation.Within (Deposit E) := by
  cases operation with
  | get id fetch =>
      intro k e found identity key bytes keyed encoded
      exact .inr ⟨id, e, identity, keyed, encoded⟩
  | _ => trivial

theorem Deposit.family_prefix {key : String} {value : Bytes} (h : Deposit E key value) :
    (Key.family E).toList <+: key.toList := by
  rcases h with ⟨rfl, -⟩ | ⟨id, e, -, keyed, -⟩
  · exact List.prefix_refl _
  · rw [← (Key.item_ok_iff.1 keyed).2, String.toList_append]
    exact List.prefix_append _ _

theorem Deposit.item {key : String} {value : Bytes} (h : Deposit E key value)
    (item : Key.isItem E key = true) : ∃ id, Key.item E id = .ok key := by
  rcases h with ⟨rfl, -⟩ | ⟨id, e, -, keyed, -⟩
  · rw [Key.isItem_family] at item
    cases item
  · exact ⟨id, keyed⟩

end

variable {A B I J : Type} [Entity A I] [Entity B J]

/-- Whatever policies of two types do with the cache they share, a scan for the first type that answers
without the repository gives entities that the first policy was the last to write under item keys. -/
def ScanIsolated (A B : Type) {I J : Type} [Entity A I] [Entity B J] : Prop :=
  ∀ (ρ : Type) (p : Policy ρ A) (q : Policy ρ B) (capacity : Nat) (memory : Memory)
    (faults : Cache.Faults) (keeper : ρ) (moves : List (Move ρ A I ⊕ Move ρ B J))
    (fetch : List I → Call ρ (List (Option A))) (es : List A),
    p.source = .scan → Memory.create capacity = .ok memory →
    let shared := Shared.play p q moves (.start memory faults keeper)
    let answer := (p.getMany [] fetch).run shared.world
    answer.value.result = .ok es → answer.notes.filterMap Note.errand? = [] →
    ∀ e ∈ es, ∃ (id : I) (key : String) (value : Bytes), Key.item A id = .ok key ∧
      Written.latest? shared.log key = some ⟨.first, key, value⟩ ∧ Entity.decode? value = some e

/-- Policies of the second type may write what reads as an item of the first. -/
def Clash (A B : Type) {I J : Type} [Entity A I] [Entity B J] : Prop :=
  ∃ key value, Deposit B key value ∧ Key.isItem A key = true ∧
    ∃ e : A, Entity.decode? value = some e

theorem not_clash_of_families (h : ¬ (Key.family A).toList <+: (Key.family B).toList)
    (h' : ¬ (Key.family B).toList <+: (Key.family A).toList) : ¬ Clash A B := by
  rintro ⟨key, value, deposit, item, -⟩
  obtain ⟨rest, -, rfl⟩ := Key.isItem_iff.1 item
  have own : (Key.family A).toList <+: (Key.family A ++ rest).toList := by
    rw [String.toList_append]
    exact List.prefix_append _ _
  cases List.prefix_or_prefix_of_prefix own deposit.family_prefix with
  | inl first => exact h first
  | inr second => exact h' second

namespace Shared

variable {ρ : Type} {p : Policy ρ A} {q : Policy ρ B} {s : Shared ρ A B}

structure Sound (s : Shared ρ A B) : Prop where
  first : Session.Sound (Deposit A) .first s.log ⟨s.world, s.first⟩
  second : Session.Sound (Deposit B) .second s.log ⟨s.world, s.second⟩

theorem other_writer {E : Type} [Entity E I] {P : String → Bytes → Prop} {t t' : Side} (other : t ≠ t')
    {w w' : World ρ} {held : List (Outbox E)} {log : List (Written Side)} {notes : List (Note J)}
    (h : Session.Sound P t' log ⟨w, held⟩)
    (explained : w'.link.memory.store.Explained (log ++ Written.ofNotes t notes)) :
    Session.Sound P t' (log ++ Written.ofNotes t notes) ⟨w', held⟩ where
  held := h.held
  explained := explained
  written v member writer := by
    cases List.mem_append.1 member with
    | inl before => exact h.written v before writer
    | inr now =>
        obtain ⟨_, -, rfl⟩ := List.mem_map.1 now
        exact absurd writer other

theorem sound_step (h : s.Sound) (move : Move ρ A I ⊕ Move ρ B J) : (s.step p q move).Sound := by
  cases move with
  | inl move =>
      have sound := move.sound_step p.within_deposit (fun o _ => o.within_deposit) h.first
      exact ⟨sound, other_writer (by decide) h.second sound.explained⟩
  | inr move =>
      have sound := move.sound_step q.within_deposit (fun o _ => o.within_deposit) h.second
      exact ⟨other_writer (by decide) h.first sound.explained, sound⟩

theorem sound_play (h : s.Sound) (moves : List (Move ρ A I ⊕ Move ρ B J)) :
    (play p q moves s).Sound := by
  induction moves generalizing s with
  | nil => exact h
  | cons move moves ih => exact ih (sound_step h move)

end Shared

theorem scanIsolated_of_not_clash (h : ¬ Clash A B) : ScanIsolated A B := by
  intro ρ p q capacity memory faults keeper moves fetch es source made shared answer result silent e
    member
  have sound : shared.Sound :=
    Shared.sound_play ⟨Session.sound_start made faults keeper, Session.sound_start made faults keeper⟩ _
  obtain ⟨counter?, -, found, -⟩ := Policy.readAll_hit (Policy.readCached_of_getMany result silent)
  rw [Policy.found, source] at found
  subst found
  obtain ⟨pair, listed, decoded⟩ := List.mem_filterMap.1 member
  obtain ⟨listed, item⟩ := List.mem_filter.1 listed
  obtain ⟨x, stored, -, -, rfl⟩ := Store.mem_scan.1 (Cache.Link.mem_values listed)
  obtain ⟨side, latest⟩ := sound.first.explained x stored
  have logged := (Written.latest?_some latest).1
  cases side with
  | first =>
      obtain ⟨id, keyed⟩ := (sound.first.written _ logged rfl).item item
      exact ⟨id, _, _, keyed, latest, decoded⟩
  | second => exact absurd ⟨_, _, sound.second.written _ logged rfl, item, e, decoded⟩ h

theorem scanIsolated_of_families (h : ¬ (Key.family A).toList <+: (Key.family B).toList)
    (h' : ¬ (Key.family B).toList <+: (Key.family A).toList) : ScanIsolated A B :=
  scanIsolated_of_not_clash (not_clash_of_families h h')

def World.single (requests : Nat) (entries : List Entry) : World Unit :=
  ⟨⟨⟨⟨1, entries⟩, Span.ofSeconds 1⟩, .never, requests⟩, ()⟩

theorem World.single_scan (n : Nat) (start : String) :
    (single n []).link.scan start = (.ok [], (single (n + 1) []).link) := by
  simp [single, Cache.Link.scan, Cache.Link.fault?, Cache.Faults.never, Memory.scan, Store.scan,
    Cache.Link.after]

theorem World.single_discharge_store {key : String} {e : B} {value : Bytes} (n : Nat)
    (encoded : Entity.encode e = .ok value) :
    Step.run (ExceptT.run ((Outbox.holding ⟨[.store key e], none⟩).discharge : Effect Unit J Unit))
        (.single n []) =
      ⟨.ok (), .single (n + 1) [⟨key, value, none⟩],
        [.event (.discharging 1), .exchange (.set key value none (.ok ()))]⟩ := by
  simp only [Outbox.discharge, Outbox.holding, Batch.apply, Batch.applyAll, Change.apply, encoded]
  rfl

theorem World.single_discharge_mark {key : String} (n : Nat) :
    Step.run (ExceptT.run
        ((Outbox.holding ⟨[.mark key], none⟩ : Outbox B).discharge : Effect Unit J Unit))
        (.single n []) =
      ⟨.ok (), .single (n + 1) [⟨key, Marker.bytes, none⟩],
        [.event (.discharging 1), .exchange (.set key Marker.bytes none (.ok ()))]⟩ := rfl

theorem World.single_outbox_get {id : J} {e : B} {key : String} (identity : Entity.hasIdentity e = true)
    (keyed : Key.item B id = .ok key) (fetch : J → Call Unit (Option B))
    (found : (fetch id ()).1 = .ok (some e)) :
    (((Operation.get id fetch).outbox (.new .new)).run (.single 0 [])).value =
        .holding ⟨[.store key e], none⟩ ∧
      (((Operation.get id fetch).outbox (.new .new)).run (.single 0 [])).state = .single 1 [] := by
  have missing : ((World.single 0 []).link.value? key).bind (Entity.decode? (E := B)) = none := rfl
  obtain ⟨value, state, -⟩ := Policy.get_of_miss keyed (.new .new) fetch missing
  rw [Operation.outbox, Step.run_bind, value, state, show (World.single 0 []).keeper = () from rfl,
    found, Policy.fetched, if_pos identity]
  exact ⟨rfl, rfl⟩

theorem World.single_outbox_getMany :
    let p : Policy Unit B := .new ⟨false, true, none⟩
    let operation : Operation Unit B J := .getMany [] fun _ k => (.ok [], k)
    ((operation.outbox p).run (.single 0 [])).value = .holding ⟨[.mark (Key.family B)], none⟩ ∧
      ((operation.outbox p).run (.single 0 [])).state = .single 2 [] := by
  intro p operation
  have scanned : (Lookup.family : Act Unit J (List B)).run (.single 0 []) =
      ⟨[], .single 1 [], [.exchange (.scan (Key.family B) (.ok []))]⟩ := by
    rw [Lookup.family, Step.run_bind, Act.run_scan, World.single_scan]
    rfl
  have cached : ((p.readCached ([] : List J)).run (.single 0 [])).value = .ok none ∧
      ((p.readCached ([] : List J)).run (.single 0 [])).state = .single 2 [] := by
    show ((p.readAll : Act Unit J _).run (.single 0 [])).value = _ ∧
      ((p.readAll : Act Unit J _).run (.single 0 [])).state = _
    rw [Policy.readAll, show p.validator (I := J) = .ok none from rfl]
    dsimp only
    rw [Step.run_bind, show (p.readSource : Act Unit J _) = Lookup.family from rfl, scanned]
    exact ⟨rfl, rfl⟩
  obtain ⟨value, state, -⟩ := Policy.getMany_of_miss cached.1 fun _ k => (.ok [], k)
  rw [Operation.outbox, Step.run_bind, value, state, cached.2]
  exact ⟨rfl, rfl⟩

theorem Shared.play_second (p : Policy Unit A) {q : Policy Unit B} {operation : Operation Unit B J}
    {outbox : Outbox B} {n m : Nat} {entries : List Entry} {notes : List (Note J)}
    (value : ((operation.outbox q).run (.single 0 [])).value = outbox)
    (state : ((operation.outbox q).run (.single 0 [])).state = .single n [])
    (discharged : Step.run (ExceptT.run (outbox.discharge : Effect Unit J Unit)) (.single n []) =
      ⟨.ok (), .single m entries, notes⟩) :
    let s := play (I := I) p q [.inr (.call operation), .inr (.discharge 0)]
      (.start ⟨⟨1, []⟩, Span.ofSeconds 1⟩ .never ())
    s.world = .single m entries ∧ ∀ v ∈ s.log, v.writer = .second := by
  intro s
  constructor
  · show (Outcome.state ((Move.discharge 0).step q ⟨((operation.outbox q).run (.single 0 [])).state,
      [((operation.outbox q).run (.single 0 [])).value]⟩)).world = _
    rw [value, state]
    exact congrArg Outcome.state discharged
  · intro v logged
    cases List.mem_append.1 logged with
    | inl first =>
        obtain ⟨_, -, rfl⟩ := List.mem_map.1 first
        rfl
    | inr second =>
        obtain ⟨_, -, rfl⟩ := List.mem_map.1 second
        rfl

theorem Deposit.played {key : String} {value : Bytes} (h : Deposit B key value) (p : Policy Unit A) :
    ∃ (q : Policy Unit B) (moves : List (Move Unit A I ⊕ Move Unit B J)) (n : Nat),
      let s := Shared.play p q moves (.start ⟨⟨1, []⟩, Span.ofSeconds 1⟩ .never ())
      s.world = .single n [⟨key, value, none⟩] ∧ ∀ v ∈ s.log, v.writer = .second := by
  rcases h with ⟨rfl, rfl⟩ | ⟨id, e, identity, keyed, encoded⟩
  · have left := World.single_outbox_getMany (B := B)
    exact ⟨_, _, _, Shared.play_second p left.1 left.2 (World.single_discharge_mark 2)⟩
  · have left := World.single_outbox_get identity keyed (fun _ k => (.ok (some e), k)) rfl
    exact ⟨_, _, _, Shared.play_second p left.1 left.2 (World.single_discharge_store 1 encoded)⟩

theorem not_scanIsolated_of_clash (h : Clash A B) : ¬ ScanIsolated A B := by
  obtain ⟨key, value, deposit, item, e, decoded⟩ := h
  intro isolated
  let p : Policy Unit A := .new .new
  obtain ⟨q, moves, n, world, log⟩ := deposit.played p
  -- the first policy scans what only the second has written
  have found : p.found (World.single n [⟨key, value, none⟩]).link = [e] := by
    have starts : (Key.family A).toList.isPrefixOf key.toList = true := by
      rw [Key.isItem, Bool.and_eq_true] at item
      exact item.1
    show Lookup.listed A
      (Store.scan ⟨1, [⟨key, value, none⟩]⟩ (Span.ofSeconds 1) (Key.family A)) = [e]
    simp [Store.scan, Lookup.listed, starts, item, decoded, Entry.isExpired]
  have hit : ((p.readCached ([] : List I)).run (World.single n [⟨key, value, none⟩])).value =
      .ok (some [e]) := by
    rw [← found]
    exact Policy.readAll_of_found rfl (by rw [found]; exact List.cons_ne_nil _ _) (Policy.agrees_none _ _)
  let fetch : List I → Call Unit (List (Option A)) := fun _ k => (.ok [], k)
  have answer := Policy.getMany_of_hit hit fetch
  obtain ⟨id, key', value', -, latest, -⟩ := isolated Unit p q 1 _ .never () moves fetch [e] rfl rfl
    (by rw [world, answer]; rfl) (by rw [world, answer]; exact p.errands_readCached [] _) e
    List.mem_cons_self
  have writer := log _ (Written.latest?_some latest).1
  cases writer

theorem scanIsolated_iff : ScanIsolated A B ↔ ¬ Clash A B :=
  ⟨fun isolated clash => not_scanIsolated_of_clash clash isolated, scanIsolated_of_not_clash⟩

theorem clash_member : Clash Member MemberExt :=
  ⟨"uRepo_Member_Ext_1", MemberExt.format.encode ⟨1, "ada", none⟩,
    .inr ⟨1, ⟨1, "ada", none⟩, rfl, by cbv, rfl⟩, by cbv, ⟨1, "ada"⟩, by cbv⟩

theorem members_not_scanIsolated :
    Entity.typeName Member ≠ Entity.typeName MemberExt ∧ ¬ ScanIsolated Member MemberExt :=
  ⟨by decide, not_scanIsolated_of_clash clash_member⟩

end Lookaside
