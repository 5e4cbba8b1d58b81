import Lookaside.Proofs.Key
import Lookaside.Proofs.Reading
import Mathlib

/-!
# Lookups that bring nothing

A request that fails and a value that cannot be used count as absent. So a lookup finds what it would
find in a cache that never fails and that does not hold what was not read.
-/

namespace Lookaside

variable {ρ E I α β : Type}

/-! ## A store without some of its keys -/

namespace Store

variable {s : Store}

def without (s : Store) (lost : String → Bool) : Store :=
  { s with entries := s.entries.filter fun e => !lost e.key }

theorem WellFormed.without (wf : s.WellFormed) (lost : String → Bool) : (s.without lost).WellFormed :=
  ⟨wf.distinct.sublist (List.filter_sublist.map _),
    Nat.le_trans (List.length_filter_le _ _) wf.bounded⟩

theorem find?_without (s : Store) (lost : String → Bool) (key : String) :
    (s.without lost).find? key = if lost key then none else s.find? key := by
  rw [find?, find?, without, List.find?_filter]
  split
  · next gone =>
      refine List.find?_eq_none.2 fun x _ => ?_
      simp only [decide_eq_true_eq, Bool.not_eq_true', not_and]
      rintro kept rfl
      exact Bool.false_ne_true (kept.symm.trans gone)
  · next kept =>
      congr 1
      funext x
      by_cases same : x.key = key <;> simp [same, kept]

theorem lookup?_without (s : Store) (lost : String → Bool) (now : Nat) (key : String) :
    (s.without lost).lookup? now key = if lost key then none else s.lookup? now key := by
  rw [lookup?, lookup?, find?_without]
  split <;> rfl

theorem scan_sorted (s : Store) (now : Nat) (start : String) :
    (s.scan now start).Pairwise fun a b => a.1 ≤ b.1 := by
  have sorted : (s.scan now start).Pairwise fun a b => decide (a.1 ≤ b.1) = true := by
    refine List.pairwise_mergeSort (fun a b c => ?_) (fun a b => ?_) _
    · simpa only [decide_eq_true_eq] using le_trans
    · simpa only [Bool.or_eq_true, decide_eq_true_eq] using le_total a.1 b.1
  simpa only [decide_eq_true_eq] using sorted

theorem scan_perm (s : Store) (now : Nat) (start : String) :
    (s.scan now start).Perm ((s.entries.filter fun e =>
      start.toList.isPrefixOf e.key.toList && !e.isExpired now).map fun e => (e.key, e.value)) :=
  List.mergeSort_perm _ _

theorem WellFormed.scan_without (wf : s.WellFormed) (lost : String → Bool) (now : Nat) (start : String) :
    (s.without lost).scan now start = (s.scan now start).filter fun e => !lost e.1 := by
  have perm : ((s.without lost).scan now start).Perm
      ((s.scan now start).filter fun e => !lost e.1) := by
    refine ((s.without lost).scan_perm now start).trans (.trans (.of_eq ?_)
      ((s.scan_perm now start).symm.filter _))
    rw [Store.without, List.filter_filter, List.filter_map, List.filter_filter]
    simp only [Function.comp_def, Bool.and_comm]
  -- both are sorted by keys, of which there is one for each value
  refine List.Perm.eq_of_pairwise ?_ (scan_sorted _ _ _) ((s.scan_sorted now start).filter _) perm
  intro a b ha hb le ge
  exact List.inj_on_of_nodup_map (wf.scan_distinct now start)
    (List.mem_of_mem_filter (perm.mem_iff.1 ha)) (List.mem_of_mem_filter hb) (le_antisymm le ge)

end Store

variable [Entity E I]

/-! ## What is not read -/

variable (E) in
def Key.isUsable (key : String) (value : Bytes) : Bool :=
  if key = Key.family E then Marker.isMarker value else (Entity.decode? value : Option E).isSome

variable (E) in
def Cache.Exchange.misses : Exchange → String → Bool
  | .get key (.error _), k => k = key
  | .get key (.ok found), k => k = key && found.any fun value => !Key.isUsable E key value
  | .scan _ (.error _), k => Key.isItem E k
  | .scan _ (.ok found), k => Key.isItem E k && found.any fun e => e.1 = k && !Key.isUsable E k e.2
  | _, _ => false

namespace Note

variable (E) in
def unread (notes : List (Note I)) (key : String) : Bool :=
  (notes.filterMap exchange?).any (·.misses E key)

theorem unread_append (notes notes' : List (Note I)) (key : String) :
    unread E (notes ++ notes') key = (unread E notes key || unread E notes' key) := by
  rw [unread, List.filterMap_append, List.any_append]
  rfl

theorem unread_silent {notes : List (Note I)} (h : notes.filterMap exchange? = []) (key : String) :
    unread E notes key = false := by
  rw [unread, h]
  rfl

end Note

namespace Cache.Link

variable {l l' : Link} {lost : String → Bool}

structure Lacks (lost : String → Bool) (l l' : Link) : Prop where
  faults : l'.faults = .never
  memory : l'.memory = { l.memory with store := l.memory.store.without lost }

theorem filter_value? (l : Link) (key : String) :
    (l.value? key).filter (Key.isUsable E key) = if (Exchange.get key (l.get key).1).misses E key then none
      else (l.memory.store.lookup? l.memory.now key).filter (Key.isUsable E key) := by
  rw [value?, get]
  cases l.fault? (.get key) with
  | some e => simp [Exchange.misses, Except.toOption]
  | none =>
      show Option.filter _ (l.memory.store.lookup? l.memory.now key) = _
      rw [Exchange.misses, Memory.get]
      cases l.memory.store.lookup? l.memory.now key with
      | none => simp
      | some value => cases usable : Key.isUsable E key value <;> simp [usable]

theorem Lacks.filter_value? (h : Lacks lost l l') {key : String}
    (own : lost key = (Exchange.get key (l.get key).1).misses E key) :
    (l'.value? key).filter (Key.isUsable E key) = (l.value? key).filter (Key.isUsable E key) := by
  rw [value?_never h.faults, h.memory, Store.lookup?_without, own, Link.filter_value? l key]
  split <;> rfl

end Cache.Link

/-! ## Two runs -/

namespace Note

def asked (notes : List (Note I)) : List (Note I) :=
  notes.filter fun note => note.exchange?.isNone && note.event?.isNone

theorem asked_append (notes notes' : List (Note I)) : asked (notes ++ notes') = asked notes ++ asked notes' :=
  List.filter_append _ _

theorem asked_lookups {notes : List (Note I)} (h : ∀ note ∈ notes, note.IsLookup) : asked notes = [] := by
  refine List.filter_eq_nil_iff.2 fun note member => ?_
  cases h note member <;> exact Bool.false_ne_true

end Note

namespace Act

open Note

variable {x : Act ρ I α} {f : α → Act ρ I β} {w w' : World ρ}

structure Alike (x : Act ρ I α) (w w' : World ρ) : Prop where
  value : (x.run w').value = (x.run w).value
  keeper : (x.run w').state.keeper = (x.run w).state.keeper
  asked : Note.asked (x.run w').notes = Note.asked (x.run w).notes

theorem Alike.next (hx : Alike x w w')
    (hf : Alike (f (x.run w).value) (x.run w).state (x.run w').state) : Alike (x >>= f) w w' := by
  refine ⟨?_, ?_, ?_⟩ <;> rw [Step.run_bind, Step.run_bind, hx.value]
  · exact hf.value
  · exact hf.keeper
  · rw [asked_append, asked_append, hx.asked, hf.asked]

theorem LooksUp.alike (h : LooksUp x) (keeper : w'.keeper = w.keeper)
    (value : (x.run w').value = (x.run w).value) : Alike x w w' where
  value := value
  keeper := by rw [h.keeper, h.keeper, keeper]
  asked := by rw [asked_lookups (h.lookups w), asked_lookups (h.lookups w')]

structure Blind (x : Act ρ I α) : Prop where
  alike : ∀ w w', w'.keeper = w.keeper → Alike x w w'
  silent : ∀ w, (x.run w).notes.filterMap exchange? = []

theorem Blind.bind (hx : Blind x) (hf : ∀ a, Blind (f a)) : Blind (x >>= f) where
  alike w w' same := (hx.alike w w' same).next ((hf _).alike _ _ (hx.alike w w' same).keeper)
  silent w := by rw [Step.run_bind, List.filterMap_append, hx.silent, (hf _).silent, List.append_nil]

theorem Reports.blind {a : α} (h : Reports x a) : Blind x where
  alike w w' same := h.looksUp.alike same ((h.value w').trans (h.value w).symm)
  silent w := List.filterMap_eq_nil_iff.2 fun note member => by
    obtain ⟨e, rfl⟩ := h.events w note member
    rfl

theorem blind_pure (a : α) : Blind (pure a : Act ρ I α) :=
  (reports_pure a).blind

theorem blind_report (e : Log.Event) : Blind (report e : Act ρ I Unit) :=
  (reports_report e).blind

theorem blind_call (errand : Errand I) (f : Call ρ α) : Blind (Act.call errand f) where
  alike _ _ same := ⟨congrArg (fun k => (f k).1) same, congrArg (fun k => (f k).2) same, rfl⟩
  silent _ := rfl

theorem blind_count (f : Call ρ Nat) : Blind (count f : Act ρ I _) where
  alike _ _ same := ⟨congrArg (fun k => (f k).1) same, congrArg (fun k => (f k).2) same,
    congrArg (fun k => [Note.counted (f k).1]) same⟩
  silent _ := rfl

theorem Alike.thenBlind (hx : Alike x w w') (hf : ∀ a, Blind (f a)) : Alike (x >>= f) w w' :=
  hx.next ((hf _).alike _ _ hx.keeper)

end Act

def World.without (w : World ρ) (lost : String → Bool) : World ρ :=
  { w with link := ⟨{ w.link.memory with store := w.link.memory.store.without lost }, .never,
    w.link.requests⟩ }

theorem World.lacks_without (w : World ρ) (lost : String → Bool) :
    w.link.Lacks lost (w.without lost).link :=
  ⟨rfl, rfl⟩

/-- An act comes to the same as with a cache that does not hold what was not read. -/
def Act.Misses (E : Type) [Entity E I] (x : Act ρ I α) (w : World ρ) : Prop :=
  Alike x w (w.without (Note.unread E (x.run w).notes))

theorem Act.Blind.misses {x : Act ρ I α} (h : Blind x) (w : World ρ) : Misses E x w :=
  h.alike _ _ rfl

theorem Act.Misses.bind {x : Act ρ I α} {f : α → Act ρ I β} {w : World ρ} (hx : Misses E x w)
    (hf : ∀ a, Blind (f a)) : Misses E (x >>= f) w := by
  have same : Note.unread E ((x >>= f).run w).notes = Note.unread E (x.run w).notes := by
    funext key
    rw [Step.run_bind, Note.unread_append, Note.unread_silent ((hf _).silent _), Bool.or_false]
  rw [Misses, same]
  exact hx.thenBlind hf

namespace Lookup

open Act Note

variable {w w' : World ρ} {lost : String → Bool} {key : String}

theorem exchanges_one (key : String) (w : World ρ) :
    ((one key : Act ρ I (Option E)).run w).notes.filterMap exchange? =
      [.get key (w.link.get key).1] := by
  rw [one, Step.run_bind, run_get]
  cases (w.link.get key).1 with
  | error error => rfl
  | ok found =>
      cases found with
      | none => rfl
      | some bytes =>
          dsimp only
          split <;> rfl

theorem exchanges_marker (w : World ρ) :
    ((marker E : Act ρ I Bool).run w).notes.filterMap exchange? =
      [.get (Key.family E) (w.link.get (Key.family E)).1] := by
  rw [marker, Step.run_bind, run_get]
  cases (w.link.get (Key.family E)).1 with
  | error error => rfl
  | ok found => cases found <;> rfl

theorem exchanges_family (w : World ρ) :
    ((family : Act ρ I (List E)).run w).notes.filterMap exchange? =
      [.scan (Key.family E) (w.link.scan (Key.family E)).1] := by
  rw [family, Step.run_bind, run_scan]
  cases (w.link.scan (Key.family E)).1 with
  | error error => rfl
  | ok entries =>
      dsimp only
      rw [List.filterMap_append, (reports_decodeAll _).blind.silent]
      rfl

/-! ## Lookups by key -/

theorem filter_bind_decode? (item : key ≠ Key.family E) (value? : Option Bytes) :
    (value?.filter (Key.isUsable E key)).bind Entity.decode? = (value?.bind Entity.decode? : Option E) := by
  cases value? with
  | none => rfl
  | some value =>
      cases decoded : (Entity.decode? value : Option E) <;>
        simp [Option.filter, Key.isUsable, item, decoded]

theorem unread_one (key : String) (w : World ρ) :
    unread E ((one key : Act ρ I (Option E)).run w).notes =
      (Cache.Exchange.get key (w.link.get key).1).misses E := by
  funext k
  rw [unread, exchanges_one, List.any_cons, List.any_nil, Bool.or_false]

theorem read_one (item : key ≠ Key.family E) (w : World ρ) :
    ((one key : Act ρ I (Option E)).run w).value =
      if unread E ((one key : Act ρ I (Option E)).run w).notes key then none
      else (w.link.memory.store.lookup? w.link.memory.now key).bind Entity.decode? := by
  rw [value_one, ← filter_bind_decode? item, Cache.Link.filter_value?, unread_one]
  split
  · rfl
  · rw [filter_bind_decode? item]

theorem unread_one_of_some (item : key ≠ Key.family E) {e : E}
    (found : ((one key : Act ρ I (Option E)).run w).value = some e) (k : String) :
    unread E ((one key : Act ρ I (Option E)).run w).notes k = false := by
  by_cases own : k = key
  · subst own
    rw [read_one item] at found
    split at found
    · cases found
    · next kept => simpa using kept
  · rw [unread_one]
    cases (w.link.get key).1 <;> simp [Cache.Exchange.misses, own]

theorem misses_one (item : key ≠ Key.family E) (w : World ρ) :
    Misses E (one key : Act ρ I (Option E)) w := by
  refine (looksUp_one key).alike rfl ?_
  have lacks := w.lacks_without (unread E ((one key : Act ρ I (Option E)).run w).notes)
  rw [value_one, value_one, ← filter_bind_decode? item, lacks.filter_value? (by rw [unread_one]),
    filter_bind_decode? item]

variable {requested : Nat} {keys : List String}

theorem allOf_cons_some {e : E} (found : ((one key : Act ρ I (Option E)).run w).value = some e) :
    let rest := (allOf requested keys : Act ρ I (Option (List E))).run
      ((one key : Act ρ I (Option E)).run w).state
    (allOf requested (key :: keys) : Act ρ I (Option (List E))).run w =
      ⟨rest.value.map (e :: ·), rest.state,
        ((one key : Act ρ I (Option E)).run w).notes ++ rest.notes⟩ := by
  rw [allOf, Step.run_bind, found]
  simp

theorem allOf_cons_none (found : ((one key : Act ρ I (Option E)).run w).value = none) :
    ((allOf requested (key :: keys) : Act ρ I (Option (List E))).run w).value = none := by
  rw [allOf, Step.run_bind, found]
  rfl

theorem allOf_unread (items : ∀ key ∈ keys, key ≠ Key.family E)
    (h : unread E ((allOf requested keys : Act ρ I (Option (List E))).run w).notes key = true) :
    ((allOf requested keys : Act ρ I (Option (List E))).run w).value = none := by
  induction keys generalizing w with
  | nil => cases h
  | cons first keys ih =>
      rw [List.forall_mem_cons] at items
      cases found : ((one first : Act ρ I (Option E)).run w).value with
      | none => exact allOf_cons_none found
      | some e =>
          rw [allOf_cons_some found] at h ⊢
          rw [unread_append, unread_one_of_some items.1 found, Bool.false_or] at h
          exact congrArg (Option.map _) (ih items.2 h)

theorem read_allOf (items : ∀ key ∈ keys, key ≠ Key.family E) (wf : w.link.memory.store.WellFormed) :
    let r := (allOf requested keys : Act ρ I (Option (List E))).run w
    r.value = keys.mapM fun key => if unread E r.notes key then none
      else (w.link.memory.store.lookup? w.link.memory.now key).bind Entity.decode? := by
  induction keys generalizing w with
  | nil => rfl
  | cons first keys ih =>
      rw [List.forall_mem_cons] at items
      have read := read_one (ρ := ρ) (I := I) items.1 w
      have reads := (looksUp_one (E := E) (I := I) first).link w
      cases found : ((one first : Act ρ I (Option E)).run w).value with
      | none =>
          rw [found] at read
          have gone : (if unread E ((allOf requested (first :: keys) : Act ρ I (Option (List E))).run w).notes
              first then none else (w.link.memory.store.lookup? w.link.memory.now first).bind
                (Entity.decode? (E := E))) = none := by
            split
            · rfl
            · next kept =>
                rw [allOf, Step.run_bind, unread_append, Bool.or_eq_true, not_or] at kept
                rw [if_neg kept.1] at read
                exact read.symm
          intro r
          rw [List.mapM_cons, gone]
          exact allOf_cons_none found
      | some e =>
          have kept := unread_one_of_some items.1 found
          rw [found, if_neg (by simp [kept])] at read
          have rest := ih (w := ((one first : Act ρ I (Option E)).run w).state) items.2
            (reads.touched.wellFormed wf)
          have lost_rest : unread E ((allOf requested keys : Act ρ I (Option (List E))).run
              ((one first : Act ρ I (Option E)).run w).state).notes first = true → _ :=
            allOf_unread items.2
          rw [allOf_cons_some found]
          simp only [reads.now, reads.touched.lookup?_eq wf] at rest
          simp only [List.mapM_cons, unread_append, kept, Bool.false_or, ← read, ← rest]
          -- the first key may come again, and then be lost
          split
          · next lost => rw [lost_rest lost]; rfl
          · simp [Option.map_eq_bind]

theorem allOf_never (never : w.link.faults = .never) (wf : w.link.memory.store.WellFormed) :
    ((allOf requested keys : Act ρ I (Option (List E))).run w).value = keys.mapM fun key =>
      (w.link.memory.store.lookup? w.link.memory.now key).bind Entity.decode? := by
  induction keys generalizing w with
  | nil => rfl
  | cons key keys ih =>
      have read := value_one (E := E) (I := I) key w
      have reads := (looksUp_one (E := E) (I := I) key).link w
      rw [Cache.Link.value?_never never] at read
      rw [List.mapM_cons, ← read]
      cases found : ((one key : Act ρ I (Option E)).run w).value with
      | none => exact allOf_cons_none found
      | some e =>
          have rest := ih (reads.faults.trans never) (reads.touched.wellFormed wf)
          simp only [reads.now, reads.touched.lookup?_eq wf] at rest
          rw [allOf_cons_some found, ← rest]
          exact Option.map_eq_bind

theorem misses_allOf (items : ∀ key ∈ keys, key ≠ Key.family E) (wf : w.link.memory.store.WellFormed) :
    Misses E (allOf requested keys : Act ρ I (Option (List E))) w := by
  refine (looksUp_allOf requested keys).alike rfl ?_
  rw [allOf_never rfl (wf.without _), read_allOf items wf]
  congr 1
  funext key
  simp only [World.without, Store.lookup?_without]
  split <;> rfl

/-! ## Lookups of a family -/

theorem unread_family (w : World ρ) :
    unread E ((family : Act ρ I (List E)).run w).notes =
      (Cache.Exchange.scan (Key.family E) (w.link.scan (Key.family E)).1).misses E := by
  funext k
  rw [unread, exchanges_family, List.any_cons, List.any_nil, Bool.or_false]

theorem listed_without {entries : List (String × Bytes)}
    (useless : ∀ x ∈ entries, Key.isItem E x.1 = true → lost x.1 = true →
      (Entity.decode? x.2 : Option E) = none) :
    listed E (entries.filter fun e => !lost e.1) = listed E entries := by
  rw [listed, listed, List.filter_filter, List.filter_congr fun e _ => Bool.and_comm _ _,
    ← List.filter_filter, List.filterMap_filter]
  refine List.filterMap_congr fun x member => ?_
  obtain ⟨member, item⟩ := List.mem_filter.1 member
  split
  · rfl
  · next gone => exact (useless x member item (by simpa using gone)).symm

theorem listed_gone {entries : List (String × Bytes)}
    (gone : ∀ k, Key.isItem E k = true → lost k = true) :
    listed E (entries.filter fun e => !lost e.1) = [] := by
  rw [listed, List.filter_filter, List.filter_eq_nil_iff.2, List.filterMap_nil]
  intro x _
  simp only [Bool.and_eq_true, Bool.not_eq_true', not_and, Bool.not_eq_false]
  exact gone x.1

theorem useless_of_misses {entries : List (String × Bytes)} (distinct : (entries.map (·.1)).Nodup)
    {start : String} {x : String × Bytes} (member : x ∈ entries) (item : Key.isItem E x.1 = true)
    (missed : (Cache.Exchange.scan start (.ok entries)).misses E x.1 = true) :
    (Entity.decode? x.2 : Option E) = none := by
  simp only [Cache.Exchange.misses, Bool.and_eq_true, List.any_eq_true, decide_eq_true_eq] at missed
  obtain ⟨-, y, listed, same, useless⟩ := missed
  obtain rfl := List.inj_on_of_nodup_map distinct listed member same
  have other : y.1 ≠ Key.family E := by
    intro family
    rw [family, Key.isItem_family] at item
    cases item
  simpa [Key.isUsable, other] using useless

theorem alike_family (wf : w.link.memory.store.WellFormed) (lacks : w.link.Lacks lost w'.link)
    (keeper : w'.keeper = w.keeper) (own : ∀ k, Key.isItem E k = true →
      lost k = unread E ((family : Act ρ I (List E)).run w).notes k) :
    Alike (family : Act ρ I (List E)) w w' := by
  refine looksUp_family.alike keeper ?_
  rw [unread_family] at own
  rw [value_family, value_family, Cache.Link.values_never lacks.faults, lacks.memory, Memory.scan,
    wf.scan_without, Cache.Link.values]
  rw [Cache.Link.scan] at own ⊢
  cases fault : w.link.fault? (.scan (Key.family E)) with
  | some error =>
      rw [fault] at own
      exact listed_gone fun k item => (own k item).trans item
  | none =>
      rw [fault] at own
      refine listed_without fun x member item gone => ?_
      exact useless_of_misses (wf.scan_distinct _ _) member item ((own _ item).symm.trans gone)

theorem unread_marker (w : World ρ) :
    unread E ((marker E : Act ρ I Bool).run w).notes =
      (Cache.Exchange.get (Key.family E) (w.link.get (Key.family E)).1).misses E := by
  funext k
  rw [unread, exchanges_marker, List.any_cons, List.any_nil, Bool.or_false]

theorem isSome_filter_marker (value? : Option Bytes) :
    (value?.filter (Key.isUsable E (Key.family E))).isSome = (value?.map Marker.isMarker).getD false := by
  cases value? with
  | none => rfl
  | some value => cases marked : Marker.isMarker value <;> simp [Option.filter, Key.isUsable, marked]

theorem alike_marker (lacks : w.link.Lacks lost w'.link) (keeper : w'.keeper = w.keeper)
    (own : lost (Key.family E) = unread E ((marker E : Act ρ I Bool).run w).notes (Key.family E)) :
    Alike (marker E : Act ρ I Bool) w w' := by
  refine looksUp_marker.alike keeper ?_
  rw [unread_marker] at own
  rw [value_marker, value_marker, ← isSome_filter_marker (E := E), lacks.filter_value? own, isSome_filter_marker]

end Lookup

end Lookaside
