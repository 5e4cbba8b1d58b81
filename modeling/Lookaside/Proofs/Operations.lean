import Lookaside.Policy
import Lookaside.Proofs.Reading

namespace Lookaside.Policy

open Act Lookup

variable {ρ E I : Type} [Entity E I]

/-! ## Changes to be made -/

def cacheKey? (e : E) : Option String :=
  if Entity.hasIdentity e then (Key.item E (Entity.id e)).toOption else none

def stores (es : List E) : List (Change E) :=
  es.filterMap fun e => (cacheKey? e).map fun key => .store key e

def clears (e : E) : List (Change E) :=
  ((cacheKey? e).map Change.clear).toList

theorem cacheKey?_some {e : E} {key : String} :
    cacheKey? e = some key ↔
      Entity.hasIdentity e = true ∧ Key.item E (Entity.id e) = .ok key := by
  rw [cacheKey?]
  split
  · next identity => cases Key.item E (Entity.id e) <;> simp [Except.toOption, identity]
  · next identity => simp [identity]

theorem stores_singleton {e : E} {key : String} (h : cacheKey? e = some key) :
    stores [e] = [.store key e] := by
  rw [stores, List.filterMap_cons, h]
  rfl

theorem mem_stores {es : List E} {change : Change E} (h : change ∈ stores es) :
    ∃ e ∈ es, ∃ key, cacheKey? e = some key ∧ change = .store key e := by
  obtain ⟨e, member, found⟩ := List.mem_filterMap.1 h
  obtain ⟨key, cacheable, rfl⟩ := Option.map_eq_some_iff.1 found
  exact ⟨e, member, key, cacheable, rfl⟩

theorem store_mem_stores {es : List E} {e : E} (member : e ∈ es) {key : String}
    (cacheable : cacheKey? e = some key) : .store key e ∈ stores es :=
  List.mem_filterMap.2 ⟨e, member, by rw [cacheable]; rfl⟩

theorem clear_notMem_stores (es : List E) (key : String) : .clear key ∉ stores es := by
  intro cleared
  obtain ⟨e, -, key', -, stored⟩ := mem_stores cleared
  cases stored

theorem mem_clears {e : E} {change : Change E} (h : change ∈ clears e) :
    ∃ key, cacheKey? e = some key ∧ change = .clear key := by
  obtain ⟨key, cacheable, rfl⟩ := Option.map_eq_some_iff.1 (Option.mem_toList.1 h)
  exact ⟨key, cacheable, rfl⟩

theorem reports_identityKey (e : E) :
    Reports (identityKey e : Act ρ I (Option String)) (cacheKey? e) := by
  rw [identityKey, cacheKey?]
  split
  · split
    · next keyed => rw [keyed]; exact reports_pure _
    · next keyless => rw [keyless]; exact (reports_pure _).after _
  · exact reports_pure _

theorem reports_storing (e : E) : Reports (storing e : Act ρ I (List (Change E))) (stores [e]) := by
  refine (reports_identityKey e).bind ?_
  rw [stores, List.filterMap_cons]
  cases cacheKey? e <;> exact reports_pure _

theorem reports_clearing (e : E) : Reports (clearing e : Act ρ I (List (Change E))) (clears e) := by
  refine (reports_identityKey e).bind ?_
  rw [clears]
  cases cacheKey? e <;> exact reports_pure _

theorem reports_storingAll (es : List E) :
    Reports (storingAll es : Act ρ I (List (Change E))) (stores es) := by
  induction es with
  | nil => exact reports_pure _
  | cons e es ih =>
      have both : stores (e :: es) = stores [e] ++ stores es :=
        List.filterMap_append (l := [e])
      rw [both]
      exact (reports_storing e).bind (ih.bind (reports_pure _))

def collects (p : Policy ρ E) (all : Bool) (es : List E) : List (Change E) :=
  if all && es.isEmpty && p.options.allowZeroCount then [.mark (Key.family E)] else stores es

theorem mem_collects (p : Policy ρ E) {all : Bool} {es : List E} {change : Change E}
    (h : change ∈ p.collects all es) :
    change = .mark (Key.family E) ∧ all = true ∧ es = [] ∧ p.options.allowZeroCount = true ∨
      change ∈ stores es := by
  rw [collects] at h
  split at h
  · next marks =>
      simp only [Bool.and_eq_true, List.isEmpty_iff] at marks
      exact .inl ⟨List.mem_singleton.1 h, marks.1.1, marks.1.2, marks.2⟩
  · exact .inr h

theorem collects_of_mem (p : Policy ρ E) (all : Bool) {es : List E} {e : E} (member : e ∈ es) :
    p.collects all es = stores es := by
  rw [collects, if_neg]
  simp [List.ne_nil_of_mem member]

theorem reports_collecting (p : Policy ρ E) (all : Bool) (es : List E) :
    Reports (p.collecting all es : Act ρ I (List (Change E))) (p.collects all es) := by
  rw [collecting, collects]
  split
  · exact reports_pure _
  · exact reports_storingAll es

/-! ## Writing -/

def saved (p : Policy ρ E) (e : E) : Except RepositoryError E → Deferred E E
  | .ok persisted => p.scheduled (stores [persisted] ++ [.clear (Key.family E)]) (.ok persisted)
  | .error error => p.scheduled (clears e ++ [.clear (Key.family E)]) (.error (.repository error))

def keepSaved (p : Policy ρ E) (e : E) : Except RepositoryError E → Act ρ I (Deferred E E)
  | .ok persisted => do
    let changes ← storing persisted
    return p.scheduled (changes ++ [.clear (Key.family E)]) (.ok persisted)
  | .error error => do
    Act.report (.persistFailed (Entity.typeName E) error)
    let changes ← clearing e
    return p.scheduled (changes ++ [.clear (Key.family E)]) (.error (.repository error))

theorem reports_keepSaved (p : Policy ρ E) (e : E) (answer : Except RepositoryError E) :
    Reports (p.keepSaved e answer : Act ρ I _) (p.saved e answer) := by
  cases answer with
  | ok persisted => exact (reports_storing persisted).bind (reports_pure _)
  | error error => exact .after _ ((reports_clearing e).bind (reports_pure _))

theorem save_eq (p : Policy ρ E) (e : E) (persist : Call ρ E) :
    (p.save e persist : Act ρ I _) = Act.call .persist persist >>= p.keepSaved e := by
  refine bind_congr fun answer => ?_
  cases answer <;> rfl

theorem value_save (p : Policy ρ E) (e : E) (persist : Call ρ E) (w : World ρ) :
    ((p.save e persist).run w).value = p.saved e (persist w.keeper).1 := by
  rw [save_eq, Step.run_bind, run_call, (p.reports_keepSaved e _).value]

theorem state_save (p : Policy ρ E) (e : E) (persist : Call ρ E) (w : World ρ) :
    ((p.save e persist).run w).state = { w with keeper := (persist w.keeper).2 } := by
  rw [save_eq, Step.run_bind, run_call, (p.reports_keepSaved e _).state]

theorem errands_save (p : Policy ρ E) (e : E) (persist : Call ρ E) (w : World ρ) :
    ((p.save e persist).run w).notes.filterMap Note.errand? = [.persist] := by
  rw [save_eq, Step.run_bind, run_call, List.filterMap_append, (p.reports_keepSaved e _).looksUp.errands]
  rfl

theorem result_save (p : Policy ρ E) (e : E) (persist : Call ρ E) (w : World ρ) :
    ((p.save e persist).run w).value.result = (persist w.keeper).1.mapError .repository := by
  rw [value_save]
  cases (persist w.keeper).1 <;> rfl

def removed (p : Policy ρ E) (key : String) : Except RepositoryError Unit → Deferred E Unit
  | .ok () => p.scheduled [.clear key, .clear (Key.family E)] (.ok ())
  | .error error => settled (.error (.repository error))

theorem remove_of_invalid (p : Policy ρ E) {e : E} {error : KeyError}
    (h : Key.item E (Entity.id e) = .error error) (persist : Call ρ Unit) (w : World ρ) :
    (p.remove e persist).run w = ⟨settled (.error error.toPolicy), w, []⟩ := by
  rw [remove, h]
  rfl

theorem remove_of_key (p : Policy ρ E) {e : E} {key : String}
    (h : Key.item E (Entity.id e) = .ok key) (persist : Call ρ Unit) (w : World ρ) :
    (p.remove e persist).run w = ⟨p.removed key (persist w.keeper).1,
      { w with keeper := (persist w.keeper).2 }, [.called .persist]⟩ := by
  rw [remove, h]
  dsimp only
  rw [Step.run_bind, run_call]
  dsimp only
  cases (persist w.keeper).1 <;> rfl

theorem result_remove {e : E} {key : String} (h : Key.item E (Entity.id e) = .ok key) (p : Policy ρ E)
    (persist : Call ρ Unit) (w : World ρ) :
    ((p.remove e persist).run w).value.result = (persist w.keeper).1.mapError .repository := by
  rw [remove_of_key p h]
  cases (persist w.keeper).1 <;> rfl

/-! ## Reading one entity -/

def fetched (p : Policy ρ E) (key : String) :
    Except RepositoryError (Option E) → Deferred E (Option E)
  | .ok (some e) =>
    if Entity.hasIdentity e then p.scheduled [.store key e] (.ok (some e))
    else settled (.ok (some e))
  | .ok none => settled (.ok none)
  | .error error => settled (.error (.repository error))

def keepFetched (p : Policy ρ E) (key : String) :
    Except RepositoryError (Option E) → Act ρ I (Deferred E (Option E))
  | .ok (some e) =>
    if Entity.hasIdentity e then return p.scheduled [.store key e] (.ok (some e))
    else return settled (.ok (some e))
  | .ok none => return settled (.ok none)
  | .error error => return settled (.error (.repository error))

theorem reports_keepFetched (p : Policy ρ E) (key : String)
    (answer : Except RepositoryError (Option E)) :
    Reports (p.keepFetched key answer : Act ρ I _) (p.fetched key answer) := by
  cases answer with
  | error error => exact reports_pure _
  | ok found =>
      cases found with
      | none => exact reports_pure _
      | some e =>
          rw [keepFetched, fetched]
          split <;> exact reports_pure _

theorem result_fetched (p : Policy ρ E) (key : String) (answer : Except RepositoryError (Option E)) :
    (p.fetched key answer).result = answer.mapError .repository := by
  match answer with
  | .error error => rfl
  | .ok none => rfl
  | .ok (some e) =>
      rw [fetched]
      split <;> rfl

def serve (p : Policy ρ E) (id : I) (key : String) (fetch : I → Call ρ (Option E)) :
    Option E → Act ρ I (Deferred E (Option E))
  | some e => do
    Act.report (.hit key)
    return settled (.ok (some e))
  | none => do
    Act.report (.miss key)
    p.keepFetched key (← Act.call (.fetch id) (fetch id))

def confirm (id : I) (fetch : I → Call ρ Bool) : Option E → Act ρ I (Except PolicyError Bool)
  | some _ => return .ok true
  | none => return (← Act.call (.fetch id) (fetch id)).mapError .repository

theorem get_of_invalid (p : Policy ρ E) {id : I} {error : KeyError} (h : Key.item E id = .error error)
    (fetch : I → Call ρ (Option E)) (w : World ρ) :
    (p.get id fetch).run w = ⟨settled (.error error.toPolicy), w, []⟩ := by
  rw [get, h]
  rfl

section

variable {id : I} {key : String} (h : Key.item E id = .ok key)
include h

theorem get_eq (p : Policy ρ E) (fetch : I → Call ρ (Option E)) :
    p.get id fetch = one key >>= p.serve id key fetch := by
  rw [get, h]
  refine bind_congr fun found => ?_
  cases found with
  | some e => rfl
  | none =>
      refine bind_congr fun _ => bind_congr fun answer => ?_
      cases answer with
      | error error => rfl
      | ok e => cases e <;> rfl

theorem get_of_hit (p : Policy ρ E) (fetch : I → Call ρ (Option E)) {w : World ρ} {e : E}
    (found : (w.link.value? key).bind Entity.decode? = some e) :
    ((p.get id fetch).run w).value = settled (.ok (some e)) ∧
      ((p.get id fetch).run w).state = ((one key : Act ρ I (Option E)).run w).state := by
  rw [← value_one (I := I)] at found
  rw [get_eq h, Step.run_bind, found]
  exact ⟨rfl, rfl⟩

theorem get_of_miss (p : Policy ρ E) (fetch : I → Call ρ (Option E)) {w : World ρ}
    (found : (w.link.value? key).bind (Entity.decode? (E := E)) = none) :
    ((p.get id fetch).run w).value = p.fetched key (fetch id w.keeper).1 ∧
      ((p.get id fetch).run w).state =
        { ((one key : Act ρ I (Option E)).run w).state with keeper := (fetch id w.keeper).2 } ∧
      ((p.get id fetch).run w).notes.filterMap Note.errand? = [.fetch id] := by
  have looksUp := looksUp_one (ρ := ρ) (E := E) (I := I) key
  have keeps := p.reports_keepFetched (I := I) key
  rw [← value_one (I := I)] at found
  rw [get_eq h, Step.run_bind, found]
  simp only [serve, Step.run_bind, run_report, run_call, (keeps _).value, (keeps _).state,
    looksUp.keeper, List.filterMap_append, looksUp.errands, (keeps _).looksUp.errands, true_and]
  rfl

theorem result_get (p : Policy ρ E) (fetch : I → Call ρ (Option E)) {w : World ρ}
    (agrees : ∀ e, (w.link.value? key).bind Entity.decode? = some e →
      (fetch id w.keeper).1 = .ok (some e)) :
    ((p.get id fetch).run w).value.result = (fetch id w.keeper).1.mapError .repository := by
  cases found : (w.link.value? key).bind (Entity.decode? (E := E)) with
  | some e =>
      rw [(get_of_hit h p fetch found).1, agrees e found]
      rfl
  | none => rw [(get_of_miss h p fetch found).1, result_fetched]

theorem contains_eq (fetch : I → Call ρ Bool) :
    contains E id fetch = (one key : Act ρ I (Option E)) >>= confirm id fetch := by
  rw [contains, h]
  exact bind_congr fun found => by cases found <;> rfl

theorem contains_of_hit (fetch : I → Call ρ Bool) {w : World ρ} {e : E}
    (found : (w.link.value? key).bind Entity.decode? = some e) :
    ((contains E id fetch).run w).value = .ok true ∧
      ((contains E id fetch).run w).state = ((one key : Act ρ I (Option E)).run w).state := by
  rw [← value_one (I := I)] at found
  rw [contains_eq h, Step.run_bind, found]
  exact ⟨rfl, rfl⟩

theorem contains_of_miss (fetch : I → Call ρ Bool) {w : World ρ}
    (found : (w.link.value? key).bind (Entity.decode? (E := E)) = none) :
    ((contains E id fetch).run w).value = (fetch id w.keeper).1.mapError .repository ∧
      ((contains E id fetch).run w).state =
        { ((one key : Act ρ I (Option E)).run w).state with keeper := (fetch id w.keeper).2 } ∧
      ((contains E id fetch).run w).notes.filterMap Note.errand? = [.fetch id] := by
  have looksUp := looksUp_one (ρ := ρ) (E := E) (I := I) key
  rw [← value_one (I := I)] at found
  rw [contains_eq h, Step.run_bind, found]
  simp only [confirm, Step.run_bind, Step.run_pure, run_call, looksUp.keeper, List.filterMap_append,
    looksUp.errands, true_and]
  rfl

theorem value_contains (fetch : I → Call ρ Bool) {w : World ρ}
    (agrees : ∀ e : E, (w.link.value? key).bind Entity.decode? = some e → (fetch id w.keeper).1 = .ok true) :
    ((contains E id fetch).run w).value = (fetch id w.keeper).1.mapError .repository := by
  cases found : (w.link.value? key).bind (Entity.decode? (E := E)) with
  | some e =>
      rw [(contains_of_hit h fetch found).1, agrees e found]
      rfl
  | none => exact (contains_of_miss h fetch found).1

end

/-! ## Reading several entities -/

theorem looksUp_readMany (ids : List I) :
    LooksUp (readMany ids : Act ρ I (Except PolicyError (Option (List E)))) :=
  closed_readMany (closed_looksUp E) ids

theorem readMany_ok {ids : List I} {keys : List String} (h : ids.mapM (Key.item E) = .ok keys)
    (w : World ρ) : ∃ found : Option (List E), ((readMany ids).run w).value = .ok found := by
  rw [readMany, h]
  dsimp only
  rw [Step.run_bind]
  dsimp only
  split <;> exact ⟨_, rfl⟩

theorem readMany_error {ids : List I} {w : World ρ} {error : PolicyError}
    (h : ((readMany ids : Act ρ I (Except PolicyError (Option (List E)))).run w).value = .error error) :
    ∃ cause, ids.mapM (Key.item E) = .error cause ∧ error = cause.toPolicy := by
  rw [readMany] at h
  split at h
  · next cause refused =>
      cases h
      exact ⟨cause, refused, rfl⟩
  · rw [Step.run_bind] at h
    dsimp only at h
    split at h <;> cases h

theorem forall₂_of_readMany {ids : List I} {w : World ρ} {es : List E}
    (wf : w.link.memory.store.WellFormed)
    (h : ((readMany ids : Act ρ I (Except PolicyError (Option (List E)))).run w).value =
      .ok (some es)) :
    ∃ keys, ids.mapM (Key.item E) = .ok keys ∧
      List.Forall₂ (fun key e => (w.link.memory.store.lookup? w.link.memory.now key).bind
        Entity.decode? = some e) keys es := by
  rw [readMany] at h
  split at h
  · cases h
  · next keys mapped =>
      refine ⟨keys, mapped, ?_⟩
      cases found : ((allOf keys.length keys : Act ρ I (Option (List E))).run w).value with
      | none =>
          simp only [Step.run_bind, Step.run_pure, found] at h
          cases h
      | some entities =>
          simp only [Step.run_bind, Step.run_pure, found] at h
          cases h
          exact forall₂_of_allOf wf found

def found (p : Policy ρ E) (l : Cache.Link) : List E :=
  match p.source with
  | .scan => listed E (l.values (Key.family E))
  | .fixed entities => entities

theorem looksUp_readSource (p : Policy ρ E) : LooksUp (p.readSource : Act ρ I (List E)) :=
  p.closed_readSource (closed_looksUp E)

theorem value_readSource (p : Policy ρ E) (w : World ρ) :
    ((p.readSource : Act ρ I (List E)).run w).value = p.found w.link := by
  unfold readSource Policy.found
  cases p.source with
  | scan => exact value_family w
  | fixed entities => rfl

theorem memory_readSource (p : Policy ρ E) (w : World ρ) :
    ((p.readSource : Act ρ I (List E)).run w).state.link.memory = w.link.memory := by
  unfold readSource
  cases p.source with
  | scan => exact memory_family w
  | fixed entities => rfl

def trust (marked : Bool) : Act ρ I (Except PolicyError (Option (List E))) :=
  if marked then do
    Act.report (.markerHit (Entity.typeName E))
    return .ok (some [])
  else return .ok none

theorem reports_trust (marked : Bool) :
    Reports (trust marked : Act ρ I (Except PolicyError (Option (List E))))
      (.ok (if marked then some [] else none)) := by
  cases marked with
  | true => exact .after _ (reports_pure _)
  | false => exact reports_pure _

theorem readMarker_eq (p : Policy ρ E) :
    (p.readMarker : Act ρ I (Except PolicyError (Option (List E)))) =
      if p.options.allowZeroCount then marker E >>= trust else pure (.ok none) := rfl

theorem looksUp_readMarker (p : Policy ρ E) :
    LooksUp (p.readMarker : Act ρ I (Except PolicyError (Option (List E)))) :=
  p.closed_readMarker (closed_looksUp E)

theorem value_readMarker (p : Policy ρ E) (w : World ρ) :
    ((p.readMarker : Act ρ I (Except PolicyError (Option (List E)))).run w).value =
      .ok (if p.options.allowZeroCount &&
        ((w.link.value? (Key.family E)).map Marker.isMarker).getD false then some [] else none) := by
  rw [readMarker_eq]
  cases p.options.allowZeroCount with
  | false => rfl
  | true => rw [if_pos rfl, Step.run_bind, (reports_trust _).value, value_marker, Bool.true_and]

theorem readMarker_hit {p : Policy ρ E} {w : World ρ} {es : List E}
    (h : ((p.readMarker : Act ρ I (Except PolicyError (Option (List E)))).run w).value =
      .ok (some es)) :
    es = [] ∧ p.options.allowZeroCount = true ∧
      ∃ bytes, w.link.memory.store.lookup? w.link.memory.now (Key.family E) = some bytes ∧
        Marker.isMarker bytes = true := by
  rw [value_readMarker] at h
  split at h
  · next marked =>
      cases h
      rw [Bool.and_eq_true] at marked
      cases stored : w.link.value? (Key.family E) with
      | none =>
          rw [stored] at marked
          cases marked.2
      | some bytes =>
          rw [stored] at marked
          exact ⟨rfl, marked.1, bytes, Cache.Link.value?_some stored, marked.2⟩
  · cases h

def agrees (counter? : Option (Call ρ Nat)) (keeper : ρ) (es : List E) : Prop :=
  ∀ counter, counter? = some counter → (counter keeper).1 = .ok es.length

omit [Entity E I] in
theorem agrees_none (keeper : ρ) (es : List E) : agrees none keeper es := nofun

theorem accept_hit {counter? : Option (Call ρ Nat)} {found es : List E} {w : World ρ}
    (h : ((accept counter? found : Act ρ I _).run w).value = .ok (some es)) :
    es = found ∧ agrees counter? w.keeper es ∧
      ((accept counter? found : Act ρ I _).run w).notes.filterMap Note.count? =
        counter?.toList.map fun _ => .ok es.length := by
  cases counter? with
  | none =>
      cases h
      exact ⟨rfl, agrees_none _ _, rfl⟩
  | some counter =>
      rw [accept, Step.run_bind, run_count] at h ⊢
      cases reply : (counter w.keeper).1 with
      | error error =>
          simp only [reply] at h
          cases h
      | ok total =>
          simp only [reply] at h ⊢
          split at h
          · next same =>
              cases h
              subst same
              rw [if_pos rfl]
              refine ⟨rfl, ?_, rfl⟩
              rintro _ ⟨⟩
              exact reply
          · cases h

theorem accept_of_agrees {counter? : Option (Call ρ Nat)} {es : List E} {w : World ρ}
    (agreed : agrees counter? w.keeper es) :
    ((accept counter? es : Act ρ I _).run w).value = .ok (some es) := by
  cases counter? with
  | none => rfl
  | some counter =>
      rw [accept, Step.run_bind, run_count, agreed counter rfl]
      dsimp only
      rw [if_pos rfl]
      rfl

theorem accept_run (counter? : Option (Call ρ Nat)) (found : List E) (w : World ρ) :
    ((accept counter? found : Act ρ I _).run w).state =
        { w with keeper := counter?.elim w.keeper fun counter => (counter w.keeper).2 } ∧
      ((accept counter? found : Act ρ I _).run w).notes.filterMap Note.errand? = [] := by
  cases counter? with
  | none => exact ⟨rfl, rfl⟩
  | some counter =>
      rw [accept, Step.run_bind, run_count]
      dsimp only
      cases (counter w.keeper).1 with
      | error error => exact ⟨rfl, rfl⟩
      | ok total =>
          dsimp only
          split <;> exact ⟨rfl, rfl⟩

theorem accept_error {counter? : Option (Call ρ Nat)} {es : List E} {w : World ρ} {error : PolicyError}
    (h : ((accept counter? es : Act ρ I _).run w).value = .error error) :
    ∃ counter cause, counter? = some counter ∧ (counter w.keeper).1 = .error cause ∧
      error = .repository cause ∧
      .counted (.error cause) ∈ ((accept counter? es : Act ρ I _).run w).notes := by
  cases counter? with
  | none => cases h
  | some counter =>
      rw [accept, Step.run_bind, run_count] at h ⊢
      cases reply : (counter w.keeper).1 with
      | error cause =>
          rw [reply] at h
          cases h
          exact ⟨counter, cause, rfl, reply, rfl, List.mem_cons_self⟩
      | ok total =>
          rw [reply] at h
          dsimp only at h
          split at h <;> cases h

/-! ## Reading all entities -/

theorem errands_readAll (p : Policy ρ E) (w : World ρ) :
    ((p.readAll : Act ρ I (Except PolicyError (Option (List E)))).run w).notes.filterMap
      Note.errand? = [] := by
  rw [readAll]
  split
  · rfl
  · rw [Step.run_bind, List.filterMap_append, p.looksUp_readSource.errands, List.nil_append]
    split
    · exact p.looksUp_readMarker.errands _
    · exact (accept_run _ _ _).2

theorem validator_counter {p : Policy ρ E} {counter : Call ρ Nat}
    (h : p.validator = .ok (some counter)) : p.counter? = some counter := by
  rw [validator] at h
  split at h
  · split at h
    · next found => cases h; exact found
    · cases h
  · cases h

theorem validator_error {p : Policy ρ E} {error : PolicyError} (h : p.validator (I := I) = .error error) :
    ∃ reason, error = .invalidArgument reason := by
  rw [validator] at h
  split at h
  · split at h
    · cases h
    · cases h
      exact ⟨_, rfl⟩
  · cases h

theorem validator_of_counter {p : Policy ρ E} {counter : Call ρ Nat}
    (validates : p.options.validateCount = true) (given : p.counter? = some counter) :
    p.validator = .ok (some counter) := by
  rw [validator, if_pos validates, given]

theorem keeper_readAll {p : Policy ρ E}
    (still : ∀ counter, p.counter? = some counter → ∀ k, (counter k).2 = k) (w : World ρ) :
    ((p.readAll : Act ρ I (Except PolicyError (Option (List E)))).run w).state.keeper =
      w.keeper := by
  rw [readAll]
  split
  · rfl
  · next counter? valid =>
      rw [Step.run_bind]
      dsimp only
      rw [← p.looksUp_readSource.keeper w]
      split
      · exact p.looksUp_readMarker.keeper _
      · rw [(accept_run _ _ _).1]
        cases counter? with
        | none => rfl
        | some counter => exact still counter (validator_counter valid) _

/-- An answer from the cache alone is either what the source found, as far as a count agrees, or the
marker's. -/
theorem readAll_hit {p : Policy ρ E} {w : World ρ} {es : List E}
    (h : ((p.readAll : Act ρ I (Except PolicyError (Option (List E)))).run w).value =
      .ok (some es)) :
    ∃ counter?, p.validator = .ok counter? ∧ p.found w.link = es ∧
      (es ≠ [] ∧ agrees counter? w.keeper es ∧
          ((p.readAll : Act ρ I _).run w).notes.filterMap Note.count? =
            counter?.toList.map (fun _ => .ok es.length) ∨
        es = [] ∧ p.options.allowZeroCount = true ∧
          (∃ bytes, w.link.memory.store.lookup? w.link.memory.now (Key.family E) = some bytes ∧
            Marker.isMarker bytes = true) ∧
          ((p.readAll : Act ρ I _).run w).notes.filterMap Note.count? = []) := by
  have looksUp := p.looksUp_readSource (I := I)
  have found := value_readSource (I := I) p w
  have same := memory_readSource (I := I) p w
  rw [readAll] at h ⊢
  split at h
  · cases h
  · next counter? valid =>
      refine ⟨counter?, valid, ?_⟩
      rw [Step.run_bind, found] at h ⊢
      dsimp only at h ⊢
      rw [List.filterMap_append, looksUp.counts, List.nil_append]
      split at h
      · next empty =>
          rw [if_pos empty]
          obtain ⟨rfl, allowed, marked⟩ := readMarker_hit h
          rw [same] at marked
          exact ⟨List.isEmpty_iff.1 empty, .inr ⟨rfl, allowed, marked,
            p.looksUp_readMarker.counts _⟩⟩
      · next nonempty =>
          rw [if_neg nonempty]
          -- the count is asked for after the scan, which has not changed the keeper
          obtain ⟨rfl, agreed, counts⟩ := accept_hit h
          rw [looksUp.keeper] at agreed
          exact ⟨rfl, .inl ⟨by simpa using nonempty, agreed, counts⟩⟩

theorem readAll_of_found {p : Policy ρ E} {w : World ρ} {counter? : Option (Call ρ Nat)}
    (valid : p.validator (I := I) = .ok counter?) (some_found : p.found w.link ≠ [])
    (agreed : agrees counter? w.keeper (p.found w.link)) :
    ((p.readAll : Act ρ I (Except PolicyError (Option (List E)))).run w).value =
      .ok (some (p.found w.link)) := by
  rw [readAll, valid]
  dsimp only
  rw [Step.run_bind, value_readSource, if_neg (by simpa using some_found)]
  exact accept_of_agrees (p.looksUp_readSource.keeper w ▸ agreed)

theorem readAll_of_marker {p : Policy ρ E} {w : World ρ} {counter? : Option (Call ρ Nat)}
    (valid : p.validator (I := I) = .ok counter?) (none_found : p.found w.link = [])
    (allowed : p.options.allowZeroCount = true) (never : w.link.faults = .never) {bytes : Bytes}
    (stored : w.link.memory.store.lookup? w.link.memory.now (Key.family E) = some bytes)
    (marks : Marker.isMarker bytes = true) :
    ((p.readAll : Act ρ I (Except PolicyError (Option (List E)))).run w).value = .ok (some []) := by
  have reads := (p.looksUp_readSource (I := I)).link w
  rw [readAll, valid]
  dsimp only
  rw [Step.run_bind, value_readSource, none_found, if_pos List.isEmpty_nil]
  dsimp only
  rw [value_readMarker, Cache.Link.value?_never (reads.faults.trans never), memory_readSource, stored, allowed]
  simp [marks]

theorem readAll_error {p : Policy ρ E} {w : World ρ} {error : PolicyError}
    (h : ((p.readAll : Act ρ I (Except PolicyError (Option (List E)))).run w).value = .error error) :
    p.validator (I := I) = .error error ∨
      ∃ counter cause, p.counter? = some counter ∧ (counter w.keeper).1 = .error cause ∧
        error = .repository cause ∧ .counted (.error cause) ∈
          ((p.readAll : Act ρ I (Except PolicyError (Option (List E)))).run w).notes := by
  rw [readAll] at h ⊢
  split at h
  · next refused =>
      cases h
      exact .inl refused
  · next counter? valid =>
      rw [Step.run_bind] at h ⊢
      dsimp only at h ⊢
      split at h
      · rw [value_readMarker] at h
        cases h
      · next nonempty =>
          obtain ⟨counter, cause, rfl, reply, rfl, counted⟩ := accept_error h
          rw [p.looksUp_readSource.keeper] at reply
          rw [if_neg nonempty]
          exact .inr ⟨counter, cause, validator_counter valid, reply, rfl, List.mem_append_right _ counted⟩

theorem readAll_ne_error {p : Policy ρ E} (valid : ∀ error, p.validator (I := I) ≠ .error error)
    (counts : ∀ counter, p.counter? = some counter → ∀ k, ∃ n, (counter k).1 = .ok n) (w : World ρ)
    (error : PolicyError) :
    ((p.readAll : Act ρ I (Except PolicyError (Option (List E)))).run w).value ≠ .error error := by
  intro h
  rcases readAll_error h with refused | ⟨counter, cause, given, reply, -, -⟩
  · exact valid error refused
  · obtain ⟨n, counted⟩ := counts counter given w.keeper
    cases reply.symm.trans counted

/-! ## Reading several or all entities -/

def readCached (p : Policy ρ E) (ids : List I) :
    Act ρ I (Except PolicyError (Option (List E))) :=
  if ids.isEmpty then p.readAll else readMany ids

theorem closed_readCached {C : {α : Type} → Act ρ I α → Prop} (h : Policy.Closed E C) (p : Policy ρ E)
    (ids : List I) : C (p.readCached ids) := by
  rw [readCached]
  split
  · exact p.closed_readAll h
  · exact closed_readMany h.toClosed ids

theorem errands_readCached (p : Policy ρ E) (ids : List I) (w : World ρ) :
    ((p.readCached ids).run w).notes.filterMap Note.errand? = [] := by
  rw [readCached]
  split
  · exact p.errands_readAll w
  · exact (looksUp_readMany ids).errands w

theorem keeper_readCached {p : Policy ρ E}
    (still : ∀ counter, p.counter? = some counter → ∀ k, (counter k).2 = k) (ids : List I)
    (w : World ρ) : ((p.readCached ids).run w).state.keeper = w.keeper := by
  rw [readCached]
  split
  · exact keeper_readAll still w
  · exact (looksUp_readMany ids).keeper w

def collected (p : Policy ρ E) (all : Bool) :
    Except RepositoryError (List (Option E)) → Deferred E (List E)
  | .error error => settled (.error (.repository error))
  | .ok replies =>
    p.scheduled (p.collects all (replies.filterMap id)) (.ok (replies.filterMap id))

def keepMany (p : Policy ρ E) (ids : List I) :
    Except RepositoryError (List (Option E)) → Act ρ I (Deferred E (List E))
  | .error error => return settled (.error (.repository error))
  | .ok replies => do
    Act.report (.fetched (Entity.typeName E) ids.length (replies.filterMap id).length)
    let changes ← p.collecting ids.isEmpty (replies.filterMap id)
    return p.scheduled changes (.ok (replies.filterMap id))

theorem reports_keepMany (p : Policy ρ E) (ids : List I)
    (answer : Except RepositoryError (List (Option E))) :
    Reports (p.keepMany ids answer) (p.collected ids.isEmpty answer) := by
  cases answer with
  | error error => exact reports_pure _
  | ok replies => exact .after _ ((p.reports_collecting _ _).bind (reports_pure _))

def serveMany (p : Policy ρ E) (ids : List I) (fetch : List I → Call ρ (List (Option E))) :
    Except PolicyError (Option (List E)) → Act ρ I (Deferred E (List E))
  | .error error => return settled (.error error)
  | .ok (some entities) => return settled (.ok entities)
  | .ok none => do p.keepMany ids (← Act.call (.fetchMany ids) (fetch ids))

theorem getMany_eq (p : Policy ρ E) (ids : List I) (fetch : List I → Call ρ (List (Option E))) :
    p.getMany ids fetch = p.readCached ids >>= p.serveMany ids fetch := by
  rw [getMany, readCached]
  split
  all_goals
    refine bind_congr fun cached => ?_
    match cached with
    | .error error => rfl
    | .ok (some entities) => rfl
    | .ok none => exact bind_congr fun answer => by cases answer <;> rfl

theorem closed_getMany {C : {α : Type} → Act ρ I α → Prop} (h : Act.Closed C) (p : Policy ρ E)
    (ids : List I) (fetch : List I → Call ρ (List (Option E))) : C (p.getMany ids fetch) := by
  rw [getMany_eq]
  refine h.bind (p.closed_readCached (h.policy E) ids) fun cached => ?_
  match cached with
  | .error error => exact h.pure _
  | .ok (some entities) => exact h.pure _
  | .ok none =>
      refine h.bind (h.call _ _) fun answer => ?_
      cases answer with
      | error error => exact h.pure _
      | ok replies => exact h.after rfl (h.bind (p.closed_collecting h _ _) fun _ => h.pure _)

section

variable {p : Policy ρ E} {ids : List I} {w : World ρ}

theorem getMany_of_error {error : PolicyError} (h : ((p.readCached ids).run w).value = .error error)
    (fetch : List I → Call ρ (List (Option E))) :
    (p.getMany ids fetch).run w = ⟨settled (.error error), ((p.readCached ids).run w).state,
      ((p.readCached ids).run w).notes⟩ := by
  rw [getMany_eq, Step.run_bind, h]
  simp [serveMany]

theorem getMany_of_hit {es : List E} (h : ((p.readCached ids).run w).value = .ok (some es))
    (fetch : List I → Call ρ (List (Option E))) :
    (p.getMany ids fetch).run w = ⟨settled (.ok es), ((p.readCached ids).run w).state,
      ((p.readCached ids).run w).notes⟩ := by
  rw [getMany_eq, Step.run_bind, h]
  simp [serveMany]

theorem getMany_of_miss (h : ((p.readCached ids).run w).value = .ok none)
    (fetch : List I → Call ρ (List (Option E))) :
    ((p.getMany ids fetch).run w).value =
        p.collected ids.isEmpty (fetch ids ((p.readCached ids).run w).state.keeper).1 ∧
      ((p.getMany ids fetch).run w).state = { ((p.readCached ids).run w).state with
        keeper := (fetch ids ((p.readCached ids).run w).state.keeper).2 } ∧
      ((p.getMany ids fetch).run w).notes.filterMap Note.errand? = [.fetchMany ids] := by
  rw [getMany_eq, Step.run_bind, h]
  dsimp only
  rw [List.filterMap_append, p.errands_readCached, List.nil_append, serveMany, Step.run_bind, run_call]
  have keeps := p.reports_keepMany ids (fetch ids ((p.readCached ids).run w).state.keeper).1
  refine ⟨keeps.value _, keeps.state _, ?_⟩
  rw [List.filterMap_append, keeps.looksUp.errands]
  rfl

theorem readCached_of_getMany {fetch : List I → Call ρ (List (Option E))} {es : List E}
    (h : ((p.getMany ids fetch).run w).value.result = .ok es)
    (silent : ((p.getMany ids fetch).run w).notes.filterMap Note.errand? = []) :
    ((p.readCached ids).run w).value = .ok (some es) := by
  cases cached : ((p.readCached ids).run w).value with
  | error error =>
      rw [getMany_of_error cached] at h
      cases h
  | ok found =>
      cases found with
      | some es' =>
          rw [getMany_of_hit cached] at h
          cases h
          rfl
      | none =>
          rw [(getMany_of_miss cached fetch).2.2] at silent
          cases silent

end

/-! ## No operation changes the cache -/

theorem spares_get (p : Policy ρ E) (id : I) (fetch : I → Call ρ (Option E)) :
    Spares (p.get id fetch) :=
  p.closed_get (closed_spares.policy E) id fetch

theorem looksUp_getCached (id : I) :
    LooksUp (getCached id : Act ρ I (Except PolicyError (Option E))) :=
  closed_getCached (closed_looksUp E) id

theorem spares_contains (id : I) (fetch : I → Call ρ Bool) :
    Spares (contains E id fetch) :=
  closed_contains (closed_spares.policy E) id fetch

theorem spares_getMany (p : Policy ρ E) (ids : List I) (fetch : List I → Call ρ (List (Option E))) :
    Spares (p.getMany ids fetch) :=
  p.closed_getMany closed_spares ids fetch

theorem spares_save (p : Policy ρ E) (e : E) (persist : Call ρ E) : Spares (p.save e persist : Act ρ I _) :=
  p.closed_save closed_spares e persist

theorem spares_remove (p : Policy ρ E) (e : E) (persist : Call ρ Unit) :
    Spares (p.remove e persist : Act ρ I _) :=
  p.closed_remove (closed_spares.policy E) e persist

end Lookaside.Policy
