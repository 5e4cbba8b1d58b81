import Lookaside.Entity.Member
import Lookaside.Proofs.Session
import Lookaside.Proofs.Unread

namespace Lookaside

variable {ρ E I : Type} [Entity E I]

namespace Policy

open Act Lookup Note

variable {p : Policy ρ E} {w w' : World ρ} {lost : String → Bool}

/-! ## Reading all entities -/

theorem blind_accept (counter? : Option (Call ρ Nat)) (es : List E) :
    Blind (accept counter? es : Act ρ I _) := by
  unfold accept
  split
  · exact (blind_report _).bind fun _ => blind_pure _
  · refine (blind_count _).bind fun reply => ?_
    split
    · exact blind_pure _
    · split
      · exact (blind_report _).bind fun _ => blind_pure _
      · exact (blind_report _).bind fun _ => blind_pure _

theorem unread_readMarker_of_item {k : String} (item : Key.isItem E k = true) (w : World ρ) :
    unread E ((p.readMarker : Act ρ I (Except PolicyError (Option (List E)))).run w).notes k = false := by
  have other : k ≠ Key.family E := by
    rintro rfl
    rw [Key.isItem_family] at item
    cases item
  rw [readMarker_eq]
  split
  · rw [Step.run_bind, unread_append, unread_silent ((reports_trust _).blind.silent _), Bool.or_false,
      unread_marker]
    cases (w.link.get (Key.family E)).1 <;> simp [Cache.Exchange.misses, other]
  · rfl

theorem alike_readMarker (lacks : w.link.Lacks lost w'.link) (keeper : w'.keeper = w.keeper)
    (own : lost (Key.family E) = unread E ((p.readMarker : Act ρ I
      (Except PolicyError (Option (List E)))).run w).notes (Key.family E)) :
    Alike (p.readMarker : Act ρ I (Except PolicyError (Option (List E)))) w w' := by
  rw [readMarker_eq] at own ⊢
  split at own
  · next allowed =>
      rw [Step.run_bind, unread_append, unread_silent ((reports_trust _).blind.silent _), Bool.or_false] at own
      rw [if_pos allowed]
      exact (alike_marker lacks keeper own).thenBlind fun marked => (reports_trust marked).blind
  · next refused =>
      rw [if_neg refused]
      exact (blind_pure _).alike w w' keeper

theorem unread_readSource_family (p : Policy ρ E) (w : World ρ) :
    unread E ((p.readSource : Act ρ I (List E)).run w).notes (Key.family E) = false := by
  unfold readSource
  cases p.source with
  | scan =>
      dsimp only
      rw [unread_family]
      cases (w.link.scan (Key.family E)).1 <;> simp [Cache.Exchange.misses, Key.isItem_family]
  | fixed entities => rfl

theorem alike_readSource (wf : w.link.memory.store.WellFormed) (lacks : w.link.Lacks lost w'.link)
    (keeper : w'.keeper = w.keeper) (own : ∀ k, Key.isItem E k = true →
      lost k = unread E ((p.readSource : Act ρ I (List E)).run w).notes k) :
    Alike (p.readSource : Act ρ I (List E)) w w' := by
  unfold readSource at own ⊢
  cases source : p.source with
  | scan =>
      rw [source] at own
      exact alike_family wf lacks keeper own
  | fixed entities => exact (blind_pure _).alike w w' keeper

theorem lacks_readSource (lacks : w.link.Lacks lost w'.link) :
    ((p.readSource : Act ρ I (List E)).run w).state.link.Lacks lost
      ((p.readSource : Act ρ I (List E)).run w').state.link where
  faults := (p.looksUp_readSource.link w').faults.trans lacks.faults
  memory := by rw [memory_readSource, memory_readSource, lacks.memory]

theorem misses_readAll (p : Policy ρ E) (wf : w.link.memory.store.WellFormed) :
    Misses E (p.readAll : Act ρ I (Except PolicyError (Option (List E)))) w := by
  rw [Misses, readAll]
  split
  · exact (blind_pure _).alike _ _ rfl
  · next counter? _ =>
      rw [Step.run_bind]
      have looksUp := p.looksUp_readSource (I := I)
      dsimp only
      -- items are lost by the scan alone, and the marker by the look for it alone
      split
      · next empty =>
          have lacks := w.lacks_without (unread E
            (((p.readSource : Act ρ I (List E)).run w).notes ++
              ((p.readMarker : Act ρ I (Except PolicyError (Option (List E)))).run
                ((p.readSource : Act ρ I (List E)).run w).state).notes))
          refine (alike_readSource wf lacks rfl fun k item => ?_).next ?_
          · rw [unread_append, unread_readMarker_of_item item, Bool.or_false]
          · rw [if_pos empty]
            refine alike_readMarker (lacks_readSource lacks) ?_ ?_
            · rw [looksUp.keeper, looksUp.keeper]
              rfl
            · rw [unread_append, unread_readSource_family, Bool.false_or]
      · next nonempty =>
          have silent := blind_accept (I := I) counter? ((p.readSource : Act ρ I (List E)).run w).value
          rw [show unread E _ = _ from funext fun k => by
            rw [unread_append, unread_silent (silent.silent _), Bool.or_false]]
          refine (alike_readSource wf (w.lacks_without _) rfl fun k _ => rfl).next ?_
          rw [if_neg nonempty]
          refine silent.alike _ _ ?_
          rw [looksUp.keeper, looksUp.keeper]
          rfl

/-! ## Operations -/

theorem mapM_item_ne_family {ids : List I} {keys : List String}
    (h : ids.mapM (Key.item E) = .ok keys) : ∀ key ∈ keys, key ≠ Key.family E :=
  fun key member => Key.ne_family_of_isItem (Key.isItem_of_mapM h key member)

theorem misses_readMany (wf : w.link.memory.store.WellFormed) (ids : List I) :
    Misses E (readMany ids : Act ρ I (Except PolicyError (Option (List E)))) w := by
  rw [readMany]
  split
  · exact (blind_pure _).misses w
  · next keys mapped =>
      refine (misses_allOf (mapM_item_ne_family mapped) wf).bind fun found => ?_
      split
      · exact (blind_report _).bind fun _ => blind_pure _
      · exact blind_pure _

theorem misses_readCached (p : Policy ρ E) (wf : w.link.memory.store.WellFormed) (ids : List I) :
    Misses E (p.readCached ids) w := by
  rw [readCached]
  split
  · exact p.misses_readAll wf
  · exact misses_readMany wf ids

theorem blind_serve (p : Policy ρ E) (id : I) (key : String) (fetch : I → Call ρ (Option E))
    (found : Option E) : Blind (p.serve id key fetch found) := by
  cases found with
  | some e => exact (blind_report _).bind fun _ => blind_pure _
  | none => exact (blind_report _).bind fun _ => (blind_call _ _).bind fun answer =>
      (p.reports_keepFetched key answer).blind

omit [Entity E I] in
theorem blind_confirm (id : I) (fetch : I → Call ρ Bool) (found : Option E) :
    Blind (confirm id fetch found) := by
  cases found with
  | some e => exact blind_pure _
  | none => exact (blind_call _ _).bind fun _ => blind_pure _

theorem blind_serveMany (p : Policy ρ E) (ids : List I) (fetch : List I → Call ρ (List (Option E)))
    (cached : Except PolicyError (Option (List E))) : Blind (p.serveMany ids fetch cached) := by
  match cached with
  | .error error => exact blind_pure _
  | .ok (some entities) => exact blind_pure _
  | .ok none => exact (blind_call _ _).bind fun answer => (p.reports_keepMany ids answer).blind

theorem blind_save (p : Policy ρ E) (e : E) (persist : Call ρ E) :
    Blind (p.save e persist : Act ρ I _) := by
  rw [save_eq]
  exact (blind_call _ _).bind fun answer => (p.reports_keepSaved e answer).blind

theorem blind_remove (p : Policy ρ E) (e : E) (persist : Call ρ Unit) :
    Blind (p.remove e persist : Act ρ I _) := by
  rw [remove]
  split
  · exact blind_pure _
  · refine (blind_call _ _).bind fun answer => ?_
    split <;> exact blind_pure _

theorem misses_get (p : Policy ρ E) (id : I) (fetch : I → Call ρ (Option E)) (w : World ρ) :
    Misses E (p.get id fetch) w := by
  cases keyed : Key.item E id with
  | error error =>
      rw [get, keyed]
      exact (blind_pure _).misses w
  | ok key =>
      rw [get_eq keyed]
      exact (misses_one (Key.item_ne_family keyed) w).bind (p.blind_serve id key fetch)

theorem misses_getCached (id : I) (w : World ρ) :
    Misses E (getCached id : Act ρ I (Except PolicyError (Option E))) w := by
  rw [getCached]
  split
  · exact (blind_pure _).misses w
  · next keyed => exact (misses_one (Key.item_ne_family keyed) w).bind fun _ => blind_pure _

theorem misses_contains (id : I) (fetch : I → Call ρ Bool) (w : World ρ) :
    Misses E (contains E id fetch) w := by
  cases keyed : Key.item E id with
  | error error =>
      rw [contains, keyed]
      exact (blind_pure _).misses w
  | ok key =>
      rw [contains_eq keyed]
      exact (misses_one (Key.item_ne_family keyed) w).bind (blind_confirm id fetch)

end Policy

open Act Note Policy

theorem Operation.misses_defer (p : Policy ρ E) (operation : Operation ρ E I) {w : World ρ}
    (wf : w.link.memory.store.WellFormed) : Misses E (operation.defer p) w := by
  cases operation with
  | get id fetch => exact p.misses_get id fetch w
  | getCached id => exact (misses_getCached id w).bind fun _ => blind_pure _
  | contains id fetch => exact (misses_contains id fetch w).bind fun _ => blind_pure _
  | getMany ids fetch =>
      rw [defer, getMany_eq]
      exact (p.misses_readCached wf ids).bind (p.blind_serveMany ids fetch)
  | save e persist => exact (p.blind_save e persist).misses w
  | remove e persist => exact (p.blind_remove e persist).misses w

/-! ## Errors -/

namespace Policy

structure PassesOn {α β : Type} (f : Except RepositoryError α → Deferred E β) : Prop where
  ok : ∀ a, ∃ b, (f (.ok a)).result = .ok b
  error : ∀ cause, (f (.error cause)).result = .error (.repository cause)

omit [Entity E I] in
theorem PassesOn.failed {α β : Type} {f : Except RepositoryError α → Deferred E β} (h : PassesOn f)
    {answer : Except RepositoryError α} {error : PolicyError} (failed : (f answer).result = .error error) :
    ∃ cause, answer = .error cause ∧ error = .repository cause := by
  cases answer with
  | error cause =>
      rw [h.error] at failed
      cases failed
      exact ⟨cause, rfl, rfl⟩
  | ok a =>
      obtain ⟨b, answered⟩ := h.ok a
      cases answered.symm.trans failed

theorem passesOn_fetched (p : Policy ρ E) (key : String) : PassesOn (p.fetched key) where
  ok found := by
    cases found with
    | none => exact ⟨_, rfl⟩
    | some e =>
        rw [fetched]
        split <;> exact ⟨_, rfl⟩
  error _ := rfl

theorem passesOn_collected (p : Policy ρ E) (all : Bool) : PassesOn (p.collected all) :=
  ⟨fun _ => ⟨_, rfl⟩, fun _ => rfl⟩

theorem passesOn_saved (p : Policy ρ E) (e : E) : PassesOn (p.saved e) :=
  ⟨fun _ => ⟨_, rfl⟩, fun _ => rfl⟩

theorem passesOn_removed (p : Policy ρ E) (key : String) : PassesOn (p.removed key) :=
  ⟨fun _ => ⟨_, rfl⟩, fun _ => rfl⟩

omit [Entity E I] in
theorem passesOn_mapError {α : Type} :
    PassesOn fun answer : Except RepositoryError α =>
      (settled (answer.mapError .repository) : Deferred E α) :=
  ⟨fun _ => ⟨_, rfl⟩, fun _ => rfl⟩

end Policy

inductive Policy.Consulted (p : Policy ρ E) (k : ρ) : ρ → Prop where
  | not : Consulted p k k
  | counted {counter : Call ρ Nat} (h : p.counter? = some counter) : Consulted p k (counter k).2

theorem Policy.consulted_readCached (p : Policy ρ E) (ids : List I) (w : World ρ) :
    p.Consulted w.keeper ((p.readCached ids).run w).state.keeper := by
  rw [readCached]
  split
  · rw [readAll]
    split
    · exact .not
    · next counter? valid =>
        rw [Step.run_bind]
        dsimp only
        rw [← p.looksUp_readSource.keeper w]
        split
        · rw [p.looksUp_readMarker.keeper]
          exact .not
        · rw [(accept_run _ _ _).1]
          cases counter? with
          | none => exact .not
          | some counter => exact .counted (validator_counter valid)
  · rw [(looksUp_readMany ids).keeper]
    exact .not

namespace Operation

def Rejects : Operation ρ E I → ρ → RepositoryError → Prop
  | get id fetch, k, cause => (fetch id k).1 = .error cause
  | getCached _, _, _ => False
  | contains id fetch, k, cause => (fetch id k).1 = .error cause
  | getMany ids fetch, k, cause => (fetch ids k).1 = .error cause
  | save _ persist, k, cause => (persist k).1 = .error cause
  | remove _ persist, k, cause => (persist k).1 = .error cause

/-- Where an error of an operation that left these notes may come from. -/
inductive Blames (p : Policy ρ E) (operation : Operation ρ E I) (k : ρ) (notes : List (Note I)) :
    PolicyError → Prop where
  | refused {reason : String} (h : operation.refusal? p = some (.invalidArgument reason)) :
    Blames p operation k notes (.invalidArgument reason)
  | counted {cause : RepositoryError} (h : .counted (.error cause) ∈ notes) :
    Blames p operation k notes (.repository cause)
  | called {errand : Errand I} {k' : ρ} {cause : RepositoryError}
    (h : notes.filterMap Note.errand? = [errand]) (consulted : p.Consulted k k')
    (rejects : operation.Rejects k' cause) : Blames p operation k notes (.repository cause)

theorem refusal?_invalid {p : Policy ρ E} {operation : Operation ρ E I} {error : PolicyError}
    (h : operation.refusal? p = some error) : ∃ reason, error = .invalidArgument reason := by
  have keyless : ∀ {α : Type} {x : Except KeyError α}, Policy.refusal? x = some error →
      ∃ reason, error = .invalidArgument reason := by
    intro α x refused
    cases x with
    | error error =>
        cases refused
        exact ⟨_, rfl⟩
    | ok a => cases refused
  cases operation with
  | save e persist => cases h
  | getMany ids fetch =>
      rw [refusal?] at h
      split at h
      · split at h
        · next refused =>
            cases h
            exact validator_error refused
        · cases h
      · exact keyless h
  | get id fetch => exact keyless h
  | getCached id => exact keyless h
  | contains id fetch => exact keyless h
  | remove e persist => exact keyless h

variable {p : Policy ρ E} {w : World ρ} {error : PolicyError}

theorem Answers.blames {operation : Operation ρ E I} {notes : List (Note I)}
    {d : Deferred E operation.Value} (h : operation.Answers p w notes d)
    (failed : d.result = .error error) : operation.Blames p w.keeper notes error := by
  cases h with
  | refused refusal =>
      cases failed
      obtain ⟨reason, rfl⟩ := refusal?_invalid refusal
      exact .refused refusal
  | found => cases failed
  | uncounted ids fetch counted =>
      cases failed
      exact .counted counted
  | contains id fetch called =>
      obtain ⟨cause, answer, rfl⟩ := passesOn_mapError.failed failed
      exact .called called .not answer
  | get keyed fetch called =>
      obtain ⟨cause, answer, rfl⟩ := (p.passesOn_fetched _).failed failed
      exact .called called .not answer
  | getMany ids fetch called =>
      obtain ⟨cause, answer, rfl⟩ := (p.passesOn_collected _).failed failed
      exact .called called (p.consulted_readCached ids w) answer
  | save e persist called =>
      obtain ⟨cause, answer, rfl⟩ := (p.passesOn_saved e).failed failed
      exact .called called .not answer
  | remove keyed persist called =>
      obtain ⟨cause, answer, rfl⟩ := (p.passesOn_removed _).failed failed
      exact .called called .not answer

end Operation

/-- What an operation fails to read might as well not be there, and is nobody's error. -/
theorem unread_as_absent (p : Policy ρ E) (operation : Operation ρ E I) {w : World ρ}
    (wf : w.link.memory.store.WellFormed) :
    let r := (operation.defer p).run w
    let r' := (operation.defer p).run (w.without (Note.unread E r.notes))
    (r'.value = r.value ∧ r'.state.keeper = r.state.keeper ∧ Note.asked r'.notes = Note.asked r.notes) ∧
      ∀ error, r.value.result = .error error → operation.Blames p w.keeper r.notes error := by
  have alike := operation.misses_defer p wf
  exact ⟨⟨alike.value, alike.keeper, alike.asked⟩, fun error => (operation.answers_defer p w).blames⟩

theorem member_unread_as_absent :
    let p : Policy Nat Member := (Policy.new ⟨true, true, none⟩).withCounter fun n => (.ok n, n)
    let operation : Operation Nat Member Int32 := .getMany [] fun _ n => (.ok [some ⟨1, "ada"⟩], n)
    let store : Store :=
      ⟨2, [⟨"uRepo_Member_1", Member.format.encode ⟨1, "ada"⟩, none⟩, ⟨"uRepo_Member_", Marker.bytes, none⟩]⟩
    let w : World Nat := ⟨⟨⟨store, 0⟩, .ofRules [⟨.scan, none, .operationFailed "down"⟩], 0⟩, 1⟩
    let r := (operation.defer p).run w
    let r' := (operation.defer p).run (w.without (Note.unread Member r.notes))
    store.WellFormed ∧ (store.without (Note.unread Member r.notes)).entries.map (·.key) = ["uRepo_Member_"] ∧
      r.value.result = .ok [] ∧
      (r'.value = r.value ∧ r'.state.keeper = r.state.keeper ∧ Note.asked r'.notes = Note.asked r.notes) ∧
      ∀ error, r.value.result = .error error → operation.Blames p w.keeper r.notes error := by
  intro p operation store w r r'
  have wf : store.WellFormed := ⟨by simp [store], by simp [store]⟩
  have left : (store.without (Note.unread Member r.notes)).entries.map (·.key) = ["uRepo_Member_"] := by
    dsimp only [r, w, store, operation, p]
    cbv
  have result : r.value.result = .ok [] := by
    dsimp only [r, w, store, operation, p]
    cbv
  exact ⟨wf, left, result, unread_as_absent p operation wf⟩

end Lookaside
