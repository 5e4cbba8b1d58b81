import Lookaside.Entity.AccessToken
import Lookaside.Proofs.Aftermath
import Lookaside.Proofs.LatestBatch
import Mathlib

namespace Lookaside

variable {ρ E I : Type}

/-! ## Mishaps and warnings -/

inductive Mishap (E : Type) where
  | failed (r : Cache.Request) (error : CacheError)
  | undecodable (key : String) (value : Bytes)
  | unencodable (key : String) (e : E) (reason : String)
  | keyless (e : E)

/-- Which event tells of a mishap. -/
inductive Mishap.Told [Entity E I] : Mishap E → Log.Event → Prop where
  | get (key : String) (error : CacheError) : Told (.failed (.get key) error) (.readFailed key error)
  | scan (start : String) (error : CacheError) : Told (.failed (.scan start) error) (.scanFailed start error)
  | set (key : String) (value : Bytes) (ttl : Option Span) (error : CacheError) :
    Told (.failed (.set key value ttl) error) (.storeFailed key error)
  | mark (key : String) (ttl : Option Span) (error : CacheError) :
    Told (.failed (.set key Marker.bytes ttl) error) (.markFailed key error)
  | delete (key : String) (error : CacheError) : Told (.failed (.delete key) error) (.clearFailed key error)
  | undecodable (key : String) (value : Bytes) : Told (.undecodable key value) (.undecodable key value)
  | unencodable (key : String) (e : E) (reason : String) :
    Told (.unencodable key e reason) (.unencodable key (.encodingFailed reason))
  | keyless (e : E) : Told (.keyless e) (.keyless (.emptyId (Entity.typeName E)))

theorem Mishap.Told.warns [Entity E I] {mishap : Mishap E} {e : Log.Event} (h : mishap.Told e) :
    e.line.level = .warn := by
  cases h <;> rfl

def Cache.Exchange.brought : Exchange → List (String × Bytes)
  | get key (.ok (some value)) => [(key, value)]
  | scan _ (.ok entries) => entries
  | _ => []

namespace Note

def warnings (notes : List (Note I)) : List Log.Event :=
  (notes.filterMap event?).filter (·.line.level = .warn)

theorem warnings_append (notes notes' : List (Note I)) :
    warnings (notes ++ notes') = warnings notes ++ warnings notes' := by
  rw [warnings, List.filterMap_append, List.filter_append]
  rfl

end Note

variable [Entity E I]

namespace Mishap

variable (E) in
def unread (entries : List (String × Bytes)) : List (Mishap E) :=
  (entries.filter fun entry => Key.isItem E entry.1 && (Entity.decode? entry.2 : Option E).isNone).map
    fun entry => .undecodable entry.1 entry.2

variable (E) in
def ofExchange (x : Cache.Exchange) : List (Mishap E) :=
  x.error?.toList.map (.failed x.request) ++ unread E x.brought

variable (E) in
def ofNotes (notes : List (Note I)) : List (Mishap E) :=
  (notes.filterMap Note.exchange?).flatMap (ofExchange E)

def keylessAmong (es : List E) : List (Mishap E) :=
  (es.filter fun e => Entity.hasIdentity e && Entity.renderId E (Entity.id e) = "").map .keyless

def unencodable? : Change E → Option (Mishap E)
  | .store key e =>
    match Entity.encode e with
    | .ok _ => none
    | .error reason => some (.unencodable key e reason)
  | _ => none

/-- What went wrong with changes: each one either could not be asked for, or was asked for by the next of
some exchanges. -/
def ofChanges : List (Change E) → List Cache.Exchange → List (Mishap E)
  | [], xs => xs.flatMap (ofExchange E)
  | change :: changes, xs =>
    match unencodable? change with
    | some mishap => mishap :: ofChanges changes xs
    | none => (xs.head?.map (ofExchange E)).getD [] ++ ofChanges changes xs.tail

theorem ofNotes_append (notes notes' : List (Note I)) :
    ofNotes E (notes ++ notes') = ofNotes E notes ++ ofNotes E notes' := by
  rw [ofNotes, List.filterMap_append, List.flatMap_append]
  rfl

theorem ofNotes_silent {notes : List (Note I)} (silent : notes.filterMap Note.exchange? = []) :
    ofNotes E notes = [] := by
  rw [ofNotes, silent]
  rfl

theorem ofExchange_get (key : String) (bytes : Bytes) : ofExchange E (.get key (.ok (some bytes))) =
    if Key.isItem E key && (Entity.decode? bytes : Option E).isNone then [.undecodable key bytes] else [] := by
  rw [ofExchange, unread, Cache.Exchange.brought, List.filter_cons, List.filter_nil]
  split <;> rfl

theorem keylessAmong_cons (e : E) (es : List E) :
    keylessAmong (e :: es) = keylessAmong [e] ++ keylessAmong es := by
  rw [keylessAmong, ← List.singleton_append, List.filter_append, List.map_append]
  rfl

end Mishap

/-! ## Acts that tell what goes wrong -/

namespace Act

open Mishap

variable {α β : Type} {mishaps mishaps' : List (Mishap E)}

structure Tells (mishaps : List (Mishap E)) (x : Act ρ I α) : Prop where
  silent : ∀ w, (x.run w).notes.filterMap Note.exchange? = []
  told : ∀ w, List.Forall₂ Told mishaps (Note.warnings (x.run w).notes)

theorem tells_pure (a : α) : Tells ([] : List (Mishap E)) (pure a : Act ρ I α) :=
  ⟨fun _ => rfl, fun _ => .nil⟩

theorem tells_report {mishap : Mishap E} {e : Log.Event} (told : mishap.Told e) :
    Tells [mishap] (report e : Act ρ I Unit) where
  silent _ := rfl
  told w := by
    have warned : Note.warnings ((report e : Act ρ I Unit).run w).notes = [e] :=
      List.filter_cons_of_pos (decide_eq_true told.warns)
    rw [warned]
    exact .cons told .nil

theorem tells_quiet {e : Log.Event} (quiet : decide (e.line.level = .warn) = false) :
    Tells ([] : List (Mishap E)) (report e : Act ρ I Unit) where
  silent _ := rfl
  told w := by
    have unwarned : Note.warnings ((report e : Act ρ I Unit).run w).notes = [] :=
      List.filter_cons_of_neg (by simpa using quiet)
    rw [unwarned]
    exact .nil

theorem Tells.bind {x : Act ρ I α} {f : α → Act ρ I β} (hx : Tells mishaps x)
    (hf : ∀ a, Tells mishaps' (f a)) : Tells (mishaps ++ mishaps') (x >>= f) where
  silent w := by
    rw [Step.run_bind, List.filterMap_append, hx.silent, (hf _).silent]
    rfl
  told w := by
    rw [Step.run_bind, Note.warnings_append]
    exact List.rel_append (hx.told w) ((hf _).told _)

theorem Tells.thenQuiet {x : Act ρ I α} {f : α → Act ρ I β} (hx : Tells mishaps x)
    (hf : ∀ a, Tells ([] : List (Mishap E)) (f a)) : Tells mishaps (x >>= f) :=
  List.append_nil mishaps ▸ hx.bind hf

theorem Tells.afterQuiet {e : Log.Event} (quiet : decide (e.line.level = .warn) = false) {x : Act ρ I α}
    (hx : Tells mishaps x) : Tells mishaps (report e >>= fun _ => x) :=
  (tells_quiet quiet).bind fun _ => hx

variable (E) in
def Candid (x : Act ρ I α) : Prop :=
  ∀ w, List.Forall₂ Told (ofNotes E (x.run w).notes) (Note.warnings (x.run w).notes)

theorem Tells.candid {x : Act ρ I α} (h : Tells ([] : List (Mishap E)) x) : Candid E x := by
  intro w
  rw [ofNotes_silent (h.silent w)]
  exact h.told w

theorem candid_pure (a : α) : Candid E (pure a : Act ρ I α) := (tells_pure a).candid

theorem candid_call (errand : Errand I) (f : Call ρ α) : Candid E (Act.call errand f) := fun _ => .nil

theorem candid_count (f : Call ρ Nat) : Candid E (count f : Act ρ I _) := fun _ => .nil

theorem Candid.bind {x : Act ρ I α} {f : α → Act ρ I β} (hx : Candid E x) (hf : ∀ a, Candid E (f a)) :
    Candid E (x >>= f) := by
  intro w
  rw [Step.run_bind, ofNotes_append, Note.warnings_append]
  exact List.rel_append (hx w) (hf _ _)

theorem Tells.told_exchange {x : Cache.Exchange} {f : Act ρ I α} (h : Tells (ofExchange E x) f) (w : World ρ) :
    List.Forall₂ Told (ofNotes E (.exchange x :: (f.run w).notes))
      (Note.warnings (.exchange x :: (f.run w).notes)) := by
  have alone : ofNotes E (.exchange x :: (f.run w).notes) = ofExchange E x := by
    rw [ofNotes, List.filterMap_cons, Note.exchange?, h.silent]
    exact List.append_nil _
  rw [alone]
  exact h.told w

theorem Tells.told_called {x : Act ρ I α} (h : Tells mishaps x) (errand : Errand I) (w : World ρ) :
    List.Forall₂ Told (ofNotes E (.called errand :: (x.run w).notes) ++ mishaps)
      (Note.warnings (.called errand :: (x.run w).notes)) := by
  have silent : (Note.called errand :: (x.run w).notes).filterMap Note.exchange? = [] := h.silent w
  rw [ofNotes_silent silent]
  exact h.told w

theorem candid_get {key : String} {f : Except CacheError (Option Bytes) → Act ρ I α}
    (h : ∀ reply, Tells (ofExchange E (.get key reply)) (f reply)) : Candid E (get key >>= f) :=
  fun _ => (h _).told_exchange _

theorem candid_scan {start : String} {f : Except CacheError (List (String × Bytes)) → Act ρ I α}
    (h : ∀ reply, Tells (ofExchange E (.scan start reply)) (f reply)) : Candid E (scan start >>= f) :=
  fun _ => (h _).told_exchange _

end Act

/-! ## Lookups -/

namespace Lookup

open Act Mishap

theorem candid_one {key : String} (item : Key.isItem E key = true) : Candid E (one key : Act ρ I (Option E)) := by
  refine candid_get fun reply => ?_
  match reply with
  | .error error => exact (tells_report (.get key error)).thenQuiet fun _ => tells_pure _
  | .ok none => exact tells_pure _
  | .ok (some bytes) =>
      dsimp only
      split
      · next e decoded =>
          rw [ofExchange_get, decoded, Option.isNone_some, Bool.and_false]
          exact tells_pure _
      · next undecodable =>
          rw [ofExchange_get, item, undecodable]
          exact (tells_report (.undecodable key bytes)).thenQuiet fun _ => tells_pure _

theorem tells_decodeAll {entries : List (String × Bytes)}
    (items : ∀ entry ∈ entries, Key.isItem E entry.1 = true) :
    Tells (unread E entries) (decodeAll entries : Act ρ I (List E)) := by
  induction entries with
  | nil => exact tells_pure _
  | cons entry entries ih =>
      rw [List.forall_mem_cons] at items
      have rest := ih items.2
      rw [decodeAll, unread]
      split
      · next e decoded =>
          rw [List.filter_cons_of_neg (by simp [decoded])]
          exact rest.thenQuiet fun _ => tells_pure _
      · next undecodable =>
          rw [List.filter_cons_of_pos (by simp [items.1, undecodable])]
          exact (tells_report (.undecodable entry.1 entry.2)).bind fun _ => rest

theorem candid_family : Candid E (family : Act ρ I (List E)) := by
  refine candid_scan fun reply => ?_
  cases reply with
  | error error => exact (tells_report (.scan _ error)).thenQuiet fun _ => tells_pure _
  | ok entries =>
      have items : unread E (entries.filter fun entry => Key.isItem E entry.1) = unread E entries := by
        simp only [unread, List.filter_filter, Bool.and_comm, Bool.and_left_comm, Bool.and_self]
      show Tells (unread E entries) _
      rw [← items]
      exact tells_decodeAll fun entry member => (List.mem_filter.1 member).2

theorem candid_marker : Candid E (marker E : Act ρ I Bool) := by
  refine candid_get fun reply => ?_
  match reply with
  | .error error => exact (tells_report (.get _ error)).thenQuiet fun _ => tells_pure _
  | .ok none => exact tells_pure _
  | .ok (some bytes) =>
      -- no entity belongs in the place of the marker, so whatever lies there is no mishap
      rw [ofExchange_get, Key.isItem_family, Bool.false_and]
      exact tells_pure _

end Lookup

variable (E) in
theorem Act.closed_candid : Policy.Closed E (fun {α : Type} (x : Act ρ I α) => Candid E x) where
  pure := candid_pure
  bind := Candid.bind
  report _ quiet := (tells_quiet quiet.level).candid
  one _ item := Lookup.candid_one item
  family := Lookup.candid_family
  marker := Lookup.candid_marker
  call := candid_call
  count := candid_count

/-! ## Operations -/

namespace Policy

open Act Lookup Mishap

theorem tells_identityKey (e : E) : Tells (keylessAmong [e]) (identityKey e : Act ρ I (Option String)) := by
  rw [identityKey, keylessAmong]
  by_cases identity : Entity.hasIdentity e = true
  · rw [if_pos identity]
    by_cases empty : Entity.renderId E (Entity.id e) = ""
    · have keyless : Key.item E (Entity.id e) = .error (.emptyId (Entity.typeName E)) := if_pos empty
      rw [keyless, List.filter_cons_of_pos (by simp [identity, empty])]
      exact (tells_report (.keyless e)).thenQuiet fun _ => tells_pure _
    · have keyed : Key.item E (Entity.id e) = .ok (Key.family E ++ Entity.renderId E (Entity.id e)) := if_neg empty
      rw [keyed, List.filter_cons_of_neg (by simp [empty])]
      exact tells_pure _
  · rw [if_neg identity, List.filter_cons_of_neg (by simp [identity])]
    exact tells_pure _

theorem tells_storing (e : E) : Tells (keylessAmong [e]) (storing e : Act ρ I (List (Change E))) :=
  (tells_identityKey e).thenQuiet fun key? => by cases key? <;> exact tells_pure _

theorem tells_clearing (e : E) : Tells (keylessAmong [e]) (clearing e : Act ρ I (List (Change E))) :=
  (tells_identityKey e).thenQuiet fun key? => by cases key? <;> exact tells_pure _

theorem tells_storingAll (es : List E) : Tells (keylessAmong es) (storingAll es : Act ρ I (List (Change E))) := by
  induction es with
  | nil => exact tells_pure _
  | cons e es ih =>
      rw [keylessAmong_cons]
      exact (tells_storing e).bind fun _ => ih.thenQuiet fun _ => tells_pure _

theorem tells_collecting (p : Policy ρ E) (all : Bool) (es : List E) :
    Tells (keylessAmong es) (p.collecting all es : Act ρ I (List (Change E))) := by
  rw [collecting]
  split
  · next marks =>
      simp only [Bool.and_eq_true, List.isEmpty_iff] at marks
      rw [marks.1.2]
      exact tells_pure _
  · exact tells_storingAll es

theorem tells_keepSaved (p : Policy ρ E) (e : E) (answer : Except RepositoryError E) :
    Tells (keylessAmong [answer.toOption.getD e]) (p.keepSaved e answer : Act ρ I _) := by
  cases answer with
  | ok persisted => exact (tells_storing persisted).thenQuiet fun _ => tells_pure _
  | error error => exact .afterQuiet rfl ((tells_clearing e).thenQuiet fun _ => tells_pure _)

theorem tells_keepMany (p : Policy ρ E) (ids : List I) (answer : Except RepositoryError (List (Option E))) :
    Tells (keylessAmong ((p.collected ids.isEmpty answer).result.toOption.getD [])) (p.keepMany ids answer) := by
  cases answer with
  | error error => exact tells_pure _
  | ok replies => exact .afterQuiet rfl ((p.tells_collecting _ _).thenQuiet fun _ => tells_pure _)

end Policy

/-- The entities for which a key was to be formed: the one that was written, or was to be, and all those that
the keeper gave where the cache did not answer. -/
def Operation.keyed : (operation : Operation ρ E I) →
    Outcome (World ρ) (Note I) (Deferred E operation.Value) → List E
  | save e _, outcome => [outcome.value.result.toOption.getD e]
  | getMany .., outcome =>
    if (outcome.notes.filterMap Note.errand?).isEmpty then [] else outcome.value.result.toOption.getD []
  | _, _ => []

open Act Mishap Policy

theorem Operation.told_defer (p : Policy ρ E) (operation : Operation ρ E I) (w : World ρ) :
    let outcome := (operation.defer p).run w
    List.Forall₂ Told (ofNotes E outcome.notes ++ keylessAmong (operation.keyed outcome))
      (Note.warnings outcome.notes) := by
  intro outcome
  have of_candid (candid : Candid E (operation.defer p)) (unkeyed : operation.keyed outcome = []) :
      List.Forall₂ Told (ofNotes E outcome.notes ++ keylessAmong (operation.keyed outcome))
        (Note.warnings outcome.notes) := by
    rw [unkeyed]
    exact (List.append_nil _).symm ▸ candid w
  have closed := closed_candid (ρ := ρ) E
  cases operation with
  | get id fetch => exact of_candid (p.closed_get closed id fetch) rfl
  | getCached id => exact of_candid (closed.bind (closed_getCached closed.toClosed id) fun _ => candid_pure _) rfl
  | contains id fetch => exact of_candid (closed.bind (closed_contains closed id fetch) fun _ => candid_pure _) rfl
  | remove e persist => exact of_candid (p.closed_remove closed e persist) rfl
  | save e persist =>
      have keyed : (save e persist).keyed outcome = [(persist w.keeper).1.toOption.getD e] := by
        show [((p.save e persist).run w).value.result.toOption.getD e] = _
        rw [p.result_save]
        cases (persist w.keeper).1 <;> rfl
      rw [keyed]
      show List.Forall₂ Told (ofNotes E ((p.save e persist).run w).notes ++ _)
        (Note.warnings ((p.save e persist).run w).notes)
      rw [save_eq, Step.run_bind, run_call]
      exact (p.tells_keepSaved e _).told_called _ _
  | getMany ids fetch =>
      have candid := p.closed_readCached closed ids w
      -- no key is formed for what the cache answers by itself
      have answered (same : outcome.notes = ((p.readCached ids).run w).notes) :
          List.Forall₂ Told (ofNotes E outcome.notes ++ keylessAmong ((getMany ids fetch).keyed outcome))
            (Note.warnings outcome.notes) := by
        rw [keyed, same, p.errands_readCached]
        exact (List.append_nil _).symm ▸ candid
      match cached : ((p.readCached ids).run w).value with
      | .error error => exact answered (congrArg Outcome.notes (getMany_of_error cached fetch))
      | .ok (some es) => exact answered (congrArg Outcome.notes (getMany_of_hit cached fetch))
      | .ok none =>
          obtain ⟨value, -, called⟩ := getMany_of_miss cached fetch
          have keyed : (getMany ids fetch).keyed outcome = (p.collected ids.isEmpty
              (fetch ids ((p.readCached ids).run w).state.keeper).1).result.toOption.getD [] := by
            show (if (((p.getMany ids fetch).run w).notes.filterMap Note.errand?).isEmpty then []
              else ((p.getMany ids fetch).run w).value.result.toOption.getD []) = _
            rw [called, value]
            rfl
          rw [keyed]
          show List.Forall₂ Told (ofNotes E ((p.getMany ids fetch).run w).notes ++ _)
            (Note.warnings ((p.getMany ids fetch).run w).notes)
          rw [getMany_eq, Step.run_bind, cached, ofNotes_append, Note.warnings_append, List.append_assoc]
          exact List.rel_append candid ((p.tells_keepMany ids _).told_called _ _)

/-! ## Changes -/

section

variable {ttl : Option Span} {deadline : Option Nat} {change : Change E} {changes : List (Change E)}
  {x : Cache.Exchange} {notes : List (Note I)} {w w' : World ρ}

theorem Mishap.unencodable?_of_asked {r : Cache.Request} (asked : change.request? ttl = some r) :
    unencodable? change = none := by
  cases change with
  | store key e =>
      rw [Change.request?] at asked
      rw [unencodable?]
      split
      · rfl
      · next encoded =>
          rw [encoded] at asked
          cases asked
  | _ => rfl

theorem Change.told_failed {r : Cache.Request} (asked : change.request? ttl = some r) (error : CacheError) :
    Mishap.Told (.failed r error : Mishap E) (change.failed error) := by
  cases change with
  | store key e =>
      obtain ⟨value, -, rfl⟩ := Option.map_eq_some_iff.1 asked
      exact .set key value ttl error
  | mark key =>
      cases asked
      exact .mark key ttl error
  | clear key =>
      cases asked
      exact .delete key error

theorem Cache.Exchange.brought_of_writes (writes : x.request.method = .set ∨ x.request.method = .delete) :
    x.brought = [] := by
  cases x with
  | get key reply => rcases writes with writes | writes <;> cases writes
  | scan start reply => rcases writes with writes | writes <;> cases writes
  | set key value ttl reply => rfl
  | delete key reply => rfl

theorem Mishap.ofExchange_of_asked (asked : change.request? ttl = some x.request) :
    ofExchange E x = x.error?.toList.map (.failed x.request) := by
  rw [ofExchange, Cache.Exchange.brought_of_writes (Change.writes_of_asked asked)]
  exact List.append_nil _

theorem Change.Trace.told (h : change.Trace ttl notes) (changes : List (Change E)) (xs : List Cache.Exchange) :
    ∃ mishaps, ofChanges (change :: changes) (notes.filterMap Note.exchange? ++ xs) =
        mishaps ++ ofChanges changes xs ∧ List.Forall₂ Told mishaps (Note.warnings notes) := by
  cases h with
  | @done _ x asked granted =>
      refine ⟨ofExchange E x, ?_, ?_⟩
      · rw [ofChanges, unencodable?_of_asked asked]
        rfl
      · rw [ofExchange_of_asked asked, granted]
        exact .nil
  | @refused _ x error asked refused =>
      have told := change.told_failed asked error
      refine ⟨ofExchange E x, ?_, ?_⟩
      · rw [ofChanges, unencodable?_of_asked asked]
        rfl
      · rw [ofExchange_of_asked asked, refused]
        have warned : Note.warnings ([.exchange x, .event (change.failed error)] : List (Note I)) =
            [change.failed error] :=
          List.filter_cons_of_pos (decide_eq_true told.warns)
        rw [warned]
        exact .cons told .nil
  | @unencodable key e reason encoded =>
      refine ⟨[.unencodable key e reason], ?_, .cons (.unencodable key e reason) .nil⟩
      have unstored : unencodable? (.store key e) = some (.unencodable key e reason) := by
        rw [unencodable?, encoded]
      rw [ofChanges, unstored]
      rfl

theorem Batch.Applied.told (h : Applied ttl deadline changes w w' notes) :
    List.Forall₂ Told (ofChanges changes (notes.filterMap Note.exchange?)) (Note.warnings notes) := by
  induction h with
  | nil => exact .nil
  | @cons change changes _ _ _ notes notes' applied _ ih =>
      obtain ⟨mishaps, first, told⟩ := applied.trace.told changes (notes'.filterMap Note.exchange?)
      rw [List.filterMap_append, first, Note.warnings_append]
      exact List.rel_append told ih

end

/-- Each time the cache refuses something, or gives something under the key of an entity that is none, and
for each entity that has no stored form, or that has identity but no key, there is one warning, and all these
come in order. There are no other warnings. -/
theorem warnings_tell_mishaps (p : Policy ρ E) (operation : Operation ρ E I) (w w' : World ρ)
    {deadline : Option Nat} (fits : w'.link.memory.deadline p.options.ttl = .ok deadline) :
    let outcome := (operation.defer p).run w
    let committed := outcome.value.committed w'
    committed.value = .ok outcome.value.result ∧
      List.Forall₂ Told
        (ofNotes E outcome.notes ++ keylessAmong (operation.keyed outcome) ++
          ofChanges outcome.value.outbox.changes (committed.notes.filterMap Note.exchange?))
        (Note.warnings (outcome.notes ++ committed.notes)) := by
  intro outcome committed
  have before := operation.told_defer p w
  rw [Note.warnings_append]
  cases held : outcome.value.outbox.batch? with
  | none =>
      have idle : committed = ⟨.ok outcome.value.result, w', []⟩ := by
        refine Deferred.run_commit ?_
        rw [Outbox.discharge, held]
        rfl
      have nothing : outcome.value.outbox.changes = [] := by
        rw [Outbox.changes, held]
        rfl
      rw [idle, nothing]
      exact ⟨rfl, List.rel_append before .nil⟩
  | some batch =>
      rw [← (operation.answers_defer p w).lifetime batch held] at fits
      obtain ⟨after, notes, -, applied, discharged⟩ := Outbox.run_discharge (I := I) fits
      have outbox : outcome.value.outbox = ⟨some batch⟩ := congrArg Outbox.mk held
      have done : committed = ⟨.ok outcome.value.result, after,
          .event (.discharging batch.changes.length) :: notes⟩ := by
        refine Deferred.run_commit ?_
        rw [outbox]
        exact discharged
      rw [done, outbox]
      exact ⟨rfl, List.rel_append before applied.told⟩

theorem spoilt_tokens_told :
    let p : Policy Unit AccessToken := .new ⟨false, true, some 5⟩
    let keyless : AccessToken := ⟨"", true, false⟩
    let poisoned : AccessToken := ⟨"b", true, true⟩
    let plain : AccessToken := ⟨"c", true, false⟩
    let operation : Operation Unit AccessToken String :=
      .getMany [] fun _ k => (.ok [some keyless, some poisoned, none, some plain], k)
    let faults : Cache.Faults := .ofRules [⟨.get, none, .connectionFailed "down"⟩,
      ⟨.set, none, .operationFailed "full"⟩]
    let w : World Unit := ⟨⟨⟨⟨2, [⟨"uRepo_Token_a", [0], none⟩]⟩, 10⟩, faults, 0⟩, ()⟩
    let outcome := (operation.defer p).run w
    let committed := outcome.value.committed outcome.state
    w.link.memory.deadline p.options.ttl = .ok (some 15) ∧ committed.value = .ok outcome.value.result ∧
      Note.warnings (outcome.notes ++ committed.notes) =
        [.undecodable "uRepo_Token_a" [0], .readFailed "uRepo_Token_" (.connectionFailed "down"),
          .keyless (.emptyId "Token"), .unencodable "uRepo_Token_b" (.encodingFailed "poisoned"),
          .storeFailed "uRepo_Token_c" (.operationFailed "full")] ∧
      List.Forall₂ Told
        [.undecodable "uRepo_Token_a" [0], .failed (.get "uRepo_Token_") (.connectionFailed "down"),
          .keyless keyless, .unencodable "uRepo_Token_b" poisoned "poisoned",
          .failed (.set "uRepo_Token_c" (AccessToken.format.encode plain) (some 5)) (.operationFailed "full")]
        (Note.warnings (outcome.notes ++ committed.notes)) := by
  intro p keyless poisoned plain operation faults w outcome committed
  have fits : w.link.memory.deadline p.options.ttl = .ok (some 15) := by
    dsimp only [w, p]
    cbv
  have now : outcome.state.link.memory.deadline p.options.ttl = .ok (some 15) := by
    dsimp only [outcome, operation, faults, w, p]
    cbv
  have read : ofNotes AccessToken outcome.notes =
      [.undecodable "uRepo_Token_a" [0], .failed (.get "uRepo_Token_") (.connectionFailed "down")] := by
    dsimp only [outcome, operation, faults, w, p]
    cbv
  have called : outcome.notes.filterMap Note.errand? = [.fetchMany []] := by
    dsimp only [outcome, operation, faults, w, p]
    cbv
  have result : outcome.value.result = .ok [keyless, poisoned, plain] := by
    dsimp only [outcome, operation, faults, w, p]
    cbv
  have met : operation.keyed outcome = [keyless, poisoned, plain] := by
    show (if (outcome.notes.filterMap Note.errand?).isEmpty then [] else outcome.value.result.toOption.getD []) = _
    rw [called, result]
    rfl
  have scheduled : outcome.value.outbox.changes =
      [.store "uRepo_Token_b" poisoned, .store "uRepo_Token_c" plain] := by
    dsimp only [outcome, operation, faults, w, p]
    cbv
  have asked : committed.notes.filterMap Note.exchange? = [.set "uRepo_Token_c" (AccessToken.format.encode plain)
      (some 5) (.error (.operationFailed "full"))] := by
    dsimp only [committed, outcome, operation, faults, w, p]
    cbv
  have events : (outcome.notes ++ committed.notes).filterMap Note.event? =
      [.undecodable "uRepo_Token_a" [0], .readFailed "uRepo_Token_" (.connectionFailed "down"), .fetched "Token" 0 3,
        .keyless (.emptyId "Token"), .discharging 2, .unencodable "uRepo_Token_b" (.encodingFailed "poisoned"),
        .storeFailed "uRepo_Token_c" (.operationFailed "full")] := by
    dsimp only [committed, outcome, operation, faults, w, p]
    cbv
  have warnings : Note.warnings (outcome.notes ++ committed.notes) =
      [.undecodable "uRepo_Token_a" [0], .readFailed "uRepo_Token_" (.connectionFailed "down"),
        .keyless (.emptyId "Token"), .unencodable "uRepo_Token_b" (.encodingFailed "poisoned"),
        .storeFailed "uRepo_Token_c" (.operationFailed "full")] := by
    rw [Note.warnings, events]
    rfl
  obtain ⟨settled, told⟩ := warnings_tell_mishaps p operation w outcome.state now
  rw [read, met, scheduled, asked] at told
  exact ⟨fits, settled, warnings, told⟩

end Lookaside
