import Lookaside.Proofs.Confinement
import Lookaside.Proofs.Deferral
import Lookaside.Proofs.Transparency
import Mathlib

namespace Lookaside

variable {ρ E I : Type}

/-! ## Stores after changes -/

namespace Store

variable {s s' : Store}

/-- What lay under some keys is gone, and everything else is as it was. -/
def Cleared (keys : List String) (s s' : Store) : Prop :=
  ∀ k, s'.find? k = if k ∈ keys then none else s.find? k

theorem cleared_nil (s : Store) : Cleared [] s s :=
  fun _ => rfl

theorem Cleared.erase {keys : List String} (h : Cleared keys s s') (key : String) :
    Cleared (keys ++ [key]) s (s'.erase key) := by
  intro k
  rw [find?_erase, h k]
  by_cases last : k = key <;> simp [last]

/-- An entry is there, nothing lies under a family key, and at most one other entry has given way. -/
structure Renewed (e : Entry) (family : String) (s s' : Store) : Prop where
  item : s'.find? e.key = some e
  cleared : s'.find? family = none
  rest : ∀ k, k ≠ e.key → k ≠ family → s'.find? k = if s.evicts? e.key = some k then none else s.find? k

theorem WellFormed.renewed (wf : s.WellFormed) (room : 0 < s.capacity) {e : Entry} {family : String}
    (other : e.key ≠ family) : Renewed e family s ((s.push e).erase family) where
  item := by rw [find?_erase, if_neg other, find?_push_self room]
  cleared := by rw [find?_erase, if_pos rfl]
  rest k item family := by rw [find?_erase, if_neg family, wf.find?_push e item]

end Store

variable [Entity E I]

/-! ## Commits -/

def Deferred.committed {α : Type} (d : Deferred E α) (w : World ρ) :
    Outcome (World ρ) (Note I) (Except Overflow (Except PolicyError α)) :=
  Step.run (ExceptT.run d.commit) w

theorem Deferred.committed_done {α : Type} {d : Deferred E α} {ttl : Option Span} {deadline : Option Nat}
    {w : World ρ} (spared : w.link.faults.SpareWrites) (fits : w.link.memory.deadline ttl = .ok deadline)
    (lifetime : ∀ batch, d.outbox.batch? = some batch → batch.ttl = ttl) :
    (d.committed w).value = .ok d.result ∧ (d.committed w).state.link.memory.store =
      d.outbox.changes.foldl (Change.make deadline) w.link.memory.store := by
  obtain ⟨value, stored⟩ := Outbox.discharge_done (I := I) spared fits lifetime
  rcases run : Step.run (ExceptT.run (d.outbox.discharge : Effect ρ I Unit)) w with ⟨done, after, notes⟩
  rw [run] at value stored
  cases value
  rw [committed, run_commit run]
  exact ⟨rfl, congrArg Memory.store stored.memory⟩

namespace Policy

variable {p : Policy ρ E} {deadline : Option Nat}

theorem lifetime_scheduled {α : Type} (changes : List (Change E)) (result : Except PolicyError α) :
    ∀ batch, (p.scheduled changes result).outbox.batch? = some batch → batch.ttl = p.options.ttl := by
  rintro _ ⟨⟩
  rfl

theorem foldl_stores {e : E} {key : String} {value : Bytes} (cacheable : cacheKey? e = some key)
    (encoded : Entity.encode e = .ok value) (s : Store) :
    (stores [e]).foldl (Change.make deadline) s = s.push ⟨key, value, deadline⟩ := by
  rw [stores_singleton cacheable, List.foldl_cons, Change.make, encoded]
  rfl

theorem foldl_stores_none {e : E} (unstorable : cacheKey? e = none ∨ ∃ reason, Entity.encode e = .error reason)
    (s : Store) : (stores [e]).foldl (Change.make deadline) s = s := by
  cases keyed : cacheKey? e with
  | none =>
      rw [stores, List.filterMap_cons, keyed]
      rfl
  | some key =>
      obtain ⟨reason, refused⟩ := unstorable.resolve_left (keyed ▸ Option.some_ne_none key)
      rw [stores_singleton keyed, List.foldl_cons, Change.make, refused]
      rfl

theorem cleared_clears (e : E) (s : Store) :
    s.Cleared (cacheKey? e).toList ((clears e).foldl (Change.make deadline) s) := by
  rw [clears]
  cases cacheKey? e with
  | none => exact s.cleared_nil
  | some key => exact s.cleared_nil.erase key

variable {w' : World ρ} (spared : w'.link.faults.SpareWrites)
  (fits : w'.link.memory.deadline p.options.ttl = .ok deadline)
include spared fits

theorem committed_scheduled {α : Type} (changes : List (Change E)) (result : Except PolicyError α) :
    let committed := (p.scheduled (changes ++ [.clear (Key.family E)]) result).committed w'
    committed.value = .ok result ∧ committed.state.link.memory.store =
      (changes.foldl (Change.make deadline) w'.link.memory.store).erase (Key.family E) := by
  intro committed
  obtain ⟨settled, stored⟩ := Deferred.committed_done spared fits
    (lifetime_scheduled (changes ++ [.clear (Key.family E)]) result)
  exact ⟨settled, stored.trans (List.foldl_concat ..)⟩

theorem committed_saved (wf : w'.link.memory.store.WellFormed) (room : 0 < w'.link.memory.store.capacity)
    (e : E) {saved : E} {key : String} {value : Bytes} (cacheable : cacheKey? saved = some key)
    (encoded : Entity.encode saved = .ok value) :
    w'.link.memory.store.Renewed ⟨key, value, deadline⟩ (Key.family E)
      ((p.saved e (.ok saved)).committed w').state.link.memory.store := by
  have stored := (committed_scheduled spared fits (stores [saved]) (.ok saved)).2
  rw [foldl_stores cacheable encoded] at stored
  have item : key ≠ Key.family E := Key.item_ne_family (cacheKey?_some.1 cacheable).2
  exact stored ▸ wf.renewed room item

theorem committed_unstorable (e : E) {saved : E}
    (unstorable : cacheKey? saved = none ∨ ∃ reason, Entity.encode saved = .error reason) :
    w'.link.memory.store.Cleared [Key.family E]
      ((p.saved e (.ok saved)).committed w').state.link.memory.store := by
  have stored := (committed_scheduled spared fits (stores [saved]) (.ok saved)).2
  rw [foldl_stores_none unstorable] at stored
  exact stored ▸ (Store.cleared_nil _).erase _

theorem committed_unsaved (e : E) (error : RepositoryError) :
    w'.link.memory.store.Cleared ((cacheKey? e).toList ++ [Key.family E])
      ((p.saved e (.error error)).committed w').state.link.memory.store := by
  have stored := (committed_scheduled spared fits (clears e)
    (.error (.repository error) : Except PolicyError E)).2
  exact stored ▸ (cleared_clears e _).erase _

theorem committed_removed (key : String) :
    w'.link.memory.store.Cleared [key, Key.family E]
      ((p.removed key (.ok ())).committed w').state.link.memory.store := by
  have stored := (committed_scheduled spared fits [.clear key] (.ok () : Except PolicyError Unit)).2
  exact stored ▸ ((Store.cleared_nil _).erase key).erase _

end Policy

open Policy

/-- What the commits of writes leave of a cache that fails no write, whatever it holds. -/
theorem write_aftermath (p : Policy ρ E) (e : E) (w : World ρ) {w' : World ρ} {deadline : Option Nat}
    (wf : w'.link.memory.store.WellFormed) (room : 0 < w'.link.memory.store.capacity)
    (spared : w'.link.faults.SpareWrites) (fits : w'.link.memory.deadline p.options.ttl = .ok deadline) :
    let before := w'.link.memory.store
    (∀ persist : Call ρ E,
      let saving := (p.save e persist).run w
      let committed := saving.value.committed w'
      let after := committed.state.link.memory.store
      saving.state.link = w.link ∧
        (∀ saved, (persist w.keeper).1 = .ok saved → committed.value = .ok (.ok saved) ∧
          (∀ key value, cacheKey? saved = some key → Entity.encode saved = .ok value →
            before.Renewed ⟨key, value, deadline⟩ (Key.family E) after ∧
              after.lookup? w'.link.memory.now key = some value) ∧
          (cacheKey? saved = none ∨ (∃ reason, Entity.encode saved = .error reason) →
            before.Cleared [Key.family E] after)) ∧
        ∀ error, (persist w.keeper).1 = .error error →
          committed.value = .ok (.error (.repository error)) ∧
            before.Cleared ((cacheKey? e).toList ++ [Key.family E]) after) ∧
      ∀ (persist : Call ρ Unit) (key : String), Key.item E (Entity.id e) = .ok key →
        let removal := (p.remove e persist).run w
        let committed := removal.value.committed w'
        removal.notes.filterMap Note.exchange? = [] ∧ removal.state.link = w.link ∧
          ((persist w.keeper).1 = .ok () → committed.value = .ok (.ok ()) ∧
            before.Cleared [key, Key.family E] committed.state.link.memory.store) ∧
          ∀ error, (persist w.keeper).1 = .error error →
            committed = ⟨.ok (.error (.repository error)), w', []⟩ := by
  intro before
  refine ⟨fun persist => ?_, fun persist key keyed => ?_⟩
  · intro saving committed after
    have link : saving.state.link = w.link := by rw [p.state_save e persist w]
    have deferred : committed = (p.saved e (persist w.keeper).1).committed w' :=
      congrArg (Deferred.committed · w') (p.value_save e persist w)
    refine ⟨link, fun saved written => ?_, fun error failed => ?_⟩
    · rw [written] at deferred
      dsimp only [after]
      rw [deferred]
      refine ⟨(committed_scheduled spared fits (stores [saved]) (.ok saved)).1, ?_, fun unstorable => ?_⟩
      · intro key value cacheable encoded
        have renewed := committed_saved spared fits wf room e cacheable encoded
        exact ⟨renewed, Store.lookup?_of_find? renewed.item (Memory.alive_of_deadline fits key value)⟩
      · exact committed_unstorable spared fits e unstorable
    · rw [failed] at deferred
      dsimp only [after]
      rw [deferred]
      exact ⟨(committed_scheduled spared fits (clears e) _).1, committed_unsaved spared fits e error⟩
  · intro removal committed
    have run : removal = _ := remove_of_key p keyed persist w
    have deferred : committed = (p.removed key (persist w.keeper).1).committed w' :=
      congrArg (fun run : Outcome (World ρ) (Note I) (Deferred E Unit) => run.value.committed w') run
    refine ⟨by rw [run]; rfl, by rw [run], fun gone => ?_, fun error failed => ?_⟩
    · rw [gone] at deferred
      rw [deferred]
      exact ⟨(committed_scheduled spared fits [.clear key] _).1, committed_removed spared fits key⟩
    · rw [failed] at deferred
      exact deferred.trans (Deferred.run_commit rfl)

theorem member_write_aftermath :
    let p : Policy Unit Member := .new ⟨false, false, some 5⟩
    let before : Store := ⟨3, [⟨"uRepo_Member_", Marker.bytes, none⟩, ⟨"uRepo_Member_x", [], none⟩,
      ⟨"other", [255], some 3⟩]⟩
    let w : World Unit := ⟨.ofMemory ⟨before, 10⟩, ()⟩
    let persist : Call Unit Member := fun k => (.ok ⟨7, "ada"⟩, k)
    let after := (((p.save ⟨0, "ada"⟩ persist).run w).value.committed w).state.link.memory.store
    let value := Member.format.encode ⟨7, "ada"⟩
    before.WellFormed ∧ 0 < before.capacity ∧ w.link.faults.SpareWrites ∧
      w.link.memory.deadline p.options.ttl = .ok (some 15) ∧
      before.evicts? "uRepo_Member_7" = some "other" ∧
      before.Renewed ⟨"uRepo_Member_7", value, some 15⟩ "uRepo_Member_" after ∧
      after.lookup? 10 "uRepo_Member_7" = some value := by
  intro p before w persist after value
  have wf : before.WellFormed := ⟨by decide, by decide⟩
  have spared : w.link.faults.SpareWrites := fun _ _ _ => rfl
  have fits : w.link.memory.deadline p.options.ttl = .ok (some 15) := by decide
  have settled := (write_aftermath p ⟨0, "ada"⟩ w wf (by decide) spared fits).1 persist
  obtain ⟨renewed, found⟩ := (settled.2.1 ⟨7, "ada"⟩ rfl).2.1 "uRepo_Member_7" value (by cbv) rfl
  exact ⟨wf, by decide, spared, fits, by decide, renewed, found⟩

/-! ## What is found after a write -/

namespace Change

variable {ttl : Option Span} {deadline : Option Nat} {key : String} {e : E} {l : Cache.Link} {s : Store}
  {warning : Log.Event}

/-- What keeps an entity out of the cache, as it is reported. -/
inductive Unstored (l : Cache.Link) (ttl : Option Span) (key : String) (e : E) : Log.Event → Prop where
  | unencodable {reason : String} (h : Entity.encode e = .error reason) :
    Unstored l ttl key e (.unencodable key (.encodingFailed reason))
  | refused {value : Bytes} {error : CacheError} (encoded : Entity.encode e = .ok value)
    (h : l.fault? (.set key value ttl) = some error) : Unstored l ttl key e (.storeFailed key error)

theorem Unstored.warns (h : Unstored l ttl key e warning) : warning.line.level = .warn := by
  cases h <;> rfl

theorem make_granted {value : Bytes} (encoded : Entity.encode e = .ok value)
    (granted : l.fault? (.set key value ttl) = none) :
    (if (store key e).isRefused l ttl then s else (store key e).make deadline s) =
      s.push ⟨key, value, deadline⟩ := by
  rw [isRefused, request?, make, encoded]
  exact if_neg (by simp [Except.toOption, granted])

theorem Unstored.make (h : Unstored l ttl key e warning) :
    (if (store key e).isRefused l ttl then s else (store key e).make deadline s) = s := by
  rw [isRefused, request?, Change.make]
  cases h with
  | unencodable h =>
      rw [h]
      exact ite_self _
  | refused encoded h =>
      rw [encoded]
      exact if_pos (by simp [Except.toOption, h])

theorem Unstored.reported {w : World ρ} (h : Unstored w.link ttl key e warning) :
    .event warning ∈ (Step.run (ExceptT.run ((store key e).apply ttl : Effect ρ I Unit)) w).notes := by
  rw [apply]
  cases h with
  | unencodable h =>
      rw [h]
      exact List.mem_singleton_self _
  | refused encoded h =>
      rw [encoded]
      dsimp only
      rw [ExceptT.run_bind, Step.run_bind, Act.run_set, Cache.Link.set, h]
      exact List.mem_append_right _ (List.mem_singleton_self _)

end Change

theorem Outbox.mem_notes_discharge {note : Note I} {change : Change E} {ttl : Option Span} {w : World ρ}
    (noted : note ∈ (Step.run (ExceptT.run (change.apply ttl : Effect ρ I Unit)) w).notes)
    (changes : List (Change E)) :
    note ∈ (Step.run (ExceptT.run ((holding ⟨change :: changes, ttl⟩).discharge : Effect ρ I Unit)) w).notes := by
  have applied :
      note ∈ (Step.run (ExceptT.run (Batch.applyAll ttl (change :: changes) : Effect ρ I Unit)) w).notes := by
    rw [Batch.applyAll, ExceptT.run_bind, Step.run_bind]
    exact List.mem_append_left _ noted
  exact List.mem_cons_of_mem _ applied

theorem Batch.Applied.find?_saved {ttl : Option Span} {deadline : Option Nat} {key family : String}
    {saved : E} {w w' : World ρ} {notes : List (Note I)}
    (h : Batch.Applied ttl deadline [.store key saved, .clear family] w w' notes) (item : key ≠ family) :
    w'.link.memory.store.find? key =
      (if (Change.store key saved).isRefused w.link ttl then w.link.memory.store
        else (Change.store key saved).make deadline w.link.memory.store).find? key := by
  obtain _ | ⟨first, _ | ⟨second, _ | _⟩⟩ := h
  have made := congrArg Memory.store first.stored.memory
  have cleared := congrArg Memory.store second.stored.memory
  dsimp only at made cleared
  rw [← made, cleared]
  -- the second change is of no account under the key of the first, whether it is made or refused
  split
  · rfl
  · exact (Store.find?_erase _ _ _).trans (if_neg item)

theorem Policy.value_getCached_eq {id : I} {key : String} (keyed : Key.item E id = .ok key) (w : World ρ) :
    ((getCached id : Act ρ I (Except PolicyError (Option E))).run w).value =
      .ok (if (w.link.fault? (.get key)).isSome then none
        else (w.link.memory.store.lookup? w.link.memory.now key).bind Entity.decode?) := by
  rw [value_getCached keyed w, Cache.Link.value?, Cache.Link.get]
  cases w.link.fault? (.get key) <;> rfl

theorem Policy.found_after_save {p : Policy ρ E} {e saved : E} {persist : Call ρ E} {w w' w'' : World ρ}
    {key : String} {result : Except PolicyError E} {notes : List (Note I)}
    (written : (persist w.keeper).1 = .ok saved) (cacheable : cacheKey? saved = some key)
    (committed : ((p.save e persist).run w).value.committed w' = ⟨.ok result, w'', notes⟩) :
    result = .ok saved ∧ w''.link.memory.now = w'.link.memory.now ∧
      (∀ warning, Change.Unstored w'.link p.options.ttl key saved warning → .event warning ∈ notes) ∧
      ∃ deadline, w''.link.memory.store.find? key =
        (if (Change.store key saved).isRefused w'.link p.options.ttl then w'.link.memory.store
          else (Change.store key saved).make deadline w'.link.memory.store).find? key := by
  have scheduled : p.saved e (.ok saved) = p.scheduled [.store key saved, .clear (Key.family E)] (.ok saved) := by
    rw [Policy.saved, stores_singleton cacheable]
    rfl
  rw [p.value_save, written, scheduled] at committed
  obtain ⟨settled, discharged⟩ := Deferred.of_run_commit committed
  obtain ⟨_, applied⟩ := Outbox.applied_of_done (lifetime_scheduled _ _) discharged
  refine ⟨settled, applied.steady.2, fun warning unstored => ?_, _,
    applied.find?_saved (Key.item_ne_family (cacheKey?_some.1 cacheable).2)⟩
  have noted : .event warning ∈ (Step.run (ExceptT.run ((p.scheduled [.store key saved, .clear (Key.family E)]
      (.ok saved : Except PolicyError E)).outbox.discharge : Effect ρ I Unit)) w').notes :=
    Outbox.mem_notes_discharge unstored.reported _
  rwa [discharged] at noted

/-- A written entity that can be decoded again is found, or nothing, if it was put into the cache. If the cache
refused it or it has no stored form, that is reported, and what is found is what the cache held before, unless
it cannot be read. -/
theorem read_after_save {p : Policy ρ E} {e saved : E} {persist : Call ρ E} {w w' w'' : World ρ} {key : String}
    {result : Except PolicyError E} {notes : List (Note I)}
    (written : (persist w.keeper).1 = .ok saved) (identity : Entity.hasIdentity saved = true)
    (keyed : Key.item E (Entity.id saved) = .ok key)
    (committed : ((p.save e persist).run w).value.committed w' = ⟨.ok result, w'', notes⟩)
    (round_trip : ∀ value, Entity.encode saved = .ok value → Entity.decode? value = some saved) (span : Span) :
    let later := w''.wait span
    let found := ((getCached (Entity.id saved) : Act ρ I (Except PolicyError (Option E))).run later).value
    result = .ok saved ∧
      (∀ value, Entity.encode saved = .ok value → w'.link.fault? (.set key value p.options.ttl) = none →
        found = .ok none ∨ found = .ok (some saved)) ∧
      ∀ warning, Change.Unstored w'.link p.options.ttl key saved warning →
        .event warning ∈ notes ∧ warning.line.level = .warn ∧
          w''.link.memory.store.find? key = w'.link.memory.store.find? key ∧
          found = .ok (if (later.link.fault? (.get key)).isSome then none
            else (w'.link.memory.store.lookup? (w'.link.memory.now + span) key).bind Entity.decode?) := by
  intro later found
  obtain ⟨settled, now, reported, deadline, kept⟩ :=
    found_after_save written (cacheKey?_some.2 ⟨identity, keyed⟩) committed
  have read : found = .ok (if (later.link.fault? (.get key)).isSome then none
      else (w''.link.memory.store.lookup? (w'.link.memory.now + span) key).bind Entity.decode?) :=
    now ▸ value_getCached_eq keyed later
  refine ⟨settled, fun value encoded granted => ?_, fun warning unstored => ?_⟩
  · rw [Change.make_granted encoded granted] at kept
    rw [Store.lookup?_congr kept] at read
    split at read
    · exact .inl read
    · rcases Store.lookup?_push_self w'.link.memory.store ⟨key, value, deadline⟩ (w'.link.memory.now + span)
        with gone | there
      · exact .inl (read.trans (by rw [gone]; rfl))
      · exact .inr (read.trans (by rw [there]; exact congrArg Except.ok (round_trip value encoded)))
  · rw [unstored.make] at kept
    rw [Store.lookup?_congr kept] at read
    exact ⟨reported warning unstored, unstored.warns, kept, read⟩

theorem member_read_after_save :
    let p : Policy Unit Member := .new ⟨false, true, some 5⟩
    let ada := Member.format.encode ⟨1, "ada"⟩
    let full : Cache.Faults := .ofRules [⟨.set, none, .operationFailed "full"⟩]
    let w (faults : Cache.Faults) : World Unit :=
      ⟨⟨⟨⟨2, [⟨"uRepo_Member_1", ada, none⟩, ⟨"uRepo_Member_2", [], none⟩]⟩, 10⟩, faults, 0⟩, ()⟩
    let persist : Call Unit Member := fun k => (.ok ⟨1, "bob"⟩, k)
    let committed (faults : Cache.Faults) := ((p.save ⟨1, "bob"⟩ persist).run (w faults)).value.committed (w faults)
    let found (faults : Cache.Faults) := ((getCached 1 : Act Unit Int32 (Except PolicyError (Option Member))).run
      ((committed faults).state.wait 3)).value
    (persist ()).1 = .ok ⟨1, "bob"⟩ ∧ Entity.hasIdentity (⟨1, "bob"⟩ : Member) = true ∧
      Key.item Member 1 = .ok "uRepo_Member_1" ∧ (committed .never).value = .ok (.ok ⟨1, "bob"⟩) ∧
      (committed full).value = .ok (.ok ⟨1, "bob"⟩) ∧
      (∀ value, Entity.encode (⟨1, "bob"⟩ : Member) = .ok value →
        Entity.decode? value = some (⟨1, "bob"⟩ : Member)) ∧
      (found .never = .ok none ∨ found .never = .ok (some ⟨1, "bob"⟩)) ∧
      .event (.storeFailed "uRepo_Member_1" (.operationFailed "full")) ∈ (committed full).notes ∧
      found full = .ok (some ⟨1, "ada"⟩) := by
  intro p ada full w persist committed found
  have identity : Entity.hasIdentity (⟨1, "bob"⟩ : Member) = true := rfl
  have keyed : Key.item Member 1 = .ok "uRepo_Member_1" := by cbv
  have done : (committed .never).value = .ok (.ok ⟨1, "bob"⟩) := by
    dsimp only [committed, persist, w, p]
    cbv
  have done' : (committed full).value = .ok (.ok ⟨1, "bob"⟩) := by
    dsimp only [committed, persist, w, p, full]
    cbv
  have run : committed .never = ⟨.ok (.ok ⟨1, "bob"⟩), (committed .never).state, (committed .never).notes⟩ := by
    rw [← done]
  have run' : committed full = ⟨.ok (.ok ⟨1, "bob"⟩), (committed full).state, (committed full).notes⟩ := by
    rw [← done']
  have written : (persist ()).1 = .ok ⟨1, "bob"⟩ := rfl
  have round_trip : ∀ value, Entity.encode (⟨1, "bob"⟩ : Member) = .ok value →
      Entity.decode? value = some (⟨1, "bob"⟩ : Member) := fun value encoded => Table.decode?_eq encoded
  have stored := (read_after_save written identity keyed run round_trip 3).2.1 _ rfl rfl
  obtain ⟨warned, -, -, read⟩ := (read_after_save written identity keyed run' round_trip 3).2.2
    (.storeFailed "uRepo_Member_1" (.operationFailed "full")) (.refused rfl (by decide))
  refine ⟨written, identity, keyed, done, done', round_trip, stored, warned, read.trans ?_⟩
  dsimp only [committed, persist, w, p, full, ada]
  cbv

/-- Where the new value is refused, or there is none, an older copy goes on being found. -/
theorem older_copies_left :
    let p : Policy Unit Member := .new .new
    let ada := Member.format.encode ⟨1, "ada"⟩
    let faults := Cache.Faults.ofRules [⟨.set, none, .connectionFailed "down"⟩]
    let w : World Unit := ⟨⟨⟨⟨8, [⟨"uRepo_Member_1", ada, none⟩]⟩, 0⟩, faults, 0⟩, ()⟩
    let committed := ((p.save ⟨1, "bob"⟩ fun k => (.ok ⟨1, "bob"⟩, k)).run w).value.committed w
    let q : Policy Unit AccessToken := .new .new
    let first := AccessToken.format.encode ⟨"t", true, false⟩
    let v : World Unit := ⟨.ofMemory ⟨⟨8, [⟨"uRepo_Token_t", first, none⟩]⟩, 0⟩, ()⟩
    let committed' := ((q.save ⟨"t", true, true⟩ fun k => (.ok ⟨"t", true, true⟩, k)).run v).value.committed v
    faults.SpareDeletes ∧ committed.value = .ok (.ok ⟨1, "bob"⟩) ∧
      ((getCached 1 : Act Unit Int32 (Except PolicyError (Option Member))).run committed.state).value =
        .ok (some ⟨1, "ada"⟩) ∧
      committed'.value = .ok (.ok ⟨"t", true, true⟩) ∧
      ((getCached "t" : Act Unit String (Except PolicyError (Option AccessToken))).run committed'.state).value =
        .ok (some ⟨"t", true, false⟩) := by
  intro p ada faults w committed q first v committed'
  refine ⟨fun _ _ => rfl, ?_, ?_, ?_, ?_⟩
  · dsimp only [committed, w, p, faults]
    cbv
  · dsimp only [committed, w, p, faults, ada]
    cbv
  · dsimp only [committed', v, q]
    cbv
  · dsimp only [committed', v, q, first]
    cbv

end Lookaside
