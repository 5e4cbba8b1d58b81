import Lookaside.Entity.AccessToken
import Lookaside.Proofs.Eviction
import Lookaside.Proofs.Filling
import Mathlib

/-!
# Only the latest batch

Whatever is put into an outbox and taken out again, what a discharge applies is the batch put in last
since it was last emptied. Each of its changes asks the cache for one thing, in order, whether or not
earlier ones were refused. If none is and no key has to give way, what is found under a key afterwards is
what the last change of that key has left there.
-/

namespace Lookaside

variable {ρ E I : Type}

/-! ## The use of an outbox -/

namespace Outbox

inductive Use (E : Type) where
  | schedule (batch : Batch E)
  | take
deriving DecidableEq, Repr

def Use.batch? : Use E → Option (Batch E)
  | .schedule batch => some batch
  | .take => none

def use (outbox : Outbox E) : Use E → Act ρ I (Outbox E)
  | .schedule batch => outbox.schedule batch
  | .take => pure outbox.take.2

def useAll (outbox : Outbox E) (uses : List (Use E)) : Act ρ I (Outbox E) :=
  uses.foldlM use outbox

def sinceTaken (uses : List (Use E)) : List (Batch E) :=
  (uses.reverse.takeWhile (·.batch?.isSome)).filterMap Use.batch?

def latest? (uses : List (Use E)) : Option (Batch E) := (sinceTaken uses).head?

theorem latest?_concat (uses : List (Use E)) (last : Use E) : latest? (uses ++ [last]) = last.batch? := by
  rw [latest?, sinceTaken, List.reverse_append]
  cases last <;> rfl

open Act

theorem reports_use (outbox : Outbox E) (u : Use E) : Reports (outbox.use u : Act ρ I _) ⟨u.batch?⟩ := by
  cases u with
  | take => exact reports_pure _
  | schedule batch =>
      rw [use, schedule]
      split
      · exact (reports_pure _).after .replaced
      · exact reports_pure _

theorem reports_useAll (uses : List (Use E)) :
    Reports (empty.useAll uses : Act ρ I (Outbox E)) ⟨latest? uses⟩ := by
  -- from the last use backwards, because it alone decides what the outbox holds
  induction uses using List.reverseRecOn with
  | nil => exact reports_pure empty
  | append_singleton uses last ih =>
      rw [latest?_concat, useAll, List.foldlM_append]
      refine ih.bind ?_
      rw [List.foldlM_cons]
      exact (reports_use _ last).bind (reports_pure _)

end Outbox

variable [Entity E I]

/-! ## What is asked of the cache -/

section

variable {ttl : Option Span} {deadline : Option Nat} {w w' : World ρ} {notes : List (Note I)}

theorem Change.Trace.requests {change : Change E} (h : change.Trace ttl notes) :
    (notes.filterMap Note.exchange?).map Cache.Exchange.request = (change.request? ttl).toList := by
  cases h with
  | done asked granted =>
      rw [asked]
      rfl
  | refused asked refused =>
      rw [asked]
      rfl
  | unencodable encoded =>
      rw [Change.request?, encoded]
      rfl

theorem Batch.Applied.requests {changes : List (Change E)} (h : Applied ttl deadline changes w w' notes) :
    (notes.filterMap Note.exchange?).map Cache.Exchange.request =
      changes.filterMap (Change.request? ttl) := by
  induction h with
  | nil => rfl
  | @cons change changes w w' w'' notes notes' applied _ ih =>
      rw [List.filterMap_append, List.map_append, applied.trace.requests, ih, List.filterMap_cons]
      cases change.request? ttl <;> rfl

/-! ## Changes that are all granted -/

open Act in
theorem Change.refusal_of_isRefused {change : Change E} (refused : change.isRefused w.link ttl = true) :
    ∃ x ∈ (Step.run (ExceptT.run (change.apply ttl : Effect ρ I Unit)) w).notes.filterMap Note.exchange?,
      x.error? ≠ none := by
  have set_refused {key : String} {value : Bytes}
      (failed : (w.link.fault? (.set key value ttl)).isSome = true)
      (f : Except CacheError Unit → Effect ρ I Unit) :
      ∃ x ∈ (Step.run (ExceptT.run (Act.set key value ttl >>= f)) w).notes.filterMap Note.exchange?,
        x.error? ≠ none := by
    obtain ⟨error, fault⟩ := Option.isSome_iff_exists.1 failed
    refine ⟨.set key value ttl (.error error), ?_, Option.some_ne_none error⟩
    rw [ExceptT.run_bind, Step.run_bind, run_set, Cache.Link.set, fault]
    exact List.mem_cons_self
  cases change with
  | store key e =>
      rw [isRefused, request?] at refused
      rw [apply]
      cases encoded : Entity.encode e with
      | error reason =>
          rw [encoded] at refused
          cases refused
      | ok value =>
          rw [encoded] at refused
          exact set_refused refused _
  | mark key => exact set_refused refused _
  | clear key =>
      obtain ⟨error, fault⟩ := Option.isSome_iff_exists.1 refused
      refine ⟨.delete key (.error error), ?_, Option.some_ne_none error⟩
      rw [apply, Effect.run_lift, Step.run_bind, run_delete, Cache.Link.delete, fault]
      exact List.mem_cons_self

theorem Batch.stored_of_granted (fits : w.link.memory.deadline ttl = .ok deadline) {changes : List (Change E)}
    (run : Step.run (ExceptT.run (applyAll ttl changes : Effect ρ I Unit)) w = ⟨.ok (), w', notes⟩)
    (granted : ∀ x ∈ notes.filterMap Note.exchange?, x.error? = none) :
    w.Stored (changes.foldl (Change.make deadline) w.link.memory.store) w' := by
  induction changes generalizing w notes with
  | nil =>
      cases run
      exact World.stored_self _
  | cons change changes ih =>
      obtain ⟨between, first, made, applied⟩ := change.applied_apply (I := I) fits
      rw [applyAll, ExceptT.run_bind, Step.run_bind, made] at run
      dsimp only at run
      rcases rest : Step.run (ExceptT.run (applyAll ttl changes : Effect ρ I Unit)) between with ⟨_, _, later⟩
      rw [rest] at run
      cases run
      rw [List.filterMap_append, List.forall_mem_append] at granted
      have stored := applied.stored
      have unrefused : change.isRefused w.link ttl = false := by
        rw [← Bool.not_eq_true]
        intro refused
        obtain ⟨x, member, error⟩ := Change.refusal_of_isRefused (I := I) refused
        rw [made] at member
        exact error (granted.1 x member)
      rw [unrefused, if_neg Bool.false_ne_true] at stored
      have later := ih (by rw [stored.memory]; exact fits) rest granted.2
      rw [stored.memory] at later
      exact stored.trans later

end

/-! ## What the changes leave -/

namespace Change

def leaves? (deadline : Option Nat) : Change E → Option (Option Entry)
  | store key e => (Entity.encode e).toOption.map fun value => some ⟨key, value, deadline⟩
  | mark key => some (some ⟨key, Marker.bytes, deadline⟩)
  | clear _ => some none

def keysAfter (keys : Finset String) : Change E → Finset String
  | store key e => if (Entity.encode e).isOk then insert key keys else keys
  | mark key => insert key keys
  | clear key => keys.erase key

end Change

namespace Store

/-- There is room for all keys that are stored at a time while changes are made. -/
def HasRoom (s : Store) (changes : List (Change E)) : Prop :=
  ∀ earlier, earlier <+: changes → (earlier.foldl Change.keysAfter s.keys.toFinset).card ≤ s.capacity

variable {s : Store}

theorem WellFormed.find?_push_of_card (wf : s.WellFormed) (e : Entry)
    (room : (insert e.key s.keys.toFinset).card ≤ s.capacity) (key : String) :
    (s.push e).find? key = if e.key = key then some e else s.find? key := by
  split
  · next same =>
      subst same
      exact find?_push_self (Nat.lt_of_lt_of_le (Finset.card_pos.2 (Finset.insert_nonempty _ _)) room) e
  · next other =>
      refine wf.find?_push_of_room e ?_ (Ne.symm other)
      by_cases stored : e.key ∈ s.keys
      · exact .inl stored
      · have all : s.keys.toFinset.card = s.keys.length := List.toFinset_card_of_nodup wf.distinct
        rw [Finset.card_insert_of_notMem (by rwa [List.mem_toFinset]), all] at room
        exact .inr room

theorem WellFormed.keys_push_of_card (wf : s.WellFormed) (e : Entry)
    (room : (insert e.key s.keys.toFinset).card ≤ s.capacity) :
    (s.push e).keys.toFinset = insert e.key s.keys.toFinset := by
  ext key
  rw [List.mem_toFinset, ← find?_isSome, wf.find?_push_of_card e room, Finset.mem_insert, List.mem_toFinset,
    ← find?_isSome]
  split
  · next same => simp [same]
  · next other => simp [Ne.symm other]

variable {deadline : Option Nat} {change : Change E} {changes : List (Change E)}

theorem WellFormed.find?_make (wf : s.WellFormed) (room : (change.keysAfter s.keys.toFinset).card ≤ s.capacity)
    (key : String) : (change.make deadline s).find? key =
      if change.key = key then (change.leaves? deadline).getD (s.find? key) else s.find? key := by
  cases change with
  | store key' e =>
      rw [Change.make, Change.leaves?]
      rw [Change.keysAfter] at room
      cases encoded : Entity.encode e with
      | error reason => exact (ite_self _).symm
      | ok value =>
          rw [encoded] at room
          exact wf.find?_push_of_card ⟨key', value, deadline⟩ room key
  | mark key' => exact wf.find?_push_of_card ⟨key', Marker.bytes, deadline⟩ room key
  | clear key' =>
      refine (s.find?_erase key' key).trans ?_
      simp only [eq_comm (a := key)]
      rfl

theorem WellFormed.keys_make (wf : s.WellFormed) (room : (change.keysAfter s.keys.toFinset).card ≤ s.capacity) :
    (change.make deadline s).keys.toFinset = change.keysAfter s.keys.toFinset := by
  cases change with
  | store key e =>
      rw [Change.make]
      rw [Change.keysAfter] at room ⊢
      cases encoded : Entity.encode e with
      | error reason => rfl
      | ok value =>
          rw [encoded] at room
          exact wf.keys_push_of_card ⟨key, value, deadline⟩ room
  | mark key => exact wf.keys_push_of_card ⟨key, Marker.bytes, deadline⟩ room
  | clear key =>
      ext k
      rw [Change.make, Change.keysAfter, keys_erase]
      simp [and_comm]

theorem foldl_keysAfter_subset (keys : Finset String) (changes : List (Change E)) :
    changes.foldl Change.keysAfter keys ⊆ keys ∪ (changes.map Change.key).toFinset := by
  induction changes generalizing keys with
  | nil => exact Finset.subset_union_left
  | cons change changes ih =>
      have first : change.keysAfter keys ⊆ insert change.key keys := by
        cases change with
        | store key e =>
            rw [Change.keysAfter]
            split
            · exact Finset.Subset.refl _
            · exact Finset.subset_insert _ _
        | mark key => exact Finset.Subset.refl _
        | clear key => exact (Finset.erase_subset _ _).trans (Finset.subset_insert _ _)
      refine (ih _).trans ((Finset.union_subset_union_left first).trans ?_)
      rw [List.map_cons, List.toFinset_cons, Finset.insert_union, Finset.union_insert]

theorem hasRoom_of_card {changes : List (Change E)}
    (few : (s.keys.toFinset ∪ (changes.map Change.key).toFinset).card ≤ s.capacity) : s.HasRoom changes := by
  intro earlier front
  refine Nat.le_trans (Finset.card_le_card ((foldl_keysAfter_subset _ earlier).trans ?_)) few
  refine Finset.union_subset_union_right fun key member => ?_
  exact List.mem_toFinset.2 ((front.map Change.key).subset (List.mem_toFinset.1 member))

theorem HasRoom.first (h : s.HasRoom (change :: changes)) :
    (change.keysAfter s.keys.toFinset).card ≤ s.capacity :=
  h [change] (List.prefix_append [change] changes)

theorem HasRoom.rest (h : s.HasRoom (change :: changes)) (wf : s.WellFormed) :
    (change.make deadline s).HasRoom changes := by
  intro earlier front
  rw [wf.keys_make h.first, change.capacity_make]
  exact h (change :: earlier) ((List.prefix_cons_inj change).2 front)

theorem WellFormed.find?_foldl_make (wf : s.WellFormed) (room : s.HasRoom changes) (key : String) :
    (changes.foldl (Change.make deadline) s).find? key =
      ((changes.filter (·.key = key)).filterMap (Change.leaves? deadline)).getLast?.getD (s.find? key) := by
  induction changes generalizing s with
  | nil => rfl
  | cons change changes ih =>
      rw [List.foldl_cons, ih (wf.make change) (room.rest wf), wf.find?_make room.first]
      by_cases own : change.key = key
      · rw [if_pos own, List.filter_cons_of_pos (by simpa using own), List.filterMap_cons]
        cases change.leaves? deadline with
        | none => rfl
        | some left =>
            rw [List.getLast?_cons]
            rfl
      · rw [if_neg own, List.filter_cons_of_neg (by simpa using own)]

end Store

/-! ## The latest batch -/

/-- What a discharge does is to apply the batch that was put in last since the outbox was last emptied. For
each change it makes one request, in order and with the lifetime of the batch, whatever becomes of the
others, save where an entity has no stored form. If all are granted and there is room for the keys, each key
is left as the last change of it says that was not skipped, and the other keys as they were. -/
theorem latest_batch_applied (uses : List (Outbox.Use E)) (w w' : World ρ) :
    let filled := (Outbox.empty.useAll uses : Act ρ I (Outbox E)).run w
    let discharged := Step.run (ExceptT.run (filled.value.discharge : Effect ρ I Unit)) w'
    let exchanges := discharged.notes.filterMap Note.exchange?
    filled.state = w ∧ filled.notes.filterMap Note.exchange? = [] ∧
      (Outbox.latest? uses = none → discharged = ⟨.ok (), w', []⟩) ∧
      ∀ batch deadline, Outbox.latest? uses = some batch →
        w'.link.memory.deadline batch.ttl = .ok deadline →
        discharged.value = .ok () ∧
        exchanges.map Cache.Exchange.request = batch.changes.filterMap (Change.request? batch.ttl) ∧
        (w'.link.memory.store.WellFormed → w'.link.memory.store.HasRoom batch.changes →
          (∀ x ∈ exchanges, x.error? = none) → ∀ key,
          discharged.state.link.memory.store.find? key =
            ((batch.changes.filter (·.key = key)).filterMap (Change.leaves? deadline)).getLast?.getD
              (w'.link.memory.store.find? key)) := by
  intro filled discharged exchanges
  have reports := Outbox.reports_useAll (ρ := ρ) (I := I) uses
  have held : filled.value = ⟨Outbox.latest? uses⟩ := reports.value w
  refine ⟨reports.state w, ?_, fun nothing => ?_, fun batch deadline latest fits => ?_⟩
  · refine List.filterMap_eq_nil_iff.2 fun note member => ?_
    obtain ⟨e, rfl⟩ := reports.events w note member
    rfl
  · show Step.run (ExceptT.run (filled.value.discharge : Effect ρ I Unit)) w' = _
    rw [held, nothing]
    rfl
  · obtain ⟨after, notes, run, applied, whole⟩ := Outbox.run_discharge (I := I) fits
    rw [← latest, ← held] at whole
    replace whole : discharged = ⟨.ok (), after, .event (.discharging batch.changes.length) :: notes⟩ := whole
    have asked : exchanges = notes.filterMap Note.exchange? := by
      show discharged.notes.filterMap Note.exchange? = _
      rw [whole]
      rfl
    rw [whole, asked]
    refine ⟨rfl, applied.requests, fun wf room granted key => ?_⟩
    have stored := Batch.stored_of_granted fits run granted
    rw [stored.memory]
    exact wf.find?_foldl_make room key

theorem repeated_key_settled :
    let stored (code : String) : Bytes := AccessToken.format.encode ⟨code, true, false⟩
    let batch : Batch AccessToken := ⟨[.store "k" ⟨"a", true, false⟩, .mark "k", .store "p" ⟨"b", true, true⟩,
      .clear "q", .store "k" ⟨"c", true, false⟩], some 5⟩
    let uses : List (Outbox.Use AccessToken) := [.schedule ⟨[.mark "s"], none⟩, .take,
      .schedule ⟨[.clear "r"], none⟩, .schedule batch]
    let w : World Unit := ⟨.ofMemory ⟨⟨4, [⟨"q", [1], none⟩, ⟨"r", [2], none⟩]⟩, 10⟩, ()⟩
    let cut : World Unit := ⟨⟨w.link.memory, fun _ r => if r.method = .set then some (.operationFailed "down")
      else none, 0⟩, ()⟩
    let outbox := ((Outbox.empty.useAll uses : Act Unit String (Outbox AccessToken)).run w).value
    let discharge := fun w => Step.run (ExceptT.run (outbox.discharge : Effect Unit String Unit)) w
    (((discharge cut).notes.filterMap Note.exchange?).map Cache.Exchange.request =
      [.set "k" (stored "a") (some 5), .set "k" Marker.bytes (some 5), .delete "q",
        .set "k" (stored "c") (some 5)]) ∧
      (discharge w).state.link.memory.store.find? "k" = some ⟨"k", stored "c", some 15⟩ ∧
      (discharge w).state.link.memory.store.find? "q" = none ∧
      (discharge w).state.link.memory.store.find? "r" = some ⟨"r", [2], none⟩ := by
  intro stored batch uses w cut outbox discharge
  have fits : w.link.memory.deadline batch.ttl = .ok (some 15) := by
    dsimp only [w, batch]
    cbv
  have granted : ((discharge w).notes.filterMap Note.exchange?).map Cache.Exchange.error? =
      List.replicate 4 none := by
    dsimp only [discharge, outbox, uses, batch, w]
    cbv
  obtain ⟨-, -, -, refused⟩ := latest_batch_applied uses w cut
  obtain ⟨-, asked, -⟩ := refused batch (some 15) rfl fits
  obtain ⟨-, -, -, done⟩ := latest_batch_applied uses w w
  obtain ⟨-, -, left⟩ := done batch (some 15) rfl fits
  have wf : w.link.memory.store.WellFormed := ⟨by decide, by decide⟩
  have room : w.link.memory.store.HasRoom batch.changes := Store.hasRoom_of_card (by decide)
  replace left := left wf room fun x member =>
    List.eq_of_mem_replicate (granted ▸ List.mem_map_of_mem member)
  refine ⟨asked, ?_, ?_, ?_⟩
  · exact left "k"
  · exact left "q"
  · exact left "r"

end Lookaside
