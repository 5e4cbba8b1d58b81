import Lookaside.Proofs.History
import Lookaside.Proofs.Writing
import Mathlib

namespace Lookaside

namespace Store

variable {s : Store} {key : String}

def keys (s : Store) : List String := s.entries.map (·.key)

theorem mem_keys : key ∈ s.keys ↔ ∃ e ∈ s.entries, e.key = key := List.mem_map

theorem find?_isSome : (s.find? key).isSome ↔ key ∈ s.keys := by
  simp [find?, mem_keys]

theorem keys_erase (s : Store) (key : String) : (s.erase key).keys = s.keys.filter (· ≠ key) := by
  rw [keys, keys, erase, List.filter_map]
  rfl

theorem keys_erase_sublist (s : Store) (key : String) : (s.erase key).keys.Sublist s.keys :=
  List.filter_sublist.map _

theorem keys_push_sublist (s : Store) (e : Entry) :
    (s.push e).keys.Sublist (e.key :: s.keys.filter (· ≠ e.key)) := by
  rw [← keys_erase]
  exact (List.take_sublist _ _).map _

theorem evicts?_of_mem (h : key ∈ s.keys) : s.evicts? key = none :=
  if_pos (.inr (find?_isSome.2 h))

theorem evicts?_of_room (h : s.keys.length < s.capacity) : s.evicts? key = none :=
  if_pos (.inl (by rwa [keys, List.length_map] at h))

theorem evicts?_of_full (new : key ∉ s.keys) (full : s.keys.length = s.capacity) :
    s.evicts? key = s.keys.getLast? := by
  rw [keys, List.length_map] at full
  rw [evicts?, if_neg (by rw [find?_isSome, full]; exact not_or.2 ⟨Nat.lt_irrefl _, new⟩), keys,
    List.getLast?_map]

namespace WellFormed

variable (wf : s.WellFormed)
include wf

theorem find?_push_of_room (e : Entry) (room : e.key ∈ s.keys ∨ s.keys.length < s.capacity)
    {k : String} (other : k ≠ e.key) : (s.push e).find? k = s.find? k := by
  have spared : s.evicts? e.key = none := by
    rcases room with stored | free
    · exact evicts?_of_mem stored
    · exact evicts?_of_room free
  rw [wf.find?_push e other, spared, if_neg (Option.some_ne_none k).symm]

theorem find?_push_of_full (e : Entry) (positive : 0 < s.capacity) (new : e.key ∉ s.keys)
    (full : s.keys.length = s.capacity) :
    ∃ victim, s.keys.getLast? = some victim ∧
      ∀ k ≠ e.key, (s.push e).find? k = if k = victim then none else s.find? k := by
  have some_key : s.keys ≠ [] := List.ne_nil_of_length_pos (full.symm ▸ positive)
  have final := List.getLast?_eq_some_getLast some_key
  refine ⟨_, final, fun k other => ?_⟩
  rw [wf.find?_push e other, evicts?_of_full new full, final]
  simp only [Option.some.injEq, eq_comm]

theorem find?_touch (now : Nat) {k : String} (other : k ≠ key) :
    (s.touch now key).find? k = s.find? k := by
  -- finding a key moves it to the front, so all that changes is its place
  rw [Store.touch]
  split
  · rfl
  · next e found =>
      obtain ⟨member, rfl⟩ := find?_some found
      split
      · rw [find?_erase, if_neg other]
      · exact wf.find?_push_of_room e (.inl (mem_keys.2 ⟨e, member, rfl⟩)) other

end WellFormed

structure Ordered (uses : List String) (keys : List String) : Prop where
  used : ∀ k ∈ keys, k ∈ uses
  later : keys.Pairwise fun k older => k ∈ uses.takeWhile (· ≠ older)

namespace Ordered

variable {uses listed kept : List String}

theorem sublist (h : Ordered uses listed) (part : kept.Sublist listed) : Ordered uses kept :=
  ⟨fun k member => h.used k (part.subset member), h.later.sublist part⟩

theorem use (h : Ordered uses listed) (key : String) :
    Ordered (key :: uses) (key :: listed.filter (· ≠ key)) := by
  have rest := h.sublist (List.filter_sublist (p := fun k => decide (k ≠ key)))
  have other : ∀ k ∈ listed.filter (· ≠ key), key ≠ k := fun k member =>
    Ne.symm (of_decide_eq_true (List.mem_filter.1 member).2)
  have onward : ∀ k ∈ listed.filter (· ≠ key),
      (key :: uses).takeWhile (· ≠ k) = key :: uses.takeWhile (· ≠ k) := fun k member =>
    List.takeWhile_cons_of_pos (decide_eq_true (other k member))
  refine ⟨?_, List.pairwise_cons.2 ⟨?_, ?_⟩⟩
  · rw [List.forall_mem_cons]
    exact ⟨List.mem_cons_self, fun k member => List.mem_cons_of_mem _ (rest.used k member)⟩
  · intro k member
    rw [onward k member]
    exact List.mem_cons_self
  · refine rest.later.imp_of_mem fun {k older} _ member after => ?_
    rw [onward older member]
    exact List.mem_cons_of_mem _ after

theorem since_last (h : Ordered uses listed) {last : String} (final : listed.getLast? = some last)
    {k : String} (member : k ∈ listed) (other : k ≠ last) : k ∈ uses.takeWhile (· ≠ last) := by
  obtain ⟨front, rfl⟩ := List.getLast?_eq_some_iff.1 final
  have before : k ∈ front := by
    simpa [other] using member
  exact (List.pairwise_append.1 h.later).2.2 k before last List.mem_cons_self

end Ordered

end Store

namespace Memory

def Action.uses? (m : Memory) : Action → Option String
  | .request (.get key) => if (m.get key).1.isSome then some key else none
  | .request (.set key _ ttl) => if (m.deadline ttl).isOk then some key else none
  | _ => none

def used (m : Memory) : List Action → List String
  | [] => []
  | action :: actions => (action.uses? m).toList ++ used (m.step action) actions

/-- The keys that have been used since a key was used itself, the latest first. -/
def usedSince (m : Memory) (key : String) (actions : List Action) : List String :=
  (m.used actions).reverse.takeWhile (· ≠ key)

variable {m : Memory} {action : Action}

theorem used_append (m : Memory) (earlier later : List Action) :
    m.used (earlier ++ later) = m.used earlier ++ (m.play earlier).used later := by
  induction earlier generalizing m with
  | nil => rfl
  | cons action earlier ih =>
      simp only [List.cons_append, used, ih, List.append_assoc]
      rfl

theorem uses?_set {ttl : Option Span} {deadline : Option Nat} (fits : m.deadline ttl = .ok deadline)
    (key : String) (value : Bytes) :
    Action.uses? m (.request (.set key value ttl)) = some key := by
  rw [Action.uses?, fits]
  rfl

theorem uses?_get_of_live {key : String} {e : Entry} (found : m.store.find? key = some e)
    (live : e.isExpired m.now = false) : Action.uses? m (.request (.get key)) = some key := by
  obtain ⟨-, rfl⟩ := Store.find?_some found
  have given : (m.get e.key).1 = some e.value := Store.lookup?_of_find? found live
  rw [Action.uses?, given]
  rfl

theorem ordered_step {uses : List String} (h : Store.Ordered uses m.store.keys) (action : Action) :
    Store.Ordered ((action.uses? m).toList ++ uses) (m.step action).store.keys := by
  cases action with
  | wait span => exact h
  | request r =>
      cases r with
      | scan start => exact h
      | delete key => exact h.sublist (m.store.keys_erase_sublist key)
      | set key value ttl =>
          cases lives : m.deadline ttl with
          | error overflow =>
              rw [set_overflows lives, Action.uses?, lives]
              exact h
          | ok deadline =>
              rw [set_fits lives, uses?_set lives]
              exact (h.use key).sublist (m.store.keys_push_sublist _)
      | get key =>
          cases found : m.store.find? key with
          | none =>
              have missed : (m.get key).1 = none := by
                simp [get, Store.lookup?, found]
              have same : m.step (.request (.get key)) = m := by
                simp [step, get, Store.touch, found]
              rw [same, Action.uses?, missed]
              exact h
          | some e =>
              obtain ⟨member, rfl⟩ := Store.find?_some found
              cases expired : e.isExpired m.now with
              | true =>
                  -- what has expired is dropped, which is no use of its key
                  have missed : (m.get e.key).1 = none := by
                    simp [get, Store.lookup?, found, expired]
                  have dropped : (m.step (.request (.get e.key))).store = m.store.erase e.key := by
                    simp [step, get, Store.touch, found, expired]
                  rw [dropped, Action.uses?, missed]
                  exact h.sublist (m.store.keys_erase_sublist e.key)
              | false =>
                  have moved : (m.step (.request (.get e.key))).store = m.store.push e := by
                    simp [step, get, Store.touch, found, expired]
                  rw [moved, uses?_get_of_live found expired]
                  exact (h.use e.key).sublist (m.store.keys_push_sublist e)

theorem ordered_play (empty : m.store.entries = []) (actions : List Action) :
    Store.Ordered (m.used actions).reverse (m.play actions).store.keys := by
  -- from the last action backwards, because the latest use of a key is the one that counts
  induction actions using List.reverseRecOn with
  | nil =>
      have nothing : (m.play []).store.keys = [] := by
        rw [Store.keys, play, List.foldl_nil, empty]
        rfl
      exact ⟨nothing ▸ nofun, nothing ▸ .nil⟩
  | append_singleton actions action ih =>
      have after := ordered_step ih action
      have uses : (m.used (actions ++ [action])).reverse =
          (action.uses? (m.play actions)).toList ++ (m.used actions).reverse := by
        rw [used_append, List.reverse_append]
        cases found : action.uses? (m.play actions) <;> simp [used, found]
      rw [play_append, uses]
      exact after

/-- A cache never holds more than it has room for, nor one key twice. Setting a key that is stored, or
any key while there is room, removes no other; setting a new key in a full cache removes just the one
whose last use lies furthest back, expired or not. Lookups and deletions leave the other keys alone,
and a setting whose deadline overflows leaves everything, the order included. -/
theorem eviction_exact {capacity : Nat} (made : create capacity = .ok m) (actions : List Action) :
    let c := m.play actions
    c.store.keys.length ≤ capacity ∧ c.store.keys.Nodup ∧
      (∀ key value ttl deadline, c.deadline ttl = .ok deadline →
        let after := (c.step (.request (.set key value ttl))).store
        after.find? key = some ⟨key, value, deadline⟩ ∧
        (key ∈ c.store.keys ∨ c.store.keys.length < capacity →
          ∀ k ≠ key, after.find? k = c.store.find? k) ∧
        (key ∉ c.store.keys → c.store.keys.length = capacity →
          ∃ victim ∈ c.store.keys, victim ∈ m.used actions ∧
            (∀ k ∈ c.store.keys, k ≠ victim → k ∈ m.usedSince victim actions) ∧
            ∀ k ≠ key, after.find? k = if k = victim then none else c.store.find? k)) ∧
      (∀ key value ttl, c.deadline ttl = .error .deadline →
        c.set key value ttl = .error .deadline ∧ c.step (.request (.set key value ttl)) = c) ∧
      ∀ key, ∀ k ≠ key, (c.get key).2.store.find? k = c.store.find? k ∧
        (c.delete key).store.find? k = c.store.find? k := by
  intro c
  have empty := create_ok made
  have start : m.store.WellFormed := empty ▸ Store.wellFormed_nil _
  have wf : c.store.WellFormed := wellFormed_play start actions
  have room : c.store.capacity = capacity := by
    rw [capacity_play, empty]
  have ordered := ordered_play (show m.store.entries = [] by rw [empty]) actions
  refine ⟨?_, wf.distinct, ?_, ?_, ?_⟩
  · rw [Store.keys, List.length_map, ← room]
    exact wf.bounded
  · intro key value ttl deadline lives
    have positive : 0 < c.store.capacity := room.symm ▸ capacity_pos made
    dsimp only
    rw [set_fits lives]
    refine ⟨Store.find?_push_self positive ⟨key, value, deadline⟩, ?_, ?_⟩
    · intro spared k other
      exact wf.find?_push_of_room ⟨key, value, deadline⟩ (room ▸ spared) other
    · intro new full
      obtain ⟨victim, final, others⟩ :=
        wf.find?_push_of_full ⟨key, value, deadline⟩ positive new (full.trans room.symm)
      have stored := List.mem_of_getLast? final
      exact ⟨victim, stored, List.mem_reverse.1 (ordered.used victim stored),
        fun k member other => ordered.since_last final member other, others⟩
  · intro key value ttl late
    exact ⟨by rw [set, late]; rfl, set_overflows late key value⟩
  · intro key k other
    exact ⟨wf.find?_touch c.now other, (c.store.find?_erase key k).trans (if_neg other)⟩

theorem live_value_gives_way :
    let m : Memory := ⟨⟨2, []⟩, 1000000000⟩
    let actions : List Action := [.request (.set "a" [1] (some 5000000000)), .request (.set "b" [2] none),
      .request (.get "a"), .request (.set "b" [3] (some (Span.ofSeconds lastSecond))), .wait 6000000000,
      .request (.scan "")]
    let after := ((m.play actions).step (.request (.set "c" [4] none))).store
    create 2 = .ok m ∧ (m.play actions).store.keys = ["a", "b"] ∧
      ((m.play actions).get "a").1 = none ∧ (after.find? "a").isSome ∧ after.find? "b" = none := by
  intro m actions after
  have keys : (m.play actions).store.keys = ["a", "b"] := by
    dsimp only [m, actions]
    cbv
  have since : m.usedSince "a" actions = [] := by
    dsimp only [m, actions]
    cbv
  obtain ⟨-, -, sets, -⟩ := eviction_exact (show create 2 = .ok m from rfl) actions
  obtain ⟨-, -, full⟩ := sets "c" [4] none none rfl
  obtain ⟨victim, stored, -, latest, others⟩ := full (by rw [keys]; decide) (by rw [keys]; rfl)
  have last : victim = "b" := by
    rw [keys] at stored latest
    rcases List.mem_cons.1 stored with rfl | stored
    · have again := latest "b" (by decide) (by decide)
      rw [since] at again
      cases again
    · exact List.mem_singleton.1 stored
  subst last
  refine ⟨rfl, keys, by dsimp only [m, actions]; cbv, ?_, others "b" (by decide)⟩
  rw [others "a" (by decide), if_neg (by decide), Store.find?_isSome, keys]
  decide

end Memory

end Lookaside
