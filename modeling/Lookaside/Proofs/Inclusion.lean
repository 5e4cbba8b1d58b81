import Lookaside.Proofs.Retention
import Lookaside.Proofs.Unread
import Mathlib

/-!
# Caches of two sizes

Of two caches that are asked the same things at the same times, the larger one always holds what the
smaller one holds. The smaller one need not hold the most recent entries of the larger one, since a
lookup may bring forward what only the larger one still has. It holds some of them in the same order,
and the larger one never holds more entries besides than it has more room for.
-/

namespace Lookaside

namespace Store

structure Includes (t s : Store) : Prop where
  order : s.entries.Sublist t.entries
  excess : t.entries.length + s.capacity ≤ s.entries.length + t.capacity

variable {s t : Store}

theorem includes_nil {c c' : Nat} (le : c ≤ c') : Includes ⟨c', []⟩ ⟨c, []⟩ :=
  ⟨.slnil, by simpa using le⟩

theorem length_erase (s : Store) (key : String) :
    s.entries.length = (s.entries.filter (·.key = key)).length + (s.erase key).entries.length := by
  simpa [Store.erase] using s.entries.length_eq_length_filter_add fun e => e.key = key

theorem Includes.erase (h : t.Includes s) (key : String) : (t.erase key).Includes (s.erase key) := by
  refine ⟨h.order.filter _, ?_⟩
  -- whatever the smaller store loses, the larger one loses too
  have lost := (h.order.filter (·.key = key)).length_le
  have before := s.length_erase key
  have before' := t.length_erase key
  have excess := h.excess
  show (t.erase key).entries.length + s.capacity ≤ (s.erase key).entries.length + t.capacity
  omega

theorem Includes.push (wf : s.WellFormed) (wf' : t.WellFormed) (h : t.Includes s) (e : Entry) :
    (t.push e).Includes (s.push e) := by
  have others := h.erase e.key
  have order : (e :: (s.erase e.key).entries).Sublist (e :: (t.erase e.key).entries) :=
    others.order.cons_cons e
  have excess : (t.erase e.key).entries.length + s.capacity ≤
      (s.erase e.key).entries.length + t.capacity := others.excess
  have bounded : (s.erase e.key).entries.length ≤ s.capacity := (wf.erase e.key).bounded
  have bounded' : (t.erase e.key).entries.length ≤ t.capacity := (wf'.erase e.key).bounded
  by_cases room : (t.erase e.key).entries.length < t.capacity
  · have whole := entries_push room
    refine ⟨whole ▸ (List.take_sublist _ _).trans order, ?_⟩
    show (t.push e).entries.length + s.capacity ≤
      ((e :: (s.erase e.key).entries).take s.capacity).length + t.capacity
    rw [whole, List.length_take, List.length_cons, List.length_cons]
    omega
  -- where the larger store is full the smaller one is, and both lose their last entry
  · have last := wf.entries_push_full (e := e) (by omega)
    have last' := wf'.entries_push_full (e := e) (Nat.not_lt.1 room)
    refine ⟨?_, ?_⟩
    · rw [last, last', ← List.reverse_sublist, ← List.tail_reverse, ← List.tail_reverse]
      exact order.reverse.tail
    · show (t.push e).entries.length + s.capacity ≤ (s.push e).entries.length + t.capacity
      rw [last, last', List.length_dropLast, List.length_dropLast, List.length_cons, List.length_cons]
      omega

theorem Includes.mem (h : t.Includes s) {e : Entry} (member : e ∈ s.entries) : e ∈ t.entries :=
  h.order.subset member

theorem Includes.lookup? (wf' : t.WellFormed) (h : t.Includes s) {now : Nat} {key : String}
    {value : Bytes} (found : s.lookup? now key = some value) : t.lookup? now key = some value := by
  obtain ⟨e, member, rfl, live, rfl⟩ := lookup?_some found
  exact wf'.lookup?_eq (h.mem member) live

theorem Includes.push_above (wf' : t.WellFormed) (h : t.Includes s) {e : Entry} (member : e ∈ t.entries)
    (absent : s.find? e.key = none) : (t.push e).Includes s := by
  -- what only the larger store has is brought forward there
  have others := h.erase e.key
  rw [erase_of_find?_none absent] at others
  have fewer := erase_length_lt member
  have whole := entries_push (Nat.lt_of_lt_of_le fewer wf'.bounded)
  refine ⟨whole ▸ others.order.trans (List.sublist_cons_self _ _), ?_⟩
  have excess := h.excess
  show (t.push e).entries.length + s.capacity ≤ s.entries.length + t.capacity
  rw [whole, List.length_cons]
  omega

theorem Includes.touch (wf : s.WellFormed) (wf' : t.WellFormed) (h : t.Includes s) (now : Nat)
    (key : String) : (t.touch now key).Includes (s.touch now key) := by
  cases found' : t.find? key with
  | none =>
      have found : s.find? key = none :=
        List.find?_eq_none.2 fun x member => List.find?_eq_none.1 found' x (h.mem member)
      rw [Store.touch, Store.touch, found, found']
      exact h
  | some e =>
      obtain ⟨member', rfl⟩ := find?_some found'
      cases found : s.find? e.key with
      | none =>
          rw [Store.touch, Store.touch, found, found']
          dsimp only
          split
          · have same := h.erase e.key
            rwa [erase_of_find?_none found] at same
          · exact h.push_above wf' member' found
      | some x =>
          obtain ⟨member, same⟩ := find?_some found
          have one : x = e :=
            Option.some.inj ((wf'.find?_eq (h.mem member)).symm.trans (same ▸ found'))
          rw [Store.touch, Store.touch, found, found', one]
          dsimp only
          split
          · exact h.erase e.key
          · exact h.push wf wf' e

theorem WellFormed.scan_strictly_sorted (wf : s.WellFormed) (now : Nat) (start : String) :
    (s.scan now start).Pairwise fun a b => a.1 < b.1 := by
  have distinct := wf.scan_distinct now start
  rw [List.Nodup, List.pairwise_map] at distinct
  exact (s.scan_sorted now start).imp₂ (fun _ _ => lt_of_le_of_ne) distinct

theorem Includes.scan (wf : s.WellFormed) (wf' : t.WellFormed) (h : t.Includes s) (now : Nat)
    (start : String) : (s.scan now start).Sublist (t.scan now start) := by
  have subset : s.scan now start ⊆ t.scan now start := by
    intro pair member
    obtain ⟨e, stored, starts, live, rfl⟩ := mem_scan.1 member
    exact mem_scan.2 ⟨e, h.mem stored, starts, live, rfl⟩
  have nodup : (s.scan now start).Nodup := (wf.scan_distinct now start).of_map _
  have antisymm : Std.Antisymm fun a b : String × Bytes => a.1 < b.1 :=
    ⟨fun _ _ before after => absurd before (lt_asymm after)⟩
  exact List.sublist_of_subperm_of_pairwise (List.subperm_of_subset nodup subset)
    (wf.scan_strictly_sorted now start) (wf'.scan_strictly_sorted now start)

end Store

namespace Memory

variable {m m' : Memory}

theorem includes_step (now : m'.now = m.now) (wf : m.store.WellFormed) (wf' : m'.store.WellFormed)
    (h : m'.store.Includes m.store) (action : Action) :
    (m'.step action).store.Includes (m.step action).store := by
  cases action with
  | wait span => exact h
  | request r =>
      cases r with
      | get key =>
          show (m'.store.touch m'.now key).Includes (m.store.touch m.now key)
          rw [now]
          exact h.touch wf wf' m.now key
      | set key value ttl =>
          cases fits : m.deadline ttl with
          | error overflow =>
              rw [set_overflows fits, set_overflows ((deadline_congr now ttl).trans fits)]
              exact h
          | ok deadline =>
              rw [set_fits fits, set_fits ((deadline_congr now ttl).trans fits)]
              exact h.push wf wf' _
      | delete key => exact h.erase key
      | scan start => exact h

theorem includes_play (now : m'.now = m.now) (wf : m.store.WellFormed) (wf' : m'.store.WellFormed)
    (h : m'.store.Includes m.store) (actions : List Action) :
    (m'.play actions).store.Includes (m.play actions).store := by
  induction actions generalizing m m' with
  | nil => exact h
  | cons action actions ih =>
      refine ih ?_ (wellFormed_step wf action) (wellFormed_step wf' action)
        (includes_step now wf wf' h action)
      rw [now_step, now_step, now]

/-- After whatever has been asked of two new caches, the larger one holds what the smaller one holds, and
so it finds what the smaller one finds. -/
theorem larger_finds_more {c c' : Nat} (le : c ≤ c') (made : create c = .ok m)
    (made' : create c' = .ok m') (actions : List Action) :
    (∀ e ∈ (m.play actions).store.entries, e ∈ (m'.play actions).store.entries) ∧
      (∀ key value, ((m.play actions).get key).1 = some value →
        ((m'.play actions).get key).1 = some value) ∧
      ∀ start, ((m.play actions).scan start).Sublist ((m'.play actions).scan start) := by
  have empty := create_ok made
  have empty' := create_ok made'
  have wf : m.store.WellFormed := empty ▸ Store.wellFormed_nil _
  have wf' : m'.store.WellFormed := empty' ▸ Store.wellFormed_nil _
  have now : m'.now = m.now := by rw [empty, empty']
  have start : m'.store.Includes m.store := by
    rw [empty, empty']
    exact Store.includes_nil le
  have includes := includes_play now wf wf' start actions
  have later : (m'.play actions).now = (m.play actions).now := by rw [now_play, now_play, now]
  have sound := wellFormed_play wf actions
  have sound' := wellFormed_play wf' actions
  refine ⟨fun e member => includes.mem member, fun key value found => ?_, fun start => ?_⟩
  · show (m'.play actions).store.lookup? (m'.play actions).now key = some value
    rw [later]
    exact includes.lookup? sound' found
  · show List.Sublist _ ((m'.play actions).store.scan (m'.play actions).now start)
    rw [later]
    exact includes.scan sound sound' _ start

theorem two_find_more_than_one :
    let m : Memory := ⟨⟨1, []⟩, 1000000000⟩
    let m' : Memory := ⟨⟨2, []⟩, 1000000000⟩
    let actions : List Action := [.request (.set "a" [1] none), .request (.set "b" [2] (some 7)),
      .request (.get "a"), .wait 7, .request (.scan "")]
    1 ≤ 2 ∧ create 1 = .ok m ∧ create 2 = .ok m' ∧
      (m.play actions).store.entries.map (·.key) = ["b"] ∧
      (m'.play actions).store.entries.map (·.key) = ["a", "b"] ∧
      (∀ e ∈ (m.play actions).store.entries, e ∈ (m'.play actions).store.entries) ∧
      (∀ key value, ((m.play actions).get key).1 = some value →
        ((m'.play actions).get key).1 = some value) ∧
      ∀ start, ((m.play actions).scan start).Sublist ((m'.play actions).scan start) := by
  intro m m' actions
  have le : 1 ≤ 2 := by decide
  refine ⟨le, rfl, rfl, ?_, ?_,
    larger_finds_more le (show create 1 = .ok m from rfl) (show create 2 = .ok m' from rfl) actions⟩
  · dsimp only [m, actions]
    cbv
  · dsimp only [m', actions]
    cbv

end Memory

end Lookaside
