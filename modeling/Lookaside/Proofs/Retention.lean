import Lookaside.Proofs.History
import Lookaside.Proofs.Writing
import Mathlib

namespace Lookaside

namespace Store

def Ahead (keys : List String) (e : Entry) (s : Store) : Prop :=
  ∃ front back, s.entries = front ++ e :: back ∧ ∀ x ∈ front, x.key ∈ keys

variable {s : Store} {keys : List String} {e : Entry}

theorem Ahead.mem (h : s.Ahead keys e) : e ∈ s.entries := by
  obtain ⟨front, back, entries, -⟩ := h
  rw [entries]
  exact List.mem_append_right _ List.mem_cons_self

theorem length_front_le {front : List Entry} (distinct : (front.map (·.key)).Nodup)
    (among : ∀ x ∈ front, x.key ∈ keys) : front.length ≤ keys.toFinset.card := by
  have sub : (front.map (·.key)).toFinset ⊆ keys.toFinset := by
    intro key member
    obtain ⟨x, here, rfl⟩ := List.mem_map.1 (List.mem_toFinset.1 member)
    exact List.mem_toFinset.2 (among x here)
  rw [← List.length_map (·.key), ← List.toFinset_card_of_nodup distinct]
  exact Finset.card_le_card sub

theorem ahead_push_self (room : 0 < s.capacity) (e : Entry) : (s.push e).Ahead [] e := by
  refine ⟨[], (s.entries.filter (·.key ≠ e.key)).take (s.capacity - 1), ?_, nofun⟩
  rw [push, List.take_cons room]
  rfl

theorem Ahead.erase (h : s.Ahead keys e) {key : String} (other : e.key ≠ key) :
    (s.erase key).Ahead keys e := by
  obtain ⟨front, back, entries, among⟩ := h
  refine ⟨front.filter (·.key ≠ key), back.filter (·.key ≠ key), ?_, ?_⟩
  · rw [Store.erase, entries, List.filter_append, List.filter_cons_of_pos (by simpa using other)]
  · exact fun x member => among x (List.mem_filter.1 member).1

theorem Ahead.push (wf : s.WellFormed) (h : s.Ahead keys e) {x : Entry} (other : e.key ≠ x.key)
    (few : (x.key :: keys).toFinset.card < s.capacity) : (s.push x).Ahead (x.key :: keys) e := by
  obtain ⟨front, back, entries, among⟩ := h.erase other
  have distinct : ((x :: front).map (·.key)).Nodup := by
    have kept : (front.map (·.key)).Sublist ((s.erase x.key).entries.map (·.key)) := by
      rw [entries]
      exact (List.sublist_append_left _ _).map _
    refine List.nodup_cons.2 ⟨?_, (wf.erase x.key).distinct.sublist kept⟩
    intro again
    obtain ⟨y, member, same⟩ := List.mem_map.1 (kept.subset again)
    exact (mem_erase.1 member).2 same
  have among' : ∀ y ∈ x :: front, y.key ∈ x.key :: keys := by
    rw [List.forall_mem_cons]
    exact ⟨List.mem_cons_self, fun y member => List.mem_cons_of_mem _ (among y member)⟩
  have room : (x :: front).length < s.capacity := Nat.lt_of_le_of_lt (length_front_le distinct among') few
  refine ⟨x :: front, back.take (s.capacity - (x :: front).length - 1), ?_, among'⟩
  show (x :: (s.erase x.key).entries).take s.capacity = _
  rw [entries, ← List.cons_append, List.take_append, List.take_of_length_le (Nat.le_of_lt room),
    List.take_cons (Nat.sub_pos_of_lt room)]

end Store

namespace Memory

variable {m : Memory} {keys : List String} {e : Entry} {action : Action}

/-- The keys that have been touched since a key was touched itself, the latest first. -/
def touchedSince (m : Memory) (key : String) (actions : List Action) : List String :=
  (m.touched actions).reverse.takeWhile (· ≠ key)

theorem lookup_live (wf : m.store.WellFormed) (h : e ∈ m.store.entries)
    (live : e.isExpired m.now = false) : (m.get e.key).1 = some e.value :=
  wf.lookup?_eq h live

theorem step_get_found {key : String} (wf : m.store.WellFormed) (found : (m.get key).1.isSome) :
    ∃ x ∈ m.store.entries, x.key = key ∧
      (m.step (.request (.get key))).store = m.store.push x := by
  obtain ⟨value, found⟩ := Option.isSome_iff_exists.1 found
  obtain ⟨x, member, rfl, live, -⟩ := Store.lookup?_some found
  refine ⟨x, member, rfl, ?_⟩
  show m.store.touch m.now x.key = m.store.push x
  simp [Store.touch, wf.find?_eq member, live]

theorem ahead_of_untouched (wf : m.store.WellFormed) (h : m.store.Ahead keys e)
    (live : e.isExpired m.now = false) (unsettled : action.settles e.key = false)
    (untouched : action.touched? m = none) : (m.step action).store.Ahead keys e := by
  cases action with
  | wait span => exact h
  | request r =>
      cases r with
      | set key value ttl => cases untouched
      | scan start => exact h
      | delete key => exact h.erase (Ne.symm (of_decide_eq_false unsettled))
      | get key =>
          have missed : (m.get key).1 = none := by
            simpa [Action.touched?] using untouched
          have other : e.key ≠ key := by
            rintro rfl
            rw [lookup_live wf h.mem live] at missed
            cases missed
          show (m.store.touch m.now key).Ahead keys e
          rw [Store.touch]
          split
          · exact h
          · next x found =>
              split
              · exact h.erase other
              · next fresh =>
                  obtain ⟨member, rfl⟩ := Store.find?_some found
                  rw [lookup_live wf member (by simpa using fresh)] at missed
                  cases missed

theorem ahead_of_touched (wf : m.store.WellFormed) (fits : action.Fits m) (h : m.store.Ahead keys e)
    {key : String} (touched : action.touched? m = some key) (other : e.key ≠ key)
    (few : (key :: keys).toFinset.card < m.store.capacity) :
    (m.step action).store.Ahead (key :: keys) e := by
  cases action with
  | wait span => cases touched
  | request r =>
      cases r with
      | set key' value ttl =>
          cases touched
          obtain ⟨deadline, lives⟩ := fits
          rw [set_fits lives]
          exact h.push wf other few
      | get key' =>
          rw [Action.touched?] at touched
          split at touched
          · next found =>
              cases touched
              obtain ⟨x, -, rfl, pushed⟩ := step_get_found wf found
              rw [pushed]
              exact h.push wf other few
          · cases touched
      | _ => cases touched

theorem ahead_of_found (wf : m.store.WellFormed) (room : 0 < m.store.capacity)
    (only : ∀ x ∈ m.store.entries, x.key = e.key → x = e) (unsettled : action.settles e.key = false)
    (touched : action.touched? m = some e.key) : (m.step action).store.Ahead [] e := by
  cases action with
  | wait span => cases touched
  | request r =>
      cases r with
      | set key value ttl =>
          cases touched
          exact absurd rfl (of_decide_eq_false unsettled)
      | get key =>
          rw [Action.touched?] at touched
          split at touched
          · next found =>
              cases touched
              obtain ⟨x, member, same, pushed⟩ := step_get_found wf found
              rw [pushed, only x member same]
              exact Store.ahead_push_self room e
          · cases touched
      | _ => cases touched

theorem eq_of_unsettled (wf : m.store.WellFormed) (stored : e ∈ m.store.entries) {actions : List Action}
    (fits : m.Fits actions) (unsettled : ∀ a ∈ actions, a.settles e.key = false) {x : Entry}
    (member : x ∈ (m.play actions).store.entries) (same : x.key = e.key) : x = e := by
  rcases mem_play fits member with ⟨ttl, earlier, later, rfl, -, -⟩ | ⟨old, -⟩
  · have setting := unsettled _ (List.mem_append_right _ List.mem_cons_self)
    exact absurd same (of_decide_eq_false setting)
  · exact Option.some.inj ((wf.find?_eq old).symm.trans (same ▸ wf.find?_eq stored))

theorem ahead_play (wf : m.store.WellFormed) (recent : m.store.Ahead [] e) {actions : List Action}
    (fits : m.Fits actions) (unsettled : ∀ a ∈ actions, a.settles e.key = false)
    (live : e.isExpired (m.play actions).now = false)
    (few : (m.touchedSince e.key actions).toFinset.card < m.store.capacity) :
    (m.play actions).store.Ahead (m.touchedSince e.key actions) e := by
  induction actions using List.reverseRecOn with
  | nil => exact recent
  | append_singleton actions action ih =>
      obtain ⟨before, now⟩ := fits_append.1 fits
      obtain ⟨quiet, spared⟩ := List.forall_mem_append.1 unsettled
      have wf' := wellFormed_play wf actions
      have capacity := capacity_play m actions
      have live' : e.isExpired (m.play actions).now = false := by
        rw [play_append] at live
        exact Entry.isExpired_of_le ((Nat.le_add_right _ _).trans_eq (now_step _ action).symm) live
      have since : m.touchedSince e.key (actions ++ [action]) =
          ((action.touched? (m.play actions)).toList ++ (m.touched actions).reverse).takeWhile
            (· ≠ e.key) := by
        rw [touchedSince, touched_append, List.reverse_append]
        cases touched : action.touched? (m.play actions) <;> simp [Memory.touched, touched]
      rw [play_append]
      rw [since] at few ⊢
      cases touched : action.touched? (m.play actions) with
      | none =>
          rw [touched] at few
          exact ahead_of_untouched wf' (ih before quiet live' few) live'
            (spared action List.mem_cons_self) touched
      | some key =>
          rw [touched, Option.toList_some, List.singleton_append] at few
          rw [Option.toList_some, List.singleton_append]
          by_cases same : key = e.key
          · subst same
            rw [List.takeWhile_cons_of_neg (by simp)]
            -- the key may have fallen behind before, but then it would not have been found again
            refine ahead_of_found wf' (by omega) ?_ (spared action List.mem_cons_self) touched
            exact fun x member same => eq_of_unsettled wf recent.mem before quiet member same
          · rw [List.takeWhile_cons_of_pos (by simpa using same)] at few ⊢
            have fewer : (m.touchedSince e.key actions).toFinset.card < m.store.capacity := by
              refine Nat.lt_of_le_of_lt (Finset.card_le_card ?_) few
              rw [List.toFinset_cons]
              exact Finset.subset_insert _ _
            exact ahead_of_touched wf' now.1 (ih before quiet live' fewer) touched (Ne.symm same)
              (capacity ▸ few)

theorem live_iff {earlier later : List Action} {key : String} {value : Bytes} {ttl : Option Span}
    (lives : (m.play earlier).deadline ttl = .ok e.deadline) :
    e.isExpired (m.play (earlier ++ .request (.set key value ttl) :: later)).now = false ↔
      ∀ span, ttl = some span → elapsed later ≤ span := by
  have later_now : (m.play (earlier ++ .request (.set key value ttl) :: later)).now =
      (m.play earlier).now + elapsed later := by
    rw [now_play, now_play, elapsed_append, ← Nat.add_assoc]
    exact congrArg _ (Nat.zero_add _)
  rw [later_now, Entry.isExpired]
  cases ttl with
  | none =>
      rw [← Except.ok.inj lives]
      simp
  | some span =>
      rw [deadline] at lives
      split at lives
      · cases lives
      · rw [← Except.ok.inj lives]
        simp only [decide_eq_false_iff_not, Nat.not_lt, Nat.add_le_add_iff_left]
        exact ⟨fun le _ same => Option.some.inj same ▸ le, fun le => le span rfl⟩

theorem touchedSince_set (m : Memory) (earlier later : List Action) (key : String) (value : Bytes)
    (ttl : Option Span) :
    m.touchedSince key (earlier ++ .request (.set key value ttl) :: later) =
      ((m.play earlier).step (.request (.set key value ttl))).touchedSince key later := by
  have parts : (m.touched (earlier ++ .request (.set key value ttl) :: later)).reverse =
      (((m.play earlier).step (.request (.set key value ttl))).touched later).reverse ++
        key :: (m.touched earlier).reverse := by
    rw [touched_append, touched]
    simp [Action.touched?]
  rw [touchedSince, parts, List.takeWhile_append, List.takeWhile_cons_of_neg (by simp),
    List.append_nil, touchedSince]
  split
  · next whole => exact ((List.takeWhile_prefix _).eq_of_length whole).symm
  · rfl

/-- A lookup gives only the value that was set last, while it lives and unless it has been deleted, and
it does give it if fewer other keys than there is room for have been touched since its own. -/
theorem get_after_history {capacity : Nat} (made : create capacity = .ok m) {actions : List Action}
    (fits : m.Fits actions) (key : String) (value : Bytes) :
    (((m.play actions).get key).1 = some value →
        ∃ ttl earlier later, actions = earlier ++ .request (.set key value ttl) :: later ∧
          (∀ a ∈ later, a.settles key = false) ∧ ∀ span, ttl = some span → elapsed later ≤ span) ∧
      ∀ ttl earlier later, actions = earlier ++ .request (.set key value ttl) :: later →
        (∀ a ∈ later, a.settles key = false) → (∀ span, ttl = some span → elapsed later ≤ span) →
        (m.touchedSince key actions).toFinset.card < capacity →
        ((m.play actions).get key).1 = some value := by
  have empty := create_ok made
  have wf : m.store.WellFormed := empty ▸ Store.wellFormed_nil _
  constructor
  · intro found
    obtain ⟨x, member, rfl, live, rfl⟩ := Store.lookup?_some found
    rcases mem_play fits member with ⟨ttl, earlier, later, rfl, lives, unsettled⟩ | ⟨old, -⟩
    · exact ⟨ttl, earlier, later, rfl, unsettled, (live_iff lives).1 live⟩
    · rw [empty] at old
      cases old
  · rintro ttl earlier later rfl unsettled lasting few
    obtain ⟨-, ⟨deadline, lives⟩, rest⟩ := fits_append.1 fits
    have wf' := wellFormed_play wf earlier
    have live : Entry.isExpired (m.play (earlier ++ .request (.set key value ttl) :: later)).now
        ⟨key, value, deadline⟩ = false := (live_iff lives).2 lasting
    have room : (m.play earlier).store.capacity = capacity := by
      rw [capacity_play, empty]
    have recent : ((m.play earlier).step (.request (.set key value ttl))).store.Ahead []
        ⟨key, value, deadline⟩ := by
      rw [set_fits lives]
      exact Store.ahead_push_self (by omega) _
    rw [play_append] at live ⊢
    rw [touchedSince_set] at few
    have kept := ahead_play (wellFormed_step wf' _) recent rest unsettled live
      (by rw [capacity_step, room]; exact few)
    exact lookup_live (wellFormed_play (wellFormed_step wf' _) later) kept.mem live

theorem touched_value_kept :
    let m : Memory := ⟨⟨2, []⟩, 1000000000⟩
    let later : List Action := [.request (.set "b" [2] none), .request (.get "a"), .request (.scan ""),
      .wait 5000000000, .request (.set "c" [3] none), .request (.get "b"), .request (.delete "d")]
    let actions : List Action := .request (.set "a" [1] (some 5000000000)) :: later
    create 2 = .ok m ∧ m.Fits actions ∧ (∀ a ∈ later, a.settles "a" = false) ∧
      (∀ span, some 5000000000 = some span → elapsed later ≤ span) ∧
      m.touchedSince "a" actions = ["c"] ∧ ((m.play actions).get "a").1 = some [1] := by
  intro m later actions
  have fits : m.Fits actions :=
    ⟨⟨some 6000000000, by cbv⟩, ⟨none, rfl⟩, trivial, trivial, trivial, ⟨none, rfl⟩, trivial, trivial, trivial⟩
  have unsettled : ∀ a ∈ later, a.settles "a" = false := by decide
  have lasting : ∀ span, some 5000000000 = some span → elapsed later ≤ span := by
    rintro _ ⟨⟩
    decide
  have since : m.touchedSince "a" actions = ["c"] := by
    dsimp only [m, actions, later]
    cbv
  refine ⟨rfl, fits, unsettled, lasting, since, ?_⟩
  exact (get_after_history (show create 2 = .ok m from rfl) fits "a" [1]).2 _ [] later rfl unsettled
    lasting (by rw [since]; decide)

end Memory

end Lookaside
