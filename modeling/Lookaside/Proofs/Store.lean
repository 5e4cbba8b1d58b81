import Lookaside.Store
import Mathlib.Data.List.Nodup

namespace Lookaside

theorem Entry.isExpired_eq_false {e : Entry} {now : Nat} :
    e.isExpired now = false ↔ ∀ d, e.deadline = some d → now ≤ d := by
  rw [isExpired]
  cases e.deadline with
  | none => simp
  | some d => simp

theorem Entry.isExpired_of_le {e : Entry} {now now' : Nat} (h : now ≤ now') (live : e.isExpired now' = false) :
    e.isExpired now = false :=
  isExpired_eq_false.2 fun d given => Nat.le_trans h (isExpired_eq_false.1 live d given)

namespace Store

structure WellFormed (s : Store) : Prop where
  distinct : (s.entries.map (·.key)).Nodup
  bounded : s.entries.length ≤ s.capacity

theorem wellFormed_nil (capacity : Nat) : WellFormed ⟨capacity, []⟩ :=
  ⟨List.nodup_nil, Nat.zero_le _⟩

theorem mem_erase {s : Store} {key : String} {x : Entry} :
    x ∈ (s.erase key).entries ↔ x ∈ s.entries ∧ x.key ≠ key := by
  simp [erase]

theorem mem_push {s : Store} {e x : Entry} (h : x ∈ (s.push e).entries) :
    x = e ∨ x ∈ s.entries ∧ x.key ≠ e.key := by
  simpa using List.mem_of_mem_take h

theorem WellFormed.erase {s : Store} (wf : s.WellFormed) (key : String) :
    (s.erase key).WellFormed :=
  ⟨wf.distinct.sublist (List.filter_sublist.map _),
    Nat.le_trans (List.length_filter_le _ _) wf.bounded⟩

theorem WellFormed.push {s : Store} (wf : s.WellFormed) (e : Entry) : (s.push e).WellFormed := by
  have whole : ((e :: s.entries.filter (·.key ≠ e.key)).map (·.key)).Nodup := by
    refine List.nodup_cons.2 ⟨?_, wf.distinct.sublist (List.filter_sublist.map _)⟩
    intro member
    obtain ⟨x, hx, same⟩ := List.mem_map.1 member
    simp [same] at hx
  exact ⟨whole.sublist ((List.take_sublist _ _).map _), List.length_take_le _ _⟩

theorem find?_some {s : Store} {key : String} {e : Entry} (h : s.find? key = some e) :
    e ∈ s.entries ∧ e.key = key :=
  ⟨List.mem_of_find?_eq_some h, by simpa using List.find?_some h⟩

theorem WellFormed.find?_eq {s : Store} (wf : s.WellFormed) {e : Entry} (h : e ∈ s.entries) :
    s.find? e.key = some e := by
  have distinct := wf.distinct
  unfold find?
  generalize s.entries = entries at h distinct
  induction entries with
  | nil => cases h
  | cons x xs ih =>
      rw [List.map_cons, List.nodup_cons] at distinct
      obtain ⟨fresh, distinct⟩ := distinct
      rcases List.mem_cons.1 h with rfl | h
      · simp
      · have other : x.key ≠ e.key := by
          intro same
          exact fresh (same ▸ List.mem_map_of_mem h)
        simpa [other] using ih h distinct

theorem lookup?_some {s : Store} {now : Nat} {key : String} {value : Bytes}
    (h : s.lookup? now key = some value) :
    ∃ e ∈ s.entries, e.key = key ∧ e.isExpired now = false ∧ e.value = value := by
  obtain ⟨e, found, rfl⟩ := Option.map_eq_some_iff.1 h
  obtain ⟨found, live⟩ := Option.filter_eq_some_iff.1 found
  exact ⟨e, (find?_some found).1, (find?_some found).2, by simpa using live, rfl⟩

theorem lookup?_congr {s s' : Store} {key : String} (h : s'.find? key = s.find? key) (now : Nat) :
    s'.lookup? now key = s.lookup? now key := by
  rw [lookup?, lookup?, h]

theorem lookup?_of_find? {s : Store} {e : Entry} (h : s.find? e.key = some e) {now : Nat}
    (live : e.isExpired now = false) : s.lookup? now e.key = some e.value := by
  simp [lookup?, h, Option.filter, live]

theorem WellFormed.lookup?_eq {s : Store} (wf : s.WellFormed) {now : Nat} {e : Entry}
    (h : e ∈ s.entries) (live : e.isExpired now = false) :
    s.lookup? now e.key = some e.value :=
  lookup?_of_find? (wf.find?_eq h) live

/-! ## What is under a key -/

theorem find?_none {s : Store} {key : String} : s.find? key = none ↔ ∀ x ∈ s.entries, x.key ≠ key := by
  simp [find?]

theorem find?_erase (s : Store) (key k : String) :
    (s.erase key).find? k = if k = key then none else s.find? k := by
  rw [find?, find?, erase, List.find?_filter]
  split
  · next same => simp [same]
  · next other =>
      congr 1
      funext x
      by_cases found : x.key = k <;> simp [found, other]

def evicts? (s : Store) (key : String) : Option String :=
  if s.entries.length < s.capacity ∨ (s.find? key).isSome then none
  else s.entries.getLast?.map (·.key)

theorem erase_of_find?_none {s : Store} {key : String} (h : s.find? key = none) : s.erase key = s := by
  have all : s.entries.filter (·.key ≠ key) = s.entries :=
    List.filter_eq_self.2 fun x member => decide_eq_true (find?_none.1 h x member)
  rw [erase, all]

theorem find?_push_self {s : Store} (room : 0 < s.capacity) (e : Entry) :
    (s.push e).find? e.key = some e := by
  obtain ⟨n, capacity⟩ := Nat.exists_eq_add_of_lt room
  simp [find?, push, capacity]

theorem lookup?_push_self (s : Store) (e : Entry) (now : Nat) :
    (s.push e).lookup? now e.key = none ∨ (s.push e).lookup? now e.key = some e.value := by
  cases found : (s.push e).lookup? now e.key with
  | none => exact .inl rfl
  | some value =>
      obtain ⟨x, member, same, -, rfl⟩ := lookup?_some found
      rcases mem_push member with rfl | ⟨-, other⟩
      · exact .inr rfl
      · exact absurd same other

theorem erase_length_lt {s : Store} {e : Entry} (member : e ∈ s.entries) :
    (s.erase e.key).entries.length < s.entries.length :=
  List.length_filter_lt_length_iff_exists.2 ⟨e, member, by simp⟩

theorem entries_push {s : Store} {e : Entry} (fits : (s.erase e.key).entries.length < s.capacity) :
    (s.push e).entries = e :: (s.erase e.key).entries :=
  List.take_of_length_le fits

theorem WellFormed.entries_push_full {s : Store} (wf : s.WellFormed) {e : Entry}
    (full : s.capacity ≤ (s.erase e.key).entries.length) :
    (s.push e).entries = (e :: (s.erase e.key).entries).dropLast := by
  rw [List.dropLast_eq_take, List.length_cons, Nat.add_sub_cancel,
    Nat.le_antisymm (wf.erase e.key).bounded full]
  rfl

theorem find?_dropLast {entries : List Entry} (distinct : (entries.map (·.key)).Nodup) (k : String) :
    entries.dropLast.find? (·.key = k) = if entries.getLast?.map (·.key) = some k then none
      else entries.find? (·.key = k) := by
  rcases List.eq_nil_or_concat entries with rfl | ⟨older, last, rfl⟩
  · rfl
  · rw [List.concat_eq_append] at distinct ⊢
    rw [List.map_append, List.nodup_append] at distinct
    rw [List.dropLast_concat, List.getLast?_concat, List.find?_append]
    by_cases same : last.key = k
    · have fresh : older.find? (·.key = k) = none := by
        refine List.find?_eq_none.2 fun x member found => ?_
        exact distinct.2.2 x.key (List.mem_map_of_mem member) last.key (by simp)
          ((of_decide_eq_true found).trans same.symm)
      rw [fresh]
      exact (if_pos (congrArg some same)).symm
    · simp [same]

/-- A new entry takes the place of another under its key, or else of the last one in a full store. -/
theorem WellFormed.find?_push {s : Store} (wf : s.WellFormed) (e : Entry) {k : String}
    (other : k ≠ e.key) :
    (s.push e).find? k = if s.evicts? e.key = some k then none else s.find? k := by
  have apart : ¬ e.key = k := Ne.symm other
  rw [evicts?]
  split
  · next room =>
      have fits : (s.erase e.key).entries.length < s.capacity := by
        rcases room with room | present
        · exact Nat.lt_of_le_of_lt (List.length_filter_le _ _) room
        · obtain ⟨x, found⟩ := Option.isSome_iff_exists.1 present
          obtain ⟨member, same⟩ := find?_some found
          exact Nat.lt_of_lt_of_le (same ▸ erase_length_lt member) wf.bounded
      rw [find?, entries_push fits, List.find?_cons_of_neg (by simpa using apart), if_neg nofun]
      exact (s.find?_erase e.key k).trans (if_neg other)
  · next full =>
      rw [not_or, Nat.not_lt, Option.not_isSome_iff_eq_none] at full
      have new : ((e :: s.entries).map (·.key)).Nodup := by
        refine List.nodup_cons.2 ⟨fun member => ?_, wf.distinct⟩
        obtain ⟨x, stored, same⟩ := List.mem_map.1 member
        exact find?_none.1 full.2 x stored same
      -- a full store keeps all but the last of what would be in it
      have same := erase_of_find?_none full.2
      rw [find?, wf.entries_push_full (same.symm ▸ full.1), same, find?_dropLast new,
        List.find?_cons_of_neg (by simpa using apart), List.getLast?_cons]
      cases s.entries.getLast? <;> simp [apart, find?]

/-! ## Lookups -/

theorem mem_touch {s : Store} {now : Nat} {key : String} {x : Entry}
    (h : x ∈ (s.touch now key).entries) : x ∈ s.entries := by
  rw [touch] at h
  split at h
  · exact h
  · next e found =>
      split at h
      · exact (mem_erase.1 h).1
      · rcases mem_push h with rfl | ⟨member, -⟩
        · exact (find?_some found).1
        · exact member

theorem WellFormed.touch {s : Store} (wf : s.WellFormed) (now : Nat) (key : String) :
    (s.touch now key).WellFormed := by
  rw [Store.touch]
  split
  · exact wf
  · split
    · exact wf.erase key
    · exact wf.push _

theorem capacity_touch (s : Store) (now : Nat) (key : String) :
    (s.touch now key).capacity = s.capacity := by
  rw [touch]
  split
  · rfl
  · split <;> rfl

theorem WellFormed.mem_touch_of_live {s : Store} (wf : s.WellFormed) {now : Nat} {key : String}
    {x : Entry} (h : x ∈ s.entries) (live : x.isExpired now = false) :
    x ∈ (s.touch now key).entries := by
  rw [Store.touch]
  split
  · exact h
  · next e found =>
      obtain ⟨member, rfl⟩ := find?_some found
      split
      · next expired =>
          refine mem_erase.2 ⟨h, ?_⟩
          intro same
          have : x = e := Option.some.inj ((wf.find?_eq h).symm.trans (same ▸ found))
          rw [this, expired] at live
          cases live
      -- a touched entry only moves to the front, so nothing falls off the end
      · rw [entries_push (Nat.lt_of_lt_of_le (erase_length_lt member) wf.bounded)]
        by_cases same : x.key = e.key
        · have : x = e := Option.some.inj ((wf.find?_eq h).symm.trans (same ▸ wf.find?_eq member))
          exact this ▸ List.mem_cons_self
        · exact List.mem_cons_of_mem _ (mem_erase.2 ⟨h, same⟩)

inductive Touched (now : Nat) : Store → Store → Prop where
  | refl (s : Store) : Touched now s s
  | touch {s t : Store} (key : String) : Touched now s t → Touched now s (t.touch now key)

namespace Touched

variable {now : Nat} {s t u : Store}

theorem trans (h : Touched now s t) (h' : Touched now t u) : Touched now s u := by
  induction h' with
  | refl => exact h
  | touch key _ ih => exact ih.touch key

theorem mem (h : Touched now s t) {x : Entry} (member : x ∈ t.entries) : x ∈ s.entries := by
  induction h with
  | refl => exact member
  | touch key _ ih => exact ih (mem_touch member)

theorem wellFormed (h : Touched now s t) (wf : s.WellFormed) : t.WellFormed := by
  induction h with
  | refl => exact wf
  | touch key _ ih => exact ih.touch now key

theorem capacity (h : Touched now s t) : t.capacity = s.capacity := by
  induction h with
  | refl => rfl
  | touch key _ ih => exact (capacity_touch _ now key).trans ih

theorem mem_of_live (h : Touched now s t) (wf : s.WellFormed) {x : Entry} (member : x ∈ s.entries)
    (live : x.isExpired now = false) : x ∈ t.entries := by
  induction h with
  | refl => exact member
  | touch key between ih => exact (between.wellFormed wf).mem_touch_of_live ih live

theorem lookup?_eq (h : Touched now s t) (wf : s.WellFormed) (key : String) :
    t.lookup? now key = s.lookup? now key := by
  cases found : s.lookup? now key with
  | some value =>
      obtain ⟨e, member, rfl, live, rfl⟩ := lookup?_some found
      exact (h.wellFormed wf).lookup?_eq (h.mem_of_live wf member live) live
  | none =>
      cases after : t.lookup? now key with
      | none => rfl
      | some value =>
          obtain ⟨e, member, rfl, live, rfl⟩ := lookup?_some after
          rw [wf.lookup?_eq (h.mem member) live] at found
          cases found

end Touched

/-! ## Scans -/

theorem mem_scan {s : Store} {now : Nat} {start : String} {pair : String × Bytes} :
    pair ∈ s.scan now start ↔ ∃ e ∈ s.entries,
      start.toList <+: e.key.toList ∧ e.isExpired now = false ∧ (e.key, e.value) = pair := by
  simp [scan, and_assoc]

theorem WellFormed.scan_distinct {s : Store} (wf : s.WellFormed) (now : Nat) (start : String) :
    ((s.scan now start).map (·.1)).Nodup := by
  have listed : (((s.entries.filter fun e =>
      start.toList.isPrefixOf e.key.toList && !e.isExpired now).map fun e => (e.key, e.value)).map
      (·.1)).Sublist (s.entries.map (·.key)) := by
    rw [List.map_map]
    exact List.filter_sublist.map _
  exact ((List.mergeSort_perm _ _).map _).nodup_iff.2 (wf.distinct.sublist listed)

end Store

end Lookaside
