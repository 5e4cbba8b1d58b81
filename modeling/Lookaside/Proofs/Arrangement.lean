import Lookaside.Proofs.Holding
import Lookaside.Proofs.Inclusion
import Lookaside.Proofs.Numbering
import Mathlib

namespace Lookaside

namespace Digits

theorem char_lt {m n : Nat} (lt : m < n) (small : n < 10) : char m < char n := by
  have below : ∀ n < 10, ∀ m < n, char m < char n := by decide
  exact below n small m lt

theorem append_lt_append {α : Type} [LT α] {xs ys xs' ys' : List α} (same : xs.length = ys.length)
    (lt : xs < ys) : xs ++ xs' < ys ++ ys' := by
  induction xs generalizing ys with
  | nil =>
      cases List.length_eq_zero_iff.1 same.symm
      cases lt
  | cons x xs ih =>
      cases ys with
      | nil => cases same
      | cons y ys =>
          rw [List.cons_lt_cons_iff] at lt
          rw [List.cons_append, List.cons_append, List.cons_lt_cons_iff]
          exact lt.imp id fun ⟨one, lt⟩ => ⟨one, ih (Nat.succ.inj same) lt⟩

theorem decimal_small {n : Nat} (small : n < 10) : decimal n = [n] := by
  rw [decimal, if_pos small]

theorem decimal_large {n : Nat} (large : ¬ n < 10) : decimal n = decimal (n / 10) ++ [n % 10] := by
  conv_lhs => rw [decimal, if_neg large]

theorem decimal_lt_decimal {m n : Nat} (lt : m < n) (same : (decimal m).length = (decimal n).length) :
    (decimal m).map char < (decimal n).map char := by
  induction n using decimal.induct generalizing m with
  | case1 n small =>
      rw [decimal_small small, decimal_small (Nat.lt_trans lt small)]
      exact List.cons_lt_cons_iff.2 (.inl (char_lt lt small))
  | case2 n big ih =>
      have more : ¬ m < 10 := by
        intro small
        rw [decimal_small small, decimal_large big, List.length_append] at same
        exact decimal_ne_nil (n / 10) (List.length_eq_zero_iff.1 (by simpa using same))
      rw [decimal_large more, decimal_large big, List.length_append, List.length_append] at same
      rw [decimal_large more, decimal_large big, List.map_append, List.map_append]
      rcases Nat.lt_or_ge (m / 10) (n / 10) with higher | lower
      · exact append_lt_append (by simpa using same) (ih higher (Nat.add_right_cancel same))
      · have one : m / 10 = n / 10 := by omega
        rw [one]
        exact List.append_left_lt (List.cons_lt_cons_iff.2 (.inl (char_lt (by omega) (by omega))))

end Digits

theorem renderNumber_lt {a b : Int32} (positive : 0 < a) (lt : a < b)
    (same : (renderNumber a).length = (renderNumber b).length) : renderNumber a < renderNumber b := by
  rw [Int32.lt_iff_toInt_lt] at positive lt
  have first : (0 : Int32).toInt = 0 := rfl
  have shown {n : Int32} (above : 0 < n.toInt) :
      (renderNumber n).toList = (Digits.decimal n.toInt.natAbs).map Digits.char := by
    rw [renderNumber, Digits.ofInt, if_neg (by omega), String.toList_ofList]
  rw [String.lt_iff_toList_lt, shown (by omega), shown (by omega)]
  rw [← String.length_toList, ← String.length_toList, shown (by omega), shown (by omega)] at same
  exact Digits.decimal_lt_decimal (by omega) (by simpa using same)

theorem append_lt_append_iff (start : String) {a b : String} : start ++ a < start ++ b ↔ a < b := by
  have mono : StrictMono fun s : String => start ++ s := by
    intro s t lt
    rw [String.lt_iff_toList_lt] at lt ⊢
    rw [String.toList_append, String.toList_append]
    exact List.append_left_lt lt
  exact mono.lt_iff_lt

open Repository

variable {E : Type} [NumberedEntity E] {w : World (Table E)} {options : Policy.Options}

def ByText (es : List E) : Prop :=
  es.Pairwise fun a b => Entity.renderId E (Entity.id a) < Entity.renderId E (Entity.id b)

theorem ByText.eq_of_perm {es es' : List E} (h : ByText es) (h' : ByText es') (perm : es.Perm es') :
    es = es' :=
  perm.eq_of_pairwise (fun _ _ _ _ before after => absurd before (lt_asymm after)) h h'

variable [LawfulNumbered E]

theorem Table.Filed.byText_all {t : Table E} (filed : t.Filed) (positive : ∀ e ∈ t.all, 0 < Entity.id e)
    (same : ∀ a ∈ t.all, ∀ b ∈ t.all,
      (Entity.renderId E (Entity.id a)).length = (Entity.renderId E (Entity.id b)).length) :
    ByText t.all := by
  refine filed.sorted_all.imp_of_mem fun {a b} ha hb lt => ?_
  have same := same a ha b hb
  rw [LawfulNumbered.renderId_eq, LawfulNumbered.renderId_eq] at same ⊢
  exact renderNumber_lt (positive a ha) lt same

variable (options) in
theorem Agreeing.byText_found (fresh : w.keeper.Fresh w.link.memory.store)
    (wf : w.link.memory.store.WellFormed) (filed : w.keeper.Filed) :
    ByText ((Table.cached E options).policy.found w.link) := by
  have sorted : (w.link.values (Key.family E)).Pairwise fun a b => a.1 < b.1 := by
    rw [Cache.Link.values, Cache.Link.scan]
    split
    · exact .nil
    · exact wf.scan_strictly_sorted _ _
  have named {x : String × Bytes} (member : x ∈ (w.link.values (Key.family E)).filter fun x => Key.isItem E x.1)
      {e : E} (decoded : Entity.decode? x.2 = some e) :
      x.1 = Key.family E ++ Entity.renderId E (Entity.id e) := by
    obtain ⟨listed, item⟩ := List.mem_filter.1 member
    obtain ⟨y, stored, -, -, rfl⟩ := Store.mem_scan.1 (Cache.Link.mem_values listed)
    obtain ⟨id, -, keyed, row⟩ := (fresh y stored (Key.ne_family_of_isItem item)).listed item decoded
    rw [filed row]
    exact (Key.item_ok_iff.1 keyed).2.symm
  refine List.pairwise_filterMap.2 ((sorted.sublist List.filter_sublist).imp_of_mem ?_)
  intro x y hx hy lt e decoded e' decoded'
  rwa [named hx decoded, named hy decoded', append_lt_append_iff] at lt

/-- With validated counts a request for all rows is answered with the rows of the table, each of them once. The
table gives them by their ids and the cache by the text of their ids. -/
theorem all_rows_arranged {capacity : Nat} {memory : Memory} (made : Memory.create capacity = .ok memory)
    (validates : options.validateCount = true) {faults : Cache.Faults} (writable : faults.SpareWrites)
    {turns : List (Turn E)} (own : ∀ turn ∈ turns, turn.isDirect = false)
    (fits : ∀ ttl, options.ttl = some ttl →
      Span.seconds (memory.now + Turn.elapsed turns + ttl) ≤ Memory.lastSecond) :
    let w := World.play options turns ⟨⟨memory, faults, 0⟩, .empty⟩
    let r := (Table.cached E options).call (.getMany []) w
    let rows := w.keeper.all
    rows.Pairwise (fun a b => Entity.id a < Entity.id b) ∧
      ∃ es, r.value = .ok (.ok (.many es)) ∧ es.Perm rows ∧
        (.fetchMany [] ∈ r.notes.filterMap Note.errand? → es = rows) ∧
        (.fetchMany [] ∉ r.notes.filterMap Note.errand? → ByText es) ∧
        ((∀ a ∈ rows, ∀ b ∈ rows,
          (Entity.renderId E (Entity.id a)).length = (Entity.renderId E (Entity.id b)).length) → es = rows) := by
  intro w r rows
  obtain ⟨agreeing, filed, deadline, lives⟩ := agreeing_play made writable fits own
  refine ⟨filed.sorted_all, ?_⟩
  obtain ⟨found, read⟩ := Agreeing.readCached_all options w
  cases found with
  | none =>
      refine ⟨rows, call_many_of_miss agreeing.writable lives read, .refl _, fun _ => rfl, fun unasked => ?_,
        fun _ => rfl⟩
      exact absurd (errands_of_miss agreeing.writable lives read ▸ List.mem_cons_self) unasked
  | some es =>
      obtain ⟨value, unasked⟩ := call_many_of_hit read
      have fresh := agreeing.coherent.fresh
      have selected := Agreeing.selects_of_hit fresh agreeing.wellFormed filed agreeing.no_rows read
      rw [Selects, if_pos validates] at selected
      obtain ⟨counter?, valid, rfl, -⟩ := Policy.readAll_hit read
      have byText := Agreeing.byText_found options fresh agreeing.wellFormed filed
      refine ⟨_, value, selected, fun asked => ?_, fun _ => byText, fun same => ?_⟩
      · exact absurd (unasked ▸ asked) List.not_mem_nil
      · refine byText.eq_of_perm (filed.byText_all (fun e member => ?_) same) selected
        -- what the cache gives has positive ids, and it gives all rows
        obtain ⟨id, positive, row⟩ :=
          (Agreeing.found_rows options fresh agreeing.wellFormed filed).2 e (selected.mem_iff.2 member)
        exact filed row ▸ positive

theorem two_members_arranged :
    let options : Policy.Options := ⟨true, false, some 500000000⟩
    let memory : Memory := ⟨⟨2, []⟩, 1000000000⟩
    let turns : List (Turn Member) :=
      [.call (.save ⟨0, "ada"⟩), .wait 7, .call (.save ⟨0, "bob"⟩), .call (.save ⟨1, "eve"⟩)]
    let w := World.play options turns ⟨⟨memory, .never, 0⟩, .empty⟩
    let r := (Table.cached Member options).call (.getMany []) w
    Memory.create 2 = .ok memory ∧ options.validateCount = true ∧ Cache.Faults.never.SpareWrites ∧
      (∀ turn ∈ turns, turn.isDirect = false) ∧
      (∀ ttl, options.ttl = some ttl →
        Span.seconds (memory.now + Turn.elapsed turns + ttl) ≤ Memory.lastSecond) ∧
      w.keeper.all = [⟨1, "eve"⟩, ⟨2, "bob"⟩] ∧ r.notes.filterMap Note.errand? = [] ∧
      r.value = .ok (.ok (.many [⟨1, "eve"⟩, ⟨2, "bob"⟩])) := by
  intro options memory turns w r
  have writable := Cache.Faults.never_spareWrites
  have own : ∀ turn ∈ turns, turn.isDirect = false := by decide
  have fits : ∀ ttl, options.ttl = some ttl →
      Span.seconds (memory.now + Turn.elapsed turns + ttl) ≤ Memory.lastSecond := by
    rintro _ ⟨⟩
    decide
  have rows : w.keeper.all = [⟨1, "eve"⟩, ⟨2, "bob"⟩] := by
    dsimp only [w, turns, memory, options]
    cbv
  have errands : r.notes.filterMap Note.errand? = [] := by
    dsimp only [r, w, turns, memory, options]
    cbv
  obtain ⟨-, es, value, -, -, -, arranged⟩ :=
    all_rows_arranged (show Memory.create 2 = .ok memory from rfl) rfl writable own fits
  refine ⟨rfl, rfl, writable, own, fits, rows, errands, ?_⟩
  rw [← rows, ← arranged]
  · exact value
  · rw [rows]
    decide +kernel

/-- Nine comes before ten in the table, and behind it in the cache. A lifetime that overflows the clock even keeps
the rows of an empty table from being listed. -/
theorem ten_before_nine :
    let memory : Memory := ⟨⟨10, []⟩, 1000000000⟩
    let turns : List (Turn Member) := List.replicate 10 (.call (.save ⟨0, ""⟩)) ++
      [1, 2, 3, 4, 5, 6, 7, 8].map fun id => .call (.delete ⟨id, ""⟩)
    let w := World.play ⟨true, true, none⟩ turns ⟨.ofMemory memory, .empty⟩
    let r := (Table.cached Member ⟨true, true, none⟩).call (.getMany []) w
    Memory.create 10 = .ok memory ∧ (∀ turn ∈ turns, turn.isDirect = false) ∧
      w.keeper.all = [⟨9, ""⟩, ⟨10, ""⟩] ∧ r.value = .ok (.ok (.many [⟨10, ""⟩, ⟨9, ""⟩])) ∧
      ((Table.cached Member ⟨true, true, some (Span.ofSeconds 18446744073709551615)⟩).call (.getMany [])
        ⟨.ofMemory memory, .empty⟩).value = .error .deadline := by
  intro memory turns w r
  refine ⟨rfl, by decide, ?_, ?_, ?_⟩
  · dsimp only [w, turns, memory]
    cbv
  · dsimp only [r, w, turns, memory]
    cbv
  · dsimp only [memory]
    cbv

end Lookaside
