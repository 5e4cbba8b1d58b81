import Lookaside.Proofs.Table

namespace Lookaside.Table

variable {E : Type}

theorem all_empty : (empty : Table E).all = [] :=
  List.eq_nil_iff_forall_not_mem.2 fun e member => by
    obtain ⟨id, found⟩ := mem_all.1 member
    rw [get_empty] at found
    cases found

theorem count_erase {t : Table E} {id : Int32} (present : t.contains id = true) :
    ({ t with rows := t.rows.erase id } : Table E).count = t.count - 1 := by
  rw [count, Std.TreeMap.size_erase]
  exact if_pos present

variable [NumberedEntity E]

theorem count_put (t : Table E) (e : E) :
    (t.put e).count = if t.contains (Entity.id e) then t.count else t.count + 1 :=
  Std.TreeMap.size_insert

theorem contains_put_self (t : Table E) (e : E) : (t.put e).contains (Entity.id e) = true := by
  rw [contains_eq, get_put, if_pos rfl]
  rfl

theorem save_invalid (t : Table E) {e : E} {reason : String}
    (invalid : NumberedEntity.validate e = .error reason) :
    t.save e = (.error (.invalidData reason), t) := by
  rw [save, invalid]

theorem save_present {t : Table E} {e : E} (valid : NumberedEntity.validate e = .ok ())
    (identity : Entity.hasIdentity e = true) (present : t.contains (Entity.id e) = true) :
    t.save e = (.ok e, t.put e) := by
  rw [save, valid]
  dsimp only
  rw [if_pos identity, if_pos present]

theorem save_new (t : Table E) {e : E} (new : creates e = true) :
    t.save e = (.ok (NumberedEntity.withId t.nextId e),
      ({ t with nextId := t.nextId + 1 } : Table E).put (NumberedEntity.withId t.nextId e)) := by
  rw [creates, Bool.and_eq_true, Bool.not_eq_true'] at new
  rw [save]
  split
  · next invalid => rw [invalid] at new; cases new.1
  · rw [if_neg (ne_true_of_eq_false new.2)]

theorem delete_present {t : Table E} {e : E} (present : t.contains (Entity.id e) = true) :
    t.delete e = (.ok (), { t with rows := t.rows.erase (Entity.id e) }) := by
  rw [delete, if_pos present]

/-- A table that has no rows from the next id on, and ids left for some more. -/
structure Growing (spare : Nat) (t : Table E) : Prop extends Sound spare t where
  free : ∀ {id}, t.nextId ≤ id → t.get id = none

def adding (t : Table E) (es : List E) : Table E :=
  es.foldl (fun t e => (t.save e).2) t

def numbered (n : Int32) : List E → List E
  | [] => []
  | e :: es => NumberedEntity.withId n e :: numbered (n + 1) es

theorem length_numbered (n : Int32) (es : List E) : (numbered n es).length = es.length := by
  induction es generalizing n with
  | nil => rfl
  | cons e es ih => rw [numbered, List.length_cons, List.length_cons, ih]

theorem countP_numbered {p : E → Bool} (same : ∀ n e, p (NumberedEntity.withId n e) = p e) (n : Int32)
    (es : List E) : (numbered n es).countP p = es.countP p := by
  induction es generalizing n with
  | nil => rfl
  | cons e es ih => rw [numbered, List.countP_cons, List.countP_cons, ih, same]

namespace Growing

variable {spare : Nat} {t : Table E}

theorem empty (few : spare < 2147483647) : (Table.empty : Table E).Growing spare where
  toSound := sound_empty few
  free _ := get_empty _

theorem toInt_next (h : t.Growing (spare + 1)) : (t.nextId + 1).toInt = t.nextId.toInt + 1 := by
  have next := h.next
  have room := h.room
  rw [Int32.toInt_add, Int32.toInt_one]
  exact Int.bmod_eq_of_le (by omega) (by omega)

variable {e : E}

theorem nextId_save (new : creates e = true) : (t.save e).2.nextId = t.nextId + 1 := by
  rw [t.save_new new]
  rfl

variable [LawfulNumbered E]

theorem get_save (new : creates e = true) (id : Int32) :
    (t.save e).2.get id =
      if t.nextId = id then some (NumberedEntity.withId t.nextId e) else t.get id := by
  rw [t.save_new new, get_put, LawfulNumbered.id_withId]
  rfl

theorem count_save (h : t.Growing spare) (new : creates e = true) :
    (t.save e).2.count = t.count + 1 := by
  have free : t.contains t.nextId = false := by rw [contains_eq, h.free (Int32.le_refl _)]; rfl
  rw [t.save_new new, count_put, LawfulNumbered.id_withId]
  exact if_neg (ne_true_of_eq_false free)

theorem save (h : t.Growing (spare + 1)) (new : creates e = true) : (t.save e).2.Growing spare where
  toSound := Sound.save (by rw [if_pos new]; exact h.toSound)
  free {id} le := by
    rw [nextId_save new, Int32.le_iff_toInt_le, h.toInt_next] at le
    have below : t.nextId.toInt < id.toInt := by omega
    rw [get_save new, if_neg]
    · exact h.free (Int32.le_iff_toInt_le.2 (by omega))
    · rintro rfl
      omega

variable {es : List E}

theorem adding (h : t.Growing (es.length + spare)) (new : ∀ e ∈ es, creates e = true) :
    (t.adding es).Growing spare := by
  induction es generalizing t with
  | nil => rwa [List.length_nil, Nat.zero_add] at h
  | cons e es ih =>
      rw [List.forall_mem_cons] at new
      rw [List.length_cons, Nat.add_right_comm] at h
      exact ih (h.save new.1) new.2

theorem count_adding (h : t.Growing (es.length + spare)) (new : ∀ e ∈ es, creates e = true) :
    (t.adding es).count = t.count + es.length := by
  induction es generalizing t with
  | nil => rfl
  | cons e es ih =>
      rw [List.forall_mem_cons] at new
      rw [List.length_cons, Nat.add_right_comm] at h
      have rest := ih (h.save new.1) new.2
      rw [h.count_save new.1] at rest
      rw [List.length_cons, Nat.add_comm es.length, ← Nat.add_assoc]
      exact rest

theorem count_adding_empty (few : es.length < 2147483647) (new : ∀ e ∈ es, creates e = true) :
    ((Table.empty : Table E).adding es).count = es.length := by
  have growing : (Table.empty : Table E).Growing (es.length + 0) := empty few
  rw [growing.count_adding new]
  exact Nat.zero_add _

theorem get_adding (h : t.Growing (es.length + spare)) (new : ∀ e ∈ es, creates e = true) {id : Int32}
    (below : id < t.nextId) : (t.adding es).get id = t.get id := by
  induction es generalizing t with
  | nil => rfl
  | cons e es ih =>
      rw [List.forall_mem_cons] at new
      rw [List.length_cons, Nat.add_right_comm] at h
      rw [Int32.lt_iff_toInt_lt] at below
      have later : id < (t.save e).2.nextId := by
        rw [nextId_save new.1, Int32.lt_iff_toInt_lt, h.toInt_next]
        omega
      have kept := ih (h.save new.1) new.2 later
      rw [get_save new.1, if_neg] at kept
      · exact kept
      · rintro rfl
        omega

theorem get_numbered (h : t.Growing (es.length + spare)) (new : ∀ e ∈ es, creates e = true) :
    ∀ e ∈ numbered t.nextId es, (t.adding es).get (Entity.id e) = some e := by
  induction es generalizing t with
  | nil => exact nofun
  | cons e es ih =>
      rw [List.forall_mem_cons] at new
      rw [List.length_cons, Nat.add_right_comm] at h
      have next := nextId_save (t := t) new.1
      refine List.forall_mem_cons.2 ⟨?_, next ▸ ih (h.save new.1) new.2⟩
      -- the rows that come later leave this one alone
      have below : t.nextId < (t.save e).2.nextId := by
        rw [next, Int32.lt_iff_toInt_lt, h.toInt_next]
        omega
      have kept := (h.save new.1).get_adding new.2 below
      rw [get_save new.1, if_pos rfl] at kept
      rw [LawfulNumbered.id_withId]
      exact kept

end Growing

omit [NumberedEntity E] in
theorem filterMap_get {t : Table E} {id : E → Int32} {es : List E}
    (found : ∀ e ∈ es, t.get (id e) = some e) : (es.map id).filterMap t.get = es := by
  induction es with
  | nil => rfl
  | cons e es ih =>
      rw [List.forall_mem_cons] at found
      rw [List.map_cons, List.filterMap_cons, found.1, ih found.2]

end Lookaside.Table
