import Lookaside.Cache.Request
import Lookaside.Proofs.Store
import Mathlib

namespace Lookaside.Memory

inductive Action where
  | request (r : Cache.Request)
  | wait (span : Span)
deriving DecidableEq, Repr

def step (m : Memory) : Action → Memory
  | .request (.get key) => (m.get key).2
  | .request (.set key value ttl) => (m.set key value ttl).toOption.getD m
  | .request (.delete key) => m.delete key
  | .request (.scan _) => m
  | .wait span => m.wait span

def play (m : Memory) (actions : List Action) : Memory :=
  actions.foldl step m

namespace Action

def span : Action → Span
  | .request _ => 0
  | .wait span => span

def settles (key : String) : Action → Bool
  | .request (.set key' ..) => key' = key
  | .request (.delete key') => key' = key
  | _ => false

def touched? (m : Memory) : Action → Option String
  | .request (.get key) => if (m.get key).1.isSome then some key else none
  | .request (.set key ..) => some key
  | _ => none

def Fits (m : Memory) : Action → Prop
  | .request (.set _ _ ttl) => ∃ deadline, m.deadline ttl = .ok deadline
  | _ => True

end Action

def elapsed (actions : List Action) : Span :=
  (actions.map Action.span).sum

def touched (m : Memory) : List Action → List String
  | [] => []
  | action :: actions => (action.touched? m).toList ++ touched (m.step action) actions

def Fits (m : Memory) : List Action → Prop
  | [] => True
  | action :: actions => action.Fits m ∧ Fits (m.step action) actions

variable {m : Memory} {action : Action}

/-! ## Histories in parts -/

theorem play_append (m : Memory) (earlier later : List Action) :
    m.play (earlier ++ later) = (m.play earlier).play later :=
  List.foldl_append

theorem elapsed_append (earlier later : List Action) :
    elapsed (earlier ++ later) = elapsed earlier + elapsed later := by
  rw [elapsed, List.map_append, List.sum_append]
  rfl

theorem touched_append (m : Memory) (earlier later : List Action) :
    m.touched (earlier ++ later) = m.touched earlier ++ (m.play earlier).touched later := by
  induction earlier generalizing m with
  | nil => rfl
  | cons action earlier ih =>
      simp only [List.cons_append, touched, ih, List.append_assoc]
      rfl

theorem fits_append {earlier later : List Action} :
    m.Fits (earlier ++ later) ↔ m.Fits earlier ∧ (m.play earlier).Fits later := by
  induction earlier generalizing m with
  | nil => exact ⟨fun h => ⟨trivial, h⟩, fun h => h.2⟩
  | cons action earlier ih =>
      simp only [List.cons_append, Fits, ih, and_assoc]
      rfl

/-! ## One action -/

theorem set_fits {ttl : Option Span} {deadline : Option Nat} (fits : m.deadline ttl = .ok deadline)
    (key : String) (value : Bytes) :
    m.step (.request (.set key value ttl)) =
      { m with store := m.store.push ⟨key, value, deadline⟩ } := by
  rw [step, set, fits]
  rfl

theorem set_overflows {ttl : Option Span} {overflow : Overflow} (h : m.deadline ttl = .error overflow)
    (key : String) (value : Bytes) : m.step (.request (.set key value ttl)) = m := by
  rw [step, set, h]
  rfl

theorem now_step (m : Memory) (action : Action) : (m.step action).now = m.now + action.span := by
  cases action with
  | wait span => rfl
  | request r =>
      cases r with
      | set key value ttl =>
          cases fits : m.deadline ttl with
          | error overflow => rw [set_overflows fits]; rfl
          | ok deadline => rw [set_fits fits]; rfl
      | _ => rfl

theorem capacity_step (m : Memory) (action : Action) :
    (m.step action).store.capacity = m.store.capacity := by
  cases action with
  | wait span => rfl
  | request r =>
      cases r with
      | get key =>
          show (m.store.touch m.now key).capacity = m.store.capacity
          rw [Store.touch]
          split
          · rfl
          · split <;> rfl
      | set key value ttl =>
          cases fits : m.deadline ttl with
          | error overflow => rw [set_overflows fits]
          | ok deadline => rw [set_fits fits]; rfl
      | _ => rfl

theorem wellFormed_step (wf : m.store.WellFormed) (action : Action) :
    (m.step action).store.WellFormed := by
  cases action with
  | wait span => exact wf
  | request r =>
      cases r with
      | get key => exact wf.touch _ _
      | set key value ttl =>
          cases fits : m.deadline ttl with
          | error overflow => rw [set_overflows fits]; exact wf
          | ok deadline => rw [set_fits fits]; exact wf.push _
      | delete key => exact wf.erase key
      | scan start => exact wf

theorem mem_step (fits : action.Fits m) {x : Entry} (h : x ∈ (m.step action).store.entries) :
    (∃ ttl, action = .request (.set x.key x.value ttl) ∧ m.deadline ttl = .ok x.deadline) ∨
      (x ∈ m.store.entries ∧ action.settles x.key = false) := by
  cases action with
  | wait span => exact .inr ⟨h, rfl⟩
  | request r =>
      cases r with
      | get key => exact .inr ⟨Store.mem_touch h, rfl⟩
      | set key value ttl =>
          obtain ⟨deadline, lives⟩ := fits
          rw [set_fits lives] at h
          rcases Store.mem_push h with rfl | ⟨old, other⟩
          · exact .inl ⟨ttl, rfl, lives⟩
          · exact .inr ⟨old, decide_eq_false (Ne.symm other)⟩
      | delete key =>
          obtain ⟨old, other⟩ := Store.mem_erase.1 h
          exact .inr ⟨old, decide_eq_false (Ne.symm other)⟩
      | scan start => exact .inr ⟨h, rfl⟩

/-! ## Whole histories -/

theorem now_play (m : Memory) (actions : List Action) :
    (m.play actions).now = m.now + elapsed actions := by
  induction actions generalizing m with
  | nil => rfl
  | cons action actions ih =>
      show ((m.step action).play actions).now = _
      rw [ih, now_step, Nat.add_assoc]
      rfl

theorem capacity_play (m : Memory) (actions : List Action) :
    (m.play actions).store.capacity = m.store.capacity := by
  induction actions generalizing m with
  | nil => rfl
  | cons action actions ih => exact (ih _).trans (m.capacity_step action)

theorem wellFormed_play (wf : m.store.WellFormed) (actions : List Action) :
    (m.play actions).store.WellFormed := by
  induction actions generalizing m with
  | nil => exact wf
  | cons action actions ih => exact ih (wellFormed_step wf action)

theorem mem_play {actions : List Action} (fits : m.Fits actions) {x : Entry}
    (h : x ∈ (m.play actions).store.entries) :
    (∃ ttl earlier later, actions = earlier ++ .request (.set x.key x.value ttl) :: later ∧
        (m.play earlier).deadline ttl = .ok x.deadline ∧ ∀ a ∈ later, a.settles x.key = false) ∨
      (x ∈ m.store.entries ∧ ∀ a ∈ actions, a.settles x.key = false) := by
  -- from the last action backwards, because the latest setting is the one that counts
  induction actions using List.reverseRecOn with
  | nil => exact .inr ⟨h, nofun⟩
  | append_singleton actions action ih =>
      obtain ⟨before, now⟩ := fits_append.1 fits
      rw [play_append] at h
      rcases mem_step now.1 h with ⟨ttl, rfl, lives⟩ | ⟨old, spared⟩
      · exact .inl ⟨ttl, actions, [], rfl, lives, nofun⟩
      · have extend : ∀ {as : List Action}, (∀ a ∈ as, a.settles x.key = false) →
            ∀ a ∈ as ++ [action], a.settles x.key = false := by
          intro as unsettled a member
          rcases List.mem_append.1 member with member | member
          · exact unsettled a member
          · rwa [List.mem_singleton.1 member]
        rcases ih before old with ⟨ttl, earlier, later, rfl, lives, unsettled⟩ | ⟨first, unsettled⟩
        · exact .inl ⟨ttl, earlier, later ++ [action], by simp, lives, extend unsettled⟩
        · exact .inr ⟨first, extend unsettled⟩

end Lookaside.Memory
