import Lookaside.Proofs.Eviction
import Lookaside.Proofs.Inclusion
import Lookaside.Proofs.TextOrder
import Mathlib

namespace Lookaside.Memory

inductive Answer where
  | found (value? : Option Bytes)
  | listed (values : List (String × Bytes))
  | done
  | overflow
deriving DecidableEq, Repr

def Action.answer (m : Memory) : Action → Answer
  | .request (.get key) => .found (m.get key).1
  | .request (.set key value ttl) => if (m.set key value ttl).isOk then .done else .overflow
  | .request (.delete _) => .done
  | .request (.scan start) => .listed (m.scan start)
  | .wait _ => .done

structure Turn where
  action : Action
  answer : Answer
  removed : List String
deriving DecidableEq, Repr

def turn (m : Memory) (action : Action) : Turn where
  action
  answer := action.answer m
  removed := m.store.keys.filter (· ∉ (m.step action).store.keys)

def turns (m : Memory) : List Action → List Turn
  | [] => []
  | action :: actions => m.turn action :: turns (m.step action) actions

variable {m : Memory}

abbrev Watched := List (String ⊕ Action)

namespace Watched

def actions (run : Watched) : List Action :=
  run.map (Sum.elim (fun start => .request (.scan start)) id)

def own (run : Watched) : List Action := run.filterMap Sum.getRight?

def ownTurns (m : Memory) (run : Watched) : List Turn :=
  ((run.zip (m.turns run.actions)).filter (·.1.isRight)).map (·.2)

theorem play_actions (m : Memory) (run : Watched) : m.play run.actions = m.play run.own := by
  induction run generalizing m with
  | nil => rfl
  | cons entry run ih =>
      cases entry with
      -- the cache is left to the rest of the run as it was
      | inl start => exact ih m
      | inr action => exact ih (m.step action)

theorem ownTurns_eq (m : Memory) (run : Watched) : ownTurns m run = m.turns run.own := by
  induction run generalizing m with
  | nil => rfl
  | cons entry run ih =>
      cases entry with
      | inl start => exact ih m
      | inr action => exact congrArg (m.turn action :: ·) (ih (m.step action))

end Watched

theorem mem_scan_iff (wf : m.store.WellFormed) {start key : String} {value : Bytes} :
    (key, value) ∈ m.scan start ↔ start.toList <+: key.toList ∧ (m.get key).1 = some value := by
  rw [scan, Store.mem_scan]
  constructor
  · rintro ⟨e, stored, starts, live, same⟩
    cases same
    exact ⟨starts, wf.lookup?_eq stored live⟩
  · rintro ⟨starts, found⟩
    obtain ⟨e, stored, rfl, live, rfl⟩ := Store.lookup?_some found
    exact ⟨e, stored, starts, live, rfl⟩

/-- A scan gives just the values that lookups of the keys with its start would give, each key once and in
the order of bytes. Scans that are put into a run, wherever they stand, change neither the answers to the
other actions, later scans included, nor the keys that these remove, nor what the cache comes to. -/
theorem scan_exact_unseen {capacity : Nat} (made : create capacity = .ok m) :
    (∀ actions start, let c := m.play actions
      (∀ key value, (key, value) ∈ c.scan start ↔
        start.toList <+: key.toList ∧ (c.get key).1 = some value) ∧
      (c.scan start).Pairwise fun a b => Bytes.ofText a.1 < Bytes.ofText b.1) ∧
    ∀ run : Watched, run.ownTurns m = m.turns run.own ∧ m.play run.actions = m.play run.own := by
  have empty := create_ok made
  have start : m.store.WellFormed := empty ▸ Store.wellFormed_nil _
  refine ⟨fun actions text => ?_, fun run => ⟨run.ownTurns_eq m, run.play_actions m⟩⟩
  have wf := wellFormed_play start actions
  exact ⟨fun key value => mem_scan_iff wf,
    (wf.scan_strictly_sorted _ text).imp fun before => Bytes.ofText_lt_ofText before⟩

theorem expired_value_unlisted :
    let m : Memory := ⟨⟨2, []⟩, 1000000000⟩
    let run : Watched := [.inr (.request (.set "a" [1] none)), .inr (.request (.set "b" [2] (some 7))),
      .inl "a", .inr (.wait 8), .inl "", .inr (.request (.set "c" [3] none)), .inr (.request (.scan ""))]
    create 2 = .ok m ∧ (run.ownTurns m).map (·.removed) = [[], [], [], ["a"], []] ∧
      (run.ownTurns m).map (·.answer) = [.done, .done, .done, .done, .listed [("c", [3])]] ∧
      (m.play run.own).store.keys = ["c", "b"] ∧ ∀ value, ("b", value) ∉ (m.play run.actions).scan "" := by
  intro m run
  obtain ⟨exact, unseen⟩ := scan_exact_unseen (show create 2 = .ok m from rfl)
  obtain ⟨turns, same⟩ := unseen run
  have missed : ((m.play run.actions).get "b").1 = none := by
    dsimp only [m, run]
    cbv
  rw [turns]
  refine ⟨rfl, by dsimp only [m, run]; cbv, by dsimp only [m, run]; cbv, ?_, fun value listed => ?_⟩
  · rw [← same]
    dsimp only [m, run]
    cbv
  · have found := (((exact run.actions "").1 "b" value).1 listed).2
    cases found.symm.trans missed

end Lookaside.Memory
