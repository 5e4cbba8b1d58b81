/-!
# Computations with a state and notes

A `Step` works on a state and leaves notes about what it did, in order. Notes are only added, so the
notes of a sequence are those of its parts one after the other.
-/

namespace Lookaside

structure Outcome (σ ν α : Type) where
  value : α
  state : σ
  notes : List ν

/-- A computation on states of type `σ` that leaves notes of type `ν`. -/
def Step (σ ν α : Type) : Type :=
  σ → Outcome σ ν α

namespace Step

variable {σ ν α β : Type}

def run (x : Step σ ν α) (s : σ) : Outcome σ ν α := x s

instance : Monad (Step σ ν) where
  pure a := fun s => ⟨a, s, []⟩
  bind x f := fun s =>
    let first := x s
    let second := f first.value first.state
    ⟨second.value, second.state, first.notes ++ second.notes⟩

def note (n : ν) : Step σ ν Unit := fun s => ⟨(), s, [n]⟩

def modifyGet (f : σ → α × σ) : Step σ ν α := fun s => ⟨(f s).1, (f s).2, []⟩

def read (f : σ → α) : Step σ ν α := fun s => ⟨f s, s, []⟩

@[ext] theorem ext {x y : Step σ ν α} (h : ∀ s, x.run s = y.run s) : x = y := funext h

@[simp] theorem run_pure (a : α) (s : σ) : (pure a : Step σ ν α).run s = ⟨a, s, []⟩ := rfl

@[simp] theorem run_bind (x : Step σ ν α) (f : α → Step σ ν β) (s : σ) :
    (x >>= f).run s =
      ⟨((f (x.run s).value).run (x.run s).state).value,
        ((f (x.run s).value).run (x.run s).state).state,
        (x.run s).notes ++ ((f (x.run s).value).run (x.run s).state).notes⟩ := rfl

@[simp] theorem run_map (f : α → β) (x : Step σ ν α) (s : σ) :
    (f <$> x).run s = ⟨f (x.run s).value, (x.run s).state, (x.run s).notes⟩ := by
  show Outcome.mk (f (x s).value) (x s).state ((x s).notes ++ []) = _
  rw [List.append_nil]
  rfl

@[simp] theorem run_note (n : ν) (s : σ) : (note n : Step σ ν Unit).run s = ⟨(), s, [n]⟩ := rfl

@[simp] theorem run_modifyGet (f : σ → α × σ) (s : σ) :
    (modifyGet f : Step σ ν α).run s = ⟨(f s).1, (f s).2, []⟩ := rfl

@[simp] theorem run_read (f : σ → α) (s : σ) : (read f : Step σ ν α).run s = ⟨f s, s, []⟩ := rfl

instance : LawfulMonad (Step σ ν) := LawfulMonad.mk' _
  (fun x => ext fun s => by
    show Outcome.mk (x s).value (x s).state ((x s).notes ++ []) = x s
    rw [List.append_nil])
  (fun a f => ext fun s => by simp)
  (fun x f g => ext fun s => by simp [List.append_assoc])

end Step

end Lookaside
