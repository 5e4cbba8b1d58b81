import Lookaside.Cache.Link
import Lookaside.Log.Event
import Lookaside.Step

namespace Lookaside

abbrev Call (ρ α : Type) := ρ → Except RepositoryError α × ρ

inductive Errand (I : Type) where
  | persist
  | fetch (id : I)
  | fetchMany (ids : List I)
deriving DecidableEq, Repr

inductive Note (I : Type) where
  | exchange (x : Cache.Exchange)
  | event (e : Log.Event)
  | counted (reply : Except RepositoryError Nat)
  | called (errand : Errand I)

namespace Note

variable {I : Type}

def exchange? : Note I → Option Cache.Exchange
  | exchange x => some x
  | _ => none

def event? : Note I → Option Log.Event
  | event e => some e
  | _ => none

def errand? : Note I → Option (Errand I)
  | called errand => some errand
  | _ => none

def count? : Note I → Option (Except RepositoryError Nat)
  | counted reply => some reply
  | _ => none

end Note

/-- The cache and the keeper of the entities. -/
structure World (ρ : Type) where
  link : Cache.Link
  keeper : ρ

def World.wait {ρ : Type} (w : World ρ) (span : Span) : World ρ :=
  { w with link.memory := w.link.memory.wait span }

abbrev Act (ρ I : Type) := Step (World ρ) (Note I)

/-- A computation that ends early if a lifetime overflows the clock. -/
abbrev Effect (ρ I : Type) := ExceptT Overflow (Act ρ I)

namespace Act

variable {ρ I α : Type}

def report (e : Log.Event) : Act ρ I Unit :=
  Step.note (.event e)

def get (key : String) : Act ρ I (Except CacheError (Option Bytes)) := fun w =>
  let r := w.link.get key
  ⟨r.1, { w with link := r.2 }, [.exchange (.get key r.1)]⟩

def scan (start : String) : Act ρ I (Except CacheError (List (String × Bytes))) := fun w =>
  let r := w.link.scan start
  ⟨r.1, { w with link := r.2 }, [.exchange (.scan start r.1)]⟩

def delete (key : String) : Act ρ I (Except CacheError Unit) := fun w =>
  let r := w.link.delete key
  ⟨r.1, { w with link := r.2 }, [.exchange (.delete key r.1)]⟩

/-- Writes a value to the cache. An overflow leaves no note, because there is no reply. -/
def set (key : String) (value : Bytes) (ttl : Option Span) :
    Effect ρ I (Except CacheError Unit) := fun w =>
  let r := w.link.set key value ttl
  ⟨r.1, { w with link := r.2 },
    match r.1 with
    | .error _ => []
    | .ok reply => [.exchange (.set key value ttl reply)]⟩

def keeper (call : Call ρ α) : Act ρ I (Except RepositoryError α) := fun w =>
  let r := call w.keeper
  ⟨r.1, { w with keeper := r.2 }, []⟩

def call (errand : Errand I) (call : Call ρ α) : Act ρ I (Except RepositoryError α) := do
  Step.note (.called errand)
  keeper call

def count (call : Call ρ Nat) : Act ρ I (Except RepositoryError Nat) := do
  let reply ← keeper call
  Step.note (.counted reply)
  return reply

def reportFailure (event : CacheError → Log.Event) : Except CacheError α → Act ρ I Unit
  | .ok _ => pure ()
  | .error e => report (event e)

end Act

def Effect.lift {ρ I α : Type} (x : Act ρ I α) : Effect ρ I α :=
  ExceptT.lift x

namespace Act

variable {ρ I α : Type}

@[simp] theorem run_report (e : Log.Event) (w : World ρ) :
    (report e : Act ρ I Unit).run w = ⟨(), w, [.event e]⟩ := rfl

@[simp] theorem run_get (key : String) (w : World ρ) :
    (get key : Act ρ I _).run w = ⟨(w.link.get key).1, { w with link := (w.link.get key).2 },
      [.exchange (.get key (w.link.get key).1)]⟩ := rfl

@[simp] theorem run_scan (start : String) (w : World ρ) :
    (scan start : Act ρ I _).run w = ⟨(w.link.scan start).1, { w with link := (w.link.scan start).2 },
      [.exchange (.scan start (w.link.scan start).1)]⟩ := rfl

@[simp] theorem run_delete (key : String) (w : World ρ) :
    (delete key : Act ρ I _).run w = ⟨(w.link.delete key).1, { w with link := (w.link.delete key).2 },
      [.exchange (.delete key (w.link.delete key).1)]⟩ := rfl

@[simp] theorem run_keeper (call : Call ρ α) (w : World ρ) :
    (keeper call : Act ρ I _).run w = ⟨(call w.keeper).1, { w with keeper := (call w.keeper).2 }, []⟩ :=
  rfl

@[simp] theorem run_call (errand : Errand I) (call : Call ρ α) (w : World ρ) :
    (Act.call errand call : Act ρ I _).run w =
      ⟨(call w.keeper).1, { w with keeper := (call w.keeper).2 }, [.called errand]⟩ := rfl

@[simp] theorem run_count (call : Call ρ Nat) (w : World ρ) :
    (count call : Act ρ I _).run w =
      ⟨(call w.keeper).1, { w with keeper := (call w.keeper).2 }, [.counted (call w.keeper).1]⟩ := rfl

end Act

@[simp] theorem Effect.run_lift {ρ I α : Type} (x : Act ρ I α) (w : World ρ) :
    Step.run (ExceptT.run (Effect.lift x)) w =
      ⟨.ok (x.run w).value, (x.run w).state, (x.run w).notes⟩ :=
  Step.run_map Except.ok x w

end Lookaside
