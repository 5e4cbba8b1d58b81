import Lookaside.Repository

namespace Lookaside.Repository

inductive Method where
  | get
  | getMany
  | contains
  | save
  | delete
  | count
deriving DecidableEq, Repr

inductive Record (E I : Type) where
  | get (id : I)
  | getMany (ids : List I)
  | contains (id : I)
  | save (entity : E)
  | delete (entity : E)
  | count
deriving DecidableEq, Repr

def Record.method {E I : Type} : Record E I → Method
  | get _ => .get
  | getMany _ => .getMany
  | contains _ => .contains
  | save _ => .save
  | delete _ => .delete
  | count => .count

structure FaultRule where
  method : Method
  error : RepositoryError
deriving DecidableEq, Repr

structure Monitored (ρ E I : Type) where
  inner : ρ
  records : List (Record E I)
  rules : List FaultRule

namespace Monitored

variable {ρ E I : Type}

def start (inner : ρ) : Monitored ρ E I := ⟨inner, [], []⟩

def calls (m : Monitored ρ E I) : List (Record E I) := m.records.reverse

def forget (m : Monitored ρ E I) : Monitored ρ E I := { m with records := [] }

def fault? (m : Monitored ρ E I) (r : Record E I) : Option RepositoryError :=
  (m.rules.find? (·.method = r.method)).map (·.error)

def observe {α : Type} (r : Record E I) (call : Call ρ α) : Call (Monitored ρ E I) α := fun m =>
  match m.fault? r with
  | some error => (.error error, { m with records := r :: m.records })
  | none =>
    let answer := call m.inner
    (answer.1, { m with inner := answer.2, records := r :: m.records })

/-- A call that goes past the monitor. -/
def bypass {α : Type} (call : Call ρ α) : Call (Monitored ρ E I) α := fun m =>
  let answer := call m.inner
  (answer.1, { m with inner := answer.2 })

end Monitored

def monitored {ρ E I : Type} (r : Repository ρ E I) : Repository (Monitored ρ E I) E I where
  get id := Monitored.observe (.get id) (r.get id)
  getMany ids := Monitored.observe (.getMany ids) (r.getMany ids)
  contains id := Monitored.observe (.contains id) (r.contains id)
  save e := Monitored.observe (.save e) (r.save e)
  delete e := Monitored.observe (.delete e) (r.delete e)
  count := Monitored.observe .count r.count

end Lookaside.Repository
