import Lookaside.Entity
import Lookaside.Repository
import Std.Data.TreeMap.Basic

namespace Lookaside

structure Table (E : Type) where
  rows : Std.TreeMap Int32 E
  nextId : Int32

namespace Table

variable {E : Type}

def empty : Table E := ⟨{}, 1⟩

def get (t : Table E) (id : Int32) : Option E := t.rows[id]?

def all (t : Table E) : List E := t.rows.toList.map (·.2)

/-- The rows with the given ids, in the order of the request; no ids ask for all rows. -/
def getMany (t : Table E) (ids : List Int32) : List E :=
  if ids.isEmpty then t.all else ids.filterMap t.get

def contains (t : Table E) (id : Int32) : Bool := t.rows.contains id

def count (t : Table E) : Nat := t.rows.size

def put [NumberedEntity E] (t : Table E) (e : E) : Table E :=
  { t with rows := t.rows.insert (Entity.id e) e }

def notFound [NumberedEntity E] (e : E) : RepositoryError :=
  .notFound (Entity.typeName E) (Entity.renderId E (Entity.id e))

/-- Writes a valid entity: one with identity over the row with its id, which has to be there, and one
without as a new row. -/
def save [NumberedEntity E] (t : Table E) (e : E) : Except RepositoryError E × Table E :=
  match NumberedEntity.validate e with
  | .error reason => (.error (.invalidData reason), t)
  | .ok () =>
    if Entity.hasIdentity e then
      if t.contains (Entity.id e) then (.ok e, t.put e) else (.error (notFound e), t)
    else
      let new := NumberedEntity.withId t.nextId e
      (.ok new, ({ t with nextId := t.nextId + 1 } : Table E).put new)

def delete [NumberedEntity E] (t : Table E) (e : E) : Except RepositoryError Unit × Table E :=
  if t.contains (Entity.id e) then (.ok (), { t with rows := t.rows.erase (Entity.id e) })
  else (.error (notFound e), t)

def repository [NumberedEntity E] : Repository (Table E) E Int32 where
  get id t := (.ok (t.get id), t)
  getMany ids t := (.ok (t.getMany ids), t)
  contains id t := (.ok (t.contains id), t)
  save e t := t.save e
  delete e t := t.delete e
  count t := (.ok t.count, t)

end Table

end Lookaside
