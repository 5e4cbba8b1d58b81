import Lookaside.Entity
import Lookaside.Error

/-!
# Cache keys

Each entity type owns a family of cache keys. The family key starts every item key of the type and is
also the place of the marker that there are no entities; an item key ends in the rendered id.
-/

namespace Lookaside.Key

variable {I : Type}

def root : String := "uRepo_"

def family (E : Type) [Entity E I] : String :=
  root ++ Entity.typeName E ++ "_"

/-- The key of one entity. An id without text has none, because that would be the family key. -/
def item (E : Type) [Entity E I] (id : I) : Except KeyError String :=
  if Entity.renderId E id = "" then .error (.emptyId (Entity.typeName E))
  else .ok (family E ++ Entity.renderId E id)

/-- Whether a key is longer than the family key and starts with it. -/
def isItem (E : Type) [Entity E I] (key : String) : Bool :=
  (family E).toList.isPrefixOf key.toList && key ≠ family E

end Lookaside.Key
