import Lookaside.Bytes
import Lookaside.Digits

namespace Lookaside

class Entity (E : Type) (I : outParam Type) where
  /-- The name of the type, unique among the types that share a cache. -/
  typeName : String
  id : E → I
  hasIdentity : E → Bool
  renderId : I → String
  encode : E → Except String Bytes
  decode? : Bytes → Option E

def renderNumber (n : Int32) : String :=
  String.ofList (Digits.ofInt n.toInt)

/-- Entities whose ids are assigned by the repository that keeps them. -/
class NumberedEntity (E : Type) extends Entity E Int32 where
  withId : Int32 → E → E
  validate : E → Except String Unit := fun _ => .ok ()

end Lookaside
