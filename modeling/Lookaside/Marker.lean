import Lookaside.Json.Outline

namespace Lookaside.Marker

open Json

def bytes : Bytes := [Ascii.bracketOpen, Ascii.bracketClose]

/-- Whether a stored value is an empty array. -/
def isMarker (b : Bytes) : Bool :=
  Outline.ofBytes? b = some (.array [])

end Lookaside.Marker
