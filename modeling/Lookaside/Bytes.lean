namespace Lookaside

abbrev Bytes := List UInt8

namespace Bytes

def ofText (s : String) : Bytes :=
  s.toByteArray.data.toList

def text? (b : Bytes) : Option String :=
  String.fromUTF8? ⟨b.toArray⟩

@[simp] theorem text?_ofText (s : String) : text? (ofText s) = some s := by
  have h : (⟨(ofText s).toArray⟩ : ByteArray) = s.toByteArray := by simp [ofText]
  have valid : s.toByteArray.IsValidUTF8 := s.isValidUTF8
  unfold text?
  rw [h, String.fromUTF8?, dif_pos valid]
  rfl

def ofAscii (cs : List Char) : Bytes :=
  cs.map fun c => c.toNat.toUInt8

end Bytes

end Lookaside
