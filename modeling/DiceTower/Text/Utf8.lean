/-
# Texts as octets

Files and standard input hold octets. They are read as UTF-8, which not every
list of octets is, and texts are written as UTF-8.

Key definitions: `Text.encode`, `Text.decode?`.
Key theorem: `Text.decode?_encode`.
-/
import DiceTower.Text.Basic

namespace DiceTower
namespace Text

/-- The octets of a text in UTF-8. -/
def encode (text : Text) : List UInt8 := text.flatMap String.utf8EncodeChar

/-- The text that octets stand for, if they are UTF-8. -/
def decode? (octets : List UInt8) : Option Text := octets.toByteArray.utf8Decode?.map Array.toList

/-- What is written reads back. -/
theorem decode?_encode (text : Text) : decode? (encode text) = some text := by
  have h : (encode text).toByteArray = text.utf8Encode := rfl
  rw [decode?, h]
  induction text with
  | nil => simp
  | cons c rest ih =>
    rw [List.utf8Encode_cons, ByteArray.utf8Decode?_utf8Encode_singleton_append]
    obtain ⟨a, ha, hr⟩ := Option.map_eq_some_iff.mp (ih rfl)
    simp [ha, hr]

end Text
end DiceTower
