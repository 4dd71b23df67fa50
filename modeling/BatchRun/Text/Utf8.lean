/-!
# Texts as bytes

**Input.**
A text, or a list of bytes that may or may not be UTF-8.

**Results.**
`bytesOf` and `textOf?` are inverse to each other on the valid byte lists.
-/

namespace BatchRun
namespace Text

/-- Contents of a file or a message. -/
abbrev Bytes := List UInt8

/-- UTF-8 bytes of a text. -/
def bytesOf (text : String) : Bytes := text.toByteArray.data.toList

/-- Text with the given UTF-8 bytes, if they are valid. -/
def textOf? (bytes : Bytes) : Option String := String.fromUTF8? ⟨bytes.toArray⟩

@[simp] theorem textOf?_bytesOf (text : String) :
    textOf? (bytesOf text) = some text := by
  have h : (⟨text.toByteArray.data.toList.toArray⟩ : ByteArray) = text.toByteArray := by
    simp
  simp only [textOf?, bytesOf, h, String.fromUTF8?, text.isValidUTF8, dif_pos]
  rfl

end Text
end BatchRun
