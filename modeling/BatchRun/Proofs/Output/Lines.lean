import BatchRun.Output.Sink

/-!
# Lines of a file

**Type.**
`completeLines` are the lines that have an end, without it, and `remainder` is what stands behind
the last end.

**Results.**
* `completeLines_append`: bytes that are added complete what was left and leave all complete lines.
* `completeLines_written`: a line that is added stands behind what was left.
* `length_completeLines`: their number is the one that is counted.
* `completeLines_mended`, `remainder_mended`: mending keeps all complete lines and nothing else.
-/

namespace BatchRun
namespace RecordFile

open Text

/-- Lines with an end. -/
def completeLines : Bytes → List Bytes
  | [] => []
  | byte :: bytes =>
    if byte = lineEnd then [] :: completeLines bytes
    else
      match completeLines bytes with
      | [] => []
      | line :: lines => (byte :: line) :: lines

/-- What stands behind the last end of a line. -/
def remainder : Bytes → Bytes
  | [] => []
  | byte :: bytes =>
    if byte = lineEnd then remainder bytes
    else
      match completeLines bytes with
      | [] => byte :: bytes
      | _ :: _ => remainder bytes

@[simp] theorem completeLines_nil : completeLines [] = [] :=
  rfl

@[simp] theorem remainder_nil : remainder [] = [] :=
  rfl

@[simp] theorem completeLines_lineEnd
    (bytes : Bytes) :
    completeLines (lineEnd :: bytes) = [] :: completeLines bytes := by
  simp [completeLines]

@[simp] theorem remainder_lineEnd
    (bytes : Bytes) :
    remainder (lineEnd :: bytes) = remainder bytes := by
  simp [remainder]

section Parts

variable {bytes more line : Bytes} {byte : UInt8}

/-- Without an end there is no line, and all bytes are left. -/
theorem plain_iff :
    lineEnd ∉ bytes ↔ completeLines bytes = [] := by
  induction bytes with
  | nil => simp
  | cons byte bytes ih =>
      by_cases h : byte = lineEnd
      · simp [h]
      · have hne : lineEnd ≠ byte := Ne.symm h
        rw [List.mem_cons, not_or, ih]
        cases hlines : completeLines bytes with
        | nil => simp [completeLines, h, hlines, hne]
        | cons line lines => simp [completeLines, h, hlines]

theorem remainder_of_plain
    (plain : lineEnd ∉ bytes) :
    remainder bytes = bytes := by
  cases bytes with
  | nil => rfl
  | cons byte bytes =>
      rw [List.mem_cons, not_or] at plain
      simp [remainder, Ne.symm plain.1, plain_iff.mp plain.2]

theorem plain_remainder
    (bytes : Bytes) :
    lineEnd ∉ remainder bytes := by
  induction bytes with
  | nil => simp
  | cons byte bytes ih =>
      by_cases h : byte = lineEnd
      · simpa [h] using ih
      · cases hlines : completeLines bytes with
        | nil => simpa [remainder, h, hlines, Ne.symm h] using plain_iff.mpr hlines
        | cons line lines => simpa [remainder, h, hlines] using ih

/-- Bytes that are added complete what was left and leave all complete lines. -/
theorem completeLines_append
    (bytes more : Bytes) :
    completeLines (bytes ++ more) =
      completeLines bytes ++ completeLines (remainder bytes ++ more) := by
  induction bytes with
  | nil => simp
  | cons byte bytes ih =>
      by_cases h : byte = lineEnd
      · simp [h, ih]
      · cases hlines : completeLines bytes with
        | nil => simp [remainder, completeLines, h, hlines]
        | cons line lines => simp [remainder, completeLines, h, hlines, ih]

theorem remainder_append
    (bytes more : Bytes) :
    remainder (bytes ++ more) = remainder (remainder bytes ++ more) := by
  induction bytes with
  | nil => simp
  | cons byte bytes ih =>
      by_cases h : byte = lineEnd
      · simp [h, ih]
      · cases hlines : completeLines bytes with
        | nil => simp [remainder, h, hlines]
        | cons line lines => simp [remainder, h, hlines, completeLines_append bytes more, ih]

theorem prefix_completeLines
    (bytes more : Bytes) :
    completeLines bytes <+: completeLines (bytes ++ more) := by
  rw [completeLines_append]
  exact List.prefix_append _ _

theorem completeLines_ended
    (plain : lineEnd ∉ line) :
    completeLines (line ++ [lineEnd]) = [line] := by
  induction line with
  | nil => rfl
  | cons byte line ih =>
      rw [List.mem_cons, not_or] at plain
      simp [completeLines, Ne.symm plain.1, ih plain.2]

theorem remainder_ended
    (bytes : Bytes) :
    remainder (bytes ++ [lineEnd]) = [] := by
  induction bytes with
  | nil => rfl
  | cons byte bytes ih =>
      by_cases h : byte = lineEnd
      · simpa [h] using ih
      · cases hlines : completeLines (bytes ++ [lineEnd]) with
        | nil => exact absurd (plain_iff.mpr hlines) (by simp)
        | cons line lines => simpa [remainder, h, hlines] using ih

/-- A line that is added stands behind what was left. -/
theorem completeLines_written
    (bytes : Bytes)
    (plain : lineEnd ∉ line) :
    completeLines (bytes ++ (line ++ [lineEnd])) =
      completeLines bytes ++ [remainder bytes ++ line] := by
  have hplain : lineEnd ∉ remainder bytes ++ line := by
    simp [plain_remainder, plain]
  rw [completeLines_append, ← List.append_assoc, completeLines_ended hplain]

/-- Bytes without an end are left. -/
theorem completeLines_torn
    (bytes : Bytes)
    (plain : lineEnd ∉ more) :
    completeLines (bytes ++ more) = completeLines bytes := by
  have hplain : lineEnd ∉ remainder bytes ++ more := by
    simp [plain_remainder, plain]
  rw [completeLines_append, plain_iff.mp hplain, List.append_nil]

theorem remainder_torn
    (bytes : Bytes)
    (plain : lineEnd ∉ more) :
    remainder (bytes ++ more) = remainder bytes ++ more := by
  rw [remainder_append]
  exact remainder_of_plain (by simp [plain_remainder, plain])

end Parts

section Counting

/-- The number of complete lines is the one that is counted. -/
theorem length_completeLines
    (bytes : Bytes) :
    (completeLines bytes).length = lineCount bytes := by
  induction bytes with
  | nil => rfl
  | cons byte bytes ih =>
      unfold lineCount at ih ⊢
      by_cases h : byte = lineEnd
      · simp [h, ih]
      · rw [List.countP_cons_of_neg (by simpa using h), ← ih]
        cases hlines : completeLines bytes with
        | nil => simp [completeLines, h, hlines]
        | cons line lines => simp [completeLines, h, hlines]

/-- What is left is what is found from the end. -/
theorem takeWhile_reversed
    (bytes : Bytes) :
    bytes.takeWhile (· != lineEnd) = (remainder bytes.reverse).reverse := by
  induction bytes with
  | nil => rfl
  | cons byte bytes ih =>
      rw [List.reverse_cons]
      by_cases h : byte = lineEnd
      · simp [h, remainder_ended]
      · rw [remainder_torn _ (by simpa using Ne.symm h), List.reverse_append, ← ih]
        simp [h]

/-- Mending leaves all but what was left. -/
theorem take_completeLength
    (bytes : Bytes) :
    bytes.take (completeLength bytes) ++ remainder bytes = bytes := by
  have hleft : bytes.reverse.takeWhile (· != lineEnd) = (remainder bytes).reverse := by
    rw [takeWhile_reversed, List.reverse_reverse]
  have hprefix : (remainder bytes).reverse <+: bytes.reverse := by
    rw [← hleft]
    exact List.takeWhile_prefix _
  obtain ⟨front, hfront⟩ := List.reverse_prefix.mp hprefix
  have hlength : completeLength bytes = front.length := by
    unfold completeLength
    rw [hleft, List.length_reverse]
    have htotal := congrArg List.length hfront
    rw [List.length_append] at htotal
    omega
  have hfront' : bytes.take (completeLength bytes) = front := by
    rw [hlength]
    conv => lhs; rw [← hfront]
    exact List.take_left
  rw [hfront', hfront]

theorem completeLines_mended
    (bytes : Bytes) :
    completeLines (bytes.take (completeLength bytes)) = completeLines bytes := by
  have hall := completeLines_torn (bytes.take (completeLength bytes)) (plain_remainder bytes)
  rw [take_completeLength] at hall
  exact hall.symm

theorem remainder_mended
    (bytes : Bytes) :
    remainder (bytes.take (completeLength bytes)) = [] := by
  have hall := remainder_torn (bytes.take (completeLength bytes)) (plain_remainder bytes)
  rw [take_completeLength] at hall
  simpa using hall

end Counting

end RecordFile
end BatchRun
