import BatchRun.Proofs.Json.Spelling

/-!
# Texts on one line

**Results.**
* `oneLine_chars`: the text of a document without white space has no line feed.
* `lineFeed_not_mem_compact`: nor do its bytes.
-/

namespace BatchRun

open Number
open Text

namespace Json

theorem oneLine_hexDigits :
    ∀ n < 32, hexDigit (n / 16) ≠ '\n' ∧ hexDigit (n % 16) ≠ '\n' := by
  decide

/-- A line feed is escaped. -/
theorem oneLine_escapeChar
    (c : Char) :
    '\n' ∉ escapeChar c := by
  unfold escapeChar
  split_ifs with hquote hslash hback hfeed hline hreturn htab hcontrol
  -- the seven letters for single characters
  any_goals decide
  case pos =>
      obtain ⟨hhigh, hlow⟩ := oneLine_hexDigits c.toNat hcontrol
      simp [Ne.symm hhigh, Ne.symm hlow]
  case neg => simpa using Ne.symm hline

theorem oneLine_quoted
    (text : String) :
    '\n' ∉ quoted text := by
  simp [quoted, oneLine_escapeChar]

theorem oneLine_separated
    {separator : List Char} {parts : List (List Char)}
    (hseparator : '\n' ∉ separator)
    (h : ∀ part ∈ parts, '\n' ∉ part) :
    '\n' ∉ separated separator parts := by
  cases parts with
  | nil => simp [separated]
  | cons part parts =>
      rw [separated_cons]
      simp only [List.mem_append, List.mem_flatMap, not_or, not_exists, not_and]
      refine ⟨h part List.mem_cons_self, fun other hother => ⟨hseparator, ?_⟩⟩
      exact h other (List.mem_cons_of_mem part hother)

theorem oneLine_numeralText
    (value : Numeral) :
    '\n' ∉ (numeralText value).toList := by
  intro h
  have hfeed := numberChars_numeralText value '\n' h
  cases hfeed

mutual

/-- The text of a document without white space has no line feed. -/
theorem oneLine_chars :
    (doc : Json) →
    '\n' ∉ doc.compactChars
  | null | bool true | bool false => by decide
  | number value => oneLine_numeralText value
  | string text => oneLine_quoted text
  | array elements => by
      have hcomma : '\n' ∉ [','] := by decide
      have hparts := oneLine_separated hcomma (oneLine_elements elements)
      simp [compactChars, hparts]
  | object fields => by
      have hcomma : '\n' ∉ [','] := by decide
      have hparts := oneLine_separated hcomma (oneLine_fields fields)
      simp [compactChars, hparts]

theorem oneLine_elements :
    (elements : List Json) →
    ∀ part ∈ compactElements elements, '\n' ∉ part
  | [] => nofun
  | element :: elements => by
      rw [compactElements, List.forall_mem_cons]
      exact ⟨oneLine_chars element, oneLine_elements elements⟩

theorem oneLine_fields :
    (fields : List (String × Json)) →
    ∀ part ∈ compactFields fields, '\n' ∉ part
  | [] => nofun
  | field :: fields => by
      rw [compactFields, List.forall_mem_cons]
      exact ⟨oneLine_field field, oneLine_fields fields⟩

theorem oneLine_field :
    (field : String × Json) →
    '\n' ∉ compactField field
  | (key, value) => by
      simp [compactField, oneLine_quoted, oneLine_chars value]

end

/-- The bytes of a character other than the line feed are others. -/
theorem lineFeed_not_mem_encoded
    {cs : List Char}
    (h : '\n' ∉ cs) :
    10 ∉ encoded cs := by
  induction cs with
  | nil => simp
  | cons c cs ih =>
      rw [List.mem_cons, not_or] at h
      rw [encoded_cons, List.mem_append, not_or]
      refine ⟨fun hbyte => ?_, ih h.2⟩
      by_cases hascii : c.toNat < 128
      · rw [encodeChar_of_lt hascii, List.mem_singleton] at hbyte
        have hcode := congrArg UInt8.toNat hbyte
        have hfeed : c.toNat = '\n'.toNat := by
          simpa [Nat.mod_eq_of_lt (Nat.lt_trans hascii (by decide : 128 < 256))] using hcode.symm
        exact h.1 (Char.toNat_inj.mp hfeed).symm
      · have hhigh := high_of_mem_encodeChar (Nat.not_lt.mp hascii) hbyte
        exact absurd hhigh (by decide)

/-- The bytes of a document without white space are on one line. -/
theorem lineFeed_not_mem_compact
    (doc : Json) :
    10 ∉ bytesOf doc.compact := by
  rw [compact, bytesOf_ofList]
  exact lineFeed_not_mem_encoded (oneLine_chars doc)

end Json
end BatchRun
