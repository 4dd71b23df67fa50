import BatchRun.Json.Printer
import BatchRun.Proofs.Json.Numbers
import BatchRun.Proofs.Json.Strings

/-!
# Spellings of documents

**Type.**
A `Spacing` fixes the white space between the parts of a document.  `Spacing.chars` spells a
document with it; the compact and the pretty text are two of the spellings.

**Results.**
* `chars_compact`, `chars_pretty`: the spellings that are written.
* `encoded_framed`: a container without parts is its brackets; otherwise each part follows the
  opening bracket or a comma.
* `head_chars`: a spelling begins with no white space and no closing bracket.
-/

namespace BatchRun
namespace Json

open Number
open Text

/-- A blank or a line break. -/
def isSpacing (c : Char) : Bool := c == ' ' || c == '\n'

/-- White space between the parts of a document. -/
structure Spacing where
  /-- In front of a part, or of the closing bracket, at a level. -/
  line : Nat → List Char
  /-- Behind a colon. -/
  gap : List Char
  line_spacing : ∀ level, ∀ c ∈ line level, isSpacing c = true
  gap_spacing : ∀ c ∈ gap, isSpacing c = true

namespace Spacing

/-- No white space at all. -/
def compact : Spacing where
  line _ := []
  gap := []
  line_spacing _ _ h := nomatch h
  gap_spacing _ h := nomatch h

/-- One part a line. -/
def pretty : Spacing where
  line := lineBreak
  gap := [' ']
  line_spacing level c h := by
    rcases List.mem_cons.mp h with rfl | h
    · rfl
    · rw [(List.mem_replicate.mp h).2]
      rfl
  gap_spacing c h := by
    rw [List.mem_singleton.mp h]
    rfl

variable (spacing : Spacing)

/-- A container at a level. -/
def framed (opening closing : Char) (level : Nat) (parts : List (List Char)) : List Char :=
  if parts.isEmpty then [opening, closing]
  else
    opening :: (spacing.line (level + 1)
      ++ separated (',' :: spacing.line (level + 1)) parts
      ++ spacing.line level ++ [closing])

mutual

/-- Spelling of a document at a level. -/
def chars (level : Nat) : Json → List Char
  | array elements => spacing.framed '[' ']' level (elementChars (level + 1) elements)
  | object fields => spacing.framed '{' '}' level (fieldsChars (level + 1) fields)
  | null => compactChars null
  | bool value => compactChars (bool value)
  | number value => compactChars (number value)
  | string text => compactChars (string text)

/-- Spellings of elements. -/
def elementChars (level : Nat) : List Json → List (List Char)
  | [] => []
  | element :: elements => chars level element :: elementChars level elements

/-- Spellings of fields. -/
def fieldsChars (level : Nat) : List (String × Json) → List (List Char)
  | [] => []
  | field :: fields => fieldChars level field :: fieldsChars level fields

/-- Spelling of a field. -/
def fieldChars (level : Nat) : String × Json → List Char
  | (key, value) => quoted key ++ ':' :: (spacing.gap ++ chars level value)

end

end Spacing

section Written

theorem framed_compact
    (opening closing : Char)
    (level : Nat)
    (parts : List (List Char)) :
    Spacing.compact.framed opening closing level parts =
      opening :: (separated [','] parts ++ [closing]) := by
  cases parts with
  | nil => rfl
  | cons part parts => simp [Spacing.framed, Spacing.compact]

mutual

theorem chars_compact
    (level : Nat) :
    (doc : Json) →
    Spacing.compact.chars level doc = doc.compactChars
  | null | bool _ | number _ | string _ => rfl
  | array elements => by
      rw [Spacing.chars, framed_compact, elementChars_compact]
      rfl
  | object fields => by
      rw [Spacing.chars, framed_compact, fieldsChars_compact]
      rfl

theorem elementChars_compact
    (level : Nat) :
    (elements : List Json) →
    Spacing.compact.elementChars level elements = compactElements elements
  | [] => rfl
  | element :: elements => by
      rw [Spacing.elementChars, chars_compact, elementChars_compact, compactElements]

theorem fieldsChars_compact
    (level : Nat) :
    (fields : List (String × Json)) →
    Spacing.compact.fieldsChars level fields = compactFields fields
  | [] => rfl
  | field :: fields => by
      rw [Spacing.fieldsChars, fieldChars_compact, fieldsChars_compact, compactFields]

theorem fieldChars_compact
    (level : Nat) :
    (field : String × Json) →
    Spacing.compact.fieldChars level field = compactField field
  | (key, value) => by
      rw [Spacing.fieldChars, chars_compact, compactField]
      rfl

end

mutual

theorem chars_pretty
    (level : Nat) :
    (doc : Json) →
    Spacing.pretty.chars level doc = doc.prettyChars level
  | null | bool _ | number _ | string _ => rfl
  | array elements => by
      rw [Spacing.chars, elementChars_pretty, prettyChars]
      rfl
  | object fields => by
      rw [Spacing.chars, fieldsChars_pretty, prettyChars]
      rfl

theorem elementChars_pretty
    (level : Nat) :
    (elements : List Json) →
    Spacing.pretty.elementChars level elements = prettyElements level elements
  | [] => rfl
  | element :: elements => by
      rw [Spacing.elementChars, chars_pretty, elementChars_pretty, prettyElements]

theorem fieldsChars_pretty
    (level : Nat) :
    (fields : List (String × Json)) →
    Spacing.pretty.fieldsChars level fields = prettyFields level fields
  | [] => rfl
  | field :: fields => by
      rw [Spacing.fieldsChars, fieldChars_pretty, fieldsChars_pretty, prettyFields]

theorem fieldChars_pretty
    (level : Nat) :
    (field : String × Json) →
    Spacing.pretty.fieldChars level field = prettyField level field
  | (key, value) => by
      rw [Spacing.fieldChars, chars_pretty, prettyField]
      rfl

end

end Written

section Parts

variable (spacing : Spacing)

theorem elementChars_eq_map
    (level : Nat)
    (elements : List Json) :
    spacing.elementChars level elements = elements.map (spacing.chars level) := by
  induction elements with
  | nil => rfl
  | cons element elements ih => rw [Spacing.elementChars, ih, List.map_cons]

theorem fieldsChars_eq_map
    (level : Nat)
    (fields : List (String × Json)) :
    spacing.fieldsChars level fields = fields.map (spacing.fieldChars level) := by
  induction fields with
  | nil => rfl
  | cons field fields ih => rw [Spacing.fieldsChars, ih, List.map_cons]

theorem separated_cons
    (separator part : List Char)
    (parts : List (List Char)) :
    separated separator (part :: parts) = part ++ parts.flatMap (separator ++ ·) := by
  induction parts generalizing part with
  | nil => simp [separated]
  | cons next parts ih => simp only [separated, ih, List.flatMap_cons, List.append_assoc]

theorem encoded_separated
    {separator : Char}
    (ascii : separator.toNat < 128)
    (part : List Char)
    (parts : List (List Char)) :
    encoded (separated [separator] (part :: parts)) =
      encoded part ++ (parts.map encoded).flatMap (code separator :: ·) := by
  rw [separated_cons, encoded_append]
  congr 1
  induction parts with
  | nil => rfl
  | cons next parts ih =>
      rw [List.flatMap_cons, encoded_append, ih, List.singleton_append, encoded_ascii _ ascii]
      rfl

/-- Bytes of the parts behind the first one. -/
def furtherBytes (level : Nat) (parts : List (List Char)) : Bytes :=
  parts.flatMap fun part => code ',' :: (encoded (spacing.line level) ++ encoded part)

/-- Each part of a container follows the opening bracket or a comma. -/
theorem encoded_framed
    {opening closing : Char}
    (hopening : opening.toNat < 128)
    (hclosing : closing.toNat < 128)
    (level : Nat)
    (part : List Char)
    (parts : List (List Char)) :
    encoded (spacing.framed opening closing level (part :: parts)) =
      code opening :: (encoded (spacing.line (level + 1)) ++ encoded part
        ++ furtherBytes spacing (level + 1) parts
        ++ encoded (spacing.line level) ++ [code closing]) := by
  have hfurther : encoded (parts.flatMap ((',' :: spacing.line (level + 1)) ++ ·)) =
      furtherBytes spacing (level + 1) parts := by
    induction parts with
    | nil => rfl
    | cons next parts ih =>
        rw [List.flatMap_cons, encoded_append, ih, List.cons_append, encoded_ascii _ (by decide),
          encoded_append]
        rfl
  rw [Spacing.framed, if_neg (by simp), encoded_ascii _ hopening, separated_cons]
  simp only [encoded_append, hfurther, List.append_assoc, encoded_ascii [] hclosing, encoded_nil]
  rfl

end Parts

/-- A container begins with its opening bracket. -/
theorem head_framed
    (spacing : Spacing)
    (opening closing : Char)
    (level : Nat)
    (parts : List (List Char))
    (h : opening.toNat < 128) :
    ∃ bytes, encoded (spacing.framed opening closing level parts) = code opening :: bytes := by
  unfold Spacing.framed
  split
  case isTrue => exact ⟨_, encoded_ascii _ h⟩
  case isFalse => exact ⟨_, encoded_ascii _ h⟩

/-- What the first byte of a spelling is not. -/
structure Start (doc : Json) (byte : UInt8) : Prop where
  not_space : isSpace byte = false
  not_closing : byte ≠ code ']'
  not_null : doc ≠ null → byte ≠ code 'n'

theorem start_of_isDigit
    {doc : Json} {byte : UInt8}
    (h : isDigit byte = true) :
    Start doc byte := by
  have hne : ∀ other, isDigit other = false → byte ≠ other := by
    intro other hother heq
    rw [heq, hother] at h
    cases h
  refine ⟨?_, hne _ rfl, fun _ => hne _ rfl⟩
  simp [isSpace, hne 32 rfl, hne 10 rfl, hne 9 rfl, hne 13 rfl]

theorem encoded_intText
    (value : Int) :
    encoded (intText value).toList =
      if value < 0 then code '-' :: encoded (digits value.natAbs)
      else encoded (digits value.natAbs) := by
  unfold intText
  split
  case isTrue h =>
      rw [String.toList_append]
      rfl
  case isFalse h => rfl

theorem encoded_digits
    (n : Nat) :
    ∃ byte bytes, encoded (digits n) = byte :: bytes ∧ isDigit byte = true := by
  cases h : digits n with
  | nil => exact absurd h (digits_ne_nil n)
  | cons c cs =>
      have hc : c.isDigit = true := isDigit_of_mem_digits (h ▸ List.mem_cons_self)
      exact ⟨code c, encoded cs, encoded_digit hc cs, isDigit_code hc⟩

/-- The first byte of a spelling. -/
theorem head_chars
    (spacing : Spacing)
    (level : Nat)
    {doc : Json}
    (whole : ∀ x, doc ≠ number (.real x)) :
    ∃ byte bytes, encoded (spacing.chars level doc) = byte :: bytes ∧ Start doc byte := by
  cases doc with
  | null => exact ⟨code 'n', _, rfl, rfl, by decide, fun h => absurd rfl h⟩
  | bool value =>
      cases value with
      | false => exact ⟨code 'f', _, rfl, rfl, by decide, fun _ => by decide⟩
      | true => exact ⟨code 't', _, rfl, rfl, by decide, fun _ => by decide⟩
  | number value =>
      cases value with
      | real x => exact absurd rfl (whole x)
      | whole value =>
          obtain ⟨byte, bytes, hdigits, hbyte⟩ := encoded_digits value.natAbs
          have htext : encoded (spacing.chars level (number (.whole value))) = _ :=
            encoded_intText value
          split at htext
          case isTrue => exact ⟨code '-', _, htext, rfl, by decide, fun _ => by decide⟩
          case isFalse => exact ⟨byte, bytes, htext.trans hdigits, start_of_isDigit hbyte⟩
  | string text =>
      exact ⟨34, _, encoded_quoted text, rfl, by decide, fun _ => by decide⟩
  | array elements =>
      obtain ⟨bytes, h⟩ :=
        head_framed spacing '[' ']' level (spacing.elementChars (level + 1) elements) (by decide)
      exact ⟨code '[', bytes, h, rfl, by decide, fun _ => by decide⟩
  | object fields =>
      obtain ⟨bytes, h⟩ :=
        head_framed spacing '{' '}' level (spacing.fieldsChars (level + 1) fields) (by decide)
      exact ⟨code '{', bytes, h, rfl, by decide, fun _ => by decide⟩

end Json
end BatchRun
