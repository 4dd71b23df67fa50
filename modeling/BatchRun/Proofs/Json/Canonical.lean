import BatchRun.Json.Canonical
import BatchRun.Proofs.Json.Spelling
import BatchRun.Proofs.Keyed

/-!
# Canonical texts tell values apart

**Type.**
`Same` are values of the same structure: objects are compared as maps from keys to values and
numbers by their texts.  A text is `Delimited` if it does not go on with a value before it.

**Results.**
* `shape_eq_of_append`: the first character of a canonical text tells the shape of the value.
* `separated_append`: parts between commas are told apart if each one ends by itself.
* `endsByItself`: where a canonical text ends in a longer one is determined by its characters.
* `canonical_eq_iff`: two values have one canonical text exactly if they are the same.
-/

namespace BatchRun
namespace Json

open Number
open Text

/-- Value at a key of an object; of the fields with this key the last one counts. -/
def fieldAt (fields : List (String × Json)) (key : String) : Option Json :=
  Keyed.find? fields.reverse key

/-- Values of the same structure. -/
inductive Same : Json → Json → Prop
  | null : Same null null
  | bool (value : Bool) : Same (bool value) (bool value)
  | number
      {value other : Numeral}
      (text : numeralText value = numeralText other) :
      Same (number value) (number other)
  | string (text : String) : Same (string text) (string text)
  | array
      {elements others : List Json}
      (each : List.Forall₂ Same elements others) :
      Same (array elements) (array others)
  | object
      {fields others : List (String × Json)}
      (each : ∀ key, Option.Rel Same (fieldAt fields key) (fieldAt others key)) :
      Same (object fields) (object others)

/-- Values of one shape. -/
inductive Alike : Json → Json → Prop
  | null : Alike null null
  | bool (value other : Bool) : Alike (bool value) (bool other)
  | number (value other : Numeral) : Alike (number value) (number other)
  | string (text other : String) : Alike (string text) (string other)
  | array (elements others : List Json) : Alike (array elements) (array others)
  | object (fields others : List (String × Json)) : Alike (object fields) (object others)

theorem alike_of_shape
    {doc other : Json}
    (h : doc.shape = other.shape) :
    Alike doc other := by
  cases doc <;> cases other
  case null.null => exact .null
  case bool.bool => exact .bool _ _
  case number.number => exact .number _ _
  case string.string => exact .string _ _
  case array.array => exact .array _ _
  case object.object => exact .object _ _
  all_goals exact absurd h (by simp [shape])

section Heads

/-- Characters that follow a value. -/
def isDelimiter (c : Char) : Bool := c == ',' || c == ']' || c == '}'

/-- Characters that do not go on with the value before them. -/
def Delimited (rest : List Char) : Prop :=
  ∀ c, rest.head? = some c → isDelimiter c = true

theorem delimited_cons
    {c : Char}
    (h : isDelimiter c = true)
    (cs : List Char) :
    Delimited (c :: cs) := by
  intro d hd
  rw [← Option.some.inj hd]
  exact h

/-- Shape of the values that begin with a character. -/
def shapeAt (c : Char) : Option String :=
  if beginsNumber c then some "a number"
  else if c = 'n' then some "null"
  else if c = 't' ∨ c = 'f' then some "a boolean"
  else if c = '"' then some "a string"
  else if c = '[' then some "an array"
  else if c = '{' then some "an object"
  else none

theorem isDelimiter_of_shapeAt
    {c : Char} {shape : String}
    (h : shapeAt c = some shape) :
    isDelimiter c = false := by
  have hne : ∀ d, shapeAt d = none → c ≠ d := by
    rintro _ hd rfl
    rw [h] at hd
    cases hd
  simp [isDelimiter, hne ',' (by decide), hne ']' (by decide), hne '}' (by decide)]

/-- The first character of a canonical text. -/
theorem head_canonicalChars
    (doc : Json) :
    ∃ c cs, doc.canonicalChars = c :: cs ∧ shapeAt c = some doc.shape := by
  cases doc with
  | null => exact ⟨'n', _, rfl, rfl⟩
  | bool value =>
      cases value with
      | false => exact ⟨'f', _, rfl, rfl⟩
      | true => exact ⟨'t', _, rfl, rfl⟩
  | number value =>
      obtain ⟨c, cs, htext, hc⟩ := head_numeralText value
      exact ⟨c, cs, htext, if_pos hc⟩
  | string text => exact ⟨'"', _, rfl, rfl⟩
  | array elements => exact ⟨'[', _, by rw [canonicalChars], rfl⟩
  | object fields => exact ⟨'{', _, by rw [canonicalChars], rfl⟩

theorem shape_eq_of_append
    {doc other : Json} {x y : List Char}
    (h : doc.canonicalChars ++ x = other.canonicalChars ++ y) :
    doc.shape = other.shape := by
  obtain ⟨c, cs, hdoc, hshape⟩ := head_canonicalChars doc
  obtain ⟨d, ds, hother, hshapeOther⟩ := head_canonicalChars other
  rw [hdoc, hother, List.cons_append, List.cons_append] at h
  rw [(List.cons.inj h).1, hshapeOther] at hshape
  exact (Option.some.inj hshape).symm

end Heads

/-- Where a text ends in a longer one is determined by its characters. -/
def EndsByItself (part other : List Char) : Prop :=
  ∀ x y, Delimited x → Delimited y → part ++ x = other ++ y → part = other

section Scalars

/-- A quoted string ends at its last quotation mark, whatever follows. -/
theorem quoted_append
    {text other : String} {x y : List Char}
    (h : quoted text ++ x = quoted other ++ y) :
    text = other ∧ x = y := by
  have hbytes := congrArg encoded h
  simp only [encoded_append, encoded_quoted, List.cons_append, List.append_assoc,
    List.nil_append] at hbytes
  have hread := congrArg stringTail (List.cons.inj hbytes).2
  rw [stringTail_quoted, stringTail_quoted] at hread
  have htext := (Prod.mk.inj (Except.ok.inj hread)).1
  rw [htext] at h
  exact ⟨htext, List.append_cancel_left h⟩

/-- A number ends at the first character that is none of a number. -/
theorem takeWhile_numeralText
    (value : Numeral)
    {x : List Char}
    (hx : Delimited x) :
    ((numeralText value).toList ++ x).takeWhile isNumberChar = (numeralText value).toList := by
  rw [List.takeWhile_append_of_pos (numberChars_numeralText value)]
  cases x with
  | nil => simp
  | cons c cs =>
      have hc := hx c rfl
      have hstop : isNumberChar c = false := by
        simp only [isDelimiter, Bool.or_eq_true, beq_iff_eq] at hc
        rcases hc with (rfl | rfl) | rfl <;> decide
      simp [hstop]

theorem endsByItself_numeralText
    (value other : Numeral) :
    EndsByItself (numeralText value).toList (numeralText other).toList := by
  intro x y hx hy h
  rw [← takeWhile_numeralText value hx, h, takeWhile_numeralText other hy]

end Scalars

section Parts

variable {parts others : List (List Char)} {closing : Char} {x y : List Char}

theorem delimited_further
    (hclosing : isDelimiter closing = true)
    (parts : List (List Char))
    (x : List Char) :
    Delimited (parts.flatMap ([','] ++ ·) ++ closing :: x) := by
  cases parts with
  | nil => exact delimited_cons hclosing x
  | cons part parts => exact delimited_cons rfl _

/-- Parts that follow a comma each, up to the closing bracket. -/
theorem further_append
    (hclosing : isDelimiter closing = true)
    (hcomma : closing ≠ ',')
    (each : ∀ part ∈ parts, ∀ other ∈ others, EndsByItself part other)
    (h : parts.flatMap ([','] ++ ·) ++ closing :: x =
      others.flatMap ([','] ++ ·) ++ closing :: y) :
    parts = others := by
  induction parts generalizing others with
  | nil =>
      cases others with
      | nil => rfl
      | cons other others => exact absurd (List.cons.inj h).1 hcomma
  | cons part parts ih =>
      cases others with
      | nil => exact absurd (List.cons.inj h).1.symm hcomma
      | cons other others =>
          simp only [List.flatMap_cons, List.append_assoc, List.cons_append, List.nil_append,
            List.cons.injEq, true_and] at h
          have hpart := each part List.mem_cons_self other List.mem_cons_self _ _
            (delimited_further hclosing parts x) (delimited_further hclosing others y) h
          rw [hpart] at h ⊢
          have heach : ∀ part ∈ parts, ∀ other ∈ others, EndsByItself part other :=
            fun part hp other ho =>
              each part (List.mem_cons_of_mem _ hp) other (List.mem_cons_of_mem _ ho)
          rw [ih heach (List.append_cancel_left h)]

/-- A part that does not begin with a delimiter. -/
def Undelimited (part : List Char) : Prop :=
  ∃ c cs, part = c :: cs ∧ isDelimiter c = false

/-- Parts between commas, up to the closing bracket. -/
theorem separated_append
    (hclosing : isDelimiter closing = true)
    (hcomma : closing ≠ ',')
    (each : ∀ part ∈ parts, ∀ other ∈ others, EndsByItself part other)
    (hparts : ∀ part ∈ parts, Undelimited part)
    (hothers : ∀ other ∈ others, Undelimited other)
    (h : separated [','] parts ++ closing :: x = separated [','] others ++ closing :: y) :
    parts = others := by
  have hne : ∀ {part : List Char} {rest : List Char},
      Undelimited part → part ++ rest ≠ closing :: x ∧ part ++ rest ≠ closing :: y := by
    rintro _ rest ⟨c, cs, rfl, hc⟩
    refine ⟨fun heq => ?_, fun heq => ?_⟩ <;>
    · rw [(List.cons.inj heq).1, hclosing] at hc
      cases hc
  cases parts with
  | nil =>
      cases others with
      | nil => rfl
      | cons other others =>
          rw [separated_cons, List.append_assoc] at h
          exact absurd h.symm (hne (hothers other List.mem_cons_self)).1
  | cons part parts =>
      cases others with
      | nil =>
          rw [separated_cons, List.append_assoc] at h
          exact absurd h (hne (hparts part List.mem_cons_self)).2
      | cons other others =>
          rw [separated_cons, separated_cons] at h
          exact further_append hclosing hcomma each (congrArg (',' :: ·) h)

end Parts

section Containers

/-- A written field. -/
def fieldPart (field : String × List Char) : List Char :=
  quoted field.1 ++ ':' :: field.2

/-- Written fields in the order of their keys. -/
def fieldParts (fields : List (String × Json)) : List (List Char) :=
  (Keyed.sort (canonicalFields fields)).map fieldPart

theorem canonicalChars_object
    (fields : List (String × Json)) :
    (object fields).canonicalChars = '{' :: (separated [','] (fieldParts fields) ++ ['}']) := by
  rw [canonicalChars]
  rfl

theorem canonicalElements_eq_map
    (elements : List Json) :
    canonicalElements elements = elements.map canonicalChars := by
  induction elements with
  | nil => rfl
  | cons element elements ih => rw [canonicalElements, ih, List.map_cons]

theorem canonicalFields_eq_map
    (fields : List (String × Json)) :
    canonicalFields fields = fields.map fun field => (field.1, field.2.canonicalChars) := by
  induction fields with
  | nil => rfl
  | cons field fields ih => rw [canonicalFields, ih, List.map_cons, canonicalField.eq_def]

theorem fieldPart_append
    {field other : String × List Char} {x y : List Char}
    (h : fieldPart field ++ x = fieldPart other ++ y) :
    field.1 = other.1 ∧ field.2 ++ x = other.2 ++ y := by
  simp only [fieldPart, List.append_assoc, List.cons_append] at h
  obtain ⟨hkey, hrest⟩ := quoted_append h
  exact ⟨hkey, (List.cons.inj hrest).2⟩

theorem fieldPart_injective :
    Function.Injective fieldPart := by
  intro field other h
  have happend : fieldPart field ++ [] = fieldPart other ++ [] := congrArg (· ++ []) h
  obtain ⟨hkey, hvalue⟩ := fieldPart_append happend
  rw [List.append_nil, List.append_nil] at hvalue
  exact Prod.ext hkey hvalue

theorem mem_fieldParts
    {fields : List (String × Json)} {part : List Char}
    (h : part ∈ fieldParts fields) :
    ∃ field ∈ fields, part = fieldPart (field.1, field.2.canonicalChars) := by
  obtain ⟨written, hwritten, rfl⟩ := List.mem_map.mp h
  have hmem := Keyed.mem_of_mem_sort hwritten
  rw [canonicalFields_eq_map] at hmem
  obtain ⟨field, hfield, rfl⟩ := List.mem_map.mp hmem
  exact ⟨field, hfield, rfl⟩

theorem undelimited_canonicalElements
    (elements : List Json) :
    ∀ part ∈ canonicalElements elements, Undelimited part := by
  intro part h
  rw [canonicalElements_eq_map] at h
  obtain ⟨element, -, rfl⟩ := List.mem_map.mp h
  obtain ⟨c, cs, hchars, hshape⟩ := head_canonicalChars element
  exact ⟨c, cs, hchars, isDelimiter_of_shapeAt hshape⟩

theorem undelimited_fieldParts
    (fields : List (String × Json)) :
    ∀ part ∈ fieldParts fields, Undelimited part := by
  intro part h
  obtain ⟨field, -, rfl⟩ := mem_fieldParts h
  exact ⟨'"', _, rfl, rfl⟩

/-- The parts of objects are equal exactly if the values at all keys have equal texts. -/
theorem fieldParts_eq_iff
    {fields others : List (String × Json)} :
    fieldParts fields = fieldParts others ↔
      ∀ key, (fieldAt fields key).map canonicalChars = (fieldAt others key).map canonicalChars := by
  have hread : ∀ (fields : List (String × Json)) (key : String),
      Keyed.find? (canonicalFields fields).reverse key =
        (fieldAt fields key).map canonicalChars := by
    intro fields key
    rw [canonicalFields_eq_map, ← List.map_reverse]
    exact Keyed.find?_map canonicalChars fields.reverse key
  rw [fieldParts, fieldParts, fieldPart_injective.list_map.eq_iff, Keyed.sort_eq_sort_iff]
  simp only [hread]

theorem array_append
    {elements others : List Json} {x y : List Char}
    (each : ∀ element ∈ elements, ∀ other : Json,
      EndsByItself element.canonicalChars other.canonicalChars)
    (h : (array elements).canonicalChars ++ x = (array others).canonicalChars ++ y) :
    canonicalElements elements = canonicalElements others := by
  rw [canonicalChars, canonicalChars] at h
  simp only [List.cons_append, List.append_assoc, List.cons.injEq, true_and,
    List.nil_append] at h
  have hends : ∀ part ∈ canonicalElements elements, ∀ other ∈ canonicalElements others,
      EndsByItself part other := by
    intro part hpart other hother
    rw [canonicalElements_eq_map] at hpart hother
    obtain ⟨element, helement, rfl⟩ := List.mem_map.mp hpart
    obtain ⟨second, -, rfl⟩ := List.mem_map.mp hother
    exact each element helement second
  exact separated_append rfl (by decide) hends (undelimited_canonicalElements elements)
    (undelimited_canonicalElements others) h

theorem object_append
    {fields others : List (String × Json)} {x y : List Char}
    (each : ∀ field ∈ fields, ∀ other : Json,
      EndsByItself field.2.canonicalChars other.canonicalChars)
    (h : (object fields).canonicalChars ++ x = (object others).canonicalChars ++ y) :
    fieldParts fields = fieldParts others := by
  rw [canonicalChars_object, canonicalChars_object] at h
  simp only [List.cons_append, List.append_assoc, List.cons.injEq, true_and,
    List.nil_append] at h
  have hends : ∀ part ∈ fieldParts fields, ∀ other ∈ fieldParts others,
      EndsByItself part other := by
    intro part hpart other hother x y hx hy heq
    obtain ⟨field, hfield, rfl⟩ := mem_fieldParts hpart
    obtain ⟨second, -, rfl⟩ := mem_fieldParts hother
    obtain ⟨hkey, hvalue⟩ := fieldPart_append heq
    have hchars := each field hfield second.2 x y hx hy hvalue
    exact congrArg fieldPart (Prod.ext hkey hchars)
  exact separated_append rfl (by decide) hends (undelimited_fieldParts fields)
    (undelimited_fieldParts others) h

end Containers

mutual

/-- The texts of all values end by themselves. -/
theorem endsByItself :
    (doc : Json) →
    ∀ other : Json, EndsByItself doc.canonicalChars other.canonicalChars
  | doc, other, x, y, hx, hy, h => by
      cases alike_of_shape (shape_eq_of_append h) with
      | null => rfl
      | bool value other => cases value <;> cases other <;> first | rfl | cases h
      | number value other => exact endsByItself_numeralText value other x y hx hy h
      | string text other =>
          have htext := (quoted_append h).1
          rw [htext]
      | array elements others =>
          have hparts := array_append (endsByItself_elements elements) h
          rw [canonicalChars, canonicalChars, hparts]
      | object fields others =>
          have hparts := object_append (endsByItself_fields fields) h
          rw [canonicalChars_object, canonicalChars_object, hparts]

theorem endsByItself_elements :
    (elements : List Json) →
    ∀ element ∈ elements, ∀ other : Json,
      EndsByItself element.canonicalChars other.canonicalChars
  | [] => nofun
  | element :: elements => by
      rw [List.forall_mem_cons]
      exact ⟨endsByItself element, endsByItself_elements elements⟩

theorem endsByItself_fields :
    (fields : List (String × Json)) →
    ∀ field ∈ fields, ∀ other : Json,
      EndsByItself field.2.canonicalChars other.canonicalChars
  | [] => nofun
  | field :: fields => by
      rw [List.forall_mem_cons]
      exact ⟨endsByItself_field field, endsByItself_fields fields⟩

theorem endsByItself_field :
    (field : String × Json) →
    ∀ other : Json, EndsByItself field.2.canonicalChars other.canonicalChars
  | (_, value) => endsByItself value

end

section Equal

theorem canonicalChars_array_inj
    {elements others : List Json} :
    (array elements).canonicalChars = (array others).canonicalChars ↔
      canonicalElements elements = canonicalElements others := by
  constructor
  case mp =>
      intro h
      have happend := congrArg (· ++ []) h
      exact array_append (fun element _ => endsByItself element) happend
  case mpr =>
      intro h
      rw [canonicalChars, canonicalChars, h]

theorem canonicalChars_object_inj
    {fields others : List (String × Json)} :
    (object fields).canonicalChars = (object others).canonicalChars ↔
      fieldParts fields = fieldParts others := by
  constructor
  case mp =>
      intro h
      have happend := congrArg (· ++ []) h
      exact object_append (fun field _ => endsByItself field.2) happend
  case mpr =>
      intro h
      rw [canonicalChars_object, canonicalChars_object, h]

/-- Values at a key that are compared by what they are of. -/
theorem rel_iff_map_eq
    {value other : Option Json}
    (each : ∀ doc ∈ value, ∀ second : Json,
      doc.canonicalChars = second.canonicalChars ↔ Same doc second) :
    value.map canonicalChars = other.map canonicalChars ↔ Option.Rel Same value other := by
  cases value with
  | none =>
      cases other with
      | none => exact ⟨fun _ => .none, fun _ => rfl⟩
      | some second => exact ⟨nofun, nofun⟩
  | some doc =>
      cases other with
      | none => exact ⟨nofun, nofun⟩
      | some second =>
          rw [Option.map_some, Option.map_some, Option.some_inj, each doc rfl]
          exact ⟨.some, fun (.some h) => h⟩

mutual

theorem canonicalChars_eq_iff :
    (doc : Json) →
    ∀ other : Json, doc.canonicalChars = other.canonicalChars ↔ Same doc other
  | doc, other => by
      constructor
      case mp =>
          intro h
          cases alike_of_shape (shape_eq_of_append (congrArg (· ++ []) h)) with
          | null => exact .null
          | bool value other =>
              cases value <;> cases other <;> first | exact .bool _ | cases h
          | number value other => exact .number (String.toList_inj.mp h)
          | string text other =>
              rw [(quoted_append (congrArg (· ++ []) h)).1]
              exact .string other
          | array elements others =>
              exact .array ((elements_eq_iff elements others).mp (canonicalChars_array_inj.mp h))
          | object fields others =>
              refine .object fun key => (rel_iff_map_eq ?_).mp ?_
              · exact fun doc hdoc =>
                  fields_eq_iff fields (key, doc) (List.mem_reverse.mp (Keyed.mem_of_find? hdoc))
              · exact fieldParts_eq_iff.mp (canonicalChars_object_inj.mp h) key
      case mpr =>
          intro h
          cases h with
          | null => rfl
          | bool value => rfl
          | number text => exact congrArg String.toList text
          | string text => rfl
          | @array elements others each =>
              exact canonicalChars_array_inj.mpr ((elements_eq_iff elements others).mpr each)
          | @object fields others each =>
              refine canonicalChars_object_inj.mpr (fieldParts_eq_iff.mpr fun key => ?_)
              refine (rel_iff_map_eq ?_).mpr (each key)
              exact fun doc hdoc =>
                fields_eq_iff fields (key, doc) (List.mem_reverse.mp (Keyed.mem_of_find? hdoc))

theorem elements_eq_iff :
    (elements : List Json) →
    ∀ others : List Json,
      canonicalElements elements = canonicalElements others ↔ List.Forall₂ Same elements others
  | [], [] => by simp
  | [], _ :: _ => by simp [canonicalElements]
  | _ :: _, [] => by simp [canonicalElements]
  | element :: elements, other :: others => by
      rw [canonicalElements, canonicalElements, List.cons.injEq, List.forall₂_cons,
        canonicalChars_eq_iff element other, elements_eq_iff elements others]

theorem fields_eq_iff :
    (fields : List (String × Json)) →
    ∀ field ∈ fields, ∀ other : Json,
      field.2.canonicalChars = other.canonicalChars ↔ Same field.2 other
  | [] => nofun
  | field :: fields => by
      rw [List.forall_mem_cons]
      exact ⟨field_eq_iff field, fields_eq_iff fields⟩

theorem field_eq_iff :
    (field : String × Json) →
    ∀ other : Json, field.2.canonicalChars = other.canonicalChars ↔ Same field.2 other
  | (_, value) => canonicalChars_eq_iff value

end

end Equal

/-- Two values have one canonical text exactly if they are of the same structure. -/
theorem canonical_eq_iff
    (doc other : Json) :
    doc.canonical = other.canonical ↔ Same doc other := by
  rw [canonical, canonical, String.ofList_inj]
  exact canonicalChars_eq_iff doc other

/-- The order of fields does not show; a quotation mark and a comma in a key do not end it. -/
example : (object [("b", null), ("a\",", array [bool true])]).canonical =
    "\x7b\"a\\\",\":[true],\"b\":null\x7d" := by
  decide +kernel

end Json
end BatchRun
