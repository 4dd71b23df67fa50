import BatchRun.Proofs.Json.Locality
import BatchRun.Proofs.Keyed

/-!
# Values that their texts keep

**Type.**
A value is `Exact` if it has no floating-point number in it and is of the form in which values are
read: whole numbers of 64 bits, and fields ascending by key.

**Results.**
* `depth_lt_of_element`, `depth_lt_of_field`: parts are less deep than what they are part of.
* `accepts_value`: an exact value is read off every spelling of it, if its depth is allowed.
* `takesAll_append`, `takesAll_optionalField`: fields that are taken in one group after the other,
  and a field that may be left out.
* `accepts_optional_null`: nothing is read off `null`, also where `null` is a value.
-/

namespace BatchRun
namespace Json

open Number
open Text

/-- A value that its text keeps. -/
inductive Exact : Json → Prop
  | null : Exact null
  | bool (value : Bool) : Exact (bool value)
  | whole
      {value : Int}
      (fits : fitsWhole value = true) :
      Exact (number (.whole value))
  | string (text : String) : Exact (string text)
  | array
      {elements : List Json}
      (each : ∀ element ∈ elements, Exact element) :
      Exact (array elements)
  | object
      {fields : List (String × Json)}
      (ascending : Keyed.Ascending (fields.map Prod.fst))
      (each : ∀ field ∈ fields, Exact field.2) :
      Exact (object fields)

theorem Exact.not_real
    {doc : Json}
    (h : Exact doc)
    (x : Binary64) :
    doc ≠ number (.real x) := by
  rintro rfl
  cases h

section Depth

variable {elements : List Json} {fields : List (String × Json)}

theorem depth_lt_of_element
    {element : Json}
    (h : element ∈ elements) :
    element.depth < (array elements).depth := by
  rw [depth]
  refine Nat.lt_succ_of_le ?_
  induction elements with
  | nil => cases h
  | cons first elements ih =>
      rw [depthOfElements]
      rcases List.mem_cons.mp h with rfl | hrest
      · exact Nat.le_max_left _ _
      · exact Nat.le_trans (ih hrest) (Nat.le_max_right _ _)

theorem depth_lt_of_field
    {field : String × Json}
    (h : field ∈ fields) :
    field.2.depth < (object fields).depth := by
  rw [depth]
  refine Nat.lt_succ_of_le ?_
  induction fields with
  | nil => cases h
  | cons first fields ih =>
      rw [depthOfFields]
      rcases List.mem_cons.mp h with rfl | hrest
      · obtain ⟨key, value⟩ := field
        exact Nat.le_max_left _ _
      · exact Nat.le_trans (ih hrest) (Nat.le_max_right _ _)

end Depth

section Values

variable {spacing : Spacing} {level depth : Nat} {rest : Bytes}

/-- Whole numbers of 64 bits are read as they are written. -/
theorem opened_whole
    {n : Int}
    (fits : fitsWhole n = true)
    (bounded : Bounded rest) :
    Opened depth (encoded (spacing.chars level (number (.whole n))) ++ rest) (number (.whole n))
      rest := by
  have htext : encoded (spacing.chars level (number (.whole n))) = _ := encoded_intText n
  have hbounds : -(Nat.pow 2 63 : Int) ≤ n ∧ n < Nat.pow 2 64 := by
    simpa [fitsWhole] using fits
  have hlow : Nat.pow 2 63 = 9223372036854775808 := rfl
  have hhigh : maxWord = Nat.pow 2 64 - 1 := rfl
  split at htext
  case isTrue negative =>
      have hvalue : -(n.natAbs : Int) = n := by omega
      have hread := numeral_negative (n := n.natAbs) (by omega) (by omega) bounded
      rw [hvalue] at hread
      rw [htext]
      exact .negative hread
  case isFalse positive =>
      have hvalue : (n.natAbs : Int) = n := by omega
      have hread := numeral_digits (n := n.natAbs) (by omega) bounded
      obtain ⟨byte, bytes, hdigits, hbyte⟩ := encoded_digits n.natAbs
      rw [hvalue, hdigits, List.cons_append] at hread
      rw [htext, hdigits, List.cons_append]
      exact .positive hbyte hread

theorem opened_string
    (text : String) :
    Opened depth (encoded (spacing.chars level (string text)) ++ rest) (string text) rest := by
  have htext : encoded (spacing.chars level (string text)) = _ := encoded_quoted text
  rw [htext, List.cons_append, List.append_assoc]
  exact .string (stringTail_text text rest)

/-- Fields of an object are put into it in their order. -/
theorem members_fields
    {fields : List (String × Json)}
    (ascending : Keyed.Ascending (fields.map Prod.fst))
    (h : ∀ field ∈ fields, Accepts (value depth) field.2 field.2) :
    ∃ bytes, encoded (spacing.chars level (object fields)) = code '\x7b' :: bytes ∧
      members (put (value depth)) [] (bytes ++ rest) = .ok (fields, code '\x7d' :: rest) := by
  have htakes : TakesAll (put (value depth)) (fields.map fun field => (field.1, id field.2)) []
      (Keyed.sort fields) :=
    takesAll_put h []
  have hsame : (fields.map fun field => (field.1, id field.2)) = fields := List.map_id fields
  rw [hsame, Keyed.sort_eq ascending] at htakes
  obtain ⟨bytes, htext, hread⟩ := members_object spacing level htakes
  exact ⟨bytes, htext, hread rest⟩

/-- A map of values that are read as they are is read as it is. -/
theorem accepts_map_value
    {fields : List (String × Json)}
    (ascending : Keyed.Ascending (fields.map Prod.fst))
    (h : ∀ field ∈ fields, Accepts (value depth) field.2 field.2) :
    Accepts (Reader.map (depth + 1) value) (.object fields) fields := by
  intro spacing level space rest hspace _
  obtain ⟨bytes, htext, hread⟩ := members_fields ascending h
  rw [map_eq]
  unfold Reader.inObject
  rw [htext, List.cons_append, atValue_append _ hspace rfl]
  simp only [if_true]
  rw [enclosed_of_ok hread (closeObject_brace rest)]

/-- An exact value is read off every spelling of it, if its depth is allowed. -/
theorem accepts_value
    {doc : Json}
    (h : Exact doc)
    (allowed : doc.depth ≤ depth) :
    Accepts (value depth) doc doc := by
  induction h generalizing depth with
  | null =>
      intro spacing level space rest hspace _
      rw [value_space hspace]
      exact value_of_opened (.null rfl)
  | bool b =>
      intro spacing level space rest hspace _
      rw [value_space hspace]
      cases b with
      | false => exact value_of_opened (.false rfl)
      | true => exact value_of_opened (.true rfl)
  | whole fits =>
      intro spacing level space rest hspace hrest
      rw [value_space hspace]
      exact value_of_opened (opened_whole fits hrest)
  | string text =>
      intro spacing level space rest hspace _
      rw [value_space hspace]
      exact value_of_opened (opened_string text)
  | @array elements each ih =>
      obtain ⟨inner, rfl⟩ := Nat.exists_eq_succ_of_ne_zero
        (Nat.ne_of_gt (Nat.lt_of_lt_of_le (Nat.succ_pos _) allowed))
      have heach : List.Forall₂ (Accepts (value inner)) elements elements :=
        List.forall₂_same.mpr fun element helement =>
          ih element helement
            (Nat.le_of_lt_succ (Nat.lt_of_lt_of_le (depth_lt_of_element helement) allowed))
      intro spacing level space rest hspace _
      obtain ⟨bytes, htext, hread⟩ := elements_array spacing level heach
        fun element helement => (each element helement).not_real
      rw [value_space hspace, htext, List.cons_append]
      exact value_of_opened (.array rfl hread (closeList_bracket rest))
  | @object fields ascending each ih =>
      obtain ⟨inner, rfl⟩ := Nat.exists_eq_succ_of_ne_zero
        (Nat.ne_of_gt (Nat.lt_of_lt_of_le (Nat.succ_pos _) allowed))
      have heach : ∀ field ∈ fields, Accepts (value inner) field.2 field.2 := fun field hfield =>
        ih field hfield
          (Nat.le_of_lt_succ (Nat.lt_of_lt_of_le (depth_lt_of_field hfield) allowed))
      intro spacing level space rest hspace _
      obtain ⟨bytes, htext, hread⟩ := members_fields ascending heach
      rw [value_space hspace, htext, List.cons_append]
      exact value_of_opened (.object rfl hread (closeObject_brace rest))

end Values

section Literals

variable {α : Type} {reader : Reader α}

theorem accepts_true : Accepts Reader.flag (bool true) true := by
  intro spacing level space rest hspace _
  have htext : encoded (spacing.chars level (bool true)) =
      code 't' :: ['r', 'u', 'e'].map code := rfl
  unfold Reader.flag
  rw [htext, List.cons_append, atValue_append _ hspace rfl]
  rfl

/-- Nothing is read off `null`, whatever is read off other values. -/
theorem accepts_optional_null : Accepts (Reader.optional reader) null none := by
  intro spacing level space rest hspace _
  have htext : encoded (spacing.chars level null) = code 'n' :: ['u', 'l', 'l'].map code := rfl
  unfold Reader.optional
  rw [htext, List.cons_append, skipSpace_append hspace rfl]
  rfl

end Literals

section Fields

variable {σ : Type} {member : String → σ → Reader σ}

/-- A field behind its key is filled, and nothing else is done. -/
theorem takes_of_fill
    {α : Type} {key : String} {old : Option α} {reader : Reader α} {next : α → Reader σ}
    {doc : Json} {value : α} {before after : σ}
    (empty : old = none)
    (h : Accepts reader doc value)
    (hmember : member key before = (Reader.fill key old reader >>= next))
    (hnext : next value = pure after) :
    Takes member (key, doc) before after := by
  intro spacing level rest hrest
  rw [hmember]
  refine (bind_of_ok (fill_none key empty h hrest)).trans ?_
  rw [hnext]
  rfl

theorem takesAll_append
    {fields others : List (String × Json)} {before between after : σ}
    (first : TakesAll member fields before between)
    (last : TakesAll member others between after) :
    TakesAll member (fields ++ others) before after := by
  induction first with
  | none state => exact last
  | further hfield _ ih => exact .further hfield (ih last)

theorem takesAll_singleton
    {field : String × Json} {before after : σ}
    (h : Takes member field before after) :
    TakesAll member [field] before after :=
  .further h (.none after)

/-- A field that may be left out: it is taken in if it is there. -/
theorem takesAll_optionalField
    {α β : Type} {key : String} {value? : Option α} {doc : α → Json} {read : α → β} {before : σ}
    (state : Option β → σ)
    (absent : state none = before)
    (present : ∀ value, value? = some value →
      Takes member (key, doc value) before (state (some (read value)))) :
    TakesAll member (optionalField key (value?.map doc)) before (state (value?.map read)) := by
  cases value? with
  | none =>
      rw [← absent]
      exact .none _
  | some value => exact takesAll_singleton (present value rfl)

end Fields

end Json
end BatchRun
