import BatchRun.Item.Document
import BatchRun.Json.Reader
import BatchRun.Proofs.Json.Answer
import BatchRun.Proofs.Json.Spelling
import Mathlib.Data.List.Forall2
import Mathlib.Data.List.TakeWhile

/-!
# Documents that readers accept

**Type.**
A reader accepts a document with a value if it reads that value off every spelling of the
document, behind any white space, and stops at its end.

**Results.**
* `accepts_textWith`, `accepts_word`, `accepts_optional`, `accepts_unitCase`: single values.
* `accepts_list`, `accepts_map`: containers whose parts are accepted.
* `accepts_record`: a record whose fields are taken in one after the other.
* `whole_of_accepts`: a text that spells an accepted document is read as its value.
-/

namespace BatchRun
namespace Json

open Number
open Text

/-- Bytes that are all white space. -/
def AllSpace (space : Bytes) : Prop := ∀ byte ∈ space, isSpace byte = true

/-- A reader reads a value off every spelling of a document. -/
def Accepts {α : Type} (reader : Reader α) (doc : Json) (value : α) : Prop :=
  ∀ (spacing : Spacing) (level : Nat) (space rest : Bytes), AllSpace space → Bounded rest →
    reader (space ++ (encoded (spacing.chars level doc) ++ rest)) = .ok (value, rest)

section Space

variable {space rest : Bytes} {byte : UInt8}

theorem allSpace_nil : AllSpace [] := fun _ h => nomatch h

theorem skipSpace_append
    (h : AllSpace space)
    (not_space : isSpace byte = false) :
    skipSpace (space ++ byte :: rest) = byte :: rest := by
  induction space with
  | nil => simp [skipSpace, not_space]
  | cons first space ih =>
      have hfirst := h first List.mem_cons_self
      have hrest : AllSpace space := fun other hother => h other (List.mem_cons_of_mem first hother)
      simpa [skipSpace, hfirst] using ih hrest

theorem skipSpace_cons
    (not_space : isSpace byte = false) :
    skipSpace (byte :: rest) = byte :: rest :=
  skipSpace_append allSpace_nil not_space

theorem allSpace_encoded
    {cs : List Char}
    (h : ∀ c ∈ cs, isSpacing c = true) :
    AllSpace (encoded cs) := by
  intro byte hbyte
  obtain ⟨c, hc, hmem⟩ := List.mem_flatMap.mp hbyte
  have hspacing := h c hc
  simp only [isSpacing, Bool.or_eq_true, beq_iff_eq] at hspacing
  rcases hspacing with rfl | rfl
  · rw [List.mem_singleton.mp hmem]
    rfl
  · rw [List.mem_singleton.mp hmem]
    rfl

theorem allSpace_line
    (spacing : Spacing)
    (level : Nat) :
    AllSpace (encoded (spacing.line level)) :=
  allSpace_encoded (spacing.line_spacing level)

theorem allSpace_gap
    (spacing : Spacing) :
    AllSpace (encoded spacing.gap) :=
  allSpace_encoded spacing.gap_spacing

theorem bounded_nil : Bounded [] := fun _ h => nomatch h

theorem bounded_cons
    (digit : isDigit byte = false)
    (point : byte ≠ code '.')
    (lower : byte ≠ code 'e')
    (upper : byte ≠ code 'E') :
    Bounded (byte :: rest) := by
  intro other hother
  obtain rfl : byte = other := by simpa using hother
  exact ⟨digit, point, lower, upper⟩

/-- White space in front of a bound is a bound. -/
theorem bounded_append
    (h : AllSpace space)
    (bounded : Bounded rest) :
    Bounded (space ++ rest) := by
  cases space with
  | nil => exact bounded
  | cons first space =>
      have hfirst := h first List.mem_cons_self
      simp only [isSpace, Bool.or_eq_true, beq_iff_eq] at hfirst
      rcases hfirst with ((rfl | rfl) | rfl) | rfl
      all_goals exact bounded_cons rfl (by decide) (by decide) (by decide)

theorem bounded_comma : Bounded (code ',' :: rest) :=
  bounded_cons rfl (by decide) (by decide) (by decide)

theorem bounded_bracket : Bounded (code ']' :: rest) :=
  bounded_cons rfl (by decide) (by decide) (by decide)

theorem bounded_brace : Bounded (code '}' :: rest) :=
  bounded_cons rfl (by decide) (by decide) (by decide)

end Space

section Values

variable {α : Type} {value : α} {space rest : Bytes} {byte : UInt8}

theorem atValue_append
    (reader : Reader α)
    (h : AllSpace space)
    (not_space : isSpace byte = false) :
    Reader.atValue reader (space ++ byte :: rest) = reader (byte :: rest) := by
  unfold Reader.atValue
  rw [skipSpace_append h not_space]

theorem stringTail_text
    (text : String)
    (rest : Bytes) :
    stringTail (encoded (text.toList.flatMap escapeChar) ++ ([34] ++ rest)) = .ok (text, rest) :=
  stringTail_quoted text rest

theorem accepts_textWith
    {expected : String} {accept : String → Except Reason α} {text : String}
    (h : accept text = .ok value) :
    Accepts (Reader.textWith expected accept) (.string text) value := by
  intro spacing level space rest hspace _
  have htext : encoded (spacing.chars level (.string text)) = _ := encoded_quoted text
  unfold Reader.textWith
  rw [htext, List.cons_append, atValue_append _ hspace rfl, List.append_assoc]
  simp only [show (34 : UInt8) = code '"' from rfl, if_true]
  rw [show code '"' = 34 from rfl, stringTail_text]
  simp only [h]

theorem accepts_text
    (text : String) :
    Accepts Reader.text (.string text) text :=
  accepts_textWith rfl

/-- A number that begins with a digit. -/
theorem accepts_numberWith
    {expected : String} {accept : Numeral → Except Reason α} {doc : Json} {cs : List Char}
    {n : Numeral}
    (spelled : ∀ (spacing : Spacing) (level : Nat), spacing.chars level doc = cs)
    (head : ∃ byte bytes, encoded cs = byte :: bytes ∧ isDigit byte = true)
    (reads : ∀ rest, Bounded rest → numeral true (encoded cs ++ rest) = .ok (n, rest))
    (h : accept n = .ok value) :
    Accepts (Reader.numberWith expected accept) doc value := by
  intro spacing level space rest hspace hrest
  obtain ⟨byte, bytes, hbytes, hbyte⟩ := head
  have hstart : Start .null byte := start_of_isDigit hbyte
  have hminus : byte ≠ code '-' := by
    intro heq
    rw [heq] at hbyte
    cases hbyte
  have hread := reads rest hrest
  rw [hbytes, List.cons_append] at hread
  unfold Reader.numberWith
  rw [spelled, hbytes, List.cons_append, atValue_append _ hspace hstart.not_space]
  simp only [hminus, if_false, hbyte, if_true, hread, h]

theorem accepts_word
    {bound n : Nat} {name : String}
    (h : n < bound)
    (fits : n ≤ maxWord) :
    Accepts (Reader.word bound name) (.nat n) n := by
  have htext : ∀ (spacing : Spacing) (level : Nat), spacing.chars level (.nat n) = digits n := by
    intro spacing level
    have hint : (intText n).toList = digits n := by
      rw [intText, if_neg (by omega), Int.natAbs_natCast]
      rfl
    exact hint
  refine accepts_numberWith htext (encoded_digits n) (fun _ hrest => numeral_digits fits hrest) ?_
  simp [h]

theorem accepts_optional
    {reader : Reader α} {doc : Json}
    (h : Accepts reader doc value)
    (whole : ∀ x, doc ≠ number (.real x))
    (not_null : doc ≠ .null) :
    Accepts (Reader.optional reader) doc (some value) := by
  intro spacing level space rest hspace hrest
  obtain ⟨byte, bytes, htext, hstart⟩ := head_chars spacing level whole
  have hread := h spacing level [] rest allSpace_nil hrest
  rw [htext, List.nil_append, List.cons_append] at hread
  unfold Reader.optional
  rw [htext, List.cons_append, skipSpace_append hspace hstart.not_space]
  simp only [hstart.not_null not_null, if_false]
  exact congrArg (Except.map fun answer => (some answer.1, answer.2)) hread

theorem accepts_unitCase
    {cases : List (String × α)} {depth : Nat} {name : String}
    (h : Keyed.find? cases name = some value) :
    Accepts (Reader.unitCase depth cases) (.string name) value := by
  intro spacing level space rest hspace hrest
  have hvariant : Accepts (Reader.variant cases) (.string name) value :=
    accepts_textWith (by rw [h])
  have hread := hvariant spacing level [] rest allSpace_nil hrest
  have htext : encoded (spacing.chars level (.string name)) = _ := encoded_quoted name
  rw [htext, List.nil_append, List.cons_append] at hread
  have hbrace : ¬ code '"' = code '\x7b' := by decide
  have hquote : (34 : UInt8) = code '"' := rfl
  unfold Reader.unitCase
  rw [htext, List.cons_append, skipSpace_append hspace rfl]
  simp only [hbrace, hquote, if_false, if_true]
  exact hread

end Values

section Parts

variable {spacing : Spacing} {level : Nat} {space rest : Bytes}

theorem furtherBytes_cons
    (part : List Char)
    (parts : List (List Char))
    (rest : Bytes) :
    furtherBytes spacing level (part :: parts) ++ rest =
      code ',' :: (encoded (spacing.line level)
        ++ (encoded part ++ (furtherBytes spacing level parts ++ rest))) := by
  simp [furtherBytes]

theorem bounded_further
    (parts : List (List Char))
    (bounded : Bounded rest) :
    Bounded (furtherBytes spacing level parts ++ rest) := by
  cases parts with
  | nil => exact bounded
  | cons part parts =>
      rw [furtherBytes_cons]
      exact bounded_comma

theorem length_le_furtherBytes
    (parts : List (List Char)) :
    parts.length ≤ (furtherBytes spacing level parts).length := by
  induction parts with
  | nil => exact Nat.zero_le _
  | cons part parts ih =>
      simp only [furtherBytes, List.flatMap_cons, List.length_append, List.length_cons] at ih ⊢
      omega

end Parts

section Lists

variable {α : Type} {element : Reader α} {spacing : Spacing} {level : Nat}
variable {space rest : Bytes} {byte : UInt8}

theorem nextElement_first
    (h : AllSpace space)
    (not_space : isSpace byte = false)
    (not_closing : byte ≠ code ']') :
    nextElement true (space ++ byte :: rest) = .ok (true, byte :: rest) := by
  unfold nextElement
  rw [skipSpace_append h not_space]
  simp [not_closing]

theorem nextElement_further
    {gap : Bytes}
    (hgap : AllSpace gap)
    (h : AllSpace space)
    (not_space : isSpace byte = false)
    (not_closing : byte ≠ code ']') :
    nextElement false (gap ++ code ',' :: (space ++ byte :: rest)) = .ok (true, byte :: rest) := by
  have hcomma : code ',' ≠ code ']' := by decide
  unfold nextElement
  rw [skipSpace_append hgap rfl]
  simp [hcomma, skipSpace_append h not_space, not_closing]

theorem nextElement_closing
    (first : Bool)
    (h : AllSpace space) :
    nextElement first (space ++ code ']' :: rest) = .ok (false, code ']' :: rest) := by
  unfold nextElement
  rw [skipSpace_append h rfl]
  simp

/-- Bytes of an element, with white space around those that are read. -/
inductive Part (element : Reader α) : Bytes → α → Prop
  | mk
      {space tail last : Bytes}
      {byte : UInt8}
      {value : α}
      (before : AllSpace space)
      (behind : AllSpace last)
      (not_space : isSpace byte = false)
      (not_closing : byte ≠ code ']')
      (reads : ∀ rest, Bounded rest → element (byte :: (tail ++ rest)) = .ok (value, rest)) :
      Part element (space ++ byte :: (tail ++ last)) value

theorem bounded_flatMap
    (parts : List Bytes)
    (bounded : Bounded rest) :
    Bounded (parts.flatMap (code ',' :: ·) ++ rest) := by
  cases parts with
  | nil => exact bounded
  | cons part parts => exact bounded_comma

theorem length_le_flatMap
    (parts : List Bytes) :
    parts.length ≤ (parts.flatMap (code ',' :: ·)).length := by
  induction parts with
  | nil => exact Nat.zero_le _
  | cons part parts ih =>
      simp only [List.flatMap_cons, List.length_append, List.length_cons]
      omega

/-- The elements behind a comma each are read up to the closing bracket. -/
theorem elementsLoop_parts
    {parts : List Bytes} {values read : List α} {fuel : Nat} {gap : Bytes}
    (h : List.Forall₂ (Part element) parts values)
    (enough : parts.length < fuel)
    (hgap : AllSpace gap)
    (hspace : AllSpace space) :
    elementsLoop element fuel false read
        (gap ++ (parts.flatMap (code ',' :: ·) ++ (space ++ code ']' :: rest))) =
      .ok (read.reverse ++ values, code ']' :: rest) := by
  induction h generalizing fuel read gap with
  | nil =>
      obtain ⟨fuel, rfl⟩ := Nat.exists_eq_succ_of_ne_zero (Nat.ne_of_gt enough)
      have hboth : AllSpace (gap ++ space) := List.forall_mem_append.mpr ⟨hgap, hspace⟩
      rw [elementsLoop, List.flatMap_nil, List.nil_append, ← List.append_assoc, List.append_nil]
      exact bind_of_ok (nextElement_closing false hboth)
  | @cons part value parts values hpart _ ih =>
      obtain ⟨fuel, rfl⟩ := Nat.exists_eq_succ_of_ne_zero (Nat.ne_of_gt (Nat.zero_lt_of_lt enough))
      cases hpart with
      | @mk before tail last byte value hbefore hbehind hbyte hclosing hreads =>
          have hclose : Bounded (space ++ code ']' :: rest) := bounded_append hspace bounded_bracket
          have hbound := bounded_append hbehind (bounded_flatMap parts hclose)
          simp only [List.flatMap_cons, List.append_assoc, List.cons_append]
          rw [elementsLoop]
          refine (bind_of_ok (nextElement_further hgap hbefore hbyte hclosing)).trans ?_
          refine (bind_of_ok (hreads _ hbound)).trans ?_
          rw [ih (Nat.lt_of_succ_lt_succ enough) hbehind]
          simp

/-- The inside of a list with at least one element. -/
theorem elements_parts
    {part : Bytes} {parts : List Bytes} {values : List α}
    (h : List.Forall₂ (Part element) (part :: parts) values)
    (hspace : AllSpace space)
    (rest : Bytes) :
    elements element
        (part ++ (parts.flatMap (code ',' :: ·) ++ (space ++ code ']' :: rest))) =
      .ok (values, code ']' :: rest) := by
  have hlength := length_le_flatMap parts
  cases h with
  | cons hpart hparts =>
      cases hpart with
      | mk hbefore hbehind hbyte hclosing hreads =>
          have hclose : Bounded (space ++ code ']' :: rest) := bounded_append hspace bounded_bracket
          have hbound := bounded_append hbehind (bounded_flatMap parts hclose)
          simp only [List.append_assoc, List.cons_append]
          unfold elements
          rw [elementsLoop]
          refine (bind_of_ok (nextElement_first hbefore hbyte hclosing)).trans ?_
          refine (bind_of_ok (hreads _ hbound)).trans ?_
          refine elementsLoop_parts hparts ?_ hbehind hspace
          simp only [List.length_append, List.length_cons]
          omega

/-- The inside of a list without elements. -/
theorem elements_nil
    (hspace : AllSpace space) :
    elements element (space ++ code ']' :: rest) = .ok ([], code ']' :: rest) := by
  unfold elements
  rw [elementsLoop]
  exact bind_of_ok (nextElement_closing true hspace)

theorem part_of_accepts
    {doc : Json} {value : α}
    (spacing : Spacing)
    (level : Nat)
    (h : Accepts element doc value)
    (whole : ∀ x, doc ≠ number (.real x)) :
    Part element (encoded (spacing.line level) ++ encoded (spacing.chars level doc)) value := by
  obtain ⟨byte, tail, htext, hstart⟩ := head_chars spacing level whole
  rw [htext, ← List.append_nil tail]
  refine .mk (allSpace_line spacing level) allSpace_nil hstart.not_space hstart.not_closing ?_
  intro rest hrest
  have hread := h spacing level [] rest allSpace_nil hrest
  rw [htext] at hread
  exact hread

theorem furtherBytes_eq
    (spacing : Spacing)
    (level : Nat)
    (parts : List (List Char)) :
    furtherBytes spacing level parts =
      (parts.map fun part => encoded (spacing.line level) ++ encoded part).flatMap (code ',' :: ·) := by
  rw [furtherBytes, List.flatMap_map]

/-- The inside of a list is read up to its closing bracket. -/
theorem elements_array
    {docs : List Json} {values : List α}
    (spacing : Spacing)
    (level : Nat)
    (h : List.Forall₂ (Accepts element) docs values)
    (whole : ∀ doc ∈ docs, ∀ x, doc ≠ number (.real x)) :
    ∃ bytes, encoded (spacing.chars level (.array docs)) = code '[' :: bytes ∧
      elements element (bytes ++ rest) = .ok (values, code ']' :: rest) := by
  have hline := allSpace_line spacing level
  have hparts : List.Forall₂ (Part element)
      ((docs.map (spacing.chars (level + 1))).map fun part =>
        encoded (spacing.line (level + 1)) ++ encoded part) values := by
    rw [List.map_map, List.forall₂_map_left_iff]
    refine ((List.forall₂_and_left _ _).mpr ⟨whole, h⟩).imp fun doc value hdoc => ?_
    exact part_of_accepts spacing (level + 1) hdoc.2 hdoc.1
  rw [Spacing.chars, elementChars_eq_map]
  cases docs with
  | nil =>
      cases h
      exact ⟨[code ']'], rfl, elements_nil allSpace_nil⟩
  | cons doc docs =>
      rw [List.map_cons, encoded_framed spacing (by decide) (by decide), furtherBytes_eq]
      refine ⟨_, rfl, ?_⟩
      rw [List.map_cons, List.map_cons] at hparts
      have hinside := elements_parts hparts hline rest
      rw [List.append_assoc] at hinside
      simpa only [List.append_assoc, List.cons_append, List.nil_append] using hinside

theorem closeList_bracket
    (rest : Bytes) :
    closeList (code ']' :: rest) = (rest, none) := by
  unfold closeList
  rw [skipSpace_cons rfl]
  simp

theorem accepts_list
    {depth : Nat} {part : Nat → Reader α} {docs : List Json} {values : List α}
    (h : List.Forall₂ (Accepts (part depth)) docs values)
    (whole : ∀ doc ∈ docs, ∀ x, doc ≠ number (.real x)) :
    Accepts (Reader.list (depth + 1) part) (.array docs) values := by
  intro spacing level space rest hspace _
  obtain ⟨bytes, htext, hread⟩ := elements_array spacing level h whole
  unfold Reader.list Reader.inList
  rw [htext, List.cons_append, atValue_append _ hspace rfl]
  simp only [if_true]
  unfold enclosed
  rw [hread]
  simp only [closeList_bracket]

end Lists

section Objects

variable {σ : Type} {member : String → σ → Reader σ} {spacing : Spacing} {level : Nat}
variable {space rest : Bytes}

/-- A field behind its key takes the state of a record under construction to another one. -/
def Takes (member : String → σ → Reader σ) (field : String × Json) (before after : σ) : Prop :=
  ∀ (spacing : Spacing) (level : Nat) (rest : Bytes), Bounded rest →
    member field.1 before
        (code ':' :: (encoded spacing.gap ++ (encoded (spacing.chars level field.2) ++ rest))) =
      .ok (after, rest)

/-- Fields take the state to another one, one after the other. -/
inductive TakesAll (member : String → σ → Reader σ) : List (String × Json) → σ → σ → Prop where
  | none (state : σ) : TakesAll member [] state state
  | further
      {field : String × Json}
      {fields : List (String × Json)}
      {before between after : σ}
      (first : Takes member field before between)
      (others : TakesAll member fields between after) :
      TakesAll member (field :: fields) before after

theorem encoded_fieldChars
    (field : String × Json)
    (rest : Bytes) :
    encoded (spacing.fieldChars level field) ++ rest =
      code '"' :: (encoded (field.1.toList.flatMap escapeChar) ++ 34 ::
        (code ':' ::
          (encoded spacing.gap ++ (encoded (spacing.chars level field.2) ++ rest)))) := by
  obtain ⟨key, value⟩ := field
  rw [Spacing.fieldChars, encoded_append, encoded_quoted, encoded_ascii _ (by decide),
    encoded_append]
  simp only [List.append_assoc, List.cons_append, List.nil_append]
  rfl

theorem key_quoted
    (key : String)
    (rest : Bytes) :
    nextKey.key (encoded (key.toList.flatMap escapeChar) ++ 34 :: rest) = .ok (some key, rest) :=
  map_of_ok (stringTail_quoted key rest)

theorem nextKey_first
    (key : String)
    (h : AllSpace space) :
    nextKey true
        (space ++ code '"' :: (encoded (key.toList.flatMap escapeChar) ++ 34 :: rest)) =
      .ok (some key, rest) := by
  have hbrace : code '"' ≠ code '\x7d' := by decide
  unfold nextKey
  rw [skipSpace_append h rfl]
  simp [hbrace, key_quoted]

theorem nextKey_further
    (key : String)
    (h : AllSpace space) :
    nextKey false
        (code ',' ::
          (space ++ code '"' :: (encoded (key.toList.flatMap escapeChar) ++ 34 :: rest))) =
      .ok (some key, rest) := by
  have hcomma : code ',' ≠ code '\x7d' := by decide
  unfold nextKey
  rw [skipSpace_cons rfl]
  simp only [hcomma, if_false, Bool.false_eq_true, if_true]
  rw [skipSpace_append h rfl]
  simp [key_quoted]

theorem nextKey_closing
    (first : Bool)
    (h : AllSpace space) :
    nextKey first (space ++ code '\x7d' :: rest) = .ok (none, code '\x7d' :: rest) := by
  unfold nextKey
  rw [skipSpace_append h rfl]
  simp

/-- The fields behind the first one are taken in up to the closing brace. -/
theorem membersLoop_further
    {fields : List (String × Json)} {state final : σ} {fuel : Nat}
    (h : TakesAll member fields state final)
    (enough : fields.length < fuel)
    (hspace : AllSpace space) :
    membersLoop member fuel false state
        (furtherBytes spacing level (fields.map (spacing.fieldChars level))
          ++ (space ++ code '\x7d' :: rest)) =
      .ok (final, code '\x7d' :: rest) := by
  induction h generalizing fuel with
  | none state =>
      obtain ⟨fuel, rfl⟩ := Nat.exists_eq_succ_of_ne_zero (Nat.ne_of_gt enough)
      rw [membersLoop]
      exact bind_of_ok (nextKey_closing false hspace)
  | @further field fields before between after hfirst _ ih =>
      obtain ⟨fuel, rfl⟩ := Nat.exists_eq_succ_of_ne_zero (Nat.ne_of_gt (Nat.zero_lt_of_lt enough))
      have hbound : Bounded (furtherBytes spacing level (fields.map (spacing.fieldChars level))
          ++ (space ++ code '\x7d' :: rest)) :=
        bounded_further _ (bounded_append hspace bounded_brace)
      rw [List.map_cons, furtherBytes_cons, encoded_fieldChars, membersLoop]
      refine (bind_of_ok (nextKey_further field.1 (allSpace_line spacing level))).trans ?_
      refine (bind_of_ok (hfirst spacing level _ hbound)).trans ?_
      exact ih (Nat.lt_of_succ_lt_succ enough)

/-- The inside of an object is taken in up to its closing brace. -/
theorem members_object
    {fields : List (String × Json)} {state final : σ}
    (spacing : Spacing)
    (level : Nat)
    (h : TakesAll member fields state final) :
    ∃ bytes, encoded (spacing.chars level (.object fields)) = code '\x7b' :: bytes ∧
      ∀ rest, members member state (bytes ++ rest) = .ok (final, code '\x7d' :: rest) := by
  rw [Spacing.chars, fieldsChars_eq_map]
  cases h with
  | none =>
      refine ⟨[code '\x7d'], rfl, fun rest => ?_⟩
      unfold members
      rw [membersLoop]
      exact bind_of_ok (nextKey_closing true allSpace_nil)
  | @further field fields _ between _ hfirst hothers =>
      rw [List.map_cons, encoded_framed spacing (by decide) (by decide)]
      refine ⟨_, rfl, fun rest => ?_⟩
      have hline := allSpace_line spacing level
      have hbound : Bounded
          (furtherBytes spacing (level + 1) (fields.map (spacing.fieldChars (level + 1)))
            ++ (encoded (spacing.line level) ++ code '\x7d' :: rest)) :=
        bounded_further _ (bounded_append hline bounded_brace)
      have hlength : fields.length ≤
          (furtherBytes spacing (level + 1)
            (fields.map (spacing.fieldChars (level + 1)))).length := by
        simpa using length_le_furtherBytes (fields.map (spacing.fieldChars (level + 1)))
      unfold members
      simp only [encoded_fieldChars, List.append_assoc, List.cons_append, List.nil_append]
      rw [membersLoop]
      refine (bind_of_ok
        (nextKey_first field.1 (allSpace_line spacing (level + 1)))).trans ?_
      refine (bind_of_ok (hfirst spacing (level + 1) _ hbound)).trans ?_
      refine membersLoop_further hothers ?_ hline
      simp only [List.length_append, List.length_cons]
      omega

theorem closeObject_brace
    (rest : Bytes) :
    closeObject (code '\x7d' :: rest) = (rest, none) := by
  unfold closeObject
  rw [skipSpace_cons rfl]
  simp

/-- A record is read off an object whose fields are taken in. -/
theorem accepts_record
    {α : Type} {name : String} {depth : Nat} {fromObject fromList : Nat → Reader α}
    {fields : List (String × Json)} {initial final : σ} {finish : σ → Reader α} {value : α}
    (hobject : fromObject depth = (members member initial >>= finish))
    (h : TakesAll member fields initial final)
    (hfinish : ∀ rest, finish final rest = .ok (value, rest)) :
    Accepts (Reader.record name (depth + 1) fromObject fromList) (.object fields) value := by
  intro spacing level space rest hspace _
  obtain ⟨bytes, htext, hread⟩ := members_object spacing level h
  have hinside : fromObject depth (bytes ++ rest) = .ok (value, code '\x7d' :: rest) := by
    rw [hobject]
    exact (bind_of_ok (hread rest)).trans (hfinish _)
  have hlist : code '\x7b' ≠ code '[' := by decide
  unfold Reader.record
  rw [htext, List.cons_append, atValue_append _ hspace rfl]
  simp only [hlist, if_false, if_true]
  unfold enclosed
  rw [hinside]
  simp only [closeObject_brace]

theorem colon_cons
    (rest : Bytes) :
    colon (code ':' :: rest) = .ok ((), rest) := by
  unfold colon
  rw [skipSpace_cons rfl]
  simp

/-- The value behind a key, with the colon in front of it, is read. -/
theorem behind_colon
    {α : Type} {reader : Reader α} {doc : Json} {value : α}
    (h : Accepts reader doc value)
    (bounded : Bounded rest) :
    (colon >>= fun _ => reader)
        (code ':' :: (encoded spacing.gap ++ (encoded (spacing.chars level doc) ++ rest))) =
      .ok (value, rest) :=
  (bind_of_ok (colon_cons _)).trans (h spacing level _ rest (allSpace_gap spacing) bounded)

/-- An empty place of a record under construction is filled. -/
theorem fill_none
    {α : Type} {reader : Reader α} {doc : Json} {value : α} {old : Option α}
    (name : String)
    (empty : old = none)
    (h : Accepts reader doc value)
    (bounded : Bounded rest) :
    Reader.fill name old reader
        (code ':' :: (encoded spacing.gap ++ (encoded (spacing.chars level doc) ++ rest))) =
      .ok (value, rest) := by
  rw [empty]
  exact behind_colon h bounded

end Objects

section Maps

variable {α : Type} {doc : α → Json}

/-- Puts the value behind a key into a map. -/
def put (part : Reader α) (key : String) (fields : List (String × α)) :
    Reader (List (String × α)) := do
  colon
  let field ← part
  pure (Keyed.insert key field fields)

theorem map_eq
    (depth : Nat)
    (part : Nat → Reader α) :
    Reader.map depth part =
      Reader.inObject "a map" depth fun depth => members (put (part depth)) [] :=
  rfl

section Read

variable {β : Type} {part : Reader α} {docOf : β → Json} {read : β → α}
  {pairs : List (String × β)}

theorem takesAll_put_read
    (h : ∀ pair ∈ pairs, Accepts part (docOf pair.2) (read pair.2))
    (fields : List (String × α)) :
    TakesAll (put part) (pairs.map fun pair => (pair.1, docOf pair.2)) fields
      ((pairs.map fun pair => (pair.1, read pair.2)).foldl
        (fun sorted pair => Keyed.insert pair.1 pair.2 sorted) fields) := by
  induction pairs generalizing fields with
  | nil => exact .none fields
  | cons pair pairs ih =>
      refine .further ?_ (ih (fun other hother => h other (List.mem_cons_of_mem pair hother)) _)
      intro spacing level rest hrest
      have hread := h pair List.mem_cons_self spacing level _ rest (allSpace_gap spacing) hrest
      exact (bind_of_ok (colon_cons _)).trans (bind_of_ok hread)

/-- A map is read off an object, whatever is read of its values; of values with one key the last one
stays. -/
theorem accepts_map_read
    {depth : Nat} {part : Nat → Reader α}
    (h : ∀ pair ∈ pairs, Accepts (part depth) (docOf pair.2) (read pair.2)) :
    Accepts (Reader.map (depth + 1) part) (.object (pairs.map fun pair => (pair.1, docOf pair.2)))
      (Keyed.sort (pairs.map fun pair => (pair.1, read pair.2))) := by
  intro spacing level space rest hspace _
  obtain ⟨bytes, htext, hread⟩ := members_object spacing level (takesAll_put_read h [])
  rw [map_eq]
  unfold Reader.inObject
  rw [htext, List.cons_append, atValue_append _ hspace rfl]
  simp only [if_true]
  unfold enclosed
  rw [hread rest]
  simp only [closeObject_brace]
  rfl

end Read

theorem takesAll_put
    {part : Reader α} {pairs : List (String × α)}
    (h : ∀ pair ∈ pairs, Accepts part (doc pair.2) pair.2)
    (fields : List (String × α)) :
    TakesAll (put part) (pairs.map fun pair => (pair.1, doc pair.2)) fields
      (pairs.foldl (fun sorted pair => Keyed.insert pair.1 pair.2 sorted) fields) := by
  have hsame : (pairs.map fun pair => (pair.1, id pair.2)) = pairs := List.map_id pairs
  have htakes : TakesAll (put part) _ fields
      ((pairs.map fun pair => (pair.1, id pair.2)).foldl _ fields) :=
    takesAll_put_read h fields
  rwa [hsame] at htakes

/-- A map whose values are read as they are is read off an object. -/
theorem accepts_map
    {depth : Nat} {part : Nat → Reader α} {pairs : List (String × α)}
    (h : ∀ pair ∈ pairs, Accepts (part depth) (doc pair.2) pair.2) :
    Accepts (Reader.map (depth + 1) part)
      (.object (pairs.map fun pair => (pair.1, doc pair.2))) (Keyed.sort pairs) := by
  have hsame : (pairs.map fun pair => (pair.1, id pair.2)) = pairs := List.map_id pairs
  have haccepts : Accepts (Reader.map (depth + 1) part) _
      (Keyed.sort (pairs.map fun pair => (pair.1, id pair.2))) := accepts_map_read h
  rwa [hsame] at haccepts

end Maps

section Texts

variable {α : Type} {reader : Reader α} {doc : Json} {value : α}

/-- A text that spells an accepted document is read as its value, with white space behind it. -/
theorem whole_append_of_accepts
    {space : Bytes}
    (h : Accepts reader doc value)
    (spacing : Spacing)
    (level : Nat)
    (hspace : AllSpace space) :
    whole reader (encoded (spacing.chars level doc) ++ space) = .ok value := by
  have hbounded := bounded_append hspace bounded_nil
  rw [List.append_nil] at hbounded
  have hread := h spacing level [] space allSpace_nil hbounded
  have hnone : skipSpace space = [] := List.dropWhile_eq_nil_iff.mpr hspace
  rw [List.nil_append] at hread
  unfold whole
  simp only [hread, hnone]

theorem whole_of_accepts
    (h : Accepts reader doc value)
    (spacing : Spacing)
    (level : Nat) :
    whole reader (encoded (spacing.chars level doc)) = .ok value := by
  have hread := whole_append_of_accepts h spacing level allSpace_nil
  rwa [List.append_nil] at hread

end Texts

end Json
end BatchRun
