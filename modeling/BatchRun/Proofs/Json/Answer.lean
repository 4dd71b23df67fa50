import BatchRun.Json.Reader

/-!
# Answers of readers

**Type.**
A reader gives a property if whatever it reads off any text has the property.

**Sequences.**
What a sequence of readers reads, from what each of them reads (`bind_of_ok`) and back
(`bind_eq_ok`).

**Rules.**
One for each way to build a reader.  The loop over the fields of an object keeps what each field
keeps.
-/

namespace BatchRun
namespace Json

open Text

/-- Whatever a reader reads has a property. -/
def Gives {α : Type} (reader : Reader α) (property : α → Prop) : Prop :=
  ∀ rest value after, reader rest = .ok (value, after) → property value

section Sequences

variable {α β : Type} {reader : Reader α} {rest after : Bytes}

theorem bind_of_ok
    {next : α → Reader β} {value : α}
    (h : reader rest = .ok (value, after)) :
    (reader >>= next) rest = next value after := by
  change (reader rest >>= fun answer => next answer.1 answer.2) = _
  rw [h]
  rfl

theorem map_of_ok
    {f : α → β} {value : α}
    (h : reader rest = .ok (value, after)) :
    (f <$> reader) rest = .ok (f value, after) := by
  change (reader rest >>= fun answer => pure (f answer.1, answer.2)) = _
  rw [h]
  rfl

theorem bind_eq_ok
    {next : α → Reader β} {value : β}
    (h : (reader >>= next) rest = .ok (value, after)) :
    ∃ middle between, reader rest = .ok (middle, between) ∧
      next middle between = .ok (value, after) := by
  change (reader rest >>= fun answer => next answer.1 answer.2) = _ at h
  cases hread : reader rest with
  | error fault =>
      rw [hread] at h
      cases h
  | ok answer =>
      rw [hread] at h
      exact ⟨answer.1, answer.2, rfl, h⟩

theorem map_eq_ok
    {f : α → β} {value : β}
    (h : (f <$> reader) rest = .ok (value, after)) :
    ∃ middle, reader rest = .ok (middle, after) ∧ value = f middle := by
  rw [map_eq_pure_bind] at h
  obtain ⟨middle, between, hread, hpure⟩ := bind_eq_ok h
  cases hpure
  exact ⟨middle, hread, rfl⟩

end Sequences

section Steps

variable {α β σ : Type} {property : α → Prop} {goal : β → Prop} {reader : Reader α}

theorem gives_trivial
    (reader : Reader α) :
    Gives reader fun _ => True :=
  fun _ _ _ _ => trivial

theorem gives_pure
    {value : α}
    (h : property value) :
    Gives (pure value) property := by
  intro rest other after heq
  cases heq
  exact h

theorem gives_bind
    {next : α → Reader β}
    (h : Gives reader property)
    (hnext : ∀ value, property value → Gives (next value) goal) :
    Gives (reader >>= next) goal := by
  intro rest value after heq
  obtain ⟨middle, between, hread, hrest⟩ := bind_eq_ok heq
  exact hnext middle (h rest middle between hread) between value after hrest

theorem gives_map
    {f : α → β}
    (h : Gives reader property)
    (hf : ∀ value, property value → goal (f value)) :
    Gives (f <$> reader) goal := by
  rw [map_eq_pure_bind]
  exact gives_bind h fun value hvalue => gives_pure (hf value hvalue)

theorem gives_raise
    (reason : Reason) :
    Gives (Reader.raise reason) property :=
  fun _ _ _ heq => nomatch heq

theorem gives_mismatch
    (expected : String) :
    Gives (mismatch expected) property := by
  intro rest value after heq
  unfold mismatch at heq
  repeat' split at heq
  all_goals cases heq

theorem gives_atValue
    (h : Gives reader property) :
    Gives (Reader.atValue reader) property := by
  intro rest value after heq
  unfold Reader.atValue at heq
  split at heq
  · cases heq
  · exact h _ value after heq

theorem gives_numberWith
    {expected : String} {accept : Numeral → Except Reason α}
    (h : ∀ number value, accept number = .ok value → property value) :
    Gives (Reader.numberWith expected accept) property := by
  refine gives_atValue fun rest value after heq => ?_
  split at heq
  case h_1 => exact gives_mismatch expected _ value after heq
  case h_2 =>
      simp only at heq
      split at heq
      rotate_left
      split at heq
      rotate_left
      · exact gives_mismatch expected _ value after heq
      -- what is left are the numerals without a sign and with one
      all_goals
        split at heq
        case h_1 => cases heq
        case h_2 =>
            split at heq
            case h_1 haccept =>
                cases heq
                exact h _ _ haccept
            case h_2 => cases heq

theorem gives_word
    (bound : Nat)
    (name : String) :
    Gives (Reader.word bound name) fun n => n < bound := by
  refine gives_numberWith fun number value haccept => ?_
  split at haccept
  case h_1 n =>
      split at haccept
      case isTrue hbounds =>
          cases haccept
          omega
      case isFalse => cases haccept
  case h_2 => cases haccept

theorem gives_enclosed
    (close : Bytes → Bytes × Option Fault)
    (h : Gives reader property) :
    Gives (enclosed close reader) property := by
  intro rest value after heq
  unfold enclosed at heq
  split at heq
  · cases heq
  · cases heq
  case h_3 hread =>
      split at heq
      case h_1 =>
          cases heq
          exact h _ _ _ hread
      case h_2 => cases heq

end Steps

section Containers

variable {α σ : Type} {property : α → Prop} {invariant : σ → Prop}

theorem gives_inObject
    {expected : String} {inside : Nat → Reader α}
    (h : ∀ depth, Gives (inside depth) property)
    (depth : Nat) :
    Gives (Reader.inObject expected depth inside) property := by
  refine gives_atValue fun rest value after heq => ?_
  split at heq
  case h_1 => exact gives_mismatch expected _ value after heq
  case h_2 =>
      split at heq
      case isTrue =>
          cases depth with
          | zero => cases heq
          | succ depth => exact gives_enclosed _ (h depth) _ value after heq
      case isFalse => exact gives_mismatch expected _ value after heq

theorem gives_record
    {name : String} {fromObject fromList : Nat → Reader α}
    (hobject : ∀ depth, Gives (fromObject depth) property)
    (hlist : ∀ depth, Gives (fromList depth) property)
    (depth : Nat) :
    Gives (Reader.record name depth fromObject fromList) property := by
  refine gives_atValue fun rest value after heq => ?_
  split at heq
  case h_1 => exact gives_mismatch _ _ value after heq
  case h_2 =>
      split at heq
      case isTrue =>
          cases depth with
          | zero => cases heq
          | succ depth => exact gives_enclosed _ (hlist depth) _ value after heq
      case isFalse =>
          split at heq
          case isTrue =>
              cases depth with
              | zero => cases heq
              | succ depth => exact gives_enclosed _ (hobject depth) _ value after heq
          case isFalse => exact gives_mismatch _ _ value after heq

/-- A record starts with a bracket. -/
theorem bracket_of_record
    {name : String} {fromObject fromList : Nat → Reader α} {depth : Nat} {rest : Bytes}
    {answer : α × Bytes}
    (h : Reader.record name depth fromObject fromList rest = .ok answer) :
    ∃ byte tail, skipSpace rest = byte :: tail ∧ (byte = code '[' ∨ byte = code '\x7b') := by
  unfold Reader.record Reader.atValue at h
  cases hskip : skipSpace rest with
  | nil =>
      simp only [hskip] at h
      cases h
  | cons byte tail =>
      refine ⟨byte, tail, rfl, ?_⟩
      by_cases hlist : byte = code '['
      · exact .inl hlist
      by_cases hobject : byte = code '\x7b'
      · exact .inr hobject
      simp only [hskip, hlist, hobject, if_false] at h
      have hnothing : Gives (mismatch ("struct " ++ name)) fun _ : α => False := gives_mismatch _
      exact (hnothing _ answer.1 answer.2 h).elim

/-- The loop over fields keeps what each field keeps. -/
theorem gives_membersLoop
    {member : String → σ → Reader σ}
    (step : ∀ key state, invariant state → Gives (member key state) invariant)
    (fuel : Nat)
    (first : Bool)
    {state : σ}
    (h : invariant state) :
    Gives (membersLoop member fuel first state) invariant := by
  induction fuel generalizing first state with
  | zero => exact gives_pure h
  | succ fuel ih =>
      rw [membersLoop]
      refine gives_bind (gives_trivial _) fun key _ => ?_
      cases key with
      | none => exact gives_pure h
      | some key => exact gives_bind (step key state h) fun next hnext => ih false hnext

theorem gives_members
    {member : String → σ → Reader σ}
    (step : ∀ key state, invariant state → Gives (member key state) invariant)
    {state : σ}
    (h : invariant state) :
    Gives (members member state) invariant :=
  fun rest value after heq => gives_membersLoop step _ true h rest value after heq

theorem gives_fill
    {reader : Reader α}
    (name : String)
    (old : Option α)
    (h : Gives reader property) :
    Gives (Reader.fill name old reader) property := by
  unfold Reader.fill
  split
  case isTrue => exact gives_raise _
  case isFalse => exact gives_bind (gives_trivial _) fun _ _ => h

theorem gives_ignore
    {state : σ}
    (h : invariant state) :
    Gives (Reader.ignore state) invariant :=
  gives_bind (gives_trivial _) fun _ _ => gives_bind (gives_trivial _) fun _ _ => gives_pure h

theorem gives_required
    {name : String} {field : Option α}
    (h : ∀ value, field = some value → property value) :
    Gives (Reader.required name field) property := by
  cases field with
  | none => exact gives_raise _
  | some value => exact gives_pure (h value rfl)

theorem gives_element?
    {reader : Reader α}
    (first : Bool)
    (h : Gives reader property) :
    Gives (Reader.element? first reader) fun found =>
      ∀ value, found = some value → property value := by
  refine gives_bind (gives_trivial _) fun more _ => ?_
  cases more with
  | false => exact gives_pure fun _ hnone => nomatch hnone
  | true =>
      refine gives_map h fun value hvalue other hother => ?_
      cases hother
      exact hvalue

theorem gives_element
    {reader : Reader α}
    (index : Nat)
    (expected : String)
    (h : Gives reader property) :
    Gives (Reader.element index expected reader) property := by
  refine gives_bind (gives_element? (index == 0) h) fun found hfound => ?_
  cases found with
  | none => exact gives_raise _
  | some value => exact gives_pure (hfound value rfl)

theorem read_of_whole
    {reader : Reader α} {text : Bytes} {value : α}
    (h : whole reader text = .ok value) :
    ∃ after, reader text = .ok (value, after) := by
  unfold whole at h
  split at h
  case h_1 => cases h
  case h_2 after hread =>
      split at h
      case h_1 =>
          cases h
          exact ⟨after, hread⟩
      case h_2 => cases h

theorem of_whole
    {reader : Reader α} {text : Bytes} {value : α}
    (h : Gives reader property)
    (heq : whole reader text = .ok value) :
    property value := by
  obtain ⟨after, hread⟩ := read_of_whole heq
  exact h text value after hread

end Containers

end Json
end BatchRun
