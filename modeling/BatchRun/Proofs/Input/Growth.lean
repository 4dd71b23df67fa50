import BatchRun.Input.Source
import BatchRun.Proofs.Text.Blank

/-!
# Sources that grow

Items of a source stay what they are when further records follow, with the ids that their places
give them, and an error stays the error.  So a source that was read up to some place can be read
again after it has grown.

**Types.**
A result `Extends` another one if it has the same error, or the same items with others behind them,
or an error behind them.  An error `Breaks` a list of records at the first one that cannot be made
an item.

**Results.**
* `extends_itemsFrom`: records that follow others leave the items of those.
* `breaks_of_itemsFrom`: the error is about the first record that is wrong.
* `lineItems_append`: the items of two texts, the later ones moved behind the earlier ones.
* `stable_of_growth`: every format that is read record by record is stable.
-/

namespace BatchRun
namespace Input

open Json
open Number
open Text

/-- A result when further records follow those of another result. -/
inductive Extends : (first whole : Except InputError (List Item)) → Prop
  | fails
      (error : InputError) :
      Extends (.error error) (.error error)
  | goesOn
      (items more : List Item) :
      Extends (.ok items) (.ok (items ++ more))
  | fallsBehind
      (items : List Item)
      {error : InputError}
      {index : Nat}
      (names : error.index? = some index)
      (behind : items.length ≤ index) :
      Extends (.ok items) (.error error)

/-- The error is about the first record that cannot be made an item: those in front of it can. -/
structure Breaks (made : List α → Except InputError (List Item)) (records : List α)
    (error : InputError) (index : Nat) : Prop where
  names : error.index? = some index
  inside : index < records.length
  before : ∃ items, made (records.take index) = .ok items ∧ items.length = index
  upTo : made (records.take (index + 1)) = .error error

/-- Item of a line with so many items in front of it. -/
def behind (count : Nat) (item : Item) : Item :=
  { item with id := natText (count + item.position + 1), position := count + item.position }

section Records

variable {α : Type} {make : Nat → List String → α → Except InputError (Item × List String)}

/-- Every error is about the record at which it arises. -/
def NamesIndex (make : Nat → List String → α → Except InputError (Item × List String)) : Prop :=
  ∀ index taken record error, make index taken record = .error error → error.index? = some index

theorem itemsFrom_cons_error
    {index : Nat} {taken : List String} {record : α} {error : InputError}
    (h : make index taken record = .error error)
    (records : List α) :
    itemsFrom make index taken (record :: records) = .error error := by
  rw [itemsFrom, h]

theorem itemsFrom_cons_ok
    {index : Nat} {taken next : List String} {record : α} {item : Item}
    (h : make index taken record = .ok (item, next))
    (records : List α) :
    itemsFrom make index taken (record :: records) =
      (itemsFrom make (index + 1) next records).map (item :: ·) := by
  rw [itemsFrom, h]
  simp only
  cases itemsFrom make (index + 1) next records <;> rfl

/-- The error is about the first record that is wrong. -/
theorem breaks_of_itemsFrom
    {records : List α} {index : Nat} {taken : List String} {error : InputError}
    (names : NamesIndex make)
    (h : itemsFrom make index taken records = .error error) :
    ∃ place < records.length, error.index? = some (index + place) ∧
      (∃ items, itemsFrom make index taken (records.take place) = .ok items ∧
        items.length = place) ∧
      itemsFrom make index taken (records.take (place + 1)) = .error error := by
  induction records generalizing index taken with
  | nil => cases h
  | cons record records ih =>
      cases hmake : make index taken record with
      | error fault =>
          rw [itemsFrom_cons_error hmake] at h
          cases h
          exact ⟨0, Nat.succ_pos _, names index taken record error hmake, ⟨[], rfl, rfl⟩,
            itemsFrom_cons_error hmake _⟩
      | ok made =>
          obtain ⟨item, next⟩ := made
          rw [itemsFrom_cons_ok hmake] at h
          cases hrest : itemsFrom make (index + 1) next records with
          | ok items =>
              rw [hrest] at h
              cases h
          | error fault =>
              rw [hrest] at h
              cases h
              obtain ⟨place, hplace, hnamed, ⟨items, hitems, hlength⟩, hupTo⟩ := ih hrest
              refine ⟨place + 1, Nat.succ_lt_succ hplace, ?_, ⟨item :: items, ?_, ?_⟩, ?_⟩
              · rw [hnamed, Nat.add_right_comm, Nat.add_assoc]
              · rw [List.take_succ_cons, itemsFrom_cons_ok hmake, hitems]
                rfl
              · rw [List.length_cons, hlength]
              · rw [List.take_succ_cons, itemsFrom_cons_ok hmake, hupTo]
                rfl

theorem itemsFrom_append_error
    {records : List α} {index : Nat} {taken : List String} {error : InputError}
    (h : itemsFrom make index taken records = .error error)
    (others : List α) :
    itemsFrom make index taken (records ++ others) = .error error := by
  induction records generalizing index taken with
  | nil => cases h
  | cons record records ih =>
      rw [List.cons_append]
      cases hmake : make index taken record with
      | error fault =>
          rw [itemsFrom_cons_error hmake] at h ⊢
          exact h
      | ok made =>
          rw [itemsFrom_cons_ok hmake] at h ⊢
          cases hrest : itemsFrom make (index + 1) made.2 records with
          | error fault =>
              rw [hrest] at h
              cases h
              rw [ih hrest]
              rfl
          | ok items =>
              rw [hrest] at h
              cases h

/-- Further records are read with the ids that are taken by then. -/
theorem itemsFrom_append_ok
    {records : List α} {index : Nat} {taken : List String} {items : List Item}
    (h : itemsFrom make index taken records = .ok items)
    (others : List α) :
    ∃ next, itemsFrom make index taken (records ++ others) =
      (itemsFrom make (index + items.length) next others).map (items ++ ·) := by
  induction records generalizing index taken items with
  | nil =>
      cases h
      refine ⟨taken, ?_⟩
      rw [List.nil_append, List.length_nil, Nat.add_zero]
      cases itemsFrom make index taken others <;> rfl
  | cons record records ih =>
      rw [List.cons_append]
      cases hmake : make index taken record with
      | error fault =>
          rw [itemsFrom_cons_error hmake] at h
          cases h
      | ok made =>
          rw [itemsFrom_cons_ok hmake] at h ⊢
          cases hrest : itemsFrom make (index + 1) made.2 records with
          | error fault =>
              rw [hrest] at h
              cases h
          | ok more =>
              rw [hrest] at h
              cases h
              obtain ⟨next, hnext⟩ := ih hrest
              refine ⟨next, ?_⟩
              have hplace : index + 1 + more.length = index + (made.1 :: more).length := by
                rw [List.length_cons]
                omega
              rw [hnext, hplace]
              cases itemsFrom make (index + (made.1 :: more).length) next others <;> rfl

/-- Records that follow others leave the items of those, or their error. -/
theorem extends_itemsFrom
    (names : NamesIndex make)
    (records others : List α) :
    Extends (itemsFrom make 0 [] records) (itemsFrom make 0 [] (records ++ others)) := by
  cases hfirst : itemsFrom make 0 [] records with
  | error error =>
      rw [itemsFrom_append_error hfirst]
      exact .fails error
  | ok items =>
      obtain ⟨next, hnext⟩ := itemsFrom_append_ok hfirst others
      rw [hnext]
      cases hlast : itemsFrom make (0 + items.length) next others with
      | ok more => exact .goesOn items more
      | error error =>
          obtain ⟨place, -, hnamed, -, -⟩ := breaks_of_itemsFrom names hlast
          exact .fallsBehind items hnamed (by omega)

end Records

section Indices

variable {options : Options}

theorem index_of_bind
    {α β : Type} {x : Except InputError α} {f : α → Except InputError β} {index : Nat}
    {error : InputError}
    (first : ∀ error, x = .error error → error.index? = some index)
    (second : ∀ value error, f value = .error error → error.index? = some index)
    (h : x.bind f = .error error) :
    error.index? = some index := by
  cases hx : x with
  | error fault =>
      rw [hx] at h
      cases h
      exact first _ hx
  | ok value =>
      rw [hx] at h
      exact second value error h

theorem index_of_assignId
    {taken : List String} {explicit : Option String} {index : Nat} {error : InputError}
    (h : assignId taken explicit index = .error error) :
    error.index? = some index := by
  simp only [assignId] at h
  split at h
  case isTrue =>
      cases h
      rfl
  case isFalse => cases h

theorem index_of_payloadOf
    {index : Nat} {fields : List (String × Json)} {error : InputError}
    (h : payloadOf options index fields = .error error) :
    error.index? = some index := by
  unfold payloadOf at h
  split at h
  case h_1 => cases h; rfl
  case h_2 => cases h; rfl
  case h_3 => cases h

theorem index_of_explicitIdOf
    {index : Nat} {fields : List (String × Json)} {error : InputError}
    (h : explicitIdOf options index fields = .error error) :
    error.index? = some index := by
  unfold explicitIdOf at h
  split at h
  case h_1 => cases h
  case h_2 => cases h
  case h_3 =>
      split at h
      case isTrue => cases h; rfl
      case isFalse => cases h
  case h_4 => cases h
  case h_5 => cases h; rfl

theorem index_of_explicitMetadataOf
    {index : Nat} {fields : List (String × Json)} {error : InputError}
    (h : explicitMetadataOf options index fields = .error error) :
    error.index? = some index := by
  unfold explicitMetadataOf at h
  split at h
  case h_1 => cases h
  case h_2 => cases h
  case h_3 => cases h
  case h_4 => cases h; rfl

/-- Whatever is wrong with a record, the error names its place. -/
theorem namesIndex_recordItem
    (options : Options) :
    NamesIndex (recordItem options) := by
  intro index taken record error h
  cases record with
  | string payload =>
      exact index_of_bind (fun _ => index_of_assignId) (fun _ _ hpure => by cases hpure) h
  | object fields =>
      refine index_of_bind (fun _ => index_of_payloadOf) (fun _ _ hrest => ?_) h
      refine index_of_bind (fun _ => index_of_explicitIdOf) (fun _ _ hrest => ?_) hrest
      refine index_of_bind (fun _ => index_of_explicitMetadataOf) (fun _ _ hrest => ?_) hrest
      exact index_of_bind (fun _ => index_of_assignId) (fun _ _ hpure => by cases hpure) hrest
  | _ =>
      cases h
      rfl

theorem namesIndex_jsonLineItem
    (options : Options) :
    NamesIndex (jsonLineItem options) := by
  intro index taken line error h
  simp only [jsonLineItem] at h
  split at h
  case h_1 =>
      cases h
      rfl
  case h_2 => exact namesIndex_recordItem options index taken _ error h

end Indices

section Lines

variable {options : Options}

theorem payloadLines_append
    (first last : String) :
    payloadLines options (first ++ "\n" ++ last) =
      payloadLines options first ++ payloadLines options last := by
  simp only [payloadLines, filledLines_append, List.filter_append]

theorem id_lineItem
    {source : String} {item : Item}
    (h : item ∈ lineItems options source) :
    item.id = natText (item.position + 1) := by
  obtain ⟨⟨line, index⟩, -, rfl⟩ := List.mem_map.mp h
  rfl

/-- The items of two texts, the later ones moved behind the earlier ones. -/
theorem lineItems_append
    (options : Options)
    (first last : String) :
    lineItems options (first ++ "\n" ++ last) =
      lineItems options first ++
        (lineItems options last).map (behind (lineItems options first).length) := by
  have hlength : (lineItems options first).length = (payloadLines options first).length := by
    rw [lineItems, List.length_map, List.length_zipIdx]
  rw [hlength]
  unfold lineItems
  rw [payloadLines_append, List.zipIdx_append, List.map_append, List.map_map]
  congr 1
  generalize (payloadLines options first).length = count
  rw [Nat.zero_add, List.zipIdx_eq_map_add, List.map_map]
  exact List.map_congr_left fun ⟨_, _⟩ _ => rfl

end Lines

/-- What becomes of the items of a source that grows. -/
structure Stable (options : Options) : Prop where
  /-- The items of two texts are those of the first one and, moved behind them, those of the other. -/
  lines : ∀ first last, ∃ items more,
    Input.items options .lines first = .ok items ∧
    Input.items options .lines last = .ok more ∧
    Input.items options .lines (first ++ "\n" ++ last) =
      .ok (items ++ more.map (behind items.length)) ∧
    ∀ item ∈ more, item.id = natText (item.position + 1)
  jsonLines : ∀ first last,
    Extends (items options .jsonLines first) (items options .jsonLines (first ++ "\n" ++ last))
  records : ∀ first last, Extends (recordItems options first) (recordItems options (first ++ last))
  /-- The error of a text is about the first of its filled lines that is wrong. -/
  firstLine : ∀ source error, items options .jsonLines source = .error error → ∃ index,
    Breaks (fun lines => items options .jsonLines (String.ofList (separated ['\n'] lines)))
      (filledLines source) error index
  firstRecord : ∀ records error, recordItems options records = .error error → ∃ index,
    Breaks (recordItems options) records error index

/-- Every format that is read record by record is stable. -/
theorem stable_of_growth
    (options : Options) :
    Stable options where
  lines first last :=
    ⟨_, _, rfl, rfl, congrArg _ (lineItems_append options first last), fun _ => id_lineItem⟩
  jsonLines first last := by
    simp only [items, jsonLineItems, filledLines_append]
    exact extends_itemsFrom (namesIndex_jsonLineItem options) _ _
  records first last := extends_itemsFrom (namesIndex_recordItem options) first last
  firstLine source error h := by
    obtain ⟨index, hinside, hnamed, hbefore, hupTo⟩ :=
      breaks_of_itemsFrom (namesIndex_jsonLineItem options) h
    have hsame : ∀ count, items options .jsonLines
        (String.ofList (separated ['\n'] ((filledLines source).take count))) =
          itemsFrom (jsonLineItem options) 0 [] ((filledLines source).take count) := by
      intro count
      simp only [items, jsonLineItems]
      rw [filledLines_of_subset fun line hline => List.mem_of_mem_take hline]
    rw [Nat.zero_add] at hnamed
    exact ⟨index, hnamed, hinside, by simpa only [hsame] using hbefore,
      by simpa only [hsame] using hupTo⟩
  firstRecord records error h := by
    obtain ⟨index, hinside, hnamed, hbefore, hupTo⟩ :=
      breaks_of_itemsFrom (namesIndex_recordItem options) h
    rw [Nat.zero_add] at hnamed
    exact ⟨index, hnamed, hinside, hbefore, hupTo⟩

end Input
end BatchRun
