import BatchRun.Input.Source
import BatchRun.Proofs.Number.Digits
import Mathlib.Data.List.Nodup

/-!
# Ids of items

Every source gives its items ids that differ, or none at all.

**Types.**
A source is read as a list of entries, each a `Record` or the reason why it is none.  A record has
an id at its place (`Record.idAt`), which it names or which its place gives, and a `Draft` of all
else, unless something is wrong with it.

**Entries.**
An entry may be wrong by itself (`Fails`), or have an id that an earlier record has (`Repeats`).

**Results.**
* `items_eq`: every format reads entries and then numbers them in the same way.
* `outcome_of_itemsFrom`: the first wrong entry is the error, and without one all entries are items.
* `numbering_of_source`: the items of a source have ids that are filled and distinct, and a repeated
  id is an error.
-/

namespace BatchRun
namespace Input

open Json
open Number
open Text

/-- A record as it was read. -/
inductive Record where
  | line (text : List Char)
  | value (json : Json)
  | row (columns : Columns) (cells : List String)

/-- What a record has besides its id. -/
structure Draft where
  payload : Json
  metadata : Metadata := []

/-- A record, or why there is none. -/
abbrev Entry := Except InputError Record

/-- Text of a value that can be an id. -/
def idText? : Json → Option String
  | .string text => if trim text.toList = [] then none else some (trimText text)
  | .number (.whole n) => some (intText n)
  | _ => none

namespace Record

/-- Id that a record names; its payload cannot be its id. -/
def explicit? (options : Options) : Record → Option String
  | line _ => none
  | value (.object fields) =>
    (Keyed.find? (Keyed.erase options.payloadField fields) options.idField).bind idText?
  | value _ => none
  | row columns cells =>
    (columns.id.bind fun column => cells[column]?).filter fun cell => !cell.isEmpty

/-- Id of a record at a place: the one that it names, or else its place counted from one. -/
def idAt (options : Options) (index : Nat) (record : Record) : String :=
  (record.explicit? options).getD (natText (index + 1))

/-- What a record has besides its id, or what is wrong with it. -/
def draft (options : Options) (index : Nat) : Record → Except InputError Draft
  | line text => .ok { payload := .string (String.ofList text) }
  | value (.string payload) => .ok { payload := .string payload }
  | value (.object fields) => do
    let payload ← payloadOf options index fields
    let fields := Keyed.erase options.payloadField fields
    let _ ← explicitIdOf options index fields
    let fields := Keyed.erase options.idField fields
    let explicitMetadata ← explicitMetadataOf options index fields
    let fields := Keyed.erase options.metadataField fields
    let metadata :=
      explicitMetadata.foldl (fun all field => Keyed.insert field.1 field.2 all) fields
    pure { payload, metadata }
  | value other => .error (.invalidRecord index (.notRecord other.shape))
  | row columns cells =>
    let payload := cells.getD columns.payload ""
    if payload.isEmpty then .error (.missingField index options.payloadField)
    else .ok { payload := .string payload, metadata := rowMetadata columns cells }

/-- Item of a record at a place. -/
def item (options : Options) (index : Nat) (record : Record) (draft : Draft) : Item where
  id := record.idAt options index
  position := index
  payload := draft.payload
  metadata := draft.metadata

end Record

/-- Entry of a line that is to hold a record. -/
def lineEntry (index : Nat) (line : List Char) : Entry :=
  let text := bytesOf (String.ofList line)
  match parse? text with
  | .error fault => .error (.malformedJson index (fault.describe text))
  | .ok json => .ok (.value json)

/-- Entry of a row of a table. -/
def rowEntry (text : Bytes) (columns : Columns) (index : Nat) (row : Row) : Entry :=
  let place := placeOf text (index + 1) row
  if row.cells.length ≠ columns.names.length then
    .error (.malformedTable (.width place row.cells.length columns.names.length))
  else
    match cellTexts place 0 (row.cells.map (·.dropWhile isBlankByte)) with
    | .error error => .error error
    | .ok cells => .ok (.row columns cells)

/-- Entries of a source, or why it has none. -/
def entries (options : Options) (format : Format) (source : String) :
    Except InputError (List Entry) :=
  let text := bytesOf source
  match format with
  | .lines => .ok ((payloadLines options source).map fun line => .ok (.line line))
  | .records =>
    match parse? text with
    | .error fault => .error (.malformedJson 0 (fault.describe text))
    | .ok (.array records) => .ok (records.map fun json => .ok (.value json))
    | .ok _ => .error (.invalidRecord 0 .notList)
  | .jsonLines => .ok ((filledLines source).zipIdx.map fun (line, index) => lineEntry index line)
  | .table separator =>
    match rows separator text with
    | [] => .error (.missingColumn options.payloadField)
    | header :: others => do
      let names ← cellTexts (placeOf text 0 header) 0 header.cells
      let columns ← columnsOf options names
      pure (others.zipIdx.map fun (row, index) => rowEntry text columns index row)

/-- Makes an item of an entry. -/
def number (options : Options) (index : Nat) (taken : List String) (entry : Entry) :
    Except InputError (Item × List String) := do
  let record ← entry
  let draft ← record.draft options index
  let (id, taken) ← assignId taken (record.explicit? options) index
  pure ({ id, position := index, payload := draft.payload, metadata := draft.metadata }, taken)

section Reading

variable {α : Type} {options : Options} {index : Nat} {taken : List String}

/-- The id that is looked for is the one that the record names. -/
theorem find?_of_explicitIdOf
    {fields : List (String × Json)} {explicit : Option String}
    (h : explicitIdOf options index fields = .ok explicit) :
    (Keyed.find? fields options.idField).bind idText? = explicit := by
  unfold explicitIdOf at h
  split at h
  case h_1 hfind => cases h; rw [hfind]; rfl
  case h_2 hfind => cases h; rw [hfind]; rfl
  case h_3 text hfind =>
      rw [hfind]
      split at h
      case isTrue => cases h
      case isFalse hfilled =>
          cases h
          exact if_neg hfilled
  case h_4 n hfind => cases h; rw [hfind]; rfl
  case h_5 => cases h

theorem recordItem_eq
    (json : Json) :
    recordItem options index taken json = number options index taken (.ok (.value json)) := by
  cases json with
  | object fields =>
      simp only [recordItem, number, Record.draft, bind, Except.bind]
      cases payloadOf options index fields with
      | error error => rfl
      | ok payload =>
          simp only
          cases hexplicit : explicitIdOf options index (Keyed.erase options.payloadField fields) with
          | error error => rfl
          | ok explicit =>
              simp only
              cases explicitMetadataOf options index _ with
              | error error => rfl
              | ok metadata =>
                  have hnamed : (Record.value (.object fields)).explicit? options = explicit :=
                    find?_of_explicitIdOf hexplicit
                  simp only [pure, Except.pure, hnamed]
  | _ => rfl

theorem jsonLineItem_eq
    (line : List Char) :
    jsonLineItem options index taken line = number options index taken (lineEntry index line) := by
  simp only [jsonLineItem, lineEntry]
  cases parse? (bytesOf (String.ofList line)) with
  | error fault => rfl
  | ok json => exact recordItem_eq json

theorem rowItem_eq
    (text : Bytes)
    (columns : Columns)
    (row : Row) :
    rowItem options text columns index taken row =
      number options index taken (rowEntry text columns index row) := by
  unfold rowItem rowEntry
  split
  case isTrue => rfl
  case isFalse =>
      simp only [bind, Except.bind]
      cases cellTexts (placeOf text (index + 1) row) 0 (row.cells.map (·.dropWhile isBlankByte)) with
      | error error => rfl
      | ok cells =>
          simp only [number, Record.draft, bind, Except.bind]
          cases (cells.getD columns.payload "").isEmpty <;> rfl

/-- Making items is the same as reading entries and numbering them. -/
theorem itemsFrom_zipIdx
    {make : (index : Nat) → (taken : List String) → α → Except InputError (Item × List String)}
    {entry : (index : Nat) → α → Entry}
    (h : ∀ index taken record, make index taken record =
      number options index taken (entry index record))
    (index : Nat)
    (taken : List String)
    (records : List α) :
    itemsFrom make index taken records =
      itemsFrom (number options) index taken
        ((records.zipIdx index).map fun (record, index) => entry index record) := by
  induction records generalizing index taken with
  | nil => rfl
  | cons record records ih =>
      simp only [List.zipIdx_cons, List.map_cons, itemsFrom, h, ih]

/-- Records without ids of their own take their places, which differ. -/
theorem itemsFrom_lines
    {lines : List (List Char)}
    (places : ∀ id ∈ taken, ∃ k, k < index ∧ id = natText (k + 1)) :
    itemsFrom (number options) index taken (lines.map fun line => .ok (.line line)) =
      .ok ((lines.zipIdx index).map fun (line, index) => lineItem index line) := by
  induction lines generalizing index taken with
  | nil => rfl
  | cons line lines ih =>
      have hfree : taken.contains (natText (index + 1)) = false := by
        rw [Bool.eq_false_iff]
        intro hcontains
        obtain ⟨k, hk, heq⟩ := places _ (List.contains_iff_mem.mp hcontains)
        have hplace := natText_injective heq
        omega
      have hnumber : number options index taken (.ok (.line line)) =
          .ok (lineItem index line, natText (index + 1) :: taken) := by
        simp only [number, Record.draft, Record.explicit?, assignId, bind, Except.bind,
          Option.getD_none, hfree]
        rfl
      have hplaces : ∀ id ∈ natText (index + 1) :: taken,
          ∃ k, k < index + 1 ∧ id = natText (k + 1) := by
        intro id hid
        rcases List.mem_cons.mp hid with rfl | hid
        · exact ⟨index, Nat.lt_succ_self index, rfl⟩
        · obtain ⟨k, hk, heq⟩ := places id hid
          exact ⟨k, Nat.lt_succ_of_lt hk, heq⟩
      rw [List.map_cons, itemsFrom, hnumber]
      simp only [ih hplaces, List.zipIdx_cons, List.map_cons]

/-- Every format reads entries and then numbers them in the same way. -/
theorem items_eq
    (options : Options)
    (format : Format)
    (source : String) :
    items options format source =
      (entries options format source).bind (itemsFrom (number options) 0 []) := by
  cases format with
  | lines => exact (itemsFrom_lines fun id hid => by cases hid).symm
  | records =>
      simp only [items, entries, listItems]
      cases parse? (bytesOf source) with
      | error fault => rfl
      | ok json =>
          cases json with
          | array records =>
              have hplain : records.map (fun json => (.ok (.value json) : Entry)) =
                  records.zipIdx.map fun pair => .ok (.value pair.1) := by
                conv => lhs; rw [← List.zipIdx_map_fst 0 records, List.map_map]
                rfl
              show recordItems options records = itemsFrom (number options) 0 [] (records.map _)
              rw [hplain]
              exact itemsFrom_zipIdx (fun _ _ => recordItem_eq) 0 [] records
          | _ => rfl
  | jsonLines => exact itemsFrom_zipIdx (fun _ _ => jsonLineItem_eq) 0 [] (filledLines source)
  | table separator =>
      simp only [items, entries, tableItems]
      cases rows separator (bytesOf source) with
      | nil => rfl
      | cons header others =>
          simp only [bind, Except.bind]
          cases cellTexts (placeOf (bytesOf source) 0 header) 0 header.cells with
          | error error => rfl
          | ok names =>
              simp only
              cases columnsOf options names with
              | error error => rfl
              | ok columns =>
                  exact itemsFrom_zipIdx (fun _ _ => rowItem_eq (bytesOf source) columns) 0 [] others

end Reading

/-- The entry at a place is a record with nothing wrong by itself. -/
structure Drafted (options : Options) (all : List Entry) (index : Nat) (record : Record)
    (draft : Draft) : Prop where
  entry : all[index]? = some (.ok record)
  draft : record.draft options index = .ok draft

/-- The entry at a place is wrong by itself. -/
inductive Fails (options : Options) (all : List Entry) (index : Nat) : InputError → Prop
  | unread {error : InputError} (entry : all[index]? = some (.error error)) :
      Fails options all index error
  | undrafted {record : Record} {error : InputError} (entry : all[index]? = some (.ok record))
      (draft : record.draft options index = .error error) : Fails options all index error

/-- The record at a place has the id of an earlier one. -/
inductive Repeats (options : Options) (all : List Entry) (index : Nat) : InputError → Prop
  | same {earlier : Nat} {first record : Record} {firstDraft draft : Draft}
      (before : earlier < index) (drafted : Drafted options all earlier first firstDraft)
      (again : Drafted options all index record draft)
      (id : first.idAt options earlier = record.idAt options index) :
      Repeats options all index (.duplicateId (record.idAt options index) index)

/-- Something is wrong with the entry at a place. -/
def Wrong (options : Options) (all : List Entry) (index : Nat) (error : InputError) : Prop :=
  Fails options all index error ∨ Repeats options all index error

/-- Nothing is wrong up to a place, and the ids up to there are those that are taken. -/
structure Numbered (options : Options) (all : List Entry) (index : Nat) (taken : List String) :
    Prop where
  clean : ∀ place < index, ∀ error, ¬ Wrong options all place error
  taken : ∀ id, id ∈ taken ↔ ∃ place < index, ∃ record draft,
    Drafted options all place record draft ∧ record.idAt options place = id

/-- What a list of entries comes to from some place on. -/
inductive Outcome (options : Options) (all : List Entry) (index : Nat) :
    Except InputError (List Item) → Prop
  /-- The first entry with something wrong is the error. -/
  | fails {place : Nat} {error : InputError} (wrong : Wrong options all place error)
      (first : ∀ earlier < place, ∀ error, ¬ Wrong options all earlier error) :
      Outcome options all index (.error error)
  | makes {items : List Item} (clean : ∀ place error, ¬ Wrong options all place error)
      (length : items.length = all.length - index)
      (made : ∀ place (item : Item), items[place]? = some item → ∃ record draft,
        Drafted options all (index + place) record draft ∧
          item = record.item options (index + place) draft) :
      Outcome options all index (.ok items)

section Numbering

variable {options : Options} {all rest : List Entry} {index : Nat} {taken : List String}

theorem lt_length_of_wrong
    {error : InputError}
    (wrong : Wrong options all index error) :
    index < all.length := by
  rcases wrong with hfails | hrepeats
  · cases hfails with
    | unread entry | undrafted entry => exact (List.getElem?_eq_some_iff.mp entry).1
  · cases hrepeats with
    | same _ _ again => exact (List.getElem?_eq_some_iff.mp again.entry).1

/-- An entry is wrong, or its item has an id that was not taken. -/
theorem number_cases
    {entry : Entry}
    (numbered : Numbered options all index taken)
    (hentry : all[index]? = some entry) :
    (∃ error, number options index taken entry = .error error ∧ Wrong options all index error) ∨
      ∃ record draft, Drafted options all index record draft ∧
        record.idAt options index ∉ taken ∧
        number options index taken entry =
          .ok (record.item options index draft, record.idAt options index :: taken) := by
  cases entry with
  | error error => exact .inl ⟨error, rfl, .inl (.unread hentry)⟩
  | ok record =>
      simp only [number, bind, Except.bind]
      cases hdraft : record.draft options index with
      | error error => exact .inl ⟨error, rfl, .inl (.undrafted hentry hdraft)⟩
      | ok draft =>
          have hdrafted : Drafted options all index record draft := ⟨hentry, hdraft⟩
          by_cases htaken : record.idAt options index ∈ taken
          · obtain ⟨place, hplace, first, firstDraft, hfirst, hid⟩ := (numbered.taken _).mp htaken
            have hassign : assignId taken (record.explicit? options) index =
                .error (.duplicateId (record.idAt options index) index) :=
              if_pos (List.contains_iff_mem.mpr htaken)
            simp only [hassign]
            exact .inl ⟨_, rfl, .inr (.same hplace hfirst hdrafted hid)⟩
          · have hassign : assignId taken (record.explicit? options) index =
                .ok (record.idAt options index, record.idAt options index :: taken) :=
              if_neg fun hcontains => htaken (List.contains_iff_mem.mp hcontains)
            simp only [hassign]
            exact .inr ⟨record, draft, hdrafted, htaken, rfl⟩

theorem Drafted.unique
    {record other : Record} {draft otherDraft : Draft}
    (drafted : Drafted options all index record draft)
    (again : Drafted options all index other otherDraft) :
    record = other ∧ draft = otherDraft := by
  have hentry := drafted.entry.symm.trans again.entry
  cases hentry
  have hdraft := drafted.draft.symm.trans again.draft
  cases hdraft
  exact ⟨rfl, rfl⟩

/-- Nothing is wrong with a record whose id was not taken. -/
theorem Numbered.next
    {record : Record} {draft : Draft}
    (numbered : Numbered options all index taken)
    (drafted : Drafted options all index record draft)
    (free : record.idAt options index ∉ taken) :
    Numbered options all (index + 1) (record.idAt options index :: taken) where
  clean place hplace error wrong := by
    rcases Nat.lt_or_eq_of_le (Nat.le_of_lt_succ hplace) with hlt | rfl
    · exact numbered.clean place hlt error wrong
    · rcases wrong with hfails | hrepeats
      · cases hfails with
        | unread entry => cases drafted.entry.symm.trans entry
        | undrafted entry hdraft =>
            cases drafted.entry.symm.trans entry
            cases drafted.draft.symm.trans hdraft
      · cases hrepeats with
        | same before first again id =>
            obtain ⟨rfl, rfl⟩ := drafted.unique again
            exact free ((numbered.taken _).mpr ⟨_, before, _, _, first, id⟩)
  taken id := by
    rw [List.mem_cons, numbered.taken id]
    constructor
    · rintro (rfl | ⟨place, hplace, hrest⟩)
      · exact ⟨index, Nat.lt_succ_self index, record, draft, drafted, rfl⟩
      · exact ⟨place, Nat.lt_succ_of_lt hplace, hrest⟩
    · rintro ⟨place, hplace, other, otherDraft, hother, hid⟩
      rcases Nat.lt_or_eq_of_le (Nat.le_of_lt_succ hplace) with hlt | rfl
      · exact .inr ⟨place, hlt, other, otherDraft, hother, hid⟩
      · obtain ⟨rfl, rfl⟩ := drafted.unique hother
        exact .inl hid.symm

/-- The first wrong entry is the error, and without one all entries become items. -/
theorem outcome_of_itemsFrom
    (numbered : Numbered options all index taken)
    (left : all.drop index = rest) :
    Outcome options all index (itemsFrom (number options) index taken rest) := by
  induction rest generalizing index taken with
  | nil =>
      have hlength : all.length ≤ index := List.drop_eq_nil_iff.mp left
      have hclean : ∀ place error, ¬ Wrong options all place error := fun place error wrong =>
        numbered.clean place (Nat.lt_of_lt_of_le (lt_length_of_wrong wrong) hlength) error wrong
      refine .makes hclean (Nat.sub_eq_zero_of_le hlength).symm fun place item hitem => ?_
      simp at hitem
  | cons entry rest ih =>
      have hentry : all[index]? = some entry := by
        rw [← List.head?_drop, left]
        rfl
      have hrest : all.drop (index + 1) = rest := by
        rw [← List.tail_drop, left]
        rfl
      rw [itemsFrom]
      rcases number_cases numbered hentry with
        ⟨error, herror, hwrong⟩ | ⟨record, draft, hdrafted, hfree, hok⟩
      · rw [herror]
        exact .fails hwrong numbered.clean
      · rw [hok]
        have houtcome := ih (numbered.next hdrafted hfree) hrest
        simp only
        generalize itemsFrom (number options) (index + 1) _ rest = result at houtcome ⊢
        cases houtcome with
        | fails wrong first => exact .fails wrong first
        | @makes items clean length made =>
            have hlt := (List.getElem?_eq_some_iff.mp hentry).1
            refine .makes clean (by rw [List.length_cons]; omega) fun place item hitem => ?_
            cases place with
            | zero =>
                cases hitem
                exact ⟨record, draft, hdrafted, rfl⟩
            | succ place =>
                obtain ⟨other, otherDraft, hother, hmade⟩ := made place item hitem
                rw [Nat.add_assoc, Nat.add_comm 1 place] at hother hmade
                exact ⟨other, otherDraft, hother, hmade⟩

end Numbering

/-- A filled text without white space at its ends, or the digits of a whole number. -/
def IsIdText (id : String) : Prop :=
  id ≠ "" ∧ ((∃ text, id = trimText text) ∨ ∃ n : Int, id = intText n)

/-- The items of a list of entries: one of each, pending, with an id of its own. -/
structure Made (options : Options) (all : List Entry) (items : List Item) : Prop where
  length : items.length = all.length
  made : ∀ index (item : Item), items[index]? = some item → ∃ record draft,
    Drafted options all index record draft ∧ item = record.item options index draft
  positions : ∀ index (item : Item), items[index]? = some item → item.position = index
  ids : ∀ index (item : Item), items[index]? = some item →
    ∃ record, all[index]? = some (.ok record) ∧
    ((record.explicit? options = some item.id ∧ IsIdText item.id) ∨
      (record.explicit? options = none ∧ item.id = natText (index + 1)))
  filled : ∀ item ∈ items, item.id ≠ ""
  distinct : (items.map Item.id).Nodup
  payloads : ∀ item ∈ items, item.payload ≠ .null
  /-- Nothing has happened to an item. -/
  fresh : ∀ item : Item, item ∈ items → item =
    { id := item.id, position := item.position, payload := item.payload, metadata := item.metadata }

/-- How a source gives out ids. -/
structure Numbering (options : Options) (format : Format) (source : String) : Prop where
  made : ∀ items, Input.items options format source = .ok items → ∃ all,
    entries options format source = .ok all ∧ Made options all items
  /-- A repeated id is the error, unless something is wrong before it is given out. -/
  repeated : ∀ all, entries options format source = .ok all →
    ∀ earlier later first record, earlier < later →
      all[earlier]? = some (.ok first) → all[later]? = some (.ok record) →
      first.idAt options earlier = record.idAt options later →
      items options format source = .error (.duplicateId (record.idAt options later) later) ∨
        ∃ place error, items options format source = .error error ∧
          (∀ before < place, ∀ error, ¬ Wrong options all before error) ∧
          ((place < later ∧ Wrong options all place error) ∨
            (place = later ∧ Fails options all place error))

section Naming

variable {options : Options} {format : Format} {source : String} {all : List Entry} {id : String}

theorem isIdText_of_idText?
    {value : Json}
    (h : idText? value = some id) :
    IsIdText id := by
  unfold idText? at h
  split at h
  case h_1 text =>
      split at h
      case isTrue => cases h
      case isFalse filled =>
          cases h
          refine ⟨fun hempty => filled ?_, .inl ⟨text, rfl⟩⟩
          rw [← String.toList_ofList (l := trim text.toList)]
          exact congrArg String.toList hempty
  case h_2 n =>
      cases h
      refine ⟨fun hempty => ?_, .inr ⟨n, rfl⟩⟩
      unfold intText at hempty
      split at hempty
      case isTrue => simp at hempty
      case isFalse => exact natText_ne_empty _ hempty
  case h_3 => cases h

/-- Cells are read without the white space at their ends. -/
theorem trimmed_of_cellTexts
    {place : RowPlace} {number : Nat} {cells : List Bytes} {texts : List String} {text : String}
    (h : cellTexts place number cells = .ok texts)
    (htext : text ∈ texts) :
    ∃ raw, text = trimText raw := by
  induction cells generalizing number texts with
  | nil =>
      cases h
      cases htext
  | cons bytes others ih =>
      rw [cellTexts] at h
      split at h
      case h_1 => cases h
      case h_2 raw _ =>
          split at h
          case h_1 => cases h
          case h_2 rest hrest =>
              cases h
              rcases List.mem_cons.mp htext with rfl | hmem
              · exact ⟨raw, rfl⟩
              · exact ih hrest hmem

/-- A row that was read has cells without white space at their ends. -/
theorem row_of_rowEntry
    {text : Bytes} {columns : Columns} {index : Nat} {row : Row} {record : Record}
    (h : rowEntry text columns index row = .ok record) :
    ∃ cells, record = .row columns cells ∧ ∀ cell ∈ cells, ∃ raw, cell = trimText raw := by
  simp only [rowEntry] at h
  split at h
  case isTrue => cases h
  case isFalse =>
      split at h
      case h_1 => cases h
      case h_2 cells hcells =>
          cases h
          exact ⟨cells, rfl, fun cell => trimmed_of_cellTexts hcells⟩

theorem isIdText_of_value
    {json : Json}
    (h : (Record.value json).explicit? options = some id) :
    IsIdText id := by
  cases json with
  | object fields =>
      obtain ⟨value, -, hvalue⟩ := Option.bind_eq_some_iff.mp h
      exact isIdText_of_idText? hvalue
  | _ => cases h

/-- An id that a record names is a text that can be one. -/
theorem isIdText_of_entries
    {record : Record}
    (h : entries options format source = .ok all)
    (hrecord : .ok record ∈ all)
    (named : record.explicit? options = some id) :
    IsIdText id := by
  cases format with
  | lines =>
      cases h
      obtain ⟨line, -, heq⟩ := List.mem_map.mp hrecord
      cases heq
      cases named
  | records =>
      simp only [entries] at h
      split at h
      case h_1 => cases h
      case h_2 records _ =>
          cases h
          obtain ⟨json, -, heq⟩ := List.mem_map.mp hrecord
          cases heq
          exact isIdText_of_value named
      case h_3 => cases h
  | jsonLines =>
      cases h
      obtain ⟨⟨line, index⟩, -, heq⟩ := List.mem_map.mp hrecord
      simp only [lineEntry] at heq
      split at heq
      case h_1 => cases heq
      case h_2 json _ =>
          cases heq
          exact isIdText_of_value named
  | table separator =>
      simp only [entries] at h
      split at h
      case h_1 => cases h
      case h_2 header others _ =>
          simp only [bind, Except.bind] at h
          split at h
          case h_1 => cases h
          case h_2 names _ =>
              split at h
              case h_1 => cases h
              case h_2 columns _ =>
                  cases h
                  obtain ⟨⟨row, index⟩, -, heq⟩ := List.mem_map.mp hrecord
                  obtain ⟨cells, rfl, htrimmed⟩ := row_of_rowEntry heq
                  obtain ⟨hcell, hfilled⟩ := Option.filter_eq_some_iff.mp named
                  obtain ⟨column, -, hmem⟩ := Option.bind_eq_some_iff.mp hcell
                  refine ⟨fun hempty => ?_, .inl (htrimmed id (List.mem_of_getElem? hmem))⟩
                  subst hempty
                  cases hfilled

end Naming

section Items

variable {options : Options} {format : Format} {source : String} {all : List Entry}

theorem payload_of_payloadOf
    {index : Nat} {fields : List (String × Json)} {payload : Json}
    (h : payloadOf options index fields = .ok payload) :
    payload ≠ .null := by
  unfold payloadOf at h
  split at h
  case h_1 => cases h
  case h_2 => cases h
  case h_3 filled _ =>
      cases h
      exact filled

/-- A record has something for a payload. -/
theorem payload_of_draft
    {record : Record} {index : Nat} {draft : Draft}
    (h : record.draft options index = .ok draft) :
    draft.payload ≠ .null := by
  intro hnull
  cases record with
  | line text =>
      cases h
      cases hnull
  | row columns cells =>
      simp only [Record.draft] at h
      split at h
      case isTrue => cases h
      case isFalse =>
          cases h
          cases hnull
  | value json =>
      cases json with
      | object fields =>
          simp only [Record.draft, bind, Except.bind] at h
          split at h
          case h_1 => cases h
          case h_2 payload hpayload =>
              split at h
              case h_1 => cases h
              case h_2 =>
                  split at h
                  case h_1 => cases h
                  case h_2 =>
                      cases h
                      exact payload_of_payloadOf hpayload hnull
      | string text =>
          cases h
          cases hnull
      | _ => cases h

/-- The id of a record is the one that it names, or tells its place. -/
theorem id_of_drafted
    {record : Record} {index : Nat} {draft : Draft}
    (read : entries options format source = .ok all)
    (drafted : Drafted options all index record draft) :
    (record.explicit? options = some (record.idAt options index) ∧
        IsIdText (record.idAt options index)) ∨
      (record.explicit? options = none ∧ record.idAt options index = natText (index + 1)) := by
  unfold Record.idAt
  cases hexplicit : record.explicit? options with
  | none => exact .inr ⟨rfl, rfl⟩
  | some id =>
      have hmem := List.mem_of_getElem? drafted.entry
      exact .inl ⟨rfl, isIdText_of_entries read hmem hexplicit⟩

/-- Without a repeated id all ids differ. -/
theorem distinct_of_clean
    {items : List Item}
    (clean : ∀ place error, ¬ Wrong options all place error)
    (made : ∀ index (item : Item), items[index]? = some item → ∃ record draft,
      Drafted options all index record draft ∧ item = record.item options index draft) :
    (items.map Item.id).Nodup := by
  refine List.nodup_iff_getElem?_ne_getElem?.mpr fun earlier later hlt hlength heq => ?_
  rw [List.length_map] at hlength
  rw [List.getElem?_map, List.getElem?_map, List.getElem?_eq_getElem hlength,
    List.getElem?_eq_getElem (Nat.lt_trans hlt hlength)] at heq
  obtain ⟨first, firstDraft, hfirst, hitem⟩ :=
    made earlier _ (List.getElem?_eq_getElem (Nat.lt_trans hlt hlength))
  obtain ⟨record, draft, hdrafted, hother⟩ := made later _ (List.getElem?_eq_getElem hlength)
  rw [hitem, hother] at heq
  exact clean later _ (.inr (.same hlt hfirst hdrafted (Option.some.inj heq)))

/-- The items of entries of which none is wrong. -/
theorem made_of_clean
    {items : List Item}
    (read : entries options format source = .ok all)
    (clean : ∀ place error, ¬ Wrong options all place error)
    (length : items.length = all.length)
    (made : ∀ index (item : Item), items[index]? = some item → ∃ record draft,
      Drafted options all index record draft ∧ item = record.item options index draft) :
    Made options all items := by
  have hmade : ∀ item ∈ items, ∃ index record draft,
      Drafted options all index record draft ∧ item = record.item options index draft := by
    intro item hitem
    obtain ⟨index, hindex⟩ := List.mem_iff_getElem?.mp hitem
    exact ⟨index, made index item hindex⟩
  refine ⟨length, made, fun index item hitem => ?_, fun index item hitem => ?_,
    fun item hitem => ?_, distinct_of_clean clean made, fun item hitem => ?_, fun item hitem => ?_⟩
  · obtain ⟨_, _, -, rfl⟩ := made index item hitem
    rfl
  · obtain ⟨record, draft, hdrafted, rfl⟩ := made index item hitem
    exact ⟨record, hdrafted.entry, id_of_drafted read hdrafted⟩
  · obtain ⟨index, record, draft, hdrafted, rfl⟩ := hmade item hitem
    rcases id_of_drafted read hdrafted with ⟨-, hfilled, -⟩ | ⟨-, hplace⟩
    · exact hfilled
    · exact fun hempty => natText_ne_empty (index + 1) (hplace.symm.trans hempty)
  · obtain ⟨_, _, _, hdrafted, rfl⟩ := hmade item hitem
    exact payload_of_draft hdrafted.draft
  · obtain ⟨_, _, _, -, rfl⟩ := hmade item hitem
    rfl

/-- What the entries of a source come to. -/
theorem outcome_of_entries
    (read : entries options format source = .ok all) :
    Outcome options all 0 (Input.items options format source) := by
  rw [items_eq, read]
  have hstart : Numbered options all 0 [] := by
    refine ⟨fun place hplace => absurd hplace (Nat.not_lt_zero place), fun id => ?_⟩
    constructor
    · intro hid
      cases hid
    · rintro ⟨place, hplace, -⟩
      exact absurd hplace (Nat.not_lt_zero place)
  exact outcome_of_itemsFrom hstart rfl

/-- A record that has the id of an earlier one is wrong, unless the earlier one is. -/
theorem wrong_of_same
    {earlier later : Nat} {first record : Record}
    (before : earlier < later)
    (hfirst : all[earlier]? = some (.ok first))
    (hrecord : all[later]? = some (.ok record))
    (same : first.idAt options earlier = record.idAt options later) :
    ∃ place error, place ≤ later ∧ Wrong options all place error := by
  cases hearlier : first.draft options earlier with
  | error error => exact ⟨earlier, error, Nat.le_of_lt before, .inl (.undrafted hfirst hearlier)⟩
  | ok firstDraft =>
      cases hlater : record.draft options later with
      | error error => exact ⟨later, error, Nat.le_refl later, .inl (.undrafted hrecord hlater)⟩
      | ok draft =>
          exact ⟨later, _, Nat.le_refl later,
            .inr (.same before ⟨hfirst, hearlier⟩ ⟨hrecord, hlater⟩ same)⟩

/-- The items of a source have ids that are filled and differ, and a repeated id is an error. -/
theorem numbering_of_source
    (options : Options)
    (format : Format)
    (source : String) :
    Numbering options format source where
  made items hitems := by
    cases hread : entries options format source with
    | error error =>
        rw [items_eq, hread] at hitems
        cases hitems
    | ok all =>
        have houtcome := outcome_of_entries hread
        rw [hitems] at houtcome
        cases houtcome with
        | makes clean length made =>
            simp only [Nat.zero_add, Nat.sub_zero] at length made
            exact ⟨all, rfl, made_of_clean hread clean length made⟩
  repeated all hread earlier later first record before hfirst hrecord same := by
    obtain ⟨place, error, hplace, hwrong⟩ := wrong_of_same before hfirst hrecord same
    have houtcome := outcome_of_entries hread
    generalize Input.items options format source = result at houtcome
    cases houtcome with
    | makes clean => exact absurd hwrong (clean place error)
    | @fails found fault wrong clean =>
        have hfound : found ≤ later := by
          refine Nat.le_trans (Nat.le_of_not_lt fun hlt => ?_) hplace
          exact clean place hlt error hwrong
        rcases Nat.lt_or_eq_of_le hfound with hlt | rfl
        · exact .inr ⟨found, fault, rfl, clean, .inl ⟨hlt, wrong⟩⟩
        · rcases wrong with hfails | hrepeats
          · exact .inr ⟨found, fault, rfl, clean, .inr ⟨rfl, hfails⟩⟩
          · cases hrepeats with
            | same _ _ again =>
                cases again.entry.symm.trans hrecord
                exact .inl rfl

example : items {} .commas "id,payload\n2,a\n,b" = .error (.duplicateId "2" 1) := by
  rfl

end Items

end Input
end BatchRun
