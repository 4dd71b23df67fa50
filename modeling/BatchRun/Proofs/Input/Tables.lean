import BatchRun.Proofs.Input.Formats
import BatchRun.Proofs.Input.Ids
import BatchRun.Proofs.Input.Rows
import BatchRun.Proofs.Keyed

/-!
# Tables and lists of records

A row of a table means the object that has its cells under the names of their columns.  An empty
cell in the column of the ids or of the payloads means nothing, so the object is without it.

**Types.**
A `Table` has columns with different names and rows that fit them.  `rowFields` are the fields of
the object of a row.

**Results.**
* `find?_rowFields`: a field has the cell of the column with its name.
* `rowMetadata_eq`: the cells of the other columns are the other fields.
* `number_row`: a row and its object make the same item, or the same error.
* `items_table_eq_records`: a table and the list of the objects of its rows give the same items, or
  the same error.
-/

namespace BatchRun
namespace Input

open Json
open Text

/-- Whether a cell stands for itself and has no white space around it. -/
def isCell (separator : Char) (cell : String) : Bool :=
  cell.toList.all (isCellChar separator) && trim cell.toList == cell.toList

/-- Names of columns with rows of cells below them. -/
structure Table (separator : Char) where
  names : List String
  rows : List (List String)
  several : 2 ≤ names.length
  distinct : names.Nodup
  width : ∀ cells ∈ rows, cells.length = names.length
  clean : ∀ cells ∈ names :: rows, ∀ cell ∈ cells, isCell separator cell = true

/-- Whether a cell of the column with some name is a field of the object of its row. -/
def isFilled (options : Options) (name cell : String) : Bool :=
  !(cell.isEmpty && (name == options.idField || name == options.payloadField))

/-- Options that fit the names of columns. -/
structure Suits (options : Options) (names : List String) : Prop where
  apart : options.idField ≠ options.payloadField
  present : options.payloadField ∈ names
  unnamed : options.metadataField ∉ names

/-- Whether the column with some name is neither that of the payloads nor that of the ids. -/
def isOther (options : Options) (name : String) : Bool :=
  name != options.payloadField && name != options.idField

/-- Fields of the object of a row. -/
def rowFields (options : Options) (names cells : List String) : List (String × Json) :=
  ((names.zip cells).filter fun pair => isFilled options pair.1 pair.2).map
    fun pair => (pair.1, .string pair.2)

/-- Object of a row. -/
def rowObject (options : Options) (names cells : List String) : Json :=
  .object (Keyed.sort (rowFields options names cells))

/-- Cell of the column with some name. -/
def cellOf? (names cells : List String) (name : String) : Option String :=
  (names.findIdx? (· == name)).bind (cells[·]?)

section Cells

variable {separator : Char} {cell : String} {cells : List String}

theorem not_isBlankByte_of_code
    {c : Char} {byte : UInt8}
    (filled : isBlank c = false)
    (hbyte : byte ∈ String.utf8EncodeChar c) :
    isBlankByte byte = false := by
  have hblank : ∀ d : Char, d.toNat < 128 → isBlank d = true → byte ≠ code d := by
    rintro d hascii hd rfl
    refine code_not_mem_encodeChar hascii ?_ hbyte
    rintro rfl
    rw [hd] at filled
    cases filled
  have hspace := hblank ' ' (by decide) (by decide)
  have htab := hblank '\t' (by decide) (by decide)
  have hfeed := hblank '\n' (by decide) (by decide)
  have hpage := hblank '\x0c' (by decide) (by decide)
  have hreturn := hblank '\r' (by decide) (by decide)
  simp only [isBlankByte, Bool.or_eq_false_iff, beq_eq_false_iff_ne]
  exact ⟨⟨⟨⟨hspace, htab⟩, hfeed⟩, hpage⟩, hreturn⟩

/-- A trimmed cell has no white space in front, whichever kind is dropped. -/
theorem dropWhile_bytesOf
    (trimmed : trim cell.toList = cell.toList) :
    (bytesOf cell).dropWhile isBlankByte = bytesOf cell := by
  have hhead := head?_trim cell.toList
  rw [trimmed] at hhead
  rw [bytesOf_eq_encoded]
  cases hcell : cell.toList with
  | nil => rfl
  | cons c cs =>
      obtain ⟨byte, bytes, hbytes⟩ := List.exists_cons_of_ne_nil (encodeChar_ne_nil c)
      have hfilled := hhead c (by rw [hcell]; rfl)
      have hbyte := not_isBlankByte_of_code hfilled (hbytes ▸ List.mem_cons_self)
      rw [encoded_cons, hbytes, List.cons_append, List.dropWhile_cons_of_neg (by simp [hbyte])]

theorem cellTexts_bytesOf
    (trimmed : ∀ cell ∈ cells, trim cell.toList = cell.toList)
    (place : RowPlace)
    (number : Nat) :
    cellTexts place number (cells.map bytesOf) = .ok cells := by
  induction cells generalizing number with
  | nil => rfl
  | cons cell cells ih =>
      obtain ⟨hcell, hcells⟩ := List.forall_mem_cons.mp trimmed
      rw [List.map_cons, cellTexts]
      simp only [textOf?_bytesOf, ih hcells, trimText, hcell, String.ofList_toList]

end Cells

section Columns

variable {options : Options} {names cells : List String} {name cell : String} {place : Nat}

/-- The column that is found for a name is the one that has it. -/
theorem findIdx?_eq_some_iff_name
    (distinct : names.Nodup)
    {field : String}
    (h : names[place]? = some name) :
    names.findIdx? (· == field) = some place ↔ name = field := by
  obtain ⟨hplace, rfl⟩ := List.getElem?_eq_some_iff.mp h
  rw [List.findIdx?_eq_some_iff_getElem]
  constructor
  case mp =>
      rintro ⟨_, hname, -⟩
      exact beq_iff_eq.mp hname
  case mpr =>
      rintro rfl
      refine ⟨hplace, beq_self_eq_true _, fun earlier hearlier hsame => ?_⟩
      have heq := distinct.getElem_inj_iff.mp (beq_iff_eq.mp hsame)
      omega

theorem cellOf?_eq_some_iff
    (distinct : names.Nodup) :
    cellOf? names cells name = some cell ↔ (name, cell) ∈ names.zip cells := by
  rw [cellOf?, Option.bind_eq_some_iff, List.mem_iff_getElem?]
  refine exists_congr fun place => ?_
  rw [List.getElem?_zip_eq_some]
  refine and_congr_left fun _ => ⟨fun hfind => ?_, fun hname => ?_⟩
  · have hplace := (List.findIdx?_eq_some_iff_getElem.mp hfind)
    obtain ⟨hlt, hname, -⟩ := hplace
    rw [List.getElem?_eq_getElem hlt, beq_iff_eq.mp hname]
  · exact (findIdx?_eq_some_iff_name distinct hname).mpr rfl

theorem nodup_rowFields
    (distinct : names.Nodup)
    (width : cells.length = names.length) :
    ((rowFields options names cells).map Prod.fst).Nodup := by
  have hnames : (rowFields options names cells).map Prod.fst =
      ((names.zip cells).filter fun pair => isFilled options pair.1 pair.2).map Prod.fst := by
    rw [rowFields, List.map_map]
    rfl
  have hzip : (names.zip cells).map Prod.fst = names := List.map_fst_zip width.ge
  rw [hnames]
  refine List.Nodup.sublist (List.filter_sublist.map Prod.fst) ?_
  rw [hzip]
  exact distinct

/-- A field has the cell of the column with its name. -/
theorem find?_rowFields
    (distinct : names.Nodup)
    (width : cells.length = names.length) :
    Keyed.find? (Keyed.sort (rowFields options names cells)) name =
      ((cellOf? names cells name).filter (isFilled options name)).map .string := by
  refine Option.ext fun value => ?_
  rw [Keyed.find?_sort_eq_some_iff (nodup_rowFields distinct width), Option.map_eq_some_iff]
  simp only [rowFields, List.mem_map, List.mem_filter, Prod.exists, Prod.mk.injEq,
    Option.filter_eq_some_iff, cellOf?_eq_some_iff distinct]
  constructor
  case mp =>
      rintro ⟨_, cell, ⟨hmem, hfilled⟩, rfl, rfl⟩
      exact ⟨cell, ⟨hmem, hfilled⟩, rfl⟩
  case mpr =>
      rintro ⟨cell, ⟨hmem, hfilled⟩, rfl⟩
      exact ⟨name, cell, ⟨hmem, hfilled⟩, rfl, rfl⟩

/-- The columns without a meaning are those with other names. -/
theorem filter_columns
    (distinct : names.Nodup)
    {payload : Nat}
    (found : names.findIdx? (· == options.payloadField) = some payload) :
    (names.zip cells).zipIdx.filter (fun (_, column) =>
      !(column == payload) && !(some column == names.findIdx? (· == options.idField))) =
        (names.zip cells).zipIdx.filter fun pair => isOther options pair.1.1 := by
  refine List.filter_congr fun ⟨⟨name, cell⟩, column⟩ hmem => ?_
  rw [List.mem_zipIdx_iff_getElem?, List.getElem?_zip_eq_some] at hmem
  have hpayload : column = payload ↔ name = options.payloadField := by
    rw [← findIdx?_eq_some_iff_name distinct hmem.1, found, Option.some_inj]
    exact eq_comm
  have hid : some column = names.findIdx? (· == options.idField) ↔ name = options.idField := by
    rw [← findIdx?_eq_some_iff_name distinct hmem.1]
    exact eq_comm
  rw [Bool.eq_iff_iff]
  simp only [isOther, Bool.and_eq_true, Bool.not_eq_true', beq_eq_false_iff_ne, bne_iff_ne,
    ne_eq, hpayload, hid]

/-- What is left of the fields without those that have a meaning. -/
theorem erase_rowFields
    (unnamed : options.metadataField ∉ names) :
    Keyed.erase options.metadataField (Keyed.erase options.idField
      (Keyed.erase options.payloadField (rowFields options names cells))) =
        ((names.zip cells).filter fun pair => isOther options pair.1).map
          fun pair => (pair.1, .string pair.2) := by
  simp only [Keyed.erase, rowFields, List.filter_map, List.filter_filter]
  congr 1
  refine List.filter_congr fun ⟨name, cell⟩ hmem => ?_
  have hname : name ≠ options.metadataField := by
    rintro rfl
    exact unnamed (List.of_mem_zip hmem).1
  rw [Bool.eq_iff_iff]
  simp only [isOther, isFilled, Function.comp_apply, Bool.and_eq_true, Bool.not_eq_true',
    bne_iff_ne, beq_eq_false_iff_ne, Bool.and_eq_false_iff, Bool.or_eq_false_iff]
  exact ⟨fun h => ⟨h.2.2.1, h.2.1⟩, fun h => ⟨hname, h.2, h.1, .inr ⟨h.2, h.1⟩⟩⟩

/-- The cells of the other columns are the other fields. -/
theorem rowMetadata_eq
    (distinct : names.Nodup)
    (unnamed : options.metadataField ∉ names)
    {payload : Nat}
    (found : names.findIdx? (· == options.payloadField) = some payload) :
    rowMetadata ⟨names, payload, names.findIdx? (· == options.idField)⟩ cells =
      Keyed.erase options.metadataField (Keyed.erase options.idField
        (Keyed.erase options.payloadField (Keyed.sort (rowFields options names cells)))) := by
  have hzip : (names.zip cells).zipIdx.map Prod.fst = names.zip cells := List.zipIdx_map_fst 0 _
  rw [Keyed.erase_sort, Keyed.erase_sort, Keyed.erase_sort, erase_rowFields unnamed, rowMetadata]
  simp only [filter_columns distinct found]
  conv => rhs; rw [← hzip, List.filter_map, List.map_map]
  rfl

end Columns

section Records

variable {options : Options} {names cells : List String} {payload index : Nat}

/-- In the columns with a meaning only empty cells are left out. -/
theorem isFilled_of_meaning
    {name : String}
    (meaning : name = options.idField ∨ name = options.payloadField)
    (cell : String) :
    isFilled options name cell = !cell.isEmpty := by
  rcases meaning with rfl | rfl <;> simp [isFilled]

theorem payloadOf_rowFields
    (distinct : names.Nodup)
    (width : cells.length = names.length)
    (found : names.findIdx? (· == options.payloadField) = some payload) :
    payloadOf options index (Keyed.sort (rowFields options names cells)) =
      if (cells.getD payload "").isEmpty then
        .error (.missingField index options.payloadField)
      else .ok (.string (cells.getD payload "")) := by
  have hcell : cellOf? names cells options.payloadField = cells[payload]? := by
    rw [cellOf?, found]
    rfl
  rw [payloadOf, find?_rowFields distinct width, hcell, List.getD_eq_getElem?_getD]
  cases hpayload : cells[payload]? with
  | none => rfl
  | some cell =>
      cases hempty : cell.isEmpty <;> simp [Option.filter, isFilled_of_meaning (.inr rfl), hempty]

theorem explicitIdOf_rowFields
    (index : Nat)
    (distinct : names.Nodup)
    (width : cells.length = names.length)
    (apart : options.idField ≠ options.payloadField)
    (trimmed : ∀ cell ∈ cells, trim cell.toList = cell.toList) :
    explicitIdOf options index (Keyed.erase options.payloadField
      (Keyed.sort (rowFields options names cells))) =
        .ok ((cellOf? names cells options.idField).filter fun cell => !cell.isEmpty) := by
  rw [explicitIdOf, Keyed.find?_erase, if_neg apart, find?_rowFields distinct width]
  cases hid : cellOf? names cells options.idField with
  | none => rfl
  | some cell =>
      have hcell : cell ∈ cells := (List.of_mem_zip ((cellOf?_eq_some_iff distinct).mp hid)).2
      have htrim := trimmed cell hcell
      cases hempty : cell.isEmpty with
      | true => simp [Option.filter, isFilled_of_meaning (.inl rfl), hempty]
      | false =>
          have hfilled : cell ≠ "" := by
            rintro rfl
            cases hempty
          simp [Option.filter, isFilled_of_meaning (.inl rfl), hempty, hfilled, trimText, htrim]

theorem explicitMetadataOf_rowFields
    (distinct : names.Nodup)
    (width : cells.length = names.length)
    (unnamed : options.metadataField ∉ names) :
    explicitMetadataOf options index (Keyed.erase options.idField (Keyed.erase options.payloadField
      (Keyed.sort (rowFields options names cells)))) = .ok [] := by
  have hnone : cellOf? names cells options.metadataField = none := by
    rw [Option.eq_none_iff_forall_ne_some]
    intro cell hcell
    exact unnamed (List.of_mem_zip ((cellOf?_eq_some_iff distinct).mp hcell)).1
  rw [explicitMetadataOf, Keyed.find?_erase, Keyed.find?_erase, find?_rowFields distinct width,
    hnone]
  simp only [Option.filter_none, Option.map_none, ite_self]

/-- A row and its object name the same id. -/
theorem explicit?_row
    (distinct : names.Nodup)
    (width : cells.length = names.length)
    (suits : Suits options names)
    (trimmed : ∀ cell ∈ cells, trim cell.toList = cell.toList) :
    (Record.row ⟨names, payload, names.findIdx? (· == options.idField)⟩ cells).explicit? options =
      (Record.value (rowObject options names cells)).explicit? options := by
  have hid := explicitIdOf_rowFields 0 distinct width suits.apart trimmed
  exact (find?_of_explicitIdOf hid).symm

/-- A row and its object have the same payload and annotations, or lack the payload. -/
theorem draft_row
    (distinct : names.Nodup)
    (width : cells.length = names.length)
    (suits : Suits options names)
    (found : names.findIdx? (· == options.payloadField) = some payload)
    (trimmed : ∀ cell ∈ cells, trim cell.toList = cell.toList) :
    (Record.row ⟨names, payload, names.findIdx? (· == options.idField)⟩ cells).draft options index =
      (Record.value (rowObject options names cells)).draft options index := by
  simp only [Record.draft, rowObject, payloadOf_rowFields distinct width found]
  split
  case isTrue => rfl
  case isFalse =>
      simp only [explicitIdOf_rowFields index distinct width suits.apart trimmed,
        explicitMetadataOf_rowFields distinct width suits.unnamed,
        rowMetadata_eq distinct suits.unnamed found]
      rfl

/-- A row and its object make the same item, or the same error. -/
theorem number_row
    (distinct : names.Nodup)
    (width : cells.length = names.length)
    (suits : Suits options names)
    (found : names.findIdx? (· == options.payloadField) = some payload)
    (trimmed : ∀ cell ∈ cells, trim cell.toList = cell.toList)
    (taken : List String) :
    number options index taken
        (.ok (.row ⟨names, payload, names.findIdx? (· == options.idField)⟩ cells)) =
      number options index taken (.ok (.value (rowObject options names cells))) := by
  simp only [number, bind, Except.bind, explicit?_row distinct width suits trimmed,
    draft_row distinct width suits found trimmed]

theorem rowEntry_of_cells
    {row : Row} {columns : Columns}
    (text : Bytes)
    (read : row.cells = cells.map bytesOf)
    (width : cells.length = columns.names.length)
    (trimmed : ∀ cell ∈ cells, trim cell.toList = cell.toList) :
    rowEntry text columns index row = .ok (.row columns cells) := by
  have hdrop : row.cells.map (·.dropWhile isBlankByte) = cells.map bytesOf := by
    rw [read, List.map_map]
    exact List.map_congr_left fun cell hcell => dropWhile_bytesOf (trimmed cell hcell)
  have hlength : row.cells.length = columns.names.length := by
    rw [read, List.length_map, width]
  unfold rowEntry
  simp only [hlength, hdrop, cellTexts_bytesOf trimmed, ne_eq, not_true_eq_false, if_false]

end Records

section Tables

variable {separator : Char}

theorem Table.isPlainRow
    (table : Table separator) :
    ∀ cells ∈ table.names :: table.rows, isPlainRow separator cells = true := by
  intro cells hcells
  have hlength : 2 ≤ cells.length := by
    rcases List.mem_cons.mp hcells with rfl | hrow
    · exact table.several
    · exact table.several.trans_eq (table.width cells hrow).symm
  simp only [Input.isPlainRow, Bool.and_eq_true, decide_eq_true_eq, List.all_eq_true]
  refine ⟨hlength, fun cell hcell => ?_⟩
  have hclean := table.clean cells hcells cell hcell
  simp only [isCell, Bool.and_eq_true, List.all_eq_true] at hclean
  exact hclean.1

theorem Table.trimmed
    (table : Table separator) :
    ∀ cells ∈ table.names :: table.rows, ∀ cell ∈ cells, trim cell.toList = cell.toList := by
  intro cells hcells cell hcell
  have hclean := table.clean cells hcells cell hcell
  simp only [isCell, Bool.and_eq_true, beq_iff_eq] at hclean
  exact hclean.2

/-- Rows that were read off a text make the items of their objects. -/
theorem itemsFrom_rows
    (table : Table separator)
    {options : Options}
    (suits : Suits options table.names)
    {payload : Nat}
    (found : table.names.findIdx? (· == options.payloadField) = some payload)
    (text : Bytes)
    {others : List Row}
    (read : others.map Row.cells = table.rows.map (·.map bytesOf)) :
    itemsFrom
        (rowItem options text ⟨table.names, payload, table.names.findIdx? (· == options.idField)⟩)
        0 [] others =
      recordItems options (table.rows.map (rowObject options table.names)) := by
  have hread : List.Forall₂ (fun cells (row : Row) => cells.map bytesOf = row.cells)
      table.rows others := by
    rw [← List.forall₂_map_right_iff, ← List.forall₂_map_left_iff, List.forall₂_eq_eq_eq]
    exact read.symm
  have hrows := (List.forall₂_and_left _ _).mpr ⟨fun cells hcells => hcells, hread⟩
  refine itemsFrom_congr (List.forall₂_map_right_iff.mpr (hrows.imp ?_).flip) 0 []
  rintro cells row ⟨hcells, hsame⟩ index taken
  have htrimmed := table.trimmed cells (List.mem_cons_of_mem _ hcells)
  have hwidth := table.width cells hcells
  rw [rowItem_eq, rowEntry_of_cells text hsame.symm hwidth htrimmed,
    number_row table.distinct hwidth suits found htrimmed, recordItem_eq]

/-- A table and the list of the objects of its rows give the same items, or the same error. -/
theorem items_table_eq_records
    (separates : isSeparator separator = true)
    (table : Table separator)
    {options : Options}
    (suits : Suits options table.names)
    {text : List Char}
    (laid : Laid separator (table.names :: table.rows) text) :
    items options (.table (code separator)) (String.ofList text) =
      recordItems options (table.rows.map (rowObject options table.names)) := by
  have hrows := rows_of_laid separates laid table.isPlainRow
  obtain ⟨hnames, -⟩ := List.forall_mem_cons.mp table.trimmed
  obtain ⟨payload, hpayload⟩ : ∃ payload,
      table.names.findIdx? (· == options.payloadField) = some payload := by
    rw [← Option.isSome_iff_exists, List.findIdx?_isSome, List.any_eq_true]
    exact ⟨_, suits.present, beq_self_eq_true _⟩
  cases hread : rows (code separator) (encoded text) with
  | nil =>
      rw [hread] at hrows
      cases hrows
  | cons header others =>
      rw [hread, List.map_cons, List.map_cons] at hrows
      obtain ⟨hheader, hothers⟩ := List.cons.inj hrows
      unfold items tableItems
      simp only [bytesOf_ofList, hread, hheader, cellTexts_bytesOf hnames, columnsOf, hpayload,
        bind, Except.bind]
      exact itemsFrom_rows table suits hpayload (encoded text) hothers

/-- Rows of which the first one takes the id that the last one has. -/
def orders : Table ',' where
  names := ["id", "payload", "note"]
  rows := [["", "first", ""], ["b", "größer", "x y"], ["1", "last", "taken"]]
  several := by decide
  distinct := by decide
  width := by decide
  clean := by decide +kernel

/-- Lines with different ends, an empty one among them, and an id that is taken. -/
theorem items_table_eq_records_of_orders :
    let text := "id,payload,note\r\n,first,\n\nb,größer,x y\r\n1,last,taken".toList
    items {} .commas (String.ofList text) =
        recordItems {} (orders.rows.map (rowObject {} orders.names)) ∧
      recordItems {} (orders.rows.map (rowObject {} orders.names)) =
        .error (.duplicateId "1" 2) := by
  intro text
  have hlast : Laid ',' [["1", "last", "taken"]] _ :=
    .row ["1", "last", "taken"] .nothing nofun
  have hthird : Laid ',' [["b", "größer", "x y"], ["1", "last", "taken"]] _ :=
    .line (c := '\r') ["b", "größer", "x y"] rfl (.lineEnd (c := '\n') rfl hlast)
  have hsecond : Laid ',' orders.rows _ :=
    .line (c := '\n') ["", "first", ""] rfl (.lineEnd (c := '\n') rfl hthird)
  have hlaid : Laid ',' (orders.names :: orders.rows) text :=
    .line orders.names rfl (.lineEnd rfl hsecond)
  have hsuits : Suits {} orders.names := ⟨by decide, by decide, by decide⟩
  exact ⟨items_table_eq_records (by decide) orders hsuits hlaid, rfl⟩

-- Tables whose cells are separated by commas or tabulators are such tables.
example :
    (Format.commas = .table (code ',') ∧ isSeparator ',' = true) ∧
      Format.tabs = .table (code '\t') ∧ isSeparator '\t' = true :=
  ⟨⟨rfl, rfl⟩, rfl, rfl⟩

end Tables

end Input
end BatchRun
