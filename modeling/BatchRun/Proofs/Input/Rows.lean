import BatchRun.Input.Csv
import BatchRun.Proofs.Json.Spelling

/-!
# Rows of cells that stand for themselves

**Type.**
Rows of cells are `Laid` out in a text if each one has a line of its own.  A line ends with a line
feed, a carriage return or both, empty lines may follow it, and the last one needs no end.

**Results.**
* `code_not_mem_encodeChar`: a character of ASCII is not among the bytes of another character.
* `rowCells_row`: the cells of a row are read up to the end of its line.
* `rows_of_laid`: a text is cut into the rows that are laid out in it.
-/

namespace BatchRun
namespace Input

open Json
open Text

/-- Whether a character ends a line. -/
def isLineEnd (c : Char) : Bool := c == '\n' || c == '\r'

/-- Whether a character can stand between cells. -/
def isSeparator (c : Char) : Bool := decide (c.toNat < 128) && c != '"' && !isLineEnd c

/-- Whether a character stands for itself in a cell. -/
def isCellChar (separator c : Char) : Bool :=
  c != separator && c != '"' && !isLineEnd c && c != '\ufeff'

/-- Whether cells stand for themselves in a row, which is not taken for an empty line. -/
def isPlainRow (separator : Char) (cells : List String) : Bool :=
  decide (2 ≤ cells.length) && cells.all fun cell => cell.toList.all (isCellChar separator)

/-- Cells with separators between them. -/
def rowText (separator : Char) (cells : List String) : List Char :=
  separated [separator] (cells.map String.toList)

/-- Rows on lines of their own. -/
inductive Laid (separator : Char) : (rows : List (List String)) → (text : List Char) → Prop
  | nothing : Laid separator [] []
  | lineEnd
      {c : Char}
      {rows : List (List String)}
      {text : List Char}
      (ends : isLineEnd c = true)
      (others : Laid separator rows text) :
      Laid separator rows (c :: text)
  | row
      (cells : List String)
      {rows : List (List String)}
      {text : List Char}
      (others : Laid separator rows text)
      (ended : ∀ c ∈ text.head?, isLineEnd c = true) :
      Laid separator (cells :: rows) (rowText separator cells ++ text)

/-- A row whose line has an end. -/
theorem Laid.line
    {separator c : Char}
    {rows : List (List String)} {text : List Char}
    (cells : List String)
    (ends : isLineEnd c = true)
    (others : Laid separator rows text) :
    Laid separator (cells :: rows) (rowText separator cells ++ c :: text) := by
  refine .row cells (.lineEnd ends others) fun first hfirst => ?_
  rw [← Option.some.inj hfirst]
  exact ends

section Bytes

variable {separator c d : Char} {byte : UInt8}

/-- A character of ASCII is not among the bytes of another character. -/
theorem code_not_mem_encodeChar
    (ascii : d.toNat < 128)
    (ne : c ≠ d) :
    code d ∉ String.utf8EncodeChar c := by
  intro hmem
  have hcode : (code d).toNat = d.toNat := toNat_toUInt8 ascii
  by_cases hc : c.toNat < 128
  · rw [encodeChar_of_lt hc, List.mem_singleton] at hmem
    have hsame : d.toNat = c.toNat := by
      rw [← hcode, hmem, toNat_toUInt8 hc]
    exact ne (Char.toNat_inj.mp hsame.symm)
  · have hhigh := high_of_mem_encodeChar (Nat.le_of_not_lt hc) hmem
    omega

/-- A byte that stands for itself in a cell. -/
structure Plain (separator : UInt8) (byte : UInt8) : Prop where
  unquoted : byte ≠ 34
  inside : byte ≠ separator
  unended : endsRow byte = false

theorem endsRow_code
    (ends : isLineEnd c = true) :
    endsRow (code c) = true := by
  simp only [isLineEnd, Bool.or_eq_true, beq_iff_eq] at ends
  rcases ends with rfl | rfl <;> rfl

theorem ascii_of_isLineEnd
    (ends : isLineEnd c = true) :
    c.toNat < 128 := by
  simp only [isLineEnd, Bool.or_eq_true, beq_iff_eq] at ends
  rcases ends with rfl | rfl <;> decide

/-- The bytes of a character are those of none that has a meaning. -/
theorem not_endsRow
    (inside : isLineEnd c = false)
    (hbyte : byte ∈ String.utf8EncodeChar c) :
    endsRow byte = false := by
  simp only [isLineEnd, Bool.or_eq_false_iff, beq_eq_false_iff_ne] at inside
  have hfeed : byte ≠ 10 := by
    rintro rfl
    exact code_not_mem_encodeChar (d := '\n') (by decide) inside.1 hbyte
  have hreturn : byte ≠ 13 := by
    rintro rfl
    exact code_not_mem_encodeChar (d := '\r') (by decide) inside.2 hbyte
  simp [endsRow, hfeed, hreturn]

theorem ascii_of_isSeparator
    (separates : isSeparator separator = true) :
    separator.toNat < 128 := by
  simp only [isSeparator, Bool.and_eq_true, decide_eq_true_eq] at separates
  exact separates.1.1

theorem plain_of_isCellChar
    (separates : isSeparator separator = true)
    (h : isCellChar separator c = true)
    (hbyte : byte ∈ String.utf8EncodeChar c) :
    Plain (code separator) byte := by
  simp only [isCellChar, Bool.and_eq_true, bne_iff_ne, Bool.not_eq_true'] at h
  obtain ⟨⟨⟨hseparator, hquote⟩, hend⟩, -⟩ := h
  refine ⟨?_, ?_, not_endsRow hend hbyte⟩
  · rintro rfl
    exact code_not_mem_encodeChar (d := '"') (by decide) hquote hbyte
  · rintro rfl
    exact code_not_mem_encodeChar (ascii_of_isSeparator separates) hseparator hbyte

theorem plain_of_cell
    {cell : List Char}
    (separates : isSeparator separator = true)
    (h : ∀ c ∈ cell, isCellChar separator c = true)
    (hbyte : byte ∈ encoded cell) :
    Plain (code separator) byte := by
  obtain ⟨c, hc, hmem⟩ := List.mem_flatMap.mp hbyte
  exact plain_of_isCellChar separates (h c hc) hmem

/-- A separator is neither a quotation mark nor the end of a row. -/
theorem bounds_of_isSeparator
    (separates : isSeparator separator = true) :
    code separator ≠ 34 ∧ endsRow (code separator) = false := by
  simp only [isSeparator, Bool.and_eq_true, decide_eq_true_eq, bne_iff_ne, Bool.not_eq_true']
    at separates
  obtain ⟨⟨hascii, hquote⟩, hend⟩ := separates
  have hbytes : String.utf8EncodeChar separator = [code separator] := encodeChar_of_lt hascii
  refine ⟨fun heq => ?_, not_endsRow hend (hbytes ▸ List.mem_singleton_self _)⟩
  have hmem : code '"' ∈ String.utf8EncodeChar separator := by
    rw [hbytes, heq]
    exact List.mem_singleton_self _
  exact code_not_mem_encodeChar (by decide) hquote hmem

/-- The bytes of a mark at the start of a text are those of one character. -/
theorem eq_mark_of_encoded
    {cs : List Char} {rest : Bytes}
    (h : encoded (c :: cs) = 0xEF :: 0xBB :: 0xBF :: rest) :
    c = '\ufeff' := by
  rw [encoded_cons] at h
  have hnumber : c.val.toNat = 0xFEFF := by
    unfold String.utf8EncodeChar at h
    simp only at h
    -- Only of three bytes the first one can be that of the mark.
    split at h
    case isTrue hle =>
        have hfirst : c.val.toNat % 256 = 0xEF := by
          simpa using congrArg UInt8.toNat (List.cons.inj h).1
        omega
    case isFalse =>
        split at h
        case isTrue =>
            have hfirst := congrArg UInt8.toNat (List.cons.inj h).1
            simp only [UInt8.toNat_ofNat', UInt8.reduceToNat] at hfirst
            omega
        case isFalse =>
            split at h
            case isTrue =>
                obtain ⟨hfirst, h⟩ := List.cons.inj h
                obtain ⟨hsecond, h⟩ := List.cons.inj h
                have hfirst := congrArg UInt8.toNat hfirst
                have hsecond := congrArg UInt8.toNat hsecond
                have hthird := congrArg UInt8.toNat (List.cons.inj h).1
                simp only [UInt8.toNat_ofNat', UInt8.reduceToNat] at hfirst hsecond hthird
                omega
            case isFalse =>
                have hfirst := congrArg UInt8.toNat (List.cons.inj h).1
                simp only [UInt8.toNat_ofNat', UInt8.reduceToNat] at hfirst
                omega
  exact Char.toNat_inj.mp hnumber

end Bytes

section Cells

variable {separator : UInt8} {bytes rest : Bytes}

/-- What stands behind a row: nothing, or the end of its line. -/
def RowEnded (rest : Bytes) : Prop := ∀ byte ∈ rest.head?, endsRow byte = true

/-- What stands behind a cell: nothing, a separator, or the end of the line. -/
def CellEnded (separator : UInt8) (rest : Bytes) : Prop :=
  ∀ byte ∈ rest.head?, byte = separator ∨ endsRow byte = true

theorem rowCells_append
    (plain : ∀ byte ∈ bytes, Plain separator byte)
    (cell : Bytes)
    (cells : List Bytes) :
    rowCells separator .plain cell cells (bytes ++ rest) =
      rowCells separator .plain (bytes.reverse ++ cell) cells rest := by
  induction bytes generalizing cell with
  | nil => rfl
  | cons byte bytes ih =>
      obtain ⟨hbyte, hbytes⟩ := List.forall_mem_cons.mp plain
      rw [List.cons_append, rowCells, if_neg hbyte.inside, if_neg (by simp [hbyte.unended]),
        ih hbytes, List.reverse_cons, List.append_assoc, List.singleton_append]

/-- The bytes of a cell are read, and what is behind it decides how it goes on. -/
theorem rowCells_cell
    (unquoted : separator ≠ 34)
    (plain : ∀ byte ∈ bytes, Plain separator byte)
    (bounded : CellEnded separator rest)
    (cells : List Bytes) :
    rowCells separator .start [] cells (bytes ++ rest) =
      rowCells separator .plain bytes.reverse cells rest := by
  cases bytes with
  | nil =>
      cases rest with
      | nil => rfl
      | cons byte rest =>
          have hquote : byte ≠ 34 := by
            rintro rfl
            rcases bounded 34 rfl with hsame | hend
            · exact unquoted hsame.symm
            · exact absurd hend (by decide)
          rw [List.nil_append, rowCells, if_neg hquote, List.reverse_nil, rowCells]
          split
          case isTrue => rfl
          case isFalse hseparator =>
              have hend := (bounded byte rfl).resolve_left hseparator
              rw [if_pos hend, if_pos hend]
              rfl
  | cons byte bytes =>
      obtain ⟨hbyte, hbytes⟩ := List.forall_mem_cons.mp plain
      rw [List.cons_append, rowCells, if_neg hbyte.unquoted, if_neg hbyte.inside,
        if_neg (by simp [hbyte.unended]), rowCells_append hbytes, List.reverse_cons]

/-- The cells of a row are read up to the end of its line. -/
theorem rowCells_row
    {cell : Bytes} {cells : List Bytes}
    (unquoted : separator ≠ 34)
    (unended : endsRow separator = false)
    (plain : ∀ bytes ∈ cell :: cells, ∀ byte ∈ bytes, Plain separator byte)
    (ended : RowEnded rest)
    (done : List Bytes) :
    rowCells separator .start [] done (cell ++ cells.flatMap (separator :: ·) ++ rest) =
      (done.reverse ++ cell :: cells, rest.drop 1) := by
  induction cells generalizing cell done with
  | nil =>
      obtain ⟨hcell, -⟩ := List.forall_mem_cons.mp plain
      rw [List.flatMap_nil, List.append_nil,
        rowCells_cell unquoted hcell (fun byte hbyte => .inr (ended byte hbyte))]
      cases rest with
      | nil => simp [rowCells]
      | cons byte rest =>
          have hend := ended byte rfl
          have hseparator : byte ≠ separator := by
            rintro rfl
            rw [hend] at unended
            cases unended
          rw [rowCells, if_neg hseparator, if_pos hend]
          simp
  | cons next cells ih =>
      obtain ⟨hcell, hcells⟩ := List.forall_mem_cons.mp plain
      have hbounded : CellEnded separator
          (separator :: (next ++ cells.flatMap (separator :: ·) ++ rest)) := fun byte hbyte =>
        .inl (Option.some.inj hbyte).symm
      rw [List.flatMap_cons, List.cons_append, List.append_assoc, List.cons_append,
        rowCells_cell unquoted hcell hbounded, rowCells, if_pos rfl, ih hcells,
        List.reverse_reverse, List.reverse_cons, List.append_assoc, List.singleton_append]

end Cells

section Loop

variable {separator : Char} {byte : UInt8} {text rest : Bytes}

theorem rowsLoop_skip
    (separator : UInt8)
    (ends : endsRow byte = true)
    (fuel : Nat) :
    (rowsLoop separator fuel (byte :: text)).map Row.cells =
      (rowsLoop separator fuel text).map Row.cells := by
  cases fuel with
  | zero => rfl
  | succ fuel =>
      rw [rowsLoop, rowsLoop, List.dropWhile_cons_of_pos ends]
      split <;> rfl

/-- The end of a line is behind its row as well as in front of the next one. -/
theorem rowsLoop_drop
    (separator : UInt8)
    (ended : RowEnded rest)
    (fuel : Nat) :
    (rowsLoop separator fuel (rest.drop 1)).map Row.cells =
      (rowsLoop separator fuel rest).map Row.cells := by
  cases rest with
  | nil => rfl
  | cons byte rest => exact (rowsLoop_skip separator (ended byte rfl) fuel).symm

theorem rowsLoop_row
    (separator : UInt8)
    (inside : endsRow byte = false)
    (fuel : Nat) :
    rowsLoop separator (fuel + 1) (byte :: text) =
      ⟨text.length + 1, (rowCells separator .start [] [] (byte :: text)).1⟩ ::
        rowsLoop separator fuel (rowCells separator .start [] [] (byte :: text)).2 := by
  rw [rowsLoop, List.dropWhile_cons_of_neg (by simp [inside])]
  rfl

variable {cells : List String} {rows : List (List String)} {cs : List Char}

/-- Bytes of the line of a row. -/
theorem encoded_rowText
    (separates : isSeparator separator = true)
    (cell : String)
    (cells : List String) :
    encoded (rowText separator (cell :: cells)) =
      bytesOf cell ++ (cells.map bytesOf).flatMap (code separator :: ·) := by
  have hbytes : bytesOf = encoded ∘ String.toList := funext bytesOf_eq_encoded
  rw [rowText, List.map_cons, encoded_separated (ascii_of_isSeparator separates), List.map_map,
    hbytes]
  rfl

theorem plain_of_isPlainRow
    (separates : isSeparator separator = true)
    (plain : isPlainRow separator cells = true) :
    ∀ bytes ∈ cells.map bytesOf, ∀ byte ∈ bytes, Plain (code separator) byte := by
  simp only [isPlainRow, Bool.and_eq_true, List.all_eq_true] at plain
  intro bytes hbytes byte hbyte
  obtain ⟨cell, hcell, rfl⟩ := List.mem_map.mp hbytes
  rw [bytesOf_eq_encoded] at hbyte
  exact plain_of_cell separates (plain.2 cell hcell) hbyte

/-- The line of a row begins with its first cell or with the separator behind it. -/
theorem exists_cons_of_row
    (separates : isSeparator separator = true)
    (plain : isPlainRow separator cells = true) :
    ∃ byte rest, encoded (rowText separator cells) = byte :: rest ∧ endsRow byte = false := by
  have hplain := plain_of_isPlainRow separates plain
  simp only [isPlainRow, Bool.and_eq_true, decide_eq_true_eq] at plain
  match cells, plain.1 with
  | cell :: next :: cells, _ =>
      rw [encoded_rowText separates]
      cases hcell : bytesOf cell with
      | nil => exact ⟨_, _, rfl, (bounds_of_isSeparator separates).2⟩
      | cons byte bytes =>
          have hbyte : byte ∈ bytesOf cell := hcell ▸ List.mem_cons_self
          exact ⟨_, _, rfl, (hplain _ List.mem_cons_self byte hbyte).unended⟩

theorem rowCells_rowText
    (separates : isSeparator separator = true)
    (plain : isPlainRow separator cells = true)
    (ended : RowEnded rest) :
    rowCells (code separator) .start [] [] (encoded (rowText separator cells) ++ rest) =
      (cells.map bytesOf, rest.drop 1) := by
  have hplain := plain_of_isPlainRow separates plain
  obtain ⟨hunquoted, hunended⟩ := bounds_of_isSeparator separates
  cases cells with
  | nil => cases plain
  | cons cell cells =>
      rw [encoded_rowText separates]
      exact rowCells_row hunquoted hunended hplain ended []

theorem ended_of_head
    (h : ∀ c ∈ cs.head?, isLineEnd c = true) :
    RowEnded (encoded cs) := by
  intro byte hbyte
  cases cs with
  | nil => cases hbyte
  | cons c cs =>
      have hend := h c rfl
      rw [encoded_ascii cs (ascii_of_isLineEnd hend)] at hbyte
      rw [← Option.some.inj hbyte]
      exact endsRow_code hend

/-- The rows that are laid out are read, one for each turn of the loop. -/
theorem rowsLoop_of_laid
    (separates : isSeparator separator = true)
    (laid : Laid separator rows cs)
    (plain : ∀ cells ∈ rows, isPlainRow separator cells = true)
    {fuel : Nat}
    (enough : (encoded cs).length < fuel) :
    (rowsLoop (code separator) fuel (encoded cs)).map Row.cells = rows.map (·.map bytesOf) := by
  induction laid generalizing fuel with
  | nothing =>
      cases fuel with
      | zero => rfl
      | succ fuel => rfl
  | lineEnd ends _ ih =>
      rw [encoded_ascii _ (ascii_of_isLineEnd ends)] at enough ⊢
      exact (rowsLoop_skip _ (endsRow_code ends) fuel).trans (ih plain (Nat.lt_of_succ_lt enough))
  | @row cells _ text _ ended ih =>
      obtain ⟨hcells, hrows⟩ := List.forall_mem_cons.mp plain
      obtain ⟨byte, bytes, hbytes, hinside⟩ := exists_cons_of_row separates hcells
      have hread := rowCells_rowText separates hcells (ended_of_head ended)
      rw [encoded_append, hbytes, List.cons_append] at enough
      rw [hbytes, List.cons_append] at hread
      rw [encoded_append, hbytes, List.cons_append]
      -- What is behind the row still has the end of its line, which the induction speaks of.
      cases fuel with
      | zero => cases enough
      | succ fuel =>
          have hfuel : (encoded text).length < fuel := by
            rw [List.length_cons, List.length_append] at enough
            omega
          rw [rowsLoop_row _ hinside, hread, List.map_cons, rowsLoop_drop _ (ended_of_head ended),
            ih hrows hfuel, List.map_cons]

theorem withoutByteOrderMark_encoded
    (h : '\ufeff' ∉ cs) :
    withoutByteOrderMark (encoded cs) = encoded cs := by
  unfold withoutByteOrderMark
  split
  case h_1 rest hmark =>
      cases cs with
      | nil => cases hmark
      | cons c cs =>
          rw [eq_mark_of_encoded hmark] at h
          exact absurd List.mem_cons_self h
  case h_2 => rfl

theorem unmarked_of_rowText
    (separates : isSeparator separator = true)
    (plain : isPlainRow separator cells = true) :
    '\ufeff' ∉ rowText separator cells := by
  simp only [isPlainRow, Bool.and_eq_true, List.all_eq_true] at plain
  have hseparator : '\ufeff' ≠ separator := by
    rintro rfl
    exact absurd (ascii_of_isSeparator separates) (by decide)
  have hcell : ∀ cell ∈ cells, '\ufeff' ∉ cell.toList := fun cell hcell hmem => by
    have hchar := plain.2 cell hcell _ hmem
    simp [isCellChar] at hchar
  cases cells with
  | nil => exact List.not_mem_nil
  | cons cell cells =>
      obtain ⟨hfirst, hothers⟩ := List.forall_mem_cons.mp hcell
      rw [rowText, List.map_cons, separated_cons]
      simp only [List.mem_append, List.mem_flatMap, List.mem_map, List.mem_singleton]
      rintro (hmem | ⟨_, ⟨other, hother, rfl⟩, hmem | hmem⟩)
      · exact hfirst hmem
      · exact hseparator hmem
      · exact hothers other hother hmem

theorem unmarked_of_laid
    (separates : isSeparator separator = true)
    (laid : Laid separator rows cs)
    (plain : ∀ cells ∈ rows, isPlainRow separator cells = true) :
    '\ufeff' ∉ cs := by
  induction laid with
  | nothing => exact List.not_mem_nil
  | lineEnd ends _ ih =>
      rw [List.mem_cons, not_or]
      refine ⟨?_, ih plain⟩
      rintro rfl
      exact absurd ends (by decide)
  | row cells _ _ ih =>
      obtain ⟨hcells, hrows⟩ := List.forall_mem_cons.mp plain
      rw [List.mem_append, not_or]
      exact ⟨unmarked_of_rowText separates hcells, ih hrows⟩

/-- A text is cut into the rows that are laid out in it. -/
theorem rows_of_laid
    (separates : isSeparator separator = true)
    (laid : Laid separator rows cs)
    (plain : ∀ cells ∈ rows, isPlainRow separator cells = true) :
    (Input.rows (code separator) (encoded cs)).map Row.cells = rows.map (·.map bytesOf) := by
  have hread := rowsLoop_of_laid separates laid plain (Nat.lt_succ_self _)
  unfold Input.rows
  rw [withoutByteOrderMark_encoded (unmarked_of_laid separates laid plain), ← hread]
  split
  case h_1 hnone => rw [hnone]
  case h_2 first others hsome => rw [hsome]; rfl

end Loop

end Input
end BatchRun
