import BatchRun.Checkpoint.Store
import BatchRun.Proofs.Checkpoint.Record
import BatchRun.Proofs.Item.Document
import BatchRun.Proofs.Json.Answer

/-!
# Documents of checkpoints that are read back

**Type.**
A checkpoint is `Ordered` if its ids and its pointers are ascending and its version fits, and
`Storable` if its time of writing has a text as well.

**Results.**
* `ordered_recordAll`: entries keep a checkpoint ordered.
* `ordered_of_parse?`: what is read of any text is ordered.
* `parse?_text`: what is read of the text of a storable checkpoint is the checkpoint.
-/

namespace BatchRun

open Json
open Storage
open Text
open Time

namespace Checkpoint

/-- A checkpoint as the readers build it. -/
structure Ordered (checkpoint : Checkpoint) : Prop where
  version : checkpoint.version < Nat.pow 2 32
  completed : Keyed.Ascending checkpoint.completed
  pointers : Keyed.Ascending (checkpoint.pointers.map Prod.fst)

/-- An ordered checkpoint that can be written. -/
structure Storable (checkpoint : Checkpoint) : Prop extends Ordered checkpoint where
  savedAt : ∀ t, checkpoint.savedAt = some t → t.Civil

section Ordered

variable {checkpoint : Checkpoint}

theorem ordered_empty : Ordered {} where
  version := by decide
  completed := List.Pairwise.nil
  pointers := List.Pairwise.nil

theorem ordered_record
    (h : Ordered checkpoint)
    (entry : CheckpointEntry) :
    Ordered (checkpoint.record entry) where
  version := h.version
  completed := Keyed.ascending_insertKey h.completed
  pointers := Keyed.ascending_insert h.pointers

theorem ordered_recordAll
    (h : Ordered checkpoint)
    (entries : List CheckpointEntry) :
    Ordered (checkpoint.recordAll entries) := by
  induction entries generalizing checkpoint with
  | nil => exact h
  | cons entry entries ih => exact ih (ordered_record h entry)

theorem storable_grown
    {now : Timestamp}
    (h : Ordered checkpoint)
    (entries : List CheckpointEntry)
    (civil : now.Civil) :
    Storable (CheckpointStore.grown checkpoint entries now) where
  toOrdered :=
    { version := (ordered_recordAll h entries).version
      completed := (ordered_recordAll h entries).completed
      pointers := (ordered_recordAll h entries).pointers }
  savedAt t ht := by
    rw [← Option.some.inj ht]
    exact civil

end Ordered

section Reading

theorem accepts_pointer
    (depth : Nat)
    (pointer : ResultPointer) :
    Accepts (ResultPointer.reader (depth + 1)) pointer.document pointer := by
  obtain ⟨status, location⟩ := pointer
  have hstatus : Takes (ResultPointer.member depth) ("status", .string status.name) {}
      { status := some status } := by
    intro spacing level rest hrest
    exact bind_of_ok (fill_none "status" rfl (accepts_status depth status) hrest)
  cases location with
  | none => exact accepts_record rfl (.further hstatus (.none _)) fun rest => rfl
  | some location =>
      have hlocation : Takes (ResultPointer.member depth) ("location", .string location)
          { status := some status }
          { status := some status, location := some (some location) } := by
        intro spacing level rest hrest
        have hoptional := accepts_optional (accepts_text location) (fun _ h => nomatch h)
          (fun h => nomatch h)
        exact bind_of_ok (fill_none "location" rfl hoptional hrest)
      exact accepts_record rfl (.further hstatus (.further hlocation (.none _))) fun rest => rfl

section Fields

variable {fields : Fields} {depth : Nat}

theorem takes_version
    {version : Nat}
    (h : version < Nat.pow 2 32)
    (empty : fields.version = none) :
    Takes (member depth) ("version", .nat version) fields
      { fields with version := some version } := by
  intro spacing level rest hrest
  have hword : version ≤ maxWord := Nat.le_of_lt (Nat.lt_of_lt_of_le h (by decide))
  exact bind_of_ok (fill_none "version" empty (accepts_word h hword) hrest)

theorem accepts_ids
    {ids : List String}
    (h : Keyed.Ascending ids) :
    Accepts (idsReader (depth + 1)) (.array (ids.map Json.string)) ids := by
  have htexts : List.Forall₂ (Accepts Reader.text) (ids.map Json.string) ids := by
    rw [List.forall₂_map_left_iff]
    exact List.forall₂_same.mpr fun id _ => accepts_text id
  have hwhole : ∀ doc ∈ ids.map Json.string, ∀ x, doc ≠ .number (.real x) := by
    intro doc hdoc x
    obtain ⟨id, -, rfl⟩ := List.mem_map.mp hdoc
    exact fun h => nomatch h
  have hlist : Accepts (Reader.list (depth + 1) fun _ => Reader.text)
      (.array (ids.map Json.string)) ids :=
    accepts_list htexts hwhole
  have hsorted : ids.foldl (fun sorted id => Keyed.insertKey id sorted) [] = ids :=
    Keyed.foldl_insertKey h
  intro spacing level space rest hspace hrest
  refine (map_of_ok (hlist spacing level space rest hspace hrest)).trans ?_
  rw [hsorted]

theorem takes_completed
    {ids : List String}
    (h : Keyed.Ascending ids)
    (empty : fields.completed = none) :
    Takes (member (depth + 1)) ("completed_ids", .array (ids.map Json.string)) fields
      { fields with completed := some ids } := by
  intro spacing level rest hrest
  exact bind_of_ok (fill_none "completed_ids" empty (accepts_ids h) hrest)

theorem takes_pointers
    {pointers : List (String × ResultPointer)}
    (h : Keyed.Ascending (pointers.map Prod.fst))
    (empty : fields.pointers = none) :
    Takes (member (depth + 2))
      ("result_pointers", .object (pointers.map fun pair => (pair.1, pair.2.document))) fields
      { fields with pointers := some pointers } := by
  have hmap : Accepts (pointersReader (depth + 2))
      (.object (pointers.map fun pair => (pair.1, pair.2.document))) (Keyed.sort pointers) :=
    accepts_map fun pair _ => accepts_pointer depth pair.2
  rw [Keyed.sort_eq h] at hmap
  intro spacing level rest hrest
  exact bind_of_ok (fill_none "result_pointers" empty hmap hrest)

theorem takes_savedAt
    {t : Timestamp}
    (h : t.Civil)
    (empty : fields.savedAt = none) :
    Takes (member depth) ("saved_at", t.document) fields
      { fields with savedAt := some (some t) } := by
  have hoptional := accepts_optional (accepts_timestamp h) (fun _ h => nomatch h)
    (fun h => nomatch h)
  intro spacing level rest hrest
  exact bind_of_ok (fill_none "saved_at" empty hoptional hrest)

end Fields

/-- The document of a storable checkpoint is read as the checkpoint. -/
theorem accepts_document
    {checkpoint : Checkpoint}
    (depth : Nat)
    (h : checkpoint.Storable) :
    Accepts (reader (depth + 3)) checkpoint.document checkpoint := by
  obtain ⟨version, completed, pointers, savedAt⟩ := checkpoint
  cases savedAt with
  | none =>
      exact accepts_record rfl
        (.further (takes_version h.version rfl) (.further (takes_completed h.completed rfl)
          (.further (takes_pointers h.pointers rfl) (.none _))))
        fun rest => rfl
  | some t =>
      exact accepts_record rfl
        (.further (takes_version h.version rfl) (.further (takes_completed h.completed rfl)
          (.further (takes_pointers h.pointers rfl)
            (.further (takes_savedAt (h.savedAt t rfl) rfl) (.none _)))))
        fun rest => rfl

end Reading

/-- What is read of the text of a storable checkpoint is the checkpoint. -/
theorem parse?_text
    {checkpoint : Checkpoint}
    (h : checkpoint.Storable) :
    parse? checkpoint.text = .ok checkpoint := by
  have hread := whole_of_accepts (accepts_document 124 h) .pretty 0
  rw [chars_pretty] at hread
  unfold text pretty
  rw [bytesOf_ofList]
  exact hread

section Answers

/-- Fields that fit an ordered checkpoint. -/
structure Fields.Ordered (fields : Fields) : Prop where
  version : ∀ n, fields.version = some n → n < Nat.pow 2 32
  completed : ∀ ids, fields.completed = some ids → Keyed.Ascending ids
  pointers : ∀ pairs, fields.pointers = some pairs → Keyed.Ascending (pairs.map Prod.fst)

theorem gives_ids
    (depth : Nat) :
    Gives (idsReader depth) Keyed.Ascending :=
  gives_map (gives_trivial _) fun ids _ => Keyed.ascending_foldl_insertKey ids List.Pairwise.nil

theorem gives_pointers
    (depth : Nat) :
    Gives (pointersReader depth) fun pairs => Keyed.Ascending (pairs.map Prod.fst) := by
  rw [pointersReader, map_eq]
  refine gives_inObject (fun depth => ?_) depth
  refine gives_members (fun key pairs hpairs => ?_) ?_
  · refine gives_bind (gives_trivial _) fun _ _ => ?_
    refine gives_bind (gives_trivial _) fun pointer _ => ?_
    exact gives_pure (Keyed.ascending_insert hpairs)
  · exact List.Pairwise.nil

/-- A field keeps the fields fitting. -/
theorem gives_member
    (depth : Nat)
    (key : String)
    (fields : Fields)
    (h : fields.Ordered) :
    Gives (member depth key fields) Fields.Ordered := by
  unfold member
  split
  case isTrue =>
      refine gives_bind (gives_fill key _ (gives_word _ _)) fun n hn => gives_pure ?_
      refine { h with version := fun other hother => ?_ }
      cases hother
      exact hn
  case isFalse =>
      split
      case isTrue =>
          refine gives_bind (gives_fill key _ (gives_ids depth)) fun ids hids => gives_pure ?_
          refine { h with completed := fun other hother => ?_ }
          cases hother
          exact hids
      case isFalse =>
          split
          case isTrue =>
              refine gives_bind (gives_fill key _ (gives_pointers depth)) fun pairs hpairs =>
                gives_pure ?_
              refine { h with pointers := fun other hother => ?_ }
              cases hother
              exact hpairs
          case isFalse =>
              split
              case isTrue =>
                  refine gives_bind (gives_trivial _) fun saved _ => gives_pure ?_
                  exact ⟨h.version, h.completed, h.pointers⟩
              case isFalse => exact gives_ignore h

theorem ascending_getD
    {pairs : Option (List (String × ResultPointer))}
    (h : ∀ found, pairs = some found → Keyed.Ascending (found.map Prod.fst)) :
    Keyed.Ascending ((pairs.getD []).map Prod.fst) := by
  cases pairs with
  | none => exact List.Pairwise.nil
  | some found => exact h found rfl

theorem gives_reader
    (depth : Nat) :
    Gives (reader depth) Ordered := by
  refine gives_record (fun depth => ?_) (fun depth => ?_) depth
  · refine gives_bind (gives_members (gives_member depth) ⟨nofun, nofun, nofun⟩)
      fun fields hfields => ?_
    refine gives_bind (gives_required hfields.version) fun version hversion => ?_
    refine gives_bind (gives_required hfields.completed) fun completed hcompleted => ?_
    exact gives_pure ⟨hversion, hcompleted, ascending_getD hfields.pointers⟩
  · refine gives_bind (gives_element 0 _ (gives_word _ _)) fun version hversion => ?_
    refine gives_bind (gives_element 1 _ (gives_ids depth)) fun completed hcompleted => ?_
    refine gives_bind (gives_element? false (gives_pointers depth)) fun pointers hpointers => ?_
    refine gives_bind (gives_trivial _) fun savedAt _ => ?_
    exact gives_pure ⟨hversion, hcompleted, ascending_getD hpointers⟩

/-- What is read of any text is ordered. -/
theorem ordered_of_parse?
    {bytes : Bytes} {checkpoint : Checkpoint}
    (h : parse? bytes = .ok checkpoint) :
    checkpoint.Ordered :=
  of_whole (gives_reader maxDepth) h

end Answers

section Files

variable {path : Path} {tree : Tree} {checkpoint : Checkpoint}

/-- What is read of any file is ordered. -/
theorem ordered_of_read
    (h : read path tree = .ok checkpoint) :
    checkpoint.Ordered := by
  unfold read at h
  split at h
  case h_1 bytes _ =>
      unfold ofFile at h
      split at h
      case isTrue =>
          cases h
          exact ordered_empty
      case isFalse =>
          split at h
          case h_1 hparse =>
              cases h
              exact ordered_of_parse? hparse
          case h_2 => cases h
  case h_2 =>
      cases h
      exact ordered_empty
  case h_3 => cases h

theorem not_blank_text
    (checkpoint : Checkpoint) :
    checkpoint.text.all isBlankByte = false := by
  have htext : checkpoint.text = encoded (Spacing.pretty.chars 0 checkpoint.document) := by
    rw [text, pretty, bytesOf_ofList, chars_pretty]
  have hhead := fun parts => head_framed .pretty '{' '}' 0 parts (by decide)
  rw [htext, document, Spacing.chars]
  obtain ⟨bytes, hbytes⟩ := hhead (Spacing.pretty.fieldsChars (0 + 1) _)
  rw [hbytes]
  rfl

/-- A file with the text of a storable checkpoint is read as the checkpoint. -/
theorem read_text
    (h : checkpoint.Storable)
    (hread : tree.read path = .ok checkpoint.text) :
    read path tree = .ok checkpoint := by
  unfold read ofFile
  simp only [hread, not_blank_text, Bool.false_eq_true, if_false, parse?_text h]

end Files

end Checkpoint

end BatchRun
