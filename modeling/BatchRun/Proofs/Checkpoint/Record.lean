import BatchRun.Checkpoint.Basic
import BatchRun.Proofs.Keyed

/-!
# Recording entries

**Results.**
* `mem_of_mem_pointers_recordAll`: the pointers after some entries are old ones and those of the
  entries.
* `mem_completed_recordAll`: the items listed after some entries are the old ones and those of the
  entries.
* `pointer?_recordAll`: the last entry of an item gives its pointer, and without one it stays;
  `pointer?_recordAll_of_mem` and `pointer?_recordAll_of_not_mem` are the two cases.
-/

namespace BatchRun
namespace Checkpoint

variable {checkpoint : Checkpoint} {entries : List CheckpointEntry} {entry : CheckpointEntry}
  {id : String}

@[simp] theorem recordAll_cons
    (checkpoint : Checkpoint)
    (entry : CheckpointEntry)
    (entries : List CheckpointEntry) :
    checkpoint.recordAll (entry :: entries) = (checkpoint.record entry).recordAll entries :=
  rfl

theorem version_recordAll
    (checkpoint : Checkpoint)
    (entries : List CheckpointEntry) :
    (checkpoint.recordAll entries).version = checkpoint.version := by
  induction entries generalizing checkpoint with
  | nil => rfl
  | cons entry entries ih => exact ih (checkpoint.record entry)

theorem recordAll_savedAt
    (checkpoint : Checkpoint)
    (entries : List CheckpointEntry)
    (savedAt : Option Time.Timestamp) :
    recordAll { checkpoint with savedAt } entries =
      { checkpoint.recordAll entries with savedAt } := by
  induction entries generalizing checkpoint with
  | nil => rfl
  | cons entry entries ih => exact ih (checkpoint.record entry)

theorem savedAt_recordAll
    (checkpoint : Checkpoint)
    (entries : List CheckpointEntry) :
    (checkpoint.recordAll entries).savedAt = checkpoint.savedAt := by
  induction entries generalizing checkpoint with
  | nil => rfl
  | cons entry entries ih => exact ih (checkpoint.record entry)

theorem mem_of_mem_pointers_recordAll
    (h : entry ∈ (checkpoint.recordAll entries).pointers) :
    entry ∈ checkpoint.pointers ∨ entry ∈ entries := by
  induction entries generalizing checkpoint with
  | nil => exact .inl h
  | cons first entries ih =>
      rcases ih h with hold | hnew
      · rcases Keyed.mem_of_mem_insert hold with hfirst | hold
        · exact .inr (hfirst ▸ List.mem_cons_self)
        · exact .inl hold
      · exact .inr (List.mem_cons_of_mem first hnew)

theorem mem_completed_recordAll :
    id ∈ (checkpoint.recordAll entries).completed ↔
      id ∈ checkpoint.completed ∨ id ∈ entries.map Prod.fst := by
  induction entries generalizing checkpoint with
  | nil => simp
  | cons first entries ih =>
      rw [recordAll_cons, ih, record, Keyed.mem_insertKey, List.map_cons, List.mem_cons]
      rw [or_comm (a := id = first.1), or_assoc]

theorem pointer?_record
    (checkpoint : Checkpoint)
    (entry : CheckpointEntry)
    (id : String) :
    (checkpoint.record entry).pointer? id =
      if entry.1 = id then some entry.2 else checkpoint.pointer? id := by
  unfold pointer? record
  split
  case isTrue h =>
      rw [← h]
      exact Keyed.find?_insert_self entry.1 entry.2 checkpoint.pointers
  case isFalse h =>
      exact Keyed.find?_insert_ne (Ne.symm h)

/-- The last entry of an item gives its pointer. -/
theorem pointer?_recordAll
    (checkpoint : Checkpoint)
    (entries : List CheckpointEntry)
    (id : String) :
    (checkpoint.recordAll entries).pointer? id =
      (Keyed.find? entries.reverse id).or (checkpoint.pointer? id) := by
  induction entries generalizing checkpoint with
  | nil => rfl
  | cons entry entries ih =>
      rw [recordAll_cons, ih, pointer?_record, List.reverse_cons]
      unfold Keyed.find?
      rw [List.find?_append]
      cases List.find? (fun pair => pair.1 == id) entries.reverse with
      | some pair => rfl
      | none =>
          by_cases h : entry.1 = id
          · simp [h]
          · simp [h]

theorem pointer?_recordAll_of_not_mem
    (h : id ∉ entries.map Prod.fst) :
    (checkpoint.recordAll entries).pointer? id = checkpoint.pointer? id := by
  rw [pointer?_recordAll]
  cases hfind : Keyed.find? entries.reverse id with
  | none => rfl
  | some pointer =>
      refine absurd (List.mem_map.mpr ⟨(id, pointer), ?_, rfl⟩) h
      exact List.mem_reverse.mp (Keyed.mem_of_find? hfind)

theorem pointer?_recordAll_of_mem
    (h : id ∈ entries.map Prod.fst) :
    ∃ pointer, (checkpoint.recordAll entries).pointer? id = some pointer ∧
      (id, pointer) ∈ entries := by
  have hsome : (Keyed.find? entries.reverse id).isSome = true :=
    Keyed.isSome_find? (by simpa using h)
  obtain ⟨pointer, hfind⟩ := Option.isSome_iff_exists.mp hsome
  refine ⟨pointer, ?_, List.mem_reverse.mp (Keyed.mem_of_find? hfind)⟩
  rw [pointer?_recordAll, hfind]
  rfl

end Checkpoint
end BatchRun
