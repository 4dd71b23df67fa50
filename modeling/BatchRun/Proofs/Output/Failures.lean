import BatchRun.Proofs.Output.History

/-!
# Locations after failed appends

**Input.**
A sink that is open after any history, in which appends may have failed and left any first part of
their lines.

**Results.**
* `told_of_follow?`: the next record stands behind the bytes that failed appends have left, and its
  line has a number that is higher than the one in its location by the number of whole lines that
  they have left.  The locations in a file are right for every item iff nothing is owed.
* `told_of_tornDeeds`: half a record is left and the next record is glued to it.
-/

namespace BatchRun
namespace Output

open Number
open RecordFile
open Storage
open Text
open BatchRun.Tree

section Telling

variable {directory : Path} {tree : Tree} {o : Output} {sink : Sink} {debts : String → Debt}
  {name : String} {item : Item}

/-- Every location that the sink gives next in a file names the line of its record. -/
def Tells (directory : Path) (tree : Tree) (sink : Sink) (name : String) : Prop :=
  ∀ item after next location, item.recordName = name →
    sink.persist tree item = (after, next, .ok location) → Names directory next location item

/-- Where the next record is and what its location tells. -/
theorem located_of_ready
    (ready : Sink.Ready directory tree debts sink)
    (item : Item) :
    ∃ after next bytes,
      sink.persist tree item = (after, next,
        .ok (item.recordName ++ ":" ++ natText ((sink.fileOf item).lines + 1))) ∧
      next.read (directory.join ⟨item.recordName⟩) = .ok bytes ∧
      (completeLines bytes)[(sink.fileOf item).lines + (debts item.recordName).whole]? =
        some ((debts item.recordName).left ++ item.recordLine) := by
  obtain ⟨after, next, hpersisted⟩ := Sink.persisted_of_ready ready item
  have hfiled := Sink.filed_fileOf ready item
  obtain ⟨bytes, hread, hline⟩ :=
    line_written hfiled item.lineEnd_not_mem_recordLine hpersisted.adds
  exact ⟨after, next, bytes, hpersisted.answer, hread, hline⟩

theorem tells_of_settled
    (ready : Sink.Ready directory tree debts sink)
    (settled : debts name = {}) :
    Tells directory tree sink name := by
  rintro item after next location rfl hanswer
  obtain ⟨other, changed, bytes, hpersist, hread, hline⟩ := located_of_ready ready item
  rw [hanswer] at hpersist
  cases hpersist
  rw [settled] at hline
  exact ⟨(sink.fileOf item).lines, bytes, rfl, hread, by simpa using hline⟩

/-- Two items whose records go to the same file and differ. -/
theorem exists_records
    (h : name = Sink.resultsName ∨ name = Sink.errorsName) :
    ∃ item other : Item, item.recordName = name ∧ other.recordName = name ∧
      item.recordLine ≠ other.recordLine := by
  rcases h with rfl | rfl
  · exact ⟨sampleItem 0 .success, sampleItem 1 .success, rfl, rfl, by decide +kernel⟩
  · exact ⟨sampleItem 0 .failed, sampleItem 1 .failed, rfl, rfl, by decide +kernel⟩

/-- The line that a location names, if nothing but the record is added. -/
theorem line_of_tells
    (ready : Sink.Ready directory tree debts sink)
    (tells : Tells directory tree sink item.recordName) :
    ∃ bytes, tree.read (directory.join ⟨item.recordName⟩) = .ok bytes ∧
      (completeLines bytes).length =
        (sink.fileOf item).lines + (debts item.recordName).whole ∧
      (completeLines bytes ++ [(debts item.recordName).left ++ item.recordLine])[
        (sink.fileOf item).lines]? = some item.recordLine := by
  obtain ⟨after, next, hpersisted⟩ := Sink.persisted_of_ready ready item
  obtain ⟨bytes, hread, hlength, hleft⟩ := (Sink.filed_fileOf ready item).held
  obtain ⟨n, now, hlocation, hnow, hline⟩ := tells item after next _ rfl hpersisted.answer
  have hnumber := (eq_of_location_eq hlocation).2
  rw [hpersisted.adds.file _ bytes hread rfl] at hnow
  cases hnow
  rw [completeLines_written bytes item.lineEnd_not_mem_recordLine, hleft] at hline
  refine ⟨bytes, hread, hlength, ?_⟩
  rw [Nat.succ.inj hnumber, hline]

/-- Only where nothing is owed are all locations right. -/
theorem settled_of_tells
    (ready : Sink.Ready directory tree debts sink)
    (known : name = Sink.resultsName ∨ name = Sink.errorsName)
    (tells : Tells directory tree sink name) :
    debts name = {} := by
  obtain ⟨item, other, rfl, hother, hne⟩ := exists_records known
  obtain ⟨bytes, hread, hlength, hline⟩ := line_of_tells ready tells
  rw [← hother] at tells
  obtain ⟨others, hothers, -, hline'⟩ := line_of_tells ready tells
  rw [Sink.fileOf_of_recordName sink hother, hother] at hline'
  rw [hother, hread] at hothers
  cases hothers
  rcases Nat.eq_zero_or_pos (debts item.recordName).whole with hzero | hpos
  · -- the line is the new one
    rw [hzero, Nat.add_zero] at hlength
    rw [← hlength, List.getElem?_concat_length, Option.some.injEq,
      List.append_left_eq_self] at hline
    exact Debt.ext hzero hline
  · -- the line is an old one, and the same for both
    have hold : (sink.fileOf item).lines < (completeLines bytes).length := by omega
    rw [List.getElem?_append_left hold] at hline hline'
    rw [hline] at hline'
    exact absurd (Option.some.inj hline') hne

/-- What the locations of an open sink tell from now on. -/
structure Told (directory : Path) (tree : Tree) (sink : Sink) (debts : String → Debt) : Prop where
  located : ∀ item, ∃ n after next bytes,
    sink.persist tree item = (after, next, .ok (item.recordName ++ ":" ++ natText (n + 1))) ∧
      next.read (directory.join ⟨item.recordName⟩) = .ok bytes ∧
      (completeLines bytes)[n + (debts item.recordName).whole]? =
        some ((debts item.recordName).left ++ item.recordLine)
  tells_iff : ∀ name, name = Sink.resultsName ∨ name = Sink.errorsName →
    (Tells directory tree sink name ↔ debts name = {})

/-- What the next location tells depends on what failed appends have left since the sink was
opened. -/
theorem told_of_follow?
    {deeds : List Deed}
    (h : follow? directory { tree } deeds = some o)
    (open_sink : o.sink = some sink) :
    Told directory o.tree sink (owed deeds) := by
  have hstart : Sound directory (fun _ => {}) { tree } := by
    intro sink hsink
    cases hsink
  have hready : Sink.Ready directory o.tree (owed deeds) sink :=
    (sound_of_follow? hstart h).2 sink open_sink
  constructor
  · exact fun item => ⟨_, located_of_ready hready item⟩
  · exact fun name known => ⟨settled_of_tells hready known, tells_of_settled hready⟩

/-- A sink whose first append has failed. -/
def tornDeeds : List Deed := [.opens, .fails (sampleItem 1 .success) 8]

/-- A record is glued to what is left of the one before. -/
theorem told_of_tornDeeds :
    ∃ o sink, follow? ⟨"out"⟩ { tree := {} } tornDeeds = some o ∧ o.sink = some sink ∧
      owed tornDeeds Sink.resultsName = { left := bytesOf "\x7b\"id\":\"1" } ∧
      ¬ Tells ⟨"out"⟩ o.tree sink Sink.resultsName := by
  have hopen : ((follow? ⟨"out"⟩ { tree := {} } tornDeeds).bind Output.sink).isSome := by
    decide +kernel
  obtain ⟨sink, hsink⟩ := Option.isSome_iff_exists.mp hopen
  obtain ⟨o, ho, hsink⟩ := Option.bind_eq_some_iff.mp hsink
  have howed : owed tornDeeds Sink.resultsName = { left := bytesOf "\x7b\"id\":\"1" } := by
    decide +kernel
  refine ⟨o, sink, ho, hsink, howed, fun htells => ?_⟩
  have hsettled := ((told_of_follow? ho hsink).tells_iff _ (.inl rfl)).mp htells
  rw [howed] at hsettled
  exact absurd hsettled (by decide +kernel)

end Telling

end Output
end BatchRun
