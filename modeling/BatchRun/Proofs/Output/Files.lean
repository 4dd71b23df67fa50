import BatchRun.Proofs.Output.Lines
import BatchRun.Proofs.Storage.Tree

/-!
# Files that lines are added to

**Types.**
A change of a tree `KeepsLines` if every file keeps its complete lines at their numbers.  It `Adds`
bytes to a file if these stand behind what the file held and all other files are left.

**Results.**
* `append_eq_ok`: a file that can be read takes a line.
* `interrupted_appending_iff`: an append that breaks off leaves any first part of the line with its
  end.
* `opens_openIn`: a file that is opened has its complete lines, their number, and nothing else.
-/

namespace BatchRun

open Number
open Storage
open Text

namespace Tree

open RecordFile

section Keeping

variable {tree next later : Tree} {path : Path}

/-- Every file keeps its complete lines at their numbers. -/
def KeepsLines (tree next : Tree) : Prop :=
  ∀ path bytes, tree.read path = .ok bytes →
    ∃ now, next.read path = .ok now ∧ completeLines bytes <+: completeLines now

theorem KeepsLines.refl
    (tree : Tree) :
    KeepsLines tree tree :=
  fun _ bytes h => ⟨bytes, h, List.prefix_rfl⟩

theorem KeepsLines.trans
    (first : KeepsLines tree next)
    (second : KeepsLines next later) :
    KeepsLines tree later := by
  intro path bytes h
  obtain ⟨between, hbetween, hfirst⟩ := first path bytes h
  obtain ⟨now, hnow, hsecond⟩ := second path between hbetween
  exact ⟨now, hnow, hfirst.trans hsecond⟩

theorem keepsLines_makeDirectories
    {fault : Option Storage.Fault}
    (h : tree.performAll [.makeDirectories path] = (next, fault)) :
    KeepsLines tree next := by
  intro other bytes hread
  refine ⟨bytes, ?_, List.prefix_rfl⟩
  rw [← performAll_makeDirectories h]
  exact read_makeDirectories [] path.components hread

theorem keepsLines_changeFile
    {change : Option Bytes → Except Storage.Fault Bytes}
    (h : tree.changeFile path change = .ok next)
    (grows : ∀ bytes new, tree.node? path.place = some (.file bytes) →
      change (some bytes) = .ok new → completeLines bytes <+: completeLines new) :
    KeepsLines tree next := by
  intro other bytes hread
  by_cases hplace : other.place = path.place
  · obtain ⟨new, hnew, hnow⟩ := read_changeFile_same h hread hplace
    exact ⟨new, hnow, grows bytes new (hplace ▸ node?_of_read hread) hnew⟩
  · exact ⟨bytes, read_changeFile_ne h hread hplace, List.prefix_rfl⟩

end Keeping

section Adding

variable {tree next later : Tree} {path : Path} {more last : Bytes}

/-- A file has more bytes, and all other files are left. -/
structure Adds (tree next : Tree) (path : Path) (more : Bytes) : Prop where
  file : ∀ other bytes, tree.read other = .ok bytes → other.place = path.place →
    next.read other = .ok (bytes ++ more)
  others : ∀ other bytes, tree.read other = .ok bytes → other.place ≠ path.place →
    next.read other = .ok bytes

theorem Adds.refl
    (tree : Tree)
    (path : Path) :
    Adds tree tree path [] where
  file _ bytes h _ := by rw [h, List.append_nil]
  others _ _ h _ := h

theorem Adds.trans
    (first : Adds tree next path more)
    (second : Adds next later path last) :
    Adds tree later path (more ++ last) where
  file other bytes h place := by
    rw [← List.append_assoc]
    exact second.file other _ (first.file other bytes h place) place
  others other bytes h place :=
    second.others other bytes (first.others other bytes h place) place

theorem Adds.keepsLines
    (h : Adds tree next path more) :
    KeepsLines tree next := by
  intro other bytes hread
  by_cases hplace : other.place = path.place
  · exact ⟨_, h.file other bytes hread hplace, prefix_completeLines bytes more⟩
  · exact ⟨bytes, h.others other bytes hread hplace, List.prefix_rfl⟩

theorem adds_write
    (h : tree.perform (.write path more) = .ok next) :
    Adds tree next path more where
  file other bytes hread place := by
    obtain ⟨new, hnew, hnow⟩ := read_changeFile_same h hread place
    rw [hnow, ← hnew]
  others other bytes hread place := read_changeFile_ne h hread place

end Adding

end Tree

namespace RecordFile

open BatchRun.Tree

section Appending

variable {tree torn : Tree} {file : RecordFile} {path : Path} {line bytes : Bytes}

/-- Bytes of an append of which only the first have arrived. -/
def arrived (line : Bytes) (count : Nat) : Bytes := (line ++ [lineEnd]).take count

theorem arrived_of_le
    {count : Nat}
    (h : count ≤ line.length) :
    arrived line count = line.take count :=
  List.take_append_of_le_length h

theorem arrived_behind
    (line : Bytes)
    (count : Nat) :
    arrived line (line.length + count) = line ++ [lineEnd].take count :=
  List.take_length_add_append count

theorem arrived_of_lt
    {count : Nat}
    (h : line.length < count) :
    arrived line count = line ++ [lineEnd] :=
  List.take_of_length_le (by simpa using Nat.succ_le_of_lt h)

theorem write_again
    (h : tree.read path = .ok bytes)
    (first last : Bytes) :
    (tree.put path.place (.file (bytes ++ first))).perform (.write path last) =
      .ok (tree.put path.place (.file (bytes ++ (first ++ last)))) := by
  rw [perform_write_eq_ok (read_put_of_read h _), put_put, List.append_assoc]

theorem appending_eq_ok
    (h : tree.read path = .ok bytes) :
    tree.performAll (appending path line) =
      (tree.put path.place (.file (bytes ++ (line ++ [lineEnd]))), none) := by
  rw [appending, performAll_cons_ok (perform_write_eq_ok h),
    performAll_cons_ok (write_again h line [lineEnd])]
  rfl

/-- A file that can be read takes a line. -/
theorem append_eq_ok
    (h : tree.read file.path = .ok bytes)
    (line : Bytes) :
    ∃ next, file.append tree line =
        ({ file with lines := file.lines + 1 }, next,
          .ok (file.name ++ ":" ++ natText (file.lines + 1))) ∧
      Adds tree next file.path (line ++ [lineEnd]) := by
  have hwrite : tree.perform (.write file.path (line ++ [lineEnd])) =
      .ok (tree.put file.path.place (.file (bytes ++ (line ++ [lineEnd])))) :=
    perform_write_eq_ok h
  refine ⟨tree.put file.path.place (.file (bytes ++ (line ++ [lineEnd]))), ?_, adds_write hwrite⟩
  unfold append
  rw [appending_eq_ok h]

theorem arrived_of_interrupted
    (h : tree.read path = .ok bytes)
    (interrupted : Interrupted tree (appending path line) torn) :
    torn = tree ∨ ∃ count, tree.perform (.write path (arrived line count)) = .ok torn := by
  have hline : tree.perform (.write path line) =
      .ok (tree.put path.place (.file (bytes ++ line))) := perform_write_eq_ok h
  cases interrupted with
  | here _ hbroken =>
      cases hbroken with
      | unchanged => exact .inl rfl
      | written _ _ count _ hwrite =>
          refine .inr ⟨min count line.length, ?_⟩
          rw [arrived_of_le (Nat.min_le_right _ _), ← List.take_take, List.take_length]
          exact hwrite
  | later hnext rest =>
      rw [hline] at hnext
      cases hnext
      refine .inr ?_
      cases rest with
      | here _ hbroken =>
          cases hbroken with
          | unchanged =>
              refine ⟨line.length, ?_⟩
              rw [arrived_of_le (Nat.le_refl _), List.take_length]
              exact hline
          | written _ _ count _ hwrite =>
              refine ⟨line.length + count, ?_⟩
              rw [arrived_behind, perform_write_eq_ok h, ← hwrite]
              exact (write_again h line _).symm
      | later hend rest =>
          refine ⟨line.length + 1, ?_⟩
          rw [write_again h line [lineEnd]] at hend
          cases hend
          have hall : tree.perform (.write path (line ++ [lineEnd])) =
              .ok (tree.put path.place (.file (bytes ++ (line ++ [lineEnd])))) :=
            perform_write_eq_ok h
          rw [arrived_of_lt (Nat.lt_succ_self _)]
          cases rest with
          | here _ hbroken =>
              cases hbroken
              exact hall
          | later hsync rest =>
              cases hsync
              cases rest
              exact hall

/-- An append that breaks off leaves any first part of the line with its end. -/
theorem interrupted_appending_iff
    (h : tree.read path = .ok bytes) :
    Interrupted tree (appending path line) torn ↔
      torn = tree ∨ ∃ count, tree.perform (.write path (arrived line count)) = .ok torn := by
  constructor
  · exact arrived_of_interrupted h
  rintro (rfl | ⟨count, hwrite⟩)
  · exact .here _ (.unchanged _ _)
  rcases Nat.lt_or_ge line.length count with hall | hpart
  · rw [arrived_of_lt hall, perform_write_eq_ok h] at hwrite
    cases hwrite
    exact .later (perform_write_eq_ok h)
      (.later (write_again h line [lineEnd]) (.here _ (.unchanged _ _)))
  · rw [arrived_of_le hpart] at hwrite
    exact .here _ (.written tree path line count torn hwrite)

end Appending

section Opening

variable {tree next : Tree} {path directory : Path} {name : String} {bytes : Bytes}

theorem perform_ensure
    (h : tree.read path = .ok bytes) :
    tree.perform (.ensure path) = .ok (tree.put path.place (.file bytes)) :=
  changeFile_eq_ok.mpr ⟨some (.file bytes), bytes, read_eq_ok.mp h, nofun, rfl, rfl⟩

/-- A file that is there is opened with its complete lines. -/
theorem performAll_mending
    (h : tree.read path = .ok bytes) :
    tree.performAll (mending path bytes ++ [.ensure path]) =
      (tree.put path.place (.file (bytes.take (completeLength bytes))), none) := by
  unfold mending
  split
  case isTrue hcomplete =>
      rw [List.nil_append, performAll_cons_ok (perform_ensure h), hcomplete, List.take_length]
      rfl
  case isFalse =>
      have hcut : tree.perform (.cut path (completeLength bytes)) = .ok _ := changeOldFile_eq_ok h
      have hagain := perform_ensure (read_put_of_read h (bytes.take (completeLength bytes)))
      rw [put_put] at hagain
      rw [List.cons_append, performAll_cons_ok hcut, List.cons_append, List.nil_append,
        performAll_cons_ok rfl, performAll_cons_ok hagain]
      rfl

theorem performAll_ensure
    (h : tree.read path = .error .notFound) :
    tree.performAll [.ensure path] =
        (tree.put path.place (.file []), none) ∧
          tree.changeFile path (fun _ => .ok []) = .ok (tree.put path.place (.file [])) ∨
      ∃ fault, tree.performAll [.ensure path] = (tree, some fault) := by
  cases hensure : tree.perform (.ensure path) with
  | error fault =>
      refine .inr ⟨fault, ?_⟩
      rw [performAll, hensure]
      rfl
  | ok next =>
      obtain ⟨found, new, hfind, hne, hnew, rfl⟩ := changeFile_eq_ok.mp hensure
      have hnone : found = none := by
        cases found with
        | none => rfl
        | some node =>
            cases node with
            | directory => exact absurd rfl hne
            | file bytes =>
                rw [read_eq_ok.mpr hfind] at h
                cases h
      subst hnone
      cases hnew
      refine .inl ⟨?_, changeFile_eq_ok.mpr ⟨none, [], hfind, hne, rfl, rfl⟩⟩
      rw [performAll_cons_ok hensure]
      rfl

/-- What opening a file comes to. -/
inductive Opens (directory : Path) (name : String) (tree next : Tree) :
    Except OutputFault RecordFile → Prop
  | refused
      (fault : OutputFault)
      (h : next = tree) :
      Opens directory name tree next (.error fault)
  | opened
      (new : Bytes)
      (lines : Nat)
      (h : tree.changeFile (directory.join ⟨name⟩) (fun _ => .ok new) = .ok next)
      (counted : (completeLines new).length = lines)
      (ended : remainder new = [])
      (kept : ∀ bytes, tree.read (directory.join ⟨name⟩) = .ok bytes →
        completeLines new = completeLines bytes) :
      Opens directory name tree next (.ok ⟨name, directory.join ⟨name⟩, lines⟩)

/-- A file is refused as it is, or opened with the complete lines that it had. -/
theorem opens_openIn
    {answer : Except OutputFault RecordFile}
    (h : openIn directory name tree = (next, answer)) :
    Opens directory name tree next answer := by
  unfold openIn at h
  simp only at h
  split at h
  case h_1 bytes hread =>
      rw [performAll_mending hread] at h
      cases h
      refine .opened (bytes.take (completeLength bytes)) _ ?_ ?_ (remainder_mended bytes) ?_
      · exact changeFile_eq_ok.mpr ⟨some (.file bytes), _, read_eq_ok.mp hread, nofun, rfl, rfl⟩
      · rw [completeLines_mended, length_completeLines]
      · intro other hother
        rw [hread] at hother
        cases hother
        exact completeLines_mended bytes
  case h_2 hread =>
      rw [List.nil_append] at h
      rcases performAll_ensure hread with ⟨hmade, hchange⟩ | ⟨fault, hfault⟩
      · rw [hmade] at h
        cases h
        refine .opened [] 0 hchange rfl rfl fun other hother => ?_
        rw [hread] at hother
        cases hother
      · rw [hfault] at h
        cases h
        exact .refused _ rfl
  case h_3 =>
      cases h
      exact .refused _ rfl

end Opening

end RecordFile
end BatchRun
