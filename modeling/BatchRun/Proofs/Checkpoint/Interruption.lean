import BatchRun.Proofs.Checkpoint.History
import BatchRun.Proofs.Storage.Descent
import BatchRun.Proofs.Storage.Path

/-!
# Appends that fail or break off

**Types.**
`CheckpointStore.tryAppend` is an append under `Conditions`: the old file may not be readable, and
any of the changes may fail after a part of it.  An `Attempt` is a later call of the store on a disk
that may fail as well, and `Solo.answers` lists what such calls answer.

**Invariant.**
An append that is not finished leaves what is read at the path, and all else but the draft comes to
the same once the directories around the path are made (`Checkpoint.Left`).  Two stores whose trees
agree in this way, and that hold the same checkpoint, are `Peer`s: they answer the same for ever.

**Results.**
* `left_of_halted`: what an append leaves behind that halts anywhere.
* `peer_of_append`, `peer_of_load`, `peer_of_make`, `answers_of_peer`: peers answer the same and
  stay peers.
* `tryAppend_calm`, `tryLoad_calm`: if nothing fails these are an append and a load of the store.
* `untouched_of_descends`: in a grounded tree, when no step up stands behind a missing directory of
  the path, an append that fails is as if it had not been made, and one that breaks off leaves the
  old file or the whole new one.
* `not_untouched_of_stepUp`: without that condition the directories that a failed append has made
  may uncover another file.
-/

namespace BatchRun

open Storage
open Text
open Time

namespace Checkpoint

section Draft

variable {path : Path}

/-- Name of the draft. -/
def draftName (path : Path) : String := path.fileName?.getD "checkpoint" ++ ".tmp"

/-- What is in front of the name of the draft: the directory, or the path itself if it does not end
with the name of a file. -/
def draftDirectory (path : Path) : Path :=
  match path.fileName? with
  | none => path
  | some _ => path.parent?.getD ⟨""⟩

theorem draftPath_eq
    (path : Path) :
    draftPath path = (draftDirectory path).join ⟨draftName path⟩ := by
  unfold draftPath draftDirectory draftName Path.withFileName
  cases path.fileName? <;> rfl

theorem fileName_draftName
    (path : Path) :
    Path.FileName (draftName path) := by
  have hnamed : ∀ name : String, '/' ∉ name.toList → Path.FileName (name ++ ".tmp") := by
    intro name hname
    have htmp : (".tmp" : String).toList = ['.', 't', 'm', 'p'] := rfl
    have hlong : ∀ cs : List Char, cs.length < 4 → (name ++ ".tmp").toList ≠ cs := by
      intro cs hcs heq
      rw [← heq, String.toList_append, htmp, List.length_append] at hcs
      exact absurd hcs (Nat.not_lt.mpr (Nat.le_add_left 4 _))
    refine ⟨?_, hlong _ (by simp), hlong _ (by simp), hlong _ (by simp)⟩
    rw [String.toList_append, htmp]
    simp [hname]
  unfold draftName
  cases hname : path.fileName? with
  | none => exact hnamed "checkpoint" (by decide)
  | some name =>
      have hmem : .name name ∈ path.components := by
        rw [Path.components_of_fileName? hname]
        simp
      exact hnamed name (Path.fileName_of_mem hmem).no_slash

theorem components_draft
    (path : Path) :
    (draftPath path).components = (draftDirectory path).components ++ [.name (draftName path)] := by
  rw [draftPath_eq, Path.components_join _ (fileName_draftName path)]

theorem place_draft
    (path : Path) :
    (draftPath path).place = (draftDirectory path).place ++ [draftName path] := by
  unfold Path.place
  rw [components_draft, List.foldl_append]
  rfl

theorem ending_draft
    (path : Path) :
    (draftPath path).ending = .name := by
  rw [draftPath_eq]
  exact Path.ending_join _ (fileName_draftName path)

theorem components_draftDirectory
    {name : String}
    (h : path.fileName? = some name) :
    (draftDirectory path).components = path.components.dropLast := by
  have hcomponents := Path.components_of_fileName? h
  unfold draftDirectory
  rw [h]
  cases hparent : path.parent? with
  | some parent => exact Path.components_parent hparent
  | none =>
      unfold Path.parent? at hparent
      rw [hcomponents, List.reverse_append] at hparent
      simp at hparent

/-- The draft lies beside the file. -/
theorem place_draft_ne
    (path : Path) :
    path.place ≠ (draftPath path).place := by
  rw [place_draft]
  cases hname : path.fileName? with
  | none =>
      have hdirectory : draftDirectory path = path := by
        unfold draftDirectory
        rw [hname]
      rw [hdirectory]
      simp
  | some name =>
      have hpath : path.place = (draftDirectory path).place ++ [name] := by
        unfold Path.place
        rw [components_draftDirectory hname, Path.components_of_fileName? hname,
          List.dropLast_concat, List.foldl_append]
        rfl
      have hdraft : draftName path = name ++ ".tmp" := by
        unfold draftName
        rw [hname]
        rfl
      rw [hpath, hdraft]
      intro heq
      have hlast := (List.cons.inj (List.append_cancel_left heq)).1
      have hlength := congrArg String.length hlast
      have htmp : (".tmp" : String).length = 4 := rfl
      rw [String.length_append, htmp] at hlength
      omega

end Draft

section Halting

open BatchRun.Tree

variable {path : Path} {tree other made torn : Tree} {checkpoint : Checkpoint}
  {disk : Disk} {bytes : Bytes}

/-- Making the directories around the path, up to the first that cannot be made. -/
def prepare (path : Path) (tree : Tree) : Tree × Option Storage.Fault :=
  tree.makeDirectories [] path.components.dropLast

theorem performAll_directoryCommands
    (path : Path)
    (tree : Tree) :
    tree.performAll (directoryCommands path) = prepare path tree := by
  unfold directoryCommands prepare
  split
  case h_1 parent hparent =>
      rw [← Path.components_parent hparent]
      split
      case isTrue hempty =>
          have htext : parent = ⟨""⟩ := by
            cases parent
            exact congrArg Path.mk (by simpa using hempty)
          rw [htext]
          rfl
      case isFalse =>
          rw [performAll, perform, leftover]
          cases hmade : tree.makeDirectories [] parent.components with
          | mk made fault => cases fault <;> rfl
  case h_2 hparent =>
      unfold Path.parent? at hparent
      split at hparent
      case h_1 hnone =>
          have hempty : path.components = [] := by simpa using hnone
          rw [hempty]
          rfl
      case h_2 hroot =>
          have hone : path.components = [.root] := by simpa using hroot
          rw [hone]
          rfl
      case h_3 => cases hparent

theorem halted_directoryCommands
    (h : Halted tree (directoryCommands path) torn) :
    ∃ count, torn = tree.made [] path.components.dropLast count := by
  rcases directoryCommands_cases path with hnone | ⟨parent, hparent, hone⟩
  · rw [hnone] at h
    cases h
  · rw [hone] at h
    rw [← Path.components_parent hparent]
    cases h with
    | here _ hbroken =>
        cases hbroken with
        | unchanged => exact ⟨0, rfl⟩
        | made _ count => exact ⟨count, rfl⟩
    | later _ rest => cases rest

/-- Replacing a file changes nothing but the draft until it is finished. -/
theorem apart_of_halted
    {draft : Path}
    (h : Halted tree (replacing draft path bytes) torn) :
    SameApart draft.place tree torn := by
  cases h with
  | here _ hbroken =>
      cases hbroken
      exact .refl _ _
  | later hcreate rest =>
      have hcreated := apart_changeFile hcreate
      refine hcreated.trans ?_
      cases rest with
      | here _ hbroken =>
          cases hbroken with
          | unchanged => exact .refl _ _
          | written _ _ _ _ hwrite => exact apart_changeFile hwrite
      | later hwrite rest =>
          refine (apart_changeFile hwrite).trans ?_
          cases rest with
          | here _ hbroken =>
              cases hbroken
              exact .refl _ _
          | later hsync rest =>
              cases hsync
              cases rest with
              | here _ hbroken =>
                  cases hbroken
                  exact .refl _ _
              | later _ rest => cases rest

/-- Two trees that read the same at a path, and in which making the directories around it comes to
the same but for the draft. -/
structure Alike (path : Path) (tree other : Tree) : Prop where
  read : tree.read path = other.read path
  fault : (prepare path tree).2 = (prepare path other).2
  made : (prepare path tree).2 = none →
    SameApart (draftPath path).place (prepare path tree).1 (prepare path other).1

theorem Alike.refl
    (path : Path)
    (tree : Tree) :
    Alike path tree tree :=
  ⟨rfl, rfl, fun _ => .refl _ _⟩

theorem Alike.symm
    (h : Alike path tree other) :
    Alike path other tree :=
  ⟨h.read.symm, h.fault.symm, fun hnone => (h.made (h.fault.trans hnone)).symm⟩

theorem Alike.trans
    (first : Alike path tree other)
    (second : Alike path other made) :
    Alike path tree made :=
  ⟨first.read.trans second.read, first.fault.trans second.fault,
    fun hnone => (first.made hnone).trans (second.made (first.fault ▸ hnone))⟩

theorem alike_of_same
    (same : Same tree other) :
    Alike path tree other := by
  obtain ⟨hfault, hmade⟩ := makeDirectories_of_same same [] path.components.dropLast
  exact ⟨read_of_same same path, hfault, fun _ => hmade.apart _⟩

/-- What an append leaves behind that is not finished. -/
structure Left (path : Path) (tree torn : Tree) : Prop where
  alike : Alike path torn tree
  clear : torn.Clear [] path.components

/-- An append that halts leaves what is read at the path, and all else but the draft. -/
theorem left_of_halted
    (clear : tree.Clear [] path.components)
    (h : Halted tree (commands path checkpoint) torn) :
    Left path tree torn := by
  rw [commands_eq] at h
  rcases halted_append h with hdirectory | ⟨made, hmade, hreplacing⟩
  · obtain ⟨count, rfl⟩ := halted_directoryCommands hdirectory
    have hagain : prepare path (tree.made [] path.components.dropLast count) = prepare path tree :=
      makeDirectories_made tree [] path.components.dropLast count
    refine ⟨⟨read_made clear count, by rw [hagain], fun _ => ?_⟩, clear_made clear count⟩
    rw [hagain]
    exact .refl _ _
  · rw [performAll_directoryCommands] at hmade
    have hall : made = tree.made [] path.components.dropLast path.components.dropLast.length := by
      unfold Tree.made
      rw [List.take_length]
      exact (congrArg Prod.fst hmade).symm
    have hapart := apart_of_halted hreplacing
    have hfree : made.obstacle? [] path.components = none := obstacle?_of_made hmade
    have hstill := obstacle?_of_keepsDirectories hapart.sameDirectories.keeps hfree
    have hagain : prepare path torn = (torn, none) := makeDirectories_of_obstacle? hstill
    refine ⟨⟨?_, ?_, fun _ => ?_⟩, clear_of_obstacle? hstill⟩
    · rw [← read_of_apart hapart hfree (place_draft_ne path), hall]
      exact read_made clear _
    · rw [hagain, hmade]
    · rw [hagain, hmade]
      exact hapart.symm

/-- The draft is reached in the same way in trees that differ only in it. -/
theorem obstacle?_draft
    (apart : SameApart (draftPath path).place tree other)
    (free : tree.obstacle? [] path.components = none) :
    tree.obstacle? [] (draftPath path).components =
      other.obstacle? [] (draftPath path).components := by
  have hfree := obstacle?_of_keepsDirectories apart.sameDirectories.keeps free
  rw [components_draft]
  cases hname : path.fileName? with
  | some name =>
      rw [components_draftDirectory hname, obstacle?_last tree [] _ _ (.name name),
        obstacle?_last other [] _ _ (.name name), ← Path.components_of_fileName? hname, free, hfree]
  | none =>
      have hdirectory : draftDirectory path = path := by
        unfold draftDirectory
        rw [hname]
      have hnode : tree.node? (path.components.foldl Place.step []) =
          other.node? (path.components.foldl Place.step []) :=
        apart.nodes path.place (place_draft_ne path)
      rw [hdirectory]
      by_cases hempty : path.components = []
      · rw [hempty]
        rfl
      · rw [obstacle?_concat tree [] hempty, obstacle?_concat other [] hempty, free, hfree, hnode]

/-- Whether the draft can be made is the same in trees that differ only in it. -/
theorem create_of_apart
    (apart : SameApart (draftPath path).place tree other)
    (free : tree.obstacle? [] path.components = none) :
    Agrees (tree.perform (.create (draftPath path)))
      (other.perform (.create (draftPath path))) := by
  have hending := ending_draft path
  have hfilled := Path.filled_of_ending hending
  have hway := obstacle?_draft apart free
  change Agrees (tree.changeFile _ _) (other.changeFile _ _)
  rw [changeFile_eq, changeFile_eq]
  cases hfault : other.obstacle? [] (draftPath path).components with
  | some fault =>
      rw [find_of_obstacle? hfilled (hway.trans hfault), find_of_obstacle? hfilled hfault]
      exact .failed fault
  | none =>
      rw [find_of_free hfilled hending (hway.trans hfault), find_of_free hfilled hending hfault]
      split
      case h_1 heq => cases heq
      case h_2 heq =>
          rw [apart.directory.mp (Except.ok.inj heq)]
          exact .failed _
      case h_3 found hdirectory heq =>
          have hother : other.node? (draftPath path).place ≠ some .directory := fun hnode =>
            hdirectory ((Except.ok.inj heq).symm.trans (apart.directory.mpr hnode))
          split
          case h_1 hnode => cases hnode
          case h_2 hnode => exact absurd (Except.ok.inj hnode) hother
          case h_3 => exact .made (same_put_of_apart apart _)

/-- Replacing a file comes to the same in trees that differ only in the draft. -/
theorem replacing_of_apart
    (apart : SameApart (draftPath path).place tree other)
    (free : tree.obstacle? [] path.components = none)
    (disk : Disk)
    (bytes : Bytes) :
    (tree.attempt disk (replacing (draftPath path) path bytes)).2 =
        (other.attempt disk (replacing (draftPath path) path bytes)).2 ∧
      ((tree.attempt disk (replacing (draftPath path) path bytes)).2 = none →
        Same (tree.attempt disk (replacing (draftPath path) path bytes)).1
          (other.attempt disk (replacing (draftPath path) path bytes)).1) := by
  rw [replacing, attempt, attempt]
  cases disk 0 with
  | some stop => exact ⟨rfl, fun h => by cases h⟩
  | none =>
      have hagrees := create_of_apart apart free
      generalize tree.perform (.create (draftPath path)) = outcome at hagrees
      generalize other.perform (.create (draftPath path)) = answer at hagrees
      cases hagrees with
      | failed fault => exact ⟨rfl, fun h => by cases h⟩
      | made hsame =>
          obtain ⟨hfault, hlast⟩ := attempt_of_same hsame (disk.behind 1) _
          exact ⟨hfault, fun _ => hlast⟩

/-- A disk breaks the making of the directories off, or has no effect on it. -/
theorem attempt_directoryCommands
    (path : Path)
    (disk : Disk) :
    (∃ fault, ∀ tree : Tree, (tree.attempt disk (directoryCommands path)).2 = some fault) ∨
      ∀ tree : Tree, tree.attempt disk (directoryCommands path) = prepare path tree := by
  have hprepare := performAll_directoryCommands path
  rcases directoryCommands_cases path with hnone | ⟨parent, -, hone⟩
  · rw [hnone] at hprepare ⊢
    exact .inr hprepare
  · rw [hone] at hprepare ⊢
    cases hstop : disk 0 with
    | some stop =>
        refine .inl ⟨stop.fault, fun tree => ?_⟩
        rw [attempt.eq_def]
        simp only [hstop]
    | none =>
        refine .inr fun tree => ?_
        rw [← hprepare tree, attempt.eq_def]
        simp only [hstop]
        rfl

/-- Writing a checkpoint fails in the same way in trees that are alike, or leaves the same. -/
theorem attempt_of_alike
    (alike : Alike path tree other)
    (disk : Disk)
    (checkpoint : Checkpoint) :
    (tree.attempt disk (commands path checkpoint)).2 =
        (other.attempt disk (commands path checkpoint)).2 ∧
      ((tree.attempt disk (commands path checkpoint)).2 = none →
        Same (tree.attempt disk (commands path checkpoint)).1
          (other.attempt disk (commands path checkpoint)).1) := by
  obtain ⟨-, hfault, hmade⟩ := alike
  rw [commands_eq, attempt_append, attempt_append]
  rcases attempt_directoryCommands path disk with ⟨fault, hstopped⟩ | hprepared
  · have htree := hstopped tree
    have hother := hstopped other
    generalize tree.attempt disk (directoryCommands path) = outcome at htree
    generalize other.attempt disk (directoryCommands path) = answer at hother
    obtain ⟨torn, first⟩ := outcome
    obtain ⟨rest, second⟩ := answer
    cases htree
    cases hother
    exact ⟨rfl, nofun⟩
  · rw [hprepared, hprepared]
    cases htree : prepare path tree with
    | mk made first =>
        cases hother : prepare path other with
        | mk again second =>
            rw [htree, hother] at hfault hmade
            cases hfault
            cases first with
            | some fault => exact ⟨rfl, nofun⟩
            | none => exact replacing_of_apart (hmade rfl) (obstacle?_of_made htree) _ _

theorem clear_of_written
    {next : Tree}
    (h : tree.performAll (commands path checkpoint) = (next, none)) :
    next.Clear [] path.components := by
  rw [commands_eq] at h
  obtain ⟨made, hmade, hreplace⟩ := performAll_append h
  rw [performAll_directoryCommands] at hmade
  have hkeeps := (sameDirectories_replacing hreplace).keeps
  exact clear_of_obstacle? (obstacle?_of_keepsDirectories hkeeps (obstacle?_of_made hmade))

/-- Whether a checkpoint is written or not, the path stays clear. -/
theorem clear_of_attempt
    (clear : tree.Clear [] path.components)
    (disk : Disk)
    (checkpoint : Checkpoint) :
    (tree.attempt disk (commands path checkpoint)).1.Clear [] path.components := by
  cases h : tree.attempt disk (commands path checkpoint) with
  | mk torn fault =>
      cases fault with
      | some fault => exact (left_of_halted clear (halted_of_attempt h)).clear
      | none => exact clear_of_written (performAll_of_attempt h)

/-- Trees that are alike stay alike when a checkpoint is written, or is not. -/
theorem alike_of_attempt
    (alike : Alike path tree other)
    (clear : tree.Clear [] path.components)
    (still : other.Clear [] path.components)
    (disk : Disk)
    (checkpoint : Checkpoint) :
    Alike path (tree.attempt disk (commands path checkpoint)).1
      (other.attempt disk (commands path checkpoint)).1 := by
  obtain ⟨hfault, hsame⟩ := attempt_of_alike alike disk checkpoint
  cases htree : tree.attempt disk (commands path checkpoint) with
  | mk torn first =>
      cases hother : other.attempt disk (commands path checkpoint) with
      | mk rest second =>
          rw [htree, hother] at hfault hsame
          cases hfault
          cases first with
          | none => exact alike_of_same (hsame rfl)
          | some fault =>
              have hleft := left_of_halted clear (halted_of_attempt htree)
              have hrest := left_of_halted still (halted_of_attempt hother)
              exact (hleft.alike.trans alike).trans hrest.alike.symm

end Halting

end Checkpoint

namespace CheckpointStore

open BatchRun.Tree

section Attempts

/-- Why a file that is there is not read. -/
structure ReadFault where
  fault : Storage.Fault
  there : fault ≠ .notFound

/-- What the disk does to an append. -/
structure Conditions where
  /-- Why the old file is not read, if the disk fails at that. -/
  reading : Option ReadFault := none
  /-- Which of the changes break off. -/
  changes : Disk := calm

/-- Reads the checkpoint from a disk that may fail. -/
def tryRead (path : Path) (tree : Tree) (reading : Option ReadFault) :
    Except CheckpointFault Checkpoint :=
  match reading with
  | none => Checkpoint.read path tree
  | some failed =>
    match failed.fault with
    | .notFound => .ok {}
    | fault => .error (.unreadable path fault)

/-- What is in the file: remembered, or read now from a disk that may fail. -/
def tryCurrent (store : CheckpointStore) (tree : Tree) (reading : Option ReadFault) :
    Except CheckpointFault Checkpoint :=
  match store.remembered with
  | some checkpoint => .ok checkpoint
  | none => tryRead store.path tree reading

/-- Adds entries and writes the checkpoint under conditions. -/
def tryAppend (store : CheckpointStore) (tree : Tree) (entries : List CheckpointEntry)
    (now : Timestamp) (conditions : Conditions) :
    CheckpointStore × Tree × Option CheckpointFault :=
  if entries.isEmpty then (store, tree, none)
  else
    match store.tryCurrent tree conditions.reading with
    | .error fault => (store, tree, some fault)
    | .ok old =>
      let new := grown old entries now
      match tree.attempt conditions.changes (new.commands store.path) with
      | (tree, some fault) => (store.remember old, tree, some (.unwritable store.path fault))
      | (tree, none) => (store.remember new, tree, none)

/-- Reads the checkpoint from a disk that may fail, and remembers it. -/
def tryLoad (store : CheckpointStore) (tree : Tree) (reading : Option ReadFault) :
    CheckpointStore × Except CheckpointFault Checkpoint :=
  match tryRead store.path tree reading with
  | .ok checkpoint => (store.remember checkpoint, .ok checkpoint)
  | .error fault => (store, .error fault)

variable {store : CheckpointStore} {tree : Tree}

/-- Without faults of the disk it is the append of the store. -/
theorem tryAppend_calm
    (store : CheckpointStore)
    (tree : Tree)
    (entries : List CheckpointEntry)
    (now : Timestamp) :
    store.tryAppend tree entries now {} = store.appendAll tree entries now := by
  unfold tryAppend appendAll
  simp only [attempt_calm]
  rfl

theorem tryLoad_calm
    (store : CheckpointStore)
    (tree : Tree) :
    store.tryLoad tree none = store.load tree :=
  rfl

theorem tryAppend_of_current
    {entries : List CheckpointEntry} {now : Timestamp} {conditions : Conditions}
    {old : Checkpoint}
    (filled : ¬ entries.isEmpty = true)
    (current : store.tryCurrent tree conditions.reading = .ok old) :
    store.tryAppend tree entries now conditions =
      match tree.attempt conditions.changes ((grown old entries now).commands store.path) with
      | (tree, some fault) => (store.remember old, tree, some (.unwritable store.path fault))
      | (tree, none) => (store.remember (grown old entries now), tree, none) := by
  unfold tryAppend
  rw [if_neg filled, current]

theorem tryAppend_of_error
    {entries : List CheckpointEntry} {now : Timestamp} {conditions : Conditions}
    {fault : CheckpointFault}
    (filled : ¬ entries.isEmpty = true)
    (current : store.tryCurrent tree conditions.reading = .error fault) :
    store.tryAppend tree entries now conditions = (store, tree, some fault) := by
  unfold tryAppend
  rw [if_neg filled, current]

theorem tryRead_failed
    (path : Path)
    (tree : Tree)
    (failed : ReadFault) :
    tryRead path tree (some failed) = .error (.unreadable path failed.fault) := by
  obtain ⟨fault, hthere⟩ := failed
  cases fault with
  | notFound => exact absurd rfl hthere
  | _ => rfl

theorem tryCurrent_none
    (store : CheckpointStore)
    (tree : Tree) :
    store.tryCurrent tree none = store.current tree :=
  rfl

theorem tryCurrent_cases
    (store : CheckpointStore)
    (tree : Tree)
    (reading : Option ReadFault) :
    store.tryCurrent tree reading = store.current tree ∨
      ∃ fault, store.tryCurrent tree reading = .error fault := by
  unfold tryCurrent current
  cases store.remembered with
  | some checkpoint => exact .inl rfl
  | none =>
      cases reading with
      | none => exact .inl rfl
      | some failed => exact .inr ⟨_, tryRead_failed store.path tree failed⟩

end Attempts

namespace Solo

/-- A later call of a store, and what the disk does to it. -/
inductive Attempt where
  | load (reading : Option ReadFault)
  | append (entries : List CheckpointEntry) (now : Timestamp) (disk : Disk)
  /-- Gives the store up and opens another one on the same file. -/
  | reopen

/-- What a call answers. -/
inductive Answer where
  | loaded (answer : Except CheckpointFault Checkpoint)
  | appended (fault : Option CheckpointFault)
  | opened

/-- Makes a call. -/
def make (s : Solo) : Attempt → Solo × Answer
  | .load reading =>
    let (store, answer) := s.store.tryLoad s.tree reading
    (⟨s.tree, store⟩, .loaded answer)
  | .append entries now disk =>
    let (store, tree, fault) := s.store.tryAppend s.tree entries now { changes := disk }
    (⟨tree, store⟩, .appended fault)
  | .reopen => (opened s.tree s.store.path, .opened)

/-- Answers of calls that are made one after another. -/
def answers (s : Solo) : List Attempt → List Answer
  | [] => []
  | attempt :: attempts => (s.make attempt).2 :: (s.make attempt).1.answers attempts

section Peers

variable {s t : Solo} {path : Path} {tree other torn : Tree} {entries : List CheckpointEntry}
  {now : Timestamp}

/-- Two stores on one path that hold the same checkpoint, with trees that are alike. -/
structure Peer (s t : Solo) : Prop where
  path : t.store.path = s.store.path
  current : s.store.current s.tree = t.store.current t.tree
  alike : Checkpoint.Alike s.store.path s.tree t.tree
  clear : s.tree.Clear [] s.store.path.components
  still : t.tree.Clear [] s.store.path.components

theorem Peer.refl
    (clear : s.tree.Clear [] s.store.path.components) :
    Peer s s :=
  ⟨rfl, rfl, .refl _ _, clear, clear⟩

theorem read_of_alike
    (alike : Checkpoint.Alike path tree other) :
    Checkpoint.read path tree = Checkpoint.read path other := by
  unfold Checkpoint.read
  rw [alike.read]

theorem tryRead_of_alike
    (alike : Checkpoint.Alike path tree other)
    (reading : Option ReadFault) :
    tryRead path tree reading = tryRead path other reading := by
  cases reading with
  | none => exact read_of_alike alike
  | some failed => rfl

/-- An append comes to the same for peers, and they stay peers. -/
theorem peer_of_append
    (peer : Peer s t)
    (entries : List CheckpointEntry)
    (now : Timestamp)
    (disk : Disk) :
    let first := s.store.tryAppend s.tree entries now { changes := disk }
    let second := t.store.tryAppend t.tree entries now { changes := disk }
    first.2.2 = second.2.2 ∧ Peer ⟨first.2.1, first.1⟩ ⟨second.2.1, second.1⟩ := by
  have hpeer := peer
  obtain ⟨hpath, hcurrent, halike, hclear, hstill⟩ := peer
  by_cases hempty : entries.isEmpty = true
  · unfold tryAppend
    rw [if_pos hempty, if_pos hempty]
    exact ⟨rfl, hpeer⟩
  rw [← tryCurrent_none, ← tryCurrent_none] at hcurrent
  cases hold : s.store.tryCurrent s.tree none with
  | error fault =>
      rw [tryAppend_of_error hempty hold, tryAppend_of_error hempty (hcurrent ▸ hold)]
      exact ⟨rfl, hpeer⟩
  | ok old =>
      have hfault := (Checkpoint.attempt_of_alike halike disk (grown old entries now)).1
      have hafter := Checkpoint.alike_of_attempt halike hclear hstill disk (grown old entries now)
      have hfirst := Checkpoint.clear_of_attempt hclear disk (grown old entries now)
      have hsecond := Checkpoint.clear_of_attempt hstill disk (grown old entries now)
      rw [tryAppend_of_current hempty hold, tryAppend_of_current hempty (hcurrent ▸ hold), hpath]
      generalize s.tree.attempt disk ((grown old entries now).commands s.store.path) = outcome at *
      generalize t.tree.attempt disk ((grown old entries now).commands s.store.path) = answer at *
      obtain ⟨torn, fault⟩ := outcome
      obtain ⟨rest, same⟩ := answer
      cases hfault
      cases fault with
      | none => exact ⟨rfl, hpath, rfl, hafter, hfirst, hsecond⟩
      | some fault => exact ⟨rfl, hpath, rfl, hafter, hfirst, hsecond⟩

/-- A load comes to the same for peers, and they stay peers. -/
theorem peer_of_load
    (peer : Peer s t)
    (reading : Option ReadFault) :
    let first := s.store.tryLoad s.tree reading
    let second := t.store.tryLoad t.tree reading
    first.2 = second.2 ∧ Peer ⟨s.tree, first.1⟩ ⟨t.tree, second.1⟩ := by
  have hpeer := peer
  obtain ⟨hpath, hcurrent, halike, hclear, hstill⟩ := peer
  have hread := tryRead_of_alike halike reading
  unfold tryLoad
  rw [hpath, ← hread]
  cases tryRead s.store.path s.tree reading with
  | error fault => exact ⟨rfl, hpeer⟩
  | ok checkpoint => exact ⟨rfl, hpath, rfl, halike, hclear, hstill⟩

/-- Peers answer in the same way and stay peers. -/
theorem peer_of_make
    (peer : Peer s t)
    (attempt : Attempt) :
    (s.make attempt).2 = (t.make attempt).2 ∧ Peer (s.make attempt).1 (t.make attempt).1 := by
  cases attempt with
  | load reading =>
      obtain ⟨hanswer, hnext⟩ := peer_of_load peer reading
      exact ⟨congrArg Answer.loaded hanswer, hnext⟩
  | append entries now disk =>
      obtain ⟨hanswer, hnext⟩ := peer_of_append peer entries now disk
      exact ⟨congrArg Answer.appended hanswer, hnext⟩
  | reopen =>
      obtain ⟨hpath, -, halike, hclear, hstill⟩ := peer
      have hread : Checkpoint.read s.store.path s.tree = Checkpoint.read t.store.path t.tree := by
        rw [hpath]
        exact read_of_alike halike
      exact ⟨rfl, hpath, hread, halike, hclear, hstill⟩

/-- Peers give the same answers to all later calls. -/
theorem answers_of_peer
    (peer : Peer s t)
    (attempts : List Attempt) :
    s.answers attempts = t.answers attempts := by
  induction attempts generalizing s t with
  | nil => rfl
  | cons attempt attempts ih =>
      obtain ⟨hanswer, hnext⟩ := peer_of_make peer attempt
      rw [answers, answers, hanswer, ih hnext]

/-- After an append that fails a store is a peer of what it was before. -/
theorem peer_of_failed
    {conditions : Conditions} {store : CheckpointStore} {fault : CheckpointFault}
    (clear : s.tree.Clear [] s.store.path.components)
    (h : s.store.tryAppend s.tree entries now conditions = (store, torn, some fault)) :
    Peer ⟨torn, store⟩ s := by
  by_cases hempty : entries.isEmpty = true
  · unfold tryAppend at h
    rw [if_pos hempty] at h
    cases h
  cases hold : s.store.tryCurrent s.tree conditions.reading with
  | error failure =>
      rw [tryAppend_of_error hempty hold] at h
      cases h
      exact .refl clear
  | ok old =>
      have hcurrent : s.store.current s.tree = .ok old := by
        rcases tryCurrent_cases s.store s.tree conditions.reading with hsame | ⟨failure, hfailure⟩
        · rw [← hsame, hold]
        · rw [hold] at hfailure
          cases hfailure
      rw [tryAppend_of_current hempty hold] at h
      split at h
      case h_1 hattempt =>
          cases h
          have hleft := Checkpoint.left_of_halted clear (halted_of_attempt hattempt)
          exact ⟨rfl, hcurrent.symm, hleft.alike, hleft.clear, clear⟩
      case h_2 => cases h

/-- An append leaves the file until it is finished, and one that fails is as if it had not been
made. -/
structure Untouched (s : Solo) : Prop where
  /-- What breaks off leaves the old file, or has written the whole new one. -/
  interrupted : ∀ entries now old torn, s.store.current s.tree = .ok old →
    s.tree.Interrupted ((grown old entries now).commands s.store.path) torn →
      torn.read s.store.path = s.tree.read s.store.path ∨
        s.tree.performAll ((grown old entries now).commands s.store.path) = (torn, none) ∧
          torn.read s.store.path = .ok (grown old entries now).text
  /-- What fails leaves the old file, and no later call can tell. -/
  failed : ∀ entries now conditions store torn fault,
    s.store.tryAppend s.tree entries now conditions = (store, torn, some fault) →
      torn.read s.store.path = s.tree.read s.store.path ∧
        ∀ attempts, answers ⟨torn, store⟩ attempts = s.answers attempts

/-- In a grounded tree, when no step up stands behind a missing directory of the path, an append
leaves the file until it is finished, and one that fails is as if it had not been made. -/
theorem untouched_of_descends
    (s : Solo)
    (grounded : s.tree.Grounded)
    (descends : s.tree.Descends [] s.store.path.components) :
    Untouched s := by
  have hclear := clear_of_descends grounded descends
  constructor
  case interrupted =>
    intro entries now old torn hcurrent hinterrupted
    rcases interrupted_iff.mp hinterrupted with hhalted | hmade
    · exact .inl (Checkpoint.left_of_halted hclear hhalted).alike.read
    · exact .inr ⟨hmade, Checkpoint.read_of_written hmade⟩
  case failed =>
    intro entries now conditions store torn fault h
    have hpeer := peer_of_failed hclear h
    have hpath : store.path = s.store.path := hpeer.path.symm
    exact ⟨hpath ▸ hpeer.alike.read, answers_of_peer hpeer⟩

/-- A store in a directory that is missing. -/
def freshSolo : Solo where
  tree := ⟨[(["runs"], .directory), (["checkpoint.json"], .file sampleText)]⟩
  store := { path := ⟨"runs/today/checkpoint.json"⟩ }

theorem untouched_of_freshSolo :
    freshSolo.tree.Grounded ∧ freshSolo.tree.Descends [] freshSolo.store.path.components ∧
      Untouched freshSolo := by
  have hgrounded : freshSolo.tree.Grounded := by decide
  have hcomponents : freshSolo.store.path.components =
      [.name "runs", .name "today", .name "checkpoint.json"] := by decide
  have hdescends : freshSolo.tree.Descends [] freshSolo.store.path.components := by
    rw [hcomponents]
    intro component hmem
    exact ⟨"checkpoint.json", List.mem_singleton.mp hmem⟩
  exact ⟨hgrounded, hdescends, untouched_of_descends freshSolo hgrounded hdescends⟩

/-- A store whose path steps up from a directory that is missing, to a file whose draft cannot be
made. -/
def uncoveringSolo : Solo where
  tree := ⟨[(["checkpoint.json"], .file sampleText), (["checkpoint.json.tmp"], .directory)]⟩
  store := { path := ⟨"missing/../checkpoint.json"⟩ }

/-- The directories that a failed append has made may uncover a file. -/
theorem not_untouched_of_stepUp :
    ¬ Untouched uncoveringSolo := by
  intro h
  have hfault : (uncoveringSolo.store.tryAppend uncoveringSolo.tree [("b", ⟨.success, none⟩)]
      ⟨0, 0⟩ {}).2.2 = some (.unwritable uncoveringSolo.store.path .isDirectory) := by
    decide +kernel
  obtain ⟨hread, -⟩ := h.failed _ _ _ _ _ _ (Prod.ext rfl (Prod.ext rfl hfault))
  exact absurd hread (by decide +kernel)

end Peers

end Solo

end CheckpointStore
end BatchRun
