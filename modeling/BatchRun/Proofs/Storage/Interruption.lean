import BatchRun.Proofs.Storage.Tree

/-!
# Changes that break off

**Types.**
Two trees are the `Same` if the same lies at each place of them, and `SameApart` from a place if the
same lies at each other one.  A `Disk` tells which of some
changes break off, and `Tree.attempt` makes them on it.  `Tree.Halted` relates a tree to all that
may be left when not all of the changes are made.

**Results.**
* `attempt_of_same`: what a disk answers depends only on what lies where, and so does what is left.
* `attempt_calm`: on a disk without faults an attempt makes the changes.
* `halted_of_attempt`, `interrupted_iff`: attempts that fail and changes that are interrupted leave
  what halted changes leave.
* `halted_append`: changes halt among the first of them, or among the last when the first are made.
-/

namespace BatchRun

open Storage
open Text

namespace Tree

section Same

variable {tree other : Tree} {path : Path} {place : Place} {components : List Component}

/-- The same lies at each place. -/
def Same (tree other : Tree) : Prop :=
  ∀ place, tree.node? place = other.node? place

/-- The same lies at each place but one, where no directory lies or both have one. -/
structure SameApart (place : Place) (tree other : Tree) : Prop where
  nodes : ∀ elsewhere, elsewhere ≠ place → tree.node? elsewhere = other.node? elsewhere
  directory : tree.node? place = some .directory ↔ other.node? place = some .directory

theorem Same.apart
    (same : Same tree other)
    (place : Place) :
    SameApart place tree other :=
  ⟨fun elsewhere _ => same elsewhere, by rw [same place]⟩

theorem same_put_of_apart
    (h : SameApart place tree other)
    (node : Node) :
    Same (tree.put place node) (other.put place node) := by
  intro elsewhere
  by_cases heq : elsewhere = place
  · rw [heq]
    by_cases htop : place = []
    · rw [htop]
      rfl
    · rw [node?_put_self _ _ htop, node?_put_self _ _ htop]
  · rw [node?_put_ne _ _ heq, node?_put_ne _ _ heq]
    exact h.nodes elsewhere heq

theorem same_put
    (same : Same tree other)
    (place : Place)
    (node : Node) :
    Same (tree.put place node) (other.put place node) :=
  same_put_of_apart (same.apart place) node

theorem same_remove
    (same : Same tree other)
    (place : Place) :
    Same (tree.remove place) (other.remove place) := by
  intro elsewhere
  by_cases heq : elsewhere = place
  · subst heq
    by_cases htop : elsewhere = []
    · rw [htop]
      rfl
    · rw [node?_remove_self _ htop, node?_remove_self _ htop]
  · rw [node?_remove_ne _ heq, node?_remove_ne _ heq]
    exact same elsewhere

theorem obstacle?_of_same
    (same : Same tree other)
    (place : Place)
    (components : List Component) :
    tree.obstacle? place components = other.obstacle? place components := by
  induction components generalizing place with
  | nil => rfl
  | cons component components ih =>
      cases components with
      | nil => rfl
      | cons next components =>
          rw [obstacle?_cons, obstacle?_cons, same (place.step component), ih]

theorem find_of_same
    (same : Same tree other)
    (path : Path) :
    tree.find path = other.find path := by
  unfold find
  rw [obstacle?_of_same same, same path.place]

theorem read_of_same
    (same : Same tree other)
    (path : Path) :
    tree.read path = other.read path := by
  unfold read
  rw [find_of_same same]

theorem misfit_of_same
    (same : Same tree other)
    (path : Path) :
    tree.misfit path = other.misfit path := by
  unfold misfit
  rw [obstacle?_of_same same, find_of_same same]

theorem makeDirectories_of_same
    (same : Same tree other)
    (place : Place)
    (components : List Component) :
    (tree.makeDirectories place components).2 = (other.makeDirectories place components).2 ∧
      Same (tree.makeDirectories place components).1
        (other.makeDirectories place components).1 := by
  induction components generalizing tree other place with
  | nil => exact ⟨rfl, same⟩
  | cons component components ih =>
      rw [makeDirectories, makeDirectories, ← same (place.step component)]
      split
      case h_1 => exact ih same _
      case h_2 => exact ⟨rfl, same⟩
      case h_3 => exact ih (same_put same _ _) _

/-- Outcomes of one change that has the same effect on two trees. -/
inductive Agrees : Except Storage.Fault Tree → Except Storage.Fault Tree → Prop
  | failed (fault : Storage.Fault) : Agrees (.error fault) (.error fault)
  | made {tree other : Tree} (same : Same tree other) : Agrees (.ok tree) (.ok other)

theorem changeFile_eq
    (tree : Tree)
    (path : Path)
    (change : Option Bytes → Except Storage.Fault Bytes) :
    tree.changeFile path change =
      match tree.find path with
      | .error fault => .error fault
      | .ok (some .directory) => .error .isDirectory
      | .ok found =>
        (change (found.bind bytes?)).map fun bytes => tree.put path.place (.file bytes) := by
  unfold changeFile
  cases tree.find path with
  | error fault => rfl
  | ok found =>
      cases found with
      | none =>
          change (change none >>= _) = (change none).map _
          cases change none <;> rfl
      | some node =>
          cases node with
          | directory => rfl
          | file bytes =>
              change (change (some bytes) >>= _) = (change (some bytes)).map _
              cases change (some bytes) <;> rfl

theorem changeFile_of_same
    (same : Same tree other)
    (path : Path)
    (change : Option Bytes → Except Storage.Fault Bytes) :
    Agrees (tree.changeFile path change) (other.changeFile path change) := by
  rw [changeFile_eq, changeFile_eq, ← find_of_same same]
  split
  case h_1 fault _ => exact .failed fault
  case h_2 => exact .failed _
  case h_3 found _ _ =>
      cases change (found.bind bytes?) with
      | error fault => exact .failed fault
      | ok bytes => exact .made (same_put same _ _)

theorem perform_of_same
    (same : Same tree other)
    (command : Command) :
    Agrees (tree.perform command) (other.perform command) := by
  cases command with
  | makeDirectories path =>
      obtain ⟨hfault, hsame⟩ := makeDirectories_of_same same [] path.components
      rw [perform, perform]
      cases hmade : tree.makeDirectories [] path.components with
      | mk made fault =>
          cases hother : other.makeDirectories [] path.components with
          | mk others failure =>
              rw [hmade, hother] at hfault hsame
              cases hfault
              cases fault with
              | none => exact .made hsame
              | some fault => exact .failed fault
  | create path => exact changeFile_of_same same path _
  | ensure path => exact changeFile_of_same same path _
  | write path bytes => exact changeFile_of_same same path _
  | cut path length => exact changeFile_of_same same path _
  | sync path => exact .made same
  | rename source target =>
      rw [perform, perform, ← read_of_same same source, ← misfit_of_same same target]
      cases tree.read source with
      | error fault => exact .failed fault
      | ok bytes =>
          simp only [bind, Except.bind]
          split
          case isTrue => exact changeFile_of_same (same_remove same _) target _
          case isFalse => exact .failed _

end Same

section Apart

variable {tree other next : Tree} {path : Path} {place : Place} {components : List Component}

theorem SameApart.refl
    (place : Place)
    (tree : Tree) :
    SameApart place tree tree :=
  ⟨fun _ _ => rfl, Iff.rfl⟩

theorem SameApart.symm
    (h : SameApart place tree other) :
    SameApart place other tree :=
  ⟨fun elsewhere ne => (h.nodes elsewhere ne).symm, h.directory.symm⟩

theorem SameApart.trans
    (first : SameApart place tree other)
    (second : SameApart place other next) :
    SameApart place tree next :=
  ⟨fun elsewhere ne => (first.nodes elsewhere ne).trans (second.nodes elsewhere ne),
    first.directory.trans second.directory⟩

theorem SameApart.sameDirectories
    (h : SameApart place tree other) :
    SameDirectories tree other := by
  intro elsewhere
  by_cases heq : elsewhere = place
  · rw [heq]
    exact h.directory
  · rw [h.nodes elsewhere heq]

/-- A change of a file leaves all but its place. -/
theorem apart_changeFile
    {change : Option Bytes → Except Storage.Fault Bytes}
    (h : tree.changeFile path change = .ok next) :
    SameApart path.place tree next := by
  have hdirectory := sameDirectories_changeFile h path.place
  obtain ⟨found, bytes, -, -, -, rfl⟩ := changeFile_eq_ok.mp h
  exact ⟨fun elsewhere ne => (node?_put_ne tree _ ne).symm, hdirectory⟩

/-- A path that can be followed in both trees has the same at it, away from the place. -/
theorem read_of_apart
    (h : SameApart place tree other)
    (free : tree.obstacle? [] path.components = none)
    (ne : path.place ≠ place) :
    tree.read path = other.read path := by
  have hfree := obstacle?_of_keepsDirectories h.sameDirectories.keeps free
  unfold read find
  rw [free, hfree, h.nodes path.place ne]

/-- A path with one more component can be followed if there is a directory at the path. -/
theorem obstacle?_concat
    (tree : Tree)
    (place : Place)
    (filled : components ≠ [])
    (last : Component) :
    tree.obstacle? place (components ++ [last]) =
      match tree.obstacle? place components with
      | some fault => some fault
      | none =>
        match tree.node? (components.foldl Place.step place) with
        | none => some .notFound
        | some (.file _) => some .notDirectory
        | some .directory => none := by
  induction components generalizing place with
  | nil => exact absurd rfl filled
  | cons component components ih =>
      cases components with
      | nil =>
          rw [List.singleton_append, obstacle?_cons]
          rfl
      | cons further components =>
          rw [List.cons_append, List.cons_append, obstacle?_cons, obstacle?_cons,
            ← List.cons_append, ih _ (List.cons_ne_nil further components)]
          cases tree.node? (place.step component) with
          | none => rfl
          | some node => cases node <;> rfl

/-- The last component does not stand in its own way. -/
theorem obstacle?_last
    (tree : Tree)
    (place : Place)
    (components : List Component)
    (last further : Component) :
    tree.obstacle? place (components ++ [last]) =
      tree.obstacle? place (components ++ [further]) := by
  cases components with
  | nil => rfl
  | cons component components =>
      have hne := List.cons_ne_nil component components
      rw [obstacle?_concat tree place hne, obstacle?_concat tree place hne]

end Apart

section Attempts

/-- How a change breaks off: how much of it arrives, and the fault that is told. -/
structure Stop where
  arrived : Nat
  fault : Storage.Fault

/-- Which of some changes break off. -/
abbrev Disk := Nat → Option Stop

/-- A disk without faults. -/
def calm : Disk := fun _ => none

/-- The disk behind the first changes. -/
def Disk.behind (disk : Disk) (count : Nat) : Disk := fun step => disk (count + step)

variable {tree other next torn : Tree} {command : Command} {commands first last : List Command}
  {disk : Disk} {fault : Storage.Fault}

/-- What is left of a change of which only a part has arrived. -/
def partly (tree : Tree) (arrived : Nat) : Command → Tree
  | .makeDirectories path => (tree.makeDirectories [] (path.components.take arrived)).1
  | .write path bytes =>
    match tree.perform (.write path (bytes.take arrived)) with
    | .ok torn => torn
    | .error _ => tree
  | _ => tree

/-- Makes changes on a disk, up to the first that fails or breaks off. -/
def attempt (tree : Tree) (disk : Disk) : List Command → Tree × Option Storage.Fault
  | [] => (tree, none)
  | command :: commands =>
    match disk 0 with
    | some stop => (tree.partly stop.arrived command, some stop.fault)
    | none =>
      match tree.perform command with
      | .error fault => (tree.leftover command, some fault)
      | .ok next => next.attempt (disk.behind 1) commands

/-- What is left when not all changes are made. -/
inductive Halted : Tree → List Command → Tree → Prop
  | here {tree torn : Tree} {command : Command} (commands : List Command)
      (h : Broken tree command torn) : Halted tree (command :: commands) torn
  | later {tree next torn : Tree} {command : Command} {commands : List Command}
      (h : tree.perform command = .ok next) (rest : Halted next commands torn) :
      Halted tree (command :: commands) torn

theorem attempt_calm
    (tree : Tree)
    (commands : List Command) :
    tree.attempt calm commands = tree.performAll commands := by
  induction commands generalizing tree with
  | nil => rfl
  | cons command commands ih =>
      have hdisk : calm.behind 1 = calm := rfl
      rw [attempt, performAll, hdisk]
      cases tree.perform command with
      | error fault => rfl
      | ok next => exact ih next

theorem broken_partly
    (tree : Tree)
    (arrived : Nat)
    (command : Command) :
    Broken tree command (tree.partly arrived command) := by
  unfold partly
  split
  case h_1 path => exact .made tree path arrived
  case h_2 path bytes =>
      split
      case h_1 torn htorn => exact .written tree path bytes arrived torn htorn
      case h_2 => exact .unchanged tree _
  case h_3 => exact .unchanged tree _

theorem broken_leftover
    (tree : Tree)
    (command : Command) :
    Broken tree command (tree.leftover command) := by
  unfold leftover
  split
  case h_1 path =>
      have hall := Broken.made tree path path.components.length
      rwa [List.take_length] at hall
  case h_2 => exact .unchanged tree _

/-- Changes that fail leave what halted changes leave. -/
theorem halted_of_attempt
    (h : tree.attempt disk commands = (torn, some fault)) :
    Halted tree commands torn := by
  induction commands generalizing tree disk with
  | nil => cases h
  | cons command commands ih =>
      rw [attempt] at h
      split at h
      case h_1 stop _ =>
          cases h
          exact .here commands (broken_partly tree stop.arrived command)
      case h_2 =>
          split at h
          case h_1 =>
              cases h
              exact .here commands (broken_leftover tree command)
          case h_2 next hnext => exact .later hnext (ih h)

theorem performAll_of_attempt
    (h : tree.attempt disk commands = (next, none)) :
    tree.performAll commands = (next, none) := by
  induction commands generalizing tree disk with
  | nil => exact h
  | cons command commands ih =>
      rw [attempt] at h
      split at h
      case h_1 => cases h
      case h_2 =>
          split at h
          case h_1 => cases h
          case h_2 between hbetween =>
              rw [performAll_cons_ok hbetween]
              exact ih h

/-- Changes that are interrupted have halted, or all of them are made. -/
theorem interrupted_iff :
    Interrupted tree commands torn ↔
      Halted tree commands torn ∨ tree.performAll commands = (torn, none) := by
  constructor
  · intro h
    induction h with
    | done => exact .inr rfl
    | here commands hbroken => exact .inl (.here commands hbroken)
    | later hnext rest ih =>
        rcases ih with hhalted | hmade
        · exact .inl (.later hnext hhalted)
        · exact .inr ((performAll_cons_ok hnext).trans hmade)
  · rintro (h | h)
    · induction h with
      | here commands hbroken => exact .here commands hbroken
      | later hnext rest ih => exact .later hnext ih
    · induction commands generalizing tree with
      | nil =>
          cases h
          exact .done _
      | cons command commands ih =>
          obtain ⟨next, hnext, hrest⟩ := performAll_cons h
          exact .later hnext (ih hrest)

/-- Changes halt among the first of them, or among the last when the first are made. -/
theorem halted_append
    (h : Halted tree (first ++ last) torn) :
    Halted tree first torn ∨
      ∃ next, tree.performAll first = (next, none) ∧ Halted next last torn := by
  induction first generalizing tree with
  | nil => exact .inr ⟨tree, rfl, h⟩
  | cons command first ih =>
      cases h with
      | here _ hbroken => exact .inl (.here first hbroken)
      | later hnext rest =>
          rcases ih rest with hfirst | ⟨next, hmade, hlast⟩
          · exact .inl (.later hnext hfirst)
          · exact .inr ⟨next, (performAll_cons_ok hnext).trans hmade, hlast⟩

theorem attempt_append
    (tree : Tree)
    (disk : Disk)
    (first last : List Command) :
    tree.attempt disk (first ++ last) =
      match tree.attempt disk first with
      | (torn, some fault) => (torn, some fault)
      | (next, none) => next.attempt (disk.behind first.length) last := by
  induction first generalizing tree disk with
  | nil =>
      have hdisk : disk.behind 0 = disk := funext fun step => congrArg disk (Nat.zero_add step)
      rw [List.nil_append, attempt, List.length_nil, hdisk]
  | cons command first ih =>
      have hdisk : (disk.behind 1).behind first.length = disk.behind (command :: first).length := by
        funext step
        exact congrArg disk (by rw [List.length_cons]; omega)
      rw [List.cons_append, attempt, attempt]
      cases hstop : disk 0 with
      | some stop => rfl
      | none =>
          cases hnext : tree.perform command with
          | error fault => rfl
          | ok next => exact (ih next (disk.behind 1)).trans (by rw [hdisk])

theorem partly_of_same
    (same : Same tree other)
    (arrived : Nat)
    (command : Command) :
    Same (tree.partly arrived command) (other.partly arrived command) := by
  cases command with
  | makeDirectories path => exact (makeDirectories_of_same same [] _).2
  | write path bytes =>
      have hagrees := perform_of_same same (.write path (bytes.take arrived))
      rw [partly, partly]
      generalize tree.perform (.write path (bytes.take arrived)) = outcome at hagrees
      generalize other.perform (.write path (bytes.take arrived)) = answer at hagrees
      cases hagrees with
      | failed => exact same
      | made hsame => exact hsame
  | create path => exact same
  | ensure path => exact same
  | cut path length => exact same
  | sync path => exact same
  | rename source target => exact same

theorem leftover_of_same
    (same : Same tree other)
    (command : Command) :
    Same (tree.leftover command) (other.leftover command) := by
  cases command with
  | makeDirectories path => exact (makeDirectories_of_same same [] path.components).2
  | _ => exact same

/-- What a disk answers depends only on what lies where, and so does what is left. -/
theorem attempt_of_same
    (same : Same tree other)
    (disk : Disk)
    (commands : List Command) :
    (tree.attempt disk commands).2 = (other.attempt disk commands).2 ∧
      Same (tree.attempt disk commands).1 (other.attempt disk commands).1 := by
  induction commands generalizing tree other disk with
  | nil => exact ⟨rfl, same⟩
  | cons command commands ih =>
      rw [attempt, attempt]
      cases disk 0 with
      | some stop => exact ⟨rfl, partly_of_same same stop.arrived command⟩
      | none =>
          have hagrees := perform_of_same same command
          generalize tree.perform command = outcome at hagrees
          generalize other.perform command = answer at hagrees
          cases hagrees with
          | failed fault => exact ⟨rfl, leftover_of_same same command⟩
          | made hsame => exact ih hsame _

end Attempts

end Tree
end BatchRun
