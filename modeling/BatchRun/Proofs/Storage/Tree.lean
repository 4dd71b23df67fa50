import BatchRun.Storage.Tree

/-!
# Changes of trees of files

**Type.**
Two trees have the `SameDirectories` if their directories lie at the same places.

**Results.**
* `node?_put_self`, `node?_put_ne`: a node that is put at a place leaves all other places.
* `read_changeFile`: a file that is changed has the new bytes.
* `performAll_cons`, `performAll_append`: changes that are all made are made one after another.
* `sameDirectories_changeFile`, `sameDirectories_remove`: changes of files leave the directories.
* `read_changeFile_ne`, `read_changeFile_same`: what a changed file and all others hold.
* `makeDirectories_again`, `changeFile_again`: what was made once can be made again.
* `read_replacing`, `replacing_again`: a file that is replaced by a draft has the bytes of the
  draft, and can be replaced once more.
-/

namespace BatchRun

open Storage
open Text

namespace Tree

section Nodes

variable {tree : Tree} {place other : Place} {node : Node}

theorem node?_of_ne_nil
    (tree : Tree)
    (h : place ≠ []) :
    tree.node? place = (tree.nodes.find? (fun node => node.1 == place)).map Prod.snd := by
  cases place with
  | nil => exact absurd rfl h
  | cons name names => rfl

theorem node?_put_self
    (tree : Tree)
    (node : Node)
    (h : place ≠ []) :
    (tree.put place node).node? place = some node := by
  rw [node?_of_ne_nil _ h]
  unfold put
  split
  case isTrue hold =>
      rw [List.any_eq_true] at hold
      obtain ⟨old, hmem, hplace⟩ := hold
      have hsome : (tree.nodes.find? fun node => node.1 == place).isSome := by
        rw [List.find?_isSome]
        exact ⟨old, hmem, hplace⟩
      obtain ⟨found, hfound⟩ := Option.isSome_iff_exists.mp hsome
      have hkeep : (fun new : Place × Node => new.1 == place) ∘
          (fun old => if old.1 = place then (place, node) else old) =
            fun old => old.1 == place := by
        funext old
        by_cases heq : old.1 = place <;> simp [heq]
      have hsame : found.1 = place := by simpa using List.find?_some hfound
      rw [List.find?_map, hkeep, hfound]
      simp [hsame]
  case isFalse hnone =>
      have hnot : tree.nodes.find? (fun node => node.1 == place) = none := by
        rw [List.find?_eq_none]
        intro old hold heq
        exact hnone (List.any_eq_true.mpr ⟨old, hold, heq⟩)
      simp [List.find?_append, hnot]

theorem node?_put_ne
    (tree : Tree)
    (node : Node)
    (h : other ≠ place) :
    (tree.put place node).node? other = tree.node? other := by
  by_cases hother : other = []
  · rw [hother]
    rfl
  · rw [node?_of_ne_nil _ hother, node?_of_ne_nil _ hother]
    have hplace : (place == other) = false := by simpa using h.symm
    unfold put
    split
    case isTrue =>
        have hkeep : (fun new : Place × Node => new.1 == other) ∘
            (fun old => if old.1 = place then (place, node) else old) =
              fun old => old.1 == other := by
          funext old
          by_cases heq : old.1 = place
          · simp [heq]
          · simp [heq]
        rw [List.find?_map, hkeep, Option.map_map]
        cases hfound : tree.nodes.find? (fun old => old.1 == other) with
        | none => rfl
        | some found =>
            have hsame : found.1 = other := by simpa using List.find?_some hfound
            have hne : found.1 ≠ place := hsame ▸ h
            simp [hne]
    case isFalse => simp [List.find?_append, hplace]

/-- The last node that is put at a place stays. -/
theorem put_put
    (tree : Tree)
    (node other : Node) :
    (tree.put place node).put place other = tree.put place other := by
  unfold put
  split
  case isTrue hold =>
      have hagain : (tree.nodes.map fun old => if old.1 = place then (place, node) else old).any
          (fun old => old.1 == place) = true := by
        rw [List.any_eq_true] at hold ⊢
        obtain ⟨old, hmem, hplace⟩ := hold
        refine ⟨(place, node), List.mem_map.mpr ⟨old, hmem, ?_⟩, beq_self_eq_true place⟩
        simp [beq_iff_eq.mp hplace]
      rw [if_pos hagain, List.map_map]
      congr 2
      funext old
      by_cases h : old.1 = place <;> simp [h]
  case isFalse hnone =>
      have hsame : tree.nodes.map (fun old => if old.1 = place then (place, other) else old) =
          tree.nodes := by
        refine (List.map_congr_left fun old hold => ?_).trans (List.map_id tree.nodes)
        have hne : old.1 ≠ place := fun heq =>
          hnone (List.any_eq_true.mpr ⟨old, hold, beq_iff_eq.mpr heq⟩)
        exact if_neg hne
      simp [hsame]

theorem ne_nil_of_node?_ne
    (h : tree.node? place ≠ some .directory) :
    place ≠ [] := by
  rintro rfl
  exact h rfl

theorem ne_nil_of_node?_eq_none
    (h : tree.node? place = none) :
    place ≠ [] := by
  rintro rfl
  cases h

end Nodes

section Directories

variable {tree next later : Tree} {place : Place}

/-- The directories lie at the same places. -/
def SameDirectories (tree next : Tree) : Prop :=
  ∀ place, tree.node? place = some .directory ↔ next.node? place = some .directory

theorem SameDirectories.symm
    (h : SameDirectories tree next) :
    SameDirectories next tree :=
  fun place => (h place).symm

theorem SameDirectories.trans
    (first : SameDirectories tree next)
    (second : SameDirectories next later) :
    SameDirectories tree later :=
  fun place => (first place).trans (second place)

theorem sameDirectories_put
    (bytes : Bytes)
    (h : tree.node? place ≠ some .directory) :
    SameDirectories tree (tree.put place (.file bytes)) := by
  intro other
  by_cases heq : other = place
  · rw [heq, node?_put_self tree _ (ne_nil_of_node?_ne h)]
    exact ⟨fun hold => absurd hold h, nofun⟩
  · rw [node?_put_ne tree _ heq]

theorem node?_remove_self
    (tree : Tree)
    (h : place ≠ []) :
    (tree.remove place).node? place = none := by
  rw [node?_of_ne_nil _ h, remove]
  simp

theorem node?_remove_ne
    {other : Place}
    (tree : Tree)
    (h : other ≠ place) :
    (tree.remove place).node? other = tree.node? other := by
  by_cases hother : other = []
  · rw [hother]
    rfl
  rw [node?_of_ne_nil _ hother, node?_of_ne_nil _ hother, remove, List.find?_filter]
  congr 2
  funext node
  by_cases hnode : node.1 = other
  · simp [hnode, h]
  · simp [hnode]

theorem sameDirectories_remove
    (h : tree.node? place ≠ some .directory) :
    SameDirectories tree (tree.remove place) := by
  intro other
  by_cases heq : other = place
  · rw [heq, node?_remove_self tree (ne_nil_of_node?_ne h)]
    exact ⟨fun hold => absurd hold h, nofun⟩
  · rw [node?_remove_ne tree heq]

/-- Directories that lie somewhere stay where they are. -/
def KeepsDirectories (tree next : Tree) : Prop :=
  ∀ place, tree.node? place = some .directory → next.node? place = some .directory

theorem SameDirectories.keeps
    (h : SameDirectories tree next) :
    KeepsDirectories tree next :=
  fun place => (h place).mp

theorem obstacle?_cons
    (tree : Tree)
    (place : Place)
    (component next : Component)
    (components : List Component) :
    tree.obstacle? place (component :: next :: components) =
      match tree.node? (place.step component) with
      | none => some .notFound
      | some (.file _) => some .notDirectory
      | some .directory => tree.obstacle? (place.step component) (next :: components) :=
  rfl

/-- Paths that could be followed still can. -/
theorem obstacle?_of_keepsDirectories
    {components : List Component}
    (h : KeepsDirectories tree next)
    (free : tree.obstacle? place components = none) :
    next.obstacle? place components = none := by
  induction components generalizing place with
  | nil => rfl
  | cons component components ih =>
      cases components with
      | nil => rfl
      | cons further components =>
          rw [obstacle?_cons] at free ⊢
          split at free
          case h_1 => cases free
          case h_2 => cases free
          case h_3 hnode =>
              simp only [h _ hnode]
              exact ih free

end Directories

section Files

variable {tree next : Tree} {path : Path} {bytes : Bytes} {found : Option Node}

theorem find_eq_ok :
    tree.find path = .ok found ↔
      path.text.isEmpty = false ∧ tree.obstacle? [] path.components = none ∧
        (found ≠ some .directory → path.ending = .name) ∧ tree.node? path.place = found := by
  unfold find
  split
  case isTrue h => simp [h]
  case isFalse h =>
      split
      case h_1 hfault => simp [hfault]
      case h_2 hfree =>
          split
          case h_1 hnode =>
              simp only [h, hfree, hnode, Except.ok.injEq]
              constructor
              · rintro rfl
                exact ⟨trivial, trivial, fun hne => absurd rfl hne, rfl⟩
              · rintro ⟨-, -, -, hfound⟩
                exact hfound
          case h_2 hnode =>
              split
              case isTrue hname => simp [h, hfree, hname]
              case isFalse hname =>
                  constructor
                  · exact nofun
                  · rintro ⟨-, -, hending, rfl⟩
                    exact absurd (hending hnode) hname

theorem node?_of_find
    (h : tree.find path = .ok found) :
    tree.node? path.place = found :=
  (find_eq_ok.mp h).2.2.2

theorem find_of_obstacle?
    {fault : Storage.Fault}
    (filled : path.text.isEmpty = false)
    (h : tree.obstacle? [] path.components = some fault) :
    tree.find path = .error fault := by
  unfold find
  rw [filled, h]
  rfl

theorem find_of_free
    (filled : path.text.isEmpty = false)
    (named : path.ending = .name)
    (free : tree.obstacle? [] path.components = none) :
    tree.find path = .ok (tree.node? path.place) :=
  find_eq_ok.mpr ⟨filled, free, fun _ => named, rfl⟩

theorem read_eq_ok :
    tree.read path = .ok bytes ↔ tree.find path = .ok (some (.file bytes)) := by
  unfold read
  split
  case h_1 h => simp [h]
  case h_2 h => simp [h]
  case h_3 h => simp [h]
  case h_4 h => simp [h]

/-- Bytes of a file. -/
def bytes? : Node → Option Bytes
  | .file bytes => some bytes
  | .directory => none

/-- A file is changed where no directory is found. -/
theorem changeFile_eq_ok
    {change : Option Bytes → Except Storage.Fault Bytes} :
    tree.changeFile path change = .ok next ↔
      ∃ found bytes, tree.find path = .ok found ∧ found ≠ some .directory ∧
        change (found.bind bytes?) = .ok bytes ∧ next = tree.put path.place (.file bytes) := by
  unfold changeFile
  cases hfind : tree.find path with
  | error fault =>
      constructor
      · exact nofun
      · rintro ⟨found, bytes, hfound, -⟩
        cases hfound
  | ok found =>
      have hchange : ∀ old, (change old >>= fun bytes =>
          (pure (tree.put path.place (.file bytes)) : Except Storage.Fault Tree)) = .ok next ↔
            ∃ bytes, change old = .ok bytes ∧ next = tree.put path.place (.file bytes) := by
        intro old
        cases hnew : change old with
        | error fault =>
            constructor
            · exact nofun
            · rintro ⟨bytes, hbytes, -⟩
              cases hbytes
        | ok bytes =>
            constructor
            · intro h
              exact ⟨bytes, rfl, (Except.ok.inj h).symm⟩
            · rintro ⟨other, hother, rfl⟩
              cases hother
              rfl
      constructor
      · intro h
        match found, h with
        | none, h =>
            obtain ⟨bytes, hnew, hnext⟩ := (hchange none).mp h
            exact ⟨none, bytes, rfl, nofun, hnew, hnext⟩
        | some .directory, h => cases h
        | some (.file old), h =>
            obtain ⟨bytes, hnew, hnext⟩ := (hchange (some old)).mp h
            exact ⟨some (.file old), bytes, rfl, nofun, hnew, hnext⟩
      · rintro ⟨other, bytes, hother, hne, hnew, hnext⟩
        cases hother
        match found, hne, hnew with
        | none, _, hnew => exact (hchange none).mpr ⟨bytes, hnew, hnext⟩
        | some .directory, hne, _ => exact absurd rfl hne
        | some (.file old), _, hnew => exact (hchange (some old)).mpr ⟨bytes, hnew, hnext⟩

/-- A file that is put in the place of what was found there is read. -/
theorem read_put
    (h : tree.find path = .ok found)
    (not_directory : found ≠ some .directory)
    (bytes : Bytes) :
    (tree.put path.place (.file bytes)).read path = .ok bytes := by
  obtain ⟨htext, hfree, hending, hnode⟩ := find_eq_ok.mp h
  rw [← hnode] at not_directory hending
  have hkeeps := (sameDirectories_put bytes not_directory).keeps
  rw [read_eq_ok, find_eq_ok]
  exact ⟨htext, obstacle?_of_keepsDirectories hkeeps hfree, fun _ => hending not_directory,
    node?_put_self tree _ (ne_nil_of_node?_ne not_directory)⟩

/-- A file that gets new bytes has them. -/
theorem read_changeFile
    (h : tree.changeFile path (fun _ => .ok bytes) = .ok next) :
    next.read path = .ok bytes := by
  obtain ⟨found, new, hfind, hne, hnew, rfl⟩ := changeFile_eq_ok.mp h
  cases hnew
  exact read_put hfind hne bytes

theorem changeOldFile_eq_ok
    {change : Bytes → Bytes}
    (h : tree.read path = .ok bytes) :
    tree.changeOldFile path change =
      .ok (tree.put path.place (.file (change bytes))) := by
  unfold changeOldFile
  rw [changeFile_eq_ok]
  exact ⟨some (.file bytes), change bytes, read_eq_ok.mp h, nofun, rfl, rfl⟩

theorem read_put_of_read
    (h : tree.read path = .ok bytes)
    (new : Bytes) :
    (tree.put path.place (.file new)).read path = .ok new :=
  read_put (read_eq_ok.mp h) nofun new

end Files

section Commands

variable {tree final : Tree} {command : Command} {commands first last : List Command}

theorem performAll_cons
    (h : tree.performAll (command :: commands) = (final, none)) :
    ∃ next, tree.perform command = .ok next ∧ next.performAll commands = (final, none) := by
  rw [performAll] at h
  split at h
  case h_1 => cases h
  case h_2 next hnext => exact ⟨next, hnext, h⟩

theorem performAll_cons_ok
    {next : Tree}
    (h : tree.perform command = .ok next) :
    tree.performAll (command :: commands) = next.performAll commands := by
  rw [performAll, h]

theorem performAll_append_ok
    {next : Tree}
    (h : tree.performAll first = (next, none))
    (hlast : next.performAll last = (final, none)) :
    tree.performAll (first ++ last) = (final, none) := by
  induction first generalizing tree with
  | nil =>
      cases h
      exact hlast
  | cons command first ih =>
      obtain ⟨middle, hmiddle, hrest⟩ := performAll_cons h
      rw [List.cons_append, performAll_cons_ok hmiddle]
      exact ih hrest

theorem performAll_append
    (h : tree.performAll (first ++ last) = (final, none)) :
    ∃ next, tree.performAll first = (next, none) ∧ next.performAll last = (final, none) := by
  induction first generalizing tree with
  | nil => exact ⟨tree, rfl, h⟩
  | cons command first ih =>
      obtain ⟨middle, hmiddle, hrest⟩ := performAll_cons h
      obtain ⟨next, hnext, hlast⟩ := ih hrest
      refine ⟨next, ?_, hlast⟩
      rw [performAll_cons_ok hmiddle]
      exact hnext

end Commands

section Making

variable {tree next later : Tree} {path : Path} {bytes : Bytes} {place : Place}
  {components : List Component}

theorem sameDirectories_changeFile
    {change : Option Bytes → Except Storage.Fault Bytes}
    (h : tree.changeFile path change = .ok next) :
    SameDirectories tree next := by
  obtain ⟨found, bytes, hfind, hne, -, rfl⟩ := changeFile_eq_ok.mp h
  rw [← node?_of_find hfind] at hne
  exact sameDirectories_put bytes hne

/-- A file that was given bytes once can be given bytes again. -/
theorem changeFile_again
    {old : Bytes}
    (same : SameDirectories tree later)
    (h : tree.changeFile path (fun _ => .ok old) = .ok next)
    (new : Bytes) :
    ∃ final, later.changeFile path (fun _ => .ok new) = .ok final := by
  obtain ⟨found, bytes, hfind, hne, -, -⟩ := changeFile_eq_ok.mp h
  obtain ⟨htext, hfree, hending, hnode⟩ := find_eq_ok.mp hfind
  refine ⟨_, changeFile_eq_ok.mpr ⟨later.node? path.place, new, ?_, ?_, rfl, rfl⟩⟩
  · have hlater := obstacle?_of_keepsDirectories same.keeps hfree
    exact find_eq_ok.mpr ⟨htext, hlater, fun _ => hending hne, rfl⟩
  · intro hdirectory
    exact hne (hnode ▸ (same path.place).mpr hdirectory)

theorem perform_makeDirectories :
    tree.perform (.makeDirectories path) = .ok next ↔
      tree.makeDirectories [] path.components = (next, none) := by
  rw [perform]
  cases hmade : tree.makeDirectories [] path.components with
  | mk made fault =>
      cases fault with
      | none => exact ⟨fun h => by rw [Except.ok.inj h], fun h => by rw [(Prod.mk.inj h).1]⟩
      | some fault => exact ⟨nofun, fun h => nomatch (Prod.mk.inj h).2⟩

/-- Directories that are made, up to the first that cannot be made, are left behind. -/
theorem performAll_makeDirectories
    {fault : Option Storage.Fault}
    (h : tree.performAll [.makeDirectories path] = (next, fault)) :
    (tree.makeDirectories [] path.components).1 = next := by
  rw [performAll] at h
  split at h
  case h_1 => exact (Prod.mk.inj h).1
  case h_2 made hmade =>
      rw [perform_makeDirectories.mp hmade]
      exact (Prod.mk.inj h).1

/-- Whatever lies somewhere is left there when directories are made. -/
theorem node?_makeDirectories
    {other : Place} {node : Node}
    (hnode : tree.node? other = some node) :
    (tree.makeDirectories place components).1.node? other = some node := by
  induction components generalizing tree place with
  | nil => exact hnode
  | cons component components ih =>
      rw [makeDirectories]
      split
      case h_1 => exact ih hnode
      case h_2 => exact hnode
      case h_3 hnone =>
          have hne : other ≠ place.step component := by
            rintro rfl
            rw [hnone] at hnode
            cases hnode
          exact ih ((node?_put_ne tree _ hne).trans hnode)

theorem keepsDirectories_makeDirectories
    (tree : Tree)
    (place : Place)
    (components : List Component) :
    KeepsDirectories tree (tree.makeDirectories place components).1 :=
  fun _ hplace => node?_makeDirectories hplace

/-- Directories that are there need not be made. -/
theorem makeDirectories_again
    (h : tree.makeDirectories place components = (next, none))
    (keeps : KeepsDirectories next later) :
    later.makeDirectories place components = (later, none) := by
  induction components generalizing tree place with
  | nil => rfl
  | cons component components ih =>
      have hmade : ∀ between : Tree, between.node? (place.step component) = some .directory →
          between.makeDirectories (place.step component) components = (next, none) →
          later.makeDirectories place (component :: components) = (later, none) := by
        intro between hnode hrest
        have hnext : next.node? (place.step component) = some .directory := by
          have hkept := keepsDirectories_makeDirectories between (place.step component) components
          rw [hrest] at hkept
          exact hkept _ hnode
        rw [makeDirectories]
        simp only [keeps _ hnext]
        exact ih hrest
      rw [makeDirectories] at h
      split at h
      case h_1 hnode => exact hmade tree hnode h
      case h_2 => cases h
      case h_3 hnone =>
          exact hmade _ (node?_put_self tree _ (ne_nil_of_node?_eq_none hnone)) h

end Making

section Reading

variable {tree next : Tree} {path other : Path} {bytes new : Bytes}

theorem read_of_node?
    (keeps : KeepsDirectories tree next)
    (h : tree.read other = .ok bytes)
    (node : next.node? other.place = some (.file new)) :
    next.read other = .ok new := by
  obtain ⟨htext, hfree, hending, -⟩ := find_eq_ok.mp (read_eq_ok.mp h)
  rw [read_eq_ok, find_eq_ok]
  exact ⟨htext, obstacle?_of_keepsDirectories keeps hfree, fun _ => hending nofun, node⟩

theorem node?_of_read
    (h : tree.read other = .ok bytes) :
    tree.node? other.place = some (.file bytes) :=
  node?_of_find (read_eq_ok.mp h)

/-- Files other than the one that is changed are left. -/
theorem read_changeFile_ne
    {change : Option Bytes → Except Storage.Fault Bytes}
    (h : tree.changeFile path change = .ok next)
    (hread : tree.read other = .ok bytes)
    (ne : other.place ≠ path.place) :
    next.read other = .ok bytes := by
  have hkeeps := (sameDirectories_changeFile h).keeps
  obtain ⟨found, changed, -, -, -, rfl⟩ := changeFile_eq_ok.mp h
  refine read_of_node? hkeeps hread ?_
  rw [node?_put_ne tree _ ne]
  exact node?_of_read hread

/-- The file that is changed has what it is changed to. -/
theorem read_changeFile_same
    {change : Option Bytes → Except Storage.Fault Bytes}
    (h : tree.changeFile path change = .ok next)
    (hread : tree.read other = .ok bytes)
    (same : other.place = path.place) :
    ∃ new, change (some bytes) = .ok new ∧ next.read other = .ok new := by
  have hkeeps := (sameDirectories_changeFile h).keeps
  obtain ⟨found, changed, hfind, hne, hchanged, rfl⟩ := changeFile_eq_ok.mp h
  have hfound : found = some (.file bytes) := by
    rw [← node?_of_find hfind, ← same]
    exact node?_of_read hread
  rw [hfound] at hchanged
  refine ⟨changed, hchanged, read_of_node? hkeeps hread ?_⟩
  rw [same]
  rw [← node?_of_find hfind] at hne
  exact node?_put_self tree _ (ne_nil_of_node?_ne hne)

theorem read_makeDirectories
    (place : Place)
    (components : List Component)
    (hread : tree.read other = .ok bytes) :
    (tree.makeDirectories place components).1.read other = .ok bytes :=
  read_of_node? (keepsDirectories_makeDirectories tree place components) hread
    (node?_makeDirectories (node?_of_read hread))

end Reading

section Replacing

variable {tree next later : Tree} {draft path : Path} {bytes : Bytes}

/-- Changes that replace a file by a draft. -/
def replacing (draft path : Path) (bytes : Bytes) : List Command :=
  [.create draft, .write draft bytes, .sync draft, .rename draft path]

theorem perform_write_eq_ok
    {old : Bytes}
    (h : tree.read path = .ok old) :
    tree.perform (.write path bytes) = .ok (tree.put path.place (.file (old ++ bytes))) :=
  changeOldFile_eq_ok h

theorem perform_rename
    {target : Path}
    (h : tree.read path = .ok bytes)
    (named : target.ending = .name) :
    tree.perform (.rename path target) =
      (tree.remove path.place).changeFile target fun _ => .ok bytes := by
  rw [perform, h]
  exact if_pos named

/-- Only a path that ends with a name takes a file. -/
theorem ending_of_rename
    {target : Path}
    (h : tree.perform (.rename path target) = .ok next) :
    target.ending = .name := by
  rw [perform] at h
  cases hread : tree.read path with
  | error fault =>
      rw [hread] at h
      cases h
  | ok bytes =>
      rw [hread] at h
      simp only [bind, Except.bind] at h
      split at h
      case isTrue hending => exact hending
      case isFalse => cases h

/-- What has to be done for a file to be replaced. -/
theorem replacing_eq_ok :
    tree.performAll (replacing draft path bytes) = (next, none) ↔
      ∃ emptied, tree.changeFile draft (fun _ => .ok []) = .ok emptied ∧ path.ending = .name ∧
        ((emptied.put draft.place (.file bytes)).remove draft.place).changeFile path
          (fun _ => .ok bytes) = .ok next := by
  have hsteps : ∀ emptied : Tree, tree.changeFile draft (fun _ => .ok []) = .ok emptied →
      tree.performAll (replacing draft path bytes) =
        (emptied.put draft.place (.file bytes)).performAll [.rename draft path] := by
    intro emptied hempty
    have hcreate : tree.perform (.create draft) = .ok emptied := hempty
    have hsync : (emptied.put draft.place (.file bytes)).perform (.sync draft) =
        .ok (emptied.put draft.place (.file bytes)) := rfl
    rw [replacing, performAll_cons_ok hcreate,
      performAll_cons_ok (perform_write_eq_ok (read_changeFile hempty)), List.nil_append,
      performAll_cons_ok hsync]
  have hrename : ∀ emptied : Tree, tree.changeFile draft (fun _ => .ok []) = .ok emptied →
      path.ending = .name →
      (emptied.put draft.place (.file bytes)).perform (.rename draft path) =
        ((emptied.put draft.place (.file bytes)).remove draft.place).changeFile path
          fun _ => .ok bytes := fun emptied hempty hending =>
    perform_rename (read_put_of_read (read_changeFile hempty) bytes) hending
  constructor
  · intro h
    obtain ⟨emptied, hcreate, -⟩ := performAll_cons h
    have hempty : tree.changeFile draft (fun _ => .ok []) = .ok emptied := hcreate
    rw [hsteps emptied hempty] at h
    obtain ⟨final, hfinal, hend⟩ := performAll_cons h
    have hending := ending_of_rename hfinal
    rw [hrename emptied hempty hending] at hfinal
    cases hend
    exact ⟨emptied, hempty, hending, hfinal⟩
  · rintro ⟨emptied, hempty, hending, hnext⟩
    rw [← hrename emptied hempty hending] at hnext
    rw [hsteps emptied hempty, performAll_cons_ok hnext]
    rfl

/-- A file that is replaced has the bytes of the draft. -/
theorem read_replacing
    (h : tree.performAll (replacing draft path bytes) = (next, none)) :
    next.read path = .ok bytes := by
  obtain ⟨emptied, -, -, hnext⟩ := replacing_eq_ok.mp h
  exact read_changeFile hnext

theorem sameDirectories_draft
    {emptied : Tree}
    (bytes : Bytes)
    (h : tree.changeFile draft (fun _ => .ok []) = .ok emptied) :
    SameDirectories tree ((emptied.put draft.place (.file bytes)).remove draft.place) := by
  have hempty := read_changeFile h
  have hfile : emptied.node? draft.place ≠ some .directory := by
    rw [node?_of_read hempty]
    exact nofun
  have hfilled : (emptied.put draft.place (.file bytes)).node? draft.place ≠ some .directory := by
    rw [node?_of_read (read_put_of_read hempty bytes)]
    exact nofun
  exact (sameDirectories_changeFile h).trans
    ((sameDirectories_put bytes hfile).trans (sameDirectories_remove hfilled))

theorem sameDirectories_replacing
    (h : tree.performAll (replacing draft path bytes) = (next, none)) :
    SameDirectories tree next := by
  obtain ⟨emptied, hempty, -, hnext⟩ := replacing_eq_ok.mp h
  exact (sameDirectories_draft bytes hempty).trans (sameDirectories_changeFile hnext)

/-- Where a file has been replaced once it can be replaced again. -/
theorem replacing_again
    (same : SameDirectories tree later)
    (h : tree.performAll (replacing draft path bytes) = (next, none))
    (new : Bytes) :
    ∃ final, later.performAll (replacing draft path new) = (final, none) := by
  obtain ⟨emptied, hempty, hending, hnext⟩ := replacing_eq_ok.mp h
  obtain ⟨again, hagain⟩ := changeFile_again same hempty []
  have hsame : SameDirectories ((emptied.put draft.place (.file bytes)).remove draft.place)
      ((again.put draft.place (.file new)).remove draft.place) :=
    (sameDirectories_draft bytes hempty).symm.trans
      (same.trans (sameDirectories_draft new hagain))
  obtain ⟨final, hfinal⟩ := changeFile_again hsame hnext new
  exact ⟨final, replacing_eq_ok.mpr ⟨again, hagain, hending, hfinal⟩⟩

end Replacing

end Tree
end BatchRun
