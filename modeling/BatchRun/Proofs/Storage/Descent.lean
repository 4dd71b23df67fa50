import BatchRun.Proofs.Storage.Interruption
import Mathlib.Data.List.Induction

/-!
# Directories that are made for a path

**Types.**
A tree is `Grounded` if each of its nodes lies in a directory.  A path `Descends` if only names
stand behind the first directory on its way that is missing: no step up follows one.  It is `Clear`
if also nothing lies where that directory is missing, as in a grounded tree.

**Invariant.**
Making some of the directories around a path leaves what is read at the path, whether the path is
clear, and what making all of them comes to.

**Results.**
* `clear_of_descends`: in a grounded tree a path that descends is clear.
* `makeDirectories_made`, `clear_made`, `read_made`: the invariant.
* `obstacle?_of_made`: once all directories around a path are made it can be followed.
-/

namespace BatchRun

open Storage
open Text

namespace Tree

section Clear

variable {tree : Tree} {place : Place} {components : List Component}

/-- Nothing lies below a place. -/
def Bare (tree : Tree) (place : Place) : Prop :=
  ∀ below, below ≠ [] → tree.node? (place ++ below) = none

/-- Each node lies in a directory. -/
def Grounded (tree : Tree) : Prop :=
  ∀ node ∈ tree.nodes, tree.node? node.1.dropLast = some .directory

instance (tree : Tree) : Decidable tree.Grounded :=
  inferInstanceAs (Decidable (∀ node ∈ tree.nodes, tree.node? node.1.dropLast = some .directory))

/-- Components that are names. -/
def Named (components : List Component) : Prop :=
  ∀ component ∈ components, ∃ text, component = .name text

/-- Only names stand behind the first directory on the way that is missing. -/
def Descends (tree : Tree) (place : Place) : List Component → Prop
  | [] => True
  | component :: components =>
    match tree.node? (place.step component) with
    | none => Named components
    | some (.file _) => True
    | some .directory => tree.Descends (place.step component) components

/-- Only names stand behind the first directory on the way that is missing, and nothing lies
there. -/
def Clear (tree : Tree) (place : Place) : List Component → Prop
  | [] => True
  | [_] => True
  | component :: components =>
    match tree.node? (place.step component) with
    | none => Named components ∧ tree.Bare (place.step component)
    | some (.file _) => True
    | some .directory => tree.Clear (place.step component) components

theorem clear_cons
    (tree : Tree)
    (place : Place)
    (component next : Component)
    (components : List Component) :
    tree.Clear place (component :: next :: components) =
      match tree.node? (place.step component) with
      | none => Named (next :: components) ∧ tree.Bare (place.step component)
      | some (.file _) => True
      | some .directory => tree.Clear (place.step component) (next :: components) := by
  rw [Clear]
  exact nofun

/-- A node lies in a directory of a grounded tree. -/
theorem node?_dropLast
    {node : Node}
    (grounded : tree.Grounded)
    (h : tree.node? place = some node) :
    tree.node? place.dropLast = some .directory := by
  by_cases htop : place = []
  · rw [htop]
    rfl
  rw [node?_of_ne_nil tree htop] at h
  obtain ⟨found, hfound, -⟩ := Option.map_eq_some_iff.mp h
  have hplace : found.1 = place := by simpa using List.find?_some hfound
  rw [← hplace]
  exact grounded found (List.mem_of_find?_eq_some hfound)

/-- Where nothing lies in a grounded tree nothing lies below. -/
theorem bare_of_grounded
    (grounded : tree.Grounded)
    (h : tree.node? place = none) :
    tree.Bare place := by
  intro below hne
  induction below using List.reverseRecOn with
  | nil => exact absurd rfl hne
  | append_singleton front last ih =>
      have habove : tree.node? (place ++ front) = none := by
        by_cases hfront : front = []
        · rw [hfront, List.append_nil]
          exact h
        · exact ih hfront
      cases hnode : tree.node? (place ++ (front ++ [last])) with
      | none => rfl
      | some node =>
          have hdirectory := node?_dropLast grounded hnode
          rw [← List.append_assoc, List.dropLast_concat, habove] at hdirectory
          cases hdirectory

/-- In a grounded tree a path that descends is clear. -/
theorem clear_of_descends
    (grounded : tree.Grounded)
    (descends : tree.Descends place components) :
    tree.Clear place components := by
  induction components generalizing place with
  | nil => exact trivial
  | cons component components ih =>
      cases components with
      | nil => exact trivial
      | cons next components =>
          rw [clear_cons]
          unfold Descends at descends
          split at descends
          case h_1 hnone => exact ⟨descends, bare_of_grounded grounded hnone⟩
          case h_2 => exact trivial
          case h_3 => exact ih descends

/-- A path that can be followed is clear. -/
theorem clear_of_obstacle?
    (free : tree.obstacle? place components = none) :
    tree.Clear place components := by
  induction components generalizing place with
  | nil => exact trivial
  | cons component components ih =>
      cases components with
      | nil => exact trivial
      | cons next components =>
          rw [obstacle?_cons] at free
          rw [clear_cons]
          match hnode : tree.node? (place.step component), free with
          | some .directory, free => exact ih free

end Clear

section Making

variable {tree : Tree} {path : Path} {place : Place} {components : List Component}

/-- The tree with the directories that some of the components lead to. -/
def made (tree : Tree) (place : Place) (components : List Component) (count : Nat) : Tree :=
  (tree.makeDirectories place (components.take count)).1

theorem made_zero
    (tree : Tree)
    (place : Place)
    (components : List Component) :
    tree.made place components 0 = tree :=
  rfl

theorem made_cons
    (tree : Tree)
    (place : Place)
    (component : Component)
    (components : List Component)
    (count : Nat) :
    tree.made place (component :: components) (count + 1) =
      match tree.node? (place.step component) with
      | none =>
        (tree.put (place.step component) .directory).made (place.step component) components count
      | some (.file _) => tree
      | some .directory => tree.made (place.step component) components count := by
  unfold made
  rw [List.take_succ_cons, makeDirectories]
  cases tree.node? (place.step component) with
  | none => rfl
  | some node => cases node <;> rfl

theorem keepsDirectories_made
    (tree : Tree)
    (place : Place)
    (components : List Component)
    (count : Nat) :
    KeepsDirectories tree (tree.made place components count) :=
  keepsDirectories_makeDirectories tree place _

/-- A directory that was missing is there once it is put. -/
theorem node?_made_put
    {missing : Place}
    (tree : Tree)
    (h : tree.node? missing = none)
    (components : List Component)
    (count : Nat) :
    ((tree.put missing .directory).made missing components count).node? missing =
      some .directory := by
  have hput := node?_put_self tree .directory (ne_nil_of_node?_eq_none h)
  exact keepsDirectories_made _ _ _ _ _ hput

/-- Directories of which some have been made come to the same. -/
theorem makeDirectories_made
    (tree : Tree)
    (place : Place)
    (components : List Component)
    (count : Nat) :
    (tree.made place components count).makeDirectories place components =
      tree.makeDirectories place components := by
  induction components generalizing tree place count with
  | nil => simp [made, makeDirectories]
  | cons component components ih =>
      cases count with
      | zero => rfl
      | succ count =>
          rw [made_cons]
          cases hnode : tree.node? (place.step component) with
          | none =>
              rw [makeDirectories, makeDirectories]
              simp only [hnode, node?_made_put tree hnode components count]
              exact ih _ _ count
          | some node =>
              cases node with
              | file bytes => rfl
              | directory =>
                  have hkept := keepsDirectories_made tree (place.step component) components count
                  rw [makeDirectories, makeDirectories]
                  simp only [hnode, hkept _ hnode]
                  exact ih _ _ count

theorem bare_put
    {text : String} {node : Node}
    (bare : tree.Bare place) :
    (tree.put (place ++ [text]) node).Bare (place ++ [text]) := by
  intro below hne
  have hplace : place ++ [text] ++ below ≠ place ++ [text] := by simpa using hne
  rw [node?_put_ne tree _ hplace, List.append_assoc]
  exact bare _ (by simp)

/-- Where nothing lay below a place, the path is still missing after some directories are made, and
it is still clear. -/
theorem missing_made
    (named : Named components)
    (filled : components ≠ [])
    (bare : tree.Bare place)
    (count : Nat) :
    let next := tree.made place components.dropLast count
    next.Clear place components ∧
      (next.obstacle? place components = some .notFound ∨
        next.obstacle? place components = none ∧
          next.node? (components.foldl Place.step place) = none) := by
  induction components generalizing tree place count with
  | nil => exact absurd rfl filled
  | cons component components ih =>
      obtain ⟨⟨text, rfl⟩, hnamed⟩ := List.forall_mem_cons.mp named
      have hnode : tree.node? (place.step (.name text)) = none := bare _ (by simp)
      have hbare : tree.Bare (place.step (.name text)) := by
        intro below hne
        rw [Place.step, List.append_assoc]
        exact bare _ (by simp)
      cases components with
      | nil => exact ⟨trivial, .inr ⟨rfl, by simpa [made, makeDirectories] using hnode⟩⟩
      | cons next components =>
          have hlast : (Component.name text :: next :: components).dropLast =
              .name text :: (next :: components).dropLast := rfl
          rw [hlast]
          cases count with
          | zero =>
              rw [made_zero]
              intro next
              rw [clear_cons, obstacle?_cons, hnode]
              exact ⟨⟨hnamed, hbare⟩, .inl rfl⟩
          | succ count =>
              rw [made_cons, hnode]
              have hmade := node?_made_put tree hnode (next :: components).dropLast count
              intro torn
              rw [clear_cons, obstacle?_cons]
              simp only [torn, hmade]
              exact ih hnamed (by simp) (bare_put bare) count

/-- What becomes of a path when some of the directories around it are made: nothing, or it is
missing as it was. -/
theorem made_cases
    (clear : tree.Clear place components)
    (count : Nat) :
    let next := tree.made place components.dropLast count
    next = tree ∨
      next.Clear place components ∧ tree.obstacle? place components = some .notFound ∧
        (next.obstacle? place components = some .notFound ∨
          next.obstacle? place components = none ∧
            next.node? (components.foldl Place.step place) = none) := by
  induction components generalizing tree place count with
  | nil => exact .inl (by simp [made, makeDirectories])
  | cons component components ih =>
      cases components with
      | nil => exact .inl (by simp [made, makeDirectories])
      | cons next components =>
          have hlast : (component :: next :: components).dropLast =
              component :: (next :: components).dropLast := rfl
          rw [hlast]
          cases count with
          | zero => exact .inl rfl
          | succ count =>
              rw [clear_cons] at clear
              rw [made_cons]
              cases hnode : tree.node? (place.step component) with
              | none =>
                  rw [hnode] at clear
                  obtain ⟨hnamed, hbare⟩ := clear
                  have hmade := node?_made_put tree hnode (next :: components).dropLast count
                  have hput : (tree.put (place.step component) .directory).Bare
                      (place.step component) := by
                    intro below hne
                    rw [node?_put_ne tree _ (by simpa using hne)]
                    exact hbare below hne
                  have hmissing := missing_made hnamed (by simp) hput count
                  intro torn
                  rw [clear_cons, obstacle?_cons, obstacle?_cons, hnode]
                  simp only [torn, hmade]
                  exact .inr ⟨hmissing.1, trivial, hmissing.2⟩
              | some node =>
                  rw [hnode] at clear
                  cases node with
                  | file bytes => exact .inl rfl
                  | directory =>
                      have hkept := keepsDirectories_made tree (place.step component)
                        (next :: components).dropLast count _ hnode
                      intro torn
                      rw [clear_cons, obstacle?_cons, obstacle?_cons, hnode]
                      simp only [torn, hkept]
                      exact ih clear count

theorem clear_made
    (clear : tree.Clear place components)
    (count : Nat) :
    (tree.made place components.dropLast count).Clear place components := by
  rcases made_cases clear count with hsame | ⟨hclear, -⟩
  · rw [hsame]
    exact clear
  · exact hclear

theorem read_of_obstacle?
    (h : tree.obstacle? [] path.components = some .notFound) :
    tree.read path = .error .notFound := by
  have hfind : tree.find path = .error .notFound := by
    unfold find
    rw [h]
    exact ite_self _
  unfold read
  rw [hfind]

theorem read_of_missing
    (free : tree.obstacle? [] path.components = none)
    (h : tree.node? path.place = none) :
    tree.read path = .error .notFound := by
  unfold read find
  rw [free, h]
  by_cases htext : path.text.isEmpty = true
  · simp [htext]
  · by_cases hending : path.ending = .name
    · simp [htext, hending]
    · simp [htext, hending]

/-- What is read at a path is left when some of the directories around it are made. -/
theorem read_made
    (clear : tree.Clear [] path.components)
    (count : Nat) :
    (tree.made [] path.components.dropLast count).read path = tree.read path := by
  rcases made_cases clear count with hsame | ⟨-, hbefore, hafter⟩
  · rw [hsame]
  · rw [read_of_obstacle? hbefore]
    rcases hafter with hmissing | ⟨hfree, hnone⟩
    · exact read_of_obstacle? hmissing
    · exact read_of_missing hfree hnone

/-- Once all directories around a path are made it can be followed. -/
theorem obstacle?_of_made
    {next : Tree}
    (h : tree.makeDirectories place components.dropLast = (next, none)) :
    next.obstacle? place components = none := by
  induction components generalizing tree place with
  | nil => rfl
  | cons component components ih =>
      cases components with
      | nil => rfl
      | cons further components =>
          have hlast : (component :: further :: components).dropLast =
              component :: (further :: components).dropLast := rfl
          rw [hlast, makeDirectories] at h
          have hrest : ∀ between : Tree, between.node? (place.step component) = some .directory →
              between.makeDirectories (place.step component) (further :: components).dropLast =
                (next, none) →
              next.obstacle? place (component :: further :: components) = none := by
            intro between hnode hbetween
            have hkept := keepsDirectories_makeDirectories between (place.step component)
              (further :: components).dropLast
            rw [hbetween] at hkept
            rw [obstacle?_cons, hkept _ hnode]
            exact ih hbetween
          split at h
          case h_1 hnode => exact hrest tree hnode h
          case h_2 => cases h
          case h_3 hnone =>
              exact hrest _ (node?_put_self tree _ (ne_nil_of_node?_eq_none hnone)) h

/-- Directories around a path that can be followed need not be made. -/
theorem makeDirectories_of_obstacle?
    (free : tree.obstacle? place components = none) :
    tree.makeDirectories place components.dropLast = (tree, none) := by
  induction components generalizing place with
  | nil => rfl
  | cons component components ih =>
      cases components with
      | nil => rfl
      | cons further components =>
          have hlast : (component :: further :: components).dropLast =
              component :: (further :: components).dropLast := rfl
          rw [obstacle?_cons] at free
          rw [hlast, makeDirectories]
          split at free
          case h_1 => cases free
          case h_2 => cases free
          case h_3 hnode =>
              rw [hnode]
              exact ih free

end Making

end Tree
end BatchRun
