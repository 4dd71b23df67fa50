/-!
# Paths of files

**Input.**
The text of a path, with slashes between its components.

**Results.**
Its components, its last component, the path around it, and the extension of its last
component.  Repeated slashes and single dots inside a path do not count; slashes and dots at its
end are its `Path.Ending`.
-/

namespace BatchRun
namespace Storage

/-- A component of a path. -/
inductive Component where
  | root
  | here
  | up
  | name (text : String)
deriving DecidableEq

/-- Text of a component between slashes. -/
def Component.text : Component → String
  | root => ""
  | here => "."
  | up => ".."
  | name text => text

/-- Pieces between the occurrences of a separator. -/
def splitAt (separator : Char) : List Char → List (List Char)
  | [] => [[]]
  | c :: cs =>
    if c = separator then [] :: splitAt separator cs
    else
      match splitAt separator cs with
      | [] => [[c]]
      | piece :: pieces => (c :: piece) :: pieces

end Storage

open Storage

/-- A path as it was written. -/
structure Path where
  text : String
deriving DecidableEq, Inhabited

namespace Path

/-- Whether the path starts at the root. -/
def isAbsolute (path : Path) : Bool := path.text.toList.head? == some '/'

/-- Components of a path. -/
def components (path : Path) : List Component :=
  let pieces := splitAt '/' path.text.toList
  let inner (pieces : List (List Char)) : List Component :=
    pieces.filterMap fun piece =>
      if piece = [] ∨ piece = ['.'] then none
      else if piece = ['.', '.'] then some .up
      else some (.name (String.ofList piece))
  match pieces with
  | [] => []
  | [] :: [] => []
  | [] :: rest => .root :: inner rest
  | ['.'] :: rest => .here :: inner rest
  | pieces => inner pieces

/-- How the text of a path ends. -/
inductive Ending where
  /-- With the name of the last component. -/
  | name
  /-- With a slash behind that name. -/
  | slash
  /-- With dots between slashes, or with the root. -/
  | dots
deriving DecidableEq

/-- Ending of the path. -/
def ending (path : Path) : Ending :=
  match ((splitAt '/' path.text.toList).filter (· ≠ [])).getLast? with
  | none => .dots
  | some piece =>
    if piece = ['.'] ∨ piece = ['.', '.'] then .dots
    else if path.text.toList.getLast? == some '/' then .slash
    else .name

/-- Path with given components. -/
def ofComponents (components : List Component) : Path :=
  match components with
  | .root :: rest => ⟨"/" ++ "/".intercalate (rest.map Component.text)⟩
  | components => ⟨"/".intercalate (components.map Component.text)⟩

/-- Last component, if it is a name. -/
def fileName? (path : Path) : Option String :=
  match path.components.getLast? with
  | some (.name text) => some text
  | _ => none

/-- Path around the last component. -/
def parent? (path : Path) : Option Path :=
  match path.components.reverse with
  | [] => none
  | [.root] => none
  | _ :: rest => some (ofComponents rest.reverse)

/-- A path continued by another one; an absolute one stands for itself. -/
def join (path other : Path) : Path :=
  if other.isAbsolute || path.text.isEmpty then other
  else if path.text.toList.getLast? == some '/' then ⟨path.text ++ other.text⟩
  else ⟨path.text ++ "/" ++ other.text⟩

/-- The path with another last component. -/
def withFileName (path : Path) (name : String) : Path :=
  match path.fileName? with
  | none => path.join ⟨name⟩
  | some _ => ((path.parent?).getD ⟨""⟩).join ⟨name⟩

/-- What follows the last dot of a file name that does not start with it. -/
def extension? (path : Path) : Option String :=
  match path.fileName? with
  | none => none
  | some name =>
    let cs := name.toList
    let after := (cs.reverse.takeWhile (fun c => c != '.')).reverse
    if after.length < cs.length ∧ after.length + 1 < cs.length then some (String.ofList after)
    else none

end Path

end BatchRun
