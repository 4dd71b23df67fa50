import BatchRun.Digest.Sha256
import BatchRun.Json.Canonical
import BatchRun.Keyed

/-!
# Duplicate results

**Type.**
A `Registry` knows, for the digest of every canonical text that it has seen, who came first.

**Result.**
`Registry.record` gives the first owner of an equivalent result, or makes the caller its owner.
-/

namespace BatchRun

open Text

/-- Digest of the canonical text of a value. -/
def Json.digest (value : Json) : Bytes := Digest.sha256 (bytesOf value.canonical)

/-- Owners of the results seen so far, by digest. -/
structure Registry where
  owners : List (Bytes × String) := []

namespace Registry

/-- Number of different results seen. -/
def size (registry : Registry) : Nat := registry.owners.length

/-- Owner of the results with a digest. -/
def owner? (registry : Registry) (digest : Bytes) : Option String :=
  (registry.owners.find? (fun entry => entry.1 == digest)).map Prod.snd

/-- The first owner of an equivalent result, if there is one; otherwise `id` becomes the
owner. -/
def record (registry : Registry) (result : Json) (id : String) : Registry × Option String :=
  match registry.owner? result.digest with
  | some owner => (registry, some owner)
  | none => (⟨(result.digest, id) :: registry.owners⟩, none)

end Registry

end BatchRun
