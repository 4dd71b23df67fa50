/-!
# Lists of keyed values

**Type.**
A map from texts to values is the list of its pairs.  The operations keep a list strictly
ascending by key if it was so, and then two lists with the same values at every key are equal.
-/

namespace BatchRun
namespace Keyed

/-- Value at a key. -/
def find? (pairs : List (String × α)) (key : String) : Option α :=
  (pairs.find? (fun pair => pair.1 == key)).map Prod.snd

/-- Pairs with a value put at its key; an old value is replaced. -/
def insert (key : String) (value : α) : List (String × α) → List (String × α)
  | [] => [(key, value)]
  | pair :: pairs =>
    if key = pair.1 then (key, value) :: pairs
    else if key < pair.1 then (key, value) :: pair :: pairs
    else pair :: insert key value pairs

/-- Pairs without a key. -/
def erase (key : String) (pairs : List (String × α)) : List (String × α) :=
  pairs.filter (fun pair => !(pair.1 == key))

/-- Pairs in ascending order of keys; of pairs with one key the last one stays. -/
def sort (pairs : List (String × α)) : List (String × α) :=
  pairs.foldl (fun sorted pair => insert pair.1 pair.2 sorted) []

/-- Keys with one more among them. -/
def insertKey (key : String) : List String → List String
  | [] => [key]
  | first :: keys =>
    if key = first then first :: keys
    else if key < first then key :: first :: keys
    else first :: insertKey key keys

theorem mem_insertKey {key other : String} {keys : List String} :
    other ∈ insertKey key keys ↔ other = key ∨ other ∈ keys := by
  induction keys with
  | nil => simp [insertKey]
  | cons first keys ih =>
    unfold insertKey
    split
    · subst_vars; simp
    · split
      · simp
      · simp [ih, or_left_comm]

theorem find?_insert_self (key : String) (value : α) (pairs : List (String × α)) :
    find? (insert key value pairs) key = some value := by
  induction pairs with
  | nil => simp [insert, find?]
  | cons pair pairs ih =>
    unfold insert
    split
    · simp [find?]
    · split
      · simp [find?]
      · rename_i ne _
        have h : (pair.1 == key) = false := by simpa using fun e => ne e.symm
        simpa [find?, List.find?_cons, h] using ih

end Keyed
end BatchRun
