import BatchRun.Keyed
import Mathlib.Data.List.Induction
import Mathlib.Data.List.Nodup

/-!
# Ascending lists of keyed values

**Type.**
Keys are `Ascending` if each one is smaller than all those behind it.

**Results.**
* `mem_of_mem_insert`, `find?_insert_ne`: what is put at a key leaves the other keys.
* `ascending_insertKey`, `ascending_insert`: a list stays ascending.
* `foldl_insertKey`, `sort_eq`: an ascending list is put together again from its parts.
* `erase_sort`, `find?_sort_eq_some_iff`: a sorted list has the pairs that were sorted.
* `sort_eq_sort_iff`: sorted lists are equal if the last values of all keys are.
* `map_insert`, `map_eq_insert`: values that are changed where they are kept.
-/

namespace BatchRun
namespace Keyed

variable {α : Type} {key : String} {value : α} {pairs : List (String × α)}

theorem mem_of_mem_insert
    {pair : String × α}
    (h : pair ∈ insert key value pairs) :
    pair = (key, value) ∨ pair ∈ pairs := by
  induction pairs with
  | nil => exact .inl (List.mem_singleton.mp h)
  | cons first pairs ih =>
      unfold insert at h
      split at h
      case isTrue =>
          exact (List.mem_cons.mp h).imp id (List.mem_cons_of_mem first)
      case isFalse =>
          split at h
          case isTrue =>
              exact List.mem_cons.mp h
          case isFalse =>
              rcases List.mem_cons.mp h with hfirst | hrest
              · exact .inr (hfirst ▸ List.mem_cons_self)
              · exact (ih hrest).imp id (List.mem_cons_of_mem first)

theorem find?_insert_ne
    {other : String}
    (h : other ≠ key) :
    find? (insert key value pairs) other = find? pairs other := by
  have hkey : (key == other) = false := by
    simpa using h.symm
  induction pairs with
  | nil => simp [insert, find?, hkey]
  | cons first pairs ih =>
      unfold insert
      split
      case isTrue hfirst =>
          have hold : (first.1 == other) = false := by
            rw [← hfirst]
            exact hkey
          simp [find?, hkey, hold]
      case isFalse =>
          split
          case isTrue =>
              simp [find?, List.find?_cons, hkey]
          case isFalse =>
              cases hold : first.1 == other with
              | true => simp [find?, hold]
              | false => simpa [find?, List.find?_cons, hold] using ih

theorem mem_of_find?
    (h : find? pairs key = some value) :
    (key, value) ∈ pairs := by
  obtain ⟨pair, hfind, rfl⟩ := Option.map_eq_some_iff.mp h
  have hkey : pair.1 = key := by
    simpa using List.find?_some hfind
  rw [← hkey]
  exact List.mem_of_find?_eq_some hfind

theorem isSome_find?
    (h : key ∈ pairs.map Prod.fst) :
    (find? pairs key).isSome = true := by
  obtain ⟨pair, hpair, rfl⟩ := List.mem_map.mp h
  unfold find?
  rw [Option.isSome_map, List.find?_isSome]
  exact ⟨pair, hpair, by simp⟩

theorem mem_keys :
    key ∈ pairs.map Prod.fst ↔ find? pairs key ≠ none := by
  refine ⟨fun h => Option.isSome_iff_ne_none.mp (isSome_find? h), fun h => ?_⟩
  obtain ⟨value, hvalue⟩ := Option.ne_none_iff_exists'.mp h
  exact List.mem_map_of_mem (mem_of_find? hvalue)

theorem find?_cons
    (pair : String × α)
    (pairs : List (String × α))
    (key : String) :
    find? (pair :: pairs) key = if pair.1 = key then some pair.2 else find? pairs key := by
  unfold find?
  by_cases h : pair.1 = key <;> simp [h]

/-- A pair with a new key comes to those that are there. -/
theorem insert_perm
    (h : find? pairs key = none) :
    (insert key value pairs).Perm ((key, value) :: pairs) := by
  induction pairs with
  | nil => exact .refl _
  | cons first pairs ih =>
      rw [find?_cons] at h
      split at h
      case isTrue => cases h
      case isFalse hne =>
          rw [insert, if_neg (Ne.symm hne)]
          split
          case isTrue => exact .refl _
          case isFalse => exact ((ih h).cons first).trans (.swap (key, value) first pairs)

/-- Keys in strictly ascending order. -/
def Ascending (keys : List String) : Prop := keys.Pairwise (· < ·)

theorem lt_of_not_le
    {first : String}
    (ne : key ≠ first)
    (not_lt : ¬ key < first) :
    first < key := by
  have hle : first ≤ key := String.not_lt.mp not_lt
  refine Classical.byContradiction fun h => ne ?_
  exact String.le_antisymm (String.not_lt.mp h) hle

theorem ascending_insertKey
    {keys : List String}
    (h : Ascending keys) :
    Ascending (insertKey key keys) := by
  induction keys with
  | nil => exact List.pairwise_singleton _ _
  | cons first keys ih =>
      obtain ⟨hfirst, hkeys⟩ := List.pairwise_cons.mp h
      unfold insertKey
      split
      case isTrue => exact h
      case isFalse hne =>
          split
          case isTrue hlt =>
              refine List.pairwise_cons.mpr ⟨fun other hother => ?_, h⟩
              rcases List.mem_cons.mp hother with rfl | hrest
              · exact hlt
              · exact String.lt_trans hlt (hfirst other hrest)
          case isFalse hnot =>
              refine List.pairwise_cons.mpr ⟨fun other hother => ?_, ih hkeys⟩
              rcases mem_insertKey.mp hother with rfl | hrest
              · exact lt_of_not_le hne hnot
              · exact hfirst other hrest

theorem map_fst_insert :
    (insert key value pairs).map Prod.fst = insertKey key (pairs.map Prod.fst) := by
  induction pairs with
  | nil => rfl
  | cons first pairs ih =>
      unfold insert
      rw [List.map_cons, insertKey]
      split
      case isTrue heq => rw [List.map_cons, heq]
      case isFalse =>
          split
          case isTrue => rfl
          case isFalse => rw [List.map_cons, ih]

theorem ascending_insert
    (h : Ascending (pairs.map Prod.fst)) :
    Ascending ((insert key value pairs).map Prod.fst) := by
  rw [map_fst_insert]
  exact ascending_insertKey h

theorem ascending_foldl_insertKey
    (ids : List String)
    {keys : List String}
    (h : Ascending keys) :
    Ascending (ids.foldl (fun sorted id => insertKey id sorted) keys) := by
  induction ids generalizing keys with
  | nil => exact h
  | cons id ids ih => exact ih (ascending_insertKey h)

/-- A key behind all others is put at the end. -/
theorem insertKey_last
    {keys : List String}
    (h : ∀ other ∈ keys, other < key) :
    insertKey key keys = keys ++ [key] := by
  induction keys with
  | nil => rfl
  | cons first keys ih =>
      have hfirst := h first List.mem_cons_self
      have hne : key ≠ first := by
        rintro rfl
        exact String.lt_irrefl key hfirst
      rw [insertKey, if_neg hne, if_neg (String.lt_asymm hfirst),
        ih fun other hother => h other (List.mem_cons_of_mem first hother), List.cons_append]

theorem insert_last
    (h : ∀ other ∈ pairs.map Prod.fst, other < key) :
    insert key value pairs = pairs ++ [(key, value)] := by
  induction pairs with
  | nil => rfl
  | cons first pairs ih =>
      have hfirst := h first.1 List.mem_cons_self
      have hne : key ≠ first.1 := by
        rintro rfl
        exact String.lt_irrefl _ hfirst
      rw [insert, if_neg hne, if_neg (String.lt_asymm hfirst),
        ih fun other hother => h other (List.mem_cons_of_mem first.1 hother), List.cons_append]

theorem foldl_insertKey
    {keys ids : List String}
    (h : Ascending (keys ++ ids)) :
    ids.foldl (fun sorted id => insertKey id sorted) keys = keys ++ ids := by
  induction ids generalizing keys with
  | nil => simp
  | cons id ids ih =>
      have hlast : ∀ other ∈ keys, other < id := fun other hother =>
        (List.pairwise_append.mp h).2.2 other hother id List.mem_cons_self
      rw [List.foldl_cons, insertKey_last hlast, ih (by simpa using h)]
      simp

theorem foldl_insert
    {others : List (String × α)}
    (h : Ascending ((pairs ++ others).map Prod.fst)) :
    others.foldl (fun sorted pair => insert pair.1 pair.2 sorted) pairs = pairs ++ others := by
  induction others generalizing pairs with
  | nil => simp
  | cons pair others ih =>
      have hlast : ∀ other ∈ pairs.map Prod.fst, other < pair.1 := by
        intro other hother
        rw [List.map_append] at h
        exact (List.pairwise_append.mp h).2.2 other hother pair.1 List.mem_cons_self
      rw [List.foldl_cons, insert_last hlast, ih (by simpa using h)]
      simp

theorem sort_eq
    (h : Ascending (pairs.map Prod.fst)) :
    sort pairs = pairs :=
  foldl_insert h

theorem find?_map
    {β : Type*}
    (f : α → β)
    (pairs : List (String × α))
    (key : String) :
    find? (pairs.map fun pair => (pair.1, f pair.2)) key = (find? pairs key).map f := by
  unfold find?
  rw [List.find?_map, Option.map_map, Option.map_map]
  rfl

theorem map_insert
    {β : Type*}
    (f : α → β) :
    (insert key value pairs).map (fun pair => (pair.1, f pair.2)) =
      insert key (f value) (pairs.map fun pair => (pair.1, f pair.2)) := by
  induction pairs with
  | nil => rfl
  | cons first pairs ih =>
      rw [List.map_cons, insert, insert]
      split
      case isTrue => rfl
      case isFalse =>
          split
          case isTrue => rfl
          case isFalse => rw [List.map_cons, ih]

theorem find?_of_distinct
    (distinct : (pairs.map Prod.fst).Nodup)
    (h : (key, value) ∈ pairs) :
    find? pairs key = some value := by
  have hsome := isSome_find? (List.mem_map_of_mem h)
  obtain ⟨found, hfound⟩ := Option.isSome_iff_exists.mp hsome
  have heq := List.inj_on_of_nodup_map distinct (mem_of_find? hfound) h rfl
  rw [hfound, (Prod.mk.inj heq).2]

theorem find?_of_mem
    (ascending : Ascending (pairs.map Prod.fst))
    (h : (key, value) ∈ pairs) :
    find? pairs key = some value := by
  refine find?_of_distinct (ascending.imp fun hlt heq => ?_) h
  rw [heq] at hlt
  exact String.lt_irrefl _ hlt

theorem find?_erase
    (pairs : List (String × α))
    (key other : String) :
    find? (erase key pairs) other = if other = key then none else find? pairs other := by
  unfold find? erase
  rw [List.find?_filter]
  split
  case isTrue heq =>
      rw [List.find?_eq_none.mpr (by simp [heq]), Option.map_none]
  case isFalse hne =>
      congr 2
      funext pair
      by_cases hother : pair.1 = other <;> simp [hother, hne]

section Sorted

theorem sort_append
    (pairs : List (String × α))
    (pair : String × α) :
    sort (pairs ++ [pair]) = insert pair.1 pair.2 (sort pairs) := by
  rw [sort, List.foldl_append]
  rfl

theorem ascending_sort
    (pairs : List (String × α)) :
    Ascending ((sort pairs).map Prod.fst) := by
  induction pairs using List.reverseRecOn with
  | nil => exact .nil
  | append_singleton pairs pair ih =>
      rw [sort_append]
      exact ascending_insert ih

theorem mem_of_mem_sort
    {pair : String × α}
    (h : pair ∈ sort pairs) :
    pair ∈ pairs := by
  induction pairs using List.reverseRecOn with
  | nil => exact h
  | append_singleton pairs last ih =>
      rw [sort_append] at h
      rcases mem_of_mem_insert h with rfl | hold
      · exact List.mem_append_right pairs List.mem_cons_self
      · exact List.mem_append_left [last] (ih hold)

/-- The last pair with a key stays. -/
theorem find?_sort
    (pairs : List (String × α))
    (key : String) :
    find? (sort pairs) key = find? pairs.reverse key := by
  induction pairs using List.reverseRecOn with
  | nil => rfl
  | append_singleton pairs last ih =>
      rw [sort_append, List.reverse_append, List.reverse_singleton, List.singleton_append,
        find?_cons, ← ih]
      split
      case isTrue heq =>
          rw [← heq]
          exact find?_insert_self last.1 last.2 (sort pairs)
      case isFalse hne => exact find?_insert_ne (Ne.symm hne)

theorem mem_iff_find?
    (ascending : Ascending (pairs.map Prod.fst)) :
    (key, value) ∈ pairs ↔ find? pairs key = some value :=
  ⟨find?_of_mem ascending, mem_of_find?⟩

/-- Ascending lists with the same values at every key are equal. -/
theorem eq_of_find?_eq
    {others : List (String × α)}
    (hpairs : Ascending (pairs.map Prod.fst))
    (hothers : Ascending (others.map Prod.fst))
    (h : ∀ key, find? pairs key = find? others key) :
    pairs = others := by
  have hless := List.pairwise_map.mp hpairs
  have hlessOthers := List.pairwise_map.mp hothers
  have hmem : ∀ pair, pair ∈ pairs ↔ pair ∈ others := fun pair => by
    rw [mem_iff_find? hpairs, mem_iff_find? hothers, h]
  have hne : ∀ {pair other : String × α}, pair.1 < other.1 → pair ≠ other := by
    rintro pair _ hlt rfl
    exact String.lt_irrefl pair.1 hlt
  have hperm := (List.perm_ext_iff_of_nodup (hless.imp hne) (hlessOthers.imp hne)).mpr hmem
  exact hperm.eq_of_pairwise
    (fun _ _ _ _ hlt hgt => absurd hgt (String.lt_asymm hlt)) hless hlessOthers

theorem erase_sort
    (key : String)
    (pairs : List (String × α)) :
    erase key (sort pairs) = sort (erase key pairs) := by
  have hsublist : (erase key (sort pairs)).Sublist (sort pairs) := List.filter_sublist
  have hreverse : (erase key pairs).reverse = erase key pairs.reverse := List.filter_reverse.symm
  refine eq_of_find?_eq (.sublist (hsublist.map Prod.fst) (ascending_sort pairs)) (ascending_sort _)
    fun other => ?_
  rw [find?_erase, find?_sort, find?_sort, hreverse, find?_erase]

/-- Pairs with different keys keep their values when they are sorted. -/
theorem find?_sort_eq_some_iff
    (distinct : (pairs.map Prod.fst).Nodup) :
    find? (sort pairs) key = some value ↔ (key, value) ∈ pairs := by
  have hreverse : (pairs.reverse.map Prod.fst).Nodup := by
    rw [List.map_reverse, List.nodup_reverse]
    exact distinct
  rw [find?_sort, ← List.mem_reverse]
  exact ⟨mem_of_find?, find?_of_distinct hreverse⟩

theorem sort_eq_sort_iff
    {others : List (String × α)} :
    sort pairs = sort others ↔ ∀ key, find? pairs.reverse key = find? others.reverse key := by
  constructor
  case mp =>
      intro h key
      rw [← find?_sort, ← find?_sort, h]
  case mpr =>
      intro h
      refine eq_of_find?_eq (ascending_sort pairs) (ascending_sort others) fun key => ?_
      rw [find?_sort, find?_sort, h]

end Sorted

/-- A change of one value, and of no other one, is put at its key. -/
theorem map_eq_insert
    {β : Type*} {f g : α → β}
    (ascending : Ascending (pairs.map Prod.fst))
    (distinct : (pairs.map Prod.snd).Nodup)
    (found : find? pairs key = some value)
    (same : ∀ other, other ≠ value → g other = f other) :
    pairs.map (fun pair => (pair.1, g pair.2)) =
      insert key (g value) (pairs.map fun pair => (pair.1, f pair.2)) := by
  induction pairs with
  | nil => cases found
  | cons first pairs ih =>
      obtain ⟨hlt, hascending⟩ := List.pairwise_cons.mp ascending
      rw [List.map_cons, List.nodup_cons] at distinct
      obtain ⟨hfirst, hdistinct⟩ := distinct
      rw [List.map_cons, List.map_cons, insert]
      by_cases hkey : key = first.1
      · have hvalue : first.2 = value := by
          simpa [find?, hkey] using found
        have hrest : pairs.map (fun pair => (pair.1, g pair.2)) =
            pairs.map fun pair => (pair.1, f pair.2) := by
          refine List.map_congr_left fun pair hpair => ?_
          rw [same]
          exact fun heq => hfirst (hvalue ▸ heq ▸ List.mem_map_of_mem hpair)
        rw [if_pos hkey, hrest, hvalue, hkey]
      · have hne : (first.1 == key) = false := by
          simpa using Ne.symm hkey
        have hfound : find? pairs key = some value := by
          simpa [find?, List.find?_cons, hne] using found
        have hmem := mem_of_find? hfound
        have hnot : ¬ key < first.1 :=
          String.lt_asymm (hlt key (List.mem_map_of_mem hmem))
        have hother : first.2 ≠ value := fun heq =>
          hfirst (heq ▸ List.mem_map_of_mem hmem)
        rw [if_neg hkey, if_neg hnot, same _ hother, ih hascending hdistinct hfound]

end Keyed
end BatchRun
