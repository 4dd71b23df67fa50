import BatchRun.Json.Printer
import BatchRun.Text.Blank
import Mathlib.Data.List.TakeWhile

/-!
# Lines and the white space around them

**Results.**
* `segments_separated`: lines between line feeds are cut apart again.
* `trim_of_blank`: of a blank line nothing is left.
* `trim_trim`: what is trimmed stays as it is.
* `filledLines_separated`: the lines of a text are the trimmed ones of those that were joined.
* `filledLines_append`: a line feed between two texts leaves the lines of both.
-/

namespace BatchRun
namespace Text

open Json

variable {line : List Char} {lines : List (List Char)}

theorem segments_line
    (h : '\n' ∉ line) :
    segments line = [line] := by
  induction line with
  | nil => rfl
  | cons c line ih =>
      rw [List.mem_cons, not_or] at h
      rw [segments, if_neg (Ne.symm h.1), ih h.2]

theorem segments_ne_nil
    (cs : List Char) :
    segments cs ≠ [] := by
  cases cs with
  | nil => exact List.cons_ne_nil _ _
  | cons c cs =>
      rw [segments]
      split
      case isTrue => exact List.cons_ne_nil _ _
      case isFalse => split <;> exact List.cons_ne_nil _ _

/-- A line feed cuts a text, whatever stands in front of it and behind it. -/
theorem segments_append
    (first last : List Char) :
    segments (first ++ '\n' :: last) = segments first ++ segments last := by
  induction first with
  | nil => rfl
  | cons c first ih =>
      rw [List.cons_append, segments, segments, ih]
      split
      case isTrue => rfl
      case isFalse =>
          obtain ⟨line, lines, hlines⟩ := List.exists_cons_of_ne_nil (segments_ne_nil first)
          rw [hlines]
          rfl

theorem lineFeed_not_mem_segments
    {cs : List Char}
    (h : line ∈ segments cs) :
    '\n' ∉ line := by
  induction cs generalizing line with
  | nil =>
      rw [List.mem_singleton.mp h]
      exact List.not_mem_nil
  | cons c cs ih =>
      rw [segments] at h
      split at h
      case isTrue =>
          rcases List.mem_cons.mp h with rfl | hrest
          · exact List.not_mem_nil
          · exact ih hrest
      case isFalse hne =>
          obtain ⟨first, others, hothers⟩ := List.exists_cons_of_ne_nil (segments_ne_nil cs)
          rw [hothers] at h ih
          rcases List.mem_cons.mp h with rfl | hrest
          · rw [List.mem_cons, not_or]
            exact ⟨Ne.symm hne, ih List.mem_cons_self⟩
          · exact ih (List.mem_cons_of_mem first hrest)

/-- Lines between line feeds are cut apart again. -/
theorem segments_separated
    (h : ∀ line ∈ lines, '\n' ∉ line)
    (some_line : lines ≠ []) :
    segments (separated ['\n'] lines) = lines := by
  induction lines with
  | nil => exact absurd rfl some_line
  | cons line lines ih =>
      obtain ⟨hline, hlines⟩ := List.forall_mem_cons.mp h
      cases lines with
      | nil => exact segments_line hline
      | cons next lines =>
          have hjoined : separated ['\n'] (line :: next :: lines) =
              line ++ '\n' :: separated ['\n'] (next :: lines) := by
            simp [separated]
          rw [hjoined, segments_append, segments_line hline,
            ih hlines (List.cons_ne_nil next lines), List.singleton_append]

section Trimmed

variable {cs : List Char}

theorem head?_trim
    (cs : List Char) :
    ∀ c ∈ (trim cs).head?, isBlank c = false := by
  intro c hc
  have hprefix : trim cs <+: cs.dropWhile isBlank := by
    have hsuffix := List.dropWhile_suffix (l := (cs.dropWhile isBlank).reverse) isBlank
    have hreversed := List.reverse_prefix.mpr hsuffix
    rwa [List.reverse_reverse] at hreversed
  obtain ⟨rest, hrest⟩ := hprefix
  have hfirst := List.head?_dropWhile_not isBlank cs
  rw [← hrest, List.head?_append, hc, Option.some_or] at hfirst
  exact hfirst

theorem getLast?_trim
    (cs : List Char) :
    ∀ c ∈ (trim cs).getLast?, isBlank c = false := by
  intro c hc
  rw [trim, List.getLast?_reverse] at hc
  have hlast := List.head?_dropWhile_not isBlank (cs.dropWhile isBlank).reverse
  rw [hc] at hlast
  exact hlast

/-- Characters without white space at their ends stay as they are. -/
theorem trim_of_ends
    (first : ∀ c ∈ cs.head?, isBlank c = false)
    (last : ∀ c ∈ cs.getLast?, isBlank c = false) :
    trim cs = cs := by
  have hfront : cs.dropWhile isBlank = cs := by
    cases cs with
    | nil => rfl
    | cons c cs => exact List.dropWhile_cons_of_neg (Bool.eq_false_iff.mp (first c rfl))
  have hback : cs.reverse.dropWhile isBlank = cs.reverse := by
    rw [← List.head?_reverse] at last
    generalize cs.reverse = reversed at last
    cases reversed with
    | nil => rfl
    | cons c reversed => exact List.dropWhile_cons_of_neg (Bool.eq_false_iff.mp (last c rfl))
  rw [trim, hfront, hback, List.reverse_reverse]

theorem trim_trim
    (cs : List Char) :
    trim (trim cs) = trim cs :=
  trim_of_ends (head?_trim cs) (getLast?_trim cs)

theorem mem_of_mem_trim
    {c : Char}
    (h : c ∈ trim cs) :
    c ∈ cs := by
  have hreversed := (List.dropWhile_suffix isBlank).subset (List.mem_reverse.mp h)
  exact (List.dropWhile_suffix isBlank).subset (List.mem_reverse.mp hreversed)

end Trimmed

theorem filledLines_separated
    (h : ∀ line ∈ lines, '\n' ∉ line) :
    filledLines (String.ofList (separated ['\n'] lines)) =
      (lines.map trim).filter fun line => !line.isEmpty := by
  unfold filledLines
  rw [String.toList_ofList]
  cases lines with
  | nil => rfl
  | cons line lines => rw [segments_separated h (List.cons_ne_nil line lines)]

/-- The lines of two texts are those of the one and those of the other. -/
theorem filledLines_append
    (first last : String) :
    filledLines (first ++ "\n" ++ last) = filledLines first ++ filledLines last := by
  have htext : (first ++ "\n" ++ last).toList = first.toList ++ '\n' :: last.toList := by
    simp
  unfold filledLines
  rw [htext, segments_append, List.map_append, List.filter_append]

/-- Lines of a text that are put together again stay the same. -/
theorem filledLines_of_subset
    {source : String}
    (h : ∀ line ∈ lines, line ∈ filledLines source) :
    filledLines (String.ofList (separated ['\n'] lines)) = lines := by
  have hline : ∀ line ∈ lines, '\n' ∉ line ∧ trim line = line ∧ line ≠ [] := by
    intro line hmem
    obtain ⟨htrimmed, hfilled⟩ := List.mem_filter.mp (h line hmem)
    obtain ⟨segment, hsegment, rfl⟩ := List.mem_map.mp htrimmed
    refine ⟨fun hfeed => lineFeed_not_mem_segments hsegment (mem_of_mem_trim hfeed),
      trim_trim segment, fun hempty => ?_⟩
    rw [hempty] at hfilled
    cases hfilled
  have hsame : lines.map trim = lines :=
    (List.map_congr_left fun line hmem => (hline line hmem).2.1).trans (List.map_id lines)
  rw [filledLines_separated fun line hmem => (hline line hmem).1, hsame, List.filter_eq_self]
  intro line hmem
  simpa using (hline line hmem).2.2

end Text
end BatchRun
