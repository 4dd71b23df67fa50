import BatchRun.Proofs.Number.Digits

/-!
# Characters of numbers

**Type.**
A text is `Marked` if it has a character and has only marks: digits, signs, decimal points and
the letter `e`.

**Results.**
* `marked_intText`, `marked_magnitudeText`: whole and finite numbers are written in marks.
* `numberChars_text`: a number that is not finite takes the letters of its name besides.
* `head_text`: the first character of a number is a mark or the first letter of such a name.
-/

namespace BatchRun
namespace Number

/-- A digit, a sign, the decimal point or the letter in front of an exponent. -/
def isMark (c : Char) : Bool :=
  c.isDigit || c == '+' || c == '-' || c == '.' || c == 'e'

/-- A mark, or a letter of the name of a number that is not finite. -/
def isNumberChar (c : Char) : Bool :=
  isMark c || c == 'N' || c == 'a' || c == 'i' || c == 'n' || c == 'f'

/-- A character with which a number begins. -/
def beginsNumber (c : Char) : Bool :=
  isMark c || c == 'N' || c == 'i'

/-- A text of marks. -/
structure Marked (text : String) : Prop where
  ne_empty : text ≠ ""
  marks : ∀ c ∈ text.toList, isMark c = true

section Marks

variable {cs : List Char} {first last : String}

theorem Marked.append
    (hfirst : Marked first)
    (hlast : ∀ c ∈ last.toList, isMark c = true) :
    Marked (first ++ last) := by
  refine ⟨fun h => hfirst.ne_empty (String.append_eq_empty_iff.mp h).1, ?_⟩
  rw [String.toList_append, List.forall_mem_append]
  exact ⟨hfirst.marks, hlast⟩

theorem marked_ofList
    {c : Char}
    (h : ∀ d ∈ c :: cs, isMark d = true) :
    Marked (String.ofList (c :: cs)) := by
  refine ⟨by simp, ?_⟩
  rw [String.toList_ofList]
  exact h

theorem marked_of_all
    {text : String}
    (some_char : text ≠ "")
    (h : text.toList.all isMark = true) :
    Marked text :=
  ⟨some_char, List.all_eq_true.mp h⟩

theorem marked_natText
    (n : Nat) :
    Marked (natText n) where
  ne_empty := natText_ne_empty n
  marks c h := by
    have hdigit : c.isDigit = true := isDigit_of_mem_digits h
    simp [isMark, hdigit]

theorem marked_intText
    (i : Int) :
    Marked (intText i) := by
  have hminus : Marked "-" := marked_of_all (by decide) (by decide)
  unfold intText
  split
  case isTrue => exact hminus.append (marked_natText _).marks
  case isFalse => exact marked_natText _

/-- The digits of a decimal are among those of its significand. -/
theorem marks_decimal
    (d : Decimal) :
    ∀ c ∈ d.digits.1, isMark c = true := by
  intro c h
  unfold Decimal.digits at h
  rw [List.mem_reverse] at h
  have hmem := (List.dropWhile_sublist _).subset h
  exact (marked_natText d.significand).marks c (List.mem_reverse.mp hmem)

theorem marks_zeros
    (n : Nat) :
    ∀ c ∈ List.replicate n '0', isMark c = true := by
  intro c h
  rw [(List.mem_replicate.mp h).2]
  rfl

theorem marked_positionalText
    (marksWhole : Bool)
    (place : Int)
    (h : ∀ c ∈ cs, isMark c = true) :
    Marked (positionalText marksWhole cs place) := by
  have hpoint : isMark '.' = true := rfl
  unfold positionalText
  split
  case isTrue =>
      refine marked_ofList ?_
      rw [List.forall_mem_cons, List.forall_mem_cons, List.forall_mem_append]
      exact ⟨rfl, hpoint, marks_zeros _, h⟩
  case isFalse hplace =>
      split
      case isTrue hlength =>
          have hsuffix : ∀ c ∈ (if marksWhole then ".0" else "").toList, isMark c = true := by
            cases marksWhole <;> exact List.all_eq_true.mp (by decide)
          refine Marked.append ⟨fun hempty => ?_, ?_⟩ hsuffix
          · have hlen := congrArg List.length (congrArg String.toList hempty)
            simp only [String.toList_ofList, List.length_append, List.length_replicate,
              String.toList_empty, List.length_nil] at hlen
            omega
          · rw [String.toList_ofList, List.forall_mem_append]
            exact ⟨h, marks_zeros _⟩
      case isFalse =>
          refine ⟨by simp, ?_⟩
          rw [String.toList_ofList, List.forall_mem_append, List.forall_mem_cons]
          exact ⟨fun c hc => h c (List.mem_of_mem_take hc), hpoint,
            fun c hc => h c (List.mem_of_mem_drop hc)⟩

theorem marked_exponentText
    (place : Int)
    (h : ∀ c ∈ cs, isMark c = true) :
    Marked (exponentText cs place) := by
  have hsign : ∀ c ∈ (if place - 1 < 0 then "e-" else "e+").toList, isMark c = true := by
    split <;> exact List.all_eq_true.mp (by decide)
  refine Marked.append (Marked.append ?_ hsign) (marked_natText _).marks
  match cs, h with
  | [], _ => exact marked_of_all (by decide) (by decide)
  | [d], h => exact marked_ofList h
  | d :: e :: rest, h =>
      rw [List.forall_mem_cons] at h
      exact marked_ofList (List.forall_mem_cons.mpr ⟨h.1, List.forall_mem_cons.mpr ⟨rfl, h.2⟩⟩)

theorem marked_magnitudeText
    (layout : Layout)
    (rank : Nat) :
    Marked (magnitudeText layout rank) := by
  have hdigits := marks_decimal (shortest layout.tie rank)
  unfold magnitudeText
  split
  case isTrue =>
      split
      case isTrue => exact marked_of_all (by decide) (by decide)
      case isFalse => exact marked_of_all (by decide) (by decide)
  case isFalse =>
      simp only
      split
      case h_1 => exact marked_positionalText _ _ hdigits
      case h_2 =>
          split
          case isTrue => exact marked_positionalText _ _ hdigits
          case isFalse => exact marked_exponentText _ hdigits

end Marks

section Texts

theorem isNumberChar_of_isMark
    {c : Char}
    (h : isMark c = true) :
    isNumberChar c = true := by
  simp [isNumberChar, h]

/-- The characters of a number. -/
theorem numberChars_text
    (layout : Layout)
    (x : Binary64) :
    ∀ c ∈ (x.text layout).toList, isNumberChar c = true := by
  cases x with
  | nan =>
      have hname : ∀ c ∈ "NaN".toList, isNumberChar c = true := List.all_eq_true.mp (by decide)
      exact hname
  | signed negative rank =>
      have hsign : ∀ c ∈ (if negative then "-" else "").toList, isNumberChar c = true := by
        cases negative <;> exact List.all_eq_true.mp (by decide)
      unfold Binary64.text
      rw [String.toList_append, List.forall_mem_append]
      refine ⟨hsign, ?_⟩
      split
      case isTrue => exact List.all_eq_true.mp (by decide)
      case isFalse =>
          exact fun c h => isNumberChar_of_isMark ((marked_magnitudeText layout rank.val).marks c h)

theorem Marked.head
    {text : String}
    (h : Marked text) :
    ∃ c cs, text.toList = c :: cs ∧ beginsNumber c = true := by
  obtain ⟨c, cs, hcs⟩ := List.exists_cons_of_ne_nil
    (fun hnil => h.ne_empty (String.toList_eq_nil_iff.mp hnil))
  have hc := h.marks c (hcs ▸ List.mem_cons_self)
  exact ⟨c, cs, hcs, by simp [beginsNumber, hc]⟩

/-- The first character of a number. -/
theorem head_text
    (layout : Layout)
    (x : Binary64) :
    ∃ c cs, (x.text layout).toList = c :: cs ∧ beginsNumber c = true := by
  cases x with
  | nan =>
      have hname : ∃ c cs, "NaN".toList = c :: cs ∧ beginsNumber c = true :=
        ⟨'N', ['a', 'N'], by decide, rfl⟩
      exact hname
  | signed negative rank =>
      rw [Binary64.text]
      cases negative with
      | true => exact ⟨'-', _, by rw [String.toList_append]; rfl, rfl⟩
      | false =>
          rw [if_neg Bool.false_ne_true, String.empty_append]
          split
          case isTrue => exact ⟨'i', ['n', 'f'], by decide, rfl⟩
          case isFalse => exact (marked_magnitudeText layout rank.val).head

end Texts

end Number
end BatchRun
