import BatchRun.Job.Duplicates

/-!
# Owners of results

**Types.**
A `Claimant` asks a registry about its result.  `Registry.asked` are the answers to several
claimants, each with its claimant, in the order in which they asked.  A `Contest` has one winner:
of all who came with a text, one is told that nobody came before, and the others are given its
name.

**Results.**
* `record_eq_none`, `record_eq_some`: what the two answers of a registry say of it.
* `owner?_record`: owners are never replaced.
* `contest_of_asked`: from an empty registry every text has its contest.
-/

namespace BatchRun
namespace Registry

variable {registry after : Registry} {result : Json} {id owner : String} {digest : Text.Bytes}

@[simp] theorem owner?_empty
    (digest : Text.Bytes) :
    owner? {} digest = none :=
  rfl

theorem owner?_cons
    (owners : List (Text.Bytes × String)) :
    owner? ⟨(result.digest, id) :: owners⟩ digest =
      if result.digest = digest then some id else owner? ⟨owners⟩ digest := by
  unfold owner?
  by_cases hsame : result.digest = digest
  · simp [hsame]
  · simp [hsame]

/-- Nobody came before the caller, who is the owner now. -/
theorem record_eq_none
    (h : registry.record result id = (after, none)) :
    registry.owner? result.digest = none ∧ after = ⟨(result.digest, id) :: registry.owners⟩ := by
  unfold record at h
  cases howner : registry.owner? result.digest with
  | some other =>
      rw [howner] at h
      cases h
  | none =>
      rw [howner] at h
      cases h
      exact ⟨rfl, rfl⟩

/-- Somebody else came before the caller, and nothing changes. -/
theorem record_eq_some
    (h : registry.record result id = (after, some owner)) :
    registry.owner? result.digest = some owner ∧ after = registry := by
  unfold record at h
  cases howner : registry.owner? result.digest with
  | some other =>
      rw [howner] at h
      cases h
      exact ⟨rfl, rfl⟩
  | none =>
      rw [howner] at h
      cases h

/-- The owner of a digest afterwards was its owner before, or is the caller. -/
theorem owner?_record
    (h : registry.record result id = (after, none)) :
    after.owner? digest = if result.digest = digest then some id else registry.owner? digest := by
  rw [(record_eq_none h).2, owner?_cons]

/-- Owners are never replaced. -/
theorem owner?_record_of_some
    {answer : Option String}
    (h : registry.record result id = (after, answer))
    (owned : registry.owner? digest = some owner) :
    after.owner? digest = some owner := by
  cases answer with
  | some other =>
      rw [(record_eq_some h).2]
      exact owned
  | none =>
      rw [owner?_record h, owned]
      split
      case isTrue hsame =>
          rw [← hsame, (record_eq_none h).1] at owned
          cases owned
      case isFalse => rfl

/-- Whoever has recorded a result knows its owner. -/
theorem owner?_recorded
    {answer : Option String}
    (h : registry.record result id = (after, answer)) :
    after.owner? result.digest = some (answer.getD id) := by
  cases answer with
  | some other =>
      rw [(record_eq_some h).2]
      exact (record_eq_some h).1
  | none =>
      rw [owner?_record h, if_pos rfl]
      rfl

end Registry

/-- Somebody who has a result. -/
structure Claimant where
  result : Json
  id : String

namespace Registry

/-- Claimants in the order in which they ask, each with its answer. -/
def asked (registry : Registry) : List Claimant → List (Claimant × Option String)
  | [] => []
  | claimant :: rest =>
    match registry.record claimant.result claimant.id with
    | (after, answer) => (claimant, answer) :: after.asked rest

/-- One claimant of a text is told that nobody came before, and the others are told its id. -/
def Contest (asked : List (Claimant × Option String)) (text : String) : Prop :=
  ∃ before winner after, asked = before ++ (winner, none) :: after ∧
    winner.result.canonical = text ∧
    ∀ entry ∈ before ++ after, entry.1.result.canonical = text → entry.2 = some winner.id

section Asking

variable {registry : Registry} {claimants : List Claimant} {claimant : Claimant} {owner : String}
  {digest : Text.Bytes}

theorem asked_cons
    {first : Claimant} {after : Registry} {answer : Option String}
    (h : registry.record first.result first.id = (after, answer)) :
    registry.asked (first :: claimants) = (first, answer) :: after.asked claimants := by
  rw [asked, h]

theorem mem_of_asked
    {entry : Claimant × Option String}
    (h : entry ∈ registry.asked claimants) :
    entry.1 ∈ claimants := by
  induction claimants generalizing registry with
  | nil => cases h
  | cons first rest ih =>
      rcases List.mem_cons.mp h with rfl | hrest
      · exact List.mem_cons_self
      · exact List.mem_cons_of_mem first (ih hrest)

/-- All claimants of a result that has an owner are told its id. -/
theorem answer_of_owned
    (owned : registry.owner? digest = some owner) :
    ∀ entry ∈ registry.asked claimants, entry.1.result.digest = digest →
      entry.2 = some owner := by
  induction claimants generalizing registry with
  | nil =>
      intro entry hentry
      cases hentry
  | cons first rest ih =>
      cases hrecord : registry.record first.result first.id with
      | mk after answer =>
          rw [asked_cons hrecord]
          intro entry hentry hdigest
          rcases List.mem_cons.mp hentry with rfl | hrest
          · cases answer with
            | some other =>
                have hother := (record_eq_some hrecord).1
                rw [hdigest, owned] at hother
                exact hother.symm
            | none =>
                have hnone := (record_eq_none hrecord).1
                rw [hdigest, owned] at hnone
                cases hnone
          · exact ih (owner?_record_of_some hrecord owned) entry hrest hdigest

/-- The first claimant of a result without an owner wins, and the others are told its id. -/
theorem split_of_free
    (free : registry.owner? digest = none)
    (claimed : ∃ claimant ∈ claimants, claimant.result.digest = digest) :
    ∃ before winner after, registry.asked claimants = before ++ (winner, none) :: after ∧
      winner.result.digest = digest ∧
      (∀ entry ∈ before, entry.1.result.digest ≠ digest) ∧
      ∀ entry ∈ after, entry.1.result.digest = digest → entry.2 = some winner.id := by
  induction claimants generalizing registry with
  | nil =>
      obtain ⟨claimant, hmem, -⟩ := claimed
      cases hmem
  | cons first rest ih =>
      cases hrecord : registry.record first.result first.id with
      | mk next answer =>
          rw [asked_cons hrecord]
          by_cases hfirst : first.result.digest = digest
          · cases answer with
            | some other =>
                have hother := (record_eq_some hrecord).1
                rw [hfirst, free] at hother
                cases hother
            | none =>
                have howned : next.owner? digest = some first.id := by
                  rw [owner?_record hrecord, if_pos hfirst]
                exact ⟨[], first, _, rfl, hfirst, fun _ hentry => absurd hentry List.not_mem_nil,
                  answer_of_owned howned⟩
          · have hrest : ∃ claimant ∈ rest, claimant.result.digest = digest := by
              obtain ⟨claimant, hmem, hdigest⟩ := claimed
              rcases List.mem_cons.mp hmem with rfl | hrest
              · exact absurd hdigest hfirst
              · exact ⟨claimant, hrest, hdigest⟩
            have hfree : next.owner? digest = none := by
              cases answer with
              | some other =>
                  rw [(record_eq_some hrecord).2]
                  exact free
              | none =>
                  rw [owner?_record hrecord, if_neg hfirst]
                  exact free
            obtain ⟨before, winner, after, hsplit, hwinner, hbefore, hafter⟩ := ih hfree hrest
            refine ⟨(first, answer) :: before, winner, after, by rw [hsplit]; rfl, hwinner, ?_,
              hafter⟩
            intro entry hentry
            rcases List.mem_cons.mp hentry with rfl | hmem
            · exact hfirst
            · exact hbefore entry hmem

/-- Claimants with different texts have different digests. -/
def Apart (claimants : List Claimant) : Prop :=
  ∀ a ∈ claimants, ∀ b ∈ claimants, a.result.digest = b.result.digest →
    a.result.canonical = b.result.canonical

/-- From an empty registry every text has its contest. -/
theorem contest_of_asked
    (apart : Apart claimants)
    (hclaimant : claimant ∈ claimants) :
    Contest (asked {} claimants) claimant.result.canonical := by
  obtain ⟨before, winner, after, hsplit, hwinner, hbefore, hafter⟩ :=
    split_of_free (owner?_empty claimant.result.digest) ⟨claimant, hclaimant, rfl⟩
  have hmem : ∀ entry ∈ before ++ (winner, none) :: after, entry.1 ∈ claimants :=
    fun entry hentry => mem_of_asked (hsplit ▸ hentry)
  have hwon := apart winner (hmem (winner, none) (by simp)) claimant hclaimant hwinner
  refine ⟨before, winner, after, hsplit, hwon, ?_⟩
  intro entry hentry htext
  -- Equal texts have equal digests.
  have hdigest : entry.1.result.digest = claimant.result.digest := by
    unfold Json.digest
    rw [htext]
  rcases List.mem_append.mp hentry with hearly | hlate
  · exact absurd hdigest (hbefore entry hearly)
  · exact hafter entry hlate hdigest

end Asking

end Registry
end BatchRun
