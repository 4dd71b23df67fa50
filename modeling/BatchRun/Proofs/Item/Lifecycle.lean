import BatchRun.Proofs.Item.Moves
import Mathlib.Data.List.Infix

/-!
# Life of an item under any calls

**Type.**
A `Call` is one of the operations on an item.  `Call.inPlace` carries it out as a sequence of
assignments: the check of the move, the status, the times, and last what the call brings.  What was
assigned before a rejection stays assigned.

**Results.**
* `inPlace_eq`: in place a call leaves what the operation returns, and after a rejection the item
  as it was.
* `consistent_performed`: a call keeps what an item has in step with its status.
* `performed_of_terminal`: a finished item only counts attempts.
* `lifecycle_of_calls`: what holds after every sequence of calls on a new item.
-/

namespace BatchRun
namespace Item

open Time

/-- Work on an item in place that may be rejected. -/
abbrev InPlace : Type := ExceptT RejectedMove (StateM Item) Unit

/-- A move to another status in place: the check, then the status, then the times. -/
def transition (target : Status) (now : Timestamp) : InPlace := do
  let item ← get
  if !item.status.canMoveTo target then
    throw ⟨item.id, item.status, target⟩
  modify fun item => { item with status := target }
  if target = .processing then
    modify fun item => { item with startedAt := some now }
  else if target.isTerminal then
    modify fun item => { item with finishedAt := some now }
    modify fun item =>
      { item with
        durationMillis :=
          match item.startedAt with
          | some start => (now.millisSince start).toNat
          | none => 0 }

/-- A call on an item. -/
inductive Call where
  | start
  | beginAttempt
  | succeed (result : Json)
  | fail (failure : ItemFailure)
  | skip (reason : SkipReason)

namespace Call

/-- Status that a call moves the item to; counting an attempt is no move. -/
def target? : Call → Option Status
  | start => some .processing
  | beginAttempt => none
  | succeed _ => some .success
  | fail _ => some .failed
  | skip _ => some .skipped

/-- The item with what a call brings besides the status. -/
def fill : Call → Item → Item
  | start, item => item
  | beginAttempt, item => item.beginAttempt
  | succeed result, item => { item with result := some result }
  | fail failure, item => { item with failure := some failure }
  | skip reason, item => { item with skipReason := some reason }

/-- A call in place: its move, if it has one, and then what it brings. -/
def inPlace (call : Call) (now : Timestamp) : InPlace := do
  if let some target := call.target? then
    transition target now
  modify call.fill

/-- Whether a call in place was rejected, and the item that it leaves. -/
def performed (call : Call) (now : Timestamp) (item : Item) :
    Except RejectedMove Unit × Item :=
  (call.inPlace now).run.run item

/-- What the operation returns. -/
def answer (call : Call) (now : Timestamp) (item : Item) : Except RejectedMove Item :=
  match call with
  | start => item.start now
  | beginAttempt => .ok item.beginAttempt
  | succeed result => item.succeed result now
  | fail failure => item.fail failure now
  | skip reason => item.skip reason now

end Call

/-- An item that differs from another one in the number of attempts only. -/
def Recounted (item next : Item) : Prop := ∃ attempts, next = { item with attempts }

/-- The item after calls at some times. -/
def after (item : Item) (calls : List (Call × Timestamp)) : Item :=
  calls.foldl (fun item call => (call.1.performed call.2 item).2) item

section Performed

variable {item : Item} {call : Call} {now : Timestamp} {target : Status}

/-- The assignments of a move, for every pair of statuses. -/
theorem transition_eq
    (target : Status)
    (now : Timestamp)
    (item : Item) :
    (transition target now).run.run item =
      if item.status.canMoveTo target then (.ok (), item.moved target now)
      else (.error ⟨item.id, item.status, target⟩, item) := by
  obtain ⟨_, _, _, _, status, _, _, _, _, _, _, _, _, _⟩ := item
  cases status <;> cases target <;> rfl

/-- What a call brings is assigned only behind a move that was made. -/
theorem performed_of_target
    (h : call.target? = some target) :
    call.performed now item =
      match (transition target now).run.run item with
      | (.ok (), next) => (.ok (), call.fill next)
      | (.error move, next) => (.error move, next) := by
  have hrun : call.performed now item =
      (transition target now >>= fun _ => modify call.fill).run.run item := by
    rw [Call.performed, Call.inPlace, h]
  rw [hrun, ExceptT.run_bind, StateT.run_bind]
  cases (transition target now).run.run item with
  | mk result next =>
      cases result with
      | ok _ => rfl
      | error move => rfl

theorem answer_of_target
    (h : call.target? = some target) :
    call.answer now item = (item.moveTo target now).map call.fill := by
  cases call with
  | start =>
      cases h
      exact (congrFun Except.map_id _).symm
  | beginAttempt => cases h
  | succeed result => cases h; rfl
  | fail failure => cases h; rfl
  | skip reason => cases h; rfl

/-- A call counts an attempt, makes a move and brings what it has, or is rejected. -/
theorem performed_cases
    (call : Call)
    (now : Timestamp)
    (item : Item) :
    (call = .beginAttempt ∧ call.performed now item = (.ok (), item.beginAttempt)) ∨
    (∃ target, call.target? = some target ∧ item.status.canMoveTo target = true ∧
      call.performed now item = (.ok (), call.fill (item.moved target now))) ∨
    (∃ target, call.target? = some target ∧ item.status.canMoveTo target = false ∧
      call.performed now item = (.error ⟨item.id, item.status, target⟩, item)) := by
  cases htarget : call.target? with
  | none =>
      cases call with
      | beginAttempt => exact .inl ⟨rfl, rfl⟩
      | start | succeed _ | fail _ | skip _ => cases htarget
  | some target =>
      have hperformed : call.performed now item = _ := performed_of_target htarget
      rw [transition_eq] at hperformed
      cases hmove : item.status.canMoveTo target with
      | true =>
          rw [if_pos hmove] at hperformed
          exact .inr (.inl ⟨target, rfl, hmove, hperformed⟩)
      | false =>
          rw [if_neg (by rw [hmove]; decide)] at hperformed
          exact .inr (.inr ⟨target, rfl, hmove, hperformed⟩)

/-- In place a call leaves what the operation returns, and after a rejection the item as it
was. -/
theorem inPlace_eq
    (call : Call)
    (now : Timestamp)
    (item : Item) :
    call.performed now item =
      match call.answer now item with
      | .ok next => (.ok (), next)
      | .error move => (.error move, item) := by
  obtain ⟨rfl, hp⟩ | ⟨target, htarget, hmove, hp⟩ | ⟨target, htarget, hmove, hp⟩ :=
    performed_cases call now item
  · exact hp
  · rw [hp, answer_of_target htarget, moveTo, if_pos hmove]
    rfl
  · rw [hp, answer_of_target htarget, moveTo, if_neg (by rw [hmove]; decide)]
    rfl

theorem origin_fill
    (call : Call)
    (item : Item) :
    (call.fill item).origin = item.origin := by
  cases call with
  | start | beginAttempt | succeed _ | fail _ | skip _ => rfl

theorem origin_performed
    (call : Call)
    (now : Timestamp)
    (item : Item) :
    (call.performed now item).2.origin = item.origin := by
  obtain ⟨rfl, hp⟩ | ⟨target, -, -, hp⟩ | ⟨target, -, -, hp⟩ := performed_cases call now item
  · rfl
  · rw [hp, origin_fill, origin_moved]
  · rw [hp]

theorem le_attempts_fill
    (call : Call)
    (item : Item) :
    item.attempts ≤ (call.fill item).attempts := by
  cases call with
  | beginAttempt => exact Nat.le_succ _
  | start | succeed _ | fail _ | skip _ => exact Nat.le_refl _

theorem le_attempts_performed
    (call : Call)
    (now : Timestamp)
    (item : Item) :
    item.attempts ≤ (call.performed now item).2.attempts := by
  obtain ⟨rfl, hp⟩ | ⟨target, -, -, hp⟩ | ⟨target, -, -, hp⟩ := performed_cases call now item
  · exact Nat.le_succ _
  · have hmoved : (item.moved target now).attempts = item.attempts := attempts_moved target
    rw [hp, ← hmoved]
    exact le_attempts_fill call (item.moved target now)
  · rw [hp]

theorem Recounted.status_eq
    {next : Item}
    (h : Recounted item next) :
    next.status = item.status := by
  obtain ⟨attempts, rfl⟩ := h
  rfl

theorem Recounted.id_eq
    {next : Item}
    (h : Recounted item next) :
    next.id = item.id := by
  obtain ⟨attempts, rfl⟩ := h
  rfl

theorem Recounted.isTerminal
    {next : Item}
    (h : Recounted item next)
    (terminal : item.isTerminal = true) :
    next.isTerminal = true := by
  rw [Item.isTerminal, h.status_eq]
  exact terminal

theorem not_canMoveTo_of_terminal
    (h : item.isTerminal = true) :
    item.status.canMoveTo target = false :=
  Status.not_canMoveTo_of_isTerminal h

/-- A finished item only counts attempts. -/
theorem performed_of_terminal
    (h : item.isTerminal = true)
    (call : Call)
    (now : Timestamp) :
    Recounted item (call.performed now item).2 := by
  obtain ⟨rfl, hp⟩ | ⟨target, -, hmove, hp⟩ | ⟨target, -, -, hp⟩ := performed_cases call now item
  · exact ⟨item.attempts + 1, rfl⟩
  · rw [not_canMoveTo_of_terminal h] at hmove
    cases hmove
  · rw [hp]
    exact ⟨item.attempts, rfl⟩

theorem rejected_of_terminal
    (h : item.isTerminal = true)
    (htarget : call.target? = some target)
    (now : Timestamp) :
    call.performed now item = (.error ⟨item.id, item.status, target⟩, item) := by
  obtain ⟨rfl, -⟩ | ⟨_, -, hmove, -⟩ | ⟨_, hother, -, hp⟩ := performed_cases call now item
  · cases htarget
  · rw [not_canMoveTo_of_terminal h] at hmove
    cases hmove
  · rw [hp, Option.some.inj (hother.symm.trans htarget)]

end Performed

section Consistency

variable {item : Item} {call : Call} {now : Timestamp} {target : Status}

/-- What an item has in step with its status. -/
structure Consistent (item : Item) : Prop where
  result : item.result.isSome = true ↔ item.status = .success
  failure : item.failure.isSome = true ↔ item.status = .failed
  skipReason : item.skipReason.isSome = true ↔ item.status = .skipped
  finished : item.finishedAt.isSome = true ↔ item.isTerminal = true
  started : item.status = .processing → item.startedAt.isSome = true

/-- Nothing of an end is there before the end. -/
theorem Consistent.unfinished
    (h : Consistent item)
    (running : item.isTerminal = false) :
    item.result = none ∧ item.failure = none ∧ item.skipReason = none ∧ item.finishedAt = none := by
  have hne : ∀ status : Status, status.isTerminal = true → item.status ≠ status := by
    rintro _ hterminal rfl
    rw [isTerminal, hterminal] at running
    cases running
  refine ⟨?_, ?_, ?_, ?_⟩
  · exact Option.not_isSome_iff_eq_none.mp fun hsome => hne .success rfl (h.result.mp hsome)
  · exact Option.not_isSome_iff_eq_none.mp fun hsome => hne .failed rfl (h.failure.mp hsome)
  · exact Option.not_isSome_iff_eq_none.mp fun hsome => hne .skipped rfl (h.skipReason.mp hsome)
  · refine Option.not_isSome_iff_eq_none.mp fun hsome => ?_
    rw [h.finished.mp hsome] at running
    cases running

theorem isTerminal_of_canMoveTo
    (h : item.status.canMoveTo target = true) :
    item.isTerminal = false := by
  cases hterminal : item.isTerminal with
  | false => rfl
  | true =>
      rw [Status.not_canMoveTo_of_isTerminal hterminal] at h
      cases h

theorem consistent_filled
    (h : Consistent item)
    (htarget : call.target? = some target)
    (hmove : item.status.canMoveTo target = true) :
    Consistent (call.fill (item.moved target now)) := by
  obtain ⟨hresult, hfailure, hskip, hfinished⟩ := h.unfinished (isTerminal_of_canMoveTo hmove)
  cases call with
  | beginAttempt => cases htarget
  | start | succeed _ | fail _ | skip _ =>
      cases htarget
      constructor <;>
      simp [Call.fill, moved, isTerminal, Status.isTerminal, hresult, hfailure, hskip, hfinished]

theorem consistent_performed
    (h : Consistent item)
    (call : Call)
    (now : Timestamp) :
    Consistent (call.performed now item).2 := by
  obtain ⟨rfl, hp⟩ | ⟨target, htarget, hmove, hp⟩ | ⟨target, -, -, hp⟩ :=
    performed_cases call now item
  · exact ⟨h.result, h.failure, h.skipReason, h.finished, h.started⟩
  · rw [hp]
    exact consistent_filled h htarget hmove
  · rw [hp]
    exact h

theorem status_filled
    (htarget : call.target? = some target) :
    (call.fill (item.moved target now)).status = target := by
  cases call with
  | beginAttempt => cases htarget
  | start | succeed _ | fail _ | skip _ => exact status_moved target

theorem startedAt_filled
    (htarget : call.target? = some target) :
    (call.fill (item.moved target now)).startedAt =
      if target = .processing then some now else item.startedAt := by
  cases call with
  | beginAttempt => cases htarget
  | start | succeed _ | fail _ | skip _ =>
      cases htarget
      rfl

/-- The time of the start is kept, and is there as soon as the item is processed. -/
theorem started_performed
    (h : Consistent item)
    (call : Call)
    (now : Timestamp) :
    (call.performed now item).2.startedAt.isSome = true ↔
      item.startedAt.isSome = true ∨ (call.performed now item).2.status = .processing := by
  obtain ⟨rfl, hp⟩ | ⟨target, htarget, -, hp⟩ | ⟨target, -, -, hp⟩ := performed_cases call now item
  · exact ⟨.inl, fun hor => hor.elim (fun hsome => hsome) h.started⟩
  · rw [hp, startedAt_filled htarget, status_filled htarget]
    split
    case isTrue htime => exact ⟨fun _ => .inr htime, fun _ => rfl⟩
    case isFalse htime => exact ⟨.inl, fun hor => hor.resolve_right htime⟩
  · rw [hp]
    exact ⟨.inl, fun hor => hor.elim (fun hsome => hsome) h.started⟩

end Consistency

section Histories

variable {item : Item} {calls : List (Call × Timestamp)}

theorem after_append
    (item : Item)
    (calls : List (Call × Timestamp))
    (call : Call × Timestamp) :
    item.after (calls ++ [call]) = (call.1.performed call.2 (item.after calls)).2 := by
  rw [after, List.foldl_append]
  rfl

theorem origin_after
    (item : Item)
    (calls : List (Call × Timestamp)) :
    (item.after calls).origin = item.origin := by
  induction calls using List.reverseRecOn with
  | nil => rfl
  | append_singleton calls call ih => rw [after_append, origin_performed, ih]

theorem consistent_after
    (h : Consistent item)
    (calls : List (Call × Timestamp)) :
    Consistent (item.after calls) := by
  induction calls using List.reverseRecOn with
  | nil => exact h
  | append_singleton calls call ih =>
      rw [after_append]
      exact consistent_performed ih call.1 call.2

theorem started_after
    (h : Consistent item)
    (unstarted : item.startedAt = none)
    (calls : List (Call × Timestamp)) :
    (item.after calls).startedAt.isSome = true ↔
      ∃ earlier, earlier <+: calls ∧ (item.after earlier).status = .processing := by
  induction calls using List.reverseRecOn with
  | nil =>
      refine ⟨fun hsome => ?_, fun ⟨earlier, hprefix, hstatus⟩ => ?_⟩
      · have hnone : item.startedAt.isSome = true := hsome
        rw [unstarted] at hnone
        cases hnone
      · rw [List.prefix_nil.mp hprefix] at hstatus
        exact h.started hstatus
  | append_singleton calls call ih =>
      rw [after_append, started_performed (consistent_after h calls), ih, ← after_append]
      constructor
      case mp =>
          rintro (⟨earlier, hprefix, hstatus⟩ | hstatus)
          · exact ⟨earlier, hprefix.trans (List.prefix_append calls [call]), hstatus⟩
          · exact ⟨calls ++ [call], List.prefix_refl _, hstatus⟩
      case mpr =>
          rintro ⟨earlier, hprefix, hstatus⟩
          rcases List.prefix_concat_iff.mp hprefix with rfl | hearlier
          · exact .inr hstatus
          · exact .inl ⟨earlier, hearlier, hstatus⟩

/-- A finished item only counts attempts, whatever is called. -/
theorem after_of_terminal
    (h : item.isTerminal = true)
    (calls : List (Call × Timestamp)) :
    Recounted item (item.after calls) := by
  induction calls using List.reverseRecOn with
  | nil => exact ⟨item.attempts, rfl⟩
  | append_singleton calls call ih =>
      obtain ⟨next, hnext⟩ := performed_of_terminal (ih.isTerminal h) call.1 call.2
      obtain ⟨attempts, hattempts⟩ := ih
      exact ⟨next, by rw [after_append, hnext, hattempts]⟩

end Histories

section Restored

variable {item : Item} {status : Status} {location : Option String} {now : Timestamp}

theorem status_restore :
    (item.restore status location now).status =
      if status.isTerminal then status else .skipped :=
  rfl

theorem isTerminal_restore :
    (item.restore status location now).isTerminal = true := by
  rw [isTerminal, status_restore]
  split
  case isTrue h => exact h
  case isFalse => rfl

theorem skipReason_restore
    (h : item.skipReason = none) :
    (item.restore status location now).skipReason = some .resumed ↔
      (item.restore status location now).status = .skipped := by
  have hreason : (item.restore status location now).skipReason =
      if (item.restore status location now).status = .skipped then some .resumed
      else item.skipReason := rfl
  rw [hreason, h]
  split
  case isTrue hskipped => exact ⟨fun _ => hskipped, fun _ => rfl⟩
  case isFalse hother => exact ⟨nofun, fun hskipped => absurd hskipped hother⟩

end Restored

/-- What a call does to an item. -/
structure CallLaws (item : Item) (call : Call) (now : Timestamp) : Prop where
  /-- The operation returns what the call leaves in place. -/
  returned : call.answer now item =
    (call.performed now item).1.map fun _ => (call.performed now item).2
  /-- A call is rejected exactly if it is a move that its status does not allow. -/
  rejected_iff : (∃ move, (call.performed now item).1 = .error move) ↔
    ∃ target, call.target? = some target ∧ item.status.canMoveTo target = false
  /-- A rejection names the item, its status and the target, and leaves the item as it was. -/
  rejected : ∀ move, (call.performed now item).1 = .error move →
    (∃ target, call.target? = some target ∧ move = ⟨item.id, item.status, target⟩) ∧
      (call.performed now item).2 = item
  finished : item.isTerminal = true → Recounted item (call.performed now item).2
  attempts : item.attempts ≤ (call.performed now item).2.attempts
  origin : (call.performed now item).2.origin = item.origin

theorem callLaws
    (item : Item)
    (call : Call)
    (now : Timestamp) :
    CallLaws item call now where
  returned := by
    rw [inPlace_eq]
    cases call.answer now item with
    | ok next => rfl
    | error move => rfl
  rejected_iff := by
    obtain ⟨rfl, hp⟩ | ⟨target, htarget, hmove, hp⟩ | ⟨target, htarget, hmove, hp⟩ :=
      performed_cases call now item
    · exact ⟨nofun, nofun⟩
    · rw [hp]
      refine ⟨nofun, fun ⟨other, hother, hnot⟩ => ?_⟩
      rw [Option.some.inj (hother.symm.trans htarget), hmove] at hnot
      cases hnot
    · rw [hp]
      exact ⟨fun _ => ⟨target, htarget, hmove⟩, fun _ => ⟨_, rfl⟩⟩
  rejected := by
    intro move hmove
    obtain ⟨rfl, hp⟩ | ⟨target, -, -, hp⟩ | ⟨target, htarget, -, hp⟩ :=
      performed_cases call now item
    · cases hmove
    · rw [hp] at hmove
      cases hmove
    · rw [hp] at hmove ⊢
      exact ⟨⟨target, htarget, (Except.error.inj hmove).symm⟩, rfl⟩
  finished h := performed_of_terminal h call now
  attempts := le_attempts_performed call now item
  origin := origin_performed call now item

/-- What holds of an item that takes over a status from an earlier run. -/
structure RestoreLaws (item restored : Item) : Prop where
  finished : restored.isTerminal = true
  skipReason : restored.skipReason = some .resumed ↔ restored.status = .skipped
  origin : restored.origin = item.origin
  /-- Later calls only count attempts. -/
  later : ∀ calls, Recounted restored (restored.after calls)
  /-- Later moves are rejected and leave the item as it is. -/
  rejected : ∀ (calls : List (Call × Timestamp)) (call : Call) (now : Timestamp) (target : Status),
    call.target? = some target → call.performed now (restored.after calls) =
      (.error ⟨restored.id, restored.status, target⟩, restored.after calls)

theorem restoreLaws
    {item : Item}
    (unskipped : item.skipReason = none)
    (status : Status)
    (location : Option String)
    (restoredAt : Timestamp) :
    RestoreLaws item (item.restore status location restoredAt) where
  finished := isTerminal_restore
  skipReason := skipReason_restore unskipped
  origin := rfl
  later calls := after_of_terminal isTerminal_restore calls
  rejected calls call now target htarget := by
    have hkept : Recounted (item.restore status location restoredAt) _ :=
      after_of_terminal isTerminal_restore calls
    rw [← hkept.id_eq, ← hkept.status_eq]
    exact rejected_of_terminal (hkept.isTerminal isTerminal_restore) htarget now

/-- What holds of a new item after a sequence of calls. -/
structure Lifecycle (fresh : Item) (calls : List (Call × Timestamp)) : Prop where
  result : (fresh.after calls).result.isSome = true ↔ (fresh.after calls).status = .success
  failure : (fresh.after calls).failure.isSome = true ↔ (fresh.after calls).status = .failed
  skipReason : (fresh.after calls).skipReason.isSome = true ↔
    (fresh.after calls).status = .skipped
  finished : (fresh.after calls).finishedAt.isSome = true ↔
    (fresh.after calls).isTerminal = true
  started : (fresh.after calls).startedAt.isSome = true ↔
    ∃ earlier, earlier <+: calls ∧ (fresh.after earlier).status = .processing
  origin : (fresh.after calls).origin = fresh.origin
  /-- What the next call does, whichever it is. -/
  call : ∀ call now, CallLaws (fresh.after calls) call now
  /-- A status that an earlier run recorded, taken over while the item is pending. -/
  restored : (fresh.after calls).status = .pending → ∀ status location now,
    RestoreLaws (fresh.after calls) ((fresh.after calls).restore status location now)

/-- What holds after every sequence of calls on a new item. -/
theorem lifecycle_of_calls
    (id : String)
    (position : Nat)
    (payload : Json)
    (metadata : Metadata)
    (calls : List (Call × Timestamp)) :
    Lifecycle { id, position, payload, metadata } calls := by
  have hfresh : Consistent { id, position, payload, metadata } :=
    ⟨⟨nofun, nofun⟩, ⟨nofun, nofun⟩, ⟨nofun, nofun⟩, ⟨nofun, nofun⟩, nofun⟩
  have hafter := consistent_after hfresh calls
  exact {
    result := hafter.result
    failure := hafter.failure
    skipReason := hafter.skipReason
    finished := hafter.finished
    started := started_after hfresh rfl calls
    origin := origin_after _ calls
    call := callLaws _
    restored := fun hpending status location now => by
      have hopen : (after { id, position, payload, metadata } calls).isTerminal = false := by
        rw [isTerminal, hpending]
        rfl
      exact restoreLaws (hafter.unfinished hopen).2.2.1 status location now }

end Item
end BatchRun
