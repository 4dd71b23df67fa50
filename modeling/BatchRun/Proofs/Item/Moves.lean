import BatchRun.Item.Basic

/-!
# Moves of items

What a move changes of an item, and what it leaves.

**Types.**
The `origin` of an item is what its source says of it.

**Results.**
* `moved_eq`: a move changes the status and the times.
* `map_moveTo_eq_ok`: a move that is made was allowed.
* `moveTo_of_canMoveTo`: a move that is allowed is made, and so are those of the operations.
-/

namespace BatchRun
namespace Item

open Time

/-- What the source of an item says of it. -/
def origin (item : Item) : String × Nat × Json × Metadata :=
  (item.id, item.position, item.payload, item.metadata)

variable {item after : Item} {now : Timestamp}

theorem id_of_origin
    {other : Item}
    (h : item.origin = other.origin) :
    item.id = other.id :=
  congrArg Prod.fst h

theorem moved_eq
    (item : Item)
    (target : Status)
    (now : Timestamp) :
    ∃ started finished duration,
      item.moved target now =
        { item with
          status := target
          startedAt := started
          finishedAt := finished
          durationMillis := duration } := by
  unfold moved
  split
  case isTrue h =>
      exact ⟨_, _, _, by rw [h]⟩
  case isFalse =>
      split
      case isTrue => exact ⟨_, _, _, rfl⟩
      case isFalse => exact ⟨_, _, _, rfl⟩

@[simp] theorem status_moved
    (target : Status) :
    (item.moved target now).status = target := by
  obtain ⟨_, _, _, hmoved⟩ := moved_eq item target now
  rw [hmoved]

@[simp] theorem id_moved
    (target : Status) :
    (item.moved target now).id = item.id := by
  obtain ⟨_, _, _, hmoved⟩ := moved_eq item target now
  rw [hmoved]

@[simp] theorem attempts_moved
    (target : Status) :
    (item.moved target now).attempts = item.attempts := by
  obtain ⟨_, _, _, hmoved⟩ := moved_eq item target now
  rw [hmoved]

@[simp] theorem origin_moved
    (target : Status) :
    (item.moved target now).origin = item.origin := by
  obtain ⟨_, _, _, hmoved⟩ := moved_eq item target now
  rw [hmoved]
  rfl

@[simp] theorem result_moved
    (target : Status) :
    (item.moved target now).result = item.result := by
  obtain ⟨_, _, _, hmoved⟩ := moved_eq item target now
  rw [hmoved]

@[simp] theorem failure_moved
    (target : Status) :
    (item.moved target now).failure = item.failure := by
  obtain ⟨_, _, _, hmoved⟩ := moved_eq item target now
  rw [hmoved]

theorem moveTo_eq_ok
    {target : Status}
    (h : item.moveTo target now = .ok after) :
    item.status.canMoveTo target = true ∧ after = item.moved target now := by
  unfold moveTo at h
  split at h
  case isTrue hmove =>
      cases h
      exact ⟨hmove, rfl⟩
  case isFalse =>
      cases h

theorem map_moveTo_eq_ok
    {target : Status} {f : Item → Item}
    (h : (item.moveTo target now).map f = .ok after) :
    item.status.canMoveTo target = true ∧ after = f (item.moved target now) := by
  cases hmove : item.moveTo target now with
  | error move =>
      rw [hmove] at h
      cases h
  | ok next =>
      rw [hmove] at h
      cases h
      obtain ⟨hallowed, rfl⟩ := moveTo_eq_ok hmove
      exact ⟨hallowed, rfl⟩

theorem start_eq_ok
    (h : item.start now = .ok after) :
    ∃ started finished duration,
      after =
        { item with
          status := .processing
          startedAt := started
          finishedAt := finished
          durationMillis := duration } := by
  obtain ⟨started, finished, duration, heq⟩ := moved_eq item .processing now
  exact ⟨started, finished, duration, heq ▸ (moveTo_eq_ok h).2⟩

theorem moveTo_of_canMoveTo
    {target : Status}
    (h : item.status.canMoveTo target = true) :
    item.moveTo target now = .ok (item.moved target now) :=
  if_pos h

theorem start_of_canMoveTo
    (h : item.status.canMoveTo .processing = true) :
    item.start now = .ok (item.moved .processing now) :=
  moveTo_of_canMoveTo h

theorem skip_of_canMoveTo
    (reason : SkipReason)
    (h : item.status.canMoveTo .skipped = true) :
    item.skip reason now = .ok { item.moved .skipped now with skipReason := some reason } := by
  rw [skip, moveTo_of_canMoveTo h]
  rfl

theorem fail_of_canMoveTo
    (failure : ItemFailure)
    (h : item.status.canMoveTo .failed = true) :
    item.fail failure now = .ok { item.moved .failed now with failure := some failure } := by
  rw [fail, moveTo_of_canMoveTo h]
  rfl

theorem succeed_of_canMoveTo
    (result : Json)
    (h : item.status.canMoveTo .success = true) :
    item.succeed result now = .ok { item.moved .success now with result := some result } := by
  rw [succeed, moveTo_of_canMoveTo h]
  rfl

end Item
end BatchRun
