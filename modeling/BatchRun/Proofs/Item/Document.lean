import BatchRun.Item.Reader
import BatchRun.Proofs.Item.Lifecycle
import BatchRun.Proofs.Json.Exact
import BatchRun.Proofs.Time.Reading

/-!
# Documents of items that are read back

**Types.**
An item is `Reached` if it is made of a new one by annotations, calls and restored statuses.  It is
`Readable` if its JSON values are exact and not too deep.

**Results.**
* `accepts_status`, `accepts_timestamp`, `accepts_failure`, `accepts_skipReason`: the parts.
* `fitting_of_reached`: numbers and times of an item that is reached are in range.
* `accepts_document`: the document of a fitting item is read as the item, without a result that is
  `null`.
* `parse?_document_of_reached`: the text of an item is read as the item exactly if the item has no
  such result, which is written like any other one but is read as none.
-/

namespace BatchRun

open Json
open Text
open Time

/-- A value that is kept, if it has no more than some levels. -/
structure Json.ExactWithin (levels : Nat) (value : Json) : Prop where
  kept : Exact value
  depth_le : value.depth ≤ levels

theorem Json.ExactWithin.accepts
    {levels depth : Nat} {doc : Json}
    (h : doc.ExactWithin levels)
    (levels_le : levels ≤ depth) :
    Accepts (value depth) doc doc :=
  accepts_value h.kept (Nat.le_trans h.depth_le levels_le)

/-- What is read of a value where nothing may stand as well: `null` is nothing. -/
def Json.present? : Json → Option Json
  | .null => none
  | value => some value

theorem Json.present?_of_ne
    {value : Json}
    (h : value ≠ .null) :
    value.present? = some value := by
  cases value with
  | null => exact absurd rfl h
  | bool _ | number _ | string _ | array _ | object _ => rfl

section Parts

theorem accepts_status
    (depth : Nat)
    (status : Status) :
    Accepts (Status.reader depth) (.string status.name) status :=
  accepts_unitCase (by cases status <;> rfl)

theorem accepts_timestamp
    {t : Timestamp}
    (h : t.Civil) :
    Accepts Timestamp.reader t.document t :=
  accepts_textWith (by rw [Timestamp.parse?_text h])

theorem accepts_failure
    (depth : Nat)
    (failure : ItemFailure) :
    Accepts (ItemFailure.reader (depth + 1)) failure.document failure := by
  obtain ⟨kind, message⟩ := failure
  have hkind : Accepts (FailureKind.reader depth) (.string kind.name) kind :=
    accepts_unitCase (by cases kind <;> rfl)
  have hfirst : Takes (ItemFailure.member depth) ("kind", .string kind.name) {}
      { kind := some kind } :=
    takes_of_fill rfl hkind rfl rfl
  have hlast : Takes (ItemFailure.member depth) ("message", .string message) { kind := some kind }
      { kind := some kind, message := some message } :=
    takes_of_fill rfl (accepts_text message) rfl rfl
  exact accepts_record rfl (.further hfirst (.further hlast (.none _))) fun rest => rfl

namespace SkipReason

/-- The case of a reason. -/
def tag : SkipReason → Tag
  | duplicate _ => .duplicate
  | aborted => .aborted
  | cancelled => .cancelled
  | resumed => .resumed

/-- The fields of a reason besides the one that tells its case. -/
def others : SkipReason → List (String × Json)
  | duplicate firstId => [("first_id", .string firstId)]
  | _ => []

variable {depth : Nat}

theorem takes_tag
    {name : String} {tag : Tag}
    (h : Keyed.find? tags name = some tag) :
    Takes (member depth) ("reason", .string name) {} { tag := some tag } := by
  have hvariant : Accepts (Reader.variant tags) (.string name) tag :=
    accepts_textWith (by rw [h])
  exact takes_of_fill rfl hvariant rfl rfl

theorem takes_firstId
    (firstId : String) :
    Takes (member depth) ("first_id", .string firstId) { tag := some .duplicate }
      { tag := some .duplicate, others := [("first_id", .string firstId)] } := by
  have hvalue : Accepts (value depth) (.string firstId) (.string firstId) :=
    accepts_value (.string firstId) (Nat.zero_le _)
  intro spacing level rest hrest
  refine (bind_of_ok (colon_cons _)).trans ?_
  exact bind_of_ok (hvalue spacing level _ rest (allSpace_gap spacing) hrest)

/-- The tag of a reason and its other fields are kept until the object has ended. -/
theorem takesAll_document
    (depth : Nat)
    (reason : SkipReason) :
    ∃ fields, reason.document = .object fields ∧
      TakesAll (member depth) fields {}
        { tag := some reason.tag, others := reason.others.reverse } := by
  cases reason with
  | duplicate firstId =>
      exact ⟨_, rfl, .further (takes_tag rfl) (.further (takes_firstId firstId) (.none _))⟩
  | aborted => exact ⟨_, rfl, .further (takes_tag rfl) (.none _)⟩
  | cancelled => exact ⟨_, rfl, .further (takes_tag rfl) (.none _)⟩
  | resumed => exact ⟨_, rfl, .further (takes_tag rfl) (.none _)⟩

theorem ofFields_others
    (reason : SkipReason)
    (rest : Bytes) :
    ofFields reason.tag reason.others rest = .ok (reason, rest) := by
  cases reason <;> rfl

end SkipReason

theorem accepts_skipReason
    (depth : Nat)
    (reason : SkipReason) :
    Accepts (SkipReason.reader (depth + 1)) reason.document reason := by
  intro spacing level space rest hspace _
  obtain ⟨fields, hfields, htakes⟩ := SkipReason.takesAll_document depth reason
  obtain ⟨bytes, htext, hread⟩ := members_object spacing level htakes
  have hfinish := SkipReason.ofFields_others reason rest
  rw [← List.reverse_reverse reason.others] at hfinish
  unfold SkipReason.reader
  rw [hfields, htext, List.cons_append]
  refine (atValue_append _ hspace rfl).trans ?_
  simp only [List.head?_cons, if_true]
  rw [enclosed_of_ok (bind_of_ok (hread rest)) (closeObject_brace rest)]
  exact hfinish

end Parts

namespace Item

section Fields

variable {fields : Fields} {depth : Nat}

theorem takes_id
    (id : String)
    (empty : fields.id = none) :
    Takes (member depth) ("id", .string id) fields { fields with id := some id } :=
  takes_of_fill empty (accepts_text id) rfl rfl

theorem takes_position
    {position : Nat}
    (h : position < 2 ^ 64)
    (empty : fields.position = none) :
    Takes (member depth) ("position", .nat position) fields
      { fields with position := some position } :=
  takes_of_fill empty (accepts_word h (Nat.le_pred_of_lt h)) rfl rfl

theorem takes_payload
    {payload : Json}
    (h : Accepts (value depth) payload payload)
    (empty : fields.payload = none) :
    Takes (member depth) ("payload", payload) fields { fields with payload := some payload } :=
  takes_of_fill empty h rfl rfl

theorem takesAll_metadata
    {metadata : Metadata}
    (ascending : Keyed.Ascending (metadata.map Prod.fst))
    (h : ∀ pair ∈ metadata, Accepts (value depth) pair.2 pair.2)
    (empty : fields.metadata = none) :
    TakesAll (member (depth + 1))
      (if metadata.isEmpty then [] else [("metadata", .object metadata)]) fields
      { fields with metadata := if metadata.isEmpty then none else some metadata } := by
  cases metadata with
  | nil =>
      have hsame : { fields with metadata := none } = fields := by rw [← empty]
      refine hsame.symm ▸ .none fields
  | cons pair pairs =>
      have hmap : Accepts (metadataReader (depth + 1)) (.object (pair :: pairs)) (pair :: pairs) :=
        accepts_map_value ascending h
      exact takesAll_singleton (takes_of_fill empty hmap rfl rfl)

theorem takes_status
    (status : Status)
    (empty : fields.status = none) :
    Takes (member depth) ("status", .string status.name) fields
      { fields with status := some status } :=
  takes_of_fill empty (accepts_status depth status) rfl rfl

theorem takes_attempts
    {attempts : Nat}
    (h : attempts < 2 ^ 32)
    (empty : fields.attempts = none) :
    Takes (member depth) ("attempts", .nat attempts) fields
      { fields with attempts := some attempts } :=
  takes_of_fill empty (accepts_word h (Nat.le_of_lt (Nat.lt_of_lt_of_le h (by decide)))) rfl rfl

theorem takesAll_result
    {result? : Option Json}
    (h : ∀ result, result? = some result → Exact result ∧ result.depth ≤ depth)
    (empty : fields.result = none) :
    TakesAll (member depth) (optionalField "result" result?) fields
      { fields with result := result?.map present? } := by
  cases result? with
  | none =>
      have hsame : { fields with result := none } = fields := by rw [← empty]
      rw [Option.map_none, hsame]
      exact .none _
  | some result =>
      obtain ⟨kept, allowed⟩ := h result rfl
      refine takesAll_singleton ?_
      by_cases hnull : result = .null
      · rw [hnull]
        exact takes_of_fill empty accepts_optional_null rfl rfl
      · rw [Option.map_some, present?_of_ne hnull]
        have hoptional := accepts_optional (accepts_value kept allowed) kept.not_real hnull
        exact takes_of_fill empty hoptional rfl rfl

theorem takesAll_failure
    (failure? : Option ItemFailure)
    (empty : fields.failure = none) :
    TakesAll (member (depth + 1)) (optionalField "error" (failure?.map ItemFailure.document)) fields
      { fields with failure := failure?.map some } := by
  refine takesAll_optionalField (fun failure => { fields with failure }) (by rw [← empty])
    fun failure _ => ?_
  have hoptional := accepts_optional (accepts_failure depth failure) nofun nofun
  exact takes_of_fill empty hoptional rfl rfl

theorem takesAll_skipReason
    (reason? : Option SkipReason)
    (empty : fields.skipReason = none) :
    TakesAll (member (depth + 1))
      (optionalField "skip_reason" (reason?.map SkipReason.document)) fields
      { fields with skipReason := reason?.map some } := by
  refine takesAll_optionalField (fun skipReason => { fields with skipReason }) (by rw [← empty])
    fun reason _ => ?_
  have hoptional := accepts_optional (accepts_skipReason depth reason)
    (by cases reason <;> nofun) (by cases reason <;> nofun)
  exact takes_of_fill empty hoptional rfl rfl

theorem takesAll_location
    (location? : Option String)
    (empty : fields.location = none) :
    TakesAll (member depth) (optionalField "result_location" (location?.map Json.string)) fields
      { fields with location := location?.map some } := by
  refine takesAll_optionalField (fun location => { fields with location }) (by rw [← empty])
    fun location _ => ?_
  have hoptional := accepts_optional (accepts_text location) nofun nofun
  exact takes_of_fill empty hoptional rfl rfl

theorem takesAll_resumed
    (resumed : Bool)
    (empty : fields.resumed = none) :
    TakesAll (member depth) (if resumed then [("resumed", .bool true)] else []) fields
      { fields with resumed := if resumed then some true else none } := by
  cases resumed with
  | false =>
      have hsame : { fields with resumed := none } = fields := by rw [← empty]
      refine hsame.symm ▸ .none fields
  | true => exact takesAll_singleton (takes_of_fill empty accepts_true rfl rfl)

theorem accepts_optional_timestamp
    {t : Timestamp}
    (h : t.Civil) :
    Accepts (Reader.optional Timestamp.reader) t.document (some t) :=
  accepts_optional (accepts_timestamp h) nofun nofun

theorem takesAll_startedAt
    {started? : Option Timestamp}
    (h : ∀ t, started? = some t → t.Civil)
    (empty : fields.startedAt = none) :
    TakesAll (member depth) (optionalField "started_at" (started?.map Timestamp.document)) fields
      { fields with startedAt := started?.map some } :=
  takesAll_optionalField (fun startedAt => { fields with startedAt }) (by rw [← empty])
    fun t ht => takes_of_fill empty (accepts_optional_timestamp (h t ht)) rfl rfl

theorem takesAll_finishedAt
    {finished? : Option Timestamp}
    (h : ∀ t, finished? = some t → t.Civil)
    (empty : fields.finishedAt = none) :
    TakesAll (member depth) (optionalField "finished_at" (finished?.map Timestamp.document)) fields
      { fields with finishedAt := finished?.map some } :=
  takesAll_optionalField (fun finishedAt => { fields with finishedAt }) (by rw [← empty])
    fun t ht => takes_of_fill empty (accepts_optional_timestamp (h t ht)) rfl rfl

theorem takes_durationMillis
    {durationMillis : Nat}
    (h : durationMillis < 2 ^ 64)
    (empty : fields.durationMillis = none) :
    Takes (member depth) ("duration_ms", .nat durationMillis) fields
      { fields with durationMillis := some durationMillis } :=
  takes_of_fill empty (accepts_word h (Nat.le_pred_of_lt h)) rfl rfl

end Fields

/-- An item whose values are kept by their texts, if they have no more than some levels. -/
structure ExactWithin (levels : Nat) (item : Item) : Prop where
  payload : item.payload.ExactWithin levels
  metadata : ∀ pair ∈ item.metadata, pair.2.ExactWithin levels
  result : ∀ result, item.result = some result → result.ExactWithin levels

/-- An item whose numbers fit and whose times are of the calendar. -/
structure Fitting (item : Item) : Prop where
  position : item.position < 2 ^ 64
  metadata : Keyed.Ascending (item.metadata.map Prod.fst)
  attempts : item.attempts < 2 ^ 32
  startedAt : ∀ t, item.startedAt = some t → t.Civil
  finishedAt : ∀ t, item.finishedAt = some t → t.Civil
  durationMillis : item.durationMillis < 2 ^ 64

section Fitting

variable {item : Item} {now : Timestamp}

theorem fitting_moved
    (h : item.Fitting)
    (target : Status)
    (civil : now.Civil) :
    (item.moved target now).Fitting := by
  have hnow : ∀ t, some now = some t → t.Civil := fun t ht => Option.some.inj ht ▸ civil
  unfold moved
  split
  case isTrue => exact { h with startedAt := hnow }
  case isFalse =>
      split
      case isTrue =>
          refine { h with finishedAt := hnow, durationMillis := ?_ }
          cases hstart : item.startedAt with
          | none => exact Nat.two_pow_pos 64
          | some start => exact Timestamp.millisSince_lt civil (h.startedAt start hstart)
      case isFalse => exact { h with }

theorem fitting_fill
    (h : item.Fitting)
    {call : Call}
    (counted : (call.fill item).attempts < 2 ^ 32) :
    (call.fill item).Fitting := by
  cases call with
  | start => exact h
  | beginAttempt => exact { h with attempts := counted }
  | succeed _ | fail _ | skip _ => exact { h with }

/-- A call keeps an item fitting, as long as its attempts can be counted. -/
theorem fitting_performed
    (h : item.Fitting)
    {call : Call}
    (civil : now.Civil)
    (counted : (call.performed now item).2.attempts < 2 ^ 32) :
    (call.performed now item).2.Fitting := by
  obtain ⟨rfl, hp⟩ | ⟨target, -, -, hp⟩ | ⟨target, -, -, hp⟩ := performed_cases call now item
  · rw [hp] at counted ⊢
    exact { h with attempts := counted }
  · rw [hp] at counted ⊢
    exact fitting_fill (fitting_moved h target civil) counted
  · rw [hp]
    exact h

theorem fitting_restore
    (h : item.Fitting)
    (status : Status)
    (location : Option String)
    (civil : now.Civil) :
    (item.restore status location now).Fitting :=
  { h with finishedAt := fun _ ht => Option.some.inj ht ▸ civil }

end Fitting

/-- An item that is made of a new one. -/
inductive Reached : Item → Prop
  | created
      (id : String)
      {position : Nat}
      (payload : Json)
      (fits : position < 2 ^ 64) :
      Reached { id, position, payload }
  | annotated
      {item : Item}
      {metadata : Metadata}
      (reached : Reached item)
      (ascending : Keyed.Ascending (metadata.map Prod.fst)) :
      Reached { item with metadata }
  | called
      {item : Item}
      {call : Call}
      {now : Timestamp}
      (reached : Reached item)
      (civil : now.Civil)
      (counted : (call.performed now item).2.attempts < 2 ^ 32) :
      Reached (call.performed now item).2
  | restored
      {item : Item}
      {now : Timestamp}
      (reached : Reached item)
      (status : Status)
      (location : Option String)
      (civil : now.Civil) :
      Reached (item.restore status location now)

/-- Numbers and times of an item that is reached are in range. -/
theorem fitting_of_reached
    {item : Item}
    (h : item.Reached) :
    item.Fitting := by
  induction h with
  | created id payload fits =>
      exact ⟨fits, List.Pairwise.nil, Nat.two_pow_pos 32, nofun, nofun, Nat.two_pow_pos 64⟩
  | annotated _ ascending ih => exact { ih with metadata := ascending }
  | called _ civil counted ih => exact fitting_performed ih civil counted
  | restored _ status location civil ih => exact fitting_restore ih status location civil

theorem join_map
    {α β : Type}
    (f : α → Option β)
    (x : Option α) :
    (x.map f).join = x.bind f := by
  cases x with
  | none => rfl
  | some _ => rfl

/-- Fields that are left out are read as what they were left out for. -/
theorem ofFields_document
    (item : Item)
    (rest : Bytes) :
    ofFields
        { id := some item.id
          position := some item.position
          payload := some item.payload
          metadata := if item.metadata.isEmpty then none else some item.metadata
          status := some item.status
          attempts := some item.attempts
          result := item.result.map present?
          failure := item.failure.map some
          skipReason := item.skipReason.map some
          location := item.location.map some
          resumed := if item.resumed then some true else none
          startedAt := item.startedAt.map some
          finishedAt := item.finishedAt.map some
          durationMillis := some item.durationMillis } rest =
      .ok ({ item with result := item.result.bind present? }, rest) := by
  have hmetadata :
      (if item.metadata.isEmpty then none else some item.metadata).getD [] = item.metadata := by
    cases item.metadata <;> rfl
  have hresumed : (if item.resumed then some true else none).getD false = item.resumed := by
    cases item.resumed <;> rfl
  unfold ofFields
  simp only [hmetadata, hresumed, join_map, Option.bind_fun_some]
  rfl

/-- The document of a fitting item is read as the item, without a result that is `null`. -/
theorem accepts_document
    {item : Item} {levels depth : Nat}
    (h : item.Fitting)
    (plain : item.ExactWithin levels)
    (levels_le : levels ≤ depth) :
    Accepts (reader (depth + 3)) item.document
      { item with result := item.result.bind present? } := by
  have hpayload : Accepts (value (depth + 2)) item.payload item.payload :=
    plain.payload.accepts (Nat.le_add_right_of_le levels_le)
  have hmetadata : ∀ pair ∈ item.metadata, Accepts (value (depth + 1)) pair.2 pair.2 :=
    fun pair hpair => (plain.metadata pair hpair).accepts (Nat.le_add_right_of_le levels_le)
  have hresult : ∀ result, item.result = some result → Exact result ∧ result.depth ≤ depth + 2 :=
    fun result heq =>
      have hwithin := plain.result result heq
      ⟨hwithin.kept, Nat.le_trans hwithin.depth_le (Nat.le_add_right_of_le levels_le)⟩
  -- the fields in their order, each group behind the ones in front of it
  have horigin : TakesAll (member (depth + 2))
      [("id", .string item.id), ("position", .nat item.position), ("payload", item.payload)] {} _ :=
    .further (takes_id item.id rfl) (.further (takes_position h.position rfl)
      (.further (takes_payload hpayload rfl) (.none _)))
  have hannotated := takesAll_append horigin (takesAll_metadata h.metadata hmetadata rfl)
  have hcounted := takesAll_append hannotated (.further (takes_status item.status rfl)
    (takesAll_singleton (takes_attempts h.attempts rfl)))
  have hended := takesAll_append (takesAll_append hcounted (takesAll_result hresult rfl))
    (takesAll_failure item.failure rfl)
  have hskipped := takesAll_append
    (takesAll_append hended (takesAll_skipReason item.skipReason rfl))
    (takesAll_location item.location rfl)
  have hresumed := takesAll_append hskipped (takesAll_resumed item.resumed rfl)
  have htimed := takesAll_append (takesAll_append hresumed (takesAll_startedAt h.startedAt rfl))
    (takesAll_finishedAt h.finishedAt rfl)
  have hall := takesAll_append htimed
    (takesAll_singleton (takes_durationMillis h.durationMillis rfl))
  exact accepts_record rfl hall (ofFields_document item)

/-- An item has no result that is `null` exactly if its result is read as it is. -/
theorem bind_present?_eq_iff
    (item : Item) :
    { item with result := item.result.bind present? } = item ↔ item.result ≠ some .null := by
  constructor
  case mp =>
      intro h hnull
      have hresult : item.result.bind present? = item.result := congrArg Item.result h
      rw [hnull] at hresult
      cases hresult
  case mpr =>
      intro h
      have hresult : item.result.bind present? = item.result := by
        cases hresult : item.result with
        | none => rfl
        | some result => exact present?_of_ne fun heq => h (by rw [hresult, heq])
      rw [hresult]

/-- The text of an item that is reached is read as the item, only that a result which is `null` is
lost: it is written like any other one, but it is read as none. -/
theorem parse?_document_of_reached
    {item : Item}
    (reached : item.Reached)
    (plain : item.ExactWithin 100) :
    parse? (bytesOf item.document.compact) =
        .ok { item with result := item.result.bind present? } ∧
      (parse? (bytesOf item.document.compact) = .ok item ↔ item.result ≠ some .null) := by
  have haccepts := accepts_document (fitting_of_reached reached) plain (by decide : 100 ≤ 124)
  have hread := whole_of_accepts haccepts .compact 0
  rw [chars_compact] at hread
  have hparse : parse? (bytesOf item.document.compact) =
      .ok { item with result := item.result.bind present? } := by
    rw [compact, bytesOf_ofList]
    exact hread
  refine ⟨hparse, ?_⟩
  rw [hparse, Except.ok.injEq]
  exact bind_present?_eq_iff item

/-- An item that was answered with `null` within twelve milliseconds. -/
def answeredWithNull : Item :=
  after { id := "1", position := 0, payload := .string "q1" }
    [(.start, ⟨0, 0⟩), (.beginAttempt, ⟨0, 0⟩), (.succeed .null, ⟨0, 12000000⟩)]

theorem reached_answeredWithNull : answeredWithNull.Reached := by
  have hbegun : Timestamp.Civil ⟨0, 0⟩ := ⟨by decide, .inl (by decide)⟩
  have hended : Timestamp.Civil ⟨0, 12000000⟩ := ⟨by decide, .inl (by decide)⟩
  have hcreated := Reached.created "1" (.string "q1") (Nat.two_pow_pos 64)
  have hstarted := hcreated.called hbegun
    (by decide : (Call.performed .start ⟨0, 0⟩ _).2.attempts < 2 ^ 32)
  have hattempted := hstarted.called hbegun
    (by decide : (Call.performed .beginAttempt ⟨0, 0⟩ _).2.attempts < 2 ^ 32)
  exact hattempted.called hended (by decide)

/-- The item that was answered with `null` is read as one without a result. -/
theorem parse?_document_of_answeredWithNull :
    answeredWithNull.Reached ∧ answeredWithNull.ExactWithin 100 ∧
      parse? (bytesOf answeredWithNull.document.compact) =
        .ok { answeredWithNull with result := none } ∧
      parse? (bytesOf answeredWithNull.document.compact) ≠ .ok answeredWithNull := by
  have hwithin : answeredWithNull.ExactWithin 100 :=
    { payload := ⟨.string "q1", by decide⟩
      metadata := nofun
      result := fun _ h => Option.some.inj h ▸ ⟨.null, by decide⟩ }
  have hread := parse?_document_of_reached reached_answeredWithNull hwithin
  exact ⟨reached_answeredWithNull, hwithin, hread.1, fun h => hread.2.mp h rfl⟩

end Item

end BatchRun
