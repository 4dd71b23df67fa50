import BatchRun.Job.Clock
import BatchRun.Job.Retry
import BatchRun.Proofs.Item.Moves
import BatchRun.Run.Event
import Mathlib.Data.List.Infix

/-!
# Courses of items

What happens for an item from its first request for a token on: tokens, calls, samples, pauses.

**Types.**
A `Course` is a list of events with their ticks that ends at a `Point`.  Each rule adds what can
follow next, so that the order of a course is that of its rules.

**Conduct.**
`Conduct` says of such a list what its order comes to: the attempts are counted from one on, each
has a token of its own, another one follows only after a failure that may pass, and not before its
pause is over, and each attempt that was not cut short has one sample.

**Results.**
* `Conduct.quiet`, `Conduct.call`, `Conduct.sample`: what one more event takes.
* `conduct_of_course`: every course of a new item is conducted so.
-/

namespace BatchRun

theorem tickAfter_zero
    (now : Nat) :
    tickAfter now 0 = now :=
  rfl

/-- A wait ends when all of its nanoseconds are over, or thirty years. -/
theorem le_tickAfter_mul
    (now nanos : Nat) :
    now * nanosPerTick + min nanos (farFuture * nanosPerTick) ≤
      tickAfter now nanos * nanosPerTick := by
  have hceil : nanos ≤ (nanos + (nanosPerTick - 1)) / nanosPerTick * nanosPerTick := by
    have hdiv := Nat.div_add_mod (nanos + (nanosPerTick - 1)) nanosPerTick
    have hmod := Nat.mod_lt (nanos + (nanosPerTick - 1)) (show 0 < nanosPerTick by decide)
    rw [Nat.mul_comm] at hdiv
    omega
  rw [tickAfter, Nat.add_mul, ← Nat.mul_min_mul_right]
  exact Nat.add_le_add_left (Nat.le_min.mpr
    ⟨Nat.le_trans (Nat.min_le_left _ _) hceil, Nat.min_le_right _ _⟩) _

namespace Run

/-- Where the item of a course stands. -/
inductive Point where
  /-- It has asked for its first token, which is its own at a tick. -/
  | asked (due : Nat)
  | calling (since : Nat)
  | ended (tick : Nat) (outcome : Except AttemptFailure Json)
  /-- Another attempt was announced, after a pause up to a tick. -/
  | pausing (due : Nat)
  /-- It has asked for a token for another attempt. -/
  | reasked (due : Nat)

/-- What happens for an item that came with an input, up to a number of attempts. -/
inductive Course (retry : RetryPolicy) (input : Item) : Nat → Point → List (Nat × Event) → Prop
  | asks {item : Item} {tick due : Nat} (own : item.origin = input.origin)
      (fresh : item.attempts = input.attempts) (wait : tick ≤ due) :
      Course retry input item.attempts (.asked due) [(tick, .reserved item due)]
  | starts {attempts due tick limit : Nat} {begun item : Item} {course : List (Nat × Event)}
      (earlier : Course retry input attempts (.asked due) course) (come : due ≤ tick)
      (begins : begun.origin = input.origin) (own : item.origin = input.origin)
      (next : item.attempts = attempts + 1) :
      Course retry input item.attempts (.calling tick)
        (course ++ [(tick, .started begun), (tick, .called item limit)])
  | ends {since tick : Nat} {item : Item} {outcome : Except AttemptFailure Json}
      {course : List (Nat × Event)}
      (earlier : Course retry input item.attempts (.calling since) course) (order : since ≤ tick)
      (own : item.origin = input.origin) :
      Course retry input item.attempts (.ended tick outcome)
        (course ++ [(tick, .sampled item outcome (tick - since))])
  | retries {tick : Nat} {item : Item} {failure : AttemptFailure} {course : List (Nat × Event)}
      (earlier : Course retry input item.attempts (.ended tick (.error failure)) course)
      (again : failure.isRetryable = true) (more : item.attempts < retry.maxAttempts)
      (own : item.origin = input.origin) :
      Course retry input item.attempts
        (.pausing (tickAfter tick (retry.pauseAfter item.attempts failure.retryAfter)))
        (course ++
          [(tick, .retrying item failure (retry.pauseAfter item.attempts failure.retryAfter))])
  | reasks {due tick next : Nat} {item : Item} {course : List (Nat × Event)}
      (earlier : Course retry input item.attempts (.pausing due) course) (come : due ≤ tick)
      (own : item.origin = input.origin) (wait : tick ≤ next) :
      Course retry input item.attempts (.reasked next) (course ++ [(tick, .reserved item next)])
  | recalls {attempts due tick limit : Nat} {item : Item} {course : List (Nat × Event)}
      (earlier : Course retry input attempts (.reasked due) course) (come : due ≤ tick)
      (own : item.origin = input.origin) (next : item.attempts = attempts + 1) :
      Course retry input item.attempts (.calling tick) (course ++ [(tick, .called item limit)])

namespace Event

/-- The item for which an attempt is prepared, made or judged. -/
def worked? : Event → Option Item
  | reserved item _ => some item
  | started item => some item
  | called item _ => some item
  | sampled item _ _ => some item
  | retrying item _ _ => some item
  | interrupted item => some item
  | _ => none

/-- Whether an item is started. -/
def isStart : Event → Bool
  | started _ => true
  | _ => false

/-- Number of the attempt that begins. -/
def call? : Event → Option Nat
  | called item _ => some item.attempts
  | _ => none

/-- Number of the attempt whose sample is recorded. -/
def sample? : Event → Option Nat
  | sampled item _ _ => some item.attempts
  | _ => none

/-- Outcome of the last attempt after an event, if it has ended. -/
def outcome? (before : Option (Except AttemptFailure Json)) : Event →
    Option (Except AttemptFailure Json)
  | called _ _ => none
  | sampled _ outcome _ => some outcome
  | _ => before

end Event

/-- Numbers of the attempts that begin. -/
def callNumbers (course : List (Nat × Event)) : List Nat :=
  course.filterMap fun entry => entry.2.call?

/-- Numbers of the attempts that have a sample. -/
def sampleNumbers (course : List (Nat × Event)) : List Nat :=
  course.filterMap fun entry => entry.2.sample?

/-- Outcome of the last attempt, if it has ended. -/
def lastOutcome (course : List (Nat × Event)) : Option (Except AttemptFailure Json) :=
  course.foldl (fun before entry => entry.2.outcome? before) none

/-- In what comes before an attempt, a token was asked for that is its own by then. -/
def Acquired (before : List (Nat × Event)) (tick : Nat) : Prop :=
  ∃ earlier asked item due between,
    before = earlier ++ (asked, .reserved item due) :: between ∧ callNumbers between = [] ∧
      asked ≤ due ∧ due ≤ tick

/-- What comes before an attempt is another one that failed, may be repeated, and has been followed
by its pause, which takes thirty years at most; the pause is over to the nanosecond. -/
def Repeated (retry : RetryPolicy) (before : List (Nat × Event)) (tick attempts : Nat) : Prop :=
  ∃ earlier ended failed failure latency between,
    before = earlier ++ (ended, .sampled failed (.error failure) latency) :: between ∧
      callNumbers between = [] ∧ failed.attempts + 1 = attempts ∧ failure.isRetryable = true ∧
      failed.attempts < retry.maxAttempts ∧
      ended * nanosPerTick
          + min (retry.pauseAfter failed.attempts failure.retryAfter) (farFuture * nanosPerTick) ≤
        tick * nanosPerTick

/-- An attempt is the last that happened, and it has taken a number of ticks. -/
def Measured (before : List (Nat × Event)) (tick attempts latency : Nat) : Prop :=
  ∃ earlier began item limit,
    before = earlier ++ [(began, .called item limit)] ∧ item.attempts = attempts ∧
      began + latency = tick

/-- How the attempts for a new item are made. -/
structure Conduct (retry : RetryPolicy) (attempts : Nat) (course : List (Nat × Event)) :
    Prop where
  within : attempts ≤ retry.maxAttempts
  calls : callNumbers course = List.range' 1 attempts
  /-- Only the last attempt can be without a sample. -/
  samples : sampleNumbers course =
    List.range' 1 (if (lastOutcome course).isSome then attempts else attempts - 1)
  acquired : ∀ before tick item limit, before ++ [(tick, .called item limit)] <+: course →
    Acquired before tick
  repeated : ∀ before tick item limit, before ++ [(tick, .called item limit)] <+: course →
    item.attempts ≠ 1 → Repeated retry before tick item.attempts
  /-- A sample is that of the attempt right before it. -/
  sampled : ∀ before tick item outcome latency,
    before ++ [(tick, .sampled item outcome latency)] <+: course →
    Measured before tick item.attempts latency

section Steps

variable {retry : RetryPolicy} {attempts : Nat} {course before : List (Nat × Event)}
  {entry last : Nat × Event}

theorem callNumbers_concat :
    callNumbers (course ++ [entry]) = callNumbers course ++ entry.2.call?.toList := by
  unfold callNumbers
  rw [List.filterMap_append]
  cases h : entry.2.call? <;> simp [h]

theorem sampleNumbers_concat :
    sampleNumbers (course ++ [entry]) = sampleNumbers course ++ entry.2.sample?.toList := by
  unfold sampleNumbers
  rw [List.filterMap_append]
  cases h : entry.2.sample? <;> simp [h]

theorem lastOutcome_concat :
    lastOutcome (course ++ [entry]) = entry.2.outcome? (lastOutcome course) := by
  simp [lastOutcome]

/-- What comes up to an event was there before, or the event is the new one. -/
theorem prefix_concat_cases
    (h : before ++ [entry] <+: course ++ [last]) :
    (before = course ∧ entry = last) ∨ before ++ [entry] <+: course := by
  rcases List.prefix_concat_iff.mp h with hwhole | hold
  · exact .inl (List.append_inj' hwhole rfl |>.imp id fun h => (List.cons.inj h).1)
  · exact .inr hold

theorem conduct_nil : Conduct retry 0 [] where
  within := Nat.zero_le _
  calls := rfl
  samples := rfl
  acquired _ _ _ _ h := by simp at h
  repeated _ _ _ _ h := by simp at h
  sampled _ _ _ _ _ h := by simp at h

theorem outcome?_of_quiet
    {event : Event}
    (call : event.call? = none)
    (sample : event.sample? = none)
    (outcome : Option (Except AttemptFailure Json)) :
    event.outcome? outcome = outcome := by
  cases event with
  | called => cases call
  | sampled => cases sample
  | _ => rfl

/-- An event that neither begins an attempt nor judges one changes nothing. -/
theorem Conduct.quiet
    (conduct : Conduct retry attempts course)
    (call : entry.2.call? = none)
    (sample : entry.2.sample? = none) :
    Conduct retry attempts (course ++ [entry]) where
  within := conduct.within
  calls := by rw [callNumbers_concat, call, Option.toList_none, List.append_nil, conduct.calls]
  samples := by
    rw [sampleNumbers_concat, sample, Option.toList_none, List.append_nil, lastOutcome_concat,
      outcome?_of_quiet call sample, conduct.samples]
  acquired before tick item limit h := by
    rcases prefix_concat_cases h with ⟨-, rfl⟩ | hold
    · cases call
    · exact conduct.acquired before tick item limit hold
  repeated before tick item limit h := by
    rcases prefix_concat_cases h with ⟨-, rfl⟩ | hold
    · cases call
    · exact conduct.repeated before tick item limit hold
  sampled before tick item outcome latency h := by
    rcases prefix_concat_cases h with ⟨-, rfl⟩ | hold
    · cases sample
    · exact conduct.sampled before tick item outcome latency hold

/-- An attempt begins with a token of its own, and after a failure if it is not the first one. -/
theorem Conduct.call
    {item : Item} {tick : Nat}
    (conduct : Conduct retry attempts course)
    (next : item.attempts = attempts + 1)
    (within : attempts < retry.maxAttempts)
    (acquired : Acquired course tick)
    (again : attempts ≠ 0 →
      (lastOutcome course).isSome = true ∧ Repeated retry course tick item.attempts)
    (limit : Nat) :
    Conduct retry item.attempts (course ++ [(tick, .called item limit)]) where
  within := next ▸ within
  calls := by
    rw [callNumbers_concat, conduct.calls, next, List.range'_1_concat]
    simp [Event.call?, next, Nat.add_comm]
  samples := by
    have hsamples : sampleNumbers course = List.range' 1 attempts := by
      rw [conduct.samples]
      by_cases hfirst : attempts = 0
      · simp [hfirst]
      · rw [if_pos (again hfirst).1]
    rw [sampleNumbers_concat, hsamples, lastOutcome_concat, next]
    simp [Event.sample?, Event.outcome?]
  acquired before now other most h := by
    rcases prefix_concat_cases h with ⟨rfl, hlast⟩ | hold
    · cases hlast
      exact acquired
    · exact conduct.acquired before now other most hold
  repeated before now other most h hlater := by
    rcases prefix_concat_cases h with ⟨rfl, hlast⟩ | hold
    · cases hlast
      exact (again (by omega)).2
    · exact conduct.repeated before now other most hold hlater
  sampled before now other outcome latency h := by
    rcases prefix_concat_cases h with ⟨-, hlast⟩ | hold
    · cases hlast
    · exact conduct.sampled before now other outcome latency hold

/-- A sample is recorded right after its attempt. -/
theorem Conduct.sample
    {item : Item} {tick latency : Nat}
    (conduct : Conduct retry item.attempts course)
    (measured : Measured course tick item.attempts latency)
    (outcome : Except AttemptFailure Json) :
    Conduct retry item.attempts (course ++ [(tick, .sampled item outcome latency)]) where
  within := conduct.within
  calls := by
    rw [callNumbers_concat, conduct.calls]
    exact List.append_nil _
  samples := by
    obtain ⟨earlier, began, called, limit, rfl, hcalled, -⟩ := measured
    have hcalls : callNumbers earlier ++ [called.attempts] = List.range' 1 item.attempts := by
      rw [← conduct.calls, callNumbers_concat]
      rfl
    have hpos : item.attempts ≠ 0 := by
      intro hzero
      rw [hzero] at hcalls
      simp at hcalls
    obtain ⟨attempts, hattempts⟩ := Nat.exists_eq_succ_of_ne_zero hpos
    rw [sampleNumbers_concat, conduct.samples, lastOutcome_concat, lastOutcome_concat, hattempts]
    simp [Event.sample?, Event.outcome?, hattempts, List.range'_1_concat, Nat.add_comm]
  acquired before now other most h := by
    rcases prefix_concat_cases h with ⟨-, hlast⟩ | hold
    · cases hlast
    · exact conduct.acquired before now other most hold
  repeated before now other most h := by
    rcases prefix_concat_cases h with ⟨-, hlast⟩ | hold
    · cases hlast
    · exact conduct.repeated before now other most hold
  sampled before now other judged latency h := by
    rcases prefix_concat_cases h with ⟨rfl, hlast⟩ | hold
    · cases hlast
      exact measured
    · exact conduct.sampled before now other judged latency hold

end Steps

/-- The last attempt of a course failed and is to be repeated, but not before a tick. -/
structure Rests (retry : RetryPolicy) (attempts due : Nat) (course : List (Nat × Event)) :
    Prop where
  more : attempts < retry.maxAttempts
  failed : ∃ failure, lastOutcome course = some (.error failure) ∧ failure.isRetryable = true
  repeated : ∀ tick, due ≤ tick → Repeated retry course tick (attempts + 1)

section Courses

variable {retry : RetryPolicy} {input : Item} {attempts due since tick : Nat}
  {course : List (Nat × Event)} {point : Point}

theorem Repeated.concat
    {entry : Nat × Event} {next : Nat}
    (h : Repeated retry course tick next)
    (call : entry.2.call? = none) :
    Repeated retry (course ++ [entry]) tick next := by
  obtain ⟨earlier, ended, failed, failure, latency, between, rfl, hcalls, hrest⟩ := h
  refine ⟨earlier, ended, failed, failure, latency, between ++ [entry], by simp, ?_, hrest⟩
  rw [callNumbers_concat, hcalls, call]
  rfl

theorem exists_of_asked
    (h : Course retry input attempts (.asked due) course) :
    attempts = input.attempts ∧
      ∃ asked item, course = [(asked, .reserved item due)] ∧ asked ≤ due := by
  cases h with
  | asks own fresh wait => exact ⟨fresh, _, _, rfl, wait⟩

theorem exists_of_calling
    (h : Course retry input attempts (.calling since) course) :
    ∃ earlier item limit, course = earlier ++ [(since, .called item limit)] ∧
      item.attempts = attempts := by
  cases h with
  | @starts _ _ _ limit begun item course =>
      exact ⟨course ++ [(since, .started begun)], item, limit, by simp, rfl⟩
  | recalls => exact ⟨_, _, _, rfl, rfl⟩

theorem lastOutcome_of_calling
    (h : Course retry input attempts (.calling since) course) :
    lastOutcome course = none := by
  obtain ⟨earlier, item, limit, rfl, -⟩ := exists_of_calling h
  exact lastOutcome_concat

theorem lastOutcome_of_ended
    {outcome : Except AttemptFailure Json}
    (h : Course retry input attempts (.ended tick outcome) course) :
    lastOutcome course = some outcome := by
  cases h with
  | ends => exact lastOutcome_concat

theorem rests_of_pausing
    (h : Course retry input attempts (.pausing due) course) :
    Rests retry attempts due course := by
  cases h with
  | @retries ended item failure earlier hearlier again more =>
      refine ⟨more, ⟨failure, ?_, again⟩, fun tick come => ?_⟩
      · exact lastOutcome_concat.trans (lastOutcome_of_ended hearlier)
      · have hover := Nat.le_trans (le_tickAfter_mul ended _)
          (Nat.mul_le_mul_right nanosPerTick come)
        generalize hattempts : item.attempts = attempts at hearlier more hover
        cases hearlier with
        | @ends began _ failed =>
            refine Repeated.concat ?_ rfl
            exact ⟨_, ended, failed, failure, ended - began, [], rfl, rfl, rfl, again, more, hover⟩

theorem rests_of_reasked
    (h : Course retry input attempts (.reasked due) course) :
    Rests retry attempts due course := by
  cases h with
  | reasks earlier come _ wait =>
      obtain ⟨more, ⟨failure, houtcome, again⟩, repeated⟩ := rests_of_pausing earlier
      refine ⟨more, ⟨failure, lastOutcome_concat.trans houtcome, again⟩, fun tick hdue => ?_⟩
      exact (repeated tick (Nat.le_trans come (Nat.le_trans wait hdue))).concat rfl

/-- A token for another attempt was asked for at the end of a course. -/
theorem acquired_of_reasked
    (h : Course retry input attempts (.reasked due) course)
    (come : due ≤ tick) :
    Acquired course tick := by
  cases h with
  | @reasks _ asked _ item earlier _ _ _ wait =>
      exact ⟨earlier, asked, item, due, [], rfl, rfl, wait, come⟩

theorem measured_of_calling
    (h : Course retry input attempts (.calling since) course)
    (order : since ≤ tick) :
    Measured course tick attempts (tick - since) := by
  obtain ⟨earlier, item, limit, hcourse, hattempts⟩ := exists_of_calling h
  exact ⟨earlier, since, item, limit, hcourse, hattempts, Nat.add_sub_of_le order⟩

/-- A course is about its item alone. -/
theorem own_of_course
    (h : Course retry input attempts point course) :
    ∀ entry ∈ course, ∃ item, entry.2.worked? = some item ∧ item.origin = input.origin := by
  induction h with
  | asks own =>
      intro entry hentry
      cases List.mem_singleton.mp hentry
      exact ⟨_, rfl, own⟩
  | starts _ _ begins own _ ih =>
      intro entry hentry
      rcases List.mem_append.mp hentry with hold | hnew
      · exact ih entry hold
      · rcases List.mem_pair.mp hnew with rfl | rfl
        · exact ⟨_, rfl, begins⟩
        · exact ⟨_, rfl, own⟩
  | ends _ _ own ih | retries _ _ _ own ih | reasks _ _ own _ ih | recalls _ _ own _ ih =>
      intro entry hentry
      rcases List.mem_append.mp hentry with hold | hnew
      · exact ih entry hold
      · cases List.mem_singleton.mp hnew
        exact ⟨_, rfl, own⟩

/-- The attempts of a course for a new item are made in their order. -/
theorem conduct_of_course
    (fresh : input.attempts = 0)
    (positive : 0 < retry.maxAttempts)
    (h : Course retry input attempts point course) :
    Conduct retry attempts course := by
  induction h with
  | asks _ same =>
      rw [same, fresh]
      exact conduct_nil.quiet rfl rfl
  | @starts attempts due tick limit begun item course earlier come _ _ next ih =>
      obtain ⟨hattempts, asked, asking, rfl, wait⟩ := exists_of_asked earlier
      have hzero := hattempts.trans fresh
      have hstarted : Conduct retry attempts (_ ++ [(tick, .started begun)]) := ih.quiet rfl rfl
      have hacquired : Acquired [(asked, .reserved asking due), (tick, .started begun)] tick :=
        ⟨[], asked, asking, due, [(tick, .started begun)], rfl, rfl, wait, come⟩
      exact hstarted.call next (hzero ▸ positive) hacquired (absurd hzero) limit
  | ends earlier order _ ih => exact ih.sample (measured_of_calling earlier order) _
  | retries _ _ _ _ ih => exact ih.quiet rfl rfl
  | reasks _ _ _ _ ih => exact ih.quiet rfl rfl
  | recalls earlier come _ next ih =>
      obtain ⟨more, ⟨failure, houtcome, -⟩, repeated⟩ := rests_of_reasked earlier
      refine ih.call next more (acquired_of_reasked earlier come) (fun _ => ⟨?_, ?_⟩) _
      · rw [houtcome]
        rfl
      · rw [next]
        exact repeated _ come

end Courses

end Run
end BatchRun
