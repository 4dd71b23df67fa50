import BatchRun.Proofs.Run.Courses
import BatchRun.Proofs.Run.Pacing

/-!
# Tokens and samples of runs

A run withdraws one token for each request that is seen, and records one sample for each attempt
that is seen to be judged, in the order in which they are seen.

**Types.**
`Through` relates two states by a list of steps.  The `work` of a run is what it does for the
attempts of its items.

**Results.**
* `work_of_turn`: what a step of a task adds to the work.
* `granted_of_transition`: the throttle has served the requests, one after the other.
* `metered_of_transition`: the monitor has recorded the samples, if it has room for them.
-/

namespace BatchRun

/-- One after the other, some labels lead from a state to another one. -/
inductive Through {σ α : Type} (step : σ → α → σ → Prop) (first : σ) : List α → σ → Prop
  | here : Through step first [] first
  | next {labels : List α} {label : α} {state next : σ}
      (earlier : Through step first labels state) (h : step state label next) :
      Through step first (labels ++ [label]) next

namespace Run

namespace Event

/-- Whether an event is about an attempt for an item. -/
def isWork (event : Event) : Bool := event.worked?.isSome

/-- The tick at which a token is there. -/
def request? : Event → Option Nat
  | reserved _ due => some due
  | _ => none

/-- The sample that is recorded. -/
def record? : Event → Option Sample
  | sampled _ outcome latency => some (sampleOf outcome latency)
  | _ => none

end Event

/-- What a run has done for the attempts of its items, the first event first. -/
def State.work (s : State) : List (Nat × Event) :=
  s.events.reverse.filter fun entry => entry.2.isWork

/-- What some events add to the work of a run. -/
def State.timed (s : State) (events : List Event) : List (Nat × Event) :=
  (events.filter Event.isWork).map fun event => (s.clock, event)

/-- Requests for tokens with the ticks at which they were made and at which they are served. -/
def requestsIn (work : List (Nat × Event)) : List (Nat × Nat) :=
  work.filterMap fun entry => entry.2.request?.map fun due => (entry.1, due)

/-- Samples in the order in which they were recorded. -/
def samplesIn (work : List (Nat × Event)) : List Sample :=
  work.filterMap fun entry => entry.2.record?

/-- A throttle serves a request for a token of a destination. -/
def Grants (key : String) (throttle : Throttle) (request : Nat × Nat) (next : Throttle) : Prop :=
  throttle.acquireAt key request.1 = (next, request.2)

/-- A monitor records a sample of a destination. -/
def Records (key : String) (monitor : Monitor) (sample : Sample) (next : Monitor) : Prop :=
  monitor.record key sample = (next, .ok ())

section Work

variable {s : State} {events : List Event}

theorem work_seen
    (events : List Event) :
    (s.seen events).work = s.work ++ s.timed events := by
  simp [State.work, State.seen, State.timed, List.filter_map, Function.comp_def]

theorem work_seen_of_idle
    {event : Event}
    (idle : event.isWork = false) :
    (s.seen [event]).work = s.work := by
  rw [work_seen, State.timed, List.filter_cons_of_neg (by simp [idle]), List.filter_nil]
  exact List.append_nil _

theorem timed_append
    (more : List Event) :
    s.timed (events ++ more) = s.timed events ++ s.timed more := by
  simp [State.timed]

theorem requestsIn_append
    (work more : List (Nat × Event)) :
    requestsIn (work ++ more) = requestsIn work ++ requestsIn more :=
  List.filterMap_append

theorem samplesIn_append
    (work more : List (Nat × Event)) :
    samplesIn (work ++ more) = samplesIn work ++ samplesIn more :=
  List.filterMap_append

end Work

section Turns

variable {s : State} {task : Task} {move : Move} {effect : Effect}

theorem work_of_turn
    (effect : Effect)
    (number : Nat) :
    (effect.apply s number).work = s.work ++ s.timed effect.events :=
  work_seen effect.events

theorem acquireAt_of_token
    {throttle : Throttle} {wait : Wait}
    (token : s.token = (throttle, wait)) :
    s.throttle.acquireAt s.settings.destination s.clock = (throttle, wait.tick s.clock) := by
  have hacquire : s.throttle.acquire s.settings.destination (s.clock * nanosPerTick)
      = (throttle, wait) := token
  simp only [Throttle.acquireAt, hacquire]

/-- A task asks for a token, or leaves the throttle as it is. -/
inductive Asks (s : State) : Option Throttle → List (Nat × Nat) → Prop
  | nothing : Asks s none []
  | token {throttle : Throttle} {due : Nat}
      (grants : Grants s.settings.destination s.throttle (s.clock, due) throttle) :
      Asks s (some throttle) [(s.clock, due)]

theorem asks_of_admits
    {throttle : Option Throttle} {events : List Event}
    (admits : Admits s task throttle events) :
    Asks s throttle (requestsIn (s.timed events)) := by
  cases admits with
  | atOnce _ _ token => exact .token (acquireAt_of_token token)
  | afterWait => exact .nothing

theorem requestsIn_of_retries
    {monitor : Option Monitor} {events : List Event}
    (retries : Retries s task monitor events) :
    requestsIn (s.timed events) = [] := by
  cases retries with
  | atOnce | afterPause => rfl

theorem requestsIn_of_interrupts
    {monitor : Option Monitor} {events : List Event}
    (stops : Interrupts s task move monitor events) :
    requestsIn (s.timed events) = [] := by
  cases stops with
  | inCall | inPause | afterCall => rfl

/-- A task withdraws a token when it is seen to ask for one. -/
theorem asks_of_turn
    (turn : Turn s task move effect) :
    Asks s effect.throttle (requestsIn (s.timed effect.events)) := by
  cases turn with
  | waits _ _ _ token => exact .token (acquireAt_of_token token)
  | rejects _ admits => exact asks_of_admits admits
  | breaksAtStart _ admits | starts admits =>
      rw [timed_append, requestsIn_append]
      exact (List.append_nil _).symm ▸ asks_of_admits admits
  | rewaits _ retries token | recalls _ retries token =>
      rw [timed_append, requestsIn_append, requestsIn_of_retries retries]
      exact .token (acquireAt_of_token token)
  | interrupts stops =>
      rw [timed_append, requestsIn_append, requestsIn_of_interrupts stops]
      exact .nothing
  | closes closing => cases closing <;> exact .nothing
  | _ => exact .nothing

/-- A task records a sample, or leaves the monitor as it is. -/
inductive Judges (s : State) : Option Monitor → List Sample → Prop
  | nothing : Judges s none []
  | sample {monitor : Monitor} {sample : Sample}
      (records : Records s.settings.destination s.monitor sample monitor) :
      Judges s (some monitor) [sample]

theorem judges_of_samples
    {outcome : Except AttemptFailure Json} {latency : Nat} {monitor : Monitor}
    (samples : Samples s task outcome latency monitor) :
    Judges s (some monitor) [sampleOf outcome latency] :=
  .sample samples.record

theorem samplesIn_of_admits
    {throttle : Option Throttle} {events : List Event}
    (admits : Admits s task throttle events) :
    samplesIn (s.timed events) = [] := by
  cases admits with
  | atOnce | afterWait => rfl

theorem judges_of_retries
    {monitor : Option Monitor} {events : List Event}
    (retries : Retries s task monitor events) :
    Judges s monitor (samplesIn (s.timed events)) := by
  cases retries with
  | atOnce samples => exact judges_of_samples samples
  | afterPause => exact .nothing

theorem judges_of_interrupts
    {monitor : Option Monitor} {events : List Event}
    (stops : Interrupts s task move monitor events) :
    Judges s monitor (samplesIn (s.timed events)) := by
  cases stops with
  | inCall | inPause => exact .nothing
  | afterCall samples => exact judges_of_samples samples

/-- A task is seen to judge an attempt when it records a sample, if there is room for it. -/
theorem judges_of_turn
    (roomy : s.monitor.Roomy farFuture)
    (paced : task.Paced s.settings.retry.maxAttempts s.clock)
    (turn : Turn s task move effect) :
    Judges s effect.monitor (samplesIn (s.timed effect.events)) := by
  cases turn with
  | breaksInSample _ phase record =>
      obtain ⟨next, hrecord, -⟩ := record_of_answered roomy paced phase
      rw [record] at hrecord
      cases hrecord
  | rejects _ admits =>
      rw [samplesIn_of_admits admits]
      exact .nothing
  | breaksAtStart _ admits | starts admits =>
      rw [timed_append, samplesIn_append, samplesIn_of_admits admits]
      exact .nothing
  | succeeds _ samples | fails _ samples | breaksInRetry _ samples | pauses samples =>
      exact judges_of_samples samples
  | rewaits _ retries | recalls _ retries =>
      rw [timed_append, samplesIn_append]
      exact (List.append_nil _).symm ▸ judges_of_retries retries
  | interrupts stops =>
      rw [timed_append, samplesIn_append]
      exact (List.append_nil _).symm ▸ judges_of_interrupts stops
  | closes closing => cases closing <;> exact .nothing
  | _ => exact .nothing

end Turns

section Steps

variable {s t : State} {action : Action}

/-- A step that is not that of a task does nothing for attempts. -/
structure Idles (s t : State) : Prop where
  work : t.work = s.work
  throttle : t.throttle = s.throttle
  monitor : t.monitor = s.monitor

theorem idles_or_turns
    (h : Transition s action t) :
    Idles s t ∨ ∃ task move effect, action = .task task.number move ∧ task ∈ s.tasks ∧
      Turn s task move effect ∧ t = effect.apply s task.number := by
  cases h with
  | advances | cancels | takesPermit | spawns | flushes | leaves | closesNot =>
      exact .inl ⟨rfl, rfl, rfl⟩
  | skips | breaksInSkip => exact .inl ⟨work_seen_of_idle (s := s) rfl, rfl, rfl⟩
  | @closes batch =>
      refine .inl ⟨?_, rfl, rfl⟩
      exact work_seen_of_idle (s := { s with saved := s.saved.recordAll batch }) rfl
  | turns _ found turn => exact .inr ⟨_, _, _, rfl, (mem_of_task? found).1, turn, rfl⟩

theorem Asks.next
    {throttle : Option Throttle} {first : Throttle} {done requests : List (Nat × Nat)}
    (asks : Asks s throttle requests)
    (granted : Through (Grants s.settings.destination) first done s.throttle) :
    Through (Grants s.settings.destination) first (done ++ requests)
      (throttle.getD s.throttle) := by
  cases asks with
  | nothing => exact (List.append_nil done).symm ▸ granted
  | token grants => exact granted.next grants

theorem Judges.next
    {monitor : Option Monitor} {first : Monitor} {done samples : List Sample}
    (judges : Judges s monitor samples)
    (metered : Through (Records s.settings.destination) first done s.monitor) :
    Through (Records s.settings.destination) first (done ++ samples)
      (monitor.getD s.monitor) := by
  cases judges with
  | nothing => exact (List.append_nil done).symm ▸ metered
  | sample records => exact metered.next records

/-- The throttle serves the requests of a run, one after the other. -/
theorem granted_of_transition
    {first : Throttle}
    (h : Transition s action t)
    (granted : Through (Grants s.settings.destination) first (requestsIn s.work) s.throttle) :
    Through (Grants t.settings.destination) first (requestsIn t.work) t.throttle := by
  rw [State.settings, setup_of_transition h]
  rcases idles_or_turns h with idles | ⟨task, move, effect, -, -, turn, rfl⟩
  · rw [idles.work, idles.throttle]
    exact granted
  · rw [work_of_turn, requestsIn_append]
    exact (asks_of_turn turn).next granted

/-- The monitor records the samples of a run, one after the other. -/
theorem metered_of_transition
    {first : Monitor}
    (h : Transition s action t)
    (paced : s.Paced)
    (roomy : s.monitor.Roomy farFuture)
    (metered : Through (Records s.settings.destination) first (samplesIn s.work) s.monitor) :
    Through (Records t.settings.destination) first (samplesIn t.work) t.monitor := by
  rw [State.settings, setup_of_transition h]
  rcases idles_or_turns h with idles | ⟨task, move, effect, -, htask, turn, rfl⟩
  · rw [idles.work, idles.monitor]
    exact metered
  · rw [work_of_turn, samplesIn_append]
    exact (judges_of_turn roomy (paced.tasks task htask) turn).next metered

end Steps

end Run
end BatchRun
