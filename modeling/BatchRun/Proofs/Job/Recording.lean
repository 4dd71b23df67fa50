import BatchRun.Proofs.Job.Judgement

/-!
# Samples recorded by several calls at a time

**Types.**
A `SharedMonitor` is the state of a monitor that calls use at a time, in any order of their steps: a
call looks for the window of its destination, makes one if there still is none, and adds its sample.
`SharedMonitor.view` is the `Monitor` that readers see.

**Invariant.**
`SharedMonitor.Tracks`: addresses of windows are different, the view follows the history, and the
history has the samples of the calls that have recorded theirs.  The step that makes a window is
`Monitor.opened` on the view and the one that adds a sample is `Monitor.push`, which is why the
facts about one caller carry over.

**Results.**
`SharedMonitor.judged_of_run` says of every schedule what the views and the snapshot are.
-/

namespace BatchRun

/-- Where a call that records a sample stands. -/
inductive Recording.Stage where
  /-- It has not looked for the window yet. -/
  | begun
  /-- There was no window. -/
  | missed
  /-- It has the address of a window. -/
  | found (address : Nat)
  | recorded
  /-- No memory can hold a window. -/
  | refused
deriving DecidableEq

/-- A call that records a sample for a destination. -/
structure Recording where
  key : String
  sample : Sample
  stage : Recording.Stage := .begun

/-- What a call records. -/
def Recording.entry (call : Recording) : String × Sample := (call.key, call.sample)

/-- Whether a call has come to a window. -/
def Recording.Stage.hasWindow : Recording.Stage → Bool
  | found _ => true
  | recorded => true
  | _ => false

/-- A monitor that several calls use at a time.  Windows are kept apart from the index, which has their
addresses, so that a call goes on with the window that it once found. -/
structure SharedMonitor where
  settings : HealthSettings
  calls : List Recording
  /-- Address of the window of each destination. -/
  index : List (String × Nat) := []
  /-- First address at which no window was made. -/
  size : Nat := 0
  windows : Nat → List Sample := fun _ => []
  /-- Samples with their destinations, in the order in which their calls had a window to themselves. -/
  history : List (String × Sample) := []

namespace SharedMonitor

/-- A monitor with no windows, and calls that are to record samples. -/
def opened (settings : HealthSettings) (samples : List (String × Sample)) : SharedMonitor where
  settings := settings
  calls := samples.map fun (key, sample) => { key, sample }

/-- What readers of the monitor see. -/
def view (s : SharedMonitor) : Monitor where
  settings := s.settings
  windows := s.index.map fun entry => (entry.1, s.windows entry.2)

/-- The monitor with a call at another stage. -/
def moved (s : SharedMonitor) (number : Nat) (stage : Recording.Stage) : SharedMonitor :=
  { s with calls := s.calls.modify number fun call => { call with stage } }

/-- The monitor with another window at an address. -/
def written (s : SharedMonitor) (address : Nat) (window : List Sample) : SharedMonitor :=
  { s with windows := fun other => if other = address then window else s.windows other }

/-- Makes an empty window for a destination. -/
def made (s : SharedMonitor) (key : String) : SharedMonitor :=
  { s.written s.size [] with
    index := Keyed.insert key s.size s.index
    size := s.size + 1 }

/-- Adds a sample to the window at an address. -/
def filled (s : SharedMonitor) (address : Nat) (key : String) (sample : Sample) : SharedMonitor :=
  { s.written address (Monitor.slide s.settings (s.windows address) sample) with
    history := s.history ++ [(key, sample)] }

/-- The next step of a call: it looks for the window while others look too, makes one if there still is
none while it has the index to itself, and adds its sample while it has the window to itself. -/
def advance (s : SharedMonitor) (number : Nat) : SharedMonitor :=
  match s.calls[number]? with
  | none => s
  | some call =>
    match call.stage with
    | .begun =>
      match Keyed.find? s.index call.key with
      | some address => s.moved number (.found address)
      | none => s.moved number .missed
    | .missed =>
      match Keyed.find? s.index call.key with
      | some address => s.moved number (.found address)
      | none =>
        if HealthSettings.unallocatable ≤ s.settings.windowSize then s.moved number .refused
        else (s.made call.key).moved number (.found s.size)
    | .found address => (s.filled address call.key call.sample).moved number .recorded
    | .recorded => s
    | .refused => s

/-- The monitor after steps of some calls, in this order. -/
def run (s : SharedMonitor) (schedule : List Nat) : SharedMonitor := schedule.foldl advance s

/-- Addresses are those of different windows, and a call has the address of the window of its
destination. -/
structure Sound (s : SharedMonitor) : Prop where
  ascending : Keyed.Ascending (s.index.map Prod.fst)
  below : ∀ address ∈ s.index.map Prod.snd, address < s.size
  distinct : (s.index.map Prod.snd).Nodup
  held : ∀ call ∈ s.calls, ∀ address, call.stage = .found address →
    Keyed.find? s.index call.key = some address

/-- What a step of a call can be. -/
inductive Step (s : SharedMonitor) (number : Nat) : SharedMonitor → Prop
  /-- There is no such call, or it has ended. -/
  | rests : Step s number s
  | finds {call : Recording} {address : Nat} (here : s.calls[number]? = some call)
      (early : call.stage = .begun ∨ call.stage = .missed)
      (found : Keyed.find? s.index call.key = some address) :
      Step s number (s.moved number (.found address))
  | misses {call : Recording} (here : s.calls[number]? = some call) (stage : call.stage = .begun) :
      Step s number (s.moved number .missed)
  | refuses {call : Recording} (here : s.calls[number]? = some call) (stage : call.stage = .missed)
      (large : HealthSettings.unallocatable ≤ s.settings.windowSize) :
      Step s number (s.moved number .refused)
  | makes {call : Recording} (here : s.calls[number]? = some call) (stage : call.stage = .missed)
      (missing : Keyed.find? s.index call.key = none)
      (allocatable : s.settings.windowSize < HealthSettings.unallocatable) :
      Step s number ((s.made call.key).moved number (.found s.size))
  | fills {call : Recording} {address : Nat} (here : s.calls[number]? = some call)
      (stage : call.stage = .found address) :
      Step s number ((s.filled address call.key call.sample).moved number .recorded)

theorem step_of_advance
    (s : SharedMonitor)
    (number : Nat) :
    Step s number (s.advance number) := by
  unfold advance
  split
  case h_1 => exact .rests
  case h_2 call here =>
      split
      case h_1 stage =>
          split
          case h_1 address found => exact .finds here (.inl stage) found
          case h_2 => exact .misses here stage
      case h_2 stage =>
          split
          case h_1 address found => exact .finds here (.inr stage) found
          case h_2 missing =>
              split
              case isTrue large => exact .refuses here stage large
              case isFalse small => exact .makes here stage missing (Nat.not_le.mp small)
      case h_3 address stage => exact .fills here stage
      case h_4 => exact .rests
      case h_5 => exact .rests

section Views

variable {s : SharedMonitor} {key : String} {address : Nat}

theorem find?_view :
    Keyed.find? s.view.windows key = (Keyed.find? s.index key).map s.windows :=
  Keyed.find?_map s.windows s.index key

/-- A window that is made is the one that a single caller would open. -/
theorem opened_view
    (sound : Sound s)
    (missing : Keyed.find? s.index key = none)
    (allocatable : s.settings.windowSize < HealthSettings.unallocatable) :
    s.view.opened key = .ok (s.made key).view := by
  have hnot : ¬ HealthSettings.unallocatable ≤ s.view.settings.windowSize :=
    Nat.not_le.mpr allocatable
  have hold : s.index.map (fun entry => (entry.1, (s.made key).windows entry.2)) =
      s.view.windows := by
    refine List.map_congr_left fun entry hentry => ?_
    have hlt := sound.below entry.2 (List.mem_map_of_mem hentry)
    exact congrArg (Prod.mk entry.1) (if_neg (Nat.ne_of_lt hlt))
  have hnew : (s.made key).windows s.size = [] := if_pos rfl
  have hwindows : (s.made key).view.windows = Keyed.insert key [] s.view.windows := by
    rw [← hold, ← hnew]
    exact Keyed.map_insert (s.made key).windows
  unfold Monitor.opened
  rw [find?_view, missing, Option.map_none]
  simp only [if_neg hnot]
  rw [← hwindows]
  rfl

/-- A sample that is added goes where a single caller would push it. -/
theorem push_view
    (sound : Sound s)
    (found : Keyed.find? s.index key = some address)
    (sample : Sample) :
    (s.filled address key sample).view = s.view.push key sample := by
  have hwindow : (Keyed.find? s.view.windows key).getD [] = s.windows address := by
    rw [find?_view, found]
    rfl
  have hother : ∀ other, other ≠ address →
      (s.filled address key sample).windows other = s.windows other := fun _ hne => if_neg hne
  have hself : (s.filled address key sample).windows address =
      Monitor.slide s.settings (s.windows address) sample := if_pos rfl
  have hwindows : (s.filled address key sample).view.windows =
      Keyed.insert key (Monitor.slide s.settings (s.windows address) sample) s.view.windows := by
    rw [← hself]
    exact Keyed.map_eq_insert sound.ascending sound.distinct found hother
  unfold Monitor.push
  rw [hwindow]
  exact congrArg (Monitor.mk s.settings) hwindows

end Views

section Steps

variable {s next : SharedMonitor} {number address : Nat} {call : Recording}
  {stage : Recording.Stage}

/-- A call that goes on leaves the others where they are. -/
theorem split_calls
    (here : s.calls[number]? = some call)
    (stage : Recording.Stage) :
    ∃ before after, s.calls = before ++ call :: after ∧
      (s.moved number stage).calls = before ++ { call with stage } :: after := by
  obtain ⟨hlt, hcall⟩ := List.getElem?_eq_some_iff.mp here
  refine ⟨s.calls.take number, s.calls.drop (number + 1), ?_, ?_⟩
  · rw [← hcall, List.getElem_cons_drop, List.take_append_drop]
  · show s.calls.modify number _ = _
    rw [List.modify_eq_take_cons_drop hlt, hcall]

theorem mem_moved
    {other : Recording}
    (here : s.calls[number]? = some call)
    (h : other ∈ (s.moved number stage).calls) :
    other ∈ s.calls ∨ other = { call with stage } := by
  obtain ⟨before, after, hold, hnew⟩ := split_calls here stage
  rw [hnew] at h
  rw [hold]
  simp only [List.mem_append, List.mem_cons] at h ⊢
  rcases h with h | h | h
  · exact .inl (.inl h)
  · exact .inr h
  · exact .inl (.inr (.inr h))

theorem entries_moved
    (here : s.calls[number]? = some call)
    (stage : Recording.Stage) :
    (s.moved number stage).calls.map Recording.entry = s.calls.map Recording.entry := by
  obtain ⟨before, after, hold, hnew⟩ := split_calls here stage
  rw [hold, hnew, List.map_append, List.map_append]
  rfl

/-- Calls never change what they record. -/
theorem entries_of_step
    (h : Step s number next) :
    next.calls.map Recording.entry = s.calls.map Recording.entry := by
  cases h with
  | rests => rfl
  | finds here | misses here | refuses here => exact entries_moved here _
  | makes here | fills here => exact entries_moved (s := s) here _

/-- Calls that have come to a window, after one more has. -/
theorem hasWindow_moved
    {key : String}
    (here : s.calls[number]? = some call)
    (keeps : call.stage.hasWindow = true → stage.hasWindow = true) :
    (∃ other ∈ (s.moved number stage).calls, other.key = key ∧ other.stage.hasWindow = true) ↔
      (∃ other ∈ s.calls, other.key = key ∧ other.stage.hasWindow = true) ∨
        call.key = key ∧ stage.hasWindow = true := by
  obtain ⟨before, after, hold, hnew⟩ := split_calls here stage
  rw [hold, hnew]
  constructor
  · rintro ⟨other, hother, hkey, hwindow⟩
    rcases List.mem_append.mp hother with hmem | hmem
    · exact .inl ⟨other, List.mem_append_left _ hmem, hkey, hwindow⟩
    · rcases List.mem_cons.mp hmem with rfl | hmem
      · exact .inr ⟨hkey, hwindow⟩
      · exact .inl ⟨other, List.mem_append_right _ (List.mem_cons_of_mem _ hmem), hkey, hwindow⟩
  · rintro (⟨other, hother, hkey, hwindow⟩ | ⟨hkey, hwindow⟩)
    · rcases List.mem_append.mp hother with hmem | hmem
      · exact ⟨other, List.mem_append_left _ hmem, hkey, hwindow⟩
      · rcases List.mem_cons.mp hmem with rfl | hmem
        · exact ⟨_, List.mem_append_right _ List.mem_cons_self, hkey, keeps hwindow⟩
        · exact ⟨other, List.mem_append_right _ (List.mem_cons_of_mem _ hmem), hkey, hwindow⟩
    · exact ⟨_, List.mem_append_right _ List.mem_cons_self, hkey, hwindow⟩

theorem sound_of_step
    (h : Step s number next)
    (sound : Sound s) :
    Sound next := by
  obtain ⟨ascending, below, distinct, held⟩ := sound
  cases h with
  | rests => exact ⟨ascending, below, distinct, held⟩
  | finds here early found =>
      refine ⟨ascending, below, distinct, fun other hother address hstage => ?_⟩
      rcases mem_moved here hother with hold | rfl
      · exact held other hold address hstage
      · cases hstage
        exact found
  | misses here | refuses here =>
      refine ⟨ascending, below, distinct, fun other hother address hstage => ?_⟩
      rcases mem_moved here hother with hold | rfl
      · exact held other hold address hstage
      · cases hstage
  | fills here =>
      refine ⟨ascending, below, distinct, fun other hother address hstage => ?_⟩
      rcases mem_moved (s := s) here hother with hold | rfl
      · exact held other hold address hstage
      · cases hstage
  | @makes call here stage missing =>
      have hperm : (Keyed.insert call.key s.size s.index).Perm ((call.key, s.size) :: s.index) :=
        Keyed.insert_perm missing
      refine ⟨Keyed.ascending_insert ascending, fun address haddress => ?_, ?_,
        fun other hother address hstage => ?_⟩
      · have hmem := (hperm.map Prod.snd).mem_iff.mp haddress
        rcases List.mem_cons.mp hmem with rfl | hold
        · exact Nat.lt_succ_self _
        · exact Nat.lt_succ_of_lt (below address hold)
      · refine (hperm.map Prod.snd).nodup_iff.mpr (List.nodup_cons.mpr ⟨fun hmem => ?_, distinct⟩)
        exact Nat.lt_irrefl _ (below s.size hmem)
      · rcases mem_moved (s := s) here hother with hold | rfl
        · have hfound := held other hold address hstage
          have hne : other.key ≠ call.key := by
            intro heq
            rw [heq, missing] at hfound
            cases hfound
          exact (Keyed.find?_insert_ne hne).trans hfound
        · cases hstage
          exact Keyed.find?_insert_self _ _ _

theorem follows_of_step
    (h : Step s number next)
    (sound : Sound s)
    (follows : s.view.Follows s.history) :
    next.view.Follows next.history := by
  cases h with
  | rests | finds | misses | refuses => exact follows
  | makes here stage missing allocatable =>
      exact Monitor.follows_opened follows (opened_view sound missing allocatable)
  | @fills call address here stage =>
      have hfound := sound.held call (List.mem_of_getElem? here) address stage
      have hview : ((s.filled address call.key call.sample).moved number .recorded).view =
          s.view.push call.key call.sample := push_view sound hfound call.sample
      rw [hview]
      exact Monitor.follows_push follows call.key call.sample

/-- What the calls record that have recorded their samples. -/
def recorded (calls : List Recording) : List (String × Sample) :=
  (calls.filter fun call => call.stage = .recorded).map Recording.entry

/-- A call that does not record its sample in a step leaves what is recorded as it is. -/
theorem lossless_moved
    {history : List (String × Sample)}
    (lossless : history.Perm (recorded s.calls))
    (here : s.calls[number]? = some call)
    (before : call.stage ≠ .recorded)
    (after : stage ≠ .recorded) :
    history.Perm (recorded (s.moved number stage).calls) := by
  obtain ⟨first, last, hold, hnew⟩ := split_calls here stage
  have hsame : recorded (s.moved number stage).calls = recorded s.calls := by
    rw [hold, hnew]
    simp [recorded, before, after]
  rwa [hsame]

theorem lossless_of_step
    (h : Step s number next)
    (lossless : s.history.Perm (recorded s.calls)) :
    next.history.Perm (recorded next.calls) := by
  cases h with
  | rests => exact lossless
  | finds here early =>
      rcases early with stage | stage
      · exact lossless_moved lossless here (by simp [stage]) (by nofun)
      · exact lossless_moved lossless here (by simp [stage]) (by nofun)
  | misses here stage | refuses here stage =>
      exact lossless_moved lossless here (by simp [stage]) (by nofun)
  | makes here stage => exact lossless_moved (s := s) lossless here (by simp [stage]) (by nofun)
  | @fills call address here stage =>
      obtain ⟨first, last, hold, hnew⟩ := split_calls here .recorded
      have hcalls : recorded (s.moved number .recorded).calls =
          recorded first ++ call.entry :: recorded last := by
        rw [hnew]
        simp [recorded, Recording.entry]
      have hbefore : recorded s.calls = recorded first ++ recorded last := by
        rw [hold]
        simp [recorded, stage]
      have hgrows : (s.history ++ [call.entry]).Perm
          (recorded first ++ call.entry :: recorded last) := by
        refine (List.perm_append_singleton _ _).trans (.trans ?_ List.perm_middle.symm)
        exact (hbefore ▸ lossless).cons _
      exact hgrows.trans (.of_eq hcalls.symm)

theorem known_of_step
    (h : Step s number next)
    (known : ∀ key, (Keyed.find? s.index key).isSome = true ↔
      ∃ call ∈ s.calls, call.key = key ∧ call.stage.hasWindow = true)
    (key : String) :
    (Keyed.find? next.index key).isSome = true ↔
      ∃ call ∈ next.calls, call.key = key ∧ call.stage.hasWindow = true := by
  cases h with
  | rests => exact known key
  | @finds call address here early found =>
      rw [hasWindow_moved here fun _ => rfl]
      refine (known key).trans ⟨.inl, ?_⟩
      rintro (h | ⟨rfl, -⟩)
      · exact h
      · exact (known _).mp (by rw [found]; rfl)
  | misses here stage | refuses here stage =>
      rw [hasWindow_moved here (by rw [stage]; exact nofun)]
      refine (known key).trans ⟨.inl, ?_⟩
      rintro (h | ⟨-, hnone⟩)
      · exact h
      · cases hnone
  | @makes call here stage missing =>
      have hcalls : (∃ other ∈ (s.moved number (.found s.size)).calls,
          other.key = key ∧ other.stage.hasWindow = true) ↔ _ :=
        hasWindow_moved here fun _ => rfl
      refine Iff.trans ?_ hcalls.symm
      show (Keyed.find? (Keyed.insert call.key s.size s.index) key).isSome = true ↔ _
      by_cases hkey : key = call.key
      · subst hkey
        rw [Keyed.find?_insert_self]
        exact ⟨fun _ => .inr ⟨rfl, rfl⟩, fun _ => rfl⟩
      · rw [Keyed.find?_insert_ne hkey]
        refine (known key).trans ⟨.inl, ?_⟩
        rintro (h | ⟨rfl, -⟩)
        · exact h
        · exact absurd rfl hkey
  | @fills call address here stage =>
      have hcalls : (∃ other ∈ (s.moved number .recorded).calls,
          other.key = key ∧ other.stage.hasWindow = true) ↔ _ :=
        hasWindow_moved here fun _ => rfl
      refine Iff.trans ((known key).trans ⟨.inl, ?_⟩) hcalls.symm
      rintro (h | ⟨rfl, -⟩)
      · exact h
      · exact ⟨call, List.mem_of_getElem? here, rfl, by rw [stage]; rfl⟩

/-- What is known of a monitor that several calls use. -/
structure Tracks (s : SharedMonitor) : Prop extends Sound s where
  follows : s.view.Follows s.history
  /-- The history has the samples of the calls that have recorded theirs. -/
  lossless : s.history.Perm (recorded s.calls)
  /-- A destination has a window once a call for it has come to one. -/
  known : ∀ key, (Keyed.find? s.index key).isSome = true ↔
    ∃ call ∈ s.calls, call.key = key ∧ call.stage.hasWindow = true

theorem tracks_of_step
    (h : Step s number next)
    (tracks : Tracks s) :
    Tracks next where
  toSound := sound_of_step h tracks.toSound
  follows := follows_of_step h tracks.toSound tracks.follows
  lossless := lossless_of_step h tracks.lossless
  known := known_of_step h tracks.known

theorem settings_of_step
    (h : Step s number next) :
    next.settings = s.settings := by
  cases h with
  | _ => rfl

/-- Where memory can hold a window, no call is refused one. -/
theorem admitted_of_step
    (allocatable : s.settings.windowSize < HealthSettings.unallocatable)
    (h : Step s number next)
    (admitted : ∀ call ∈ s.calls, call.stage ≠ .refused) :
    ∀ call ∈ next.calls, call.stage ≠ .refused := by
  intro other hother
  cases h with
  | rests => exact admitted other hother
  | finds here | misses here =>
      rcases mem_moved here hother with hold | rfl
      · exact admitted other hold
      · exact nofun
  | makes here | fills here =>
      rcases mem_moved (s := s) here hother with hold | rfl
      · exact admitted other hold
      · exact nofun
  | refuses here stage large => exact absurd large (Nat.not_le.mpr allocatable)

end Steps

section Runs

variable {settings : HealthSettings} {samples : List (String × Sample)} {s : SharedMonitor}

theorem tracks_opened
    (settings : HealthSettings)
    (samples : List (String × Sample)) :
    Tracks (opened settings samples) where
  ascending := .nil
  below _ h := absurd h List.not_mem_nil
  distinct := .nil
  held call hcall address hstage := by
    obtain ⟨entry, -, rfl⟩ := List.mem_map.mp hcall
    cases hstage
  follows := Monitor.follows_new settings
  lossless := by
    have hnone : recorded (opened settings samples).calls = [] := by
      refine List.map_eq_nil_iff.mpr (List.filter_eq_nil_iff.mpr fun call hcall => ?_)
      obtain ⟨entry, -, rfl⟩ := List.mem_map.mp hcall
      exact nofun
    rw [hnone]
    exact .nil
  known key := by
    refine ⟨nofun, ?_⟩
    rintro ⟨call, hcall, -, hwindow⟩
    obtain ⟨entry, -, rfl⟩ := List.mem_map.mp hcall
    cases hwindow

/-- What every step keeps holds after all steps. -/
theorem invariant_of_run
    {P : SharedMonitor → Prop}
    (preserved : ∀ {s next : SharedMonitor} {number : Nat}, Step s number next → P s → P next)
    (start : P s)
    (schedule : List Nat) :
    P (s.run schedule) := by
  induction schedule generalizing s with
  | nil => exact start
  | cons number schedule ih => exact ih (preserved (step_of_advance s number) start)

theorem tracks_of_run
    (settings : HealthSettings)
    (samples : List (String × Sample))
    (schedule : List Nat) :
    Tracks ((opened settings samples).run schedule) :=
  invariant_of_run tracks_of_step (tracks_opened settings samples) schedule

/-- No call is between finding its window and filling it. -/
def Resting (s : SharedMonitor) : Prop :=
  ∀ call ∈ s.calls, ∀ address, call.stage ≠ .found address

theorem settings_of_run
    (settings : HealthSettings)
    (samples : List (String × Sample))
    (schedule : List Nat) :
    ((opened settings samples).run schedule).settings = settings :=
  invariant_of_run (fun h hsettings => (settings_of_step h).trans hsettings) rfl schedule

/-- A destination has a view from the time when a call for it comes to a window. -/
theorem unseen_of_tracks
    (tracks : Tracks s)
    (key : String) :
    s.view.summary? key = .ok none ↔
      ∀ call ∈ s.calls, call.key = key → call.stage.hasWindow = false := by
  have hnone : Keyed.find? s.index key = none ↔ ¬ (Keyed.find? s.index key).isSome = true := by
    simp
  rw [Monitor.summary?_eq_none, find?_view, Option.map_eq_none_iff, hnone, tracks.known key]
  simp

/-- While the monitor rests, calls that have come to a window have filled it. -/
theorem unknown_of_tracks
    (tracks : Tracks s)
    (resting : s.Resting)
    (key : String) :
    s.view.summary? key = .ok none ↔ samplesOf key s.history = [] := by
  rw [unseen_of_tracks tracks, samplesOf_eq_nil]
  constructor
  · intro unseen entry hentry hkey
    obtain ⟨call, hcall, rfl⟩ := List.mem_map.mp (tracks.lossless.mem_iff.mp hentry)
    obtain ⟨hcall, hstage⟩ := List.mem_filter.mp hcall
    have hwindow := unseen call hcall hkey
    rw [of_decide_eq_true hstage] at hwindow
    cases hwindow
  · intro unknown call hcall hkey
    cases hstage : call.stage with
    | begun | missed | refused => rfl
    | found address => exact absurd hstage (resting call hcall address)
    | recorded =>
        have hfilled : call ∈ s.calls.filter fun call => call.stage = .recorded :=
          List.mem_filter.mpr ⟨hcall, decide_eq_true hstage⟩
        have hentry := tracks.lossless.mem_iff.mpr (List.mem_map_of_mem hfilled)
        exact absurd hkey (unknown call.entry hentry)

/-- The view of a destination describes the last of its samples. -/
theorem described_of_tracks
    (tracks : Tracks s)
    (few : s.settings.windowSize ≤ 2 ^ 32)
    {key : String}
    (some : samplesOf key s.history ≠ [])
    (fits : (((samplesOf key s.history).rtake s.settings.capacity).map Sample.latency).sum
      < Nat.pow 2 64) :
    ∃ summary, s.view.summary? key = .ok (Option.some summary) ∧
      summary.Describes s.settings ((samplesOf key s.history).rtake s.settings.capacity) := by
  have hcapacity : s.settings.capacity = max s.settings.windowSize 1 := rfl
  have hlength := length_rtake (samplesOf key s.history) s.settings.capacity
  have hsome : 1 ≤ (samplesOf key s.history).length := List.length_pos_iff.mpr some
  obtain ⟨window, hwindow⟩ := Option.isSome_iff_exists.mp (tracks.follows.known key some)
  have hlast : window = (samplesOf key s.history).rtake s.settings.capacity :=
    tracks.follows.window key window hwindow
  obtain ⟨summary, hsummary, hdescribes⟩ : ∃ summary, summarize s.settings
      ((samplesOf key s.history).rtake s.settings.capacity) = .ok summary ∧
        summary.Describes s.settings ((samplesOf key s.history).rtake s.settings.capacity) :=
    describes_of_window (List.length_pos_iff.mp (by omega)) (by omega) fits
  refine ⟨summary, ?_, hdescribes⟩
  rw [Monitor.summary?_of_find? hwindow, hlast]
  exact congrArg (Except.map Option.some) hsummary

/-- What readers of a monitor see at any moment, whatever the order of the steps of its calls was. -/
structure Judged (settings : HealthSettings) (samples : List (String × Sample))
    (s : SharedMonitor) : Prop where
  calls : s.calls.map Recording.entry = samples
  /-- The history has the samples of the calls that have recorded theirs, each once. -/
  lossless : s.history.Perm (recorded s.calls)
  admitted : ∀ call ∈ s.calls, call.stage ≠ .refused
  /-- A destination has no view until a call for it comes to a window. -/
  unseen : ∀ key, s.view.summary? key = .ok none ↔
    ∀ call ∈ s.calls, call.key = key → call.stage.hasWindow = false
  unknown : s.Resting → ∀ key, s.view.summary? key = .ok none ↔ samplesOf key s.history = []
  /-- The view of a destination describes its last samples. -/
  described : ∀ key, samplesOf key s.history ≠ [] →
    (((samplesOf key s.history).rtake settings.capacity).map Sample.latency).sum < Nat.pow 2 64 →
    ∃ summary, s.view.summary? key = .ok (some summary) ∧
      summary.Describes settings ((samplesOf key s.history).rtake settings.capacity) ∧
      summary.samples = min (samplesOf key s.history).length (max settings.windowSize 1)
  /-- A snapshot has the views of all destinations and no others. -/
  snapshot : (∀ key,
      (((samplesOf key s.history).rtake settings.capacity).map Sample.latency).sum < Nat.pow 2 64) →
    ∃ views, s.view.snapshot = .ok views ∧ s.view.Shows views ∧
      (s.Resting → ∀ key, key ∈ views.map Prod.fst ↔ samplesOf key s.history ≠ [])

theorem judged_of_run
    (few : settings.windowSize ≤ 2 ^ 32)
    (samples : List (String × Sample))
    (schedule : List Nat) :
    Judged settings samples ((opened settings samples).run schedule) := by
  have tracks := tracks_of_run settings samples schedule
  have hsettings := settings_of_run settings samples schedule
  have hallocatable : settings.windowSize < HealthSettings.unallocatable :=
    Nat.lt_of_le_of_lt few (by decide)
  have hcalls : ((opened settings samples).run schedule).calls.map Recording.entry = samples := by
    refine invariant_of_run (fun h hcalls => (entries_of_step h).trans hcalls) ?_ schedule
    simp [opened, Recording.entry, Function.comp_def]
  have hadmitted : ((opened settings samples).run schedule).settings = settings ∧
      ∀ call ∈ ((opened settings samples).run schedule).calls, call.stage ≠ .refused := by
    refine invariant_of_run (P := fun s => s.settings = settings ∧ ∀ call ∈ s.calls,
      call.stage ≠ .refused) (fun h hkeeps => ?_) ⟨rfl, fun call hcall => ?_⟩ schedule
    · exact ⟨(settings_of_step h).trans hkeeps.1,
        admitted_of_step (hkeeps.1 ▸ hallocatable) h hkeeps.2⟩
    · obtain ⟨entry, -, rfl⟩ := List.mem_map.mp hcall
      exact nofun
  generalize (opened settings samples).run schedule = s at tracks hsettings hcalls hadmitted ⊢
  subst hsettings
  refine ⟨hcalls, tracks.lossless, hadmitted.2, unseen_of_tracks tracks, unknown_of_tracks tracks,
    fun key some fits => ?_, fun fits => ?_⟩
  · obtain ⟨summary, hsummary, hdescribes⟩ := described_of_tracks tracks few some fits
    exact ⟨summary, hsummary, hdescribes, hdescribes.samples.trans (length_rtake _ _)⟩
  · have hwindows : ∀ key window, Keyed.find? s.view.windows key = Option.some window →
        (window.map Sample.latency).sum < Nat.pow 2 64 := fun key window hwindow => by
      rw [tracks.follows.window key window hwindow]
      exact fits key
    obtain ⟨views, hviews, hshows⟩ := Monitor.snapshot_of_fits tracks.follows.ascending hwindows
    refine ⟨views, hviews, hshows, fun resting key => ?_⟩
    have hkey := (unknown_of_tracks tracks resting key).not
    rw [hshows.view key] at hkey
    refine Iff.trans ?_ hkey
    rw [Keyed.mem_keys]
    simp

/-- Two calls miss the window of a destination before either makes it, and a third one goes on while
the last of them still waits to add its sample. -/
def racingSamples : List (String × Sample) :=
  [("a", ⟨true, 40⟩), ("a", ⟨false, 7⟩), ("b", ⟨true, 5⟩)]

/-- Windows of a single sample: the second call comes first to the window that the first one makes, and
its sample is lost to the first. -/
theorem judged_of_racingSamples :
    ((opened { windowSize := 0 } racingSamples).run [0, 1, 0, 1, 2, 1, 2, 0, 2]).history
        = [("a", ⟨false, 7⟩), ("a", ⟨true, 40⟩), ("b", ⟨true, 5⟩)] ∧
      Judged { windowSize := 0 } racingSamples
        ((opened { windowSize := 0 } racingSamples).run [0, 1, 0, 1, 2, 1, 2, 0, 2]) :=
  ⟨by decide +kernel, judged_of_run (by decide) racingSamples [0, 1, 0, 1, 2, 1, 2, 0, 2]⟩

end Runs

end SharedMonitor

end BatchRun
