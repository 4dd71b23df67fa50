import BatchRun.Proofs.Output.Sinks

/-!
# Histories of an output

**Type.**
An `Output` is a tree in which sinks are opened one after another on the same directory, with the
locations that they have given.  A `Deed` opens a sink, persists the record of an item, fails to
append one, or ends the process while appends are under way.  Of an append that does not come to its
end any first part of the line may arrive.

**Invariant.**
An open sink is `Ready` with what the failed appends since it was opened have left (`owed`), and no
deed loses a complete line.

**Results.**
* `sound_of_follow?`: complete lines are kept through every history, and what is left in the files
  of an open sink is known.
* `faithful_of_follow?`: without failed appends every location names the line of its record for
  good, and no location is given twice.
-/

namespace BatchRun

open Number
open RecordFile
open Storage
open Text
open BatchRun.Tree

/-- The files of an output and the sink that is open on them. -/
structure Output where
  tree : Tree
  sink : Option Sink := none
  /-- Locations that were given so far, with their items. -/
  placed : List (String × Item) := []

namespace Output

/-- What is done with the files of an output. -/
inductive Deed where
  | opens
  | persists (item : Item)
  /-- An append fails after some bytes have arrived. -/
  | fails (item : Item) (count : Nat)
  /-- The process ends; of each append under way some bytes have arrived. -/
  | crashes (torn : List (Item × Nat))

section Deeds

variable (directory : Path)

/-- Tree with the first bytes of a record that is appended. -/
def leave? (sink : Sink) (tree : Tree) (item : Item) (count : Nat) : Option Tree :=
  match tree.perform (.write (sink.fileOf item).path (arrived item.recordLine count)) with
  | .ok next => some next
  | .error _ => none

/-- Tree with the first bytes of some records. -/
def leaveAll? (sink : Sink) (tree : Tree) : List (Item × Nat) → Option Tree
  | [] => some tree
  | (item, count) :: torn =>
    match leave? sink tree item count with
    | some next => leaveAll? sink next torn
    | none => none

/-- The output after a deed; only a sink that is open can be written to. -/
def do? (o : Output) : Deed → Option Output
  | .opens =>
    match Sink.openIn directory o.tree with
    | (tree, .ok sink) => some { o with tree, sink := some sink }
    | (tree, .error _) => some { o with tree, sink := none }
  | .persists item =>
    match o.sink with
    | none => none
    | some sink =>
      match sink.persist o.tree item with
      | (sink, tree, .ok location) =>
        some { tree, sink := some sink, placed := o.placed ++ [(location, item)] }
      | (_, _, .error _) => none
  | .fails item count =>
    match o.sink with
    | none => none
    | some sink => (leave? sink o.tree item count).map fun tree => { o with tree }
  | .crashes torn =>
    match o.sink with
    | none => none
    | some sink => (leaveAll? sink o.tree torn).map fun tree => { o with tree, sink := none }

/-- The output after some deeds. -/
def follow? (o : Output) : List Deed → Option Output
  | [] => some o
  | deed :: deeds =>
    match o.do? directory deed with
    | some next => next.follow? deeds
    | none => none

end Deeds

section Owing

/-- What failed appends have left in the files of the sink that is open. -/
def Deed.owed (debts : String → Debt) : Deed → (String → Debt)
  | .opens => fun _ => {}
  | .persists item => Sink.change debts item.recordName (debts item.recordName).settled
  | .fails item count =>
    Sink.change debts item.recordName ((debts item.recordName).torn item.recordLine count)
  | .crashes _ => fun _ => {}

/-- Debts after some deeds. -/
def owed (deeds : List Deed) : String → Debt := deeds.foldl Deed.owed fun _ => {}

end Owing

section Steps

variable {directory : Path} {o next : Output} {sink : Sink} {tree changed : Tree}
  {debts : String → Debt} {deed : Deed}

theorem leave?_eq_some
    {item : Item} {count : Nat}
    (h : leave? sink tree item count = some changed) :
    tree.perform (.write (sink.fileOf item).path (arrived item.recordLine count)) =
      .ok changed := by
  unfold leave? at h
  split at h
  case h_1 hwrite => rw [hwrite, Option.some.inj h]
  case h_2 => cases h

theorem keepsLines_leaveAll?
    {torn : List (Item × Nat)}
    (h : leaveAll? sink tree torn = some changed) :
    KeepsLines tree changed := by
  induction torn generalizing tree with
  | nil =>
      cases h
      exact .refl _
  | cons part torn ih =>
      rw [leaveAll?] at h
      split at h
      case h_1 between hbetween =>
          exact (adds_write (leave?_eq_some hbetween)).keepsLines.trans (ih h)
      case h_2 => cases h

/-- An open sink is ready with what is owed. -/
def Sound (directory : Path) (debts : String → Debt) (o : Output) : Prop :=
  ∀ sink, o.sink = some sink → Sink.Ready directory o.tree debts sink

/-- What a deed does that writes to a sink. -/
theorem persisted_of_do?
    {item : Item}
    (sound : Sound directory debts o)
    (h : o.do? directory (.persists item) = some next) :
    ∃ sink after, o.sink = some sink ∧
      Sink.Persisted directory o.tree debts sink item after next.tree ∧
      next.sink = some after ∧
      next.placed = o.placed ++
        [(item.recordName ++ ":" ++ natText ((sink.fileOf item).lines + 1), item)] := by
  rw [do?] at h
  split at h
  case h_1 => cases h
  case h_2 sink hsink =>
      obtain ⟨after, changed, hpersisted⟩ := Sink.persisted_of_ready (sound sink hsink) item
      simp only [hpersisted.answer] at h
      cases h
      exact ⟨sink, after, hsink, hpersisted, rfl, rfl⟩

/-- One deed: no complete line is lost, and what is owed is known. -/
theorem sound_of_do?
    (sound : Sound directory debts o)
    (h : o.do? directory deed = some next) :
    KeepsLines o.tree next.tree ∧ Sound directory (deed.owed debts) next := by
  cases deed with
  | opens =>
      rw [do?] at h
      split at h
      case h_1 hopen =>
          cases h
          obtain ⟨hkept, hready⟩ := Sink.ready_openIn hopen
          refine ⟨hkept, ?_⟩
          rintro sink ⟨⟩
          exact hready _ rfl
      case h_2 hopen =>
          cases h
          exact ⟨(Sink.ready_openIn hopen).1, nofun⟩
  | persists item =>
      obtain ⟨sink, after, -, hpersisted, hafter, -⟩ := persisted_of_do? sound h
      refine ⟨hpersisted.adds.keepsLines, fun other hother => ?_⟩
      rw [hafter] at hother
      cases hother
      exact hpersisted.ready
  | fails item count =>
      rw [do?] at h
      split at h
      case h_1 => cases h
      case h_2 sink hsink =>
          obtain ⟨changed, hleave, rfl⟩ := Option.map_eq_some_iff.mp h
          have hwrite := leave?_eq_some hleave
          refine ⟨(adds_write hwrite).keepsLines, fun other hother => ?_⟩
          rw [hsink] at hother
          cases hother
          exact Sink.ready_torn (sound sink hsink) hwrite
  | crashes torn =>
      rw [do?] at h
      split at h
      case h_1 => cases h
      case h_2 sink hsink =>
          obtain ⟨changed, hleave, rfl⟩ := Option.map_eq_some_iff.mp h
          exact ⟨keepsLines_leaveAll? hleave, nofun⟩

theorem sound_of_follow?
    {deeds : List Deed}
    (sound : Sound directory debts o)
    (h : o.follow? directory deeds = some next) :
    KeepsLines o.tree next.tree ∧ Sound directory (deeds.foldl Deed.owed debts) next := by
  induction deeds generalizing o debts with
  | nil =>
      cases h
      exact ⟨.refl _, sound⟩
  | cons deed deeds ih =>
      rw [follow?] at h
      split at h
      case h_1 between hbetween =>
          obtain ⟨hfirst, hsound⟩ := sound_of_do? sound hbetween
          obtain ⟨hrest, hfinal⟩ := ih hsound h
          exact ⟨hfirst.trans hrest, hfinal⟩
      case h_2 => cases h

end Steps

section Naming

variable {directory : Path} {tree next : Tree} {location : String} {item : Item}

/-- A location names the line of the record of an item. -/
def Names (directory : Path) (tree : Tree) (location : String) (item : Item) : Prop :=
  ∃ n bytes, location = item.recordName ++ ":" ++ natText (n + 1) ∧
    tree.read (directory.join ⟨item.recordName⟩) = .ok bytes ∧
    (completeLines bytes)[n]? = some item.recordLine

theorem names_of_keepsLines
    (names : Names directory tree location item)
    (h : KeepsLines tree next) :
    Names directory next location item := by
  obtain ⟨n, bytes, hlocation, hread, hline⟩ := names
  obtain ⟨now, hnow, rest, hrest⟩ := h _ bytes hread
  refine ⟨n, now, hlocation, hnow, ?_⟩
  obtain ⟨hn, -⟩ := List.getElem?_eq_some_iff.mp hline
  rw [← hrest, List.getElem?_append_left hn, hline]

/-- A location tells the file and the number. -/
theorem eq_of_location_eq
    {item other : Item} {n m : Nat}
    (h : item.recordName ++ ":" ++ natText n = other.recordName ++ ":" ++ natText m) :
    item.recordName = other.recordName ∧ n = m := by
  have hfiles : item.recordName = other.recordName := by
    have hhead := congrArg (fun text => text.toList.head?) h
    unfold Item.recordName at hhead ⊢
    split at hhead <;> split at hhead
    case isTrue.isTrue => simp [*]
    case isFalse.isFalse => simp [*]
    all_goals
      simp [Sink.errorsName, Sink.resultsName] at hhead
  refine ⟨hfiles, ?_⟩
  rw [hfiles] at h
  exact natText_injective ((String.append_right_inj _).mp h)

end Naming

section Calm

variable {directory : Path} {first : Tree} {o next : Output} {deed : Deed} {deeds : List Deed}

/-- Every location names the line of its record, and none was given twice. -/
structure Placed (directory : Path) (o : Output) : Prop where
  named : ∀ entry ∈ o.placed, Names directory o.tree entry.1 entry.2
  distinct : (o.placed.map Prod.fst).Nodup

/-- No append fails. -/
def Calm (deeds : List Deed) : Prop := ∀ item count, .fails item count ∉ deeds

theorem owed_of_calm
    (calm : Calm [deed]) :
    deed.owed (fun _ => {}) = fun _ => {} := by
  cases deed with
  | opens => rfl
  | persists item =>
      funext name
      simp [Deed.owed, Sink.change, Debt.settled]
  | fails item count => exact absurd List.mem_cons_self (calm item count)
  | crashes torn => rfl

theorem placed_of_persists
    {item : Item}
    (sound : Sound directory (fun _ => {}) o)
    (placed : Placed directory o)
    (h : o.do? directory (.persists item) = some next) :
    Placed directory next := by
  obtain ⟨sink, after, hsink, hpersisted, -, hplaced⟩ := persisted_of_do? sound h
  have hfiled := Sink.filed_fileOf (sound sink hsink) item
  have hadds := hpersisted.adds
  obtain ⟨now, hnow, hline⟩ := line_written hfiled item.lineEnd_not_mem_recordLine hadds
  obtain ⟨bytes, hread, hlength, -⟩ := hfiled.held
  constructor
  · intro entry hentry
    rw [hplaced, List.mem_append, List.mem_singleton] at hentry
    rcases hentry with hold | rfl
    · exact names_of_keepsLines (placed.named entry hold) hadds.keepsLines
    · exact ⟨(sink.fileOf item).lines, now, rfl, hnow, by simpa using hline⟩
  · rw [hplaced, List.map_append, List.nodup_append]
    refine ⟨placed.distinct, by simp, ?_⟩
    intro old hold new hnew heq
    rw [List.map_singleton, List.mem_singleton] at hnew
    obtain ⟨⟨location, other⟩, hentry, rfl⟩ := List.mem_map.mp hold
    obtain ⟨n, others, hlocation, hother, hnth⟩ := placed.named _ hentry
    simp only at hlocation heq hnew
    rw [heq, hnew] at hlocation
    obtain ⟨hname, hnumber⟩ := eq_of_location_eq hlocation
    -- the old line is among those that were counted, the new one behind them
    rw [← hname, hread] at hother
    cases hother
    obtain ⟨hn, -⟩ := List.getElem?_eq_some_iff.mp hnth
    rw [hlength] at hn
    change _ < _ + 0 at hn
    omega

/-- One deed that is not a failed append. -/
theorem placed_of_do?
    (calm : Calm [deed])
    (sound : Sound directory (fun _ => {}) o)
    (placed : Placed directory o)
    (h : o.do? directory deed = some next) :
    Placed directory next := by
  have hkept := (sound_of_do? sound h).1
  have hframe : next.placed = o.placed → Placed directory next := by
    intro hsame
    refine ⟨fun entry hentry => ?_, hsame ▸ placed.distinct⟩
    exact names_of_keepsLines (placed.named entry (hsame ▸ hentry)) hkept
  cases deed with
  | opens =>
      rw [do?] at h
      split at h
      all_goals
        cases h
        exact hframe rfl
  | persists item => exact placed_of_persists sound placed h
  | fails item count => exact absurd List.mem_cons_self (calm item count)
  | crashes torn =>
      rw [do?] at h
      split at h
      case h_1 => cases h
      case h_2 =>
          obtain ⟨changed, -, rfl⟩ := Option.map_eq_some_iff.mp h
          exact hframe rfl

theorem placed_of_follow?
    (calm : Calm deeds)
    (sound : Sound directory (fun _ => {}) o)
    (placed : Placed directory o)
    (h : o.follow? directory deeds = some next) :
    Placed directory next ∧ Sound directory (fun _ => {}) next := by
  induction deeds generalizing o with
  | nil =>
      cases h
      exact ⟨placed, sound⟩
  | cons deed deeds ih =>
      have hfirst : Calm [deed] := fun item count hmem =>
        calm item count (List.mem_singleton.mp hmem ▸ List.mem_cons_self)
      have hrest : Calm deeds := fun item count hmem =>
        calm item count (List.mem_cons_of_mem deed hmem)
      rw [follow?] at h
      split at h
      case h_1 between hbetween =>
          have hsound := (sound_of_do? sound hbetween).2
          rw [owed_of_calm hfirst] at hsound
          exact ih hrest hsound (placed_of_do? hfirst sound placed hbetween) h
      case h_2 => cases h

/-- What the locations of an output are good for. -/
structure Faithful (directory : Path) (first : Tree) (o : Output) : Prop extends
    Placed directory o where
  oneLine : ∀ entry ∈ o.placed, lineEnd ∉ entry.2.recordLine
  /-- Complete lines that were there at first are kept at their numbers. -/
  kept : KeepsLines first o.tree
  /-- Whatever is done later, appends that fail included, a location names its line. -/
  lasting : ∀ later final, o.follow? directory later = some final →
    ∀ entry ∈ o.placed, Names directory final.tree entry.1 entry.2

/-- Without failed appends all locations are faithful. -/
theorem faithful_of_follow?
    {tree : Tree}
    (calm : Calm deeds)
    (h : follow? directory { tree } deeds = some o) :
    Faithful directory tree o := by
  have hstart : Sound directory (fun _ => {}) { tree } := by
    intro sink hsink
    cases hsink
  have hnone : Placed directory { tree } := by
    refine ⟨?_, List.nodup_nil⟩
    intro entry hentry
    cases hentry
  obtain ⟨hplaced, hsound⟩ := placed_of_follow? calm hstart hnone h
  refine ⟨hplaced, ?_, (sound_of_follow? hstart h).1, ?_⟩
  · exact fun entry _ => entry.2.lineEnd_not_mem_recordLine
  · intro later final hlater entry hentry
    exact names_of_keepsLines (hplaced.named entry hentry) (sound_of_follow? hsound hlater).1

/-- An item that has ended. -/
def sampleItem (position : Nat) (status : Status) : Item where
  id := natText position
  position := position
  payload := .string "two\nlines"
  status := status

/-- An output whose last line is torn. -/
def sampleTree : Tree :=
  ⟨[(["out"], .directory), (["out", "results.jsonl"], .file (bytesOf "kept\ntorn"))]⟩

/-- Two sinks, the first of which is lost in the middle of an append. -/
def sampleDeeds : List Deed :=
  [ .opens, .persists (sampleItem 1 .success), .crashes [(sampleItem 2 .success, 7)],
    .opens, .persists (sampleItem 2 .success), .persists (sampleItem 3 .failed) ]

theorem faithful_of_sampleDeeds :
    ∃ o, follow? ⟨"out"⟩ { tree := sampleTree } sampleDeeds = some o ∧
      o.placed.map Prod.fst = ["results.jsonl:2", "results.jsonl:3", "errors.jsonl:1"] ∧
      Faithful ⟨"out"⟩ sampleTree o := by
  have hplaced : (follow? ⟨"out"⟩ { tree := sampleTree } sampleDeeds).map
      (fun o => o.placed.map Prod.fst) =
        some ["results.jsonl:2", "results.jsonl:3", "errors.jsonl:1"] := by
    decide +kernel
  obtain ⟨o, ho, hlocations⟩ := Option.map_eq_some_iff.mp hplaced
  exact ⟨o, ho, hlocations, faithful_of_follow? (by simp [Calm, sampleDeeds]) ho⟩

end Calm

end Output
end BatchRun
