import BatchRun.Proofs.Checkpoint.Store

/-!
# Histories of a checkpoint

**Type.**
`Solo` is a store that one caller uses at a time, with the tree it writes to.  A `Call` is a load,
an append, or the end of the store and the start of a new one on the same file.

**Invariant.**
The file holds the initial checkpoint with everything added that was appended, and what the store
remembers, if anything, is what the file holds (`Tracks`).

**Results.**
* `not_blank_of_parse?`: a document is not white space alone.
* `tracks_of_follow?`: a history of calls keeps the invariant.
* `tracks_of_appendAll`: apart from its time, the file has what was there before and what was added.
* `load_of_follow?`: a load at the end of any history gives the initial checkpoint with all entries
  in their order.
-/

namespace BatchRun

open Storage
open Text
open Time

namespace Checkpoint

section Initial

variable {path : Path} {tree : Tree} {bytes : Bytes} {checkpoint : Checkpoint}

/-- What a file may hold before any store was opened on it. -/
inductive Found (path : Path) (tree : Tree) : Checkpoint → Prop
  | missing
      (h : tree.read path = .error .notFound) :
      Found path tree {}
  | blank
      {bytes : Bytes}
      (h : tree.read path = .ok bytes)
      (blank : bytes.all isBlankByte = true) :
      Found path tree {}
  | document
      {bytes : Bytes}
      {checkpoint : Checkpoint}
      (h : tree.read path = .ok bytes)
      (parsed : parse? bytes = .ok checkpoint) :
      Found path tree checkpoint

/-- A document is not white space alone. -/
theorem not_blank_of_parse?
    (h : parse? bytes = .ok checkpoint) :
    bytes.all isBlankByte = false := by
  obtain ⟨after, hread⟩ := Json.read_of_whole h
  obtain ⟨byte, tail, hskip, hbracket⟩ := Json.bracket_of_record hread
  have hmem : byte ∈ bytes := by
    refine (List.dropWhile_sublist Json.isSpace).subset ?_
    change byte ∈ Json.skipSpace bytes
    rw [hskip]
    exact List.mem_cons_self
  have hfilled : isBlankByte byte = false := by
    rcases hbracket with rfl | rfl
    · decide
    · decide
  rw [List.all_eq_false]
  exact ⟨byte, hmem, by simp [hfilled]⟩

/-- What is found is read. -/
theorem read_of_found
    (h : Found path tree checkpoint) :
    read path tree = .ok checkpoint := by
  cases h with
  | missing h =>
      unfold read
      rw [h]
  | blank h blank =>
      unfold read
      simp [h, ofFile, blank]
  | document h parsed =>
      unfold read
      simp [h, ofFile, not_blank_of_parse? parsed, parsed]

end Initial

end Checkpoint

namespace CheckpointStore

/-- A store with a single caller. -/
structure Solo where
  tree : Tree
  store : CheckpointStore

namespace Solo

/-- What the caller does. -/
inductive Call where
  | load
  | append (entries : List CheckpointEntry) (now : Timestamp) (civil : now.Civil)
  /-- Gives the store up and opens another one on the same file. -/
  | reopen

namespace Call

/-- Entries of a call. -/
def entries : Call → List CheckpointEntry
  | .load => []
  | .append entries _ _ => entries
  | .reopen => []

/-- Checkpoint that a call should leave in the file. -/
def apply (checkpoint : Checkpoint) : Call → Checkpoint
  | .load => checkpoint
  | .append entries now _ => if entries.isEmpty then checkpoint else grown checkpoint entries now
  | .reopen => checkpoint

end Call

/-- A store that has not been used. -/
def opened (tree : Tree) (path : Path) : Solo where
  tree := tree
  store := { path }

/-- The store after a call; there is none after a write that fails. -/
def call? (s : Solo) : Call → Option Solo
  | .load => some { s with store := (s.store.load s.tree).1 }
  | .append entries now _ =>
    match s.store.appendAll s.tree entries now with
    | (_, _, some (.unwritable _ _)) => none
    | (store, tree, _) => some { store, tree }
  | .reopen => some { s with store := { path := s.store.path } }

/-- The store after some calls. -/
def follow? (s : Solo) : List Call → Option Solo
  | [] => some s
  | call :: calls =>
    match s.call? call with
    | some next => next.follow? calls
    | none => none

section Tracking

variable {s next : Solo} {checkpoint : Checkpoint}

/-- The file holds a checkpoint, and nothing else is remembered. -/
structure Tracks (s : Solo) (checkpoint : Checkpoint) : Prop where
  file : Checkpoint.read s.store.path s.tree = .ok checkpoint
  remembered : ∀ known, s.store.remembered = some known → known = checkpoint

theorem current_of_tracks
    (tracks : Tracks s checkpoint) :
    s.store.current s.tree = .ok checkpoint := by
  unfold current
  cases hremembered : s.store.remembered with
  | none => exact tracks.file
  | some known => rw [tracks.remembered known hremembered]

/-- Whether or not the file was read before, an append adds to what it holds. -/
theorem tracks_append
    {entries : List CheckpointEntry} {now : Timestamp} {civil : now.Civil}
    (tracks : Tracks s checkpoint)
    (filled : entries.isEmpty = false)
    (h : s.call? (.append entries now civil) = some next) :
    Tracks next (grown checkpoint entries now) := by
  unfold call? appendAll at h
  simp only [filled, current_of_tracks tracks, Bool.false_eq_true, if_false] at h
  cases hwritten : s.tree.performAll ((grown checkpoint entries now).commands s.store.path) with
  | mk changed fault =>
      rw [hwritten] at h
      cases fault with
      | some fault => cases h
      | none =>
          cases h
          have hordered := Checkpoint.ordered_of_read tracks.file
          refine ⟨read_of_grown hordered civil hwritten, ?_⟩
          rintro known ⟨⟩
          rfl

/-- One call keeps the invariant. -/
theorem tracks_of_call?
    {call : Call}
    (tracks : Tracks s checkpoint)
    (h : s.call? call = some next) :
    Tracks next (call.apply checkpoint) := by
  cases call with
  | load =>
      cases h
      unfold load
      rw [tracks.file]
      refine ⟨tracks.file, ?_⟩
      rintro known ⟨⟩
      rfl
  | append entries now civil =>
      cases entries with
      | nil =>
          cases h
          exact tracks
      | cons entry entries => exact tracks_append tracks rfl h
  | reopen =>
      cases h
      exact ⟨tracks.file, nofun⟩

/-- A history keeps the invariant. -/
theorem tracks_of_follow?
    {calls : List Call}
    (tracks : Tracks s checkpoint)
    (h : s.follow? calls = some next) :
    Tracks next (calls.foldl Call.apply checkpoint) := by
  induction calls generalizing s checkpoint with
  | nil =>
      cases h
      exact tracks
  | cons call calls ih =>
      rw [follow?] at h
      split at h
      case h_1 between hbetween => exact ih (tracks_of_call? tracks hbetween) h
      case h_2 => cases h

end Tracking

section Loading

variable {initial checkpoint : Checkpoint} {entries : List CheckpointEntry} {calls : List Call}

/-- All entries of a history, in their order. -/
def appended (calls : List Call) : List CheckpointEntry := calls.flatMap Call.entries

/-- A checkpoint that differs from an initial one by added entries and the time of writing. -/
structure Extends (initial : Checkpoint) (entries : List CheckpointEntry)
    (checkpoint : Checkpoint) : Prop where
  recorded : { checkpoint with savedAt := initial.savedAt } = initial.recordAll entries
  version : checkpoint.version = initial.version
  completed : ∀ id, id ∈ checkpoint.completed ↔
    id ∈ initial.completed ∨ id ∈ entries.map Prod.fst
  /-- The last entry of an item gives its pointer. -/
  pointers : ∀ id, checkpoint.pointer? id =
    (Keyed.find? entries.reverse id).or (initial.pointer? id)

theorem apply_eq
    (initial : Checkpoint)
    (call : Call) :
    ∃ savedAt, call.apply initial = { initial.recordAll call.entries with savedAt } := by
  cases call with
  | load => exact ⟨initial.savedAt, rfl⟩
  | reopen => exact ⟨initial.savedAt, rfl⟩
  | append entries now civil =>
      cases entries with
      | nil => exact ⟨initial.savedAt, rfl⟩
      | cons entry entries => exact ⟨some now, rfl⟩

/-- A store that wrote what it was given holds it in addition. -/
theorem tracks_of_appendAll
    {tree changed : Tree} {store after : CheckpointStore} {entries : List CheckpointEntry}
    {now : Timestamp} {savedAt : Option Timestamp}
    (tracks : Tracks ⟨tree, store⟩ { checkpoint with savedAt })
    (civil : now.Civil)
    (h : store.appendAll tree entries now = (after, changed, none)) :
    ∃ later, Tracks ⟨changed, after⟩ { checkpoint.recordAll entries with savedAt := later } := by
  have hcall : call? ⟨tree, store⟩ (.append entries now civil) = some ⟨changed, after⟩ := by
    simp [call?, h]
  obtain ⟨later, happly⟩ := apply_eq { checkpoint with savedAt } (.append entries now civil)
  have htracks := tracks_of_call? tracks hcall
  rw [happly, Checkpoint.recordAll_savedAt] at htracks
  exact ⟨later, htracks⟩

/-- Apart from the time of writing, calls add their entries and nothing else. -/
theorem foldl_apply_eq
    (initial : Checkpoint)
    (calls : List Call) :
    ∃ savedAt, calls.foldl Call.apply initial =
      { initial.recordAll (appended calls) with savedAt } := by
  induction calls generalizing initial with
  | nil => exact ⟨initial.savedAt, rfl⟩
  | cons call calls ih =>
      obtain ⟨first, hfirst⟩ := apply_eq initial call
      obtain ⟨savedAt, hrest⟩ := ih (call.apply initial)
      refine ⟨savedAt, ?_⟩
      rw [List.foldl_cons, hrest, hfirst, Checkpoint.recordAll_savedAt]
      simp [appended, Checkpoint.recordAll, List.foldl_append]

theorem extends_recordAll
    (initial : Checkpoint)
    (entries : List CheckpointEntry)
    (savedAt : Option Timestamp) :
    Extends initial entries { initial.recordAll entries with savedAt } where
  recorded := by rw [← Checkpoint.savedAt_recordAll initial entries]
  version := Checkpoint.version_recordAll initial entries
  completed _ := Checkpoint.mem_completed_recordAll
  pointers := Checkpoint.pointer?_recordAll initial entries

/-- A load gives the initial checkpoint with everything that was appended before. -/
theorem load_of_follow?
    {tree : Tree} {path : Path} {s : Solo}
    (found : Checkpoint.Found path tree initial)
    (h : (opened tree path).follow? calls = some s) :
    ∃ store checkpoint, s.store.load s.tree = (store, .ok checkpoint) ∧
      Extends initial (appended calls) checkpoint := by
  have hstart : Tracks (opened tree path) initial := ⟨Checkpoint.read_of_found found, nofun⟩
  have htracks := tracks_of_follow? hstart h
  obtain ⟨savedAt, hfinal⟩ := foldl_apply_eq initial calls
  have hload : s.store.load s.tree = (s.store.remember (calls.foldl Call.apply initial),
      .ok (calls.foldl Call.apply initial)) := by
    unfold load
    rw [htracks.file]
  refine ⟨_, _, hload, ?_⟩
  rw [hfinal]
  exact extends_recordAll initial (appended calls) savedAt

/-- A checkpoint of another version, written by hand. -/
def sampleText : Bytes := bytesOf " \x7b\"completed_ids\": [\"a\"], \"version\": 7\x7d"

/-- A directory with a checkpoint. -/
def sampleTree : Tree := ⟨[(["checkpoint.json"], .file sampleText)]⟩

/-- Two stores one after the other, neither of which reads the file by itself. -/
def sampleCalls : List Call :=
  [ .append [("b\n", ⟨.success, some "results.jsonl:1"⟩)] ⟨0, 0⟩ ⟨by decide, .inl (by decide)⟩,
    .reopen,
    .append [("b\n", ⟨.failed, none⟩)] ⟨0, 0⟩ ⟨by decide, .inl (by decide)⟩ ]

theorem load_of_sampleCalls :
    ∃ s store checkpoint,
      (opened sampleTree ⟨"checkpoint.json"⟩).follow? sampleCalls = some s ∧
      s.store.load s.tree = (store, .ok checkpoint) ∧
      Extends { version := 7, completed := ["a"] } (appended sampleCalls) checkpoint := by
  have hparsed : Checkpoint.parse? sampleText = .ok { version := 7, completed := ["a"] } := by
    decide +kernel
  have hfound : Checkpoint.Found ⟨"checkpoint.json"⟩ sampleTree
      { version := 7, completed := ["a"] } :=
    .document (by decide +kernel) hparsed
  have hfollow : ((opened sampleTree ⟨"checkpoint.json"⟩).follow? sampleCalls).isSome := by
    decide +kernel
  obtain ⟨s, hs⟩ := Option.isSome_iff_exists.mp hfollow
  obtain ⟨store, checkpoint, hload, hextends⟩ := load_of_follow? hfound hs
  exact ⟨s, store, checkpoint, hs, hload, hextends⟩

end Loading

end Solo
end CheckpointStore
end BatchRun
