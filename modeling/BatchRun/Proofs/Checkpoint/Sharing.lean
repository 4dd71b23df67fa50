import BatchRun.Proofs.Checkpoint.Store

/-!
# Stores that are shared

**Type.**
`Shared` is a store that several callers use at a time.  A load reads the file in one step and
remembers what it has read in another one, so that other uses may come between the two.  An append
keeps other writers out and the file changes in its last command alone, so that it is one step
(`Use`).

**Invariant.**
Whatever is remembered, or has been read and is not remembered yet, is ordered (`Sound`), so that
what is written is read back.

**Results.**
* `follow?_load`: the two steps without a use between them are a load.
* `kept_iff`: what holds of the file after an append holds of it for good iff it holds of
  everything that loads have read and not remembered yet.
* `acknowledged_of_appendAll`: the exact condition for an acknowledged entry to be kept.
-/

namespace BatchRun

open Storage
open Time

namespace Checkpoint

/-- Whether an item is listed with a pointer. -/
def Lists (checkpoint : Checkpoint) (entry : CheckpointEntry) : Prop :=
  checkpoint.contains entry.1 = true ∧ checkpoint.pointer? entry.1 = some entry.2

end Checkpoint

namespace CheckpointStore

/-- A store that is used by several callers. -/
structure Shared where
  tree : Tree
  store : CheckpointStore
  /-- What loads have read and not remembered yet. -/
  reading : List Checkpoint := []

/-- One step of a load, or an append. -/
inductive Use where
  /-- A load reads the file. -/
  | read
  /-- A load remembers what it has read. -/
  | keep (index : Nat)
  | append (entries : List CheckpointEntry) (now : Timestamp) (civil : now.Civil)

namespace Shared

/-- A store that nobody has used yet. -/
def opened (tree : Tree) (path : Path) : Shared where
  tree := tree
  store := { path }

/-- What is in the file. -/
def file (s : Shared) : Except CheckpointFault Checkpoint := Checkpoint.read s.store.path s.tree

/-- The store after a use; there is none after a write that fails. -/
def use? (s : Shared) : Use → Option Shared
  | .read =>
    match s.file with
    | .ok checkpoint => some { s with reading := s.reading ++ [checkpoint] }
    | .error _ => some s
  | .keep index =>
    match s.reading[index]? with
    | some checkpoint =>
      some { s with
        store := s.store.remember checkpoint
        reading := s.reading.eraseIdx index }
    | none => none
  | .append entries now _ =>
    match s.store.appendAll s.tree entries now with
    | (_, _, some (.unwritable _ _)) => none
    | (store, tree, _) => some { s with store, tree }

/-- The store after some uses. -/
def follow? (s : Shared) : List Use → Option Shared
  | [] => some s
  | use :: uses =>
    match s.use? use with
    | some next => next.follow? uses
    | none => none

/-- The two steps of a load without a use between them. -/
theorem follow?_load
    {s : Shared} {store : CheckpointStore} {checkpoint : Checkpoint}
    (h : s.store.load s.tree = (store, .ok checkpoint)) :
    s.follow? [.read, .keep s.reading.length] = some { s with store } := by
  obtain ⟨hread, rfl⟩ := load_eq_ok h
  have hfile : s.file = .ok checkpoint := hread
  have herase : (s.reading ++ [checkpoint]).eraseIdx s.reading.length = s.reading := by
    rw [List.eraseIdx_append_of_length_le (Nat.le_refl _), Nat.sub_self]
    simp
  simp [follow?, use?, hfile, herase]

/-- What is remembered, now or later, is ordered. -/
structure Sound (s : Shared) : Prop where
  remembered : ∀ checkpoint, s.store.remembered = some checkpoint → checkpoint.Ordered
  reading : ∀ checkpoint ∈ s.reading, checkpoint.Ordered

/-- The file holds a checkpoint with a property. -/
def Shows (s : Shared) (property : Checkpoint → Prop) : Prop :=
  ∃ checkpoint, s.file = .ok checkpoint ∧ property checkpoint

section Uses

variable {s next : Shared} {entries : List CheckpointEntry} {now : Timestamp}

/-- What an append does that is not kept from writing. -/
theorem append_cases
    {civil : now.Civil}
    (h : s.use? (.append entries now civil) = some next) :
    next = s ∨
      ∃ old changed, s.store.current s.tree = .ok old ∧
        next = { s with store := s.store.remember (grown old entries now), tree := changed } ∧
        s.tree.performAll ((grown old entries now).commands s.store.path) = (changed, none) := by
  rw [use?] at h
  split at h
  case h_1 => cases h
  case h_2 store tree fault hwritten happend =>
      cases h
      unfold appendAll at happend
      split at happend
      case isTrue =>
          cases happend
          exact .inl rfl
      case isFalse =>
          split at happend
          case h_1 =>
              cases happend
              exact .inl rfl
          case h_2 old hold =>
              simp only at happend
              split at happend
              case h_1 =>
                  cases happend
                  exact (hwritten _ _ rfl).elim
              case h_2 hchanged =>
                  cases happend
                  exact .inr ⟨old, _, hold, rfl, hchanged⟩

theorem sound_opened
    (tree : Tree)
    (path : Path) :
    Sound (opened tree path) where
  remembered := nofun
  reading := nofun

theorem sound_remember
    {checkpoint : Checkpoint}
    (sound : Sound s)
    (ordered : checkpoint.Ordered)
    (tree : Tree) :
    Sound { s with store := s.store.remember checkpoint, tree } := by
  refine { sound with remembered := ?_ }
  rintro other ⟨⟩
  exact ordered

theorem ordered_grown
    {old : Checkpoint}
    (ordered : old.Ordered)
    (civil : now.Civil) :
    (grown old entries now).Ordered :=
  (Checkpoint.storable_grown ordered entries civil).toOrdered

/-- A use keeps a store sound. -/
theorem sound_of_use?
    {use : Use}
    (sound : Sound s)
    (h : s.use? use = some next) :
    Sound next := by
  cases use with
  | read =>
      rw [use?] at h
      split at h
      case h_1 checkpoint hfile =>
          cases h
          refine { sound with reading := fun other hother => ?_ }
          rcases List.mem_append.mp hother with hold | hnew
          · exact sound.reading other hold
          · rw [List.mem_singleton.mp hnew]
            exact Checkpoint.ordered_of_read hfile
      case h_2 =>
          cases h
          exact sound
  | keep index =>
      rw [use?] at h
      split at h
      case h_1 checkpoint hfound =>
          cases h
          constructor
          · rintro other ⟨⟩
            exact sound.reading checkpoint (List.mem_of_getElem? hfound)
          · exact fun other hother => sound.reading other (List.mem_of_mem_eraseIdx hother)
      case h_2 => cases h
  | append entries now civil =>
      rcases append_cases h with rfl | ⟨old, changed, hold, rfl, -⟩
      · exact sound
      · have hordered := ordered_of_current sound.remembered hold
        exact sound_remember sound (ordered_grown hordered civil) changed

theorem sound_of_follow?
    {uses : List Use}
    (sound : Sound s)
    (h : s.follow? uses = some next) :
    Sound next := by
  induction uses generalizing s with
  | nil =>
      cases h
      exact sound
  | cons use uses ih =>
      rw [follow?] at h
      split at h
      case h_1 between hbetween => exact ih (sound_of_use? sound hbetween) h
      case h_2 => cases h

end Uses

section Keeping

variable {s next final : Shared} {property : Checkpoint → Prop}
  {fits : List CheckpointEntry → Prop}

/-- A property holds of the file and of all that is or may be remembered. -/
structure Holds (s : Shared) (property : Checkpoint → Prop) : Prop where
  file : s.Shows property
  remembered : ∃ checkpoint, s.store.remembered = some checkpoint ∧ property checkpoint
  reading : ∀ checkpoint ∈ s.reading, property checkpoint

/-- Every append adds entries of a kind. -/
def Fit (fits : List CheckpointEntry → Prop) (uses : List Use) : Prop :=
  ∀ entries now civil, .append entries now civil ∈ uses → fits entries

theorem current_of_holds
    {old : Checkpoint}
    (holds : Holds s property)
    (h : s.store.current s.tree = .ok old) :
    property old := by
  obtain ⟨checkpoint, hremembered, hproperty⟩ := holds.remembered
  rw [current, hremembered] at h
  cases h
  exact hproperty

/-- A use keeps a property that entries keep. -/
theorem holds_of_use?
    {use : Use}
    (sound : Sound s)
    (holds : Holds s property)
    (grows : ∀ checkpoint entries now, fits entries → property checkpoint →
      property (grown checkpoint entries now))
    (fit : Fit fits [use])
    (h : s.use? use = some next) :
    Holds next property := by
  cases use with
  | read =>
      rw [use?] at h
      split at h
      case h_1 checkpoint hfile =>
          cases h
          refine { holds with reading := fun other hother => ?_ }
          rcases List.mem_append.mp hother with hold | hnew
          · exact holds.reading other hold
          · obtain ⟨shown, hshown, hproperty⟩ := holds.file
            rw [hfile] at hshown
            rw [List.mem_singleton.mp hnew, Except.ok.inj hshown]
            exact hproperty
      case h_2 =>
          cases h
          exact holds
  | keep index =>
      rw [use?] at h
      split at h
      case h_1 checkpoint hfound =>
          cases h
          have hproperty := holds.reading checkpoint (List.mem_of_getElem? hfound)
          exact
            { file := holds.file
              remembered := ⟨checkpoint, rfl, hproperty⟩
              reading := fun other hother =>
                holds.reading other (List.mem_of_mem_eraseIdx hother) }
      case h_2 => cases h
  | append entries now civil =>
      rcases append_cases h with rfl | ⟨old, changed, hold, rfl, hwritten⟩
      · exact holds
      · have hordered := ordered_of_current sound.remembered hold
        have hgrown := grows old entries now (fit entries now civil List.mem_cons_self)
          (current_of_holds holds hold)
        exact
          { file := ⟨_, read_of_grown hordered civil hwritten, hgrown⟩
            remembered := ⟨_, rfl, hgrown⟩
            reading := holds.reading }

theorem holds_of_follow?
    {uses : List Use}
    (sound : Sound s)
    (holds : Holds s property)
    (grows : ∀ checkpoint entries now, fits entries → property checkpoint →
      property (grown checkpoint entries now))
    (fit : Fit fits uses)
    (h : s.follow? uses = some final) :
    Holds final property := by
  induction uses generalizing s with
  | nil =>
      cases h
      exact holds
  | cons use uses ih =>
      rw [follow?] at h
      split at h
      case h_1 next hnext =>
          have hfirst : Fit fits [use] := fun entries now civil hmem =>
            fit entries now civil (List.mem_singleton.mp hmem ▸ List.mem_cons_self)
          have hrest : Fit fits uses := fun entries now civil hmem =>
            fit entries now civil (List.mem_cons_of_mem use hmem)
          exact ih (sound_of_use? sound hnext)
            (holds_of_use? sound holds grows hfirst hnext) hrest h
      case h_2 => cases h

/-- A load that remembers what it read long ago, and an append after it. -/
theorem append_after_keep
    {seen : Checkpoint} {entries : List CheckpointEntry} {now : Timestamp} {changed : Tree}
    (index : Nat)
    (sound : Sound s)
    (civil : now.Civil)
    (filled : entries ≠ [])
    (found : s.reading[index]? = some seen)
    (written : s.tree.performAll ((grown seen entries now).commands s.store.path) =
      (changed, none)) :
    ∃ final, s.follow? [.keep index, .append entries now civil] = some final ∧
      final.file = .ok (grown seen entries now) := by
  have happend : (s.store.remember seen).appendAll s.tree entries now =
      ((s.store.remember seen).remember (grown seen entries now), changed, none) :=
    appendAll_of_written rfl filled written
  have hordered := sound.reading seen (List.mem_of_getElem? found)
  refine ⟨{
    tree := changed
    store := (s.store.remember seen).remember (grown seen entries now)
    reading := s.reading.eraseIdx index }, ?_, read_of_grown hordered civil written⟩
  simp only [follow?, use?, found, happend]

/-- What holds after an append holds of the file for good iff it holds of everything that loads
have read and not remembered yet. -/
theorem kept_iff
    {before : Tree} {checkpoint : Checkpoint} {now : Timestamp}
    (other : CheckpointEntry)
    (sound : Sound s)
    (civil : now.Civil)
    (written : before.performAll (checkpoint.commands s.store.path) = (s.tree, none))
    (file : s.Shows property)
    (remembered : ∃ checkpoint, s.store.remembered = some checkpoint ∧ property checkpoint)
    (grows : ∀ checkpoint entries now, fits entries → property checkpoint →
      property (grown checkpoint entries now))
    (other_fits : fits [other])
    (shrinks : ∀ checkpoint now, property (grown checkpoint [other] now) → property checkpoint) :
    (∀ uses final, Fit fits uses → s.follow? uses = some final → final.Shows property) ↔
      ∀ seen ∈ s.reading, property seen := by
  constructor
  · intro hkept seen hseen
    obtain ⟨index, hindex, rfl⟩ := List.getElem_of_mem hseen
    obtain ⟨changed, hchanged⟩ :=
      Checkpoint.written_again written (grown s.reading[index] [other] now)
    obtain ⟨final, hfollow, hfile⟩ := append_after_keep index sound civil
      (List.cons_ne_nil other []) (List.getElem?_eq_getElem hindex) hchanged
    have hfit : Fit fits [.keep index, .append [other] now civil] := by
      intro entries later hlater hmem
      simp only [List.mem_cons, reduceCtorEq, Use.append.injEq, List.not_mem_nil, or_false,
        false_or] at hmem
      rw [hmem.1]
      exact other_fits
    obtain ⟨shown, hshown, hproperty⟩ := hkept _ final hfit hfollow
    rw [hfile] at hshown
    cases hshown
    exact shrinks _ now hproperty
  · intro hreading uses final hfit hfollow
    exact (holds_of_follow? sound ⟨file, remembered, hreading⟩ grows hfit hfollow).file

end Keeping

section Entries

variable {checkpoint : Checkpoint} {entries : List CheckpointEntry} {entry other : CheckpointEntry}
  {id : String} {now : Timestamp}

theorem contains_grown :
    (grown checkpoint entries now).contains id = true ↔
      checkpoint.contains id = true ∨ id ∈ entries.map Prod.fst := by
  have hcompleted : (grown checkpoint entries now).completed =
      (checkpoint.recordAll entries).completed := rfl
  simp only [Checkpoint.contains, List.contains_iff_mem, hcompleted,
    Checkpoint.mem_completed_recordAll]

theorem pointer?_grown :
    (grown checkpoint entries now).pointer? id =
      (Keyed.find? entries.reverse id).or (checkpoint.pointer? id) :=
  Checkpoint.pointer?_recordAll checkpoint entries id

/-- Entries that give an item no other pointer. -/
def Agree (entry : CheckpointEntry) (entries : List CheckpointEntry) : Prop :=
  ∀ other ∈ entries, other.1 = entry.1 → other = entry

theorem lists_grown_of_agree
    (agree : Agree entry entries)
    (h : entry ∈ entries ∨ checkpoint.Lists entry) :
    (grown checkpoint entries now).Lists entry := by
  constructor
  · rw [contains_grown]
    exact h.symm.imp (fun hlists => hlists.1) fun hmem => List.mem_map_of_mem hmem
  · rw [pointer?_grown]
    cases hfind : Keyed.find? entries.reverse entry.1 with
    | some pointer =>
        have hmem := List.mem_reverse.mp (Keyed.mem_of_find? hfind)
        rw [← agree (entry.1, pointer) hmem rfl]
        rfl
    | none =>
        rcases h with hmem | hlists
        · have hsome := Keyed.isSome_find? (List.mem_map_of_mem (List.mem_reverse.mpr hmem))
          rw [hfind] at hsome
          cases hsome
        · exact hlists.2

/-- An entry of another item leaves what is listed. -/
theorem lists_of_grown
    (ne : other.1 ≠ entry.1)
    (h : (grown checkpoint [other] now).Lists entry) :
    checkpoint.Lists entry := by
  obtain ⟨hcontains, hpointer⟩ := h
  rw [contains_grown] at hcontains
  rw [pointer?_grown] at hpointer
  have hnone : Keyed.find? [other].reverse entry.1 = none := by
    simp [Keyed.find?, ne]
  rw [hnone] at hpointer
  refine ⟨hcontains.resolve_right fun hmem => ?_, hpointer⟩
  exact ne (List.mem_singleton.mp hmem).symm

/-- An item other than a given one. -/
theorem exists_other
    (entry : CheckpointEntry) :
    ∃ other : CheckpointEntry, other.1 ≠ entry.1 := by
  refine ⟨(entry.1 ++ "x", entry.2), fun h => ?_⟩
  have hlength := congrArg String.length h
  simp at hlength

end Entries

/-- What becomes of an acknowledged entry. -/
structure Acknowledged (s : Shared) (entry : CheckpointEntry) : Prop where
  listed : s.Shows (·.Lists entry)
  /-- Its item stays in the file iff all loads under way have it. -/
  item_kept_iff :
    (∀ uses final, s.follow? uses = some final → final.Shows (·.contains entry.1 = true)) ↔
      ∀ seen ∈ s.reading, seen.contains entry.1 = true
  /-- If no further entry gives the item another pointer, the entry stays in the file iff all loads
  under way have it. -/
  entry_kept_iff :
    (∀ uses final, Fit (Agree entry) uses → s.follow? uses = some final →
        final.Shows (·.Lists entry)) ↔
      ∀ seen ∈ s.reading, seen.Lists entry

theorem acknowledged_of_written
    {before : Tree} {checkpoint : Checkpoint} {s : Shared} {entry : CheckpointEntry}
    {now : Timestamp}
    (sound : Sound s)
    (civil : now.Civil)
    (written : before.performAll (checkpoint.commands s.store.path) = (s.tree, none))
    (file : s.Shows (·.Lists entry))
    (remembered : ∃ checkpoint, s.store.remembered = some checkpoint ∧ checkpoint.Lists entry) :
    Acknowledged s entry := by
  obtain ⟨other, hother⟩ := exists_other entry
  obtain ⟨shown, hshown, hlists⟩ := file
  obtain ⟨known, hknown, hremembered⟩ := remembered
  constructor
  · exact ⟨shown, hshown, hlists⟩
  · have hiff : (∀ uses final, Fit (fun _ => True) uses → s.follow? uses = some final →
        final.Shows (·.contains entry.1 = true)) ↔
          ∀ seen ∈ s.reading, seen.contains entry.1 = true := by
      refine kept_iff other sound civil written ⟨shown, hshown, hlists.1⟩
        ⟨known, hknown, hremembered.1⟩ ?_ trivial ?_
      · exact fun _ _ _ _ hcontains => contains_grown.mpr (.inl hcontains)
      · intro checkpoint later hgrown
        refine (contains_grown.mp hgrown).resolve_right fun hmem => ?_
        exact hother (List.mem_singleton.mp hmem).symm
    refine Iff.trans ⟨?_, ?_⟩ hiff
    · exact fun hkept uses final _ => hkept uses final
    · exact fun hkept uses final => hkept uses final fun _ _ _ _ => trivial
  · refine kept_iff other sound civil written ⟨shown, hshown, hlists⟩ ⟨known, hknown, hremembered⟩
      ?_ ?_ ?_
    · exact fun _ _ _ hagree hold => lists_grown_of_agree hagree (.inr hold)
    · intro single hsingle heq
      rw [List.mem_singleton.mp hsingle] at heq
      exact absurd heq hother
    · exact fun _ _ hgrown => lists_of_grown hother hgrown

/-- The exact condition under which an acknowledged entry is kept. -/
theorem acknowledged_of_appendAll
    {tree changed : Tree} {path : Path} {uses : List Use} {s : Shared} {store : CheckpointStore}
    {entries : List CheckpointEntry} {entry : CheckpointEntry} {now : Timestamp}
    (reached : (opened tree path).follow? uses = some s)
    (civil : now.Civil)
    (ok : s.store.appendAll s.tree entries now = (store, changed, none))
    (mem : entry ∈ entries)
    (agree : Agree entry entries) :
    Acknowledged { s with store, tree := changed } entry := by
  obtain ⟨old, hold, rfl, hwritten⟩ := appendAll_eq_ok ok (List.ne_nil_of_mem mem)
  have hsound := sound_of_follow? (sound_opened tree path) reached
  have hordered := ordered_of_current hsound.remembered hold
  have hnew : (grown old entries now).Lists entry := lists_grown_of_agree agree (.inl mem)
  refine acknowledged_of_written (sound_remember hsound (ordered_grown hordered civil) changed)
    civil hwritten ?_ ⟨_, rfl, hnew⟩
  exact ⟨_, read_of_grown hordered civil hwritten, hnew⟩

/-- The beginning of the calendar's count. -/
def epoch : Timestamp := ⟨0, 0⟩

theorem civil_epoch : epoch.Civil := ⟨by decide, .inl (by decide)⟩

/-- A path without directories. -/
def samplePath : Path := ⟨"checkpoint.json"⟩

/-- An entry of a successful item. -/
def sampleEntry (id : String) : CheckpointEntry := (id, ⟨.success, none⟩)

/-- A load reads the file while it is missing, and remembers that after an entry has been
acknowledged: the next append leaves that entry out. -/
theorem acknowledged_of_overtaken_load :
    ∃ s store changed final,
      (opened {} samplePath).follow? [.read] = some s ∧
      s.store.appendAll s.tree [sampleEntry "a"] epoch = (store, changed, none) ∧
      Acknowledged { s with store, tree := changed } (sampleEntry "a") ∧
      follow? { s with store, tree := changed }
        [.keep 0, .append [sampleEntry "b"] epoch civil_epoch] = some final ∧
      final.Shows fun checkpoint =>
        checkpoint.contains "b" = true ∧ checkpoint.contains "a" = false := by
  have hfirst : (Tree.performAll {}
      ((grown {} [sampleEntry "a"] epoch).commands samplePath)).2 = none := by
    decide +kernel
  obtain ⟨changed, hchanged⟩ : ∃ changed, Tree.performAll {}
      ((grown {} [sampleEntry "a"] epoch).commands samplePath) = (changed, none) :=
    ⟨_, Prod.ext rfl hfirst⟩
  have hread : (opened {} samplePath).follow? [.read] =
      some ⟨{}, { path := samplePath }, [{}]⟩ := rfl
  have hok : appendAll { path := samplePath } {} [sampleEntry "a"] epoch =
      (remember { path := samplePath } (grown {} [sampleEntry "a"] epoch), changed, none) :=
    appendAll_of_written rfl (List.cons_ne_nil (sampleEntry "a") []) hchanged
  have hsound := sound_of_follow? (sound_opened {} samplePath) hread
  obtain ⟨again, hagain⟩ := Checkpoint.written_again hchanged (grown {} [sampleEntry "b"] epoch)
  obtain ⟨final, hfinal, hfile⟩ := append_after_keep 0
    (sound_remember hsound (ordered_grown Checkpoint.ordered_empty civil_epoch) changed)
    civil_epoch (List.cons_ne_nil (sampleEntry "b") []) rfl hagain
  refine ⟨_, _, changed, final, hread, hok, ?_, hfinal, _, hfile, by decide, by decide⟩
  exact acknowledged_of_appendAll hread civil_epoch hok (List.mem_singleton.mpr rfl)
    (by simp [Agree])

end Shared
end CheckpointStore
end BatchRun
