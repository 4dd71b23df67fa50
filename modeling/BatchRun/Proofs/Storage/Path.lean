import BatchRun.Storage.Tree

/-!
# Places of paths

**Types.**
A `FileName` is a text that stands for a single component.  Components are `Regular` if they are
those of some path: the first one may be the root or a dot, and each name is a `FileName`.

**Results.**
* `splitAt_append`: the pieces of a text with a separator inside are those in front of it and those
  behind it.
* `components_join`, `place_join`: a directory that is continued by the name of a file has one more
  component, and a place that ends in it.
* `components_ofComponents`: the path with given components has them.
* `components_parent`: the path around the last component has the others.
-/

namespace BatchRun

open Storage

namespace Storage

section Pieces

variable {separator : Char}

theorem splitAt_ne_nil
    (cs : List Char) :
    splitAt separator cs ≠ [] := by
  cases cs with
  | nil => simp [splitAt]
  | cons c cs =>
      unfold splitAt
      split
      case isTrue => simp
      case isFalse => split <;> simp

theorem splitAt_plain
    {cs : List Char}
    (h : separator ∉ cs) :
    splitAt separator cs = [cs] := by
  induction cs with
  | nil => rfl
  | cons c cs ih =>
      rw [List.mem_cons, not_or] at h
      simp [splitAt, Ne.symm h.1, ih h.2]

theorem splitAt_append
    (front back : List Char) :
    splitAt separator (front ++ separator :: back) =
      splitAt separator front ++ splitAt separator back := by
  induction front with
  | nil => simp [splitAt]
  | cons c front ih =>
      by_cases h : c = separator
      · simp [splitAt, h, ih]
      · cases hpieces : splitAt separator front with
        | nil => exact absurd hpieces (splitAt_ne_nil front)
        | cons piece pieces => simp [splitAt, h, ih, hpieces]

theorem splitAt_intercalate
    {pieces : List (List Char)}
    (plain : ∀ piece ∈ pieces, separator ∉ piece)
    (h : pieces ≠ []) :
    splitAt separator ([separator].intercalate pieces) = pieces := by
  induction pieces with
  | nil => exact absurd rfl h
  | cons piece pieces ih =>
      obtain ⟨hpiece, hpieces⟩ := List.forall_mem_cons.mp plain
      cases pieces with
      | nil =>
          rw [List.intercalate_singleton]
          exact splitAt_plain hpiece
      | cons next pieces =>
          rw [List.intercalate_cons_cons, List.append_assoc, List.singleton_append,
            splitAt_append, splitAt_plain hpiece, ih hpieces (List.cons_ne_nil next pieces)]
          rfl

/-- No piece has a separator. -/
theorem not_mem_of_mem_splitAt
    {cs piece : List Char}
    (h : piece ∈ splitAt separator cs) :
    separator ∉ piece := by
  induction cs generalizing piece with
  | nil =>
      cases List.mem_singleton.mp h
      exact List.not_mem_nil
  | cons c cs ih =>
      unfold splitAt at h
      split at h
      case isTrue =>
          rcases List.mem_cons.mp h with rfl | hpiece
          · exact List.not_mem_nil
          · exact ih hpiece
      case isFalse hc =>
          split at h
          case h_1 =>
              cases List.mem_singleton.mp h
              simpa using Ne.symm hc
          case h_2 first pieces hpieces =>
              rcases List.mem_cons.mp h with rfl | hpiece
              · have hfirst : separator ∉ first :=
                  ih (hpieces ▸ List.mem_cons_self)
                simpa using ⟨Ne.symm hc, hfirst⟩
              · exact ih (hpieces ▸ List.mem_cons_of_mem first hpiece)

theorem splitAt_eq_singleton_nil
    {cs : List Char}
    (h : splitAt separator cs = [[]]) :
    cs = [] := by
  cases cs with
  | nil => rfl
  | cons c cs =>
      unfold splitAt at h
      split at h
      case isTrue => exact absurd (List.cons.inj h).2 (splitAt_ne_nil cs)
      case isFalse =>
          split at h
          case h_1 => exact absurd (List.cons.inj h).1 (List.cons_ne_nil c [])
          case h_2 first pieces _ => exact absurd (List.cons.inj h).1 (List.cons_ne_nil c first)

end Pieces

end Storage

namespace Path

/-- A text that is a single component. -/
structure FileName (name : String) : Prop where
  no_slash : '/' ∉ name.toList
  filled : name.toList ≠ []
  not_here : name.toList ≠ ['.']
  not_up : name.toList ≠ ['.', '.']

/-- Component of a piece behind the first one. -/
def component? (piece : List Char) : Option Component :=
  if piece = [] ∨ piece = ['.'] then none
  else if piece = ['.', '.'] then some .up
  else some (.name (String.ofList piece))

theorem component?_of_fileName
    {name : String}
    (h : FileName name) :
    component? name.toList = some (.name name) := by
  simp [component?, h.filled, h.not_here, h.not_up]

/-- Components of the first piece. -/
def start (piece : List Char) : List Component :=
  if piece = [] then [.root] else if piece = ['.'] then [.here] else (component? piece).toList

theorem start_of_plain
    {piece : List Char}
    (filled : piece ≠ [])
    (not_here : piece ≠ ['.']) :
    start piece = (component? piece).toList := by
  rw [start, if_neg filled, if_neg not_here]

theorem components_of_pieces
    {text : String} {piece : List Char} {pieces : List (List Char)}
    (h : splitAt '/' text.toList = piece :: pieces)
    (filled : text.toList ≠ []) :
    components ⟨text⟩ = start piece ++ pieces.filterMap component? := by
  unfold components
  simp only [h]
  split
  case h_1 heq => cases heq
  case h_2 heq => exact absurd (splitAt_eq_singleton_nil (h.trans heq)) filled
  case h_3 rest _ heq =>
      obtain ⟨rfl, rfl⟩ := List.cons.inj heq
      rfl
  case h_4 rest heq =>
      obtain ⟨rfl, rfl⟩ := List.cons.inj heq
      rfl
  case h_5 hroot hroots hhere =>
      have hnil : piece ≠ [] := by
        rintro rfl
        cases pieces with
        | nil => exact hroot rfl
        | cons next pieces => exact hroots (next :: pieces) rfl
      have hdot : piece ≠ ['.'] := by
        rintro rfl
        exact hhere pieces rfl
      have hfirst : (piece :: pieces).filterMap component? =
          (component? piece).toList ++ pieces.filterMap component? := by
        cases hpiece : component? piece with
        | none => simp [hpiece]
        | some component => simp [hpiece]
      rw [start_of_plain hnil hdot]
      exact hfirst

/-- What follows a slash adds its components. -/
theorem components_slash
    {front : List Char}
    (back : List Char)
    (h : front ≠ []) :
    components ⟨String.ofList (front ++ '/' :: back)⟩ =
      components ⟨String.ofList front⟩ ++ (splitAt '/' back).filterMap component? := by
  have hne : splitAt '/' front ≠ [] := splitAt_ne_nil front
  obtain ⟨piece, pieces, hfront⟩ := List.exists_cons_of_ne_nil hne
  have hshort : splitAt '/' (String.ofList front).toList = piece :: pieces := by
    rw [String.toList_ofList, hfront]
  have hlong : splitAt '/' (String.ofList (front ++ '/' :: back)).toList =
      piece :: (pieces ++ splitAt '/' back) := by
    rw [String.toList_ofList, splitAt_append, hfront, List.cons_append]
  rw [components_of_pieces hshort (by simpa using h), components_of_pieces hlong (by simp),
    List.filterMap_append, List.append_assoc]

theorem components_root
    (back : List Char) :
    components ⟨String.ofList ('/' :: back)⟩ =
      .root :: (splitAt '/' back).filterMap component? := by
  have hpieces : splitAt '/' (String.ofList ('/' :: back)).toList = [] :: splitAt '/' back := by
    simp [splitAt]
  rw [components_of_pieces hpieces (by simp)]
  rfl

theorem components_name
    {name : String}
    (h : FileName name) :
    components ⟨name⟩ = [.name name] := by
  rw [components_of_pieces (splitAt_plain h.no_slash) h.filled,
    start_of_plain h.filled h.not_here, component?_of_fileName h]
  rfl

theorem isAbsolute_of_fileName
    {name : String}
    (h : FileName name) :
    isAbsolute ⟨name⟩ = false := by
  unfold isAbsolute
  cases hname : name.toList with
  | nil => rfl
  | cons c cs =>
      have hne : c ≠ '/' := fun heq => h.no_slash (by simp [hname, heq])
      simpa using hne

/-- A directory that is continued by the name of a file has one more component. -/
theorem components_join
    {name : String}
    (directory : Path)
    (h : FileName name) :
    (directory.join ⟨name⟩).components = directory.components ++ [.name name] := by
  have hpiece : (splitAt '/' name.toList).filterMap component? = [.name name] := by
    rw [splitAt_plain h.no_slash]
    simp [component?_of_fileName h]
  unfold join
  rw [isAbsolute_of_fileName h, Bool.false_or]
  split
  case isTrue hempty =>
      have htext : directory = ⟨""⟩ := by
        cases directory
        exact congrArg Path.mk (by simpa using hempty)
      rw [htext]
      exact components_name h
  case isFalse hfilled =>
      have hne : directory.text.toList ≠ [] := by simpa using hfilled
      split
      case isTrue hslash =>
          obtain ⟨front, hfront⟩ := List.getLast?_eq_some_iff.mp (beq_iff_eq.mp hslash)
          have hold : directory = ⟨String.ofList (front ++ '/' :: [])⟩ := by
            cases directory
            exact congrArg Path.mk (by rw [← String.toList_inj, hfront, String.toList_ofList])
          have hnew : directory.text ++ name = String.ofList (front ++ '/' :: name.toList) := by
            rw [← String.toList_inj]
            simp [hfront]
          have hnone : (splitAt '/' []).filterMap component? = [] := by
            simp [splitAt, component?]
          rw [hnew, hold]
          by_cases hroot : front = []
          · rw [hroot, List.nil_append, List.nil_append, components_root, components_root, hpiece,
              hnone]
            rfl
          · rw [components_slash _ hroot, components_slash _ hroot, hpiece, hnone, List.append_nil]
      case isFalse =>
          have hold : directory = ⟨String.ofList directory.text.toList⟩ := by
            rw [String.ofList_toList]
          have hnew : directory.text ++ "/" ++ name =
              String.ofList (directory.text.toList ++ '/' :: name.toList) := by
            rw [← String.toList_inj]
            simp
          rw [hnew, components_slash _ hne, hpiece, ← hold]

/-- A directory that is continued by the name of a file has a place that ends in it. -/
theorem place_join
    {name : String}
    (directory : Path)
    (h : FileName name) :
    ∃ above, (directory.join ⟨name⟩).place = above ++ [name] := by
  unfold place
  rw [components_join directory h, List.foldl_append]
  exact ⟨_, rfl⟩

/-- Files with different names lie at different places. -/
theorem place_join_ne
    {name other : String}
    (directory : Path)
    (h : FileName name)
    (h' : FileName other)
    (ne : name ≠ other) :
    (directory.join ⟨name⟩).place ≠ (directory.join ⟨other⟩).place := by
  obtain ⟨above, habove⟩ := place_join directory h
  obtain ⟨front, hfront⟩ := place_join directory h'
  rw [habove, hfront]
  intro heq
  exact ne (List.singleton_inj.mp (List.append_inj' heq rfl).2)

theorem ending_join
    {name : String}
    (directory : Path)
    (h : FileName name) :
    (directory.join ⟨name⟩).ending = .name := by
  obtain ⟨front, hfront⟩ : ∃ front, (directory.join ⟨name⟩).text.toList = front ++ name.toList ∧
      (front = [] ∨ ∃ before, front = before ++ ['/']) := by
    unfold join
    rw [isAbsolute_of_fileName h, Bool.false_or]
    split
    case isTrue => exact ⟨[], rfl, .inl rfl⟩
    case isFalse =>
        split
        case isTrue hslash =>
            obtain ⟨before, hbefore⟩ := List.getLast?_eq_some_iff.mp (beq_iff_eq.mp hslash)
            exact ⟨directory.text.toList, by simp, .inr ⟨before, hbefore⟩⟩
        case isFalse => exact ⟨directory.text.toList ++ ['/'], by simp, .inr ⟨_, rfl⟩⟩
  obtain ⟨htext, hslash⟩ := hfront
  have hpieces : ∃ pieces, splitAt '/' (front ++ name.toList) = pieces ++ [name.toList] := by
    rcases hslash with rfl | ⟨before, rfl⟩
    · exact ⟨[], splitAt_plain h.no_slash⟩
    · refine ⟨splitAt '/' before, ?_⟩
      rw [List.append_assoc, List.singleton_append, splitAt_append, splitAt_plain h.no_slash]
  obtain ⟨pieces, hpieces⟩ := hpieces
  have hlast : ((pieces ++ [name.toList]).filter (· ≠ [])).getLast? = some name.toList := by
    simp [List.filter_append, h.filled]
  have hend : ¬ ((front ++ name.toList).getLast? == some '/') = true := by
    rw [beq_iff_eq, List.getLast?_append, List.getLast?_eq_some_getLast h.filled]
    intro heq
    exact h.no_slash (Option.some.inj heq ▸ List.getLast_mem h.filled)
  have hdots : ¬ (name.toList = ['.'] ∨ name.toList = ['.', '.']) :=
    not_or.mpr ⟨h.not_here, h.not_up⟩
  unfold ending
  rw [htext, hpieces, hlast]
  exact (if_neg hdots).trans (if_neg hend)

/-- A path that ends with a name is not empty. -/
theorem filled_of_ending
    {path : Path}
    (h : path.ending = .name) :
    path.text.isEmpty = false := by
  cases htext : path.text.isEmpty with
  | false => rfl
  | true =>
      have hempty : path.text = "" := by simpa using htext
      unfold ending at h
      rw [hempty] at h
      exact absurd h (by decide)

section Parents

variable {component : Component} {components : List Component}

/-- A component that may stand behind others. -/
inductive Inner : Component → Prop
  | up : Inner .up
  | name {text : String} (h : FileName text) : Inner (.name text)

/-- A component that may be the first one. -/
inductive First : Component → Prop
  | root : First .root
  | here : First .here
  | inner {component : Component} (h : Inner component) : First component

/-- Components of some path. -/
def Regular : List Component → Prop
  | [] => True
  | component :: components => First component ∧ ∀ next ∈ components, Inner next

theorem inner_of_component?
    {piece : List Char}
    (plain : '/' ∉ piece)
    (h : component? piece = some component) :
    Inner component := by
  unfold component? at h
  split at h
  case isTrue => cases h
  case isFalse hfilled =>
      split at h
      case isTrue =>
          cases h
          exact .up
      case isFalse hup =>
          cases h
          refine .name ⟨?_, ?_, ?_, ?_⟩ <;> rw [String.toList_ofList]
          · exact plain
          · exact fun hnil => hfilled (.inl hnil)
          · exact fun hdot => hfilled (.inr hdot)
          · exact hup

theorem regular_components
    (path : Path) :
    Regular path.components := by
  by_cases hempty : path.text.toList = []
  · have hnone : path.components = [] := by
      unfold Path.components
      rw [hempty]
      rfl
    rw [hnone]
    exact trivial
  have hne : splitAt '/' path.text.toList ≠ [] := splitAt_ne_nil _
  obtain ⟨piece, pieces, hpieces⟩ := List.exists_cons_of_ne_nil hne
  have hinner : ∀ next ∈ pieces.filterMap component?, Inner next := by
    intro next hnext
    obtain ⟨other, hother, heq⟩ := List.mem_filterMap.mp hnext
    have hmem : other ∈ splitAt '/' path.text.toList :=
      hpieces ▸ List.mem_cons_of_mem piece hother
    exact inner_of_component? (not_mem_of_mem_splitAt hmem) heq
  have hcomponents : path.components = start piece ++ pieces.filterMap component? :=
    components_of_pieces hpieces hempty
  rw [hcomponents]
  unfold start
  split
  case isTrue => exact ⟨.root, hinner⟩
  case isFalse =>
      split
      case isTrue => exact ⟨.here, hinner⟩
      case isFalse =>
          cases hpiece : component? piece with
          | none =>
              cases hrest : pieces.filterMap component? with
              | nil => exact trivial
              | cons next rest =>
                  rw [hrest, List.forall_mem_cons] at hinner
                  exact ⟨.inner hinner.1, hinner.2⟩
          | some component =>
              have hmem : piece ∈ splitAt '/' path.text.toList := hpieces ▸ List.mem_cons_self
              exact ⟨.inner (inner_of_component? (not_mem_of_mem_splitAt hmem) hpiece), hinner⟩

theorem fileName_of_mem
    {path : Path} {name : String}
    (h : .name name ∈ path.components) :
    FileName name := by
  have hregular := regular_components path
  have hinner : Inner (.name name) := by
    cases hcomponents : path.components with
    | nil =>
        rw [hcomponents] at h
        cases h
    | cons component components =>
        rw [hcomponents] at h hregular
        rcases List.mem_cons.mp h with rfl | hrest
        · cases hregular.1 with
          | inner hinner => exact hinner
        · exact hregular.2 _ hrest
  cases hinner with
  | name h => exact h

/-- The name of a file is the last component of its path. -/
theorem components_of_fileName?
    {path : Path} {name : String}
    (h : path.fileName? = some name) :
    path.components = path.components.dropLast ++ [.name name] := by
  unfold fileName? at h
  split at h
  case h_1 text hlast =>
      cases h
      obtain ⟨front, hfront⟩ := List.getLast?_eq_some_iff.mp hlast
      rw [hfront, List.dropLast_concat]
  case h_2 => cases h

theorem regular_of_append
    {front back : List Component}
    (h : Regular (front ++ back)) :
    Regular front := by
  cases front with
  | nil => exact trivial
  | cons component front =>
      exact ⟨h.1, fun next hnext => h.2 next (List.mem_append_left back hnext)⟩

theorem component?_of_inner
    (h : Inner component) :
    '/' ∉ component.text.toList ∧ component? component.text.toList = some component := by
  cases h with
  | up => exact ⟨by decide, by decide⟩
  | name h => exact ⟨h.no_slash, component?_of_fileName h⟩

theorem start_of_first
    (h : First component) :
    '/' ∉ component.text.toList ∧ start component.text.toList = [component] := by
  cases h with
  | root => exact ⟨by decide, by decide⟩
  | here => exact ⟨by decide, by decide⟩
  | inner h =>
      obtain ⟨hplain, hcomponent⟩ := component?_of_inner h
      refine ⟨hplain, ?_⟩
      cases h with
      | up => decide
      | @name text h =>
          have hstart : start text.toList = (component? text.toList).toList :=
            start_of_plain h.filled h.not_here
          exact hstart.trans (congrArg Option.toList hcomponent)

theorem filterMap_texts
    (h : ∀ next ∈ components, Inner next) :
    (components.map fun next => next.text.toList).filterMap component? = components := by
  induction components with
  | nil => rfl
  | cons component components ih =>
      obtain ⟨hfirst, hrest⟩ := List.forall_mem_cons.mp h
      rw [List.map_cons, List.filterMap_cons_some (component?_of_inner hfirst).2, ih hrest]

theorem plain_of_inner
    (h : ∀ next ∈ components, Inner next) :
    ∀ piece ∈ components.map (fun next => next.text.toList), '/' ∉ piece := by
  intro piece hpiece
  obtain ⟨next, hnext, rfl⟩ := List.mem_map.mp hpiece
  exact (component?_of_inner (h next hnext)).1

/-- Below the root, the text is a slash and the names with slashes between them. -/
theorem components_ofComponents_root
    (hinner : ∀ next ∈ components, Inner next) :
    (ofComponents (.root :: components)).components = .root :: components := by
  have hslash : ("/" : String).toList = ['/'] := rfl
  have htext : ofComponents (.root :: components) =
      ⟨String.ofList ('/' :: ['/'].intercalate (components.map fun next => next.text.toList))⟩ := by
    refine congrArg Path.mk ?_
    rw [← String.toList_inj, String.toList_append, String.toList_intercalate, List.map_map,
      hslash, String.toList_ofList]
    rfl
  rw [htext, components_root]
  cases components with
  | nil => decide
  | cons next components =>
      rw [splitAt_intercalate (plain_of_inner hinner) (by simp), filterMap_texts hinner]

/-- Elsewhere, the text is that of the components with slashes between them. -/
theorem components_ofComponents_of_first
    {component : Component}
    (hfirst : First component)
    (hroot : component ≠ .root)
    (hinner : ∀ next ∈ components, Inner next) :
    (ofComponents (component :: components)).components = component :: components := by
  obtain ⟨hplain, hstart⟩ := start_of_first hfirst
  obtain ⟨text, htext, hlist⟩ : ∃ text, ofComponents (component :: components) = ⟨text⟩ ∧
      text.toList =
        ['/'].intercalate ((component :: components).map fun next => next.text.toList) := by
    refine ⟨"/".intercalate ((component :: components).map Component.text), ?_, ?_⟩
    · cases component with
      | root => exact absurd rfl hroot
      | here | up | name text => rfl
    · rw [String.toList_intercalate, List.map_map]
      rfl
  have hpieces : splitAt '/' text.toList =
      component.text.toList :: components.map fun next => next.text.toList := by
    rw [hlist]
    refine splitAt_intercalate ?_ (by simp)
    rw [List.map_cons, List.forall_mem_cons]
    exact ⟨hplain, plain_of_inner hinner⟩
  have hfilled : component.text.toList ≠ [] := by
    intro hnil
    rw [hnil] at hstart
    exact hroot (List.cons.inj hstart).1.symm
  have hne : text.toList ≠ [] := by
    intro hnil
    rw [hnil] at hpieces
    exact hfilled (List.cons.inj hpieces).1.symm
  rw [htext, components_of_pieces hpieces hne, hstart, filterMap_texts hinner]
  rfl

/-- The path with given components has them. -/
theorem components_ofComponents
    (h : Regular components) :
    (ofComponents components).components = components := by
  cases components with
  | nil => rfl
  | cons component components =>
      obtain ⟨hfirst, hinner⟩ := h
      by_cases hroot : component = .root
      · rw [hroot, components_ofComponents_root hinner]
      · exact components_ofComponents_of_first hfirst hroot hinner

/-- The path around the last component has the others. -/
theorem components_parent
    {path parent : Path}
    (h : path.parent? = some parent) :
    parent.components = path.components.dropLast := by
  unfold parent? at h
  split at h
  case h_1 => cases h
  case h_2 => cases h
  case h_3 last rest _ hreverse =>
      cases h
      have hcomponents : path.components = rest.reverse ++ [last] := by
        rw [← List.reverse_reverse path.components, hreverse, List.reverse_cons]
      have hregular := regular_components path
      rw [hcomponents] at hregular
      rw [components_ofComponents (regular_of_append hregular), hcomponents, List.dropLast_concat]

end Parents

end Path
end BatchRun
