import ZoomConfig.Proofs.Input.Parsing
import ZoomConfig.Proofs.Zoom.Resolution
/-!
What an input tree means at a zoom level.

`follow` reads an `input` value without resolving it: it goes from group to group along names, and
wherever a mapping has conditions for keys it goes on with the value of the first true one (`select`).
For values in which every mapping is either a group or such a switch (`Shaped`), the tree that is
resolved, parsed and flattened has exactly the leaves that are found this way, and its paths do not
depend on the zoom level where no group stands beneath a condition (`flatten_meaning`).
-/
namespace ZoomConfig.InputTree

open Forest Node Outcome

/-! ## Following names -/

/-- Is a mapping a choice between values by conditions? -/
def isSwitch (entries : List (Value × Value)) : Bool :=
  !Mapping.contains entries formatKey && !entries.isEmpty &&
    entries.all fun e => (condition? e.1).isSome

mutual

/-- What a value stands for at a zoom level: a switch stands for the value of its first true
condition, and for nothing if none is true. -/
def select (zoom : Nat) : Value → Option Value
  | .mapping entries =>
    if isSwitch entries then selectFirst zoom entries else some (.mapping entries)
  | v => some v

/-- What the first entry with a true condition stands for. -/
def selectFirst (zoom : Nat) : List (Value × Value) → Option Value
  | [] => none
  | (k, v) :: rest => if entryHolds zoom (k, v) then select zoom v else selectFirst zoom rest

end

/-- The value at a name of a group. -/
def child? (name : String) : Value → Option Value
  | .mapping entries =>
    if Mapping.contains entries formatKey then none
    else (entries.find? fun e => plainName? e.1 = some name).map (·.2)
  | _ => none

/-- What stands at the end of names at a zoom level, `some none` if this is nothing, `none` if the
names lead nowhere. -/
def follow (zoom : Nat) : List String → Value → Option (Option Value)
  | [], v => some (select zoom v)
  | name :: rest, v => ((select zoom v).bind (child? name)).bind (follow zoom rest)

/-- A text or a mapping with a format declares an input. -/
inductive Declares : Value → Declaration → Prop where
  | path (text : String) : Declares (.string text) (.path text)
  | entries {entries : List (Value × Value)} (h : Mapping.contains entries formatKey = true) :
    Declares (.mapping entries) (.entries entries)

/-- Nothing, null and the empty mapping declare none. -/
inductive Unbound : Option Value → Prop where
  | nothing : Unbound none
  | null : Unbound (some .null)
  | empty : Unbound (some (.mapping []))

/-- Every mapping is a declaration, a group or a switch. -/
inductive Shaped : Value → Prop where
  | declaration {entries : List (Value × Value)} (h : Mapping.contains entries formatKey = true) :
    Shaped (.mapping entries)
  | group {entries : List (Value × Value)} (keys : PlainKeys entries)
    (each : ∀ e ∈ entries, Shaped e.2) : Shaped (.mapping entries)
  | switch {entries : List (Value × Value)} (keys : ZoomKeys entries)
    (each : ∀ e ∈ entries, Shaped e.2) : Shaped (.mapping entries)
  | other {v : Value} (h : ∀ entries, v ≠ .mapping entries) : Shaped v

/-- There are only declarations and switches, and no group but empty ones. -/
inductive Groupless : Value → Prop where
  | declaration {entries : List (Value × Value)} (h : Mapping.contains entries formatKey = true) :
    Groupless (.mapping entries)
  | switch {entries : List (Value × Value)} (keys : ZoomKeys entries)
    (each : ∀ e ∈ entries, Groupless e.2) : Groupless (.mapping entries)
  | other {v : Value} (h : ∀ entries, v ≠ .mapping entries) : Groupless v

/-- No group but empty ones stands beneath a condition. -/
inductive FixedGroups : Value → Prop where
  | declaration {entries : List (Value × Value)} (h : Mapping.contains entries formatKey = true) :
    FixedGroups (.mapping entries)
  | group {entries : List (Value × Value)} (keys : PlainKeys entries)
    (each : ∀ e ∈ entries, FixedGroups e.2) : FixedGroups (.mapping entries)
  | switch {entries : List (Value × Value)} (keys : ZoomKeys entries)
    (each : ∀ e ∈ entries, Groupless e.2) : FixedGroups (.mapping entries)
  | other {v : Value} (h : ∀ entries, v ≠ .mapping entries) : FixedGroups v

/-! ## One step -/

section Steps

variable {zoom : Nat} {entries : List (Value × Value)}

theorem selectFirst_eq (entries : List (Value × Value)) :
    selectFirst zoom entries = (entries.find? (entryHolds zoom)).bind (select zoom ·.2) := by
  induction entries with
  | nil => rfl
  | cons e rest ih => by_cases h : entryHolds zoom e = true <;> simp [selectFirst, h, ih]

theorem isSwitch_of (plain : Mapping.contains entries formatKey = false) (keys : ZoomKeys entries)
    (some : entries ≠ []) : isSwitch entries = true := by
  simpa [isSwitch, plain, some] using fun k v mem => keys (k, v) mem

theorem not_isSwitch (keys : PlainKeys entries) : isSwitch entries = false := by
  cases entries with
  | nil => simp [isSwitch]
  | cons e rest =>
    obtain ⟨name, hname, _⟩ := keys.1 e List.mem_cons_self
    have plain := (plainName?_eq_some hname).2
    have : condition? e.1 = none := by
      cases hc : condition? e.1 with
      | none => rfl
      | some c =>
        obtain ⟨name', hname', hkey⟩ := condition?_eq_some hc
        obtain rfl : name = name' := by simpa [(plainName?_eq_some hname).1] using hname'
        simp [plain] at hkey
    simp [isSwitch, this]

theorem select_group (keys : PlainKeys entries) :
    select zoom (.mapping entries) = some (.mapping entries) := by
  simp [select, not_isSwitch keys]

theorem follow_switch (plain : Mapping.contains entries formatKey = false)
    (keys : ZoomKeys entries) {e : Value × Value}
    (chosen : entries.find? (entryHolds zoom) = some e) (names : List String) :
    follow zoom names (.mapping entries) = follow zoom names e.2 := by
  have some : entries ≠ [] := by
    intro eq
    subst eq
    simp at chosen
  have same : select zoom (.mapping entries) = select zoom e.2 := by
    simp [select, isSwitch_of plain keys some, selectFirst_eq, chosen]
  cases names <;> simp [follow, same]

theorem follow_group (plain : Mapping.contains entries formatKey = false)
    (keys : PlainKeys entries) (name : String) (rest : List String) :
    follow zoom (name :: rest) (.mapping entries) =
      ((entries.find? fun e => plainName? e.1 = some name).map (·.2)).bind (follow zoom rest) := by
  simp [follow, select_group keys, child?, plain]

theorem parse_of_shaped {v : Value} (shaped : Shaped v) : ∃ node, Node.parse v = .ok node := by
  induction shaped with
  | declaration h => exact ⟨_, by rw [Node.parse, if_pos h]⟩
  | group keys _ ih =>
    refine parse_of_keys (fun e mem => .inl ?_) ih
    obtain ⟨name, hname, _⟩ := keys.1 e mem
    simp [hname]
  | switch keys _ ih => exact parse_of_keys (fun e mem => .inr (keys e mem)) ih
  | other h => exact ⟨_, parse_other h⟩

end Steps

/-! ## What is read -/

section Reading

variable {zoom : Nat} {entries : List (Value × Value)} {v : Value} {name : String}
  {t : Tree (Option Declaration)}

/-- A node is read from what is left of a value among the inputs. -/
def Reads (zoom : Nat) (v : Value) (name : String) (t : Tree (Option Declaration)) : Prop :=
  ∃ node, Node.parse v = .ok node ∧ ofValue name ((node.resolve zoom true).getD .null) = .ok t

theorem reads_declaration (h : Mapping.contains entries formatKey = true)
    (reads : Reads zoom (.mapping entries) name t) : t = .leaf (some (.entries entries)) := by
  obtain ⟨node, hnode, ht⟩ := reads
  obtain rfl : .terminal entries = node := by simpa [Node.parse, h] using hnode
  simpa [resolve, ofValue, h] using ht.symm

theorem reads_empty (reads : Reads zoom (.mapping []) name t) : t = .leaf none := by
  obtain ⟨node, hnode, ht⟩ := reads
  obtain ⟨children, hchildren, rfl⟩ := parse_plain rfl hnode
  cases hchildren
  cases ht
  rfl

/-- From a switch the value of the first true condition is read, and an unbound leaf if there is
none. -/
theorem reads_switch (plain : Mapping.contains entries formatKey = false) (keys : ZoomKeys entries)
    (reads : Reads zoom (.mapping entries) name t) :
    match entries.find? (entryHolds zoom) with
    | none => t = .leaf none
    | some e => Reads zoom e.2 name t := by
  obtain ⟨node, hnode, ht⟩ := reads
  obtain ⟨children, hchildren, rfl⟩ := parse_plain plain hnode
  have left := resolve_switch zoom true keys hchildren
  rw [resolve] at ht
  cases hfind : entries.find? (entryHolds zoom) with
  | none =>
    simp only [hfind] at left
    rw [left] at ht
    cases ht
    rfl
  | some e =>
    simp only [hfind] at left
    obtain ⟨chosen, hchosen, same⟩ := left
    rw [same] at ht
    exact ⟨chosen, hchosen, ht⟩

/-- The nodes of a group have its names, and each is read from the value of an entry. -/
structure GroupRead (zoom : Nat) (entries : List (Value × Value))
    (read : List (String × Tree (Option Declaration))) : Prop where
  names : read.map (fun x => some x.1) = entries.map fun e => plainName? e.1
  each : ∀ x ∈ read, ∃ e ∈ entries, plainName? e.1 = some x.1 ∧ Reads zoom e.2 x.1 x.2

theorem readEntries_group : ∀ {entries : List (Value × Value)} {children : List (NodeKey × Node)}
    {read : List (String × Tree (Option Declaration))}, PlainKeys entries →
    parseChildren entries = .ok children →
    readEntries ((groupEntries zoom children).map fun e => (.string e.1, e.2)) = .ok read →
    GroupRead zoom entries read
  | [], _, _, _, hchildren, hread => by
    cases hchildren
    cases hread
    exact ⟨rfl, by simp⟩
  | (k, v) :: rest, _, _, keys, hchildren, hread => by
    obtain ⟨name, hname, _⟩ := keys.1 (k, v) List.mem_cons_self
    obtain ⟨node, others, hnode, hothers, rfl⟩ := parseChildren_plain hchildren hname
    obtain ⟨name', t, read', hname', ht, hread', rfl⟩ := readEntries_cons hread
    obtain rfl : name = name' := by simpa [keyText] using hname'
    obtain ⟨names, each⟩ := readEntries_group keys.tail hothers hread'
    refine ⟨by simp [hname, names], ?_⟩
    intro x mem
    rcases List.mem_cons.mp mem with rfl | mem
    · exact ⟨(k, v), List.mem_cons_self, hname, node, hnode, ht⟩
    · obtain ⟨e, he, h⟩ := each x mem
      exact ⟨e, List.mem_cons_of_mem _ he, h⟩

theorem reads_group (plain : Mapping.contains entries formatKey = false) (keys : PlainKeys entries)
    (nonempty : entries ≠ []) (reads : Reads zoom (.mapping entries) name t) :
    ∃ read, t = .branch (Dict.ofList read) ∧ GroupRead zoom entries read := by
  obtain ⟨node, hnode, ht⟩ := reads
  obtain ⟨children, hchildren, rfl⟩ := parse_plain plain hnode
  rw [resolve, resolve_group keys nonempty hchildren, Option.getD_some, ofValue,
    if_neg (by simp [group_not_declaration keys plain hchildren]), addEntries_nil] at ht
  obtain ⟨_, hnodes, rfl⟩ := map_eq_ok.mp ht
  obtain ⟨read, hread, rfl⟩ := map_eq_ok.mp hnodes
  exact ⟨read, rfl, readEntries_group keys hchildren hread⟩

theorem find?_plainName (keys : PlainKeys entries) {e : Value × Value} (mem : e ∈ entries)
    (h : plainName? e.1 = some name) :
    (entries.find? fun e => plainName? e.1 = some name) = some e := by
  induction entries with
  | nil => simp at mem
  | cons x rest ih =>
    rcases List.mem_cons.mp mem with rfl | mem
    · simp [h]
    · have other : plainName? x.1 ≠ some name := by
        intro same
        exact (List.nodup_cons.mp keys.2).1 (List.mem_map.mpr ⟨e, mem, h.trans same.symm⟩)
      rw [List.find?_cons_of_neg (by simpa using other)]
      exact ih keys.tail mem

theorem GroupRead.child {read : List (String × Tree (Option Declaration))}
    (group : GroupRead zoom entries read) (keys : PlainKeys entries) (name : String) :
    match entries.find? fun e => plainName? e.1 = some name with
    | none => Dict.get? (Dict.ofList read) name = none
    | some e => ∃ child, Dict.get? (Dict.ofList read) name = some child ∧
        Reads zoom e.2 name child := by
  have distinct : (Dict.keys read).Nodup := by
    have := keys.2
    rw [← group.names] at this
    simpa [Dict.keys, List.Nodup, List.pairwise_map] using this
  have single : ∀ t t', (name, t) ∈ read → (name, t') ∈ read → t = t' := by
    intro t t' h h'
    have := (Dict.get?_of_mem distinct h).symm.trans (Dict.get?_of_mem distinct h')
    simpa using this
  split
  · next missing =>
    cases found : Dict.get? (Dict.ofList read) name with
    | none => rfl
    | some child =>
      obtain ⟨e, he, hname, _⟩ := group.each _ ((Dict.get?_ofList_iff single child).mp found)
      rw [find?_plainName keys he hname] at missing
      cases missing
  · next e found =>
    have here : plainName? e.1 = some name := by simpa using List.find?_some found
    have mem : some name ∈ read.map fun x => some x.1 := by
      rw [group.names, ← here]
      exact List.mem_map.mpr ⟨e, List.mem_of_find?_eq_some found, rfl⟩
    obtain ⟨⟨_, child⟩, hchild, same⟩ := List.mem_map.mp mem
    obtain rfl := Option.some.inj same
    obtain ⟨e', he', hname, reads⟩ := group.each _ hchild
    rw [find?_plainName keys he' hname, Option.some.injEq] at found
    subst found
    exact ⟨child, (Dict.get?_ofList_iff single child).mpr hchild, reads⟩

/-! ## All names -/

/-- The value of a leaf at the end of names. -/
def leafAt (t : Tree (Option Declaration)) (names : List String) : Option (Option Declaration) :=
  (t.at? names).bind Tree.asLeaf?

/-- The leaf that a value makes; a group makes none. -/
def leafOf : Option Value → Option (Option Declaration)
  | none | some .null => some none
  | some (.string text) => some (some (.path text))
  | some (.mapping entries) =>
    if Mapping.contains entries formatKey then some (some (.entries entries))
    else if entries.isEmpty then some none
    else none
  | some _ => none

theorem leafOf_declared {u : Option Value} {d : Declaration} :
    leafOf u = some (some d) ↔ ∃ v, u = some v ∧ Declares v d := by
  constructor
  · intro h
    unfold leafOf at h
    split at h
    · cases h
    · cases h
    · cases h
      exact ⟨_, rfl, .path _⟩
    · split at h
      · next declaration =>
        cases h
        exact ⟨_, rfl, .entries declaration⟩
      · split at h <;> cases h
    · cases h
  · intro given
    obtain ⟨_, rfl, hd⟩ := given
    cases hd with
    | path text => rfl
    | entries declaration => simp [leafOf, declaration]

theorem leafOf_unbound {u : Option Value} : leafOf u = some none ↔ Unbound u := by
  constructor
  · intro h
    unfold leafOf at h
    split at h
    · exact .nothing
    · exact .null
    · cases h
    · split at h
      · cases h
      · split at h
        · next empty =>
          obtain rfl := List.isEmpty_iff.mp empty
          exact .empty
        · cases h
    · cases h
  · intro h
    cases h <;> rfl

theorem leafAt_leaf (x : Option Declaration) (names : List String) :
    leafAt (.leaf x) names = if names = [] then some x else none := by
  cases names <;> rfl

theorem leafAt_branch (f : Forest (Option Declaration)) (name : String) (rest : List String) :
    leafAt (.branch f) (name :: rest) = (Dict.get? f name).bind (leafAt · rest) := by
  rw [leafAt, Tree.at?, getSegments?_cons, Option.bind_assoc]
  rfl

theorem follow_leaf {x : Option Declaration} (here : leafOf (select zoom v) = some x)
    (dead : ∀ name, (select zoom v).bind (child? name) = none) (names : List String) :
    leafAt (.leaf x) names = (follow zoom names v).bind leafOf := by
  cases names with
  | nil => simp [leafAt_leaf, follow, here]
  | cons name rest => simp [leafAt_leaf, follow, dead]

/-- A tree is clean and holds what is found along names in a value. -/
structure Means (zoom : Nat) (v : Value) (t : Tree (Option Declaration)) : Prop where
  clean : t.Clean
  leaves : ∀ names, leafAt t names = (follow zoom names v).bind leafOf

theorem means_declaration (h : Mapping.contains entries formatKey = true)
    (reads : Reads zoom (.mapping entries) name t) : Means zoom (.mapping entries) t := by
  obtain rfl := reads_declaration h reads
  exact ⟨trivial, follow_leaf (by simp [select, isSwitch, leafOf, h])
    (by simp [select, isSwitch, child?, h])⟩

theorem means_empty (reads : Reads zoom (.mapping []) name t) : Means zoom (.mapping []) t := by
  obtain rfl := reads_empty reads
  exact ⟨trivial, follow_leaf rfl fun _ => rfl⟩

theorem means_group (plain : Mapping.contains entries formatKey = false) (keys : PlainKeys entries)
    (nonempty : entries ≠ []) (each : ∀ e ∈ entries, ∀ {name : String}
      {t : Tree (Option Declaration)}, Reads zoom e.2 name t → Means zoom e.2 t)
    (reads : Reads zoom (.mapping entries) name t) : Means zoom (.mapping entries) t := by
  obtain ⟨read, rfl, group⟩ := reads_group plain keys nonempty reads
  constructor
  · refine clean_of ?_ (Dict.sorted_ofList read).nodup
    intro x mem
    obtain ⟨e, he, hname, readsChild⟩ := group.each x (Dict.mem_ofList mem)
    obtain ⟨name', hname', free⟩ := keys.1 e he
    obtain rfl : x.1 = name' := by simpa [hname] using hname'
    exact ⟨free, (each e he readsChild).clean⟩
  · intro names
    cases names with
    | nil =>
      simp [leafAt, Tree.at?, Tree.asLeaf?, follow, select_group keys, leafOf, plain, nonempty]
    | cons n rest =>
      rw [leafAt_branch, follow_group plain keys]
      have child := group.child keys n
      cases found : entries.find? fun e => plainName? e.1 = some n with
      | none =>
        simp only [found] at child
        simp [child]
      | some e =>
        simp only [found] at child
        obtain ⟨node, hnode, readsChild⟩ := child
        simpa [hnode] using (each e (List.mem_of_find?_eq_some found) readsChild).leaves rest

theorem means_switch (plain : Mapping.contains entries formatKey = false) (keys : ZoomKeys entries)
    (nonempty : entries ≠ []) (each : ∀ e ∈ entries, ∀ {name : String}
      {t : Tree (Option Declaration)}, Reads zoom e.2 name t → Means zoom e.2 t)
    (reads : Reads zoom (.mapping entries) name t) : Means zoom (.mapping entries) t := by
  have chosen := reads_switch plain keys reads
  cases found : entries.find? (entryHolds zoom) with
  | none =>
    simp only [found] at chosen
    subst chosen
    have nothing : select zoom (.mapping entries) = none := by
      simp [select, isSwitch_of plain keys nonempty, selectFirst_eq, found]
    exact ⟨trivial, follow_leaf (by rw [nothing]; rfl) (by simp [nothing])⟩
  | some e =>
    simp only [found] at chosen
    have means := each e (List.mem_of_find?_eq_some found) chosen
    exact ⟨means.clean, fun names => by rw [means.leaves, follow_switch plain keys found]⟩

theorem reads_other (h : ∀ entries, v ≠ .mapping entries) (reads : Reads zoom v name t) :
    ∃ x, t = .leaf x ∧ leafOf (some v) = some x := by
  obtain ⟨node, hnode, ht⟩ := reads
  cases v with
  | mapping entries => exact absurd rfl (h entries)
  | null | string _ =>
    cases hnode
    cases ht
    exact ⟨_, rfl, rfl⟩
  | bool _ | number _ | sequence _ | tagged _ _ =>
    cases hnode
    cases ht

theorem means_other (h : ∀ entries, v ≠ .mapping entries) (reads : Reads zoom v name t) :
    Means zoom v t := by
  obtain ⟨x, rfl, here⟩ := reads_other h reads
  have itself : select zoom v = some v := by
    cases v with
    | mapping entries => exact absurd rfl (h entries)
    | _ => rfl
  refine ⟨trivial, follow_leaf (by rw [itself, here]) ?_⟩
  cases v with
  | mapping entries => exact absurd rfl (h entries)
  | _ => simp [itself, child?]

/-- A declaration and an empty mapping mean what they say, in the place of a group and in that of a
switch. -/
theorem means_mapping (reads : Reads zoom (.mapping entries) name t)
    (others : Mapping.contains entries formatKey = false → entries ≠ [] →
      Means zoom (.mapping entries) t) : Means zoom (.mapping entries) t := by
  by_cases declaration : Mapping.contains entries formatKey = true
  · exact means_declaration declaration reads
  by_cases nonempty : entries = []
  · subst nonempty
    exact means_empty reads
  exact others (by simpa using declaration) nonempty

/-- The tree that is read from a shaped value holds what is found along names. -/
theorem reads_means (shaped : Shaped v) : ∀ {name : String} {t : Tree (Option Declaration)},
    Reads zoom v name t → Means zoom v t := by
  induction shaped with
  | declaration h => exact means_declaration h
  | @group entries keys _ ih =>
    intro name t reads
    exact means_mapping reads fun plain nonempty => means_group plain keys nonempty ih reads
  | @switch entries keys _ ih =>
    intro name t reads
    exact means_mapping reads fun plain nonempty => means_switch plain keys nonempty ih reads
  | other h => exact means_other h

theorem groupless_leaf (h : Groupless v) : ∀ {name : String} {t : Tree (Option Declaration)},
    Reads zoom v name t → ∃ x, t = .leaf x := by
  induction h with
  | declaration h => exact fun reads => ⟨_, reads_declaration h reads⟩
  | @switch entries keys _ ih =>
    intro name t reads
    by_cases h : Mapping.contains entries formatKey = true
    · exact ⟨_, reads_declaration h reads⟩
    have chosen := reads_switch (by simpa using h) keys reads
    cases found : entries.find? (entryHolds zoom) with
    | none =>
      simp only [found] at chosen
      exact ⟨_, chosen⟩
    | some e =>
      simp only [found] at chosen
      exact ih e (List.mem_of_find?_eq_some found) chosen
  | other h =>
    intro name t reads
    obtain ⟨x, rfl, _⟩ := reads_other h reads
    exact ⟨x, rfl⟩

/-- Where groups do not depend on conditions, the trees of two zoom levels have their leaves at the
same names. -/
theorem reads_fixed {zoom' : Nat} (h : FixedGroups v) : ∀ {name name' : String}
    {t t' : Tree (Option Declaration)}, Reads zoom v name t → Reads zoom' v name' t' →
    ∀ names, (leafAt t names).isSome = (leafAt t' names).isSome := by
  have leaves : ∀ (x y : Option Declaration) (names : List String),
      (leafAt (.leaf x) names).isSome = (leafAt (.leaf y) names).isSome := by
    intro x y names
    rw [leafAt_leaf, leafAt_leaf]
    split <;> rfl
  have groupless : ∀ {v : Value}, Groupless v → ∀ {name name' : String}
      {t t' : Tree (Option Declaration)}, Reads zoom v name t → Reads zoom' v name' t' →
      ∀ names, (leafAt t names).isSome = (leafAt t' names).isSome := by
    intro v none name name' t t' reads reads'
    obtain ⟨x, rfl⟩ := groupless_leaf none reads
    obtain ⟨y, rfl⟩ := groupless_leaf none reads'
    exact leaves x y
  induction h with
  | declaration h => exact groupless (.declaration h)
  | @group entries keys _ ih =>
    intro name name' t t' reads reads'
    by_cases h : Mapping.contains entries formatKey = true
    · exact groupless (.declaration h) reads reads'
    by_cases nonempty : entries = []
    · subst nonempty
      exact groupless (.switch (by simp [ZoomKeys]) (by simp)) reads reads'
    obtain ⟨read, rfl, group⟩ := reads_group (by simpa using h) keys nonempty reads
    obtain ⟨read', rfl, group'⟩ := reads_group (by simpa using h) keys nonempty reads'
    intro names
    cases names with
    | nil => rfl
    | cons n rest =>
      rw [leafAt_branch, leafAt_branch]
      have child := group.child keys n
      have child' := group'.child keys n
      cases found : entries.find? fun e => plainName? e.1 = some n with
      | none =>
        simp only [found] at child child'
        simp [child, child']
      | some e =>
        simp only [found] at child child'
        obtain ⟨node, hnode, readsChild⟩ := child
        obtain ⟨node', hnode', readsChild'⟩ := child'
        simpa [hnode, hnode'] using
          ih e (List.mem_of_find?_eq_some found) readsChild readsChild' rest
  | switch keys each => exact groupless (.switch keys each)
  | other h => exact groupless (.other h)

end Reading

/-! ## The flat tree -/

theorem reads_of_parse {zoom : Nat} {v r : Value} {node : Node} {tree : InputTree}
    (hnode : Node.parse v = .ok node) (left : node.resolve zoom true = some r)
    (accepted : InputTree.parse r = .ok tree) : Reads zoom v "" (.branch tree) := by
  obtain ⟨entries, read, rfl, plain, hread, rfl⟩ := parse_ok accepted
  refine ⟨node, hnode, ?_⟩
  rw [left, Option.getD_some, ofValue, if_neg (by simp [plain]), addEntries_nil, hread]
  rfl

theorem get?_flatten_leafAt {tree : InputTree} (clean : Forest.Clean tree) (p : String) :
    Dict.get? (flatten tree) p = leafAt (.branch tree) (segments p) := by
  obtain ⟨name, rest, same⟩ := List.exists_cons_of_ne_nil (segments_ne_nil p)
  have leaf : ∀ x, getSegments? tree (segments p) = some (.leaf x) ↔
      leafAt (.branch tree) (segments p) = some x := by
    intro x
    rw [same, leafAt, Tree.at?, Option.bind_eq_some_iff]
    constructor
    · intro h
      exact ⟨_, h, rfl⟩
    · intro given
      obtain ⟨t, h, ht⟩ := given
      cases t with
      | leaf y =>
        cases ht
        exact h
      | branch _ => cases ht
  ext x
  rw [get?_flatten clean, leaf]

/-- The tree of a shaped value at a zoom level binds a path to a declaration exactly if following its
names ends there, and to nothing exactly if this ends at null, at an empty mapping or at nothing. If
no group stands beneath a condition, the paths are the same at all zoom levels. -/
theorem flatten_meaning {v : Value} (shaped : Shaped v) :
    ∃ node, Node.parse v = .ok node ∧
      (∀ zoom r tree, node.resolve zoom true = some r → InputTree.parse r = .ok tree →
        (∀ p d, Dict.get? (flatten tree) p = some (some d) ↔
          ∃ u, follow zoom (segments p) v = some (some u) ∧ Declares u d) ∧
        ∀ p, Dict.get? (flatten tree) p = some none ↔
          ∃ u, follow zoom (segments p) v = some u ∧ Unbound u) ∧
      (FixedGroups v → ∀ zoom zoom' r r' tree tree',
        node.resolve zoom true = some r → InputTree.parse r = .ok tree →
        node.resolve zoom' true = some r' → InputTree.parse r' = .ok tree' →
        Dict.keys (flatten tree) = Dict.keys (flatten tree')) := by
  obtain ⟨node, hnode⟩ := parse_of_shaped shaped
  have means : ∀ {zoom r tree}, node.resolve zoom true = some r → InputTree.parse r = .ok tree →
      Means zoom v (.branch tree) := fun left accepted =>
    reads_means shaped (reads_of_parse hnode left accepted)
  refine ⟨node, hnode, ?_, ?_⟩
  · intro zoom r tree left accepted
    have here : ∀ p, Dict.get? (flatten tree) p = (follow zoom (segments p) v).bind leafOf := by
      intro p
      rw [get?_flatten_leafAt (means left accepted).clean, (means left accepted).leaves]
    constructor
    · intro p d
      rw [here, Option.bind_eq_some_iff]
      constructor
      · intro given
        obtain ⟨u, found, leaf⟩ := given
        obtain ⟨w, rfl, declares⟩ := leafOf_declared.mp leaf
        exact ⟨w, found, declares⟩
      · intro given
        obtain ⟨w, found, declares⟩ := given
        exact ⟨some w, found, leafOf_declared.mpr ⟨w, rfl, declares⟩⟩
    · intro p
      rw [here, Option.bind_eq_some_iff]
      simp only [leafOf_unbound]
  · intro fixed zoom zoom' r r' tree tree' left accepted left' accepted'
    refine Dict.keys_eq (Dict.sorted_ofList _) (Dict.sorted_ofList _) ?_
    intro p
    rw [get?_flatten_leafAt (means left accepted).clean,
      get?_flatten_leafAt (means left' accepted').clean]
    exact reads_fixed fixed (reads_of_parse hnode left accepted)
      (reads_of_parse hnode left' accepted') (segments p)

/-- A group with a switch in it. -/
def switchInGroup : Value :=
  .mapping [(.string "group", .mapping [(.string "a", .mapping [
    (.string "zoom<3", .string "near.tif")])])]

theorem switchInGroup_fixed : Shaped switchInGroup ∧ FixedGroups switchInGroup := by
  have plain : ∀ (name : String) (v : Value), plainName? (.string name) = some name →
      '/' ∉ name.toList → PlainKeys [(.string name, v)] := by
    intro name v h free
    exact ⟨by simpa using ⟨name, h, free⟩, by simp⟩
  have outer := plain "group"
    (.mapping [(.string "a", .mapping [(.string "zoom<3", .string "near.tif")])])
    (by decide) (by decide)
  have inner := plain "a" (.mapping [(.string "zoom<3", .string "near.tif")])
    (by decide) (by decide)
  have condition : ZoomKeys [(.string "zoom<3", .string "near.tif")] := by
    simpa [ZoomKeys] using (by decide : (condition? (.string "zoom<3")).isSome)
  have leaf : ∀ e ∈ [((.string "zoom<3", .string "near.tif") : Value × Value)],
      Shaped e.2 ∧ Groupless e.2 := by
    simpa using ⟨Shaped.other (by simp), Groupless.other (by simp)⟩
  have switch := Shaped.switch condition fun e mem => (leaf e mem).1
  have fixed := FixedGroups.switch condition fun e mem => (leaf e mem).2
  constructor
  · refine .group outer ?_
    simpa using Shaped.group inner (by simpa using switch)
  · refine .group outer ?_
    simpa using FixedGroups.group inner (by simpa using fixed)

/-- The group keeps its path at every zoom level, and the first true condition decides what is bound
there. -/
theorem flatten_meaning_switchInGroup : ∃ node r r' tree tree',
    Node.parse switchInGroup = .ok node ∧
      node.resolve 1 true = some r ∧ InputTree.parse r = .ok tree ∧
      node.resolve 9 true = some r' ∧ InputTree.parse r' = .ok tree' ∧
      Dict.get? (flatten tree) "group/a" = some (some (.path "near.tif")) ∧
      Dict.get? (flatten tree') "group/a" = some none ∧
      Dict.keys (flatten tree) = Dict.keys (flatten tree') := by
  have parsed : Node.parse switchInGroup = .ok (.branch [(⟨"group", none⟩, .branch [(⟨"a", none⟩,
      .branch [(⟨"zoom<3", some ⟨.lt, 3⟩⟩, .value (.string "near.tif"))])])]) := by
    have group : Condition.classify "group" = .plain := by decide
    have a : Condition.classify "a" = .plain := by decide
    have condition : Condition.classify "zoom<3" = .condition ⟨.lt, 3⟩ := by decide
    simp [switchInGroup, Node.parse, parseChildren, Mapping.contains, Mapping.get?, keyText,
      NodeKey.parse, group, a, condition, formatKey, Except.map]
  obtain ⟨node, hnode, meaning, paths⟩ := flatten_meaning switchInGroup_fixed.1
  rw [parsed] at hnode
  cases hnode
  have near : InputTree.parse (.mapping [(.string "group",
      .mapping [(.string "a", .string "near.tif")])]) =
      .ok [("group", .branch [("a", .leaf (some (.path "near.tif")))])] := rfl
  have far : InputTree.parse (.mapping [(.string "group", .mapping [(.string "a", .null)])]) =
      .ok [("group", .branch [("a", .leaf none)])] := rfl
  refine ⟨_, _, _, _, _, parsed, rfl, near, rfl, far, ?_, ?_, ?_⟩
  · exact ((meaning 1 _ _ rfl near).1 "group/a" _).mpr ⟨.string "near.tif", rfl, .path _⟩
  · exact ((meaning 9 _ _ rfl far).2 "group/a").mpr ⟨none, rfl, .nothing⟩
  · exact paths switchInGroup_fixed.2 1 9 _ _ _ _ rfl near rfl far

end ZoomConfig.InputTree
