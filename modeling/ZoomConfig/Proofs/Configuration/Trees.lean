import ZoomConfig.Proofs.Configuration.Openings
import ZoomConfig.Proofs.Configuration.Sharing
import ZoomConfig.Proofs.Document.Params
import ZoomConfig.Proofs.Input.Tidy
/-!
The input tree of a snapshot.

A configuration keeps the flat form of its inputs, with an identity for each declaration, and a
snapshot builds a tree from it. Where no name was written with a slash, this is the tree that was
read, with the opened inputs in the place of their declarations (`snapshot_tree`).
-/
namespace ZoomConfig.Configuration

open Outcome Forest

variable {m : Type → Type} {σ α : Type}

/-- The input that was opened for the declaration of a leaf. -/
def boundInput (c : Configuration m α) (leaf : Option Declaration) : Option (OpenedInput m α) :=
  leaf.bind fun d => d.contentId.toOption.bind (Dict.get? c.inputs)

/-- Leaves with their opened inputs are the same whether these are found through identities that
were kept or through the declarations themselves. -/
theorem openedLeaves_eq (c : Configuration m α) {leaves : Dict String (Option Declaration)}
    {ids : Dict String (Option ContentId)} (same : SameLeaves leaves ids) :
    c.openedLeaves ids = leaves.map fun l => (l.1, c.boundInput l.2) := by
  have := congrArg (List.map fun x : String × Option (Except ConfigError ContentId) =>
    (x.1, x.2.bind fun r => r.toOption.bind (Dict.get? c.inputs))) same
  simpa [openedLeaves, boundInput, Function.comp_def, Option.bind_map, Except.toOption] using this

namespace Coherent

variable {c : Configuration m α} {zoom : Nat}

theorem inputAt_iff (h : Coherent c) (mem : zoom ∈ c.initZooms.toList) {s : Snapshot m α}
    (given : c.snapshot zoom = .ok s) (path : String) (input : OpenedInput m α) :
    s.inputAt path = some input ↔ ∃ bound d id, c.declarationsAt zoom = .ok bound ∧
      Dict.get? bound path = some (some d) ∧ d.contentId = .ok id ∧
      Dict.get? c.inputs id = some input := by
  obtain ⟨bound, answer, leaves⟩ := h.declarationsAt_ok mem
  obtain ⟨absent, unbound, declared⟩ := leaves path
  constructor
  · intro found
    obtain ⟨p, resolved, same⟩ := h.snapshot_eq mem
    rw [given] at same
    cases built : unflatten (c.openedLeaves (p.input.getD [])) with
    | error e => simp [built] at same
    | ok tree =>
      simp only [built, Except.ok.injEq] at same
      subst same
      obtain ⟨node, here, leaf⟩ := Option.bind_eq_some_iff.mp (Option.join_eq_some_iff.mp found)
      have stands : nodeAt tree (segments path) = some (some (some input)) :=
        Option.map_eq_some_iff.mpr ⟨node, here, leaf⟩
      -- What stands in the tree was bound to an identity, which a declaration has.
      obtain ⟨e, inside, names, value⟩ := ((unflatten_ok built).1.leaf _ _).mp stands
      obtain ⟨⟨path', id?⟩, kept, rfl⟩ := List.mem_map.mp inside
      obtain rfl : path' = path := segments_injective names
      obtain ⟨id, rfl, opened⟩ := Option.bind_eq_some_iff.mp value
      have distinct : (Dict.keys (p.input.getD [])).Nodup := by
        rw [resolved.leaves.keys]
        exact (leavesAt_sorted _ _).nodup
      obtain ⟨d, leaf, hid⟩ := resolved.leaves.declaration (Dict.get?_of_mem distinct kept)
      obtain ⟨d', id', found', hid', same'⟩ := declared d leaf
      obtain rfl : id = id' := Except.ok.inj (hid.symm.trans hid')
      exact ⟨bound, d', id, answer, found', same', opened⟩
  · intro given'
    obtain ⟨bound', d', id, answer', found, hid, opened⟩ := given'
    obtain rfl : bound = bound' := Except.ok.inj (answer.symm.trans answer')
    match leaf : Dict.get? (leavesAt c.document.params zoom) path with
    | none => simp [absent leaf] at found
    | some none => simp [unbound leaf] at found
    | some (some d) =>
      obtain ⟨d'', id', found', hid', hid''⟩ := declared d leaf
      obtain rfl : d'' = d' := by simpa [found'] using found
      obtain rfl : id' = id := Except.ok.inj (hid''.symm.trans hid)
      exact h.inputAt_of_bound mem leaf hid' opened given

end Coherent

variable [Coordinate α] {files : Files (StateM σ)} {drivers : Drivers (StateM σ) α}
  {source : DocumentSource} {options : InitOptions} {w w₁ w' : σ} {c : Configuration (StateM σ) α}
  {loaded : LoadedDocument}

theorem inputAt_tidy (built : (build files drivers source options).run.run w = (.ok c, w'))
    (load : (LoadedDocument.load files source).run w = (.ok loaded, w₁)) {N : String → Prop}
    (named : ∀ v, (.string inputKey, v) ∈ loaded.mapping ∨
      (.string "input_files", v) ∈ loaded.mapping → v.Named N) {zoom : Nat} {v : Value}
    (found : inputAt? c.document.params zoom = some v) : v.Tidy N := by
  obtain ⟨k⟩ := construction built
  have same := k.load
  rw [load] at same
  cases same
  exact input_tidy k.check named found

/-- In a configuration that was built from a document whose input has no name with a slash, every
initialized zoom level has a snapshot. Its inputs are the tree that is read from the resolved input,
with the input opened for it in the place of each declaration, and no tree if no input is left. The
snapshot has an input at a path exactly if the declarations of the zoom level have one there with its
identity. -/
theorem snapshot_tree (built : (build files drivers source options).run.run w = (.ok c, w'))
    (load : (LoadedDocument.load files source).run w = (.ok loaded, w₁))
    (free : ∀ v, (.string inputKey, v) ∈ loaded.mapping ∨
      (.string "input_files", v) ∈ loaded.mapping → v.Named NoSlash)
    {zoom : Nat} (mem : zoom ∈ c.initZooms.toList) :
    ∃ s, c.snapshot zoom = .ok s ∧
      (inputAt? c.document.params zoom = none → s.input = []) ∧
      (∀ v, inputAt? c.document.params zoom = some v → ∃ tree, InputTree.parse v = .ok tree ∧
        s.input = mapLeaves c.boundInput tree ∧
        ∀ q d, getSegments? tree q = some (.leaf (some d)) →
          ∃ id input, d.contentId = .ok id ∧ Dict.get? c.inputs id = some input ∧
            c.boundInput (some d) = some input) ∧
      ∀ path input, s.inputAt path = some input ↔ ∃ bound d id,
        c.declarationsAt zoom = .ok bound ∧ Dict.get? bound path = some (some d) ∧
        d.contentId = .ok id ∧ Dict.get? c.inputs id = some input := by
  have h := coherent built
  obtain ⟨p, resolved, same⟩ := h.snapshot_eq mem
  rw [c.openedLeaves_eq resolved.leaves] at same
  cases hv : inputAt? c.document.params zoom with
  | none =>
    have empty : leavesAt c.document.params zoom = [] := by simp [leavesAt, hv]
    rw [empty] at same
    refine ⟨_, same, fun _ => rfl, ?_, h.inputAt_iff mem same⟩
    intro v found
    cases found
  | some v =>
    obtain ⟨tree, parsed, leaves⟩ := resolved.parsed v hv
    have neat := InputTree.parse_tidy (inputAt_tidy built load free hv) parsed
    rw [leaves, unflatten_map, unflatten_of_perm neat (.refl _)] at same
    refine ⟨_, same, fun none => absurd none (Option.some_ne_none v), ?_, h.inputAt_iff mem same⟩
    intro v' found
    cases found
    refine ⟨tree, parsed, rfl, ?_⟩
    intro q d leaf
    obtain ⟨e, inside, rfl, here⟩ := ((holds_flatten neat.clean neat.full).leaf q (some d)).mp
      (nodeAt_eq_leaf.mpr leaf)
    have bound : Dict.get? (leavesAt c.document.params zoom) e.1 = some (some d) := by
      rw [leaves, ← here]
      exact Dict.get?_of_mem (Dict.sorted_ofList _).nodup inside
    have declared : d ∈ c.declared := mem_declared.mpr ⟨zoom, mem, e.1, bound⟩
    obtain ⟨id, hid⟩ := InputRegistry.identify_total h.known d declared
    obtain ⟨input, opened, _⟩ := h.opened_of_declared declared hid
    exact ⟨id, input, hid, opened, by simp [boundInput, hid, opened, Except.toOption]⟩

/-- A group with a switch and an unbound name in it. -/
def nestedInput : Value :=
  .mapping [
    (.string "group", .mapping [
      (.string "b", .null),
      (.string "a", .mapping [(.string "zoom<5", .string "a.x")])]),
    (.string "c", .string "a.x")]

theorem nestedInput_named : nestedInput.Named NoSlash := by
  have leaf : ∀ v : Value, (∀ entries, v ≠ .mapping entries) → v.Named NoSlash := fun _ => .other
  have switch : (Value.mapping [(.string "zoom<5", .string "a.x")]).Named NoSlash := by
    refine .group ?_ ?_
    · simp [keyText, NoSlash]
    · simpa using leaf (.string "a.x") (by simp)
  have group : (Value.mapping [(.string "b", .null),
      (.string "a", .mapping [(.string "zoom<5", .string "a.x")])]).Named NoSlash := by
    refine .group ?_ ?_
    · simp [keyText, NoSlash]
    · simpa using ⟨leaf .null (by simp), switch⟩
  refine .group ?_ ?_
  · simp [keyText, NoSlash]
  · simpa using ⟨group, leaf (.string "a.x") (by simp)⟩

/-- The group is given back with the input that its switch is left with, and with its unbound name. -/
theorem snapshot_tree_nested : ∃ c w' s, (buildSmall nestedInput).run.run () = (.ok c, w') ∧
    c.snapshot 3 = .ok s ∧
    (∃ v tree, inputAt? c.document.params 3 = some v ∧ InputTree.parse v = .ok tree ∧
      s.input = mapLeaves c.boundInput tree) ∧
    (∃ input, s.inputAt "group/a" = some input) ∧ s.inputAt "group/b" = none := by
  obtain ⟨c, w', built, test⟩ := givesWith_iff (buildSmall nestedInput) () (fun c =>
    decide (3 ∈ c.initZooms.toList ∧ (inputAt? c.document.params 3).isSome ∧
      (leavesAt c.document.params 3).map (fun l => (l.1, l.2.isSome)) =
        [("c", true), ("group/a", true), ("group/b", false)]))
    |>.mp (by decide +kernel)
  obtain ⟨mem, given, leaves⟩ := of_decide_eq_true test
  have load : (LoadedDocument.load emptyFiles (smallDocument nestedInput)).run () =
      (.ok ⟨[(.string "output", .mapping [(.string formatKey, .string "Open")]),
        (.string "process_file", .string "process.py"),
        (.string "zoom_levels", .number (.int 3)),
        (.string "pyramid", .mapping [(.string "grid", .string "geodetic")]),
        (.string inputKey, nestedInput)], "/base", none⟩, ()) := rfl
  obtain ⟨s, snapshot, _, trees, inputs⟩ := snapshot_tree built load (by
    intro v written
    obtain rfl : v = nestedInput := by simpa [inputKey] using written
    exact nestedInput_named) mem
  obtain ⟨v, found⟩ := Option.isSome_iff_exists.mp given
  obtain ⟨tree, parsed, same, _⟩ := trees v found
  have h := coherent built
  obtain ⟨bound, answer, declared⟩ := h.declarationsAt_ok mem
  have here : ∀ path, (Dict.get? (leavesAt c.document.params 3) path).map Option.isSome =
      Dict.get? [("c", true), ("group/a", true), ("group/b", false)] path := by
    intro path
    rw [← leaves, Dict.get?_map fun _ (d : Option Declaration) => d.isSome]
  refine ⟨c, w', s, built, snapshot, ⟨v, tree, found, parsed, same⟩, ?_, ?_⟩
  · obtain ⟨leaf, atA, some⟩ := Option.map_eq_some_iff.mp ((here "group/a").trans rfl)
    obtain ⟨d, rfl⟩ := Option.isSome_iff_exists.mp some
    obtain ⟨d', id, found', hid, hid'⟩ := (declared "group/a").2.2 d atA
    obtain ⟨input, opened, _⟩ :=
      h.opened_of_declared (mem_declared.mpr ⟨3, mem, "group/a", atA⟩) hid
    exact ⟨input, (inputs "group/a" input).mpr ⟨bound, d', id, answer, found', hid', opened⟩⟩
  · obtain ⟨leaf, atB, none⟩ := Option.map_eq_some_iff.mp ((here "group/b").trans rfl)
    obtain rfl : leaf = .none := by simpa using none
    have unbound := (declared "group/b").2.1 atB
    cases found' : s.inputAt "group/b" with
    | none => rfl
    | some input =>
      obtain ⟨bound', d, id, answer', atB', _⟩ := (inputs "group/b" input).mp found'
      obtain rfl : bound = bound' := Except.ok.inj (answer.symm.trans answer')
      rw [unbound] at atB'
      cases atB'

end ZoomConfig.Configuration
