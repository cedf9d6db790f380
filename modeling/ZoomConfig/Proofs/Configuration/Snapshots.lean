import ZoomConfig.Proofs.Configuration.Leaves
import ZoomConfig.Proofs.Input.Parsing
/-!
When a configuration gives a snapshot.

The inputs of a snapshot are looked up by their identities, which always succeeds in a configuration
that was built, and set up as a tree, which fails if one path goes on after another with a slash.
A construction does not look for such paths: `snapshot_ok_iff` says that they are all that can keep a
snapshot from being given at an initialized zoom level, and `snapshot_of_valueBeneathValue` that they
do.
-/
namespace ZoomConfig

namespace Configuration

open Outcome Forest

variable {m : Type → Type} {σ α : Type}

/-- The paths that are bound at a zoom level, to an input or to nothing. -/
def pathsAt (c : Configuration m α) (zoom : Nat) : List String :=
  Dict.keys (leavesAt c.document.params zoom)

/-- Leaves with the inputs that were opened for their identities. -/
def openedLeaves (c : Configuration m α) (leaves : Dict String (Option ContentId)) :
    Dict String (Option (OpenedInput m α)) :=
  leaves.map fun l => (l.1, l.2.bind (Dict.get? c.inputs))

theorem bindLeaves_ok (c : Configuration m α) : ∀ {leaves : Dict String (Option ContentId)},
    (∀ path id, (path, some id) ∈ leaves → (Dict.get? c.inputs id).isSome) →
    c.bindLeaves leaves = .ok (c.openedLeaves leaves)
  | [], _ => rfl
  | (path, none) :: rest, known => by
    have others := bindLeaves_ok c fun p id mem => known p id (List.mem_cons_of_mem _ mem)
    rw [bindLeaves, others]
    rfl
  | (path, some id) :: rest, known => by
    have others := bindLeaves_ok c fun p id mem => known p id (List.mem_cons_of_mem _ mem)
    obtain ⟨input, found⟩ := Option.isSome_iff_exists.mp (known path id List.mem_cons_self)
    have here : c.opened path id = .ok input := by simp [opened, found]
    rw [bindLeaves, here, others]
    simp [openedLeaves, found, Except.map]

namespace Coherent

variable {c : Configuration m α} {zoom : Nat}

theorem opened_of_leaf (h : Coherent c) (mem : zoom ∈ c.initZooms.toList) {p : ZoomParams}
    (resolved : Resolved c.document.params zoom p) {path : String} {id : ContentId}
    (leaf : (path, some id) ∈ p.input.getD []) : (Dict.get? c.inputs id).isSome := by
  have distinct : (Dict.keys (p.input.getD [])).Nodup := by
    rw [resolved.leaves.keys]
    exact (leavesAt_sorted _ _).nodup
  obtain ⟨d, bound, hid⟩ := resolved.leaves.declaration (Dict.get?_of_mem distinct leaf)
  obtain ⟨input, found, _⟩ :=
    h.opened_of_declared (mem_declared.mpr ⟨zoom, mem, path, bound⟩) hid
  rw [found]
  rfl

/-- A snapshot sets up the opened inputs of a zoom level as a tree. -/
theorem snapshot_eq (h : Coherent c) (mem : zoom ∈ c.initZooms.toList) :
    ∃ p, Resolved c.document.params zoom p ∧
      c.snapshot zoom = match unflatten (c.openedLeaves (p.input.getD [])) with
        | .ok tree => .ok ⟨zoom, p.params, tree⟩
        | .error e => .error (.schema (.paths e)) := by
  obtain ⟨p, found, resolved⟩ := h.params_of_mem mem
  refine ⟨p, resolved, ?_⟩
  have here : c.zoomParams zoom = .ok p := by simp [zoomParams, found]
  have bound : c.bindLeaves (p.input.getD []) = .ok (c.openedLeaves (p.input.getD [])) :=
    bindLeaves_ok c fun path id leaf => h.opened_of_leaf mem resolved leaf
  unfold snapshot
  rw [here]
  cases hinput : p.input with
  | none => simp [hinput, openedLeaves, unflatten, bind, Except.bind, pure, Except.pure]
  | some leaves =>
    rw [hinput, Option.getD_some] at bound
    simp only [hinput, bound, bind, Except.bind, Option.getD_some]
    cases unflatten (c.openedLeaves leaves) <;> rfl

theorem snapshot_other (h : Coherent c) (other : zoom ∉ c.initZooms.toList) :
    c.snapshot zoom = .error (.zoomRange (.notInitialized zoom c.initZooms)) := by
  have here : c.zoomParams zoom = .error (.zoomRange (.notInitialized zoom c.initZooms)) := by
    simp [zoomParams, h.params_of_not_mem other]
  unfold snapshot
  rw [here]
  rfl

theorem openedLeaves_keys {p : ZoomParams} (resolved : Resolved c.document.params zoom p) :
    Dict.keys (c.openedLeaves (p.input.getD [])) = c.pathsAt zoom := by
  rw [pathsAt, ← resolved.leaves.keys]
  exact Dict.keys_map (fun _ (id : Option ContentId) => id.bind (Dict.get? c.inputs)) _

theorem openedLeaves_sorted {p : ZoomParams} (resolved : Resolved c.document.params zoom p) :
    Dict.Sorted (c.openedLeaves (p.input.getD [])) := by
  have keys := openedLeaves_keys (c := c) resolved
  have sorted : (Dict.keys (leavesAt c.document.params zoom)).Pairwise (· < ·) :=
    List.pairwise_map.mpr (leavesAt_sorted c.document.params zoom)
  rw [← pathsAt, ← keys] at sorted
  exact List.pairwise_map.mp sorted

/-- At an initialized zoom level only paths that go on after others are in the way. -/
theorem snapshot_ok_iff_apart (h : Coherent c) (mem : zoom ∈ c.initZooms.toList) :
    (∃ s, c.snapshot zoom = .ok s) ↔
      ∀ p ∈ c.pathsAt zoom, ∀ q ∈ c.pathsAt zoom, ¬Below p q := by
  obtain ⟨p, resolved, same⟩ := h.snapshot_eq mem
  rw [← openedLeaves_keys resolved, ← no_clash_iff (openedLeaves_sorted resolved),
    ← unflatten_ok_iff, same]
  cases unflatten (c.openedLeaves (p.input.getD [])) <;> simp

theorem snapshot_error (h : Coherent c) (mem : zoom ∈ c.initZooms.toList) {e : ConfigError}
    (failed : c.snapshot zoom = .error e) :
    ∃ p ∈ c.pathsAt zoom, ∃ q ∈ c.pathsAt zoom, (Below p q ∨ Below q p) ∧
      e = .schema (.paths (.conflict p)) := by
  obtain ⟨p, resolved, same⟩ := h.snapshot_eq mem
  rw [same] at failed
  cases built : unflatten (c.openedLeaves (p.input.getD [])) with
  | ok tree => simp [built] at failed
  | error err =>
    simp only [built, Except.error.injEq] at failed
    obtain ⟨before, x, after, split, _, tells⟩ := unflatten_error built
    have keys := openedLeaves_keys (c := c) resolved
    have distinct := (openedLeaves_sorted (c := c) resolved).nodup
    rw [split] at keys distinct
    have inPaths : ∀ y, y ∈ before ∨ y = x → y.1 ∈ c.pathsAt zoom := by
      intro y hy
      rw [← keys]
      refine List.mem_map_of_mem ?_
      rcases hy with hy | rfl
      · exact List.mem_append_left _ hy
      · exact List.mem_append_right _ List.mem_cons_self
    rcases tells with ⟨_, y, hy, twice⟩ | ⟨rfl, y, hy, below⟩
    · rw [Dict.keys, List.map_append, List.nodup_append] at distinct
      exact absurd twice (distinct.2.2 y.1 (List.mem_map_of_mem hy) x.1
        (List.mem_map_of_mem List.mem_cons_self))
    · exact ⟨x.1, inPaths x (.inr rfl), y.1, inPaths y (.inl hy), below.symm, failed.symm⟩

theorem apart_of_slashFree (h : Coherent c) (mem : zoom ∈ c.initZooms.toList)
    (free : ∀ v tree, inputAt? c.document.params zoom = some v → InputTree.parse v = .ok tree →
      SlashFree tree) :
    ∀ p ∈ c.pathsAt zoom, ∀ q ∈ c.pathsAt zoom, ¬Below p q := by
  obtain ⟨_, _, resolved⟩ := h.params_of_mem mem
  intro p hp q hq
  cases hv : inputAt? c.document.params zoom with
  | none =>
    have empty : c.pathsAt zoom = [] := by simp [pathsAt, leavesAt, hv, Dict.keys]
    rw [empty] at hp
    cases hp
  | some v =>
    obtain ⟨tree, parsed, leaves⟩ := resolved.parsed v hv
    have clean := InputTree.parse_clean parsed (free v tree hv parsed)
    rw [pathsAt, leaves, ← Dict.isSome_get?_iff] at hp hq
    obtain ⟨x, hx⟩ := Option.isSome_iff_exists.mp hp
    obtain ⟨y, hy⟩ := Option.isSome_iff_exists.mp hq
    exact flatten_apart clean hx hy

end Coherent

variable [Coordinate α] {files : Files (StateM σ)} {drivers : Drivers (StateM σ) α}
  {source : DocumentSource} {options : InitOptions} {w w' : σ} {c : Configuration (StateM σ) α}

/-- A configuration that was built gives a snapshot of a zoom level exactly if the level is
initialized and none of its paths goes on after another one. It is refused as not initialized
otherwise, or with one of two such paths. Input trees whose names are free of slashes have no such
paths. -/
theorem snapshot_ok_iff (built : (build files drivers source options).run.run w = (.ok c, w'))
    (zoom : Nat) :
    ((∃ s, c.snapshot zoom = .ok s) ↔ zoom ∈ c.initZooms.toList ∧
      ∀ p ∈ c.pathsAt zoom, ∀ q ∈ c.pathsAt zoom, ¬Below p q) ∧
    (zoom ∉ c.initZooms.toList →
      c.snapshot zoom = .error (.zoomRange (.notInitialized zoom c.initZooms))) ∧
    (zoom ∈ c.initZooms.toList → ∀ e, c.snapshot zoom = .error e →
      ∃ p ∈ c.pathsAt zoom, ∃ q ∈ c.pathsAt zoom, (Below p q ∨ Below q p) ∧
        e = .schema (.paths (.conflict p))) ∧
    (zoom ∈ c.initZooms.toList →
      (∀ v tree, inputAt? c.document.params zoom = some v → InputTree.parse v = .ok tree →
        SlashFree tree) →
      ∃ s, c.snapshot zoom = .ok s) := by
  have h := coherent built
  refine ⟨?_, h.snapshot_other, fun mem e => h.snapshot_error mem, ?_⟩
  · by_cases mem : zoom ∈ c.initZooms.toList
    · simpa [mem] using h.snapshot_ok_iff_apart mem
    · simp [mem, h.snapshot_other mem]
  · intro mem free
    exact (h.snapshot_ok_iff_apart mem).mpr (h.apart_of_slashFree mem free)

/-- Two inputs of which neither path goes on after the other are given in a snapshot. -/
theorem snapshot_ok_iff_twoInputs : ∃ c w',
    (buildSmall (.mapping [(.string "a", .string "a.x"), (.string "b", .null)])).run.run () =
      (.ok c, w') ∧
    3 ∈ c.initZooms.toList ∧ (∃ s, c.snapshot 3 = .ok s) ∧
    c.snapshot 4 = .error (.zoomRange (.notInitialized 4 c.initZooms)) := by
  obtain ⟨c, w', built, test⟩ := givesWith_iff
    (buildSmall (.mapping [(.string "a", .string "a.x"), (.string "b", .null)])) ()
    (fun c => decide (3 ∈ c.initZooms.toList ∧ 4 ∉ c.initZooms.toList ∧
      c.pathsAt 3 = ["a", "b"])) |>.mp (by decide +kernel)
  obtain ⟨mem, other, paths⟩ := of_decide_eq_true test
  refine ⟨c, w', built, mem, ?_, (snapshot_ok_iff built 4).2.1 other⟩
  refine (snapshot_ok_iff built 3).1.mpr ⟨mem, ?_⟩
  rw [paths]
  simp only [below_iff]
  decide

/-- An unbound name may hold a slash that puts it beneath another unbound name. -/
def valueBeneathValue : Value := .mapping [(.string "a", .null), (.string "a/b", .null)]

/-- A configuration is built although it cannot give a snapshot of its zoom level. -/
theorem snapshot_of_valueBeneathValue : ∃ c w',
    (buildSmall valueBeneathValue).run.run () = (.ok c, w') ∧ 3 ∈ c.initZooms.toList ∧
      c.snapshot 3 = .error (.schema (.paths (.conflict "a/b"))) ∧
      ¬((∃ s, c.snapshot 3 = .ok s) ↔ 3 ∈ c.initZooms.toList) := by
  obtain ⟨c, w', built, test⟩ := givesWith_iff (buildSmall valueBeneathValue) ()
    (fun c => decide (3 ∈ c.initZooms.toList) &&
      match c.snapshot 3 with
      | .error (.schema (.paths e)) => e == .conflict "a/b"
      | _ => false) |>.mp (by decide +kernel)
  rw [Bool.and_eq_true] at test
  obtain ⟨mem, refused⟩ := test
  have failed : c.snapshot 3 = .error (.schema (.paths (.conflict "a/b"))) := by
    split at refused
    · next e h => rw [h, eq_of_beq refused]
    · cases refused
  exact ⟨c, w', built, of_decide_eq_true mem, failed, by simp [failed, of_decide_eq_true mem]⟩

end Configuration

end ZoomConfig
