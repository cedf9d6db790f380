import ZoomConfig.Configuration.Query
import ZoomConfig.Proofs.Configuration.Construction
import ZoomConfig.Proofs.Document.Params
import ZoomConfig.Proofs.Input.Registry
/-!
The leaves of the inputs at every zoom level.

`leavesAt` gives what the parameters of a document bind at one zoom level. A configuration that is
built holds, for exactly its initialized zoom levels, the same leaves with an identity in the place of
every declaration (`Leaves.zoom`), and it knows exactly the declarations that are bound somewhere
(`Leaves.known`).
-/
namespace ZoomConfig

namespace Configuration

open Outcome InputRegistry

/-- The resolved `input` value at a zoom level. -/
def inputAt? (params : List (NodeKey × Node)) (zoom : Nat) : Option Value :=
  Mapping.get? (Node.resolveParams params zoom) inputKey

/-- What is bound at a zoom level, by paths. -/
def leavesAt (params : List (NodeKey × Node)) (zoom : Nat) : Dict String (Option Declaration) :=
  match (inputAt? params zoom).map InputTree.parse with
  | some (.ok tree) => Forest.flatten tree
  | _ => []

theorem leavesAt_sorted (params : List (NodeKey × Node)) (zoom : Nat) :
    Dict.Sorted (leavesAt params zoom) := by
  unfold leavesAt
  split
  · exact Dict.sorted_ofList _
  · exact Dict.sorted_nil

/-- The declarations that are bound at a zoom level. -/
def declaredAt (params : List (NodeKey × Node)) (zoom : Nat) : List Declaration :=
  (leavesAt params zoom).filterMap (·.2)

theorem mem_declaredAt {params : List (NodeKey × Node)} {zoom : Nat} {d : Declaration} :
    d ∈ declaredAt params zoom ↔ ∃ path, Dict.get? (leavesAt params zoom) path = some (some d) := by
  simp only [declaredAt, List.mem_filterMap]
  constructor
  · intro given
    obtain ⟨⟨path, leaf⟩, mem, rfl⟩ := given
    exact ⟨path, (Dict.mem_iff_get? (leavesAt_sorted params zoom) path _).mp mem⟩
  · intro given
    obtain ⟨path, found⟩ := given
    exact ⟨(path, some d), Dict.mem_of_get? found, rfl⟩

/-! ## Identities in the place of declarations -/

/-- The same leaves, with the identity of every declaration in its place. -/
def SameLeaves (leaves : Dict String (Option Declaration)) (ids : Dict String (Option ContentId)) :
    Prop :=
  ids.map (fun i => (i.1, i.2.map Except.ok)) =
    leaves.map fun l => (l.1, l.2.map Declaration.contentId)

section SameLeaves

variable {leaves : Dict String (Option Declaration)} {ids : Dict String (Option ContentId)}

theorem SameLeaves.keys (h : SameLeaves leaves ids) : Dict.keys ids = Dict.keys leaves := by
  have := congrArg Dict.keys h
  rwa [Dict.keys_map fun _ (i : Option ContentId) => i.map Except.ok,
    Dict.keys_map fun _ (l : Option Declaration) => l.map Declaration.contentId] at this

theorem SameLeaves.get? (h : SameLeaves leaves ids) (path : String) :
    (Dict.get? ids path).map (Option.map Except.ok) =
      (Dict.get? leaves path).map (Option.map Declaration.contentId) := by
  have := congrArg (Dict.get? · path) h
  rwa [Dict.get?_map fun _ (i : Option ContentId) => i.map Except.ok,
    Dict.get?_map fun _ (l : Option Declaration) => l.map Declaration.contentId] at this

theorem SameLeaves.bound (h : SameLeaves leaves ids) {path : String} {d : Declaration}
    (found : Dict.get? leaves path = some (some d)) :
    ∃ id, Dict.get? ids path = some (some id) ∧ d.contentId = .ok id := by
  have := h.get? path
  rw [found] at this
  match hid : Dict.get? ids path with
  | none => simp [hid] at this
  | some none => simp [hid] at this
  | some (some id) =>
    simp only [hid, Option.map_some, Option.some.injEq] at this
    exact ⟨id, rfl, this.symm⟩

theorem SameLeaves.unbound (h : SameLeaves leaves ids) {path : String}
    (found : Dict.get? leaves path = some none) : Dict.get? ids path = some none := by
  have := h.get? path
  rw [found] at this
  match hid : Dict.get? ids path with
  | none => simp [hid] at this
  | some none => rfl
  | some (some id) => simp [hid] at this

theorem SameLeaves.absent (h : SameLeaves leaves ids) {path : String}
    (found : Dict.get? leaves path = none) : Dict.get? ids path = none := by
  have := h.get? path
  rw [found] at this
  simpa using this

theorem SameLeaves.declaration (h : SameLeaves leaves ids) {path : String} {id : ContentId}
    (found : Dict.get? ids path = some (some id)) :
    ∃ d, Dict.get? leaves path = some (some d) ∧ d.contentId = .ok id := by
  have := h.get? path
  rw [found] at this
  match hd : Dict.get? leaves path with
  | none => simp [hd] at this
  | some none => simp [hd] at this
  | some (some d) =>
    simp only [hd, Option.map_some, Option.some.injEq] at this
    exact ⟨d, rfl, this.symm⟩

end SameLeaves

theorem identifyLeaves_ok : ∀ {leaves : List (String × Option Declaration)}
    {known after : Dict ContentId Declaration} {ids : Dict String (Option ContentId)},
    identifyLeaves known leaves = .ok (ids, after) →
    SameLeaves leaves ids ∧ identify known (leaves.filterMap (·.2)) = .ok after
  | [], _, _, _, h => by
    cases h
    exact ⟨rfl, rfl⟩
  | (path, none) :: rest, _, _, _, h => by
    obtain ⟨⟨others, _⟩, hrest, h⟩ := map_eq_ok.mp h
    cases h
    obtain ⟨same, hidentify⟩ := identifyLeaves_ok hrest
    exact ⟨congrArg ((path, none) :: ·) same, hidentify⟩
  | (path, some d) :: rest, known, _, _, h => by
    unfold identifyLeaves at h
    cases hid : d.contentId with
    | error e => simp [hid] at h
    | ok id =>
      simp only [hid] at h
      obtain ⟨⟨others, _⟩, hrest, h⟩ := map_eq_ok.mp h
      cases h
      obtain ⟨same, hidentify⟩ := identifyLeaves_ok hrest
      refine ⟨?_, ?_⟩
      · have here : d.contentId = .ok id := hid
        simp only [SameLeaves, List.map_cons, Option.map_some, here]
        exact congrArg ((path, some (.ok id)) :: ·) same
      · simpa [identify, hid] using hidentify

/-! ## Zoom level by zoom level -/

/-- The parameters of a zoom level are the resolved ones, with the leaves of `input` apart. -/
structure Resolved (params : List (NodeKey × Node)) (zoom : Nat) (p : ZoomParams) : Prop where
  others : p.params = (Mapping.remove (Node.resolveParams params zoom) inputKey).2
  input : p.input.isSome = (inputAt? params zoom).isSome
  parsed : ∀ v, inputAt? params zoom = some v →
    ∃ tree, InputTree.parse v = .ok tree ∧ leavesAt params zoom = Forest.flatten tree
  leaves : SameLeaves (leavesAt params zoom) (p.input.getD [])

theorem resolveZoom_ok {params : List (NodeKey × Node)} {zoom : Nat} {p : ZoomParams}
    {known after : Dict ContentId Declaration}
    (h : resolveZoom params known zoom = .ok (p, after)) :
    Resolved params zoom p ∧ identify known (declaredAt params zoom) = .ok after := by
  have found : inputAt? params zoom =
      (Mapping.remove (Node.resolveParams params zoom) inputKey).1 := by
    rw [Mapping.remove_fst, inputAt?]
  unfold resolveZoom at h
  rcases hremove : Mapping.remove (Node.resolveParams params zoom) inputKey with ⟨_ | v, others⟩
  · rw [hremove] at found h
    cases h
    have empty : leavesAt params zoom = [] := by simp [leavesAt, found]
    refine ⟨⟨by rw [hremove], by simp [found], by simp [found], ?_⟩, ?_⟩
    · rw [empty]
      rfl
    · simp [declaredAt, empty, identify]
  · rw [hremove] at found h
    obtain ⟨⟨ids, _⟩, hflatten, h⟩ := map_eq_ok.mp h
    cases h
    unfold flattenInput at hflatten
    cases hparse : InputTree.parse v with
    | error e => simp [hparse] at hflatten
    | ok tree =>
      simp only [hparse] at hflatten
      have leaves : leavesAt params zoom = Forest.flatten tree := by simp [leavesAt, found, hparse]
      obtain ⟨same, hidentify⟩ := identifyLeaves_ok hflatten
      refine ⟨⟨by rw [hremove], by simp [found], ?_, ?_⟩, ?_⟩
      · intro v' hv'
        obtain rfl : v = v' := by simpa [found] using hv'
        exact ⟨tree, hparse, leaves⟩
      · rw [leaves]
        exact same
      · rw [declaredAt, leaves]
        exact hidentify

theorem resolveZooms_ok {params : List (NodeKey × Node)} : ∀ {zooms : List Nat}
    {known after : Dict ContentId Declaration} {paramsAt : Dict Nat ZoomParams},
    resolveZooms params known zooms = .ok (paramsAt, after) →
    Dict.keys paramsAt = zooms ∧ (∀ e ∈ paramsAt, Resolved params e.1 e.2) ∧
      identify known (zooms.flatMap (declaredAt params)) = .ok after
  | [], _, _, _, h => by
    cases h
    exact ⟨rfl, by simp, rfl⟩
  | zoom :: rest, known, _, _, h => by
    unfold resolveZooms at h
    cases hzoom : resolveZoom params known zoom with
    | error e => simp [hzoom] at h
    | ok here =>
      obtain ⟨p, known'⟩ := here
      simp only [hzoom] at h
      obtain ⟨⟨others, _⟩, hrest, h⟩ := map_eq_ok.mp h
      cases h
      obtain ⟨keys, resolved, hidentify⟩ := resolveZooms_ok hrest
      obtain ⟨first, hfirst⟩ := resolveZoom_ok hzoom
      refine ⟨by simpa [Dict.keys] using keys, ?_, ?_⟩
      · intro e he
        rcases List.mem_cons.mp he with rfl | he
        · exact first
        · exact resolved e he
      · rw [List.flatMap_cons, identify_append, hfirst]
        exact hidentify

/-! ## The whole configuration -/

variable {m : Type → Type} {σ α : Type}

/-- The declarations that are bound at some initialized zoom level. -/
def declared (c : Configuration m α) : List Declaration :=
  c.initZooms.toList.flatMap (declaredAt c.document.params)

theorem mem_declared {c : Configuration m α} {d : Declaration} :
    d ∈ c.declared ↔ ∃ zoom ∈ c.initZooms.toList, ∃ path,
      Dict.get? (leavesAt c.document.params zoom) path = some (some d) := by
  simp only [declared, List.mem_flatMap, mem_declaredAt]

/-- The parts of a configuration agree: there are parameters for exactly the initialized zoom levels,
the declarations are the first ones of the identities that are bound there, and an input is opened
for each of them. -/
structure Coherent (c : Configuration m α) : Prop where
  zooms : Dict.keys c.paramsAt = c.initZooms.toList
  resolved : ∀ zoom p, Dict.get? c.paramsAt zoom = some p → Resolved c.document.params zoom p
  known : identify [] c.declared = .ok c.declarations
  opened : InputRegistry.declarations c.inputs = c.declarations

namespace Coherent

variable {c : Configuration m α}

theorem params_of_mem (h : Coherent c) {zoom : Nat} (mem : zoom ∈ c.initZooms.toList) :
    ∃ p, Dict.get? c.paramsAt zoom = some p ∧ Resolved c.document.params zoom p := by
  rw [← h.zooms, ← Dict.isSome_get?_iff] at mem
  obtain ⟨p, found⟩ := Option.isSome_iff_exists.mp mem
  exact ⟨p, found, h.resolved zoom p found⟩

theorem params_of_not_mem (h : Coherent c) {zoom : Nat} (other : zoom ∉ c.initZooms.toList) :
    Dict.get? c.paramsAt zoom = none := by
  rw [← h.zooms, ← Dict.isSome_get?_iff] at other
  simpa using other

/-- Every identity that is bound has a declaration that is known, and its input is opened. -/
theorem opened_of_declared (h : Coherent c) {d : Declaration} {id : ContentId}
    (mem : d ∈ c.declared) (hid : d.contentId = .ok id) :
    ∃ input, Dict.get? c.inputs id = some input ∧
      Dict.get? c.declarations id = some input.declaration ∧
      input.declaration ∈ c.declared ∧ input.declaration.contentId = .ok id := by
  have known : (Dict.get? c.declarations id).isSome :=
    (identify_isSome h.known id).mpr ⟨d, mem, hid⟩
  obtain ⟨first, found⟩ := Option.isSome_iff_exists.mp known
  have opened := found
  rw [← h.opened, InputRegistry.declarations,
    Dict.get?_map fun _ (input : OpenedInput m α) => input.declaration] at opened
  obtain ⟨input, hinput, rfl⟩ := Option.map_eq_some_iff.mp opened
  exact ⟨input, hinput, found, identify_mem h.known found⟩

end Coherent

/-! ## Configurations that are built -/

variable [Coordinate α]

/-- What inputs are opened against. -/
def loadContext (c : Configuration m α) : LoadContext α :=
  { configDir := c.document.configDir
    pyramid := c.pyramids.process
    delimiters := { zooms := c.initZooms, bounds := c.initBounds, processBounds := c.bounds }
    readonly := c.mode.isReadonly }

variable {files : Files (StateM σ)} {drivers : Drivers (StateM σ) α} {source : DocumentSource}
  {options : InitOptions} {w w' : σ} {c : Configuration (StateM σ) α}

theorem PlanStages.identified {doc : ProcessDocument} {options : InitOptions} {plan : Plan}
    (h : PlanStages doc options plan) :
    identify [] (plan.declarations.map (·.2)) = .ok plan.declarations := by
  obtain ⟨_, _, known⟩ := resolveZooms_ok h.params
  exact identify_values (identify_sorted known Dict.sorted_nil) (identify_faithful known)

/-- A configuration that is built is coherent, and its inputs were opened last. -/
theorem Construction.coherent (k : Construction files drivers source options w c w') :
    Coherent c ∧ Opens c.loadContext drivers k.afterOutput c.inputs w' := by
  have plan := planStages k.planned
  obtain ⟨keys, resolved, hidentify⟩ := resolveZooms_ok plan.params
  rw [← k.initZooms] at keys hidentify
  rw [← k.paramsAt] at keys resolved
  rw [← k.declarations] at hidentify
  have opening := k.opening
  rw [InputRegistry.materialize, plan.identified, ← k.declarations] at opening
  obtain ⟨opens, opened⟩ := openAll_ok opening
  have context : k.plan.context c.document.configDir = c.loadContext := by
    simp only [Plan.context, loadContext, k.mode, k.pyramids, k.initZooms, k.bounds, k.initBounds]
  rw [context] at opens
  refine ⟨⟨keys, ?_, hidentify, opened⟩, opens⟩
  intro zoom p found
  exact resolved (zoom, p) (Dict.mem_of_get? found)

theorem coherent (built : (build files drivers source options).run.run w = (.ok c, w')) :
    Coherent c := by
  obtain ⟨k⟩ := construction built
  exact k.coherent.1

end Configuration

end ZoomConfig
