import ZoomConfig.Proofs.Configuration.Extents
import ZoomConfig.Proofs.Geometry.Order
import ZoomConfig.Proofs.Input.Ordering
import ZoomConfig.Proofs.Tree.RoundTrip
/-!
Configurations of fewer zoom levels.

What a zoom level resolves to does not depend on the levels before it, so fewer levels resolve if all
do (`resolveZooms_of_resolved`). The levels share their declarations, and a narrower range may open an
input from another one with the same identity; drivers that go by the source open it all the same
(`build_narrowed`). Where the inputs with one identity cover one area, configurations of one document
have the same snapshots and areas at the zoom levels that they share (`Coherent.snapshot_identified_eq`,
`Coherent.extents_eq`), and so nothing changes at the levels that stay (`narrowing`).
-/
namespace ZoomConfig

/-- A snapshot with the identities of the opened inputs in their places. -/
def Snapshot.identified {m : Type → Type} {α : Type} (s : Snapshot m α) :
    Nat × Mapping × Forest (Option ContentId) :=
  (s.zoom, s.params, Forest.mapLeaves (Option.map OpenedInput.id) s.input)

variable {σ α : Type}

theorem InputHandle.Agrees.covers {handle handle' : InputHandle (StateM σ) α}
    (h : handle.Agrees handle') {crs : Crs} {area : Area α} (covers : handle.Covers crs area) :
    handle'.Covers crs area := by
  intro w
  obtain ⟨_, answer⟩ := covers w
  have result := h crs w w
  rw [answer] at result
  exact ⟨((handle'.bbox crs).run w).2, Prod.ext result.symm rfl⟩

namespace Configuration

open Outcome InputRegistry

/-! ## Zoom levels on their own -/

theorem SameLeaves.unique {leaves : Dict String (Option Declaration)}
    {ids ids' : Dict String (Option ContentId)} (h : SameLeaves leaves ids)
    (h' : SameLeaves leaves ids') : ids = ids' := by
  have inj : Function.Injective fun i : String × Option ContentId =>
      (i.1, i.2.map (Except.ok (ε := ConfigError))) := by
    rintro ⟨path, id⟩ ⟨path', id'⟩ same
    rw [Prod.mk.injEq] at same ⊢
    exact ⟨same.1, Option.map_injective (fun _ _ => Except.ok.inj) same.2⟩
  exact List.map_injective_iff.mpr inj (h.trans h'.symm)

theorem Resolved.unique {params : List (NodeKey × Node)} {zoom : Nat} {p p' : ZoomParams}
    (h : Resolved params zoom p) (h' : Resolved params zoom p') : p = p' := by
  obtain ⟨others, input⟩ := p
  obtain ⟨others', input'⟩ := p'
  have leaves := h.leaves.unique h'.leaves
  have given := h.input.trans h'.input.symm
  obtain rfl : others = others' := h.others.trans h'.others.symm
  cases input <;> cases input' <;> simp_all

theorem identifyLeaves_succeeds : ∀ (leaves : List (String × Option Declaration)),
    (∀ path d, (path, some d) ∈ leaves → ∃ id, d.contentId = .ok id) →
    ∀ known, ∃ r, identifyLeaves known leaves = .ok r
  | [], _, known => ⟨_, rfl⟩
  | (path, none) :: rest, each, known => by
    obtain ⟨r, others⟩ := identifyLeaves_succeeds rest
      (fun path d mem => each path d (List.mem_cons_of_mem _ mem)) known
    exact ⟨_, by rw [identifyLeaves, others]; rfl⟩
  | (path, some d) :: rest, each, known => by
    obtain ⟨id, hid⟩ := each path d List.mem_cons_self
    obtain ⟨r, others⟩ := identifyLeaves_succeeds rest
      (fun path d mem => each path d (List.mem_cons_of_mem _ mem)) (Dict.insertNew known id d)
    exact ⟨_, by rw [identifyLeaves, hid]; simp only [others]; rfl⟩

/-- What resolves does so whatever is known before. -/
theorem Resolved.resolveZoom {params : List (NodeKey × Node)} {zoom : Nat} {p : ZoomParams}
    (h : Resolved params zoom p) (known : Dict ContentId Declaration) :
    ∃ after, resolveZoom params known zoom = .ok (p, after) := by
  -- It is enough that there is a result, which is determined.
  suffices some : ∃ r, Configuration.resolveZoom params known zoom = .ok r by
    obtain ⟨⟨p', after⟩, result⟩ := some
    rw [h.unique (resolveZoom_ok result).1]
    exact ⟨after, result⟩
  have found : inputAt? params zoom =
      (Mapping.remove (Node.resolveParams params zoom) inputKey).1 := by
    rw [Mapping.remove_fst, inputAt?]
  unfold Configuration.resolveZoom
  rcases hremove : Mapping.remove (Node.resolveParams params zoom) inputKey with ⟨_ | v, others⟩
  · exact ⟨_, rfl⟩
  · rw [hremove] at found
    obtain ⟨tree, parsed, leaves⟩ := h.parsed v found
    have each : ∀ path d, (path, some d) ∈ Forest.flatten tree → ∃ id, d.contentId = .ok id := by
      intro path d mem
      rw [← leaves] at mem
      obtain ⟨id, _, hid⟩ := h.leaves.bound
        ((Dict.mem_iff_get? (leavesAt_sorted params zoom) path _).mp mem)
      exact ⟨id, hid⟩
    obtain ⟨r, identified⟩ := identifyLeaves_succeeds _ each known
    simp only [flattenInput, parsed, identified]
    exact ⟨_, rfl⟩

/-- Zoom levels resolve together if each does. -/
theorem resolveZooms_of_resolved {params : List (NodeKey × Node)} : ∀ (zooms : List Nat),
    (∀ zoom ∈ zooms, ∃ p, Resolved params zoom p) → ∀ known, ∃ r,
      resolveZooms params known zooms = .ok r
  | [], _, known => ⟨_, rfl⟩
  | zoom :: rest, each, known => by
    obtain ⟨p, resolved⟩ := each zoom List.mem_cons_self
    obtain ⟨known', here⟩ := resolved.resolveZoom known
    obtain ⟨r, others⟩ :=
      resolveZooms_of_resolved rest (fun zoom mem => each zoom (List.mem_cons_of_mem _ mem)) known'
    exact ⟨_, by rw [resolveZooms, here]; simp only [others]; rfl⟩

/-! ## What zoom levels have in common -/

namespace Coherent

variable {c c' : Configuration (StateM σ) α} {zoom : Nat} {p : ZoomParams}

section Identities

variable (h : Coherent c) (ids : ∀ e ∈ c.inputs, e.2.id = e.1) (mem : zoom ∈ c.initZooms.toList)
  (resolved : Resolved c.document.params zoom p)

include h ids mem resolved

theorem openedLeaves_ids : (c.openedLeaves (p.input.getD [])).map
    (fun l => (l.1, l.2.map OpenedInput.id)) = p.input.getD [] := by
  rw [openedLeaves, List.map_map]
  refine (List.map_congr_left fun l leaf => ?_).trans (List.map_id _)
  obtain ⟨path, id?⟩ := l
  cases id? with
  | none => rfl
  | some id =>
    obtain ⟨input, found⟩ := Option.isSome_iff_exists.mp (h.opened_of_leaf mem resolved leaf)
    have same : input.id = id := ids (id, input) (Dict.mem_of_get? found)
    simp [found, same]

/-- With identities in the place of inputs, a snapshot is the tree of the leaves. -/
theorem snapshot_identified : (c.snapshot zoom).map Snapshot.identified =
    ((Forest.unflatten (p.input.getD [])).mapError fun e => .schema (.paths e)).map
      fun tree => (zoom, p.params, tree) := by
  obtain ⟨p', resolved', snapshot⟩ := h.snapshot_eq mem
  obtain rfl := resolved'.unique resolved
  have tree := Forest.unflatten_map (Option.map OpenedInput.id) (c.openedLeaves (p'.input.getD []))
  rw [h.openedLeaves_ids ids mem resolved] at tree
  rw [snapshot, tree]
  cases Forest.unflatten (c.openedLeaves (p'.input.getD [])) <;> rfl

theorem inputsOf_ids [Coordinate α] :
    (c.inputsOf p).map OpenedInput.id = (p.input.getD []).filterMap (·.2) := by
  conv_rhs => rw [← h.openedLeaves_ids ids mem resolved]
  simp only [inputsOf, openedLeaves, List.map_filterMap, List.map_map, List.filterMap_map]
  rfl

end Identities

section Two

variable (h : Coherent c) (h' : Coherent c') (document : c'.document = c.document)
  (mem : zoom ∈ c.initZooms.toList) (mem' : zoom ∈ c'.initZooms.toList)

include h h' document mem mem'

theorem params_eq : ∃ p, Resolved c.document.params zoom p ∧
    Dict.get? c.paramsAt zoom = some p ∧ Dict.get? c'.paramsAt zoom = some p := by
  obtain ⟨p, found, resolved⟩ := h.params_of_mem mem
  obtain ⟨p', found', resolved'⟩ := h'.params_of_mem mem'
  rw [document] at resolved'
  obtain rfl := resolved.unique resolved'
  exact ⟨p, resolved, found, found'⟩

theorem zoomParams_eq : c'.zoomParams zoom = c.zoomParams zoom := by
  obtain ⟨p, _, found, found'⟩ := h.params_eq h' document mem mem'
  simp only [zoomParams, found, found']

variable (ids : ∀ e ∈ c.inputs, e.2.id = e.1) (ids' : ∀ e ∈ c'.inputs, e.2.id = e.1)

include ids ids'

/-- Two configurations of one document have the same snapshots up to the handles, or refuse them
alike. -/
theorem snapshot_identified_eq :
    (c'.snapshot zoom).map Snapshot.identified = (c.snapshot zoom).map Snapshot.identified := by
  obtain ⟨p, resolved, _⟩ := h.params_eq h' document mem mem'
  rw [h.snapshot_identified ids mem resolved,
    h'.snapshot_identified ids' mem' (document ▸ resolved)]

/-- They have the same area if inputs with one identity cover one area. -/
theorem extents_eq [Coordinate α] (bounds : c'.initBounds = c.initBounds)
    (areaOf : ContentId → Area α) : c'.extents (fun input => areaOf input.id) (some zoom) =
      c.extents (fun input => areaOf input.id) (some zoom) := by
  obtain ⟨p, resolved, found, found'⟩ := h.params_eq h' document mem mem'
  have areas : ∀ d : Configuration (StateM σ) α, (d.inputsOf p).map (fun input => areaOf input.id) =
      ((d.inputsOf p).map OpenedInput.id).map areaOf := fun d => (List.map_map).symm
  simp only [extents, found, found', Option.map_some, Option.getD_some, extentAt, areas, bounds,
    h.inputsOf_ids ids mem resolved, h'.inputsOf_ids ids' mem' (document ▸ resolved)]

end Two

end Coherent

/-! ## Planning fewer zoom levels -/

theorem chooseZooms_narrow {declared zooms narrow : ZoomLevels} {wanted : List Nat}
    {before : Option (List Nat)} (chosen : chooseZooms declared before = .ok zooms)
    (given : ZoomLevels.ofList? wanted = .ok narrow) (inside : narrow.within zooms = true) :
    chooseZooms declared (some wanted) = .ok narrow := by
  have fits : narrow.within declared = true := by
    rw [ZoomLevels.within_iff] at inside ⊢
    have outer := (ZoomLevels.within_iff _ _).mp (chooseZooms_within chosen)
    exact fun zoom mem => outer zoom (inside zoom mem)
  unfold chooseZooms
  simp only [given, Except.mapError]
  refine bind_eq_ok.mpr ⟨narrow, rfl, ?_⟩
  rw [if_pos fits]
  rfl

/-- Another choice of zoom levels changes nothing else in a plan. -/
theorem Plan.of_chosen {doc : ProcessDocument} {options : InitOptions} {plan : Plan}
    (planned : Plan.of doc options = .ok plan) {zoom : Option (List Nat)} {zooms : ZoomLevels}
    (chosen : chooseZooms doc.zoomLevels zoom = .ok zooms) {paramsAt : Dict Nat ZoomParams}
    {declarations : Dict ContentId Declaration}
    (resolved : resolveZooms doc.params [] zooms.toList = .ok (paramsAt, declarations)) :
    Plan.of doc { options with zoom } =
      .ok { plan with initZooms := zooms, paramsAt, declarations } := by
  unfold Plan.of at planned ⊢
  obtain ⟨pyramids, hpyramids, planned⟩ := bind_eq_ok.mp planned
  refine bind_eq_ok.mpr ⟨pyramids, hpyramids, ?_⟩
  cases raw : doc.baselevels
  all_goals
    simp only [raw] at planned ⊢
    obtain ⟨baselevels, hbaselevels, planned⟩ := bind_eq_ok.mp planned
    refine bind_eq_ok.mpr ⟨baselevels, hbaselevels, ?_⟩
    cases hmode : Mode.ofName? options.mode with
    | none =>
      simp only [hmode] at planned
      exact absurd planned throw_ne_ok
    | some mode =>
      simp only [hmode] at planned ⊢
      obtain ⟨_, _, planned⟩ := bind_eq_ok.mp planned
      obtain ⟨initBounds, hbounds, planned⟩ := bind_eq_ok.mp planned
      obtain ⟨_, _, planned⟩ := bind_eq_ok.mp planned
      obtain rfl := pure_eq_ok.mp planned
      refine bind_eq_ok.mpr ⟨zooms, chosen, ?_⟩
      refine bind_eq_ok.mpr ⟨initBounds, hbounds, ?_⟩
      exact bind_eq_ok.mpr ⟨_, resolved, rfl⟩

/-! ## Building with fewer zoom levels -/

/-- Declarations with one identity are alike. -/
def AlikeById (ds : List Declaration) : Prop :=
  ∀ d ∈ ds, ∀ d' ∈ ds, ∀ id, d.contentId = .ok id → d'.contentId = .ok id → d.Alike d'

variable [Coordinate α] {files : Files (StateM σ)} {drivers : Drivers (StateM σ) α}
  {source : DocumentSource} {options : InitOptions} {w w' : σ} {c c' : Configuration (StateM σ) α}

omit [Coordinate α] in
/-- A declaration is opened in every world, with any delimiters, and its handle agrees with the one
that was opened for its identity. -/
theorem Coherent.openInput_declared (h : Coherent c)
    (opens : Opens c.loadContext drivers w c.inputs w')
    (bySource : ∀ driver ∈ drivers.inputs, driver.BySource) (alike : AlikeById c.declared)
    {d : Declaration} (declared : d ∈ c.declared) {id : ContentId} (hid : d.contentId = .ok id)
    (delimiters : Delimiters α) (w₁ : σ) :
    ∃ handle w₂, (openInput { c.loadContext with delimiters } drivers d).run w₁ =
        (.ok handle, w₂) ∧
      ∃ input, Dict.get? c.inputs id = some input ∧ input.handle.Agrees handle := by
  -- What was opened for the identity is an alike declaration.
  obtain ⟨input, found, _, first, hid'⟩ := h.opened_of_declared declared hid
  obtain ⟨_, _, _, _, _, loaded, answer⟩ := opens.each (id, input) (Dict.mem_of_get? found)
  obtain ⟨handle, w₂, here, agree⟩ :=
    openInput_alike bySource (alike _ first _ declared id hid' hid) loaded answer delimiters w₁
  exact ⟨handle, w₂, here, input, found, agree⟩

/-- A configuration with fewer zoom levels is built, its inputs are opened in the first one too, and
their handles agree. -/
theorem build_narrowed (built : (build files drivers source options).run.run w = (.ok c, w'))
    (bySource : ∀ driver ∈ drivers.inputs, driver.BySource) (alike : AlikeById c.declared)
    {wanted : List Nat} {narrow : ZoomLevels} (given : ZoomLevels.ofList? wanted = .ok narrow)
    (inside : narrow.within c.initZooms = true) :
    ∃ paramsAt declarations inputs w'',
      (build files drivers source { options with zoom := some wanted }).run.run w =
        (.ok { c with initZooms := narrow, paramsAt, declarations, inputs }, w'') ∧
      ∀ e ∈ inputs, ∃ input, Dict.get? c.inputs e.1 = some input ∧
        input.handle.Agrees e.2.handle := by
  obtain ⟨k⟩ := construction built
  obtain ⟨h, opens⟩ := k.coherent
  have stays := (ZoomLevels.within_iff _ _).mp inside
  -- The plan is the one of `c` but for its zoom levels.
  have chosen := (planStages k.planned).zooms
  rw [← k.initZooms] at chosen
  obtain ⟨⟨paramsAt, declarations⟩, resolved⟩ := resolveZooms_of_resolved narrow.toList
    (fun zoom mem => by
      obtain ⟨p, _, resolved⟩ := h.params_of_mem (stays zoom mem)
      exact ⟨p, resolved⟩) []
  have planned := Plan.of_chosen k.planned (chooseZooms_narrow chosen given inside) resolved
  obtain ⟨_, _, known⟩ := resolveZooms_ok resolved
  obtain ⟨inputs, w'', opening, agree⟩ := openAll_of_each (P := fun id handle =>
    ∃ input, Dict.get? c.inputs id = some input ∧ input.handle.Agrees handle)
    (fun e mem => by
      obtain ⟨bound, hid⟩ := identify_mem known
        ((Dict.mem_iff_get? (identify_sorted known Dict.sorted_nil) e.1 e.2).mp mem)
      obtain ⟨zoom, level, bound⟩ := List.mem_flatMap.mp bound
      have declared : e.2 ∈ c.declared := List.mem_flatMap.mpr ⟨zoom, stays zoom level, bound⟩
      exact h.openInput_declared opens bySource alike declared hid
        ⟨narrow, c.initBounds, c.bounds⟩) k.afterOutput
  refine ⟨paramsAt, declarations, inputs, w'', ?_, agree⟩
  have materialized : (InputRegistry.materialize
      (Plan.context { k.plan with initZooms := narrow, paramsAt, declarations }
        c.document.configDir) drivers (declarations.map (·.2))).run k.afterOutput =
      (.ok inputs, w'') := by
    rw [InputRegistry.materialize,
      identify_values (identify_sorted known Dict.sorted_nil) (identify_faithful known)]
    simpa only [Plan.context, loadContext, k.mode, k.pyramids, k.bounds, k.initBounds] using opening
  -- The stages before the plan, and the output, are those of `c`.
  exact Construction.built {
    k with
    plan := { k.plan with initZooms := narrow, paramsAt, declarations }
    planned
    opening := materialized
    initZooms := rfl
    paramsAt := rfl
    declarations := rfl }

theorem inputs_identified (built : (build files drivers source options).run.run w = (.ok c, w')) :
    ∀ e ∈ c.inputs, e.2.id = e.1 := by
  obtain ⟨k⟩ := construction built
  exact fun e mem => (k.coherent.2.each e mem).1

/-- With drivers that go by the source, each opened input covers an area in all worlds. -/
theorem inputs_cover (built : (build files drivers source options).run.run w = (.ok c, w'))
    (bySource : ∀ driver ∈ drivers.inputs, driver.BySource) : ∃ areaOf : ContentId → Area α,
      ∀ e ∈ c.inputs, e.2.handle.Covers c.pyramids.process.crs (areaOf e.1) := by
  obtain ⟨k⟩ := construction built
  obtain ⟨h, opens⟩ := k.coherent
  have steady : ∀ e ∈ c.inputs, e.2.handle.Steady c.pyramids.process.crs := by
    intro e mem
    obtain ⟨_, w₁, _, _, _, loaded, answer⟩ := opens.each e mem
    obtain ⟨_, _, _, agree⟩ :=
      openInput_alike bySource (.refl _) loaded answer c.loadContext.delimiters w₁
    exact agree.left _
  obtain ⟨covered, covers⟩ := covered_of_steady steady opens.answered
  refine ⟨fun id => ((Dict.get? c.inputs id).map covered).getD .empty, fun e mem => ?_⟩
  simpa only [Dict.get?_of_mem h.inputs_distinct.1 mem, Option.map_some, Option.getD_some]
    using covers e mem

/-! ## Narrowing -/

theorem extents_none_mono [Coordinate.Transitive α] {covered : OpenedInput (StateM σ) α → Area α}
    (stays : ∀ zoom ∈ c'.initZooms.toList, zoom ∈ c.initZooms.toList ∧
      c'.extents covered (some zoom) = c.extents covered (some zoom)) {x y : α}
    (inside : (c'.extents covered none).Has x y) : (c.extents covered none).Has x y := by
  refine Area.unionAll_mono (fun a mem => ?_) inside
  obtain ⟨zoom, level, rfl⟩ := List.mem_map.mp mem
  obtain ⟨level', same⟩ := stays zoom level
  exact List.mem_map.mpr ⟨zoom, level', same.symm⟩

/-- If a configuration was built with drivers that go by the source, and its declarations with one
identity are alike, then it is built for any range within its zoom levels too. At the zoom levels that
stay it has the same parameters, the same identities at the same paths, the same snapshots but for the
handles, or the same refusals, and the same areas. It opens nothing that was not opened before, and
all its zoom levels together have no new points. -/
theorem narrowing [Coordinate.Transitive α]
    (built : (build files drivers source options).run.run w = (.ok c, w'))
    (bySource : ∀ driver ∈ drivers.inputs, driver.BySource) (alike : AlikeById c.declared)
    {wanted : List Nat} {narrow : ZoomLevels} (given : ZoomLevels.ofList? wanted = .ok narrow)
    (inside : narrow.within c.initZooms = true) :
    ∃ c' w'', (build files drivers source { options with zoom := some wanted }).run.run w =
        (.ok c', w'') ∧ c'.initZooms = narrow ∧
      (∀ zoom ∈ narrow.toList, c'.zoomParams zoom = c.zoomParams zoom ∧
        (c'.snapshot zoom).map Snapshot.identified = (c.snapshot zoom).map Snapshot.identified) ∧
      (∀ id ∈ Dict.keys c'.inputs, id ∈ Dict.keys c.inputs) ∧
      ∃ areas areas' : Option Nat → Area α, c.Answers areas ∧ c'.Answers areas' ∧
        (∀ zoom ∈ narrow.toList, areas' (some zoom) = areas (some zoom)) ∧
        ∀ x y, (areas' none).Has x y → (areas none).Has x y := by
  obtain ⟨paramsAt, declarations, inputs, w'', built', opened⟩ :=
    build_narrowed built bySource alike given inside
  have h := coherent built
  have h' := coherent built'
  have ids := inputs_identified built
  have ids' := inputs_identified built'
  have stays := (ZoomLevels.within_iff _ _).mp inside
  -- Inputs with one identity cover one area in both configurations.
  obtain ⟨areaOf, covers⟩ := inputs_cover built bySource
  have covers₁ : ∀ e ∈ c.inputs, e.2.handle.Covers c.pyramids.process.crs (areaOf e.2.id) := by
    intro e mem
    rw [ids e mem]
    exact covers e mem
  have covers₂ : ∀ e ∈ inputs, e.2.handle.Covers c.pyramids.process.crs (areaOf e.2.id) := by
    intro e mem
    rw [ids' e mem]
    obtain ⟨input, found, agree⟩ := opened e mem
    exact agree.covers (covers (e.1, input) (Dict.mem_of_get? found))
  have same : ∀ zoom ∈ narrow.toList, _ := fun zoom level =>
    h.extents_eq h' rfl (stays zoom level) level ids ids' rfl areaOf
  refine ⟨_, w'', built', rfl, ?_, ?_, _, _, h.answers covers₁, h'.answers covers₂, same, ?_⟩
  · intro zoom level
    exact ⟨h.zoomParams_eq h' rfl (stays zoom level) level,
      h.snapshot_identified_eq h' rfl (stays zoom level) level ids ids'⟩
  · intro id mem
    obtain ⟨e, there, rfl⟩ := List.mem_map.mp mem
    obtain ⟨input, found, _⟩ := opened e there
    rw [← Dict.isSome_get?_iff, found]
    rfl
  · intro x y
    exact extents_none_mono fun zoom level => ⟨stays zoom level, same zoom level⟩

/-- Files have one area, and mappings that say so lie in the east. -/
def placedArea : InputSource → Area ℚ
  | .path _ => .ofBox ⟨0, 0, 10, 10⟩
  | .entries m _ => if Mapping.text? m "at" = some "east" then .ofBox easternBox else .empty

/-- Drivers of one format whose inputs have these areas. -/
def placedDrivers : Drivers (StateM Unit) ℚ where
  inputs := [{ name := "Open", extensions := ["x"],
               load := fun request =>
                 pure (.ok ⟨"Open", fun _ => pure (.ok (placedArea request.source))⟩) }]
  outputs := [{ name := "Open", load := fun _ => pure (.ok ⟨"Open", fun _ => pure (.ok ())⟩) }]

theorem placedArea_alike : ∀ {source source' : InputSource}, source.Alike source' →
    placedArea source = placedArea source'
  | .path _, .path _, _ => rfl
  | .entries _ _, .entries _ _, h => by simp only [placedArea, h.1.text? "at"]

theorem placedDrivers_bySource : ∀ driver ∈ placedDrivers.inputs, driver.BySource := by
  intro driver mem
  obtain rfl := List.mem_singleton.mp mem
  intro request source delimiters alike w w' crs w₁ w₂
  exact congrArg Except.ok (placedArea_alike alike)

/-- A document with two zoom levels. Its input in the east is written in another order at each of
them, and its file is used at the lower one only. -/
def twoLevels : DocumentSource :=
  .mapping [
    (.string configDirKey, .string "/base"),
    (.string "process_file", .string "process.py"),
    (.string "zoom_levels", .mapping [(.string "min", .number (.int 3)),
      (.string "max", .number (.int 4))]),
    (.string "pyramid", .mapping [(.string "grid", .string "geodetic")]),
    (.string inputKey, .mapping [
      (.string "a", .mapping [
        (.string "zoom<4", .mapping [(.string formatKey, .string "Open"),
          (.string "at", .string "east")]),
        (.string "zoom>=4", .mapping [(.string "at", .string "east"),
          (.string formatKey, .string "Open")])]),
      (.string "b", .mapping [(.string "zoom<4", .string "b.x")])]),
    (.string "output", .mapping [(.string formatKey, .string "Open")])]

/-- Are both one path, or mappings of the same two texts? -/
def alikeTexts : Declaration → Declaration → Bool
  | .path s, .path t => s == t
  | .entries [(.string k, .string v), (.string l, .string u)],
    .entries [(.string k', .string v'), (.string l', .string u')] =>
    k != l && ((k, v, l, u) == (k', v', l', u') || (k, v, l, u) == (l', u', k', v'))
  | _, _ => false

theorem alike_of_alikeTexts {d d' : Declaration} (h : alikeTexts d d' = true) : d.Alike d' := by
  unfold alikeTexts at h
  split at h
  · exact eq_of_beq h
  · next k v l u k' v' l' u' =>
    simp only [Bool.and_eq_true, bne_iff_ne, Bool.or_eq_true, beq_iff_eq, Prod.mk.injEq] at h
    obtain ⟨apart, ⟨rfl, rfl, rfl, rfl⟩ | ⟨rfl, rfl, rfl, rfl⟩⟩ := h
    · exact .inl rfl
    · refine .inr ⟨?_, .order (.swap _ _ _)⟩
      simpa [Value.Distinct, Value.DistinctEntries] using apart
  · cases h

/-- At zoom level four alone the input in the east is opened from the declaration there, and the file
is not opened. -/
theorem narrowing_reordered : ∃ c w', (build emptyFiles placedDrivers twoLevels .default).run.run () =
      (.ok c, w') ∧ c.initZooms.toList = [3, 4] ∧ (Dict.keys c.inputs).length = 2 ∧
    ∃ c' w'', (build emptyFiles placedDrivers twoLevels
        { InitOptions.default with zoom := some [4] }).run.run () = (.ok c', w'') ∧
      c'.initZooms.toList = [4] ∧ c'.zoomParams 4 = c.zoomParams 4 ∧
      ∃ areas areas' : Option Nat → Area ℚ, c.Answers areas ∧ c'.Answers areas' ∧
        areas' (some 4) = areas (some 4) := by
  obtain ⟨c, w', built, test⟩ := givesWith_iff (build emptyFiles placedDrivers twoLevels .default) ()
    (fun c => decide (c.initZooms = ⟨3, 4, by decide⟩ ∧ (Dict.keys c.inputs).length = 2 ∧
      ∀ d ∈ c.declared, ∀ d' ∈ c.declared, d.contentId.toOption = d'.contentId.toOption →
        alikeTexts d d' = true)) |>.mp (by decide +kernel)
  obtain ⟨zooms, count, alike⟩ := of_decide_eq_true test
  have alikeById : AlikeById c.declared := by
    intro d mem d' mem' id hid hid'
    exact alike_of_alikeTexts (alike d mem d' mem' (by rw [hid, hid']))
  have given : ZoomLevels.ofList? [4] = .ok (.single 4) := rfl
  obtain ⟨c', w'', built', range, stay, _, areas, areas', answers, answers', same, _⟩ :=
    narrowing built placedDrivers_bySource alikeById given (by rw [zooms]; decide)
  have level : 4 ∈ (ZoomLevels.single 4).toList := by decide
  exact ⟨c, w', built, by rw [zooms]; rfl, count, c', w'', built', by rw [range]; rfl,
    (stay 4 level).1, areas, areas', answers, answers', same 4 level⟩

end Configuration

end ZoomConfig
