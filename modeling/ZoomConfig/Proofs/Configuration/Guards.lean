import ZoomConfig.Proofs.Configuration.Leaves
import ZoomConfig.Proofs.Document.Sections
import ZoomConfig.Proofs.Pyramids
/-!
Constructions do not end with errors of guards.

Some stages guard against what an earlier one has excluded already. `Defensive` names the errors that
nothing but such a guard gives, and `Unguarded` says that a computation does not end with one of them.
This goes along with the ways in which stages are put together, so it is enough to go through them one
by one (`build_unguarded`).
-/
namespace ZoomConfig

open Outcome

/-- Errors that nothing but a guard gives, and the stop of a cache that is filled behind its back. -/
def ConfigError.Defensive : ConfigError → Prop
  | .schema (.parameterNotText _) | .schema (.parameterNotMapping _) | .schema (.notOpened _ _)
  | .schema .reentered => True
  | _ => False

variable {β γ σ α : Type}

/-- A computation does not end with an error of a guard. -/
def Unguarded (x : Except ConfigError β) : Prop := Ends (fun _ => True) (fun e => ¬e.Defensive) x

namespace Unguarded

variable {x : Except ConfigError β}

theorem ok (b : β) : Unguarded (.ok b) := trivial

theorem error {e : ConfigError} (h : ¬e.Defensive) : Unguarded (.error e : Except _ β) := h

theorem bind {f : β → Except ConfigError γ} (hx : Unguarded x)
    (hf : ∀ b, x = .ok b → Unguarded (f b)) : Unguarded (x >>= f) := by
  cases x with
  | ok b => exact hf b rfl
  | error e => exact hx

theorem ends (hx : Unguarded x) : Ends (fun b => x = .ok b) (fun e => ¬e.Defensive) x := by
  cases x with
  | ok b => exact .ok rfl
  | error e => exact hx

theorem map (hx : Unguarded x) (f : β → γ) : Unguarded (x.map f) := Ends.map hx fun _ _ => trivial

/-- Errors that are all put in a place without guards. -/
theorem inPlace {ε : Type} {f : ε → ConfigError} (hf : ∀ e, ¬(f e).Defensive) (x : Except ε β) :
    Unguarded (x.mapError f) := by
  cases x with
  | ok b => exact ok b
  | error e => exact hf e

end Unguarded

/-! ## Documents -/

theorem ConfigError.ofKey_not_defensive (e : KeyError) : ¬(ConfigError.ofKey e).Defensive := by
  cases e <;> exact id

theorem ofText_unguarded (real text : String) : Unguarded (LoadedDocument.ofText real text) := by
  have parsed : Unguarded (LoadedDocument.parseText text) := by
    unfold LoadedDocument.parseText
    split <;> first | exact .ok _ | exact .error id
  unfold LoadedDocument.ofText
  split
  · exact .error id
  · exact parsed.map _

theorem always_true (x : StateM σ β) : Always (fun _ => True) x := fun _ => trivial

theorem load_unguarded (files : Files (StateM σ)) (source : DocumentSource) :
    Always Unguarded (LoadedDocument.load files source) := by
  cases source with
  | mapping entries =>
    refine .pure ?_
    unfold LoadedDocument.ofMapping
    split <;> first | exact .ok _ | exact .error id
  | file path =>
    show Always Unguarded (LoadedDocument.ofFile files path)
    unfold LoadedDocument.ofFile
    split
    · exact .pure (.error id)
    · refine (always_true _).bind fun text _ => ?_
      split
      · exact .pure (.error id)
      · refine (always_true _).bind fun real _ => ?_
        split
        · exact .pure (.error id)
        · exact .pure (ofText_unguarded _ _)

theorem normalize_unguarded (m : Mapping) : Unguarded ((normalize m).mapError .schema) := by
  have pyramid : Ends (fun _ => True) (fun e => ¬(ConfigError.schema e).Defensive)
      (Normalized.withPyramid m) := by
    unfold Normalized.withPyramid
    split
    · trivial
    · split
      · exact .error id
      · split <;> first | exact .ok trivial | exact .error id
  have zooms : ∀ m, Ends (fun _ => True) (fun e => ¬(ConfigError.schema e).Defensive)
      (Normalized.withZoomLevels m) := by
    intro m
    unfold Normalized.withZoomLevels
    split
    · trivial
    · split <;> first | exact .ok trivial | exact .error id
  have input : ∀ m, Ends (fun _ => True) (fun e => ¬(ConfigError.schema e).Defensive)
      (Normalized.withInput m) := by
    intro m
    unfold Normalized.withInput
    split <;> first | exact .ok trivial | exact .error id
  have whole : Ends (fun _ => True) (fun e => ¬(ConfigError.schema e).Defensive) (normalize m) :=
    pyramid.bind fun a _ => (zooms a.mapping).bind fun b _ => (input _).bind fun _ _ => trivial
  exact whole.mapError fun _ h => h

section Sections

variable (m : Mapping)

theorem optionalNat_unguarded (key : String) (default : Nat) :
    Unguarded (optionalNat m key default) := by
  unfold optionalNat
  split
  · exact .ok _
  · exact .ok _
  · split <;> first | exact .ok _ | exact .error id

theorem pyramidSection_unguarded : Unguarded (PyramidSection.ofMapping m) := by
  unfold PyramidSection.ofMapping
  split
  · refine (Unguarded.inPlace (fun _ => id) _).bind fun grid _ => ?_
    refine (optionalNat_unguarded m _ _).bind fun metatiling _ => ?_
    exact (optionalNat_unguarded m _ _).bind fun pixelbuffer _ => .ok _
  · exact .error id

theorem floatsOfValues_unguarded (items : List Value) : Unguarded (floatsOfValues items) := by
  induction items with
  | nil => exact .ok _
  | cons v rest ih =>
    unfold floatsOfValues
    split
    · exact .error id
    · exact ih.map _

theorem boundsOfValue_unguarded (v : Value) : Unguarded (boundsOfValue v) := by
  unfold boundsOfValue
  split
  · exact .error id
  · next items _ =>
    split
    · next e failed => exact .error ((floatsOfValues_unguarded items).failure failed)
    · exact .inPlace (fun _ => id) _

theorem boundsAt_unguarded : Unguarded (ProcessDocument.boundsAt m) := by
  unfold ProcessDocument.boundsAt
  split
  · exact .ok _
  · exact .ok _
  · exact (boundsOfValue_unguarded _).map _

theorem baselevelsAt_unguarded : Unguarded (ProcessDocument.baselevelsAt m) := by
  unfold ProcessDocument.baselevelsAt
  split <;> first | exact .ok _ | exact .error id

theorem checkParameters_unguarded : ∀ shapes : List (String × Shape),
    Unguarded (ProcessDocument.checkParameters m shapes)
  | [] => .ok _
  | (key, shape) :: rest => by
    have here : Unguarded (ProcessDocument.checkParameter m key shape) := by
      unfold ProcessDocument.checkParameter
      split
      · exact .error id
      · split <;> first | exact .ok _ | exact .error id
    unfold ProcessDocument.checkParameters
    split
    · next e failed => exact .error (here.failure failed)
    · exact checkParameters_unguarded rest

/-- Once the mandatory parameters are checked, reading them does not fail. -/
theorem ofMapping_unguarded (configDir : String) (file : Option String) :
    Unguarded (ProcessDocument.ofMapping m configDir file) := by
  have given : ∀ {β : Type} {x : Except ConfigError β}, (∃ b, x = .ok b) → Unguarded x := by
    intro β x found
    obtain ⟨b, rfl⟩ := found
    exact .ok b
  unfold ProcessDocument.ofMapping
  refine (checkParameters_unguarded m _).bind fun _ checked => ?_
  have readable := ProcessDocument.readable checked
  refine (given readable.processFile).bind fun processFile _ => ?_
  refine (given readable.pyramid).bind fun entries _ => ?_
  refine (pyramidSection_unguarded entries).bind fun pyramid _ => ?_
  refine (given readable.zoomLevels).bind fun v _ => ?_
  refine (Unguarded.inPlace (fun _ => id) _).bind fun zoomLevels _ => ?_
  refine (boundsAt_unguarded m).bind fun bounds _ => ?_
  refine (given readable.output).bind fun output _ => ?_
  refine (baselevelsAt_unguarded m).bind fun baselevels _ => ?_
  exact (Unguarded.inPlace ConfigError.ofKey_not_defensive _).bind fun params _ => .ok _

end Sections

/-! ## Plans -/

namespace Configuration

section Plans

mutual

theorem ofValue_unguarded (name : String) : ∀ v : Value, Unguarded (InputTree.ofValue name v)
  | .null | .string _ => .ok _
  | .mapping entries => by
    unfold InputTree.ofValue
    split
    · exact .ok _
    · exact (addEntries_unguarded entries []).map _
  | .bool _ | .number _ | .sequence _ | .tagged _ _ => .error id

theorem addEntries_unguarded : ∀ (entries : List (Value × Value))
    (nodes : List (String × Tree (Option Declaration))),
    Unguarded (InputTree.addEntries nodes entries)
  | [], _ => .ok _
  | (k, v) :: rest, nodes => by
    unfold InputTree.addEntries
    split
    · exact .error (ConfigError.ofKey_not_defensive _)
    · next name _ =>
      split
      · next e failed => exact .error ((ofValue_unguarded name v).failure failed)
      · exact addEntries_unguarded rest _

end

theorem contentId_unguarded (d : Declaration) : Unguarded d.contentId := by
  cases d with
  | path text => exact .ok _
  | entries m => exact .inPlace (fun _ => id) _

theorem identifyLeaves_unguarded : ∀ (leaves : List (String × Option Declaration))
    (known : Dict ContentId Declaration), Unguarded (identifyLeaves known leaves)
  | [], _ => .ok _
  | (_, none) :: rest, known => (identifyLeaves_unguarded rest known).map _
  | (_, some d) :: rest, known => by
    unfold identifyLeaves
    split
    · next e failed => exact .error ((contentId_unguarded d).failure failed)
    · exact (identifyLeaves_unguarded rest _).map _

theorem flattenInput_unguarded (known : Dict ContentId Declaration) (v : Value) :
    Unguarded (flattenInput known v) := by
  have parsed : Unguarded (InputTree.parse v) := by
    unfold InputTree.parse
    split
    · split
      · exact .error id
      · exact addEntries_unguarded _ []
    · exact .error id
  unfold flattenInput
  split
  · next e failed => exact .error (parsed.failure failed)
  · exact identifyLeaves_unguarded _ known

theorem resolveZooms_unguarded (params : List (NodeKey × Node)) : ∀ (zooms : List Nat)
    (known : Dict ContentId Declaration), Unguarded (resolveZooms params known zooms)
  | [], _ => .ok _
  | zoom :: rest, known => by
    have here : Unguarded (resolveZoom params known zoom) := by
      unfold resolveZoom
      split
      · exact .ok _
      · exact (flattenInput_unguarded known _).map _
    unfold resolveZooms
    split
    · next e failed => exact .error (here.failure failed)
    · exact (resolveZooms_unguarded params rest _).map _

theorem pyramids_unguarded (declared : PyramidSection) (output : Mapping) :
    Unguarded (Pyramids.build declared output) := by
  unfold Pyramids.build
  refine (Unguarded.inPlace (fun _ => id) _).bind fun process _ => ?_
  refine (optionalNat_unguarded output _ _).bind fun metatiling _ => ?_
  split
  · exact .error id
  · refine (optionalNat_unguarded output _ _).bind fun pixelbuffer _ => ?_
    exact (Unguarded.inPlace (fun _ => id) _).bind fun output _ => .ok _

theorem baselevels_unguarded (m : Mapping) (zooms : ZoomLevels) (process output : Pyramid) :
    Unguarded (Baselevels.ofMapping m zooms process output) := by
  refine Baselevels.ofMapping_ends.imp (fun _ _ => trivial) fun e refused => ?_
  cases refused <;> exact id

theorem chooseZooms_unguarded (declared : ZoomLevels) (wanted : Option (List Nat)) :
    Unguarded (chooseZooms declared wanted) := by
  have last : ∀ range : ZoomLevels, Unguarded (if range.within declared = true then pure range
      else throw (.zoomRange (.notDeclared range declared))) := by
    intro range
    split <;> first | exact .ok _ | exact .error id
  unfold chooseZooms
  cases wanted with
  | none => exact last declared
  | some zooms => exact (Unguarded.inPlace (fun _ => id) _).bind fun range _ => last range

theorem chooseBounds_unguarded (declared : Box Float) (wanted : Option (List Float)) :
    Unguarded (chooseBounds declared wanted) := by
  cases wanted with
  | none => exact .ok _
  | some values => exact .inPlace (fun _ => id) _

theorem plan_unguarded (doc : ProcessDocument) (options : InitOptions) :
    Unguarded (Plan.of doc options) := by
  unfold Plan.of
  refine (pyramids_unguarded _ _).bind fun pyramids _ => ?_
  have levels : ∀ raw, Unguarded ((Baselevels.ofMapping raw doc.zoomLevels pyramids.process
      pyramids.output).map some) := fun raw => (baselevels_unguarded _ _ _ _).map _
  -- The stages that follow are the same whether a document has baselevels or not.
  cases doc.baselevels
  all_goals
    refine Unguarded.bind (by first | exact .ok _ | exact levels _) fun baselevels _ => ?_
    dsimp only
    cases Mode.ofName? options.mode with
    | none => exact .error id
    | some mode =>
      refine (chooseZooms_unguarded _ _).bind fun initZooms _ => ?_
      refine (chooseBounds_unguarded _ _).bind fun initBounds _ => ?_
      exact (resolveZooms_unguarded _ _ _).bind fun _ _ => .ok _

end Plans

/-! ## Constructions -/

section Stages

theorem checkProcessFile_unguarded (files : Files (StateM σ)) (configDir processFile : String) :
    Always Unguarded (checkProcessFile files configDir processFile) := by
  unfold checkProcessFile
  refine (always_true _).bind fun there _ => ?_
  split
  · refine (always_true _).bind fun text _ => ?_
    split
    · exact .pure (.error id)
    · exact .pure (.ok _)
  · exact .pure (.error id)

theorem outputParams_unguarded (output : Mapping) (configDir : String) (pyramid : Pyramid)
    (available : List String) :
    Unguarded (OutputParams.ofMapping output configDir pyramid available) := by
  have path : Unguarded (OutputParams.pathOf output configDir) := by
    unfold OutputParams.pathOf
    split <;> first | exact .ok _ | exact .error id
  unfold OutputParams.ofMapping
  split
  · split
    · exact .error id
    · exact path.bind fun _ _ => .ok _
  · exact .error id

variable (drivers : Drivers (StateM σ) α)

theorem loadOutput_unguarded (params : OutputParams) :
    Always Unguarded (loadOutput drivers params) := by
  unfold loadOutput
  dsimp only
  split
  · exact .pure (.error id)
  · refine (always_true _).bind fun loaded _ => ?_
    split
    · exact .pure (.error id)
    · refine (always_true _).bind fun checked _ => ?_
      split
      · exact .pure (.error id)
      · exact .pure (.ok _)

/-- Inputs fail to open only by an error of their driver. -/
theorem openAll_ends (ctx : LoadContext α) : ∀ known : List (ContentId × Declaration),
    Always (Ends (fun _ => True) fun e => ∃ what cause, e = .driver what cause)
      (InputRegistry.openAll ctx drivers known)
  | [] => .pure trivial
  | (id, d) :: rest => by
    unfold InputRegistry.openAll
    refine (always_true _).bind fun opened _ => ?_
    split
    · exact .pure ⟨_, _, rfl⟩
    · refine (openAll_ends ctx rest).bind fun others ends => ?_
      split
      · next e => exact .pure ends
      · exact .pure trivial

/-- So the inputs of a plan, whose declarations have their identities already. -/
theorem materialize_ends {doc : ProcessDocument} {options : InitOptions} {plan : Plan}
    (planned : Plan.of doc options = .ok plan) (ctx : LoadContext α) :
    Always (Ends (fun _ => True) fun e => ∃ what cause, e = .driver what cause)
      (InputRegistry.materialize ctx drivers (plan.declarations.map (·.2))) := by
  rw [InputRegistry.materialize, (planStages planned).identified]
  exact openAll_ends drivers ctx plan.declarations

end Stages

/-- No construction ends with an error of a guard. -/
theorem build_unguarded [Coordinate α] (files : Files (StateM σ)) (drivers : Drivers (StateM σ) α)
    (source : DocumentSource) (options : InitOptions) :
    Always Unguarded (build files drivers source options).run := by
  have checked : ∀ loaded, Unguarded (checkDocument loaded) := fun loaded =>
    (normalize_unguarded _).bind fun _ _ => (ofMapping_unguarded _ _ _).bind fun _ _ => .ok _
  unfold build
  refine Always.stages (load_unguarded files source) fun loaded _ => ?_
  refine Always.stages (.pure (checked loaded)) fun document _ => ?_
  refine Always.stages (checkProcessFile_unguarded files _ _) fun processFile _ => ?_
  refine Always.stages (.pure (plan_unguarded document.1 options).ends) fun plan planned => ?_
  refine Always.stages (.pure (outputParams_unguarded _ _ _ _)) fun outputParams _ => ?_
  refine Always.stages (loadOutput_unguarded drivers outputParams) fun output _ => ?_
  have opening : Always Unguarded (InputRegistry.materialize (plan.context document.1.configDir)
      drivers (plan.declarations.map (·.2))) := by
    refine fun w => (materialize_ends drivers planned _ w).imp (fun _ _ => trivial) fun e failed => ?_
    obtain ⟨what, cause, rfl⟩ := failed
    exact id
  exact Always.stages opening fun inputs _ => .pure (.ok trivial)

end Configuration

end ZoomConfig
