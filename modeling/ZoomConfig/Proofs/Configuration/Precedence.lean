import ZoomConfig.Proofs.Configuration.Conditions
import ZoomConfig.Proofs.Document.CurrentForm
/-!
Which keys of a document count.

A document that has all sections in their current form is read without a look at the deprecated keys
that these sections replace: wherever such keys stand and whatever their values are, the same document
comes out, or the same error (`checkDocument_standing`). The keys of sections, deprecated or not, are
never parameters, and neither is the key of the inputs (`params_visible`). Both hold of whole
configurations (`current_keys_win`).
-/
namespace ZoomConfig

open Outcome

/-- The deprecated keys that give way to sections in their current form. -/
def supersededKeys : List String :=
  ["process_minzoom", "process_maxzoom", "process_zoom", "process_bounds", "metatiling",
    "pixelbuffer"]

/-- Is an entry none of those that give way? -/
def isStanding (e : Value × Value) : Bool :=
  match e.1 with
  | .string s => !supersededKeys.contains s
  | _ => true

theorem superseded_reserved : ∀ name ∈ supersededKeys, name ∈ reservedParameters := by decide

/-- An entry that gives way has the name of a reserved parameter. -/
theorem keyText_of_not_isStanding {e : Value × Value} (gives : isStanding e = false) :
    ∃ name ∈ reservedParameters, keyText e.1 = .ok name := by
  obtain ⟨k, v⟩ := e
  cases k with
  | string s =>
    have inside : s ∈ supersededKeys := by simpa [isStanding] using gives
    exact ⟨s, superseded_reserved s inside, rfl⟩
  | _ => simp [isStanding] at gives

/-! ## Reading the entries that stand -/

section Standing

variable {m : Mapping} {key : String}

/-- The entries that stand. -/
def Mapping.standing (m : Mapping) : Mapping := m.filter isStanding

theorem Mapping.get?_standing (other : key ∉ supersededKeys) :
    get? m.standing key = get? m key := by
  induction m with
  | nil => rfl
  | cons e rest ih =>
    obtain ⟨k, v⟩ := e
    rw [standing] at ih ⊢
    by_cases stands : isStanding (k, v) = true
    · rw [List.filter_cons_of_pos stands]
      cases k with
      | string s => simp only [get?, ih]
      | _ => simpa only [get?] using ih
    · rw [List.filter_cons_of_neg stands, ih]
      cases k with
      | string s =>
        have here : s ≠ key := by
          intro same
          rw [same] at stands
          simp [isStanding, other] at stands
        simp [get?, here]
      | _ => rfl

theorem Mapping.contains_standing (other : key ∉ supersededKeys) :
    contains m.standing key = contains m key := by
  rw [contains, get?_standing other, contains]

namespace ProcessDocument

theorem valueAt_standing (other : key ∉ supersededKeys) : valueAt m.standing key = valueAt m key := by
  rw [valueAt, Mapping.get?_standing other, valueAt]

theorem checkParameters_standing : ∀ {wanted : List (String × Shape)},
    (∀ x ∈ wanted, x.1 ∉ supersededKeys) → checkParameters m.standing wanted = checkParameters m wanted
  | [], _ => rfl
  | (key, shape) :: rest, others => by
    have here : checkParameter m.standing key shape = checkParameter m key shape := by
      rw [checkParameter, Mapping.get?_standing (others _ List.mem_cons_self), checkParameter]
    have later : checkParameters m.standing rest = checkParameters m rest :=
      checkParameters_standing fun x mem => others x (List.mem_cons_of_mem _ mem)
    rw [checkParameters, here, later, checkParameters]

/-- The parameters of a document are those of the entries that stand. -/
theorem parseParams_standing : parseParams m.standing = parseParams m := by
  rw [parseParams_eq, parseParams_eq, Mapping.standing, List.filter_filter]
  refine congrArg Node.parseChildren (List.filter_congr fun e _ => ?_)
  cases stands : isStanding e with
  | true => exact Bool.and_true _
  | false =>
    -- What gives way is a section, and no parameter anyway.
    obtain ⟨name, reserved, text⟩ := keyText_of_not_isStanding stands
    have section' : reservedParameters.contains name = true := by simpa using reserved
    rw [isParameter_of_text text, section']
    rfl

theorem ofMapping_standing (dir : String) (file : Option String) :
    ofMapping m.standing dir file = ofMapping m dir file := by
  have mandatory : checkParameters m.standing mandatoryParameters =
      checkParameters m mandatoryParameters := checkParameters_standing (by decide)
  have text : textAt m.standing "process_file" = textAt m "process_file" := by
    rw [textAt, valueAt_standing (by decide), textAt]
  have entries : ∀ key ∉ supersededKeys, mappingAt m.standing key = mappingAt m key := by
    intro key other
    rw [mappingAt, valueAt_standing other, mappingAt]
  have bounds : boundsAt m.standing = boundsAt m := by
    rw [boundsAt, Mapping.get?_standing (by decide), boundsAt]
  have baselevels : baselevelsAt m.standing = baselevelsAt m := by
    rw [baselevelsAt, Mapping.get?_standing (by decide), baselevelsAt]
  rw [ofMapping, mandatory, text, entries "pyramid" (by decide), valueAt_standing (by decide), bounds,
    entries "output" (by decide), baselevels, parseParams_standing, ofMapping]

end ProcessDocument

/-- A document that has all sections in their current form is checked by the entries that stand. -/
theorem Configuration.checkDocument_standing
    (current : ∀ key ∈ currentKeys, Mapping.contains m key = true) (dir : String)
    (file : Option String) : checkDocument ⟨m.standing, dir, file⟩ = checkDocument ⟨m, dir, file⟩ := by
  have kept : ∀ key ∈ currentKeys, Mapping.contains m.standing key = true := by
    intro key mem
    have others : ∀ key ∈ currentKeys, key ∉ supersededKeys := by decide
    rw [Mapping.contains_standing (others key mem)]
    exact current key mem
  simp only [checkDocument, normalize_current current, normalize_current kept,
    Mapping.contains_standing (show "input_files" ∉ supersededKeys by decide)]
  split
  · rfl
  · have read := ProcessDocument.ofMapping_standing (m := m) dir file
    simp only [Normalized.unchanged, Except.mapError, bind, Except.bind, read]

end Standing

/-! ## Names that are never seen -/

/-- The parameters that are seen at a zoom level have names, and never that of a section or of the
inputs. -/
theorem params_visible {m : Mapping} {params : List (NodeKey × Node)}
    (read : ProcessDocument.parseParams m = .ok params) (zoom : Nat) :
    ∀ e ∈ (Mapping.remove (Node.resolveParams params zoom) inputKey).2, ∃ name,
      e.1 = .string name ∧ name ∉ reservedParameters ∧ name ≠ inputKey := by
  intro e mem
  obtain ⟨kept, eq, distinct, given, _⟩ :=
    Node.toMapping_kept (Node.resolveChildren zoom false false params)
  rw [Node.resolveParams, eq] at mem
  have keys : ((kept.map fun e => ((.string e.1, e.2) : Value × Value)).map (·.1)).Nodup := by
    rw [List.nodup_iff_pairwise_ne] at distinct ⊢
    simpa [List.pairwise_map] using distinct
  obtain ⟨x, inside, rfl⟩ := List.mem_map.mp (Mapping.mem_of_mem_remove mem)
  refine ⟨x.1, rfl, ?_, ?_⟩
  · obtain ⟨part, left, name, _⟩ := given x inside
    obtain ⟨child, written, same, _⟩ := Node.mem_resolveChildren left
    rw [← name, same]
    obtain ⟨_, _, other, _⟩ := mem_parseParams read child written
    exact other
  · intro input
    rw [input] at mem
    exact Mapping.not_mem_remove keys inputKey x.2 mem

namespace Configuration

/-- Two documents with all sections in their current form that differ in superseded keys only, in
their presence, places and values, are read alike, with the same deprecations or the same error. And
in a configuration that was built every initialized zoom level has parameters, which are those of its
snapshot, and no key of them is reserved or the one of the inputs. -/
theorem current_keys_win {σ α : Type} [Coordinate α] :
    (∀ (m m' : Mapping) (dir : String) (file : Option String),
      (∀ key ∈ currentKeys, Mapping.contains m key = true) →
      (∀ key ∈ currentKeys, Mapping.contains m' key = true) → m.standing = m'.standing →
      checkDocument ⟨m, dir, file⟩ = checkDocument ⟨m', dir, file⟩) ∧
    ∀ (files : Files (StateM σ)) (drivers : Drivers (StateM σ) α) (source : DocumentSource)
      (options : InitOptions) (w w' : σ) (c : Configuration (StateM σ) α),
      (build files drivers source options).run.run w = (.ok c, w') →
      ∀ zoom ∈ c.initZooms.toList, ∃ p, c.zoomParams zoom = .ok p ∧
        (∀ s, c.snapshot zoom = .ok s → s.params = p.params) ∧
        ∀ e ∈ p.params, ∃ name, e.1 = .string name ∧ name ∉ reservedParameters ∧
          name ≠ inputKey := by
  constructor
  · intro m m' dir file current current' same
    rw [← checkDocument_standing current, same, checkDocument_standing current']
  · intro files drivers source options w w' c built zoom mem
    obtain ⟨k⟩ := construction built
    obtain ⟨p, found, resolved⟩ := (coherent built).params_of_mem mem
    obtain ⟨n, _, read⟩ := params_of_checkDocument k.check
    refine ⟨p, by simp [zoomParams, found], ?_, ?_⟩
    · intro s given
      rw [(coherent built).snapshot_params given, resolved.others]
    · rw [resolved.others]
      exact params_visible read zoom

/-- A document in its current form among whose entries malformed superseded ones stand. -/
def cluttered : Mapping :=
  [(.string "process_zoom", .mapping [(.string "zoom<", .null)]),
    (.string "process_file", .string "process.py"),
    (.string "zoom_levels", .number (.int 3)),
    (.string "metatiling", .string "none"),
    (.string "pyramid", .mapping [(.string "grid", .string "geodetic")]),
    (.string "bounds", .null),
    (.string "process_bounds", .mapping [(.null, .null)]),
    (.string inputKey, .mapping [(.string "a", .string "a.x")]),
    (.string "output", .mapping [(.string formatKey, .string "Open")]),
    (.string "resampling", .string "nearest")]

/-- The same document with one other superseded entry. -/
def tidied : Mapping :=
  (.string "pixelbuffer", .number (.int 3)) ::
    [(.string "process_file", .string "process.py"),
      (.string "zoom_levels", .number (.int 3)),
      (.string "pyramid", .mapping [(.string "grid", .string "geodetic")]),
      (.string "bounds", .null),
      (.string inputKey, .mapping [(.string "a", .string "a.x")]),
      (.string "output", .mapping [(.string formatKey, .string "Open")]),
      (.string "resampling", .string "nearest")]

/-- Malformed superseded entries change nothing in what is read, and are no parameters. -/
theorem current_keys_win_cluttered :
    checkDocument ⟨cluttered, "/base", none⟩ = checkDocument ⟨tidied, "/base", none⟩ ∧
    ∃ c w', (buildFrom cluttered).run.run () = (.ok c, w') ∧
      ∃ p, c.zoomParams 3 = .ok p ∧ p.params ≠ [] ∧
        ∀ e ∈ p.params, ∃ name, e.1 = .string name ∧ name ∉ reservedParameters ∧
          name ≠ inputKey := by
  constructor
  · exact (current_keys_win (σ := Unit) (α := Float)).1 cluttered tidied "/base" none (by decide)
      (by decide) rfl
  · obtain ⟨c, w', built, test⟩ := givesWith_iff (buildFrom cluttered) ()
      (fun c => decide (3 ∈ c.initZooms.toList) &&
        match c.zoomParams 3 with
        | .ok p => Mapping.contains p.params "resampling"
        | .error _ => false) |>.mp (by decide +kernel)
    obtain ⟨mem, some⟩ := Bool.and_eq_true_iff.mp test
    obtain ⟨p, here, _, visible⟩ := current_keys_win.2 _ _ _ _ _ _ c built 3 (of_decide_eq_true mem)
    refine ⟨c, w', built, p, here, ?_, visible⟩
    intro none
    simp [here, none, Mapping.contains, Mapping.get?] at some

end Configuration

end ZoomConfig
