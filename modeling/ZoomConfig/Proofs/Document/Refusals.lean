import ZoomConfig.Proofs.Configuration.Construction
import ZoomConfig.Proofs.Document.Params
/-!
Keys that are refused.

A key is refused if it has no text, or if its text is a malformed condition (`Refused`). The keys of a
value that are looked at are those of its groups, in document order, each before those of its value
(`Value.openKeys`); what is inside a declaration, a sequence or a tagged value is not. Reading fails
for the first of them that is refused and only so (`Node.parse_decided`), whatever zoom levels the
conditions above it speak of. The same holds of a document whose sections are sound, and of a
configuration of it for any zoom levels; what stands at the names of sections is passed over.
-/
namespace ZoomConfig

open Outcome

/-! ## Keys that are looked at -/

namespace Value

mutual

/-- The keys of a value that reading looks at. -/
def openKeys : Value → List Value
  | .mapping entries => if Mapping.contains entries formatKey then [] else openEntryKeys entries
  | _ => []

/-- The keys of entries, each before those of its value. -/
def openEntryKeys : List (Value × Value) → List Value
  | [] => []
  | (k, v) :: rest => k :: (openKeys v ++ openEntryKeys rest)

end

end Value

/-- Why a key is refused: it is neither text nor a number nor a boolean, or it is a malformed
condition. -/
inductive Refused : Value → ConfigError → Prop where
  | shape {k : Value} (noString : ∀ s, k ≠ .string s) (noNumber : ∀ n, k ≠ .number n)
    (noBool : ∀ b, k ≠ .bool b) : Refused k (.schema (.keyShape k))
  | condition {k : Value} {name : String} (text : keyText k = .ok name)
    (malformed : Condition.classify name = .malformed) : Refused k (.zoomExpression name)

/-- The first key that is refused, and why. -/
def FirstRefused (keys : List Value) (e : ConfigError) : Prop :=
  ∃ before k after, keys = before ++ k :: after ∧ Refused k e ∧
    ∀ k' ∈ before, ∀ e', ¬Refused k' e'

/-- Why a key cannot be read, if it cannot. -/
def keyFault? (k : Value) : Option KeyError := failure? (keyText k >>= NodeKey.parse)

/-- Why a key is refused, if it is. -/
def refusal? (k : Value) : Option ConfigError := (keyFault? k).map .ofKey

theorem refusal?_eq_some {k : Value} {e : ConfigError} : refusal? k = some e ↔ Refused k e := by
  have text : ∀ name, (failure? (NodeKey.parse name)).map ConfigError.ofKey = some e ↔
      Condition.classify name = .malformed ∧ e = .zoomExpression name := by
    intro name
    unfold NodeKey.parse
    cases Condition.classify name <;> simp [failure?, ConfigError.ofKey, eq_comm]
  constructor
  · intro h
    unfold refusal? keyFault? at h
    cases hk : keyText k with
    | ok name =>
      rw [hk] at h
      obtain ⟨malformed, rfl⟩ := (text name).mp h
      exact .condition hk malformed
    | error cause =>
      cases k with
      | string s => cases hk
      | number n => cases hk
      | bool b => cases hk
      | _ =>
        cases h
        exact .shape (by simp) (by simp) (by simp)
  · intro h
    cases h with
    | shape noString noNumber noBool =>
      cases k with
      | string s => exact absurd rfl (noString s)
      | number n => exact absurd rfl (noNumber n)
      | bool b => exact absurd rfl (noBool b)
      | _ => rfl
    | condition hk malformed =>
      rw [refusal?, keyFault?, hk]
      exact (text _).mpr ⟨malformed, rfl⟩

theorem refusal?_eq_none {k : Value} : refusal? k = none ↔ ∀ e, ¬Refused k e := by
  simp only [← refusal?_eq_some]
  cases refusal? k <;> simp

theorem firstRefused_iff {keys : List Value} {e : ConfigError} :
    FirstRefused keys e ↔ keys.findSome? refusal? = some e := by
  rw [List.findSome?_eq_some_iff]
  simp only [FirstRefused, refusal?_eq_some, refusal?_eq_none]

/-- Keys that decide over a computation end it with the refusal of the first one that is refused. -/
theorem refused_of_decided {β : Type} {keys : List Value} {x : Except ConfigError β}
    (h : DecidedBy refusal? keys x) :
    (∀ e, x = .error e ↔ FirstRefused keys e) ∧
      ((∃ b, x = .ok b) ↔ ∀ k ∈ keys, ∀ e, ¬Refused k e) := by
  constructor
  · intro e
    rw [h.error_iff, firstRefused_iff]
  · rw [h.ok_iff]
    simp only [refusal?_eq_none]

/-! ## Reading values -/

namespace Node

mutual

/-- The keys of a value that are looked at decide whether it can be read. -/
theorem parse_decided : ∀ v : Value, DecidedBy keyFault? v.openKeys (parse v)
  | .null => .ok (Node.value .null)
  | .bool b => .ok (Node.value (.bool b))
  | .number n => .ok (Node.value (.number n))
  | .string s => .ok (Node.value (.string s))
  | .sequence items => .ok (Node.value (.sequence items))
  | .tagged tag v => .ok (Node.value (.tagged tag v))
  | .mapping entries => by
    rw [Value.openKeys, parse]
    split
    · exact .ok (Node.terminal entries)
    · exact (parseChildren_decided entries).map Node.branch

theorem parseChildren_decided : ∀ entries : List (Value × Value),
    DecidedBy keyFault? (Value.openEntryKeys entries) (parseChildren entries)
  | [] => .ok []
  | (k, v) :: rest => by
    have key : DecidedBy keyFault? [k] (keyText k >>= NodeKey.parse) := .single rfl
    rw [Value.openEntryKeys, parseChildren_bind]
    exact key.append fun key => (parse_decided v).append fun node =>
      (parseChildren_decided rest).map ((key, node) :: ·)

end

end Node

/-! ## Reading documents -/

/-- The keys that the reading of parameters looks at: a section is passed over with its value, and a
document is never a declaration. -/
def paramKeys (m : Mapping) : List Value := Value.openEntryKeys (m.filter isParameter)

namespace ProcessDocument

theorem parseParams_decided (m : Mapping) :
    DecidedBy keyFault? (paramKeys m) (parseParams m) := by
  rw [parseParams_eq]
  exact Node.parseChildren_decided _

/-- What is checked before the keys of the parameters: the mandatory parameters with their shapes, and
every section that is more than a shape. -/
structure SoundSections (m : Mapping) : Prop where
  mandatory : checkParameters m mandatoryParameters = .ok ()
  pyramid : ∃ entries pyramid, mappingAt m "pyramid" = .ok entries ∧
    PyramidSection.ofMapping entries = .ok pyramid
  zoomLevels : ∃ v zooms, valueAt m "zoom_levels" = .ok v ∧ ZoomLevels.ofValue? v = .ok zooms
  bounds : ∃ bounds, boundsAt m = .ok bounds
  baselevels : ∃ baselevels, baselevelsAt m = .ok baselevels

variable {m : Mapping} {doc : ProcessDocument} {dir : String} {file : Option String}

theorem Sections.soundSections (h : Sections m doc) : SoundSections m := by
  obtain ⟨entries, found, read⟩ := h.pyramid
  obtain ⟨v, written, zooms⟩ := h.zoomLevels
  exact ⟨h.mandatory, ⟨entries, _, found, read⟩, ⟨v, _, written, zooms⟩, ⟨_, h.bounds⟩,
    ⟨_, h.baselevels⟩⟩

/-- Once the sections are sound, only the parameters can fail to be read. -/
theorem SoundSections.ofMapping_eq (h : SoundSections m) (dir : String) (file : Option String) :
    ∃ make : List (NodeKey × Node) → ProcessDocument,
      ofMapping m dir file = ((parseParams m).mapError .ofKey).map make := by
  obtain ⟨⟨processFile, text⟩, -, -, ⟨output, driven⟩⟩ := readable h.mandatory
  obtain ⟨entries, pyramid, found, read⟩ := h.pyramid
  obtain ⟨v, zoomLevels, written, zooms⟩ := h.zoomLevels
  obtain ⟨bounds, box⟩ := h.bounds
  obtain ⟨baselevels, levels⟩ := h.baselevels
  refine ⟨fun params => ⟨dir, file, processFile, pyramid, zoomLevels, bounds, output, baselevels,
    params⟩, ?_⟩
  have range : (ZoomLevels.ofValue? v).mapError ConfigError.zoomRange = .ok zoomLevels :=
    mapError_eq_ok.mpr zooms
  simp only [ofMapping, h.mandatory, text, found, read, written, range, box, driven, levels, bind,
    Except.bind]
  cases (parseParams m).mapError ConfigError.ofKey <;> rfl

/-- The keys of the parameters decide over a document with sound sections. -/
theorem SoundSections.decided (h : SoundSections m) (dir : String) (file : Option String) :
    DecidedBy refusal? (paramKeys m) (ofMapping m dir file) := by
  obtain ⟨make, eq⟩ := h.ofMapping_eq dir file
  rw [eq]
  exact ((parseParams_decided m).mapError ConfigError.ofKey).map make

end ProcessDocument

/-! ## Building configurations -/

open ProcessDocument

namespace Configuration

variable {σ α : Type} [Coordinate α] {files : Files (StateM σ)} {drivers : Drivers (StateM σ) α}
  {source : DocumentSource} {options : InitOptions} {w w₁ : σ} {loaded : LoadedDocument}
  {n : Normalized} {e : ConfigError}

/-- A refused key ends a construction before anything is done with the zoom levels that are asked
for. -/
theorem build_refused (load : (LoadedDocument.load files source).run w = (.ok loaded, w₁))
    (normalized : normalize loaded.mapping = .ok n) (sound : SoundSections n.mapping)
    (first : FirstRefused (paramKeys n.mapping) e) :
    (build files drivers source options).run.run w = (.error e, w₁) := by
  have failed : ofMapping n.mapping loaded.configDir loaded.file = .error e :=
    ((refused_of_decided (sound.decided _ _)).1 e).mpr first
  have current : (normalize loaded.mapping).mapError ConfigError.schema = .ok n :=
    mapError_eq_ok.mpr normalized
  have checked : checkDocument loaded = .error e := by
    simp only [checkDocument, current, failed, bind, Except.bind]
  have loading : (ExceptT.mk (LoadedDocument.load files source)).run.run w = (.ok loaded, w₁) := load
  rw [build, run_bind_ok loading]
  refine run_bind_error ?_
  rw [checked]
  rfl

end Configuration

/-- Reading a value fails exactly if a key of one of its groups is refused, and then for the first of
them in document order, each key before those of its value. The check of a document whose sections are
sound fails in the same way for the first refused key outside of them, and building a configuration
does, for whatever zoom levels it is built. -/
theorem malformed_keys_reported {σ α : Type} [Coordinate α] :
    (∀ v : Value,
      (∀ e, (Node.parse v).mapError ConfigError.ofKey = .error e ↔ FirstRefused v.openKeys e) ∧
      ((∃ node, Node.parse v = .ok node) ↔ ∀ k ∈ v.openKeys, ∀ e, ¬Refused k e)) ∧
    (∀ (m : Mapping) (dir : String) (file : Option String),
      (SoundSections m → ∀ e, ofMapping m dir file = .error e ↔ FirstRefused (paramKeys m) e) ∧
      ((∃ doc, ofMapping m dir file = .ok doc) ↔
        SoundSections m ∧ ∀ k ∈ paramKeys m, ∀ e, ¬Refused k e)) ∧
    ∀ (files : Files (StateM σ)) (drivers : Drivers (StateM σ) α) (source : DocumentSource)
      (options : InitOptions) (w w₁ : σ) (loaded : LoadedDocument) (n : Normalized),
      (LoadedDocument.load files source).run w = (.ok loaded, w₁) →
      normalize loaded.mapping = .ok n → SoundSections n.mapping →
      ∀ e, FirstRefused (paramKeys n.mapping) e →
        (Configuration.build files drivers source options).run.run w = (.error e, w₁) := by
  refine ⟨fun v => ?_, fun m dir file => ⟨fun sound => ?_, ?_, ?_⟩, ?_⟩
  · obtain ⟨failure, success⟩ :=
      refused_of_decided ((Node.parse_decided v).mapError ConfigError.ofKey)
    simp only [mapError_eq_ok] at success
    exact ⟨failure, success⟩
  · exact (refused_of_decided (sound.decided dir file)).1
  · rintro ⟨doc, read⟩
    have sound := (sections read).soundSections
    exact ⟨sound, (refused_of_decided (sound.decided dir file)).2.mp ⟨doc, read⟩⟩
  · rintro ⟨sound, accepted⟩
    exact (refused_of_decided (sound.decided dir file)).2.mpr accepted
  · intro files drivers source options w w₁ loaded n load normalized sound e first
    exact Configuration.build_refused load normalized sound first

/-- A malformed condition beneath one that is never true. -/
def neverReached : Value :=
  .mapping [(.string "zoom<0", .mapping [(.string "zoom=x", .null)])]

/-- A document with this value, behind a malformed key that its `pyramid` section shields and a
`format` key that shields nothing. -/
def shieldedDocument : Mapping :=
  [(.string "process_file", .string "process.py"),
    (.string "zoom_levels", .number (.int 3)),
    (.string "pyramid", .mapping [(.string "grid", .string "geodetic"), (.string "zoom<", .null)]),
    (.string "bounds", .null),
    (.string inputKey, .mapping [(.string "a", .string "a.x")]),
    (.string "output", .mapping [(.string formatKey, .string "Open"), (.null, .null)]),
    (.string formatKey, .string "Open"),
    (.string "layers", neverReached),
    (.sequence [], .null)]

theorem shieldedDocument_sound : SoundSections shieldedDocument where
  mandatory := rfl
  pyramid := ⟨_, ⟨.geodetic, 1, 0⟩, rfl, rfl⟩
  zoomLevels := ⟨_, .single 3, rfl, rfl⟩
  bounds := ⟨none, rfl⟩
  baselevels := ⟨none, rfl⟩

/-- The malformed condition is reported from wherever it is reached. -/
theorem malformed_keys_reported_shielded :
    (Node.parse neverReached).mapError ConfigError.ofKey = .error (.zoomExpression "zoom=x") ∧
    SoundSections shieldedDocument ∧
    ofMapping shieldedDocument "/base" none = .error (.zoomExpression "zoom=x") ∧
    (Configuration.build Configuration.emptyFiles Configuration.openDrivers
      (.inDir shieldedDocument "/base") ⟨some [3], none, Mode.keep.name⟩).run.run () =
        (.error (.zoomExpression "zoom=x"), ()) := by
  obtain ⟨values, documents, builds⟩ := malformed_keys_reported (σ := Unit) (α := Float)
  have first : FirstRefused (paramKeys shieldedDocument) (.zoomExpression "zoom=x") :=
    firstRefused_iff.mpr rfl
  refine ⟨((values neverReached).1 _).mpr (firstRefused_iff.mpr rfl), shieldedDocument_sound, ?_, ?_⟩
  · exact ((documents shieldedDocument "/base" none).1 shieldedDocument_sound _).mpr first
  · exact builds _ _ _ _ () () ⟨shieldedDocument, "/base", none⟩ ⟨shieldedDocument, []⟩ rfl rfl
      shieldedDocument_sound _ first

end ZoomConfig
