import ZoomConfig.FileTree
import ZoomConfig.GeoJson
import ZoomConfig.Proofs.Input.Content
import ZoomConfig.Proofs.Input.Registry
/-!
Inputs that do not depend on the order of entries.

Declarations are alike if they are equal, or mappings that differ in the order of entries only and in
which no key stands twice (`Declaration.Alike`). A driver goes by the source if it gives handles with
the same answers, or none, for alike sources, whatever the delimiters are and in every world
(`InputDriver.BySource`). The GeoJSON driver does over files that stay as they are, and with such
drivers alike declarations are opened alike (`openInput_alike`).
-/
namespace ZoomConfig

namespace Value

/-! ## Keys that stand once -/

mutual

/-- Does no mapping have a key twice? -/
def Distinct : Value → Prop
  | .sequence items => DistinctItems items
  | .mapping entries => (entries.map (·.1)).Nodup ∧ DistinctEntries entries
  | .tagged _ v => Distinct v
  | _ => True

/-- Does no mapping within the items have a key twice? -/
def DistinctItems : List Value → Prop
  | [] => True
  | v :: rest => Distinct v ∧ DistinctItems rest

/-- Does no mapping within the values have a key twice? -/
def DistinctEntries : List (Value × Value) → Prop
  | [] => True
  | (_, v) :: rest => Distinct v ∧ DistinctEntries rest

end

theorem distinctItems_iff {items : List Value} : DistinctItems items ↔ ∀ v ∈ items, v.Distinct := by
  induction items with
  | nil => simp [DistinctItems]
  | cons v rest ih => simp [DistinctItems, ih]

theorem distinctEntries_iff {entries : List (Value × Value)} :
    DistinctEntries entries ↔ ∀ e ∈ entries, e.2.Distinct := by
  induction entries with
  | nil => simp [DistinctEntries]
  | cons e rest ih => simp [DistinctEntries, ih]

theorem Reordered.distinct {v w : Value} (h : Reordered v w) (distinct : v.Distinct) :
    w.Distinct :=
  h.keeps (K := List.Nodup) (fun _ => distinctItems_iff)
    (fun _ => and_congr_right fun _ => distinctEntries_iff)
    (fun _ _ perm => perm.nodup_iff.1) (fun _ _ _ inner => inner) distinct

end Value

namespace Mapping

theorem get?_perm {a b : Mapping} (perm : a.Perm b) (distinct : (a.map (·.1)).Nodup) (key : String) :
    get? a key = get? b key := by
  induction perm with
  | nil => rfl
  | cons e _ ih =>
    obtain ⟨k, v⟩ := e
    have others := ih (List.nodup_cons.1 distinct).2
    cases k with
    | string s => simp only [get?, others]
    | _ => simpa only [get?] using others
  | swap e f rest =>
    obtain ⟨k, v⟩ := e
    obtain ⟨l, u⟩ := f
    have apart : l ≠ k := by
      intro same
      simp [same] at distinct
    cases k with
    | string s =>
      cases l with
      | string t =>
        have names : t ≠ s := fun same => apart (congrArg Value.string same)
        simp only [get?]
        split
        · next first =>
          rw [if_neg fun second => names (first.trans second.symm)]
        · rfl
      | _ => rfl
    | _ => cases l <;> rfl
  | trans first _ ih ih' =>
    exact (ih distinct).trans (ih' ((first.map _).nodup_iff.1 distinct))

/-- A search that only reads a part of what it finds does not tell values with the same part apart. -/
theorem get?_bind_replace {β : Type} {f : Value → Option β} {v w : Value} (same : f v = f w)
    (k : Value) (after : Mapping) (key : String) : ∀ before : Mapping,
    (get? (before ++ (k, v) :: after) key).bind f = (get? (before ++ (k, w) :: after) key).bind f
  | [] => by
    cases k with
    | string s =>
      simp only [List.nil_append, get?]
      split
      · exact same
      · rfl
    | _ => rfl
  | (l, _) :: before => by
    have others := get?_bind_replace same k after key before
    cases l with
    | string s =>
      simp only [List.cons_append, get?]
      split
      · rfl
      · exact others
    | _ => exact others

/-- Both are equal, or they differ in the order of entries only and no key stands twice. -/
def Alike (a b : Mapping) : Prop :=
  a = b ∨ (Value.mapping a).Distinct ∧ Value.Reordered (.mapping a) (.mapping b)

/-- The text at a key. -/
def text? (m : Mapping) (key : String) : Option String := (get? m key).bind Value.asString?

end Mapping

namespace Value

theorem Reordered.asString? {v w : Value} (h : Reordered v w) : v.asString? = w.asString? := by
  induction h with
  | trans _ _ ih ih' => exact ih.trans ih'
  | tagged tag _ ih => exact ih
  | _ => rfl

/-- The text at a key of a mapping. -/
def textAt? (key : String) : Value → Option String
  | .mapping m => Mapping.text? m key
  | _ => none

theorem Reordered.textAt? {v w : Value} (h : Reordered v w) (distinct : v.Distinct) (key : String) :
    v.textAt? key = w.textAt? key := by
  induction h with
  | trans first _ ih ih' => exact (ih distinct).trans (ih' (first.distinct distinct))
  | order perm =>
    exact congrArg (·.bind Value.asString?) (Mapping.get?_perm perm distinct.1 key)
  | @value before after k _ _ inner _ =>
    exact Mapping.get?_bind_replace inner.asString? k after key before
  | _ => rfl

end Value

theorem Mapping.Alike.text? {a b : Mapping} (h : Alike a b) (key : String) :
    a.text? key = b.text? key := by
  rcases h with rfl | ⟨distinct, reordered⟩
  · rfl
  · exact reordered.textAt? distinct key

/-! ## Declarations and sources -/

/-- Both are paths with one text, or alike mappings. -/
def Declaration.Alike : Declaration → Declaration → Prop
  | .path s, .path t => s = t
  | .entries a, .entries b => Mapping.Alike a b
  | _, _ => False

/-- Both are paths with one text, or alike mappings with one base directory. -/
def InputSource.Alike : InputSource → InputSource → Prop
  | .path s, .path t => s = t
  | .entries a dir, .entries b dir' => Mapping.Alike a b ∧ dir = dir'
  | _, _ => False

theorem Declaration.Alike.refl : ∀ d : Declaration, d.Alike d
  | .path _ => rfl
  | .entries _ => .inl rfl

theorem Declaration.Alike.toSource (configDir : String) : ∀ {d d' : Declaration}, d.Alike d' →
    (d.toSource configDir).Alike (d'.toSource configDir)
  | .path _, .path _, h => congrArg (Path.fromBase · configDir) h
  | .entries _, .entries _, h => ⟨h, rfl⟩

variable {σ α : Type}

namespace Drivers

variable {drivers : Drivers (StateM σ) α}

theorem opens_alike (driver : InputDriver (StateM σ) α) : ∀ {source source' : InputSource},
    source.Alike source' → opens source driver = opens source' driver
  | .path _, .path _, h => by rw [h]
  | .entries _ _, .entries _ _, h => congrArg (driver.name == ·.getD "") (h.1.text? formatKey)

theorem inputDriver?_alike {source source' : InputSource} {driver : InputDriver (StateM σ) α}
    (alike : source.Alike source') (found : drivers.inputDriver? source = .ok driver) :
    drivers.inputDriver? source' = .ok driver := by
  unfold inputDriver? at found ⊢
  rw [← show opens source = opens source' from funext fun d => opens_alike d alike]
  split at found
  · exact found
  · cases found

end Drivers

/-! ## Drivers that go by the source -/

/-- Two handles answer alike in all worlds. -/
def InputHandle.Agrees (handle handle' : InputHandle (StateM σ) α) : Prop :=
  ∀ crs w w', ((handle.bbox crs).run w).1 = ((handle'.bbox crs).run w').1

theorem InputHandle.Agrees.left {handle handle' : InputHandle (StateM σ) α}
    (h : handle.Agrees handle') : handle.Agrees handle :=
  fun crs w w' => (h crs w w).trans (h crs w' w).symm

/-- Either two handles were loaded and agree, or none was. -/
def SameOutcome : Except DriverError (InputHandle (StateM σ) α) →
    Except DriverError (InputHandle (StateM σ) α) → Prop
  | .ok handle, .ok handle' => handle.Agrees handle'
  | .error _, .error _ => True
  | _, _ => False

/-- A driver gives the same outcome for alike sources, with any delimiters and in all worlds. -/
def InputDriver.BySource (driver : InputDriver (StateM σ) α) : Prop :=
  ∀ (request : InputRequest α) (source : InputSource) (delimiters : Delimiters α),
    request.source.Alike source → ∀ w w', SameOutcome ((driver.load request).run w).1
      ((driver.load { request with source, delimiters }).run w').1

/-- Files have the same texts in all worlds. -/
def Files.Constant (files : Files (StateM σ)) : Prop :=
  ∀ path w w', ((files.readText path).run w).1 = ((files.readText path).run w').1

theorem FileTree.files_constant (t : FileTree) : (t.files : Files (StateM σ)).Constant :=
  fun _ _ _ => rfl

namespace GeoJson

theorem localPath_alike : ∀ {source source' : InputSource}, source.Alike source' →
    localPath source = localPath source'
  | .path _, .path _, h => by rw [h]
  | .entries a dir, .entries b dir', h => by
    obtain ⟨alike, rfl⟩ := h
    have paths : (Mapping.get? a "path").bind Value.asString? =
        (Mapping.get? b "path").bind Value.asString? := alike.text? "path"
    simp only [localPath, sourcePath, paths]

theorem load_constant {files : Files (StateM σ)} (constant : files.Constant) (source : InputSource)
    (w w' : σ) : ((load files source).run w).1 = ((load files source).run w').1 := by
  unfold load
  split
  · rfl
  · next path _ =>
    unfold Reader.open?
    rw [StateT.run_bind, StateT.run_bind]
    rcases here : (files.readText path).run w with ⟨r, w₁⟩
    rcases there : (files.readText path).run w' with ⟨r', w₁'⟩
    have same := constant path w w'
    rw [here, there] at same
    obtain rfl : r = r' := same
    cases r <;> rfl

theorem inputDriver_bySource {files : Files (StateM σ)} (constant : files.Constant) :
    (inputDriver files).BySource := by
  intro request source delimiters alike w w'
  have same : load files request.source = load files source := by
    unfold load
    rw [localPath_alike alike]
  have results := load_constant constant source w w'
  simp only [inputDriver, same]
  rw [StateT.run_bind, StateT.run_bind]
  rcases here : (load files source).run w with ⟨r, w₁⟩
  rcases there : (load files source).run w' with ⟨r', w₁'⟩
  rw [here, there] at results
  obtain rfl : r = r' := results
  cases r with
  | error e => trivial
  | ok reader => exact fun crs w w' => rfl

theorem drivers_bySource {files : Files (StateM σ)} (constant : files.Constant) :
    ∀ driver ∈ (drivers files).inputs, driver.BySource := by
  intro driver mem
  obtain rfl : driver = inputDriver files := List.mem_singleton.mp mem
  exact inputDriver_bySource constant

end GeoJson

/-! ## Opening alike declarations -/

namespace InputRegistry

open Outcome

variable {ctx : LoadContext α} {drivers : Drivers (StateM σ) α}

/-- What was opened once is opened in every world, with any delimiters and from an alike
declaration, and the handles agree. -/
theorem openInput_alike (bySource : ∀ driver ∈ drivers.inputs, driver.BySource)
    {d d' : Declaration} (alike : d.Alike d') {handle : InputHandle (StateM σ) α} {w w₀ w' : σ}
    {area : Area α} (opened : LoadedFrom ctx drivers d handle w w₀)
    (answer : (handle.bbox ctx.pyramid.crs).run w₀ = (.ok area, w')) (delimiters : Delimiters α)
    (w₁ : σ) : ∃ handle' w₂,
      (openInput { ctx with delimiters } drivers d').run w₁ = (.ok handle', w₂) ∧
      handle.Agrees handle' := by
  obtain ⟨driver, found, loaded⟩ := opened
  have sources := alike.toSource ctx.configDir
  have found' := Drivers.inputDriver?_alike sources found
  have outcome := bySource driver (mem_of_inputDriver? found) (request ctx d)
    (d'.toSource ctx.configDir) delimiters sources w w₁
  rw [loaded] at outcome
  rcases loaded' : (driver.load (request { ctx with delimiters } d')).run w₁ with ⟨r, w₂⟩
  rw [show (driver.load { request ctx d with
    source := d'.toSource ctx.configDir, delimiters }).run w₁ = (r, w₂) from loaded'] at outcome
  cases r with
  | error e => exact outcome.elim
  | ok handle' =>
    have agree : handle.Agrees handle' := outcome
    -- The other handle answers for the system of the process because the first one did.
    have answers := agree ctx.pyramid.crs w₀ w₂
    rw [answer] at answers
    rcases answer' : (handle'.bbox ctx.pyramid.crs).run w₂ with ⟨r, w₃⟩
    rw [answer'] at answers
    obtain rfl : .ok area = r := answers
    exact ⟨handle', w₃, openInput_ok_iff.mpr ⟨w₂, area, ⟨driver, found', loaded'⟩, answer'⟩, agree⟩

/-- A registry is opened in every world if each of its declarations is. -/
theorem openAll_of_each {P : ContentId → InputHandle (StateM σ) α → Prop} :
    ∀ {known : Dict ContentId Declaration},
    (∀ e ∈ known, ∀ w, ∃ handle w', (openInput ctx drivers e.2).run w = (.ok handle, w') ∧
      P e.1 handle) →
    ∀ w, ∃ opened w', (openAll ctx drivers known).run w = (.ok opened, w') ∧
      ∀ e ∈ opened, P e.1 e.2.handle
  | [], _, w => ⟨[], w, rfl, by simp⟩
  | (id, d) :: rest, each, w => by
    obtain ⟨handle, w₁, here, first⟩ := each (id, d) List.mem_cons_self w
    obtain ⟨opened, w₂, others, all⟩ :=
      openAll_of_each (fun e mem => each e (List.mem_cons_of_mem _ mem)) w₁
    refine ⟨(id, ⟨id, d, handle⟩) :: opened, w₂, ?_, ?_⟩
    · apply run_step_eq.mpr
      refine ⟨_, _, here, ?_⟩
      apply run_step_eq.mpr
      exact ⟨_, _, others, rfl⟩
    · intro e mem
      rcases List.mem_cons.mp mem with rfl | mem
      · exact first
      · exact all e mem

end InputRegistry

end ZoomConfig
