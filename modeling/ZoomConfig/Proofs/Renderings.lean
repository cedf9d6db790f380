import ZoomConfig.CommandLine
import ZoomConfig.Proofs.Configuration.Precedence
import ZoomConfig.Proofs.Json.Canonical
import ZoomConfig.Proofs.Json.Keys
/-!
Reports as text and as JSON.

Every report can be written as text. It can be written as JSON exactly if every key in its parameters
has a text, at every depth (`Report.json_decided`), so the program may refuse to write a configuration
as JSON that it writes as text. When a document is read, keys are looked at in groups only. Those
without a text are left in sequences, tagged values and declarations (`Value.Tidy.text_or_kept`).
-/
namespace ZoomConfig

open Outcome

/-! ## What is kept unread -/

/-- A value is in another one as something that is kept as it was written. -/
inductive Value.KeptIn : Value → Value → Prop where
  | sequence (items : List Value) : KeptIn (.sequence items) (.sequence items)
  | tagged (tag : String) (v : Value) : KeptIn (.tagged tag v) (.tagged tag v)
  | declaration {entries : List (Value × Value)} (h : Mapping.contains entries formatKey = true) :
    KeptIn (.mapping entries) (.mapping entries)
  | group {u : Value} {entries : List (Value × Value)} {e : Value × Value} (mem : e ∈ entries)
    (inner : KeptIn u e.2) : KeptIn u (.mapping entries)

/-- The keys in what is left of a value are texts, or they are in something that was kept. -/
theorem Value.Tidy.text_or_kept {N : String → Prop} {v : Value} (tidy : v.Tidy N) :
    ∀ k ∈ v.keys, (∃ s, k = .string s) ∨ ∃ u : Value, u.KeptIn v ∧ k ∈ u.keys := by
  induction tidy with
  | declaration h => exact fun k mem => .inr ⟨_, .declaration h, mem⟩
  | group _ _ _ _ ih =>
    intro k mem
    obtain ⟨e, inside, mem⟩ := mem_entryKeys.mp mem
    obtain ⟨x, here, rfl⟩ := List.mem_map.mp inside
    rcases mem with rfl | mem
    · exact .inl ⟨x.1, rfl⟩
    · rcases ih x here k mem with text | ⟨u, inner, mem⟩
      · exact .inl text
      · exact .inr ⟨u, .group inside inner, mem⟩
  | @other v h =>
    intro k mem
    cases v with
    | sequence items => exact .inr ⟨_, .sequence items, mem⟩
    | tagged tag v => exact .inr ⟨_, .tagged tag v, mem⟩
    | mapping entries => exact absurd rfl (h entries)
    | _ => cases mem

/-- The keys in the values of parameters are texts, or they are in something that was kept. -/
theorem param_keys {m : Mapping} {params : List (NodeKey × Node)}
    (read : ProcessDocument.parseParams m = .ok params) (zoom : Nat) :
    ∀ e ∈ (Mapping.remove (Node.resolveParams params zoom) inputKey).2, ∀ k ∈ e.2.keys,
      (∃ s, k = .string s) ∨ ∃ u : Value, u.KeptIn e.2 ∧ k ∈ u.keys := by
  intro e mem
  obtain ⟨kept, eq, _, given, _⟩ :=
    Node.toMapping_kept (Node.resolveChildren zoom false false params)
  rw [Node.resolveParams, eq] at mem
  obtain ⟨x, inside, rfl⟩ := List.mem_map.mp (Mapping.mem_of_mem_remove mem)
  obtain ⟨part, left, _, value⟩ := given x inside
  obtain ⟨child, read', _, _, resolved⟩ := Node.mem_resolveChildren left
  obtain ⟨written, _, _, _, _, parsed⟩ := mem_parseParams read child read'
  rw [← value]
  exact (Node.resolve_tidy (Value.named_any written.2) parsed resolved).text_or_kept

/-! ## Reports -/

namespace ZoomReport

theorem json_decided (z : ZoomReport) : Json.Decided (Value.mapping z.params).keys z.json :=
  (Json.ofValue_decided (.mapping z.params)).map _

theorem jsonAll_cons (z : ZoomReport) (rest : List ZoomReport) :
    jsonAll (z :: rest) = z.json >>= fun j => (jsonAll rest).map (j :: ·) := by
  rw [jsonAll]
  cases z.json <;> rfl

theorem jsonAll_decided : ∀ zooms : List ZoomReport,
    Json.Decided (zooms.flatMap fun z => (Value.mapping z.params).keys) (jsonAll zooms)
  | [] => Json.Decided.ok []
  | z :: rest => by
    rw [jsonAll_cons, List.flatMap_cons]
    exact z.json_decided.append fun j => (jsonAll_decided rest).map (j :: ·)

variable {σ : Type} {c : Configuration (StateM σ) Float}

theorem buildAll_params : ∀ {zooms : List Nat} {cache cache' : AreaCache Float} {w w' : σ}
    {reports : List ZoomReport},
    ((buildAll c zooms).run.run cache).run w = ((.ok reports, cache'), w') →
    List.Forall₂ (fun zoom z => ∃ s, c.snapshot zoom = .ok s ∧ z.params = s.params) zooms reports
  | [], _, _, _, _, _, given => by
    cases given
    exact .nil
  | zoom :: rest, _, _, _, _, _, given => by
    obtain ⟨z, _, _, here, given⟩ := run_kept_bind_eq_ok.mp given
    obtain ⟨others, _, _, there, given⟩ := run_kept_bind_eq_ok.mp given
    cases given
    refine .cons ?_ (buildAll_params there)
    obtain ⟨s, _, _, snapshot, here⟩ := run_kept_bind_eq_ok.mp here
    obtain ⟨_, _, _, _, here⟩ := run_kept_bind_eq_ok.mp here
    obtain ⟨_, _, _, _, here⟩ := run_kept_bind_eq_ok.mp here
    cases here
    have given : c.snapshot zoom = .ok s := by
      cases h : c.snapshot zoom with
      | error e =>
        rw [h] at snapshot
        cases snapshot
      | ok s' =>
        rw [h] at snapshot
        cases snapshot
        rfl
    exact ⟨s, given, rfl⟩

end ZoomReport

namespace Report

/-- The keys in the parameters of all zoom levels. -/
def keys (r : Report) : List Value := r.zooms.flatMap fun z => (Value.mapping z.params).keys

/-- The keys in its parameters decide whether a report can be written as JSON. -/
theorem json_decided (r : Report) : Json.Decided r.keys r.json :=
  (ZoomReport.jsonAll_decided r.zooms).map _

theorem print_decided (r : Report) : Json.Decided r.keys (CommandLine.print true r) :=
  r.json_decided.map _

end Report

namespace Configuration

/-- The keys in the parameters of all initialized zoom levels. -/
def HasKey {m : Type → Type} {α : Type} (c : Configuration m α) (k : Value) : Prop :=
  ∃ zoom ∈ c.initZooms.toList, ∃ s, c.snapshot zoom = .ok s ∧ k ∈ (Value.mapping s.params).keys

variable {σ : Type} {c : Configuration (StateM σ) Float}

theorem mem_report_keys {cache cache' : AreaCache Float} {w w' : σ} {r : Report}
    (given : ((Report.build c).run.run cache).run w = ((.ok r, cache'), w')) (k : Value) :
    k ∈ r.keys ↔ c.HasKey k := by
  obtain ⟨zooms, _, _, all, given⟩ := run_kept_bind_eq_ok.mp given
  obtain ⟨_, _, _, _, given⟩ := run_kept_bind_eq_ok.mp given
  cases given
  have params := ZoomReport.buildAll_params all
  rw [Report.keys, List.mem_flatMap]
  constructor
  · intro inside
    obtain ⟨z, mem, inside⟩ := inside
    obtain ⟨zoom, here, s, given, same⟩ := exists_of_mem_forall₂ params z mem
    exact ⟨zoom, here, s, given, same ▸ inside⟩
  · intro inside
    obtain ⟨zoom, mem, s, given, inside⟩ := inside
    obtain ⟨z, here, s', given', same⟩ := exists_of_mem_forall₂ (List.Forall₂.flip params) zoom mem
    cases given.symm.trans given'
    exact ⟨z, here, same ▸ inside⟩

/-- A report is written as JSON exactly if every key of its configuration has a text. -/
theorem print_ok_iff {cache cache' : AreaCache Float} {w w' : σ} {r : Report}
    (given : ((Report.build c).run.run cache).run w = ((.ok r, cache'), w')) :
    (∃ text, CommandLine.print true r = .ok text) ↔
      ∀ k, c.HasKey k → ∃ name, Json.keyName k = .ok name := by
  rw [r.print_decided.ok_iff]
  simp only [mem_report_keys given]

end Configuration

/-! ## The program -/

namespace CommandLine

variable {σ : Type} {files : Files (StateM σ)} {a : Arguments} {w w₁ w₂ : σ}

theorem check_of_unbuilt {e : ConfigError} (unbuilt :
    (Configuration.build files (GeoJson.drivers files) (.file a.file) a.options).run.run w =
      (.error e, w₁)) : ((check files a).run w).1.exitCode = 1 := by
  have ends : (check files a).run w =
      (.failed (failureMessage ("Failed to load configuration " ++ a.file) e.chain), w₁) :=
    run_step_eq.mpr ⟨.error e, w₁, unbuilt, rfl⟩
  rw [ends]
  rfl

section Built

variable {c : Configuration (StateM σ) Float} (built :
  (Configuration.build files (GeoJson.drivers files) (.file a.file) a.options).run.run w = (.ok c, w₁))

include built

theorem check_of_unreported {e : ConfigError} {cache : AreaCache Float}
    (unreported : ((Report.build c).run.run .fresh).run w₁ = ((.error e, cache), w₂)) :
    ((check files a).run w).1.exitCode = 1 := by
  have ends : (check files a).run w =
      (.failed (failureMessage "Failed to evaluate configuration" e.chain), w₂) :=
    run_step_eq.mpr ⟨.ok c, w₁, built, run_step_eq.mpr ⟨(.error e, cache), w₂, unreported, rfl⟩⟩
  rw [ends]
  rfl

theorem check_of_reported {r : Report} {cache : AreaCache Float}
    (reported : ((Report.build c).run.run .fresh).run w₁ = ((.ok r, cache), w₂)) :
    ((check files a).run w).1.exitCode = 0 ↔ ∃ text, print a.json r = .ok text := by
  cases printed : print a.json r with
  | error e =>
    have ends : (check files a).run w = (.failed (failureMessage e.message []), w₂) := by
      refine run_step_eq.mpr ⟨.ok c, w₁, built, run_step_eq.mpr ⟨(.ok r, cache), w₂, reported, ?_⟩⟩
      simp only [printed]
      rfl
    simp [ends, Outcome.exitCode]
  | ok text =>
    have ends : (check files a).run w = (.report text, w₂) := by
      refine run_step_eq.mpr ⟨.ok c, w₁, built, run_step_eq.mpr ⟨(.ok r, cache), w₂, reported, ?_⟩⟩
      simp only [printed]
      rfl
    simp [ends, Outcome.exitCode]

end Built

/-- The program ends well exactly if there is a configuration, and a report on it that is printed. -/
theorem check_ends_iff (files : Files (StateM σ)) (a : Arguments) (w : σ) :
    ((check files a).run w).1.exitCode = 0 ↔ ∃ c w₁ r cache w₂ text,
      (Configuration.build files (GeoJson.drivers files) (.file a.file) a.options).run.run w =
        (.ok c, w₁) ∧
      ((Report.build c).run.run .fresh).run w₁ = ((.ok r, cache), w₂) ∧
      print a.json r = .ok text := by
  rcases built : (Configuration.build files (GeoJson.drivers files) (.file a.file)
    a.options).run.run w with ⟨e | c, w₁⟩
  · rw [check_of_unbuilt built]
    refine iff_of_false (by decide) fun given => ?_
    obtain ⟨_, _, _, _, _, _, same, _⟩ := given
    cases same
  · rcases reported : ((Report.build c).run.run .fresh).run w₁ with ⟨⟨e | r, cache⟩, w₂⟩
    · rw [check_of_unreported built reported]
      refine iff_of_false (by decide) fun given => ?_
      obtain ⟨_, _, _, _, _, _, same, given, _⟩ := given
      cases same
      cases reported.symm.trans given
    · rw [check_of_reported built reported]
      constructor
      · intro printed
        obtain ⟨text, printed⟩ := printed
        exact ⟨c, w₁, r, cache, w₂, text, rfl, reported, printed⟩
      · intro given
        obtain ⟨_, _, _, _, _, text, same, given, printed⟩ := given
        cases same
        cases reported.symm.trans given
        exact ⟨text, printed⟩

/-- Every report can be written as text. As JSON it is written exactly if every key in the parameters
of the initialized zoom levels has a text, and otherwise the first key without one decides. In a
configuration that was built such a key is in a sequence, a tagged value or a declaration. So the
program ends well with JSON exactly if it does with text and all keys have texts. -/
theorem renderings :
    (∀ (c : Configuration (StateM σ) Float) (cache : AreaCache Float) (w : σ) (r : Report)
      (cache' : AreaCache Float) (w' : σ),
      ((Report.build c).run.run cache).run w = ((.ok r, cache'), w') →
      print false r = .ok r.text ∧
      ((∃ text, print true r = .ok text) ↔
        ∀ k, c.HasKey k → ∃ name, Json.keyName k = .ok name) ∧
      ∀ e, print true r = .error e ↔ r.keys.findSome? Json.keyError? = some e) ∧
    (∀ (files : Files (StateM σ)) (drivers : Drivers (StateM σ) Float) (source : DocumentSource)
      (options : InitOptions) (w w' : σ) (c : Configuration (StateM σ) Float),
      (Configuration.build files drivers source options).run.run w = (.ok c, w') →
      ∀ k, c.HasKey k → (∃ text, k = .string text) ∨
        ∃ zoom ∈ c.initZooms.toList, ∃ s, c.snapshot zoom = .ok s ∧
          ∃ x ∈ s.params, ∃ u : Value, u.KeptIn x.2 ∧ k ∈ u.keys) ∧
    ∀ (files : Files (StateM σ)) (a : Arguments) (w : σ),
      ((check files { a with json := true }).run w).1.exitCode = 0 ↔
        ((check files { a with json := false }).run w).1.exitCode = 0 ∧
        ∀ c w₁, (Configuration.build files (GeoJson.drivers files) (.file a.file) a.options).run.run w =
          (.ok c, w₁) → ∀ k, c.HasKey k → ∃ name, Json.keyName k = .ok name := by
  refine ⟨?_, ?_, ?_⟩
  · intro c cache w r cache' w' given
    exact ⟨rfl, Configuration.print_ok_iff given, fun e => r.print_decided.error_iff⟩
  · intro files drivers source options w w' c built k has
    obtain ⟨zoom, mem, s, given, inside⟩ := has
    obtain ⟨step⟩ := Configuration.construction built
    obtain ⟨n, _, read⟩ := params_of_checkDocument step.check
    have same := (Configuration.coherent built).snapshot_params given
    obtain ⟨x, here, rfl | deeper⟩ := Value.mem_entryKeys.mp inside
    · rw [same] at here
      obtain ⟨name, text, _⟩ := params_visible read zoom x here
      exact .inl ⟨name, text⟩
    · have seen := here
      rw [same] at seen
      exact (param_keys read zoom x seen k deeper).imp_right fun kept =>
        ⟨zoom, mem, s, given, x, here, kept⟩
  · intro files a w
    rw [check_ends_iff, check_ends_iff]
    constructor
    · intro ends
      obtain ⟨c, w₁, r, cache, w₂, text, built, given, printed⟩ := ends
      refine ⟨⟨c, w₁, r, cache, w₂, r.text, built, given, rfl⟩, fun c' w₁' built' => ?_⟩
      cases Eq.trans built.symm built'
      exact (Configuration.print_ok_iff given).mp ⟨text, printed⟩
    · intro ends
      obtain ⟨⟨c, w₁, r, cache, w₂, _, built, given, _⟩, written⟩ := ends
      obtain ⟨text, printed⟩ := (Configuration.print_ok_iff given).mpr (written c w₁ built)
      exact ⟨c, w₁, r, cache, w₂, text, built, given, printed⟩

/-- A document with a mapping in a sequence, whose keys are a boolean and a number. -/
def scalarKeys : Mapping :=
  Configuration.unboundEntries ++ [(.string "options",
    .sequence [.mapping [(.bool true, .null), (.number (.int 2), .string "x")]])]

/-- Booleans and numbers have texts, so the report on this document can be written both ways. -/
theorem renderings_scalarKeys : ∃ c w' r cache w₂,
    (Configuration.buildFrom scalarKeys).run.run () = (.ok c, w') ∧
    ((Report.build c).run.run .fresh).run w' = ((.ok r, cache), w₂) ∧
    c.HasKey (.bool true) ∧ print false r = .ok r.text ∧ ∃ text, print true r = .ok text := by
  obtain ⟨c, w', built, test⟩ := givesWith_iff (Configuration.buildFrom scalarKeys) () (fun c =>
    decide (c.initZooms.toList = [3] ∧ (((Report.build c).run.run .fresh).run ()).1.1.isOk ∧
      ∃ s ∈ (c.snapshot 3).toOption, (∃ k ∈ (Value.mapping s.params).keys, k == .bool true) ∧
        ∀ k ∈ (Value.mapping s.params).keys, (Json.keyError? k).isNone))
    |>.mp (by decide +kernel)
  obtain ⟨zooms, reports, s, snapshot, ⟨k, mem, isTrue⟩, texts⟩ := of_decide_eq_true test
  have given := toOption_eq_some.mp snapshot
  have key : k = .bool true := by
    cases k <;> simp_all [BEq.beq, Value.same]
  rcases reported : ((Report.build c).run.run .fresh).run () with ⟨⟨e | r, cache⟩, w₂⟩
  · rw [reported] at reports
    cases reports
  · obtain ⟨text, written, _⟩ := renderings.1 c _ _ r _ _ reported
    refine ⟨c, w', r, cache, w₂, built, reported, ⟨3, by simp [zooms], s, given, key ▸ mem⟩, text,
      written.mpr fun k has => ?_⟩
    obtain ⟨zoom, inside, s', given', mem⟩ := has
    obtain rfl : zoom = 3 := by simpa [zooms] using inside
    cases given.symm.trans given'
    exact Json.keyError?_eq_none_iff.mp (Option.isNone_iff_eq_none.mp (texts k mem))

/-- A document with a null key in a sequence. -/
def nullKeyText : String :=
  "process_file: process.py\nzoom_levels: 3\npyramid: \x7bgrid: geodetic\x7d\ninput:\n" ++
  "output: \x7bformat: GeoJSON, path: out\x7d\noptions:\n- null: 1\n"

/-- Files that all have one text. -/
def oneText (text : String) : Files (StateM Unit) where
  isFile _ := pure true
  readText _ := pure (.ok text)
  realPath path := pure (.ok path)

/-- The arguments for a document, as text or as JSON. -/
def argumentsFor (json : Bool) : Arguments := ⟨"/test.mapchete", none, none, Mode.keep.name, json⟩

/-- The program accepts the document as text and refuses to write it as JSON. -/
theorem renderings_nullKey :
    ((check (oneText nullKeyText) (argumentsFor false)).run ()).1.exitCode = 0 ∧
    ((check (oneText nullKeyText) (argumentsFor true)).run ()).1 =
      .failed "Error: key must be a string" := by
  decide +kernel

end CommandLine

end ZoomConfig
