import ZoomConfig.Proofs.Configuration.Snapshots
import ZoomConfig.Proofs.Document.Params
import ZoomConfig.Proofs.Zoom.FirstMatch
/-!
The condition that counts among the parameters.

Of all parameters with a condition, a snapshot has at most the first one that is true, in the order of
the document in its current form (`snapshot_condition`). This order is not always the one that was
written: when `config_dir` or `input_files` is taken out, the last entry moves to its place
(`find?_remove`), and then a true condition that was written last may stand before an earlier one
(`snapshot_condition_moved`).
-/
namespace ZoomConfig

open Outcome

/-! ## Searching a mapping -/

namespace Mapping

variable {q : Value × Value → Bool}

theorem find?_moveLast (m : Mapping) :
    (match m.getLast? with | none => [] | some last => last :: m.dropLast).find? q =
      (m.getLast?.filter q).or (m.find? q) := by
  cases h : m.getLast? with
  | none =>
    rw [List.getLast?_eq_none_iff.mp h]
    rfl
  | some last =>
    obtain ⟨front, rfl⟩ := List.getLast?_eq_some_iff.mp h
    by_cases here : q last = true
    · simp [here, Option.filter]
    · simp [here, Option.filter]

/-- Once an entry has been taken out, a search finds what stands before it, else the last entry, else
what stands after it. -/
theorem find?_remove {m : Mapping} {key : String} {before after : Mapping} {found : Value}
    (split : splitAtKey m key = some (before, found, after)) :
    (remove m key).2.find? q =
      (before.find? q).or ((after.getLast?.filter q).or (after.find? q)) := by
  simp only [remove, split, List.find?_append]
  exact congrArg (before.find? q).or (find?_moveLast after)

/-- If the last entry is not searched for, taking one out that is not either makes no difference, and
if there is none to be taken out anyway. -/
theorem find?_remove_eq {m : Mapping} {key : String} (other : ∀ v, q (.string key, v) = false)
    (last : contains m key = true → ∀ e ∈ m.getLast?, q e = false) :
    (remove m key).2.find? q = m.find? q := by
  cases split : splitAtKey m key with
  | none => simp [remove, split]
  | some parts =>
    obtain ⟨before, found, after⟩ := parts
    have whole := splitAtKey_eq split
    have given : contains m key = true := by
      refine contains_of_mem (v := found) ?_
      rw [whole]
      simp
    have none : after.getLast?.filter q = none := by
      cases h : after.getLast? with
      | none => rfl
      | some e =>
        obtain ⟨front, rfl⟩ := List.getLast?_eq_some_iff.mp h
        have there : m.getLast? = some e := by
          rw [whole, ← List.cons_append, ← List.append_assoc]
          exact List.getLast?_concat
        simp [Option.filter, last given e there]
    rw [find?_remove split, none, whole, List.find?_append, List.find?_cons_of_neg (by simp [other])]
    rfl

end Mapping

/-! ## True conditions of a document -/

variable {zoom : Nat}

theorem entryHolds_plain {name : String} (plain : Condition.classify name = .plain) (v : Value) :
    Node.entryHolds zoom (.string name, v) = false := by
  simp [Node.entryHolds, condition?, keyText, plain]

/-- Bringing a document into its current form finds the same true condition first, unless it takes
`input_files` out and moves one. -/
theorem find?_normalize {m : Mapping} {n : Normalized} (h : normalize m = .ok n)
    (last : Mapping.contains m "input_files" = true →
      ∀ e ∈ m.getLast?, Node.entryHolds zoom e = false) :
    n.mapping.find? (Node.entryHolds zoom) = m.find? (Node.entryHolds zoom) := by
  obtain ⟨added, keys, same⟩ := normalize_ok h
  have others : ∀ e ∈ added, Node.entryHolds zoom e = false := by
    intro e mem
    obtain ⟨key, inside, same⟩ := keys e mem
    obtain ⟨k, v⟩ := e
    obtain rfl : k = .string key := same
    have plain : ∀ key ∈ sectionKeys, Condition.classify key = .plain := by decide
    exact entryHolds_plain (plain key inside) v
  have none : added.find? (Node.entryHolds zoom) = none :=
    List.find?_eq_none.mpr fun e mem => by simp [others e mem]
  rcases same with same | ⟨input, found, same⟩
  · rw [same, List.find?_append, none, Option.or_none]
  · have given : Mapping.contains m "input_files" = true := Mapping.contains_of_mem
      (mem_of_mem_append_sections keys (by decide) (Mapping.mem_of_remove found))
    have lastAdded : ∀ e ∈ (m ++ added).getLast?, Node.entryHolds zoom e = false := by
      intro e mem
      rw [List.getLast?_append] at mem
      cases h : added.getLast? with
      | none => exact last given e (by simpa [h] using mem)
      | some x =>
        obtain rfl : x = e := by simpa [h] using mem
        exact others x (List.mem_of_getLast? h)
    have files : ∀ v, Node.entryHolds zoom (.string "input_files", v) = false :=
      entryHolds_plain (by decide)
    have input : Node.entryHolds zoom (.string "input", input) = false :=
      entryHolds_plain (by decide) input
    rw [same, List.find?_append, Mapping.find?_remove_eq files fun _ => lastAdded,
      List.find?_append, none, List.find?_cons_of_neg (by simp [input])]
    simp

/-! ## What is left of a true condition -/

theorem reserved_plain : ∀ name ∈ reservedParameters, Condition.classify name = .plain := by decide

namespace Node

/-- The first true condition of children is read from the first true one of their entries. -/
theorem find?_parseChildren (zoom : Nat) : ∀ {entries : List (Value × Value)}
    {children : List (NodeKey × Node)}, parseChildren entries = .ok children →
    match children.find? (·.1.holds zoom) with
    | none => entries.find? (entryHolds zoom) = none
    | some x => ∃ e, entries.find? (entryHolds zoom) = some e ∧ keyText e.1 = .ok x.1.name ∧
        parse e.2 = .ok x.2
  | [], _, h => by
    cases h
    rfl
  | (k, u) :: rest, _, h => by
    obtain ⟨name, key, node, others, hname, hkey, hnode, hothers, rfl⟩ := parseChildren_cons h
    have here : entryHolds zoom (k, u) = key.holds zoom := by
      rw [entryHolds, condition?_of_parse hname hkey, NodeKey.holds]
    cases holds : key.holds zoom with
    | true =>
      rw [← NodeKey.parse_name hkey] at hname
      simp only [List.find?_cons, here, holds]
      exact ⟨(k, u), rfl, hname, hnode⟩
    | false =>
      simp only [List.find?_cons, here, holds]
      exact find?_parseChildren zoom hothers

theorem find?_isParameter (zoom : Nat) (m : Mapping) :
    (m.filter isParameter).find? (entryHolds zoom) = m.find? (entryHolds zoom) := by
  rw [List.find?_filter]
  congr 1
  funext e
  cases text : keyText e.1 with
  | error cause => simp [isParameter, text]
  | ok name =>
    rw [isParameter_of_text text]
    cases reserved : reservedParameters.contains name with
    | false => simp
    | true =>
      have inside : name ∈ reservedParameters := by simpa using reserved
      simp [entryHolds, condition?, text, reserved_plain name inside]

theorem find?_parseParams (zoom : Nat) {m : Mapping} {params : List (NodeKey × Node)}
    (read : ProcessDocument.parseParams m = .ok params) :
    match params.find? (·.1.holds zoom) with
    | none => m.find? (entryHolds zoom) = none
    | some x => ∃ e, m.find? (entryHolds zoom) = some e ∧ keyText e.1 = .ok x.1.name ∧
        parse e.2 = .ok x.2 := by
  rw [ProcessDocument.parseParams_eq] at read
  rw [← find?_isParameter zoom m]
  exact find?_parseChildren zoom read

/-- Of the parameters with a condition the first true one is left, if anything is left of it. -/
theorem conditional_mem_iff {m : Mapping} {params : List (NodeKey × Node)}
    (read : ProcessDocument.parseParams m = .ok params) (name : String) (v : Value) :
    (⟨name, v, true⟩ : Entry) ∈ resolveChildren zoom false false params ↔
      ∃ e node, m.find? (entryHolds zoom) = some e ∧ keyText e.1 = .ok name ∧
        parse e.2 = .ok node ∧ node.resolve zoom false = some v := by
  have conditional : (⟨name, v, true⟩ : Entry) ∈ resolveChildren zoom false false params ↔
      ⟨name, v, true⟩ ∈ (resolveChildren zoom false false params).filter (·.conditional) := by simp
  have first := find?_parseParams zoom read
  rw [conditional, resolveChildren_conditional]
  cases found : params.find? (·.1.holds zoom) with
  | none =>
    rw [found] at first
    simp [first]
  | some x =>
    rw [found] at first
    obtain ⟨e, written, text, parsed⟩ := first
    simp [written, text, parsed, mem_chosenPart, eq_comm]

/-- The parameters of a zoom level have a condition for a key only if it is the first true one. -/
theorem mem_resolveParams_iff {m : Mapping} {params : List (NodeKey × Node)}
    (read : ProcessDocument.parseParams m = .ok params) {name : String} {c : Condition}
    (hc : Condition.classify name = .condition c) (v : Value) :
    (.string name, v) ∈ resolveParams params zoom ↔
      ∃ e node, m.find? (entryHolds zoom) = some e ∧ keyText e.1 = .ok name ∧
        parse e.2 = .ok node ∧ node.resolve zoom false = some v := by
  rw [← conditional_mem_iff read]
  obtain ⟨kept, eq, _, given, names⟩ := toMapping_kept (resolveChildren zoom false false params)
  have conditional : ∀ part ∈ resolveChildren zoom false false params, part.name = name →
      part = ⟨name, part.value, true⟩ := by
    intro part mem same
    obtain ⟨x, inside, here, isSome, _⟩ := mem_resolveChildren mem
    obtain ⟨_, _, _, _, parsed, _⟩ := mem_parseParams read x inside
    rw [← here, same, NodeKey.parse, hc] at parsed
    have key : x.1.condition = some c := by rw [← Except.ok.inj parsed]
    obtain ⟨_, value, flag⟩ := part
    simp only [key, Option.isSome_some] at isSome
    rw [isSome, ← same]
  have mem_kept : (.string name, v) ∈ resolveParams params zoom ↔ (name, v) ∈ kept := by
    rw [resolveParams, eq]
    simp
  rw [mem_kept]
  constructor
  · intro mem
    obtain ⟨part, inside, here, rfl⟩ := given _ mem
    rw [← conditional part inside here]
    exact inside
  · intro mem
    obtain ⟨⟨_, u⟩, inside, rfl⟩ := List.mem_map.mp ((names name).mpr (List.mem_map_of_mem mem))
    obtain ⟨part, there, here, rfl⟩ := given _ inside
    have again := there
    rw [conditional part there here, conditional_mem_iff read] at again
    -- Both are left of the first true condition.
    obtain ⟨e, node, found, _, parsed, left⟩ := (conditional_mem_iff read _ _).mp mem
    obtain ⟨e', node', found', _, parsed', left'⟩ := again
    cases found.symm.trans found'
    cases parsed.symm.trans parsed'
    cases left.symm.trans left'
    exact inside

end Node

namespace Configuration

theorem Coherent.snapshot_params {m : Type → Type} {α : Type} {c : Configuration m α}
    (h : Coherent c) {zoom : Nat} {s : Snapshot m α} (given : c.snapshot zoom = .ok s) :
    s.params = (Mapping.remove (Node.resolveParams c.document.params zoom) inputKey).2 := by
  by_cases mem : zoom ∈ c.initZooms.toList
  · obtain ⟨p, resolved, same⟩ := h.snapshot_eq mem
    rw [given] at same
    rw [← resolved.others]
    split at same
    · cases same
      rfl
    · cases same
  · rw [h.snapshot_other mem] at given
    cases given

variable {σ α : Type} [Coordinate α] {files : Files (StateM σ)} {drivers : Drivers (StateM σ) α}
  {source : DocumentSource} {options : InitOptions} {w w₁ w' : σ} {c : Configuration (StateM σ) α}
  {loaded : LoadedDocument}

/-- Of all conditions, a snapshot of a configuration that was built has exactly what is left of the
first true one in the order of the document in its current form. This is the first true one of the
document as it was written, if no true condition stands last when an entry is taken out: neither among
all entries when there is `config_dir`, nor among those without it when there is `input_files`. -/
theorem snapshot_condition (built : (build files drivers source options).run.run w = (.ok c, w'))
    (load : (LoadedDocument.load files source).run w = (.ok loaded, w₁)) {zoom : Nat}
    {s : Snapshot (StateM σ) α} (given : c.snapshot zoom = .ok s) :
    ∃ n, normalize loaded.mapping = .ok n ∧
      (∀ name condition v, Condition.classify name = .condition condition →
        ((.string name, v) ∈ s.params ↔ ∃ e node,
          n.mapping.find? (Node.entryHolds zoom) = some e ∧ keyText e.1 = .ok name ∧
          Node.parse e.2 = .ok node ∧ node.resolve zoom false = some v)) ∧
      ∀ written, loaded.mapping = (Mapping.remove written configDirKey).2 →
        (Mapping.contains written configDirKey = true →
          ∀ e ∈ written.getLast?, Node.entryHolds zoom e = false) →
        (Mapping.contains loaded.mapping "input_files" = true →
          ∀ e ∈ loaded.mapping.getLast?, Node.entryHolds zoom e = false) →
        n.mapping.find? (Node.entryHolds zoom) = written.find? (Node.entryHolds zoom) := by
  obtain ⟨k⟩ := construction built
  have same := k.load
  rw [load] at same
  cases same
  obtain ⟨n, normalized, read⟩ := params_of_checkDocument k.check
  refine ⟨n, normalized, ?_, ?_⟩
  · intro name condition v hc
    have other : (Value.string name, v).1 ≠ .string inputKey := by
      intro same
      cases same
      have plain : Condition.classify inputKey = .plain := by decide
      rw [plain] at hc
      cases hc
    rw [(coherent built).snapshot_params given, Mapping.mem_remove_iff other]
    exact Node.mem_resolveParams_iff read hc v
  · intro written eq last lastLoaded
    rw [find?_normalize normalized lastLoaded, eq]
    exact Mapping.find?_remove_eq (entryHolds_plain (by decide)) last

/-- Two conditions that are both true at zoom level three. -/
def overlapping : Mapping :=
  [(.string "zoom>=0", .number (.int 1)), (.string "zoom<9", .number (.int 2))]

/-- A document with zoom level three and an unbound name. -/
def unboundEntries : Mapping :=
  [(.string "process_file", .string "process.py"),
    (.string "zoom_levels", .number (.int 3)),
    (.string "pyramid", .mapping [(.string "grid", .string "geodetic")]),
    (.string inputKey, .mapping [(.string "a", .null)]),
    (.string "output", .mapping [(.string formatKey, .string "Open")])]

/-- A configuration of a document that begins with its base directory. -/
def buildFrom (entries : Mapping) :
    ExceptT ConfigError (StateM Unit) (Configuration (StateM Unit) Float) :=
  build emptyFiles openDrivers (.mapping ((.string configDirKey, .string "/base") :: entries))
    .default

/-- Conditions that stand before other entries count in the order they were written. -/
theorem snapshot_condition_overlapping : ∃ c w' s,
    (buildFrom (overlapping ++ unboundEntries)).run.run () = (.ok c, w') ∧
    c.snapshot 3 = .ok s ∧ (.string "zoom>=0", .number (.int 1)) ∈ s.params ∧
    ∀ v, (.string "zoom<9", v) ∉ s.params := by
  obtain ⟨c, w', built, test⟩ := givesWith_iff (buildFrom (overlapping ++ unboundEntries)) ()
    (fun c => (c.snapshot 3).toOption.isSome) |>.mp (by decide +kernel)
  obtain ⟨s, given⟩ : ∃ s, c.snapshot 3 = .ok s := by
    cases h : c.snapshot 3 with
    | ok s => exact ⟨s, rfl⟩
    | error e => simp [h, Except.toOption] at test
  have load : (LoadedDocument.load emptyFiles (.mapping ((.string configDirKey, .string "/base") ::
      (overlapping ++ unboundEntries)))).run () = (.ok ⟨(.string "output", .mapping
        [(.string formatKey, .string "Open")]) :: (overlapping ++ unboundEntries.dropLast),
        "/base", none⟩, ()) := rfl
  obtain ⟨n, _, conditions, written⟩ := snapshot_condition built load given
  have first := written ((.string configDirKey, .string "/base") :: (overlapping ++ unboundEntries))
    rfl
    (fun _ e last => by
      cases last
      exact entryHolds_plain (by decide : Condition.classify "output" = .plain) _)
    (fun _ e last => by
      cases last
      exact entryHolds_plain (by decide : Condition.classify inputKey = .plain) _)
  have chosen : n.mapping.find? (Node.entryHolds 3) =
      some (.string "zoom>=0", .number (.int 1)) := first
  have from0 : Condition.classify "zoom>=0" = .condition ⟨.ge, 0⟩ := by decide
  have below9 : Condition.classify "zoom<9" = .condition ⟨.lt, 9⟩ := by decide
  refine ⟨c, w', s, built, given, ?_, ?_⟩
  · exact (conditions _ _ _ from0).mpr ⟨_, _, chosen, rfl, rfl, rfl⟩
  · intro v mem
    obtain ⟨e, _, found, text, _⟩ := (conditions _ _ _ below9).mp mem
    cases chosen.symm.trans found
    exact absurd (Except.ok.inj text) (by decide)

/-- When the base directory is taken out, the condition that was written last moves before the other
one, and counts in its place. -/
theorem snapshot_condition_moved : ∃ c w' s,
    (buildFrom (unboundEntries ++ overlapping)).run.run () = (.ok c, w') ∧
    (unboundEntries ++ overlapping).find? (Node.entryHolds 3) =
      some (.string "zoom>=0", .number (.int 1)) ∧
    c.snapshot 3 = .ok s ∧ (∃ v, (.string "zoom<9", v) ∈ s.params) ∧
    ∀ v, (.string "zoom>=0", v) ∉ s.params := by
  obtain ⟨c, w', built, test⟩ := givesWith_iff (buildFrom (unboundEntries ++ overlapping)) ()
    (fun c => match c.snapshot 3 with
      | .ok s => Mapping.contains s.params "zoom<9" && !Mapping.contains s.params "zoom>=0"
      | .error _ => false) |>.mp (by decide +kernel)
  split at test
  · next s given =>
    obtain ⟨last, first⟩ := Bool.and_eq_true_iff.mp test
    refine ⟨c, w', s, built, rfl, given, ?_, ?_⟩
    · obtain ⟨v, found⟩ := Option.isSome_iff_exists.mp last
      exact ⟨v, Mapping.mem_of_get? found⟩
    · intro v mem
      rw [Mapping.contains_of_mem mem] at first
      cases first
  · cases test

end Configuration

end ZoomConfig
