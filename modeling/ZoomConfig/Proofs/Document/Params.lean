import ZoomConfig.Proofs.Document.CurrentForm
import ZoomConfig.Proofs.Document.Sections
import ZoomConfig.Proofs.Zoom.Leftover
/-!
Where the parameters of a document come from.

Each parameter is read from one entry of the document in its current form (`mem_parseParams`), and the
input is one that was written, so the resolved input of a zoom level is what is left of it
(`input_read`).
-/
namespace ZoomConfig

open Outcome

/-- Is it an entry without the name of a section? -/
def isParameter (e : Value × Value) : Bool :=
  match keyText e.1 with
  | .ok name => !reservedParameters.contains name
  | .error _ => true

theorem isParameter_of_text {e : Value × Value} {name : String} (text : keyText e.1 = .ok name) :
    isParameter e = !reservedParameters.contains name := by
  rw [isParameter, text]

namespace ProcessDocument

theorem parseParams_bind (k v : Value) (rest : Mapping) :
    parseParams ((k, v) :: rest) = keyText k >>= fun name =>
      if reservedParameters.contains name then parseParams rest
      else NodeKey.parse name >>= fun key => Node.parse v >>= fun node =>
        (parseParams rest).map ((key, node) :: ·) := by
  rw [parseParams]
  cases keyText k with
  | error e => rfl
  | ok name =>
    refine ite_congr rfl (fun _ => rfl) fun _ => ?_
    cases NodeKey.parse name with
    | error e => rfl
    | ok key => cases Node.parse v <;> rfl

/-- The parameters are the children of a document without its sections. -/
theorem parseParams_eq : ∀ m : Mapping, parseParams m = Node.parseChildren (m.filter isParameter)
  | [] => rfl
  | (k, v) :: rest => by
    have ih := parseParams_eq rest
    rw [parseParams_bind]
    cases hk : keyText k with
    | error e =>
      have kept : isParameter (k, v) = true := by rw [isParameter, hk]
      rw [List.filter_cons_of_pos kept, Node.parseChildren_bind, hk]
      rfl
    | ok name =>
      have is : isParameter (k, v) = !reservedParameters.contains name := isParameter_of_text hk
      cases reserved : reservedParameters.contains name with
      | true =>
        rw [reserved] at is
        rw [List.filter_cons_of_neg (ne_true_of_eq_false is), ← ih]
        exact if_pos reserved
      | false =>
        rw [reserved] at is
        rw [List.filter_cons_of_pos is, Node.parseChildren_bind, hk, ← ih]
        exact if_neg (ne_true_of_eq_false reserved)

end ProcessDocument

section Params

variable {m : Mapping} {params : List (NodeKey × Node)} {zoom : Nat}

/-- Every parameter is read from an entry of the document that is no section. -/
theorem mem_parseParams (h : ProcessDocument.parseParams m = .ok params) : ∀ x ∈ params, ∃ e ∈ m,
    x.1.name ∉ reservedParameters ∧ keyText e.1 = .ok x.1.name ∧
      NodeKey.parse x.1.name = .ok x.1 ∧ Node.parse e.2 = .ok x.2 := by
  intro x mem
  rw [ProcessDocument.parseParams_eq] at h
  obtain ⟨e, inside, text, read⟩ := Node.mem_parseChildren h x mem
  obtain ⟨written, other⟩ := List.mem_filter.mp inside
  rw [isParameter_of_text text] at other
  exact ⟨e, written, by simpa using other, text, read⟩

/-- The resolved input is what is left of the input that was written, as an input. -/
theorem input_read (read : ProcessDocument.parseParams m = .ok params) {v : Value}
    (found : Mapping.get? (Node.resolveParams params zoom) inputKey = some v) :
    ∃ u node, (.string inputKey, u) ∈ m ∧ Node.parse u = .ok node ∧
      node.resolve zoom true = some v := by
  obtain ⟨part, mem, name, rfl⟩ := Node.mem_of_get?_toMapping found
  obtain ⟨⟨key, node⟩, inside, here, _, left⟩ := Node.mem_resolveChildren mem
  obtain ⟨⟨k, u⟩, written, _, text, parsed, hnode⟩ := mem_parseParams read _ inside
  have same : key.name = inputKey := here.symm.trans name
  rw [same] at text parsed
  -- The name of the inputs is a plain key.
  obtain rfl : ⟨inputKey, none⟩ = key := Except.ok.inj (Eq.trans rfl parsed)
  obtain rfl := keyText_eq_input text
  exact ⟨u, node, written, hnode, left⟩

theorem params_of_checkDocument {loaded : LoadedDocument} {doc : ProcessDocument}
    {deprecations : List Deprecation}
    (h : Configuration.checkDocument loaded = .ok (doc, deprecations)) :
    ∃ n, normalize loaded.mapping = .ok n ∧
      ProcessDocument.parseParams n.mapping = .ok doc.params := by
  obtain ⟨n, normalized, read⟩ := ProcessDocument.sections_of_checkDocument h
  exact ⟨n, normalized, read.params⟩

theorem input_tidy {loaded : LoadedDocument} {doc : ProcessDocument}
    {deprecations : List Deprecation} {N : String → Prop}
    (h : Configuration.checkDocument loaded = .ok (doc, deprecations))
    (named : ∀ v, (.string inputKey, v) ∈ loaded.mapping ∨
      (.string "input_files", v) ∈ loaded.mapping → v.Named N) {v : Value}
    (found : Mapping.get? (Node.resolveParams doc.params zoom) inputKey = some v) : v.Tidy N := by
  obtain ⟨n, normalized, read⟩ := params_of_checkDocument h
  obtain ⟨u, node, written, parsed, left⟩ := input_read read found
  exact Node.resolve_tidy (named u (normalize_input normalized written)) parsed left

end Params

end ZoomConfig
