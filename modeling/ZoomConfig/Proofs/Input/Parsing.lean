import ZoomConfig.Input.Declaration
import ZoomConfig.Proofs.Outcome
import ZoomConfig.Proofs.Tree.Flattening
/-!
Reading the tree of an `input` value.

The entries of a mapping are read one by one (`readEntries`) and put into a dictionary
(`addEntries_eq`), so no name stands twice in a group of a tree that was read, and the tree is clean
as soon as its names are free of slashes (`parse_clean`).
-/
namespace ZoomConfig

namespace InputTree

open Outcome

/-- The nodes of entries with their names, in document order. -/
def readEntries : List (Value × Value) →
    Except ConfigError (List (String × Tree (Option Declaration)))
  | [] => .ok []
  | (k, v) :: rest =>
    match keyText k with
    | .error e => .error (.ofKey e)
    | .ok name =>
      match ofValue name v with
      | .error e => .error e
      | .ok node => (readEntries rest).map ((name, node) :: ·)

/-- The nodes are put into a dictionary one after the other. -/
theorem addEntries_eq (entries : List (Value × Value))
    (nodes : List (String × Tree (Option Declaration))) :
    addEntries nodes entries =
      (readEntries entries).map fun read => read.foldl (fun d e => Dict.insert d e.1 e.2) nodes := by
  induction entries generalizing nodes with
  | nil => rfl
  | cons e rest ih =>
    obtain ⟨k, v⟩ := e
    simp only [addEntries, readEntries]
    cases keyText k with
    | error e => rfl
    | ok name =>
      cases h : ofValue name v with
      | error e => simp [h, Except.map]
      | ok node =>
        simp only [h, ih]
        cases readEntries rest <;> rfl

theorem addEntries_nil (entries : List (Value × Value)) :
    addEntries [] entries = (readEntries entries).map Dict.ofList :=
  addEntries_eq entries []

theorem readEntries_cons {k v : Value} {rest : List (Value × Value)}
    {read : List (String × Tree (Option Declaration))}
    (h : readEntries ((k, v) :: rest) = .ok read) :
    ∃ name node others, keyText k = .ok name ∧ ofValue name v = .ok node ∧
      readEntries rest = .ok others ∧ read = (name, node) :: others := by
  unfold readEntries at h
  cases hname : keyText k with
  | error e => simp [hname] at h
  | ok name =>
    simp only [hname] at h
    cases hnode : ofValue name v with
    | error e => simp [hnode] at h
    | ok node =>
      simp only [hnode] at h
      obtain ⟨others, hothers, rfl⟩ := map_eq_ok.mp h
      exact ⟨name, node, others, rfl, hnode, hothers, rfl⟩

/-- A tree of which every node is clean if its names are free of slashes is clean itself then. -/
theorem clean_of_nodes {read : List (String × Tree (Option Declaration))}
    (each : ∀ e ∈ read, e.2.SlashFree → e.2.Clean) (free : Forest.SlashFree (Dict.ofList read)) :
    Forest.Clean (Dict.ofList read) := by
  refine Forest.clean_of ?_ (Dict.sorted_ofList read).nodup
  intro e mem
  obtain ⟨name, node⟩ := free.of_mem e mem
  exact ⟨name, each e (Dict.mem_ofList mem) node⟩

mutual

theorem ofValue_clean : ∀ {v : Value} {name : String} {t : Tree (Option Declaration)},
    ofValue name v = .ok t → t.SlashFree → t.Clean
  | .null, _, _, h, _ => by
    cases h
    trivial
  | .string _, _, _, h, _ => by
    cases h
    trivial
  | .mapping entries, _, _, h, free => by
    unfold ofValue at h
    split at h
    · cases h
      trivial
    · rw [addEntries_nil] at h
      obtain ⟨_, hnodes, rfl⟩ := map_eq_ok.mp h
      obtain ⟨read, hread, rfl⟩ := map_eq_ok.mp hnodes
      exact clean_of_nodes (readEntries_clean hread) free
  | .bool _, _, _, h, _ | .number _, _, _, h, _ | .sequence _, _, _, h, _ |
    .tagged _ _, _, _, h, _ => by
    simp [ofValue] at h

theorem readEntries_clean : ∀ {entries : List (Value × Value)}
    {read : List (String × Tree (Option Declaration))}, readEntries entries = .ok read →
    ∀ e ∈ read, e.2.SlashFree → e.2.Clean
  | [], _, h, e, mem, _ => by
    cases h
    simp at mem
  | (k, v) :: rest, _, h, e, mem, free => by
    obtain ⟨name, node, others, _, hnode, hothers, rfl⟩ := readEntries_cons h
    rcases List.mem_cons.mp mem with rfl | mem
    · exact ofValue_clean hnode free
    · exact readEntries_clean hothers e mem free

end

theorem parse_ok {v : Value} {tree : InputTree} (h : parse v = .ok tree) :
    ∃ entries read, v = .mapping entries ∧ Mapping.contains entries formatKey = false ∧
      readEntries entries = .ok read ∧ tree = Dict.ofList read := by
  cases v with
  | mapping entries =>
    simp only [parse] at h
    split at h
    · cases h
    · next plain =>
      rw [addEntries_nil] at h
      obtain ⟨read, hread, rfl⟩ := map_eq_ok.mp h
      exact ⟨entries, read, rfl, by simpa using plain, hread, rfl⟩
  | _ => cases h

/-- A tree that was read is clean if its names are free of slashes. -/
theorem parse_clean {v : Value} {tree : InputTree} (h : parse v = .ok tree)
    (free : Forest.SlashFree tree) : Forest.Clean tree := by
  obtain ⟨_, read, _, _, hread, rfl⟩ := parse_ok h
  exact clean_of_nodes (readEntries_clean hread) free

end InputTree

end ZoomConfig
