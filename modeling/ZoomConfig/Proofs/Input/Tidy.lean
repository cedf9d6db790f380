import Mathlib.Data.List.Forall2
import ZoomConfig.Proofs.Input.Parsing
import ZoomConfig.Proofs.Tree.RoundTrip
import ZoomConfig.Proofs.Zoom.Leftover
/-!
Trees that are read from tidy values.

The groups of a tidy value become the groups of a tree, with the same names (`readEntries_strings`).
So such a tree has its names in order and no empty group (`ofValue_neat`), and if no name holds a
slash it is neat (`parse_tidy`): its flat form gives it back.
-/
namespace ZoomConfig

/-- A name can stand in a path. -/
def NoSlash (name : String) : Prop := '/' ∉ name.toList

namespace InputTree

open Forest Outcome

/-- Every entry with a text key is read under its name. -/
theorem readEntries_strings : ∀ {entries : List (String × Value)}
    {read : List (String × Tree (Option Declaration))},
    readEntries (entries.map fun e => (.string e.1, e.2)) = .ok read →
    List.Forall₂ (fun e x => x.1 = e.1 ∧ ofValue e.1 e.2 = .ok x.2) entries read
  | [], _, h => by
    cases h
    exact .nil
  | e :: rest, _, h => by
    obtain ⟨name, node, others, hname, hnode, hothers, rfl⟩ := readEntries_cons h
    obtain rfl : e.1 = name := by simpa [keyText] using hname
    exact .cons ⟨rfl, hnode⟩ (readEntries_strings hothers)

theorem forall_read {P : String × Tree (Option Declaration) → Prop}
    {entries : List (String × Value)} {read : List (String × Tree (Option Declaration))}
    (h : readEntries (entries.map fun e => (.string e.1, e.2)) = .ok read)
    (each : ∀ e ∈ entries, ∀ t, ofValue e.1 e.2 = .ok t → P (e.1, t)) : ∀ x ∈ read, P x := by
  intro x mem
  obtain ⟨name, node⟩ := x
  obtain ⟨e, inside, rfl, hnode⟩ := exists_of_mem_forall₂ (readEntries_strings h) (name, node) mem
  exact each e inside node hnode

variable {N : String → Prop} {v : Value}

/-- What holds of leaves, and of a group as soon as it holds of its nodes, holds of every node that is
read from a tidy value. -/
theorem ofValue_induction {P : Tree (Option Declaration) → Prop} (leaf : ∀ x, P (.leaf x))
    (group : ∀ read, read ≠ [] → (∀ x ∈ read, N x.1 ∧ P x.2) → P (.branch (Dict.ofList read)))
    (tidy : v.Tidy N) : ∀ {name : String} {t : Tree (Option Declaration)},
    ofValue name v = .ok t → P t := by
  have declaration : ∀ {entries : List (Value × Value)} {name : String}
      {t : Tree (Option Declaration)}, Mapping.contains entries formatKey = true →
      ofValue name (.mapping entries) = .ok t → P t := by
    intro entries name t h read
    rw [ofValue, if_pos h] at read
    cases read
    exact leaf _
  induction tidy with
  | declaration h => exact declaration h
  | @group entries some _ names _ ih =>
    intro name t given
    by_cases h : Mapping.contains (entries.map fun e => (.string e.1, e.2)) formatKey = true
    · exact declaration h given
    · rw [ofValue, if_neg h, addEntries_nil] at given
      obtain ⟨_, hnodes, rfl⟩ := map_eq_ok.mp given
      obtain ⟨read, hread, rfl⟩ := map_eq_ok.mp hnodes
      refine group read ?_ (forall_read hread fun e mem t here => ⟨names e mem, ih e mem here⟩)
      intro none
      have pairs := readEntries_strings hread
      rw [none] at pairs
      cases pairs
      exact some rfl
  | @other v h =>
    intro name t given
    cases v with
    | mapping entries => exact absurd rfl (h entries)
    | null | string _ =>
      cases given
      exact leaf _
    | bool _ | number _ | sequence _ | tagged _ _ => cases given

theorem ofList_ne_nil {read : List (String × Tree (Option Declaration))} (some : read ≠ []) :
    Dict.ofList read ≠ [] := by
  obtain ⟨⟨name, t⟩, rest, rfl⟩ := List.exists_cons_of_ne_nil some
  intro none
  have found := Dict.get?_ofList ((name, t) :: rest) name
  rw [none] at found
  simp [Dict.get?, List.find?_append] at found

/-- A group has its names in order, and neither it nor a group in it is empty. -/
theorem ofValue_neat (tidy : v.Tidy N) {name : String} {t : Tree (Option Declaration)}
    (h : ofValue name v = .ok t) :
    ∀ children, t = .branch children → children ≠ [] ∧ Ordered children ∧ Full children := by
  refine ofValue_induction (P := fun t => ∀ children, t = .branch children →
    children ≠ [] ∧ Ordered children ∧ Full children) (fun _ _ same => (nomatch same)) ?_ tidy h
  intro read some each children same
  cases same
  have inner : ∀ {name children}, (name, .branch children) ∈ Dict.ofList read →
      children ≠ [] ∧ Ordered children ∧ Full children := fun mem =>
    (each _ (Dict.mem_ofList mem)).2 _ rfl
  exact ⟨ofList_ne_nil some,
    .of (Dict.sorted_ofList read) fun _ _ mem => (inner mem).2.1,
    .of (fun _ _ mem => (inner mem).1) fun _ _ mem => (inner mem).2.2⟩

theorem ofValue_slashFree (tidy : v.Tidy NoSlash) {name : String} {t : Tree (Option Declaration)}
    (h : ofValue name v = .ok t) : t.SlashFree :=
  ofValue_induction (fun _ => trivial)
    (fun _ _ each => slashFree_of fun e mem => each e (Dict.mem_ofList mem)) tidy h

theorem ofValue_of_parse {tree : InputTree} (h : parse v = .ok tree) :
    ofValue "" v = .ok (.branch tree) := by
  obtain ⟨entries, read, rfl, plain, hread, rfl⟩ := parse_ok h
  rw [ofValue, if_neg (by simp [plain]), addEntries_nil, hread]
  rfl

/-- The tree of a tidy value without slashes in names is neat. -/
theorem parse_tidy (tidy : v.Tidy NoSlash) {tree : InputTree} (h : parse v = .ok tree) :
    Neat tree := by
  have node := ofValue_of_parse h
  obtain ⟨_, ordered, full⟩ := ofValue_neat tidy node tree rfl
  exact ⟨ordered, ofValue_slashFree tidy node, full⟩

end InputTree

end ZoomConfig
