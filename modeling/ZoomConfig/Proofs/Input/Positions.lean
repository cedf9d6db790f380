import ZoomConfig.Proofs.Input.Tidy
import ZoomConfig.Proofs.Json.Canonical
import ZoomConfig.Proofs.Tree.Positions
/-!
Which leaves of an input have a path of their own.

A leaf stands in a value at the end of the keys that lead to it (`LeafAt`), and its path is their texts
with slashes between them. Of the leaves with one path the flat tree has the last one and no trace of
the others (`flatten_positions`), so that an input with a slash in a name may be lost
(`flatten_positions_lost`). Leaves at names without slashes have paths of their own.
-/
namespace ZoomConfig.InputTree

open Forest Node Outcome

/-- A leaf stands in a value at the end of names. -/
inductive LeafAt : Value → List String → Option Declaration → Prop where
  | null : LeafAt .null [] none
  | path (text : String) : LeafAt (.string text) [] (some (.path text))
  | declaration {entries : List (Value × Value)} (h : Mapping.contains entries formatKey = true) :
    LeafAt (.mapping entries) [] (some (.entries entries))
  | child {entries : List (Value × Value)} {k v : Value} {name : String} {names : List String}
    {x : Option Declaration} (plain : Mapping.contains entries formatKey = false)
    (mem : (k, v) ∈ entries) (key : keyText k = .ok name) (below : LeafAt v names x) :
    LeafAt (.mapping entries) (name :: names) x

variable {N : String → Prop} {v : Value}

theorem mem_ofList_read {entries : List (String × Value)}
    {read : List (String × Tree (Option Declaration))} (distinct : (entries.map (·.1)).Nodup)
    (h : readEntries (entries.map fun e => (.string e.1, e.2)) = .ok read) :
    (∀ x ∈ Dict.ofList read, ∃ e ∈ entries, x.1 = e.1 ∧ ofValue e.1 e.2 = .ok x.2) ∧
      ∀ e ∈ entries, ∃ t, ofValue e.1 e.2 = .ok t ∧ (e.1, t) ∈ Dict.ofList read := by
  have pairs := readEntries_strings h
  have names : Dict.keys read = entries.map (·.1) := by
    clear h distinct
    induction pairs with
    | nil => rfl
    | cons here _ ih => exact List.cons_eq_cons.mpr ⟨here.1, ih⟩
  have flipped : List.Forall₂ (fun x e => x.1 = e.1 ∧ ofValue e.1 e.2 = .ok x.2) read entries :=
    List.Forall₂.flip pairs
  simp only [Dict.mem_ofList_iff (names ▸ distinct)]
  refine ⟨exists_of_mem_forall₂ pairs, fun e mem => ?_⟩
  obtain ⟨⟨name, t⟩, inside, rfl, hnode⟩ := exists_of_mem_forall₂ flipped e mem
  exact ⟨t, hnode, inside⟩

/-- The leaves of a node that is read from a tidy value are those that stand in the value. -/
theorem mem_namedLeaves_ofValue (tidy : v.Tidy N) : ∀ {name : String}
    {t : Tree (Option Declaration)}, ofValue name v = .ok t → ∀ names x,
    (names, x) ∈ t.namedLeaves ↔ LeafAt v names x := by
  have declaration : ∀ {entries : List (Value × Value)} {name : String}
      {t : Tree (Option Declaration)}, Mapping.contains entries formatKey = true →
      ofValue name (.mapping entries) = .ok t → ∀ names x,
      (names, x) ∈ t.namedLeaves ↔ LeafAt (.mapping entries) names x := by
    intro entries name t h given names x
    rw [ofValue, if_pos h] at given
    cases given
    rw [Tree.namedLeaves, List.mem_singleton]
    constructor
    · intro same
      cases same
      exact .declaration h
    · intro leaf
      cases leaf with
      | declaration _ => rfl
      | child plain _ _ _ =>
        rw [h] at plain
        cases plain
  induction tidy with
  | declaration h => exact declaration h
  | @group entries some distinct _ _ ih =>
    intro name t given names x
    by_cases h : Mapping.contains (entries.map fun e => (.string e.1, e.2)) formatKey = true
    · exact declaration h given names x
    · rw [ofValue, if_neg h, addEntries_nil] at given
      obtain ⟨_, hnodes, rfl⟩ := map_eq_ok.mp given
      obtain ⟨read, hread, rfl⟩ := map_eq_ok.mp hnodes
      obtain ⟨nodes, children⟩ := mem_ofList_read distinct hread
      rw [Tree.namedLeaves, mem_namedLeaves]
      constructor
      · intro leaf
        obtain ⟨node, mem, rest, rfl, below⟩ := leaf
        obtain ⟨e, inside, same, hnode⟩ := nodes node mem
        rw [same]
        exact .child (by simpa using h) (List.mem_map.mpr ⟨e, inside, rfl⟩) rfl
          ((ih e inside hnode rest x).mp below)
      · intro leaf
        cases leaf with
        | declaration h' => exact absurd h' h
        | child plain mem key below =>
          obtain ⟨e, inside, same⟩ := List.mem_map.mp mem
          cases same
          cases key
          obtain ⟨t, hnode, mem⟩ := children e inside
          exact ⟨(e.1, t), mem, _, rfl, (ih e inside hnode _ x).mpr below⟩
  | @other v h =>
    intro name t given names x
    cases v with
    | mapping entries => exact absurd rfl (h entries)
    | null | string _ =>
      cases given
      rw [Tree.namedLeaves, List.mem_singleton]
      constructor
      · intro same
        cases same
        constructor
      · intro leaf
        cases leaf
        rfl
    | bool _ | number _ | sequence _ | tagged _ _ => cases given

/-- Of the leaves of an accepted value that was resolved as an input, the flat tree has those that
have the last names of all leaves with the same path, each at its path. So a leaf whose path no other
leaf has is there, and if no name holds a slash all are. -/
theorem flatten_positions {u : Value} {node : Node} (parsed : Node.parse u = .ok node) {zoom : Nat}
    (left : node.resolve zoom true = some v) {tree : InputTree} (accepted : parse v = .ok tree) :
    (∀ path x, Dict.get? (flatten tree) path = some x ↔ ∃ names, LeafAt v names x ∧
      Text.join '/' names = path ∧
      ∀ names' x', LeafAt v names' x' → Text.join '/' names' = path → ¬names < names') ∧
    (∀ names x, LeafAt v names x →
      (∀ names' x', LeafAt v names' x' → Text.join '/' names' = Text.join '/' names →
        names' = names) →
      Dict.get? (flatten tree) (Text.join '/' names) = some x) ∧
    ((∀ names x, LeafAt v names x → ∀ name ∈ names, NoSlash name) →
      ∀ names x, LeafAt v names x →
        Dict.get? (flatten tree) (Text.join '/' names) = some x) := by
  have tidy := resolve_tidy (Value.named_any u) parsed left
  have read := ofValue_of_parse accepted
  have leaves : ∀ names x, (names, x) ∈ namedLeaves tree ↔ LeafAt v names x :=
    mem_namedLeaves_ofValue tidy read
  obtain ⟨_, ordered, _⟩ := ofValue_neat tidy read tree rfl
  have last : ∀ path x, Dict.get? (flatten tree) path = some x ↔ ∃ names, LeafAt v names x ∧
      Text.join '/' names = path ∧
      ∀ names' x', LeafAt v names' x' → Text.join '/' names' = path → ¬names < names' := by
    intro path x
    simp only [get?_flatten_iff ordered, leaves, Prod.forall]
  have alone : ∀ names x, LeafAt v names x →
      (∀ names' x', LeafAt v names' x' → Text.join '/' names' = Text.join '/' names →
        names' = names) →
      Dict.get? (flatten tree) (Text.join '/' names) = some x := by
    intro names x leaf only
    refine (last _ x).mpr ⟨names, leaf, rfl, fun names' x' leaf' same => ?_⟩
    rw [only names' x' leaf' same]
    exact List.lt_irrefl _
  refine ⟨last, alone, fun free names x leaf => alone names x leaf fun names' x' leaf' same => ?_⟩
  have some : ∀ {names x}, LeafAt v names x → names ≠ [] := by
    intro names x leaf none
    obtain ⟨e, _, rest, rfl, _⟩ := mem_namedLeaves.mp ((leaves names x).mpr leaf)
    cases none
  rw [← segments_join (some leaf') (free names' x' leaf'), same,
    segments_join (some leaf) (free names x leaf)]

/-- Two leaves with one path, one of them beneath a group. -/
def sharedPath : Value :=
  .mapping [(.string "a", .mapping [(.string "b", .string "b.x")]), (.string "a/b", .string "a.x")]

/-- The leaf that is there has the last names of those with its path. -/
theorem flatten_positions_last : ∃ node r tree, Node.parse sharedPath = .ok node ∧
    node.resolve 3 true = some r ∧ parse r = .ok tree ∧
    ∃ names, LeafAt r names (some (.path "a.x")) ∧ Text.join '/' names = "a/b" ∧
      ∀ names' x', LeafAt r names' x' → Text.join '/' names' = "a/b" → ¬names < names' := by
  refine ⟨_, _, _, rfl, rfl, rfl, ?_⟩
  exact ((flatten_positions (u := sharedPath) rfl rfl rfl).1 "a/b" (some (.path "a.x"))).mp rfl

/-- The value is left as it is and accepted, and the leaf beneath the group is lost. -/
theorem flatten_positions_lost :
    (∃ node, Node.parse sharedPath = .ok node ∧ node.resolve 3 true = some sharedPath) ∧
    LeafAt sharedPath ["a", "b"] (some (.path "b.x")) ∧
    LeafAt sharedPath ["a/b"] (some (.path "a.x")) ∧
    ∃ tree, parse sharedPath = .ok tree ∧
      Dict.get? (flatten tree) "a/b" = some (some (.path "a.x")) ∧
      ∀ path, Dict.get? (flatten tree) path ≠ some (some (.path "b.x")) := by
  refine ⟨⟨_, rfl, rfl⟩, ?_, ?_, _, rfl, rfl, fun path found => ?_⟩
  · exact .child rfl List.mem_cons_self rfl (.child rfl List.mem_cons_self rfl (.path "b.x"))
  · exact .child rfl (List.mem_cons_of_mem _ List.mem_cons_self) rfl (.path "a.x")
  · -- There is one entry.
    have mem : (path, some (.path "b.x")) ∈ [("a/b", some (Declaration.path "a.x"))] :=
      Dict.mem_of_get? found
    simp at mem

end ZoomConfig.InputTree
