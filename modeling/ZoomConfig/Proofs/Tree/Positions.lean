import ZoomConfig.Proofs.Tree.RoundTrip
/-!
The leaves of a tree in order.

Every leaf has a list of names that lead to it, and its path is these names with slashes between them
(`leavesUnder_eq`). In a tree with names in order the leaves follow each other by their names
(`Ordered.namedLeaves`). So if several leaves have one path, the flat form has the one with the last
names there (`get?_flatten_iff`).
-/
namespace ZoomConfig

variable {α : Type}

mutual

/-- The leaves of a node with the names that lead to them, from left to right. -/
def Tree.namedLeaves : Tree α → List (List String × α)
  | .leaf x => [([], x)]
  | .branch children => Forest.namedLeaves children

/-- The leaves of named nodes with the names that lead to them, from left to right. -/
def Forest.namedLeaves : List (String × Tree α) → List (List String × α)
  | [] => []
  | (name, node) :: rest =>
    node.namedLeaves.map (fun l => (name :: l.1, l.2)) ++ Forest.namedLeaves rest

end

namespace Text

variable {sep : Char}

theorem join_cons (a b : String) (rest : List String) :
    join sep ((a ++ String.singleton sep ++ b) :: rest) = join sep (a :: b :: rest) := by
  cases rest <;> simp [join, joinChars]

end Text

namespace Forest

variable {f : Forest α}

/-! ## Paths and names -/

theorem join_childPath (group : Option String) (name : String) (names : List String) :
    Text.join '/' (childPath group name :: names) =
      Text.join '/' (group.toList ++ name :: names) := by
  cases group with
  | none => rfl
  | some g => exact Text.join_cons g name names

mutual

theorem leavesOf_eq (path : String) : ∀ t : Tree α,
    leavesOf path t = t.namedLeaves.map fun l => (Text.join '/' (path :: l.1), l.2)
  | .leaf x => by simp [leavesOf, Tree.namedLeaves, Text.join_single]
  | .branch children => by
    rw [leavesOf, leavesUnder_eq (some path) children]
    rfl

/-- The path of a leaf is the names that lead to it, after those of the group. -/
theorem leavesUnder_eq (group : Option String) : ∀ f : List (String × Tree α),
    leavesUnder group f =
      (namedLeaves f).map fun l => (Text.join '/' (group.toList ++ l.1), l.2)
  | [] => rfl
  | (name, node) :: rest => by
    rw [leavesUnder, leavesOf_eq (childPath group name) node, leavesUnder_eq group rest,
      namedLeaves, List.map_append, List.map_map]
    simp only [join_childPath, Function.comp_def]

end

theorem mem_namedLeaves {names : List String} {x : α} :
    (names, x) ∈ namedLeaves f ↔
      ∃ e ∈ f, ∃ rest, names = e.1 :: rest ∧ (rest, x) ∈ e.2.namedLeaves := by
  induction f with
  | nil => simp [namedLeaves]
  | cons e others ih =>
    obtain ⟨name, node⟩ := e
    rw [namedLeaves, List.mem_append, ih]
    constructor
    · intro given
      rcases given with here | ⟨e, mem, found⟩
      · obtain ⟨l, mem, same⟩ := List.mem_map.mp here
        cases same
        exact ⟨(name, node), List.mem_cons_self, l.1, rfl, mem⟩
      · exact ⟨e, List.mem_cons_of_mem _ mem, found⟩
    · intro given
      obtain ⟨e, mem, rest, rfl, found⟩ := given
      rcases List.mem_cons.mp mem with rfl | mem
      · exact .inl (List.mem_map.mpr ⟨(rest, x), found, rfl⟩)
      · exact .inr ⟨e, mem, rest, rfl, found⟩

/-! ## Order -/

/-- Leaves follow each other by their names. -/
theorem Ordered.namedLeaves (h : Ordered f) :
    (Forest.namedLeaves f).Pairwise fun a b => a.1 < b.1 := by
  induction h with
  | @of f sorted groups ih =>
    have node : ∀ e ∈ f, e.2.namedLeaves.Pairwise fun a b => a.1 < b.1 := by
      intro e mem
      obtain ⟨name, t⟩ := e
      cases t with
      | leaf x => simp [Tree.namedLeaves]
      | branch children => exact ih name children mem
    clear ih groups
    induction f with
    | nil => exact .nil
    | cons e rest inner =>
      obtain ⟨name, t⟩ := e
      obtain ⟨before, sorted⟩ := List.pairwise_cons.mp sorted
      refine List.pairwise_append.mpr ⟨?_, ?_, ?_⟩
      · refine List.pairwise_map.mpr ((node _ List.mem_cons_self).imp fun lt => ?_)
        exact List.cons_lt_cons_iff.mpr (.inr ⟨rfl, lt⟩)
      · exact inner sorted fun e mem => node e (List.mem_cons_of_mem (name, t) mem)
      · intro a ha b hb
        obtain ⟨l, _, rfl⟩ := List.mem_map.mp ha
        obtain ⟨e, mem, names, same, _⟩ := mem_namedLeaves.mp hb
        rw [same]
        exact List.cons_lt_cons_iff.mpr (.inl (before e mem))

end Forest

/-- In a list in order a search from the end finds the last entry that is searched for. -/
theorem find?_reverse_iff {l : List (List String × α)} (pairs : l.Pairwise fun a b => a.1 < b.1)
    (q : List String × α → Bool) (a : List String × α) :
    l.reverse.find? q = some a ↔ a ∈ l ∧ q a = true ∧ ∀ b ∈ l, q b = true → ¬a.1 < b.1 := by
  have last : ∀ {a}, l.reverse.find? q = some a →
      a ∈ l ∧ q a = true ∧ ∀ b ∈ l, q b = true → ¬a.1 < b.1 := by
    intro a found
    obtain ⟨here, after, before, split, others⟩ := List.find?_eq_some_iff_append.mp found
    have whole : l = before.reverse ++ a :: after.reverse := by
      rw [← List.reverse_reverse l, split]
      simp
    refine ⟨by simp [whole], here, fun b mem hb => ?_⟩
    rw [whole] at mem pairs
    rcases List.mem_append.mp mem with mem | mem
    · exact List.lt_asymm ((List.pairwise_append.mp pairs).2.2 b mem a List.mem_cons_self)
    · rcases List.mem_cons.mp mem with rfl | mem
      · exact List.lt_irrefl _
      · have := others b (List.mem_reverse.mp mem)
        simp [hb] at this
  refine ⟨last, fun given => ?_⟩
  obtain ⟨mem, here, latest⟩ := given
  obtain ⟨b, found⟩ := Option.isSome_iff_exists.mp
    (List.find?_isSome.mpr ⟨a, List.mem_reverse.mpr mem, here⟩)
  obtain ⟨mem', here', latest'⟩ := last found
  rw [found]
  -- Two entries are the same or in order.
  have apart : l.Pairwise fun x y => x = y ∨ x.1 < y.1 ∨ y.1 < x.1 :=
    pairs.imp fun lt => .inr (.inl lt)
  have flipped := apart.imp fun h => h.imp Eq.symm Or.symm
  rcases apart.forall_of_forall_of_flip (fun x _ => .inl rfl) flipped mem mem' with rfl | lt | lt
  · rfl
  · exact absurd lt (latest b mem' here')
  · exact absurd lt (latest' a mem here)

namespace Forest

variable {f : Forest α}

/-- Of the leaves with one path, the flat form has the one with the last names. -/
theorem get?_flatten_iff (ordered : Ordered f) (path : String) (x : α) :
    Dict.get? (flatten f) path = some x ↔ ∃ names, (names, x) ∈ namedLeaves f ∧
      Text.join '/' names = path ∧
      ∀ l ∈ namedLeaves f, Text.join '/' l.1 = path → ¬names < l.1 := by
  rw [flatten, Dict.get?_ofList, leavesUnder_eq, ← List.map_reverse, List.find?_map,
    Option.map_map, Option.map_eq_some_iff]
  simp only [find?_reverse_iff ordered.namedLeaves]
  constructor
  · intro given
    obtain ⟨⟨names, y⟩, ⟨mem, here, latest⟩, rfl⟩ := given
    exact ⟨names, mem, by simpa using here, by simpa using latest⟩
  · intro given
    obtain ⟨names, mem, here, latest⟩ := given
    exact ⟨(names, x), ⟨mem, by simpa using here, by simpa using latest⟩, rfl⟩

end Forest

end ZoomConfig
