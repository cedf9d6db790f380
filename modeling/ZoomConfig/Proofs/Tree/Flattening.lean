import ZoomConfig.Proofs.Dict
import ZoomConfig.Proofs.Tree.Building
/-!
The leaves of a tree by their paths.

Where no name holds a slash and no name stands twice in a group, the path of a leaf tells the names
that lead to it. The flat form then holds exactly the leaves of the tree, each at its own path
(`get?_flatten`), and no path goes on after another one (`flatten_apart`).
-/
namespace ZoomConfig

variable {α : Type}

/-! ## Nodes by the names that lead to them -/

/-- The node at the end of names, seen from a node. -/
def Tree.at? : Tree α → List String → Option (Tree α)
  | t, [] => some t
  | .leaf _, _ :: _ => none
  | .branch children, name :: rest => Forest.getSegments? children (name :: rest)

mutual

/-- No name beneath a node holds a slash, and none stands twice in a group. -/
def Tree.Clean : Tree α → Prop
  | .leaf _ => True
  | .branch children => Forest.Clean children

/-- No name holds a slash, and none stands twice in a group. -/
def Forest.Clean : List (String × Tree α) → Prop
  | [] => True
  | (name, node) :: rest =>
    '/' ∉ name.toList ∧ name ∉ Dict.keys rest ∧ Tree.Clean node ∧ Forest.Clean rest

end

mutual

/-- No name beneath a node holds a slash. -/
def Tree.SlashFree : Tree α → Prop
  | .leaf _ => True
  | .branch children => Forest.SlashFree children

/-- No name holds a slash. -/
def Forest.SlashFree : List (String × Tree α) → Prop
  | [] => True
  | (name, node) :: rest => '/' ∉ name.toList ∧ Tree.SlashFree node ∧ Forest.SlashFree rest

end

namespace Forest

theorem SlashFree.of_mem : ∀ {f : Forest α}, SlashFree f → ∀ e ∈ f,
    '/' ∉ e.1.toList ∧ Tree.SlashFree e.2
  | [], _, _, mem => by simp at mem
  | (name, node) :: rest, ⟨free, here, others⟩, e, mem => by
    rcases List.mem_cons.mp mem with rfl | mem
    · exact ⟨free, here⟩
    · exact others.of_mem e mem

theorem slashFree_of : ∀ {f : Forest α}, (∀ e ∈ f, '/' ∉ e.1.toList ∧ e.2.SlashFree) → SlashFree f
  | [], _ => trivial
  | e :: rest, each => by
    obtain ⟨name, node⟩ := each e List.mem_cons_self
    exact ⟨name, node, slashFree_of fun x mem => each x (List.mem_cons_of_mem e mem)⟩

theorem getSegments?_cons (f : Forest α) (name : String) (rest : List String) :
    getSegments? f (name :: rest) = (Dict.get? f name).bind (Tree.at? · rest) := by
  cases rest with
  | nil => cases h : Dict.get? f name <;> simp [getSegments?, Tree.at?, h]
  | cons a rest =>
    simp only [getSegments?]
    cases Dict.get? f name with
    | none => rfl
    | some node => cases node <;> rfl

theorem getSegments?_append {f : Forest α} {names more : List String} (h : names ≠ []) :
    getSegments? f (names ++ more) = (getSegments? f names).bind (Tree.at? · more) := by
  induction names generalizing f with
  | nil => exact absurd rfl h
  | cons name rest ih =>
    rw [List.cons_append, getSegments?_cons, getSegments?_cons]
    cases Dict.get? f name with
    | none => rfl
    | some node =>
      cases rest with
      | nil => rfl
      | cons a rest =>
        cases node with
        | leaf x => rfl
        | branch children => exact ih (List.cons_ne_nil a rest)

theorem Clean.of_mem : ∀ {f : Forest α}, Clean f → ∀ e ∈ f, '/' ∉ e.1.toList ∧ Tree.Clean e.2
  | [], _, _, mem => by simp at mem
  | (name, node) :: rest, ⟨free, _, here, others⟩, e, mem => by
    rcases List.mem_cons.mp mem with rfl | mem
    · exact ⟨free, here⟩
    · exact others.of_mem e mem

theorem clean_of : ∀ {f : Forest α}, (∀ e ∈ f, '/' ∉ e.1.toList ∧ Tree.Clean e.2) →
    (Dict.keys f).Nodup → Clean f
  | [], _, _ => trivial
  | (name, node) :: rest, each, distinct => by
    obtain ⟨other, distinct⟩ := List.nodup_cons.mp distinct
    obtain ⟨free, clean⟩ := each (name, node) List.mem_cons_self
    exact ⟨free, other, clean,
      clean_of (fun e he => each e (List.mem_cons_of_mem _ he)) distinct⟩

/-! ## Leaves with their paths -/

/-- The names that lead to a group. -/
def groupSegments : Option String → List String
  | none => []
  | some group => segments group

theorem segments_childPath {name : String} (free : '/' ∉ name.toList) (group : Option String) :
    segments (childPath group name) = groupSegments group ++ [name] := by
  cases group with
  | none => exact segments_of_free free
  | some g => rw [childPath, segments_append, segments_of_free free]; rfl

mutual

/-- The leaves of a node have the paths that go on after its own with the names to them. -/
theorem mem_leavesOf : ∀ {t : Tree α}, t.Clean → ∀ (path p : String) (v : α),
    (p, v) ∈ leavesOf path t ↔
      ∃ names, segments p = segments path ++ names ∧ t.at? names = some (.leaf v)
  | .leaf x, _, path, p, v => by
    simp only [leavesOf, List.mem_singleton, Prod.mk.injEq]
    constructor
    · intro given
      obtain ⟨rfl, rfl⟩ := given
      exact ⟨[], by simp, rfl⟩
    · intro given
      obtain ⟨names, same, found⟩ := given
      cases names with
      | nil =>
        simp only [Tree.at?, Option.some.injEq, Tree.leaf.injEq] at found
        exact ⟨segments_injective (by simpa using same), found.symm⟩
      | cons _ _ => simp [Tree.at?] at found
  | .branch children, clean, path, p, v => by
    rw [leavesOf, mem_leavesUnder clean (some path) p v]
    constructor
    · intro given
      obtain ⟨name, rest, same, found⟩ := given
      exact ⟨name :: rest, same, found⟩
    · intro given
      obtain ⟨names, same, found⟩ := given
      cases names with
      | nil => simp [Tree.at?] at found
      | cons name rest => exact ⟨name, rest, same, found⟩

theorem mem_leavesUnder : ∀ {children : List (String × Tree α)}, Clean children →
    ∀ (group : Option String) (p : String) (v : α),
    (p, v) ∈ leavesUnder group children ↔
      ∃ name rest, segments p = groupSegments group ++ name :: rest ∧
        getSegments? children (name :: rest) = some (.leaf v)
  | [], _, group, p, v => by simp [leavesUnder, getSegments?_cons, Dict.get?]
  | (name, node) :: others, ⟨free, alone, cleanNode, cleanOthers⟩, group, p, v => by
    have absent : Dict.get? others name = none := by
      simpa using mt (Dict.isSome_get?_iff others name).mp alone
    rw [leavesUnder, List.mem_append, mem_leavesOf cleanNode, segments_childPath free,
      mem_leavesUnder cleanOthers group p v]
    simp only [getSegments?_cons, Dict.get?, List.append_assoc, List.singleton_append]
    constructor
    · intro given
      rcases given with ⟨names, same, found⟩ | ⟨n, rest, same, found⟩
      · exact ⟨name, names, same, by simpa using found⟩
      · have other : name ≠ n := by
          intro eq
          subst eq
          simp [absent] at found
        exact ⟨n, rest, same, by simpa [other] using found⟩
    · intro given
      obtain ⟨n, rest, same, found⟩ := given
      by_cases here : name = n
      · subst here
        exact .inl ⟨rest, same, by simpa using found⟩
      · exact .inr ⟨n, rest, same, by simpa [here] using found⟩

end

/-! ## The flat form -/

variable {f : Forest α}

/-- The flat form of a clean tree has a value at a path exactly if there is a leaf with it. -/
theorem get?_flatten (clean : Clean f) (p : String) (v : α) :
    Dict.get? (flatten f) p = some v ↔ getSegments? f (segments p) = some (.leaf v) := by
  have mem : ∀ v, (p, v) ∈ leavesUnder none f ↔ getSegments? f (segments p) = some (.leaf v) := by
    intro v
    rw [mem_leavesUnder clean]
    constructor
    · intro given
      obtain ⟨name, rest, same, found⟩ := given
      rw [groupSegments, List.nil_append] at same
      rwa [same]
    · intro found
      obtain ⟨name, rest, same⟩ := List.exists_cons_of_ne_nil (segments_ne_nil p)
      exact ⟨name, rest, same, by rwa [← same]⟩
  have single : ∀ v v', (p, v) ∈ leavesUnder none f → (p, v') ∈ leavesUnder none f → v = v' := by
    intro v v' h h'
    have := ((mem v).mp h).symm.trans ((mem v').mp h')
    simpa using this
  rw [flatten, Dict.get?_ofList_iff single, mem]

theorem getSegments?_leaf {names more : List String} {v : α} (h : names ≠ [])
    (leaf : getSegments? f names = some (.leaf v)) (longer : more ≠ []) :
    getSegments? f (names ++ more) = none := by
  obtain ⟨a, more, rfl⟩ := List.exists_cons_of_ne_nil longer
  rw [getSegments?_append h, leaf]
  rfl

/-- No path of a clean tree goes on after another one. -/
theorem flatten_apart (clean : Clean f) {p q : String} {v v' : α}
    (hp : Dict.get? (flatten f) p = some v) (hq : Dict.get? (flatten f) q = some v') :
    ¬Below p q := by
  intro given
  obtain ⟨rest, rfl⟩ := given
  rw [get?_flatten clean] at hp hq
  rw [segments_append, getSegments?_leaf (segments_ne_nil p) hp (segments_ne_nil rest)] at hq
  cases hq

/-! ## Paths in order -/

theorem not_below_self (p : String) : ¬Below p p := fun h => ((below_iff p p).mp h).2 rfl

theorem no_clash_iff {d : Dict String α} (sorted : Dict.Sorted d) :
    (d.Pairwise fun a b => ¬Clash a.1 b.1) ↔
      ∀ p ∈ Dict.keys d, ∀ q ∈ Dict.keys d, ¬Below p q := by
  constructor
  · intro pairs p hp q hq
    have apart : (Dict.keys d).Pairwise fun p q => ¬Below p q ∧ ¬Below q p := by
      refine List.pairwise_map.mpr (pairs.imp ?_)
      intro a b no
      exact ⟨fun h => no (.inr (.inl h)), fun h => no (.inr (.inr h))⟩
    exact (apart.forall_of_forall_of_flip (fun p _ => ⟨not_below_self p, not_below_self p⟩)
      (apart.imp And.symm) hp hq).1
  · intro apart
    refine sorted.imp_of_mem ?_
    intro a b ha hb lt given
    rcases given with same | below | below
    · rw [same] at lt
      exact KeyOrder.irrefl _ lt
    · exact apart a.1 (List.mem_map_of_mem ha) b.1 (List.mem_map_of_mem hb) below
    · exact apart b.1 (List.mem_map_of_mem hb) a.1 (List.mem_map_of_mem ha) below

end Forest

end ZoomConfig
