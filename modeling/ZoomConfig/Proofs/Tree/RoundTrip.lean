import Mathlib.Data.List.Nodup
import ZoomConfig.Proofs.Outcome
import ZoomConfig.Proofs.Tree.Flattening
/-!
Trees that their flat form gives back.

A tree with clean names and without empty groups holds the leaves of its flat form (`holds_flatten`),
and no other tree with names in order holds the same leaves (`Holds.unique`). What is built from paths
is such a tree (`unflatten_neat`). So a neat tree is built from its leaves again, in whatever order
they come (`unflatten_of_perm`), and what was built has exactly the given leaves
(`perm_of_unflatten`). Replacing all leaves goes along with building (`unflatten_map`).
-/
namespace ZoomConfig

variable {α β : Type}

namespace Forest

/-- The names of every group ascend. -/
inductive Ordered : Forest α → Prop where
  | of {f : Forest α} (sorted : Dict.Sorted f)
    (groups : ∀ name children, (name, .branch children) ∈ f → Ordered children) : Ordered f

/-- Every group beneath has a child. -/
inductive Full : Forest α → Prop where
  | of {f : Forest α} (some : ∀ name children, (name, .branch children) ∈ f → children ≠ [])
    (groups : ∀ name children, (name, .branch children) ∈ f → Full children) : Full f

variable {f g : Forest α} {entries : List (String × α)}

theorem Ordered.sorted : Ordered f → Dict.Sorted f
  | .of sorted _ => sorted

theorem Ordered.clean (h : Ordered f) (free : SlashFree f) : Clean f := by
  induction h with
  | @of f sorted _ ih =>
    refine clean_of (fun e mem => ?_) sorted.nodup
    obtain ⟨name, node⟩ := e
    obtain ⟨here, below⟩ := free.of_mem _ mem
    refine ⟨here, ?_⟩
    cases node with
    | leaf x => trivial
    | branch children => exact ih name children mem below

theorem Ordered.group : Ordered f → ∀ {name : String} {children : Forest α},
    (name, .branch children) ∈ f → Ordered children
  | .of _ groups, _, _, mem => groups _ _ mem

/-! ## Nodes and leaves -/

theorem nodeAt_eq_leaf {q : List String} {x : α} :
    nodeAt f q = some (some x) ↔ getSegments? f q = some (.leaf x) := by
  rw [nodeAt]
  cases getSegments? f q with
  | none => simp
  | some t => cases t <;> simp [Tree.asLeaf?]

theorem nodeAt_eq_group {q : List String} :
    nodeAt f q = some none ↔ ∃ children, getSegments? f q = some (.branch children) := by
  rw [nodeAt]
  cases getSegments? f q with
  | none => simp
  | some t => cases t <;> simp [Tree.asLeaf?]

theorem ne_nil_of_getSegments? {q : List String} {t : Tree α} (found : getSegments? f q = some t) :
    q ≠ [] := by
  intro none
  rw [none] at found
  cases found

theorem free_of_getSegments? (clean : Clean f) {q : List String} {t : Tree α}
    (found : getSegments? f q = some t) : ∀ name ∈ q, '/' ∉ name.toList := by
  induction q generalizing f with
  | nil => simp
  | cons name rest ih =>
    rw [getSegments?_cons] at found
    obtain ⟨node, here, found⟩ := Option.bind_eq_some_iff.mp found
    obtain ⟨free, below⟩ := clean.of_mem (name, node) (Dict.mem_of_get? here)
    intro n mem
    rcases List.mem_cons.mp mem with rfl | mem
    · exact free
    · cases node with
      | leaf x => cases rest <;> simp [Tree.at?] at found mem
      | branch children =>
        cases rest with
        | nil => simp at mem
        | cons a rest => exact ih below found n mem

/-- A group without empty groups in it leads to a leaf. -/
theorem Full.leaf_below (h : Full f) (some : f ≠ []) :
    ∃ q x, getSegments? f q = .some (.leaf x) := by
  induction h with
  | @of f nonempty _ ih =>
    obtain ⟨⟨name, node⟩, rest, rfl⟩ := List.exists_cons_of_ne_nil some
    have here : Dict.get? ((name, node) :: rest) name = .some node := if_pos rfl
    cases node with
    | leaf x => exact ⟨[name], x, here⟩
    | branch children =>
      obtain ⟨q, x, found⟩ := ih name children List.mem_cons_self
        (nonempty name children List.mem_cons_self)
      obtain ⟨a, q, rfl⟩ := List.exists_cons_of_ne_nil (ne_nil_of_getSegments? found)
      exact ⟨name :: a :: q, x, by rw [getSegments?_cons, here]; exact found⟩

theorem Full.group_at (h : Full f) {q : List String} {children : Forest α}
    (found : getSegments? f q = some (.branch children)) : children ≠ [] ∧ Full children := by
  induction h generalizing q with
  | @of f nonempty groups ih =>
    cases q with
    | nil => cases found
    | cons name rest =>
      rw [getSegments?_cons] at found
      obtain ⟨node, here, found⟩ := Option.bind_eq_some_iff.mp found
      have mem := Dict.mem_of_get? here
      cases node with
      | leaf x => cases rest <;> cases found
      | branch inner =>
        cases rest with
        | nil =>
          cases found
          exact ⟨nonempty name children mem, groups name children mem⟩
        | cons a rest => exact ih name inner mem found

/-- A clean tree without empty groups holds the leaves of its flat form. -/
theorem holds_flatten (clean : Clean f) (full : Full f) : Holds f (flatten f) := by
  have entry : ∀ {q x}, getSegments? f q = some (.leaf x) →
      ∃ p, (p, x) ∈ flatten f ∧ segments p = q := by
    intro q x found
    have names : segments (Text.join '/' q) = q :=
      segments_join (ne_nil_of_getSegments? found) (free_of_getSegments? clean found)
    exact ⟨_, Dict.mem_of_get? ((get?_flatten clean _ x).mpr (by rw [names, found])), names⟩
  have leaf : ∀ e ∈ flatten f, getSegments? f (segments e.1) = some (.leaf e.2) := fun e mem =>
    (get?_flatten clean e.1 e.2).mp (Dict.get?_of_mem (Dict.sorted_ofList _).nodup mem)
  constructor
  · intro q x
    rw [nodeAt_eq_leaf]
    constructor
    · intro found
      obtain ⟨p, mem, names⟩ := entry found
      exact ⟨(p, x), mem, names, rfl⟩
    · intro given
      obtain ⟨e, mem, rfl, rfl⟩ := given
      exact leaf e mem
  · intro q
    rw [nodeAt_eq_group]
    constructor
    · intro given
      obtain ⟨children, found⟩ := given
      have some : q ≠ [] := ne_nil_of_getSegments? found
      obtain ⟨nonempty, inner⟩ := full.group_at found
      obtain ⟨more, x, below⟩ := inner.leaf_below nonempty
      have longer : more ≠ [] := ne_nil_of_getSegments? below
      obtain ⟨p, mem, names⟩ := entry (q := q ++ more) (x := x) (by
        obtain ⟨a, more, rfl⟩ := List.exists_cons_of_ne_nil longer
        rw [getSegments?_append some, found]
        exact below)
      exact ⟨some, (p, x), mem, ⟨more, names.symm⟩, by simp [names, longer]⟩
    · intro given
      obtain ⟨some, e, mem, ⟨more, names⟩, ne⟩ := given
      have found := leaf e mem
      rw [← names, getSegments?_append some] at found
      obtain ⟨t, here, found⟩ := Option.bind_eq_some_iff.mp found
      cases t with
      | branch children => exact ⟨children, here⟩
      | leaf x =>
        cases more with
        | nil => exact absurd (by simpa using names) ne
        | cons _ _ => cases found

/-! ## One tree for given leaves -/

theorem Holds.nodeAt_eq (hf : Holds f entries) (hg : Holds g entries) (q : List String) :
    nodeAt f q = nodeAt g q := by
  refine Option.ext fun node => ?_
  cases node with
  | none => exact (hf.group q).trans (hg.group q).symm
  | some x => exact (hf.leaf q x).trans (hg.leaf q x).symm

/-- Trees with names in order that have the same at all names are equal. -/
theorem Ordered.eq_of_nodeAt (hf : Ordered f) (hg : Ordered g)
    (same : ∀ q, nodeAt f q = nodeAt g q) : f = g := by
  induction hf generalizing g with
  | @of f sorted _ ih =>
    refine Dict.sorted_ext sorted hg.sorted fun name => ?_
    have here := same [name]
    rw [nodeAt_single, nodeAt_single] at here
    match inF : Dict.get? f name, inG : Dict.get? g name with
    | none, none => rfl
    | some (.leaf x), some (.leaf y) =>
      rw [inF, inG] at here
      cases here
      rfl
    | some (.branch c), some (.branch d) =>
      have below : ∀ q, nodeAt c q = nodeAt d q := by
        intro q
        cases q with
        | nil => rfl
        | cons n rest =>
          have := same (name :: n :: rest)
          rwa [nodeAt_cons _ _ (List.cons_ne_nil n rest), nodeAt_cons _ _ (List.cons_ne_nil n rest),
            inF, inG] at this
      rw [ih name c (Dict.mem_of_get? inF) (hg.group (Dict.mem_of_get? inG)) below]
    | none, some _ | some _, none | some (.leaf _), some (.branch _)
    | some (.branch _), some (.leaf _) => simp [inF, inG, Tree.asLeaf?] at here

/-- There is one tree with names in order that holds given leaves. -/
theorem Holds.unique (hf : Holds f entries) (hg : Holds g entries) (orderedF : Ordered f)
    (orderedG : Ordered g) : f = g :=
  orderedF.eq_of_nodeAt orderedG (hf.nodeAt_eq hg)

/-! ## Neat trees -/

/-- A tree that its flat form gives back. -/
structure Neat (f : Forest α) : Prop where
  ordered : Ordered f
  free : SlashFree f
  full : Full f

theorem Neat.clean (h : Neat f) : Clean f := h.ordered.clean h.free

theorem neat_of (sorted : Dict.Sorted f) (free : ∀ e ∈ f, '/' ∉ e.1.toList)
    (groups : ∀ name children, (name, .branch children) ∈ f → children ≠ [] ∧ Neat children) :
    Neat f where
  ordered := .of sorted fun name children mem => (groups name children mem).2.ordered
  free := slashFree_of fun e mem => by
    obtain ⟨name, node⟩ := e
    refine ⟨free _ mem, ?_⟩
    cases node with
    | leaf x => trivial
    | branch children => exact (groups name children mem).2.free
  full := .of (fun name children mem => (groups name children mem).1)
    fun name children mem => (groups name children mem).2.full

theorem neat_nil : Neat ([] : Forest α) :=
  neat_of Dict.sorted_nil (by simp) fun _ _ mem => by cases mem

theorem Neat.group (h : Neat f) {name : String} {children : Forest α}
    (mem : (name, .branch children) ∈ f) : children ≠ [] ∧ Neat children := by
  obtain ⟨⟨_, ordered⟩, free, some, full⟩ := h
  exact ⟨some _ _ mem, ordered _ _ mem, (free.of_mem _ mem).2, full _ _ mem⟩

theorem Neat.insert (h : Neat f) {name : String} (free : '/' ∉ name.toList) {t : Tree α}
    (new : ∀ children, t = .branch children → children ≠ [] ∧ Neat children) :
    Neat (Dict.insert f name t) := by
  refine neat_of (Dict.sorted_insert h.ordered.sorted name t) ?_ ?_
  · intro e mem
    rcases Dict.mem_insert mem with rfl | mem
    · exact free
    · exact (h.free.of_mem e mem).1
  · intro n children mem
    rcases Dict.mem_insert mem with here | mem
    · exact new children (Prod.mk.inj here).2.symm
    · exact h.group mem

theorem insertSegments_ne_nil {path : String} {value : α} {names : List String} (some : names ≠ [])
    (built : insertSegments path value names f = .ok g) : g ≠ [] := by
  intro none
  have here := nodeAt_insertSegments some built names
  rw [none, nodeAt_empty, if_pos rfl] at here
  cases here

theorem insertSegments_neat {path : String} {value : α} : ∀ {names : List String}
    {f g : Forest α}, (∀ name ∈ names, '/' ∉ name.toList) → Neat f →
    insertSegments path value names f = .ok g → Neat g
  | [], _, _, _, h, built => by
    cases built
    exact h
  | [name], f, _, free, h, built => by
    unfold insertSegments at built
    split at built
    · cases built
    · cases built
    · cases built
      exact h.insert (free name List.mem_cons_self) fun _ leaf => (nomatch leaf)
  | name :: a :: rest, f, g, free, h, built => by
    obtain ⟨here, below⟩ := List.forall_mem_cons.mp free
    have grown : ∀ {before after : Forest α}, Neat before →
        insertSegments path value (a :: rest) before = .ok after →
        Neat (Dict.insert f name (.branch after)) := fun neat inner =>
      h.insert here fun _ same => Tree.branch.inj same ▸
        ⟨insertSegments_ne_nil (List.cons_ne_nil a rest) inner, insertSegments_neat below neat inner⟩
    unfold insertSegments at built
    split at built
    · cases built
    · next children inside =>
      obtain ⟨after, inner, rfl⟩ := Outcome.map_eq_ok.mp built
      exact grown (h.group (Dict.mem_of_get? inside)).2 inner
    · obtain ⟨after, inner, rfl⟩ := Outcome.map_eq_ok.mp built
      exact grown neat_nil inner

/-- What is built from paths is neat. -/
theorem unflatten_neat (built : unflatten entries = .ok f) : Neat f := by
  suffices grow : ∀ {entries : List (String × α)} {f g : Forest α}, Neat f →
      entries.foldlM (fun f e => insertPath f e.1 e.2) f = .ok g → Neat g from
    grow neat_nil built
  intro entries
  induction entries with
  | nil =>
    intro f g h built
    cases built
    exact h
  | cons e rest ih =>
    intro f g h built
    rw [List.foldlM_cons] at built
    obtain ⟨next, step, built⟩ := Outcome.bind_eq_ok.mp built
    exact ih (insertSegments_neat (fun _ => segments_free) h step) built

/-! ## Building from the flat form -/

theorem clash_comm {p q : String} : Clash p q ↔ Clash q p := by
  rw [Clash, Clash, eq_comm, or_comm (a := Below p q)]

theorem Holds.mem_iff (h : Holds f entries) (p : String) (x : α) :
    (p, x) ∈ entries ↔ nodeAt f (segments p) = some (some x) := by
  rw [h.leaf]
  constructor
  · exact fun mem => ⟨(p, x), mem, rfl, rfl⟩
  · intro given
    obtain ⟨⟨p', x'⟩, mem, names, rfl⟩ := given
    rwa [← segments_injective names]

theorem Holds.perm {others : List (String × α)} (h : Holds f entries) (perm : entries.Perm others) :
    Holds f others :=
  ⟨fun q x => by simpa only [perm.mem_iff] using h.leaf q x,
    fun q => by simpa only [perm.mem_iff] using h.group q⟩

/-- A neat tree is built from the leaves of its flat form, in whatever order they come. -/
theorem unflatten_of_perm (neat : Neat f) (perm : entries.Perm (flatten f)) :
    unflatten entries = .ok f := by
  have apart : (flatten f).Pairwise fun a b => ¬Clash a.1 b.1 := by
    refine (no_clash_iff (Dict.sorted_ofList _)).mpr fun p hp q hq => ?_
    obtain ⟨x, hx⟩ := Option.isSome_iff_exists.mp ((Dict.isSome_get?_iff _ p).mpr hp)
    obtain ⟨y, hy⟩ := Option.isSome_iff_exists.mp ((Dict.isSome_get?_iff _ q).mpr hq)
    exact flatten_apart neat.clean hx hy
  have others : entries.Pairwise fun a b => ¬Clash a.1 b.1 :=
    (perm.pairwise_iff fun no => mt clash_comm.mp no).mpr apart
  obtain ⟨g, built⟩ := (unflatten_ok_iff entries).mpr others
  have holds : Holds f entries := (holds_flatten neat.clean neat.full).perm perm.symm
  rw [built, (unflatten_ok built).1.unique holds (unflatten_neat built).ordered neat.ordered]

/-- What was built holds the given leaves, each once. -/
theorem perm_of_unflatten (built : unflatten entries = .ok f) : (flatten f).Perm entries := by
  obtain ⟨holds, apart⟩ := unflatten_ok built
  have neat := unflatten_neat built
  have distinct : entries.Nodup := apart.imp fun no same => no (.inl (congrArg Prod.fst same))
  have distinct' : (flatten f).Nodup :=
    List.Nodup.of_map Prod.fst (Dict.sorted_ofList _).nodup
  refine (List.perm_ext_iff_of_nodup distinct' distinct).mpr fun e => ?_
  obtain ⟨p, x⟩ := e
  rw [holds.mem_iff, (holds_flatten neat.clean neat.full).mem_iff]

end Forest

/-! ## Other leaves -/

mutual

/-- The same tree with other leaves. -/
def Tree.mapLeaves (h : α → β) : Tree α → Tree β
  | .leaf x => .leaf (h x)
  | .branch children => .branch (Forest.mapLeaves h children)

/-- The same trees with other leaves. -/
def Forest.mapLeaves (h : α → β) : List (String × Tree α) → List (String × Tree β)
  | [] => []
  | (name, node) :: rest => (name, node.mapLeaves h) :: Forest.mapLeaves h rest

end

namespace Forest

variable (h : α → β)

theorem mapLeaves_eq_map (f : Forest α) :
    mapLeaves h f = f.map fun e => (e.1, e.2.mapLeaves h) := by
  induction f with
  | nil => rfl
  | cons e rest ih =>
    obtain ⟨name, node⟩ := e
    rw [mapLeaves, ih]
    rfl

theorem get?_mapLeaves (f : Forest α) (name : String) :
    Dict.get? (mapLeaves h f) name = (Dict.get? f name).map (Tree.mapLeaves h) := by
  rw [mapLeaves_eq_map]
  exact Dict.get?_map (fun _ t => Tree.mapLeaves h t) f name

theorem insert_mapLeaves (f : Forest α) (name : String) (t : Tree α) :
    Dict.insert (mapLeaves h f) name (t.mapLeaves h) = mapLeaves h (Dict.insert f name t) := by
  rw [mapLeaves_eq_map, mapLeaves_eq_map]
  exact Dict.insert_map (Tree.mapLeaves h) f name t

theorem insertSegments_mapLeaves (path : String) (value : α) : ∀ (names : List String)
    (f : Forest α), insertSegments path (h value) names (mapLeaves h f) =
      (insertSegments path value names f).map (mapLeaves h)
  | [], _ => rfl
  | [name], f => by
    simp only [insertSegments, get?_mapLeaves]
    cases Dict.get? f name with
    | none => exact congrArg Except.ok (insert_mapLeaves h f name (.leaf value))
    | some node => cases node <;> rfl
  | name :: a :: rest, f => by
    have inner : ∀ before : Forest α,
        ((insertSegments path (h value) (a :: rest) (mapLeaves h before)).map fun c =>
            Dict.insert (mapLeaves h f) name (.branch c)) =
          ((insertSegments path value (a :: rest) before).map fun c =>
            Dict.insert f name (.branch c)).map (mapLeaves h) := by
      intro before
      rw [insertSegments_mapLeaves path value (a :: rest) before]
      cases insertSegments path value (a :: rest) before with
      | error e => rfl
      | ok c => exact congrArg Except.ok (insert_mapLeaves h f name (.branch c))
    simp only [insertSegments, get?_mapLeaves]
    cases Dict.get? f name with
    | none => exact inner []
    | some node =>
      cases node with
      | leaf x => rfl
      | branch children => exact inner children

/-- Building a tree of other leaves gives the tree with the other leaves. -/
theorem unflatten_map (entries : List (String × α)) :
    unflatten (entries.map fun e => (e.1, h e.2)) = (unflatten entries).map (mapLeaves h) := by
  suffices grow : ∀ (entries : List (String × α)) (f : Forest α),
      (entries.map fun e => (e.1, h e.2)).foldlM (fun f e => insertPath f e.1 e.2) (mapLeaves h f) =
        (entries.foldlM (fun f e => insertPath f e.1 e.2) f).map (mapLeaves h) from
    grow entries []
  intro entries
  induction entries with
  | nil => exact fun f => rfl
  | cons e rest ih =>
    intro f
    have step : insertPath (mapLeaves h f) e.1 (h e.2) =
        (insertPath f e.1 e.2).map (mapLeaves h) :=
      insertSegments_mapLeaves h e.1 e.2 (segments e.1) f
    rw [List.map_cons, List.foldlM_cons, List.foldlM_cons, step]
    cases insertPath f e.1 e.2 with
    | error err => rfl
    | ok next => exact ih next

end Forest

end ZoomConfig
