import ZoomConfig.Proofs.Outcome
import ZoomConfig.Proofs.Tree.Segments
/-!
Building a tree from paths.

`nodeAt` tells what stands at a list of names: a leaf with its value, a group, or nothing. Adding a
leaf puts it at its names, makes groups of the names that lead to it and leaves all else as it was
(`nodeAt_insertSegments`); it is refused only if a leaf or a group is in the way
(`insertSegments_error`). From this one step, `unflatten` builds a tree exactly if no two of the
paths are equal and none goes on after another with a slash (`unflatten_ok_iff`); the tree then holds
the given leaves and no other (`Holds`), and otherwise the error names the first path that clashes
with one before it (`unflatten_error`).
-/
namespace ZoomConfig.Forest

variable {α : Type}

/-! ## What stands at a list of names -/

/-- The value of a leaf, `some none` for a group, `none` where there is nothing. -/
def nodeAt (f : Forest α) (names : List String) : Option (Option α) :=
  (getSegments? f names).map Tree.asLeaf?

theorem nodeAt_nil (f : Forest α) : nodeAt f [] = none := rfl

theorem nodeAt_single (f : Forest α) (name : String) :
    nodeAt f [name] = (Dict.get? f name).map Tree.asLeaf? := rfl

theorem nodeAt_cons (f : Forest α) (name : String) {rest : List String} (h : rest ≠ []) :
    nodeAt f (name :: rest) =
      match Dict.get? f name with
      | some (.branch children) => nodeAt children rest
      | _ => none := by
  obtain ⟨a, rest, rfl⟩ := List.exists_cons_of_ne_nil h
  simp only [nodeAt, getSegments?]
  cases Dict.get? f name with
  | none => rfl
  | some node => cases node <;> rfl

theorem nodeAt_empty (names : List String) : nodeAt ([] : Forest α) names = none := by
  match names with
  | [] => rfl
  | [_] => rfl
  | _ :: _ :: _ => rfl

/-! ## Adding one leaf -/

/-- What adding beneath a name does: the group at the name takes the leaf. The group may be new, but
no leaf stands there. -/
theorem insertSegments_group {path name a : String} {value : α} {rest : List String}
    {f g : Forest α} (built : insertSegments path value (name :: a :: rest) f = .ok g) :
    ∃ before after, insertSegments path value (a :: rest) before = .ok after ∧
      g = Dict.insert f name (.branch after) ∧ (∀ x, nodeAt f [name] ≠ some (some x)) ∧
      ∀ r, r ≠ [] → nodeAt f (name :: r) = nodeAt before r := by
  unfold insertSegments at built
  cases here : Dict.get? f name with
  | none =>
    simp only [here] at built
    cases inner : insertSegments path value (a :: rest) [] with
    | error e => simp [inner, Except.map] at built
    | ok after =>
      simp only [inner, Except.map, Except.ok.injEq] at built
      refine ⟨[], after, inner, built.symm, by simp [nodeAt_single, here], ?_⟩
      intro r hr
      rw [nodeAt_cons _ _ hr, here, nodeAt_empty]
  | some node =>
    cases node with
    | leaf x => simp [here] at built
    | branch children =>
      simp only [here] at built
      cases inner : insertSegments path value (a :: rest) children with
      | error e => simp [inner, Except.map] at built
      | ok after =>
        simp only [inner, Except.map, Except.ok.injEq] at built
        refine ⟨children, after, inner, built.symm, by simp [nodeAt_single, here, Tree.asLeaf?], ?_⟩
        intro r hr
        rw [nodeAt_cons _ _ hr, here]

/-- Adding a leaf changes what stands at its names and at those that lead to it, and nothing else. -/
theorem nodeAt_insertSegments {path : String} {value : α} : ∀ {names : List String}
    {f g : Forest α}, names ≠ [] → insertSegments path value names f = .ok g →
    ∀ q, nodeAt g q =
      if q = names then some (some value)
      else if q ≠ [] ∧ q <+: names then some none
      else nodeAt f q
  | [], _, _, h, _ => absurd rfl h
  | [name], f, g, _, built => by
    unfold insertSegments at built
    cases here : Dict.get? f name with
    | some node => cases node <;> simp [here] at built
    | none =>
      simp only [here, Except.ok.injEq] at built
      subst built
      intro q
      match q with
      | [] => simp [nodeAt_nil]
      | [n] =>
        by_cases same : name = n
        · simp [nodeAt_single, Dict.get?_insert, same, Tree.asLeaf?]
        · simp [nodeAt_single, Dict.get?_insert, same, Ne.symm same]
      | n :: m :: rest =>
        rw [nodeAt_cons _ _ (by simp), nodeAt_cons _ _ (by simp), Dict.get?_insert]
        by_cases same : name = n
        · subst same
          simp [here, List.cons_prefix_cons]
        · simp [same, Ne.symm same, List.cons_prefix_cons]
  | name :: a :: rest, f, g, _, built => by
    obtain ⟨before, after, inner, rfl, _, hbefore⟩ := insertSegments_group built
    have ih := nodeAt_insertSegments (List.cons_ne_nil a rest) inner
    intro q
    match q with
    | [] => simp [nodeAt_nil]
    | [n] =>
      by_cases same : name = n
      · simp [nodeAt_single, Dict.get?_insert, same, Tree.asLeaf?]
      · simp [nodeAt_single, Dict.get?_insert, same, Ne.symm same]
    | n :: m :: r =>
      by_cases same : name = n
      · subst same
        rw [nodeAt_cons _ _ (by simp), Dict.get?_insert, if_pos rfl]
        simp only [ih (m :: r), hbefore (m :: r) (by simp), List.cons.injEq, true_and,
          List.cons_prefix_cons, ne_eq, reduceCtorEq, not_false_eq_true]
      · rw [nodeAt_cons _ _ (by simp), nodeAt_cons _ _ (by simp), Dict.get?_insert, if_neg same]
        simp [Ne.symm same, List.cons_prefix_cons]

/-- A leaf is refused if something stands at its names, or a leaf on the way to them. -/
theorem insertSegments_error {path : String} {value : α} {e : TreeError} :
    ∀ {names : List String} {f : Forest α}, insertSegments path value names f = .error e →
    (e = .duplicate path ∧ ∃ x, nodeAt f names = some (some x)) ∨
    (e = .conflict path ∧ nodeAt f names = some none) ∨
    (e = .conflict path ∧ ∃ q x, q <+: names ∧ q ≠ names ∧ nodeAt f q = some (some x))
  | [], f, h => by simp [insertSegments] at h
  | [name], f, h => by
    unfold insertSegments at h
    cases here : Dict.get? f name with
    | none => simp [here] at h
    | some node =>
      cases node with
      | leaf x =>
        simp only [here, Except.error.injEq] at h
        exact .inl ⟨h.symm, x, by simp [nodeAt_single, here, Tree.asLeaf?]⟩
      | branch children =>
        simp only [here, Except.error.injEq] at h
        exact .inr (.inl ⟨h.symm, by simp [nodeAt_single, here, Tree.asLeaf?]⟩)
  | name :: a :: rest, f, h => by
    unfold insertSegments at h
    cases here : Dict.get? f name with
    | none =>
      simp only [here] at h
      cases inner : insertSegments path value (a :: rest) [] with
      | ok after => simp [inner, Except.map] at h
      | error e' =>
        rcases insertSegments_error inner with ⟨_, x, hx⟩ | ⟨_, hx⟩ | ⟨_, q, x, _, _, hx⟩
        · simp [nodeAt_empty] at hx
        · simp [nodeAt_empty] at hx
        · simp [nodeAt_empty] at hx
    | some node =>
      cases node with
      | leaf x =>
        simp only [here, Except.error.injEq] at h
        refine .inr (.inr ⟨h.symm, [name], x, by simp [List.cons_prefix_cons], by simp, ?_⟩)
        simp [nodeAt_single, here, Tree.asLeaf?]
      | branch children =>
        simp only [here] at h
        have below : ∀ r, r ≠ [] → nodeAt f (name :: r) = nodeAt children r := by
          intro r hr
          rw [nodeAt_cons _ _ hr, here]
        cases inner : insertSegments path value (a :: rest) children with
        | ok after => simp [inner, Except.map] at h
        | error e' =>
          simp only [inner, Except.map, Except.error.injEq] at h
          subst h
          rcases insertSegments_error inner with ⟨he, x, hx⟩ | ⟨he, hx⟩ | ⟨he, q, x, hq, ne, hx⟩
          · exact .inl ⟨he, x, by rw [below _ (by simp), hx]⟩
          · exact .inr (.inl ⟨he, by rw [below _ (by simp), hx]⟩)
          · refine .inr (.inr ⟨he, name :: q, x, by simp [List.cons_prefix_cons, hq], by simp [ne], ?_⟩)
            have hne : q ≠ [] := by
              intro eq
              subst eq
              simp [nodeAt_nil] at hx
            rw [below q hne, hx]

theorem insertSegments_clear {path : String} {value : α} : ∀ {names : List String}
    {f g : Forest α}, insertSegments path value names f = .ok g →
    nodeAt f names = none ∧
      ∀ q x, q <+: names → nodeAt f q ≠ some (some x)
  | [], f, g, _ => by
    refine ⟨nodeAt_nil f, ?_⟩
    intro q x hq
    rw [List.prefix_nil.mp hq]
    simp [nodeAt_nil]
  | [name], f, g, built => by
    unfold insertSegments at built
    cases here : Dict.get? f name with
    | some node => cases node <;> simp [here] at built
    | none =>
      have free : nodeAt f [name] = none := by simp [nodeAt_single, here]
      refine ⟨free, ?_⟩
      intro q x hq
      match q, hq with
      | [], _ => simp [nodeAt_nil]
      | [n], hq =>
        have : n = name := by simpa [List.cons_prefix_cons] using hq
        rw [this, free]
        simp
      | _ :: _ :: _, hq => simp [List.cons_prefix_cons] at hq
  | name :: a :: rest, f, g, built => by
    obtain ⟨before, after, inner, _, noLeaf, hbefore⟩ := insertSegments_group built
    obtain ⟨free, clear⟩ := insertSegments_clear inner
    refine ⟨by rw [hbefore _ (by simp), free], ?_⟩
    intro q x hq
    match q, hq with
    | [], _ => simp [nodeAt_nil]
    | [n], hq =>
      rw [(List.cons_prefix_cons.mp hq).1]
      exact noLeaf x
    | n :: m :: r, hq =>
      obtain ⟨rfl, hr⟩ := List.cons_prefix_cons.mp hq
      rw [hbefore _ (by simp)]
      exact clear (m :: r) x hr

/-! ## Adding one path -/

/-- Two paths that cannot both be leaves of one tree. -/
def Clash (p q : String) : Prop := p = q ∨ Below p q ∨ Below q p

/-- The tree holds the leaves of the entries and no other, and every group leads to one of them. -/
structure Holds (f : Forest α) (entries : List (String × α)) : Prop where
  leaf : ∀ q x, nodeAt f q = some (some x) ↔ ∃ e ∈ entries, segments e.1 = q ∧ e.2 = x
  group : ∀ q, nodeAt f q = some none ↔
    q ≠ [] ∧ ∃ e ∈ entries, q <+: segments e.1 ∧ q ≠ segments e.1

theorem holds_nil : Holds ([] : Forest α) [] :=
  ⟨by simp [nodeAt_empty], by simp [nodeAt_empty]⟩

variable {f g : Forest α} {entries : List (String × α)} {path : String} {value : α}

theorem Holds.insertPath (h : Holds f entries) (built : insertPath f path value = .ok g) :
    Holds g (entries ++ [(path, value)]) := by
  have after := nodeAt_insertSegments (segments_ne_nil path) built
  obtain ⟨free, clear⟩ := insertSegments_clear built
  constructor
  · intro q x
    rw [after q]
    constructor
    · intro found
      split at found
      · next here =>
        refine ⟨(path, value), by simp, here.symm, ?_⟩
        simpa using found
      · split at found
        · simp at found
        · obtain ⟨e, he, hq⟩ := (h.leaf q x).mp found
          exact ⟨e, by simp [he], hq⟩
    · intro given
      obtain ⟨e, he, hq, rfl⟩ := given
      rcases List.mem_append.mp he with he | he
      · have found := (h.leaf q e.2).mpr ⟨e, he, hq, rfl⟩
        have other : q ≠ segments path := by
          intro eq
          subst eq
          rw [free] at found
          simp at found
        have apart : ¬(q ≠ [] ∧ q <+: segments path) := fun hp => clear q e.2 hp.2 found
        rw [if_neg other, if_neg apart, found]
      · obtain rfl := List.mem_singleton.mp he
        rw [if_pos hq.symm]
  · intro q
    rw [after q]
    constructor
    · intro found
      split at found
      · simp at found
      · next other =>
        split at found
        · next onTheWay => exact ⟨onTheWay.1, (path, value), by simp, onTheWay.2, other⟩
        · obtain ⟨ne, e, he, hq⟩ := (h.group q).mp found
          exact ⟨ne, e, by simp [he], hq⟩
    · intro given
      obtain ⟨ne, e, he, hq⟩ := given
      rcases List.mem_append.mp he with he | he
      · have found := (h.group q).mpr ⟨ne, e, he, hq⟩
        have other : q ≠ segments path := by
          intro eq
          subst eq
          rw [free] at found
          simp at found
        rw [if_neg other, found]
        split <;> rfl
      · obtain rfl := List.mem_singleton.mp he
        rw [if_neg hq.2, if_pos ⟨ne, hq.1⟩]

theorem Holds.no_clash (h : Holds f entries) (built : Forest.insertPath f path value = .ok g)
    {e : String × α} (he : e ∈ entries) : ¬Clash e.1 path := by
  obtain ⟨free, clear⟩ := insertSegments_clear built
  have leaf := (h.leaf (segments e.1) e.2).mpr ⟨e, he, rfl, rfl⟩
  intro given
  rcases given with same | below | above
  · rw [same, free] at leaf
    simp at leaf
  · exact clear _ _ ((below_iff _ _).mp below).1 leaf
  · obtain ⟨pre, ne⟩ := (below_iff _ _).mp above
    have group := (h.group (segments path)).mpr ⟨segments_ne_nil path, e, he, pre, ne⟩
    rw [free] at group
    simp at group

/-- What an error about a path says: the path is there already, or one of two paths goes on after the
other. -/
def Explains (e : TreeError) (path : String) (before : List (String × α)) : Prop :=
  (e = .duplicate path ∧ ∃ d ∈ before, d.1 = path) ∨
  (e = .conflict path ∧ ∃ d ∈ before, Below d.1 path ∨ Below path d.1)

theorem Holds.explains (h : Holds f entries) {e : TreeError}
    (failed : Forest.insertPath f path value = .error e) : Explains e path entries := by
  rcases insertSegments_error failed with ⟨he, x, hx⟩ | ⟨he, hx⟩ | ⟨he, q, x, hq, ne, hx⟩
  · obtain ⟨d, hd, same, _⟩ := (h.leaf _ x).mp hx
    exact .inl ⟨he, d, hd, segments_injective same⟩
  · obtain ⟨_, d, hd, pre, ne⟩ := (h.group _).mp hx
    exact .inr ⟨he, d, hd, .inr ((below_iff _ _).mpr ⟨pre, ne⟩)⟩
  · obtain ⟨d, hd, rfl, _⟩ := (h.leaf q x).mp hx
    exact .inr ⟨he, d, hd, .inl ((below_iff _ _).mpr ⟨hq, ne⟩)⟩

/-! ## Building from a list of paths -/

theorem unflatten_from_ok : ∀ {rest : List (String × α)} {done : List (String × α)} {f g : Forest α},
    Holds f done → rest.foldlM (fun f e => Forest.insertPath f e.1 e.2) f = .ok g →
    Holds g (done ++ rest) ∧ (∀ d ∈ done, ∀ e ∈ rest, ¬Clash d.1 e.1) ∧
      rest.Pairwise fun d e => ¬Clash d.1 e.1
  | [], done, f, g, h, built => by
    obtain rfl : f = g := by simpa [pure, Except.pure] using built
    simpa using h
  | e :: rest, done, f, g, h, built => by
    rw [List.foldlM_cons] at built
    cases step : Forest.insertPath f e.1 e.2 with
    | error err => simp [step, bind, Except.bind] at built
    | ok f' =>
      simp only [step, bind, Except.bind] at built
      obtain ⟨holds, apart, pairs⟩ := unflatten_from_ok (h.insertPath step) built
      refine ⟨by simpa using holds, ?_, ?_⟩
      · intro d hd x hx
        rcases List.mem_cons.mp hx with rfl | hx
        · exact h.no_clash step hd
        · exact apart d (by simp [hd]) x hx
      · exact List.pairwise_cons.mpr ⟨fun x hx => apart e (by simp) x hx, pairs⟩

theorem unflatten_ok {entries : List (String × α)} {f : Forest α} (built : unflatten entries = .ok f) :
    Holds f entries ∧ entries.Pairwise fun d e => ¬Clash d.1 e.1 := by
  obtain ⟨holds, _, pairs⟩ := unflatten_from_ok holds_nil built
  exact ⟨by simpa using holds, pairs⟩

/-- The error names the first path that clashes with one before it. -/
theorem unflatten_error {entries : List (String × α)} {err : TreeError}
    (failed : unflatten entries = .error err) :
    ∃ before e after, entries = before ++ e :: after ∧ (before.Pairwise fun d e => ¬Clash d.1 e.1) ∧
      Explains err e.1 before := by
  obtain ⟨before, e, after, f, split, built, refused⟩ := Outcome.foldlM_eq_error failed
  obtain ⟨holds, apart⟩ := unflatten_ok built
  exact ⟨before, e, after, split, apart, holds.explains refused⟩

theorem Explains.clash {e : TreeError} {path : String} {before : List (String × α)}
    (h : Explains e path before) : ∃ d ∈ before, Clash d.1 path := by
  rcases h with ⟨_, d, hd, same⟩ | ⟨_, d, hd, below⟩
  · exact ⟨d, hd, .inl same⟩
  · exact ⟨d, hd, .inr below⟩

/-- Paths make a tree exactly if no two of them clash. -/
theorem unflatten_ok_iff (entries : List (String × α)) :
    (∃ f, unflatten entries = .ok f) ↔ entries.Pairwise fun d e => ¬Clash d.1 e.1 := by
  constructor
  · intro given
    obtain ⟨f, built⟩ := given
    exact (unflatten_ok built).2
  · intro pairs
    cases built : unflatten entries with
    | ok f => exact ⟨f, rfl⟩
    | error err =>
      obtain ⟨before, e, after, rfl, _, tells⟩ := unflatten_error built
      obtain ⟨d, hd, clash⟩ := tells.clash
      exact absurd clash ((List.pairwise_append.mp pairs).2.2 d hd e (by simp))

end ZoomConfig.Forest
