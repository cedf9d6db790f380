import ZoomConfig.Proofs.Tree.RoundTrip
/-!
Trees and their entries, there and back.

Flattening and building are inverse to each other, and the order of the entries does not matter. A
tree with names that can stand in a path, none of whose groups is empty, is built from its leaves
again (`tree_round_trip`). Entries make a tree exactly if the names of no path begin with the names of
another; then the tree has the entries as its flat form, and otherwise the error names the first path
in the way of an earlier one (`entries_round_trip`).
-/
namespace ZoomConfig.Forest

variable {α : Type} {f : Forest α} {entries : List (String × α)}

/-! ## From a tree to its entries and back -/

/-- A tree without slashes in its names and without empty groups beneath is built from the leaves of
its flat form, in whatever order they come. A path leads to a leaf exactly if the flat form has the
value of the leaf there. The names of a group ascend, as they do in every tree that is built. -/
theorem tree_round_trip (ordered : Ordered f) (free : SlashFree f) (full : Full f) :
    (∀ entries, entries.Perm (flatten f) → unflatten entries = .ok f) ∧
    ∀ path x, get? f path = some (.leaf x) ↔ Dict.get? (flatten f) path = some x := by
  have neat : Neat f := ⟨ordered, free, full⟩
  exact ⟨fun entries => unflatten_of_perm neat, fun path x => (get?_flatten neat.clean path x).symm⟩

/-- A leaf without a name, and a group of two of which one has no name. -/
def unnamedLeaves : Forest Nat :=
  [("", .leaf 0), ("a", .branch [("", .leaf 1), ("b", .leaf 2)])]

theorem tree_round_trip_unnamed : Neat unnamedLeaves ∧
    unflatten [("a/b", 2), ("", 0), ("a/", 1)] = .ok unnamedLeaves ∧
    get? unnamedLeaves "a/" = some (.leaf 1) := by
  have built : unflatten [("", 0), ("a/", 1), ("a/b", 2)] = .ok unnamedLeaves := by rfl
  have neat : Neat unnamedLeaves := unflatten_neat built
  obtain ⟨build, leaf⟩ := tree_round_trip neat.ordered neat.free neat.full
  exact ⟨neat, build _ (by decide +kernel), (leaf "a/" 1).mpr (by decide +kernel)⟩

/-! ## From entries to their tree and back -/

/-- A list of names that another one goes on after. -/
def ProperPrefix (names others : List String) : Prop := names <+: others ∧ names ≠ others

/-- Two paths of which each can have a leaf. -/
def Apart (p q : String) : Prop :=
  p ≠ q ∧ ¬ProperPrefix (segments p) (segments q) ∧ ¬ProperPrefix (segments q) (segments p)

theorem apart_iff {p q : String} : Apart p q ↔ ¬Clash p q := by
  simp only [Apart, ProperPrefix, Clash, below_iff, ne_eq, not_or, not_and, eq_comm (a := segments q)]

/-- Where no two paths are in the way of each other, a path that stands among them does not go on
after another one, nor another one after it. -/
theorem not_below_of_mem (apart : entries.Pairwise fun d e => Apart d.1 e.1) {path : String}
    (twice : ∃ d ∈ entries, d.1 = path) : ¬∃ d ∈ entries, Below d.1 path ∨ Below path d.1 := by
  obtain ⟨d, hd, rfl⟩ := twice
  intro given
  obtain ⟨e, he, below⟩ := given
  have pairs : entries.Pairwise fun x y => ¬(Below x.1 y.1 ∨ Below y.1 x.1) :=
    apart.imp fun h below => apart_iff.mp h (.inr below)
  exact pairs.forall_of_forall_of_flip (fun x _ => by simp [not_below_self])
    (pairs.imp fun no below => no below.symm) he hd below

/-- The error tells which of the two ways a path is in. -/
theorem Explains.iff {err : TreeError} {path : String} (h : Explains err path entries)
    (apart : entries.Pairwise fun d e => Apart d.1 e.1) :
    (err = .duplicate path ↔ ∃ d ∈ entries, d.1 = path) ∧
    (err = .conflict path ↔ ∃ d ∈ entries, Below d.1 path ∨ Below path d.1) := by
  rcases h with ⟨rfl, twice⟩ | ⟨rfl, below⟩
  · simp [twice, not_below_of_mem apart twice]
  · have once : ¬∃ d ∈ entries, d.1 = path := fun twice => not_below_of_mem apart twice below
    simp [once, below]

/-- Entries make a tree exactly if no two of them have the same path and the names of no path begin
those of another. The flat form of the tree is the dictionary of the entries, and the same tree is
made of them in every order. Otherwise the error names the path of the first entry in the way of an
earlier one: as a duplicate if an earlier entry has that path, and as a conflict if the names of one
of the two paths begin those of the other. -/
theorem entries_round_trip (entries : List (String × α)) :
    ((∃ f, unflatten entries = .ok f) ↔ entries.Pairwise fun d e => Apart d.1 e.1) ∧
    (∀ f, unflatten entries = .ok f →
      flatten f = Dict.ofList entries ∧ (flatten f).Perm entries ∧
      ∀ others, others.Perm entries → unflatten others = .ok f) ∧
    ∀ err, unflatten entries = .error err → ∃ before e after, entries = before ++ e :: after ∧
      (before.Pairwise fun d e => Apart d.1 e.1) ∧ (∃ d ∈ before, ¬Apart d.1 e.1) ∧
      (err = .duplicate e.1 ↔ ∃ d ∈ before, d.1 = e.1) ∧
      (err = .conflict e.1 ↔ ∃ d ∈ before, ProperPrefix (segments d.1) (segments e.1) ∨
        ProperPrefix (segments e.1) (segments d.1)) := by
  refine ⟨?_, ?_, ?_⟩
  · simpa only [apart_iff] using unflatten_ok_iff entries
  · intro f built
    have perm := perm_of_unflatten built
    refine ⟨Dict.eq_ofList_of_perm (Dict.sorted_ofList _) perm, perm, fun others same => ?_⟩
    exact unflatten_of_perm (unflatten_neat built) (same.trans perm.symm)
  · intro err failed
    obtain ⟨before, e, after, split, pairs, tells⟩ := unflatten_error failed
    have apart : before.Pairwise fun d e => Apart d.1 e.1 := pairs.imp apart_iff.mpr
    obtain ⟨d, hd, clash⟩ := tells.clash
    obtain ⟨duplicate, conflict⟩ := tells.iff apart
    refine ⟨before, e, after, split, apart, ⟨d, hd, fun h => apart_iff.mp h clash⟩, duplicate, ?_⟩
    simpa only [ProperPrefix, below_iff] using conflict

/-- The text of one name may begin another name, and a path may begin or end with a slash; what is
beneath a leaf is in its way. -/
theorem entries_round_trip_slashes :
    (∃ f, unflatten [("ab", 1), ("a", 2), ("/a", 3)] = .ok f ∧
      unflatten [("/a", 3), ("ab", 1), ("a", 2)] = .ok f) ∧
    unflatten [("ab", 1), ("a", 2), ("a/", 3), ("ab", 4)] = .error (.conflict "a/") ∧
    ¬[("ab", 1), ("a", 2), ("a/", 3), ("ab", 4)].Pairwise fun d e => Apart d.1 e.1 := by
  have failed : unflatten [("ab", 1), ("a", 2), ("a/", 3), ("ab", 4)] = .error (.conflict "a/") := rfl
  have built : unflatten [("ab", 1), ("a", 2), ("/a", 3)] = .ok
      [("", .branch [("a", .leaf 3)]), ("a", .leaf 2), ("ab", .leaf 1)] := rfl
  obtain ⟨_, made, _⟩ := entries_round_trip [("ab", 1), ("a", 2), ("/a", 3)]
  refine ⟨⟨_, built, (made _ built).2.2 _ (by decide)⟩, failed, fun apart => ?_⟩
  obtain ⟨f, none⟩ := (entries_round_trip _).1.mpr apart
  rw [failed] at none
  cases none

end ZoomConfig.Forest
