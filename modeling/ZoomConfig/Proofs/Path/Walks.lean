import ZoomConfig.Path
import ZoomConfig.Proofs.Tree.Segments
/-!
Walks along paths.

A walk along the parts of a path goes by names alone: a name leads down, `..` leads up and stays at
the root, and the root starts anew (`walk`). A walk along joined paths is one along the first and then
one along the second (`walk_join`). Resolving the parts of a path changes no walk (`walk_resolve`),
and what is left is settled: the root or some `..`, and then names (`settled_resolve`). Of two settled
lists that are not equal some walk differs (`Settled.eq_of_walk`).
-/
namespace ZoomConfig.Path

/-! ## Walks -/

/-- The directory that a part leads to. A directory is told by the names on the way to it, the last
first. -/
def move (place : List String) : Component → List String
  | .root => []
  | .current => place
  | .parent => place.tail
  | .name text => text :: place

/-- The directory that parts lead to, one after the other. -/
def walk (place : List String) (parts : List Component) : List String := parts.foldl move place

theorem walk_append (place : List String) (a b : List Component) :
    walk place (a ++ b) = walk (walk place a) b := List.foldl_append

theorem walk_names (place names : List String) :
    walk place (names.map .name) = names.reverse ++ place := by
  induction names generalizing place with
  | nil => rfl
  | cons name rest ih =>
    show walk (name :: place) (rest.map .name) = _
    rw [ih, List.reverse_cons, List.append_assoc, List.singleton_append]

theorem walk_parents (place : List String) (steps : Nat) :
    walk place (List.replicate steps .parent) = place.drop steps := by
  induction steps generalizing place with
  | zero => rfl
  | succ n ih =>
    show walk place.tail (List.replicate n .parent) = _
    rw [ih, List.drop_tail]

/-- What one step does to the parts passed so far is what it does to a walk along them. -/
theorem walk_step (place : List String) (stack : List Component) (part : Component) :
    walk place (step stack part).reverse = move (walk place stack.reverse) part := by
  have pushed (part : Component) :
      walk place (part :: stack).reverse = move (walk place stack.reverse) part := by
    rw [List.reverse_cons, walk_append]
    rfl
  cases part with
  | root => exact pushed .root
  | current => rfl
  | name text => exact pushed (.name text)
  | parent =>
    cases stack with
    | nil => exact pushed .parent
    | cons top below =>
      rw [List.reverse_cons, walk_append]
      cases top with
      | name text => rfl
      | root =>
        show walk place (.root :: below).reverse = _
        rw [List.reverse_cons, walk_append]
        rfl
      | current => rw [← walk_append, ← List.reverse_cons]; exact pushed .parent
      | parent => rw [← walk_append, ← List.reverse_cons]; exact pushed .parent

/-- Resolving parts changes no walk along them. -/
theorem walk_resolve (place : List String) (parts : List Component) :
    walk place (resolve parts) = walk place parts := by
  suffices run : ∀ stack, walk place (parts.foldl step stack).reverse =
      walk (walk place stack.reverse) parts from run []
  induction parts with
  | nil => exact fun _ => rfl
  | cons part rest ih =>
    intro stack
    rw [List.foldl_cons, ih, walk_step]
    rfl

/-! ## The parts of texts -/

/-- A text that is the name of something. -/
structure Proper (text : String) : Prop where
  nonempty : text ≠ ""
  notCurrent : text ≠ "."
  notParent : text ≠ ".."
  free : '/' ∉ text.toList

theorem Proper.ofPiece {text : String} (h : Proper text) : Path.ofPiece text = some (.name text) := by
  simp [Path.ofPiece, h.nonempty, h.notCurrent, h.notParent]

/-- The parts behind the front of a path. -/
def inner (path : String) : List Component := (Text.split '/' path).filterMap ofPiece

theorem components_eq (path : String) : components path =
    (if isAbsolute path then [.root]
      else if (Text.split '/' path).head? = some "." then [.current] else []) ++ inner path := rfl

theorem of_mem_inner {path : String} {part : Component} (mem : part ∈ inner path) :
    part = .parent ∨ ∃ text, part = .name text ∧ Proper text := by
  obtain ⟨piece, inside, found⟩ := List.mem_filterMap.mp mem
  unfold ofPiece at found
  split at found
  · cases found
  · next something =>
    split at found
    · exact .inl (Option.some.inj found).symm
    · next notParent =>
      obtain ⟨nonempty, notCurrent⟩ := not_or.mp something
      exact .inr ⟨piece, (Option.some.inj found).symm, nonempty, notCurrent, notParent,
        Text.split_free inside⟩

theorem inner_slash (a b : String) : inner (a ++ "/" ++ b) = inner a ++ inner b := by
  unfold inner
  rw [show a ++ "/" ++ b = a ++ String.singleton '/' ++ b from rfl, Text.split_append,
    List.filterMap_append]

theorem inner_empty : inner "" = [] := by decide

theorem walk_components (place : List String) (path : String) :
    walk place (components path) = walk (if isAbsolute path then [] else place) (inner path) := by
  rw [components_eq, walk_append]
  split
  · rfl
  · split <;> rfl

/-! ## Joined paths -/

theorem join_absolute {path : String} (absolute : isAbsolute path = true) (base : String) :
    join base path = path := if_pos absolute

theorem join_relative {path : String} (relative : isAbsolute path = false) (base : String) :
    join base path =
      if base = "" ∨ base.toList.getLast? = some '/' then base ++ path else base ++ "/" ++ path :=
  if_neg (by simp [relative])

theorem isAbsolute_append {base : String} (nonempty : base ≠ "") (path : String) :
    isAbsolute (base ++ path) = isAbsolute base := by
  have some : base.toList ≠ [] := fun none => nonempty (String.toList_inj.mp none)
  obtain ⟨c, rest, same⟩ := List.exists_cons_of_ne_nil some
  simp [isAbsolute, same]

theorem isAbsolute_join {base path : String} (relative : isAbsolute path = false) :
    isAbsolute (join base path) = isAbsolute base := by
  rw [join_relative relative]
  by_cases none : base = ""
  · subst none
    rw [if_pos (.inl rfl), String.empty_append, relative]
    rfl
  · split
    · exact isAbsolute_append none path
    · rw [String.append_assoc]
      exact isAbsolute_append none _

theorem inner_join {path : String} (relative : isAbsolute path = false) (base : String) :
    inner (join base path) = inner base ++ inner path := by
  rw [join_relative relative]
  split
  · next closed =>
    rcases closed with rfl | slash
    · rw [inner_empty]
      simp
    · -- A base that ends in a slash has nothing behind it.
      obtain ⟨cs, same⟩ := List.getLast?_eq_some_iff.mp slash
      obtain rfl : base = String.ofList cs ++ "/" := by
        apply String.toList_inj.mp
        rw [same, String.toList_append, String.toList_ofList]
        rfl
      have closed : inner (String.ofList cs ++ "/") = inner (String.ofList cs) := by
        have cut := inner_slash (String.ofList cs) ""
        rw [inner_empty, List.append_nil] at cut
        rw [← cut]
        simp
      rw [inner_slash, closed]
  · exact inner_slash base path

/-- A walk along a joined path is one along the base and then one along the path. -/
theorem walk_join (place : List String) (base path : String) :
    walk place (components (join base path)) =
      walk (walk place (components base)) (components path) := by
  cases absolute : isAbsolute path with
  | true =>
    rw [join_absolute absolute, walk_components, walk_components (walk _ _), absolute]
    rfl
  | false =>
    rw [walk_components, walk_components (walk _ _), walk_components place base, absolute,
      isAbsolute_join absolute, inner_join absolute, walk_append]
    rfl

/-! ## Settled parts -/

/-- How settled parts begin: at the root, or so many directories up. -/
inductive Start where
  | root
  | up (steps : Nat)

/-- The parts at the front. -/
def Start.parts : Start → List Component
  | .root => [.root]
  | .up steps => List.replicate steps .parent

/-- The directory where the names begin. -/
def Start.dir (place : List String) : Start → List String
  | .root => []
  | .up steps => place.drop steps

/-- Parts that have nothing left to resolve, with their start and their names. -/
def Settled (start : Start) (names : List String) (parts : List Component) : Prop :=
  parts = start.parts ++ names.map .name ∧ ∀ name ∈ names, Proper name

namespace Settled

variable {start start' : Start} {names names' : List String} {parts parts' : List Component}

theorem walk_eq (h : Settled start names parts) (place : List String) :
    walk place parts = names.reverse ++ start.dir place := by
  have front : walk place start.parts = start.dir place := by
    cases start with
    | root => rfl
    | up steps => exact walk_parents place steps
  rw [h.1, walk_append, walk_names, front]

/-- Settled parts are known from the walks along them: what they lead to from the root tells the
names, and a walk from deep enough how far up they begin. -/
theorem eq_of_walk (h : Settled start names parts) (h' : Settled start' names' parts')
    (same : ∀ place, walk place parts = walk place parts') : parts = parts' := by
  have ends (place : List String) :
      names.reverse ++ start.dir place = names'.reverse ++ start'.dir place := by
    rw [← h.walk_eq, ← h'.walk_eq, same]
  have fromRoot (start : Start) : start.dir [] = [] := by cases start <;> simp [Start.dir]
  obtain rfl : names = names' := by
    have atRoot := ends []
    rwa [fromRoot, fromRoot, List.append_nil, List.append_nil, List.reverse_inj] at atRoot
  have depth (n : Nat) : (start.dir (List.replicate n "")).length =
      (start'.dir (List.replicate n "")).length :=
    congrArg List.length (List.append_cancel_left (ends _))
  obtain rfl : start = start' := by
    cases start with
    | root =>
      cases start' with
      | root => rfl
      | up steps => simpa [Start.dir] using depth (steps + 1)
    | up steps =>
      cases start' with
      | root => simpa [Start.dir] using depth (steps + 1)
      | up steps' =>
        have low := depth steps
        have high := depth steps'
        simp only [Start.dir, List.length_drop, List.length_replicate] at low high
        rw [show steps = steps' by omega]
  rw [h.1, h'.1]

end Settled

/-- A stack of settled parts: names, the last first, upon their start. -/
def Stacked (start : Start) (names : List String) (stack : List Component) : Prop :=
  stack = names.map .name ++ start.parts ∧ ∀ name ∈ names, Proper name

/-- One more part keeps a stack settled, and its start at the root or not. -/
theorem Stacked.step {start : Start} {names : List String} {stack : List Component}
    (h : Stacked start names stack) {part : Component}
    (allowed : part = .parent ∨ ∃ text, part = .name text ∧ Proper text) :
    ∃ start' names', Stacked start' names' (Path.step stack part) ∧
      (start' = .root ↔ start = .root) := by
  obtain ⟨rfl, proper⟩ := h
  rcases allowed with rfl | ⟨text, rfl, named⟩
  · cases names with
    | cons name below =>
      exact ⟨start, below, ⟨rfl, fun n mem => proper n (List.mem_cons_of_mem _ mem)⟩, Iff.rfl⟩
    | nil =>
      -- There is no name to leave, so the start moves up, unless it is the root.
      cases start with
      | root => exact ⟨.root, [], ⟨rfl, nofun⟩, Iff.rfl⟩
      | up steps =>
        refine ⟨.up (steps + 1), [], ⟨?_, nofun⟩, by simp⟩
        cases steps <;> rfl
  · refine ⟨start, text :: names, ⟨rfl, fun n mem => ?_⟩, Iff.rfl⟩
    rcases List.mem_cons.mp mem with rfl | mem
    · exact named
    · exact proper n mem

theorem Stacked.run {parts : List Component}
    (allowed : ∀ part ∈ parts, part = .parent ∨ ∃ text, part = .name text ∧ Proper text)
    {start : Start} {names : List String} {stack : List Component}
    (h : Stacked start names stack) :
    ∃ start' names', Stacked start' names' (parts.foldl Path.step stack) ∧
      (start' = .root ↔ start = .root) := by
  induction parts generalizing start names stack with
  | nil => exact ⟨start, names, h, Iff.rfl⟩
  | cons part rest ih =>
    obtain ⟨next, passed, here, kind⟩ := h.step (allowed part List.mem_cons_self)
    obtain ⟨last, all, there, kind'⟩ :=
      ih (fun p mem => allowed p (List.mem_cons_of_mem _ mem)) here
    exact ⟨last, all, there, kind'.trans kind⟩

theorem Stacked.reverse {start : Start} {names : List String} {stack : List Component}
    (h : Stacked start names stack) : Settled start names.reverse stack.reverse := by
  obtain ⟨rfl, proper⟩ := h
  have turned : start.parts.reverse = start.parts := by
    cases start with
    | root => rfl
    | up steps => exact List.reverse_replicate
  refine ⟨?_, fun name mem => proper name (List.mem_reverse.mp mem)⟩
  rw [List.reverse_append, turned, List.map_reverse]

/-- The parts of a path that are left are settled, and begin at the root if the path does. -/
theorem settled_resolve (path : String) :
    ∃ start names, Settled start names (resolve (components path)) ∧
      (start = .root ↔ isAbsolute path = true) := by
  have run (start : Start) (front : List Component)
      (stacked : Stacked start [] (front.foldl step [])) :
      ∃ start' names, Settled start' names (resolve (front ++ inner path)) ∧
        (start' = .root ↔ start = .root) := by
    have allowed (part : Component) (mem : part ∈ inner path) := of_mem_inner mem
    obtain ⟨last, names, there, kind⟩ := stacked.run allowed
    refine ⟨last, names.reverse, ?_, kind⟩
    rw [resolve, List.foldl_append]
    exact there.reverse
  rw [components_eq]
  cases isAbsolute path with
  | true => simpa using run .root [.root] ⟨rfl, nofun⟩
  | false =>
    rw [if_neg Bool.false_ne_true]
    split
    · simpa using run (.up 0) [.current] ⟨rfl, nofun⟩
    · simpa using run (.up 0) [] ⟨rfl, nofun⟩

end ZoomConfig.Path
