import ZoomConfig.Proofs.Zoom.FirstMatch
/-!
What of a tree counts at a zoom level.

Beneath a condition that is not true, or not the first true one of its mapping, anything may stand:
two trees that differ there alone, each at a zoom level at which the same conditions are true, are
`Alike`, and the same is left of them (`Alike.resolve`). So what is hidden at a zoom level has no
influence there, and a tree resolves alike at zoom levels that lie on the same side of the operands of
all its conditions (`visible_content_decides`).
-/
namespace ZoomConfig

namespace Node

/-- Two trees, each seen at a zoom level, have the same values, declarations and keys with the same
conditions true, wherever they are not hidden. Of the children with conditions only the first one
whose condition is true is compared. -/
inductive Alike (z₁ z₂ : Nat) : Node → Node → Prop where
  | value (v : Value) : Alike z₁ z₂ (.value v) (.value v)
  | terminal (entries : List (Value × Value)) : Alike z₁ z₂ (.terminal entries) (.terminal entries)
  | branch {xs ys : List (NodeKey × Node)} (keys : xs.map (·.1) = ys.map (·.1))
    (conditions : ∀ x ∈ xs, x.1.holds z₁ = x.1.holds z₂)
    (plain : ∀ p ∈ xs.zip ys, p.1.1.condition = none → Alike z₁ z₂ p.1.2 p.2.2)
    (chosen : ∀ p ∈ (xs.zip ys).find? (·.1.1.holds z₁), Alike z₁ z₂ p.1.2 p.2.2) :
    Alike z₁ z₂ (.branch xs) (.branch ys)

variable {z₁ z₂ zoom : Nat} {x y : NodeKey × Node} {xs ys : List (NodeKey × Node)}

/-! ## Two runs -/

theorem chosenPart_congr (key : x.1 = y.1)
    (same : ∀ inInput, x.2.resolve z₁ inInput = y.2.resolve z₂ inInput) (inInput : Bool) :
    chosenPart z₁ inInput x = chosenPart z₂ inInput y := by
  rw [chosenPart, chosenPart, same inInput, key]

theorem plainPart_congr (key : x.1 = y.1) (same : x.1.condition = none →
      ∀ inInput, x.2.resolve z₁ inInput = y.2.resolve z₂ inInput) (inInput : Bool) :
    plainPart z₁ inInput x = plainPart z₂ inInput y := by
  unfold plainPart
  rw [← key]
  cases plain : x.1.condition with
  | some c => rfl
  | none => rw [same plain]

/-- Children of which the same is left where they count leave the same. Once a condition was true the
chosen child is of no account. -/
theorem resolveChildren_congr : ∀ {xs ys : List (NodeKey × Node)} (matched inInput : Bool),
    xs.map (·.1) = ys.map (·.1) → (∀ x ∈ xs, x.1.holds z₁ = x.1.holds z₂) →
    (∀ p ∈ xs.zip ys, p.1.1.condition = none →
      ∀ inInput, p.1.2.resolve z₁ inInput = p.2.2.resolve z₂ inInput) →
    (matched = false → ∀ p ∈ (xs.zip ys).find? (·.1.1.holds z₁),
      ∀ inInput, p.1.2.resolve z₁ inInput = p.2.2.resolve z₂ inInput) →
    resolveChildren z₁ inInput matched xs = resolveChildren z₂ inInput matched ys
  | [], [], _, _, _, _, _, _ => rfl
  | [], y :: ys, _, _, keys, _, _, _ => by cases keys
  | x :: xs, [], _, _, keys, _, _, _ => by cases keys
  | x :: xs, y :: ys, matched, inInput, keys, conditions, plain, chosen => by
    obtain ⟨key, keys⟩ : x.1 = y.1 ∧ xs.map (·.1) = ys.map (·.1) := List.cons.inj keys
    obtain ⟨condition, conditions⟩ := List.forall_mem_cons.mp conditions
    rw [List.zip_cons_cons] at plain chosen
    obtain ⟨here, plain⟩ := List.forall_mem_cons.mp plain
    have rest := fun matched => resolveChildren_congr matched inInput keys conditions plain
    rw [resolveChildren_cons, resolveChildren_cons, ← key, ← condition]
    cases first : x.1.holds z₁ && !matched with
    | true =>
      -- This child is the first one whose condition is true, and no other counts after it.
      obtain ⟨holds, unmatched⟩ := Bool.and_eq_true_iff.mp first
      have same := chosen (by simpa using unmatched) (x, y) (List.find?_cons_of_pos holds)
      rw [if_pos rfl, if_pos rfl, chosenPart_congr key same, rest true fun other => nomatch other]
    | false =>
      have later : resolveChildren z₁ inInput matched xs = resolveChildren z₂ inInput matched ys := by
        apply rest matched
        intro unmatched
        have untrue : x.1.holds z₁ = false := by simpa [unmatched] using first
        have skip := chosen unmatched
        rw [List.find?_cons_of_neg (by simp [untrue])] at skip
        exact skip
      rw [if_neg Bool.false_ne_true, if_neg Bool.false_ne_true, plainPart_congr key here, later]

/-- Of trees that are alike the same is left. -/
theorem Alike.resolve {s t : Node} (h : Alike z₁ z₂ s t) :
    ∀ inInput, s.resolve z₁ inInput = t.resolve z₂ inInput := by
  induction h with
  | value v =>
    intro inInput
    cases v <;> rfl
  | terminal entries => exact fun _ => rfl
  | branch keys conditions _ _ plain chosen =>
    intro inInput
    have children := resolveChildren_congr false inInput keys conditions plain fun _ => chosen
    exact congrArg (collapse inInput) children

theorem Alike.resolveParams (h : Alike z₁ z₂ (.branch xs) (.branch ys)) :
    resolveParams xs z₁ = resolveParams ys z₂ := by
  cases h with
  | branch keys conditions plain chosen =>
    have children := resolveChildren_congr false false keys conditions
      (fun p mem none => (plain p mem none).resolve) fun _ p mem => (chosen p mem).resolve
    exact congrArg toMapping children

/-! ## One tree at two zoom levels -/

mutual

/-- The conditions in the keys of a tree. -/
def conditions : Node → List Condition
  | .branch children => childConditions children
  | .value _ => []
  | .terminal _ => []

/-- The conditions in the keys of children and of all beneath them. -/
def childConditions : List (NodeKey × Node) → List Condition
  | [] => []
  | (key, child) :: rest => key.condition.toList ++ (conditions child ++ childConditions rest)

end

theorem zip_self {α : Type} (l : List α) : l.zip l = l.map fun x => (x, x) := by
  rw [List.zip_eq_zipWith, List.zipWith_self]

mutual

theorem alike_self : ∀ t : Node, (∀ c ∈ t.conditions, c.holds z₁ = c.holds z₂) → Alike z₁ z₂ t t
  | .value v, _ => .value v
  | .terminal entries, _ => .terminal entries
  | .branch children, same => by
    have each := children_alike_self children same
    have twice : ∀ p ∈ children.zip children, Alike z₁ z₂ p.1.2 p.2.2 := by
      intro p mem
      rw [zip_self] at mem
      obtain ⟨x, inside, rfl⟩ := List.mem_map.mp mem
      exact (each x inside).2
    exact .branch rfl (fun x mem => (each x mem).1) (fun p mem _ => twice p mem)
      fun p found => twice p (List.mem_of_find?_eq_some found)

theorem children_alike_self : ∀ children : List (NodeKey × Node),
    (∀ c ∈ childConditions children, c.holds z₁ = c.holds z₂) →
    ∀ x ∈ children, x.1.holds z₁ = x.1.holds z₂ ∧ Alike z₁ z₂ x.2 x.2
  | (key, child) :: rest, same, x, mem => by
    rw [childConditions] at same
    rcases List.mem_cons.mp mem with rfl | mem
    · refine ⟨?_, alike_self child fun c inside => same c (by simp [inside])⟩
      cases own : key.condition with
      | none => simp [NodeKey.holds, own]
      | some c => simpa [NodeKey.holds, own] using same c (by simp [own])
    · exact children_alike_self rest (fun c inside => same c (by simp [inside])) x mem

end

theorem holds_congr {c : Condition} (side : compare z₁ c.operand = compare z₂ c.operand) :
    c.holds z₁ = c.holds z₂ := by
  have below : z₁ < c.operand ↔ z₂ < c.operand := by
    rw [← Nat.compare_eq_lt, ← Nat.compare_eq_lt, side]
  have at_ : z₁ = c.operand ↔ z₂ = c.operand := by
    rw [← Nat.compare_eq_eq, ← Nat.compare_eq_eq, side]
  rw [Bool.eq_iff_iff]
  unfold Condition.holds Comparison.holds
  cases c.comparison <;> simp only [beq_iff_eq, decide_eq_true_eq] <;> omega

/-- What stands beneath a condition that is not true, or that comes after a true one, is hidden. -/
theorem alike_hidden {before after : List (NodeKey × Node)} {key : NodeKey} {a b : Node}
    (condition : key.condition.isSome = true)
    (hidden : key.holds zoom = true → ∃ y ∈ before, y.1.holds zoom = true) :
    Alike zoom zoom (.branch (before ++ (key, a) :: after)) (.branch (before ++ (key, b) :: after)) := by
  have zipped : (before ++ (key, a) :: after).zip (before ++ (key, b) :: after) =
      before.zip before ++ ((key, a), (key, b)) :: after.zip after := by
    rw [List.zip_append rfl, List.zip_cons_cons]
  have others : ∀ {l : List (NodeKey × Node)}, ∀ p ∈ l.zip l, Alike zoom zoom p.1.2 p.2.2 := by
    intro l p mem
    rw [zip_self] at mem
    obtain ⟨x, _, rfl⟩ := List.mem_map.mp mem
    exact alike_self x.2 fun _ _ => rfl
  refine .branch (by simp) (fun _ _ => rfl) ?_ ?_
  · rw [zipped]
    intro p mem plain
    rcases List.mem_append.mp mem with mem | mem
    · exact others p mem
    · rcases List.mem_cons.mp mem with rfl | mem
      · rw [plain] at condition
        cases condition
      · exact others p mem
  · rw [zipped]
    intro p found
    rw [Option.mem_def, List.find?_append] at found
    cases earlier : (before.zip before).find? (·.1.1.holds zoom) with
    | some q =>
      obtain rfl : q = p := by simpa [earlier] using found
      exact others q (List.mem_of_find?_eq_some earlier)
    | none =>
      -- No earlier condition is true, so the hidden one is not either.
      have untrue : ¬key.holds zoom = true := by
        intro holds
        obtain ⟨y, mem, first⟩ := hidden holds
        rw [zip_self] at earlier
        exact List.find?_eq_none.mp earlier (y, y) (List.mem_map_of_mem mem) first
      rw [earlier, Option.none_or, List.find?_cons_of_neg (by exact untrue)] at found
      exact others p (List.mem_of_find?_eq_some found)

/-- Only what is selected counts. The same is left of trees that are alike, be they parameters or part
of them; what stands beneath a condition that is not the first true one makes no difference; and of
one tree the same is left at zoom levels that lie on the same side of the operands of all its
conditions. -/
theorem visible_content_decides :
    (∀ (z₁ z₂ : Nat) (s t : Node), Alike z₁ z₂ s t →
      ∀ inInput, s.resolve z₁ inInput = t.resolve z₂ inInput) ∧
    (∀ (z₁ z₂ : Nat) (xs ys : List (NodeKey × Node)), Alike z₁ z₂ (.branch xs) (.branch ys) →
      resolveParams xs z₁ = resolveParams ys z₂) ∧
    (∀ (zoom : Nat) (before after : List (NodeKey × Node)) (key : NodeKey) (a b : Node),
      key.condition.isSome = true →
      (key.holds zoom = true → ∃ y ∈ before, y.1.holds zoom = true) →
      (∀ inInput, (Node.branch (before ++ (key, a) :: after)).resolve zoom inInput =
        (Node.branch (before ++ (key, b) :: after)).resolve zoom inInput) ∧
      resolveParams (before ++ (key, a) :: after) zoom =
        resolveParams (before ++ (key, b) :: after) zoom) ∧
    (∀ (z₁ z₂ : Nat) (t : Node),
      (∀ c ∈ t.conditions, compare z₁ c.operand = compare z₂ c.operand) →
      ∀ inInput, t.resolve z₁ inInput = t.resolve z₂ inInput) ∧
    ∀ (z₁ z₂ : Nat) (params : List (NodeKey × Node)),
      (∀ c ∈ childConditions params, compare z₁ c.operand = compare z₂ c.operand) →
      resolveParams params z₁ = resolveParams params z₂ := by
  refine ⟨fun _ _ _ _ alike => alike.resolve, fun _ _ _ _ alike => alike.resolveParams,
    fun zoom before after key a b condition hidden => ?_, fun z₁ z₂ t sides => ?_,
    fun z₁ z₂ params sides => ?_⟩
  · have alike : Alike zoom zoom (.branch (before ++ (key, a) :: after))
        (.branch (before ++ (key, b) :: after)) := alike_hidden condition hidden
    exact ⟨alike.resolve, alike.resolveParams⟩
  · exact (alike_self t fun c mem => holds_congr (sides c mem)).resolve
  · have alike : Alike z₁ z₂ (.branch params) (.branch params) :=
      alike_self (.branch params) fun c mem => holds_congr (sides c mem)
    exact alike.resolveParams

/-- A mapping in which a second true condition is hidden above zoom level four. -/
def shadowedChildren (hidden : Node) : List (NodeKey × Node) :=
  [(⟨"zoom>=5", some ⟨.ge, 5⟩⟩, .value (.bool true)), (⟨"zoom>4", some ⟨.gt, 4⟩⟩, hidden)]

/-- Parameters with such a mapping and with a condition that is true below nine. -/
def layeredParams (hidden : Node) : List (NodeKey × Node) :=
  [(⟨"a", none⟩, .branch (shadowedChildren hidden)), (⟨"zoom<9", some ⟨.lt, 9⟩⟩, hidden),
    (⟨"b", none⟩, .value (.bool false))]

theorem layeredParams_alike (s t : Node) :
    Alike 10 12 (.branch (layeredParams s)) (.branch (layeredParams t)) := by
  have inner : Alike 10 12 (.branch (shadowedChildren s)) (.branch (shadowedChildren t)) := by
    refine .branch rfl (by simp [shadowedChildren, NodeKey.holds, Condition.holds, Comparison.holds])
      (fun p mem plain => ?_) fun p found => ?_
    · have conditional : p.1.1.condition.isSome = true := by
        simp only [shadowedChildren, List.zip_cons_cons, List.zip_nil_right, List.mem_cons,
          List.not_mem_nil, or_false] at mem
        rcases mem with rfl | rfl <;> rfl
      rw [plain] at conditional
      cases conditional
    · cases found
      exact .value _
  refine .branch rfl (by simp [layeredParams, NodeKey.holds, Condition.holds, Comparison.holds])
    (fun p mem plain => ?_) fun p found => by cases found
  simp only [layeredParams, List.zip_cons_cons, List.zip_nil_right, List.mem_cons,
    List.not_mem_nil, or_false] at mem
  rcases mem with rfl | rfl | rfl
  · exact inner
  · cases plain
  · exact .value _

/-- Above the largest operand neither the level makes a difference nor what is hidden there. -/
theorem visible_content_decides_layered :
    (Alike 10 12 (.branch (layeredParams (.value .null)))
        (.branch (layeredParams (.value (.string "hidden")))) ∧
      resolveParams (layeredParams (.value .null)) 10 =
        resolveParams (layeredParams (.value (.string "hidden"))) 12) ∧
    ((⟨"zoom>4", some ⟨.gt, 4⟩⟩ : NodeKey).holds 10 = true ∧
      (Node.branch (shadowedChildren (.value .null))).resolve 10 true =
        (Node.branch (shadowedChildren (.value (.string "hidden")))).resolve 10 true) ∧
    (∀ c ∈ childConditions (layeredParams (.value .null)),
      compare 10 c.operand = compare 12 c.operand) ∧
    resolveParams (layeredParams (.value .null)) 10 =
      resolveParams (layeredParams (.value .null)) 12 := by
  obtain ⟨-, params, replaced, -, sides⟩ := visible_content_decides
  have alike := layeredParams_alike (.value .null) (.value (.string "hidden"))
  have above : ∀ c ∈ childConditions (layeredParams (.value .null)),
      compare 10 c.operand = compare 12 c.operand := by decide
  refine ⟨⟨alike, params _ _ _ _ alike⟩, ⟨by decide, ?_⟩, above, sides _ _ _ above⟩
  have hidden := replaced 10 [(⟨"zoom>=5", some ⟨.ge, 5⟩⟩, .value (.bool true))] []
    ⟨"zoom>4", some ⟨.gt, 4⟩⟩ (.value .null) (.value (.string "hidden")) rfl
    fun _ => ⟨_, List.mem_cons_self, by decide⟩
  exact hidden.1 true

end Node

end ZoomConfig
