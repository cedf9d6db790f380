import Mathlib.Logic.ExistsUnique
import ZoomConfig.Proofs.Zoom.Resolution
/-!
The first true condition of a mapping.

Going through the children of a mapping, the first true condition contributes what is left of its
child, every other condition contributes nothing, and the plain keys contribute the same whether or
not a condition was true before them (`resolveChildren_cons`). So what is left are the parts of the
plain keys in document order, with the part of the first true condition in its place between them
(`resolveChildren_first`). A mapping of conditions alone stands for the value of the first true one
(`first_condition_counts`).
-/
namespace ZoomConfig

/-- Is the key a condition that is true at a zoom level? -/
def NodeKey.holds (zoom : Nat) (key : NodeKey) : Bool := key.condition.any (·.holds zoom)

namespace Node

/-- What is left of a child with a plain key: among the inputs at least null. A condition has no such
part. -/
def plainPart (zoom : Nat) (inInput : Bool) (x : NodeKey × Node) : List Entry :=
  if x.1.condition.isSome then []
  else match x.2.resolve zoom (inInput || x.1.isInput) with
    | some v => [⟨x.1.name, v, false⟩]
    | none => if inInput then [⟨x.1.name, .null, false⟩] else []

/-- What is left of a child that its condition chose. -/
def chosenPart (zoom : Nat) (inInput : Bool) (x : NodeKey × Node) : List Entry :=
  match x.2.resolve zoom inInput with
  | some v => [⟨x.1.name, v, true⟩]
  | none => []

variable {zoom : Nat} {inInput : Bool} {x : NodeKey × Node}
  {before after children : List (NodeKey × Node)}

/-! ## One child -/

/-- The first true condition contributes its part, and any other child its plain part. -/
theorem resolveChildren_cons (zoom : Nat) (inInput matched : Bool) (x : NodeKey × Node)
    (rest : List (NodeKey × Node)) : resolveChildren zoom inInput matched (x :: rest) =
      if x.1.holds zoom && !matched then
        chosenPart zoom inInput x ++ resolveChildren zoom inInput true rest
      else plainPart zoom inInput x ++ resolveChildren zoom inInput matched rest := by
  obtain ⟨⟨name, condition⟩, child⟩ := x
  rw [resolveChildren]
  cases condition with
  | none => rfl
  | some c => rfl

theorem isSome_of_holds {key : NodeKey} (holds : key.holds zoom = true) :
    key.condition.isSome = true := by
  cases given : key.condition with
  | none => simp [NodeKey.holds, given] at holds
  | some c => rfl

theorem of_mem_plainPart {e : Entry} (mem : e ∈ plainPart zoom inInput x) :
    e.conditional = false ∧ e.name = x.1.name ∧ x.1.condition = none ∧
      (x.2.resolve zoom (inInput || x.1.isInput) = some e.value ∨
        inInput = true ∧ e.value = .null) := by
  unfold plainPart at mem
  split at mem
  · cases mem
  · next plain =>
    have plain : x.1.condition = none := by simpa using plain
    split at mem
    · next left =>
      rw [List.mem_singleton.mp mem]
      exact ⟨rfl, rfl, plain, .inl left⟩
    · split at mem
      · next inputs =>
        rw [List.mem_singleton.mp mem]
        exact ⟨rfl, rfl, plain, .inr ⟨inputs, rfl⟩⟩
      · cases mem

theorem mem_chosenPart {e : Entry} : e ∈ chosenPart zoom inInput x ↔
    e.conditional = true ∧ e.name = x.1.name ∧ x.2.resolve zoom inInput = some e.value := by
  obtain ⟨name, value, conditional⟩ := e
  unfold chosenPart
  cases x.2.resolve zoom inInput with
  | none => simp
  | some v =>
    simp only [List.mem_singleton, Entry.mk.injEq, Option.some.injEq]
    constructor
    · rintro ⟨rfl, rfl, rfl⟩
      exact ⟨rfl, rfl, rfl⟩
    · rintro ⟨rfl, rfl, rfl⟩
      exact ⟨rfl, rfl, rfl⟩

/-- What is left of children is left of one of them, by its plain key or by its true condition. -/
theorem exists_part : ∀ {children : List (NodeKey × Node)} {matched : Bool} {e : Entry},
    e ∈ resolveChildren zoom inInput matched children → ∃ x ∈ children,
      e ∈ plainPart zoom inInput x ∨ x.1.holds zoom = true ∧ e ∈ chosenPart zoom inInput x
  | x :: rest, matched, e, mem => by
    have later : ∀ {matched}, e ∈ resolveChildren zoom inInput matched rest → ∃ y ∈ x :: rest,
        e ∈ plainPart zoom inInput y ∨ y.1.holds zoom = true ∧ e ∈ chosenPart zoom inInput y := by
      intro matched mem
      obtain ⟨y, inside, part⟩ := exists_part mem
      exact ⟨y, List.mem_cons_of_mem x inside, part⟩
    rw [resolveChildren_cons] at mem
    split at mem
    · next first =>
      have holds : x.1.holds zoom = true := (Bool.and_eq_true_iff.mp first).1
      rcases List.mem_append.mp mem with mem | mem
      · exact ⟨x, List.mem_cons_self, .inr ⟨holds, mem⟩⟩
      · exact later mem
    · rcases List.mem_append.mp mem with mem | mem
      · exact ⟨x, List.mem_cons_self, .inl mem⟩
      · exact later mem

theorem chosenPart_length (zoom : Nat) (inInput : Bool) (x : NodeKey × Node) :
    (chosenPart zoom inInput x).length ≤ 1 := by
  unfold chosenPart
  split
  · exact Nat.le_refl 1
  · exact Nat.zero_le 1

theorem plainPart_names (zoom : Nat) (inInput : Bool) (x : NodeKey × Node) :
    ((plainPart zoom inInput x).map Entry.name).Sublist
      (if x.1.condition.isNone then [x.1.name] else []) := by
  unfold plainPart
  cases x.1.condition with
  | some c => exact List.Sublist.refl []
  | none =>
    simp only [Option.isSome_none, Bool.false_eq_true, if_false, Option.isNone_none, if_true]
    split
    · exact List.Sublist.refl _
    · split
      · exact List.Sublist.refl _
      · exact List.nil_sublist _

/-! ## All children -/

theorem resolveChildren_true (zoom : Nat) (inInput : Bool) :
    ∀ children : List (NodeKey × Node), resolveChildren zoom inInput true children =
      children.flatMap (plainPart zoom inInput)
  | [] => rfl
  | x :: rest => by
    rw [resolveChildren_cons, resolveChildren_true zoom inInput rest]
    simp

/-- Before the first true condition the plain keys alone contribute. -/
theorem resolveChildren_append (zoom : Nat) (inInput matched : Bool)
    (rest : List (NodeKey × Node)) : ∀ {before : List (NodeKey × Node)},
    (∀ y ∈ before, y.1.holds zoom = false) →
    resolveChildren zoom inInput matched (before ++ rest) =
      before.flatMap (plainPart zoom inInput) ++ resolveChildren zoom inInput matched rest
  | [], _ => rfl
  | y :: before, untrue => by
    obtain ⟨here, untrue⟩ := List.forall_mem_cons.mp untrue
    have later := resolveChildren_append zoom inInput matched rest untrue
    rw [List.cons_append, resolveChildren_cons, later]
    simp [here]

/-- The first true condition contributes its part in its place among the plain keys. -/
theorem resolveChildren_first (untrue : ∀ y ∈ before, y.1.holds zoom = false)
    (holds : x.1.holds zoom = true) :
    resolveChildren zoom inInput false (before ++ x :: after) =
      before.flatMap (plainPart zoom inInput) ++ chosenPart zoom inInput x ++
        after.flatMap (plainPart zoom inInput) := by
  rw [resolveChildren_append zoom inInput false _ untrue, resolveChildren_cons, resolveChildren_true]
  simp [holds]

theorem resolveChildren_none (untrue : ∀ y ∈ children, y.1.holds zoom = false) :
    resolveChildren zoom inInput false children = children.flatMap (plainPart zoom inInput) := by
  have whole := resolveChildren_append zoom inInput false [] untrue
  rw [List.append_nil] at whole
  rw [whole]
  exact List.append_nil _

/-! ## Plain keys and conditions apart -/

theorem plainParts_conditional {e : Entry} (mem : e ∈ children.flatMap (plainPart zoom inInput)) :
    e.conditional = false := by
  obtain ⟨x, _, here⟩ := List.mem_flatMap.mp mem
  exact (of_mem_plainPart here).1

/-- Of all children with conditions the first true one contributes, if anything is left of it. -/
theorem resolveChildren_conditional (zoom : Nat) (inInput : Bool)
    (children : List (NodeKey × Node)) :
    (resolveChildren zoom inInput false children).filter (·.conditional) =
      (children.find? (·.1.holds zoom)).toList.flatMap (chosenPart zoom inInput) := by
  have dropped : ∀ xs : List (NodeKey × Node),
      (xs.flatMap (plainPart zoom inInput)).filter (·.conditional) = [] := fun xs =>
    List.filter_eq_nil_iff.mpr fun e mem => by simp [plainParts_conditional mem]
  cases found : children.find? (·.1.holds zoom) with
  | none =>
    have untrue : ∀ y ∈ children, y.1.holds zoom = false := by simpa using found
    rw [resolveChildren_none untrue, dropped]
    rfl
  | some x =>
    obtain ⟨holds, before, after, rfl, untrue⟩ := List.find?_eq_some_iff_append.mp found
    have kept : (chosenPart zoom inInput x).filter (·.conditional) = chosenPart zoom inInput x :=
      List.filter_eq_self.mpr fun e mem => (mem_chosenPart.mp mem).1
    rw [resolveChildren_first (by simpa using untrue) holds]
    simp [dropped, kept]

theorem conditional_length (zoom : Nat) (inInput : Bool) (children : List (NodeKey × Node)) :
    ((resolveChildren zoom inInput false children).filter (·.conditional)).length ≤ 1 := by
  rw [resolveChildren_conditional]
  cases children.find? (·.1.holds zoom) with
  | none => exact Nat.zero_le 1
  | some x => simpa using chosenPart_length zoom inInput x

/-- The plain keys contribute the same, in document order, whatever conditions stand between them. -/
theorem resolveChildren_unconditional (zoom : Nat) (inInput : Bool)
    (children : List (NodeKey × Node)) :
    (resolveChildren zoom inInput false children).filter (!·.conditional) =
      children.flatMap (plainPart zoom inInput) := by
  have kept : ∀ xs : List (NodeKey × Node), (xs.flatMap (plainPart zoom inInput)).filter
      (!·.conditional) = xs.flatMap (plainPart zoom inInput) := fun xs =>
    List.filter_eq_self.mpr fun e mem => by simp [plainParts_conditional mem]
  cases found : children.find? (·.1.holds zoom) with
  | none =>
    have untrue : ∀ y ∈ children, y.1.holds zoom = false := by simpa using found
    rw [resolveChildren_none untrue, kept]
  | some x =>
    obtain ⟨holds, before, after, rfl, untrue⟩ := List.find?_eq_some_iff_append.mp found
    have dropped : (chosenPart zoom inInput x).filter (!·.conditional) = [] :=
      List.filter_eq_nil_iff.mpr fun e mem => by simp [(mem_chosenPart.mp mem).1]
    have own : plainPart zoom inInput x = [] := if_pos (isSome_of_holds holds)
    rw [resolveChildren_first (by simpa using untrue) holds]
    simp [kept, dropped, own]

theorem plainParts_names (zoom : Nat) (inInput : Bool) : ∀ children : List (NodeKey × Node),
    ((children.flatMap (plainPart zoom inInput)).map Entry.name).Sublist
      ((children.filter (·.1.condition.isNone)).map (·.1.name))
  | [] => List.Sublist.refl []
  | x :: rest => by
    have here := plainPart_names zoom inInput x
    have later := plainParts_names zoom inInput rest
    have split : ((x :: rest).filter (·.1.condition.isNone)).map (·.1.name) =
        (if x.1.condition.isNone then [x.1.name] else []) ++
          (rest.filter (·.1.condition.isNone)).map (·.1.name) := by
      rw [List.filter_cons]
      split <;> rfl
    rw [split, List.flatMap_cons, List.map_append]
    exact here.append later

/-! ## Mappings of conditions -/

/-- A mapping of conditions stands for the value of the first true one. -/
theorem resolve_conditions {entries : List (Value × Value)} {node : Node} (keys : ZoomKeys entries)
    (read : parse (.mapping entries) = .ok node) (zoom : Nat) (inInput : Bool) :
    match entries.find? (entryHolds zoom) with
    | none => node.resolve zoom inInput = none
    | some e => ∃ child, parse e.2 = .ok child ∧
        node.resolve zoom inInput = child.resolve zoom inInput := by
  obtain ⟨children, given, rfl⟩ := parse_plain keys.not_declaration read
  exact resolve_switch zoom inInput keys given

/-- A choice between values that are left as they are. -/
structure Choice (entries : List (Value × Value)) : Prop where
  keys : ZoomKeys entries
  values : ∀ e ∈ entries, e.2 ≠ .null ∧ ∀ m, e.2 ≠ .mapping m

theorem resolve_value {v : Value} (notNull : v ≠ .null) (zoom : Nat) (inInput : Bool) :
    (Node.value v).resolve zoom inInput = some v := by
  cases v with
  | null => exact absurd rfl notNull
  | _ => rfl

theorem Choice.resolve {entries : List (Value × Value)} (h : Choice entries) {node : Node}
    (read : parse (.mapping entries) = .ok node) {zoom : Nat}
    (one : ∃! e, e ∈ entries ∧ entryHolds zoom e = true) (inInput : Bool) :
    ∃! e, (e ∈ entries ∧ entryHolds zoom e = true) ∧ node.resolve zoom inInput = some e.2 := by
  obtain ⟨e, ⟨mem, holds⟩, unique⟩ := one
  have left := resolve_conditions h.keys read zoom inInput
  cases found : entries.find? (entryHolds zoom) with
  | none => exact absurd holds (List.find?_eq_none.mp found e mem)
  | some chosen =>
    obtain rfl : chosen = e :=
      unique chosen ⟨List.mem_of_find?_eq_some found, List.find?_some found⟩
    obtain ⟨notNull, noMapping⟩ := h.values chosen mem
    simp only [found] at left
    obtain ⟨child, parsed, same⟩ := left
    cases (parse_other noMapping).symm.trans parsed
    rw [resolve_value notNull] at same
    exact ⟨chosen, ⟨⟨mem, holds⟩, same⟩, fun other given => unique other given.1⟩

/-- Of all conditions of one mapping at most the first true one contributes, in its place among the
plain keys, even if nothing is left of it; the plain keys contribute in document order as if there
were no conditions. So a mapping of conditions stands for the value of the first true one, and for
nothing if none is true, and where exactly one condition of a choice is true, exactly its value is
selected. -/
theorem first_condition_counts :
    (∀ (zoom : Nat) (inInput : Bool) (before : List (NodeKey × Node)) (x : NodeKey × Node)
      (after : List (NodeKey × Node)), (∀ y ∈ before, y.1.holds zoom = false) →
      x.1.holds zoom = true → resolveChildren zoom inInput false (before ++ x :: after) =
        before.flatMap (plainPart zoom inInput) ++ chosenPart zoom inInput x ++
          after.flatMap (plainPart zoom inInput)) ∧
    (∀ (zoom : Nat) (inInput : Bool) (children : List (NodeKey × Node)),
      (resolveChildren zoom inInput false children).filter (·.conditional) =
        (children.find? (·.1.holds zoom)).toList.flatMap (chosenPart zoom inInput) ∧
      ((resolveChildren zoom inInput false children).filter (·.conditional)).length ≤ 1 ∧
      (resolveChildren zoom inInput false children).filter (!·.conditional) =
        children.flatMap (plainPart zoom inInput) ∧
      (((resolveChildren zoom inInput false children).filter (!·.conditional)).map
        Entry.name).Sublist ((children.filter (·.1.condition.isNone)).map (·.1.name))) ∧
    (∀ (entries : List (Value × Value)) (node : Node), ZoomKeys entries →
      parse (.mapping entries) = .ok node → ∀ (zoom : Nat) (inInput : Bool),
      match entries.find? (entryHolds zoom) with
      | none => node.resolve zoom inInput = none
      | some e => ∃ child, parse e.2 = .ok child ∧
          node.resolve zoom inInput = child.resolve zoom inInput) ∧
    ∀ entries : List (Value × Value), Choice entries →
      ∃ node, parse (.mapping entries) = .ok node ∧ ∀ zoom,
        (∃! e, e ∈ entries ∧ entryHolds zoom e = true) → ∀ inInput,
        ∃! e, (e ∈ entries ∧ entryHolds zoom e = true) ∧ node.resolve zoom inInput = some e.2 := by
  refine ⟨fun _ _ _ _ _ untrue holds => resolveChildren_first untrue holds,
    fun zoom inInput children => ?_,
    fun _ _ keys read zoom inInput => resolve_conditions keys read zoom inInput,
    fun entries choice => ?_⟩
  · have unconditional := resolveChildren_unconditional zoom inInput children
    refine ⟨resolveChildren_conditional zoom inInput children,
      conditional_length zoom inInput children, unconditional, ?_⟩
    rw [unconditional]
    exact plainParts_names zoom inInput children
  · obtain ⟨node, read⟩ := parse_of_keys (fun e mem => .inr (choice.keys e mem))
      fun e mem => ⟨_, parse_other (choice.values e mem).2⟩
    exact ⟨node, read, fun zoom one inInput => choice.resolve read one inInput⟩

/-- Two conditions that are both true at zoom level seven, among plain keys. Nothing is left of the
first one. -/
def shadowedEntries : List (Value × Value) :=
  [(.string "a", .bool true), (.string "zoom>=5", .null), (.string "b", .bool false),
    (.string "zoom<9", .string "hidden")]

/-- One value below zoom level three, another one from there on. -/
def nearOrFar : List (Value × Value) :=
  [(.string "zoom<3", .string "near.tif"), (.string "zoom>=3", .string "far.tif")]

theorem nearOrFar_choice : Choice nearOrFar := by
  refine ⟨fun e mem => ?_, fun e mem => ?_⟩
  · have conditions : ∀ k ∈ nearOrFar.map (·.1), (condition? k).isSome = true := by decide
    exact conditions e.1 (List.mem_map_of_mem mem)
  · simp only [nearOrFar, List.mem_cons, List.not_mem_nil, or_false] at mem
    rcases mem with rfl | rfl
    · exact ⟨by simp, by simp⟩
    · exact ⟨by simp, by simp⟩

theorem nearOrFar_one : ∃! e, e ∈ nearOrFar ∧ entryHolds 5 e = true := by
  refine ⟨(.string "zoom>=3", .string "far.tif"), ⟨List.mem_of_mem_tail List.mem_cons_self, by decide⟩,
    fun e given => ?_⟩
  obtain ⟨mem, holds⟩ := given
  simp only [nearOrFar, List.mem_cons, List.not_mem_nil, or_false] at mem
  rcases mem with rfl | rfl
  · have other : entryHolds 5 (.string "zoom<3", .string "near.tif") = false := by decide
    rw [other] at holds
    cases holds
  · rfl

/-- The first true condition leaves nothing, and no later one takes over; of two conditions of which
one is true its value is selected. -/
theorem first_condition_counts_shadowed :
    (∃ before x after, parseChildren shadowedEntries = .ok (before ++ x :: after) ∧
      (∀ y ∈ before, y.1.holds 7 = false) ∧ x.1.holds 7 = true ∧
      resolveChildren 7 false false (before ++ x :: after) =
        [⟨"a", .bool true, false⟩, ⟨"b", .bool false, false⟩]) ∧
    Choice nearOrFar ∧ (∃! e, e ∈ nearOrFar ∧ entryHolds 5 e = true) ∧
    ∃ node, parse (.mapping nearOrFar) = .ok node ∧
      node.resolve 5 true = some (.string "far.tif") ∧
      ∃! e, (e ∈ nearOrFar ∧ entryHolds 5 e = true) ∧ node.resolve 5 true = some e.2 := by
  obtain ⟨split, -, mappings, choices⟩ := first_condition_counts
  refine ⟨⟨[(⟨"a", none⟩, .value (.bool true))], (⟨"zoom>=5", some ⟨.ge, 5⟩⟩, .value .null),
    [(⟨"b", none⟩, .value (.bool false)), (⟨"zoom<9", some ⟨.lt, 9⟩⟩, .value (.string "hidden"))],
    rfl, by decide, by decide, ?_⟩, nearOrFar_choice, nearOrFar_one, ?_⟩
  · rw [split 7 false _ _ _ (by decide) (by decide)]
    rfl
  · obtain ⟨node, read, selects⟩ := choices nearOrFar nearOrFar_choice
    obtain ⟨child, parsed, same⟩ : ∃ child, parse (.string "far.tif") = .ok child ∧
        node.resolve 5 true = child.resolve 5 true :=
      mappings nearOrFar node nearOrFar_choice.keys read 5 true
    cases parsed
    exact ⟨node, read, same, selects 5 nearOrFar_one true⟩

end Node

end ZoomConfig
