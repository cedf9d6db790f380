import ZoomConfig.Proofs.Decimal.Texts
import ZoomConfig.Proofs.Json.Quoting
/-!
JSON text determines its value.

A value's text is followed by nothing, a comma or a closing bracket, and the first character tells
the kind of value. So the text of a value with finite numbers tells where it ends and what it holds
(`chars_append_inj`), and no two such values have one text (`compact_injective`).
-/
namespace ZoomConfig.Json

/-! ## Values with finite numbers -/

mutual

/-- Are all numbers finite? -/
def Finite : Json → Prop
  | .number n => n.Finite
  | .array items => FiniteItems items
  | .object members => FiniteMembers members
  | _ => True

/-- Are all numbers of all items finite? -/
def FiniteItems : List Json → Prop
  | [] => True
  | j :: rest => Finite j ∧ FiniteItems rest

/-- Are all numbers of all members' values finite? -/
def FiniteMembers : List (String × Json) → Prop
  | [] => True
  | (_, j) :: rest => Finite j ∧ FiniteMembers rest

end

mutual

/-- It can be decided whether all numbers are finite. -/
def decideFinite : (j : Json) → Decidable j.Finite
  | .number (.int _) => .isTrue trivial
  | .number (.float x) => inferInstanceAs (Decidable (x.isFinite = true))
  | .array items => decideFiniteItems items
  | .object members => decideFiniteMembers members
  | .null | .bool _ | .string _ => .isTrue trivial

/-- So it can of all items. -/
def decideFiniteItems : (items : List Json) → Decidable (FiniteItems items)
  | [] => .isTrue trivial
  | j :: rest =>
    have := decideFinite j
    have := decideFiniteItems rest
    inferInstanceAs (Decidable (j.Finite ∧ FiniteItems rest))

/-- So it can of all members' values. -/
def decideFiniteMembers : (members : List (String × Json)) → Decidable (FiniteMembers members)
  | [] => .isTrue trivial
  | (_, j) :: rest =>
    have := decideFinite j
    have := decideFiniteMembers rest
    inferInstanceAs (Decidable (j.Finite ∧ FiniteMembers rest))

end

instance : DecidablePred Finite := decideFinite

/-! ## The first character -/

/-- The kinds of values. -/
inductive Kind where
  | null
  | bool
  | number
  | string
  | array
  | object

/-- The kind of a value. -/
def kind : Json → Kind
  | .null => .null
  | .bool _ => .bool
  | .number _ => .number
  | .string _ => .string
  | .array _ => .array
  | .object _ => .object

/-- The kind of value that begins with a character. -/
def kindOf? (c : Char) : Option Kind :=
  if c = 'n' then some .null
  else if c = 't' ∨ c = 'f' then some .bool
  else if Number.isNumeric c then some .number
  else if c = '"' then some .string
  else if c = '[' then some .array
  else if c = '{' then some .object
  else none

theorem kindOf?_numeric {c : Char} (h : Number.isNumeric c = true) : kindOf? c = some .number := by
  unfold kindOf?
  rw [if_neg, if_neg, if_pos h]
  · intro letter
    rcases letter with rfl | rfl <;> exact absurd h (by decide)
  · intro letter
    rw [letter] at h
    exact absurd h (by decide)

theorem chars_kind {j : Json} (finite : j.Finite) (rest : List Char) :
    (chars j ++ rest).head?.bind kindOf? = some j.kind := by
  cases j with
  | null => rfl
  | bool b => cases b <;> rfl
  | string s => rfl
  | array items => rfl
  | object members => rfl
  | number n =>
    unfold chars
    cases text : n.jsonText.toList with
    | nil => exact absurd text (Number.jsonText_ne_nil finite)
    | cons c cs => exact kindOf?_numeric (Number.jsonText_mem finite (by simp [text]))

/-! ## Where texts end -/

/-- Nothing follows, or a comma, or a closing bracket. -/
def Stops (rest : List Char) : Prop := ∀ c ∈ rest.head?, c = ',' ∨ c = ']' ∨ c = '}'

theorem number_append_inj {m n : Number} {rest rest' : List Char} (finite : m.Finite)
    (finite' : n.Finite) (stops : Stops rest) (stops' : Stops rest')
    (h : m.jsonText.toList ++ rest = n.jsonText.toList ++ rest') : m = n ∧ rest = rest' := by
  have stop : ∀ {cs}, Stops cs → cs.takeWhile Number.isNumeric = [] := by
    intro cs stops
    cases cs with
    | nil => rfl
    | cons c cs =>
      have : Number.isNumeric c = false := by
        rcases stops c rfl with rfl | rfl | rfl <;> decide
      simp [this]
  have texts := congrArg (List.takeWhile Number.isNumeric) h
  rw [List.takeWhile_append_of_pos fun c hc => Number.jsonText_mem finite hc,
    List.takeWhile_append_of_pos fun c hc => Number.jsonText_mem finite' hc, stop stops,
    stop stops', List.append_nil, List.append_nil] at texts
  rw [texts] at h
  exact ⟨Number.jsonText_injective finite finite' (String.toList_inj.1 texts),
    List.append_cancel_left h⟩

/-- What follows an item. -/
def itemTail : List Json → List Char
  | [] => []
  | j :: rest => ',' :: itemChars (j :: rest)

theorem itemChars_cons (j : Json) (rest : List Json) :
    itemChars (j :: rest) = chars j ++ itemTail rest := by
  cases rest <;> simp [itemChars, itemTail]

/-- What follows a member. -/
def memberTail : List (String × Json) → List Char
  | [] => []
  | m :: rest => ',' :: memberChars (m :: rest)

theorem memberChars_cons (name : String) (j : Json) (rest : List (String × Json)) :
    memberChars ((name, j) :: rest) = quote name ++ ':' :: chars j ++ memberTail rest := by
  cases rest <;> simp [memberChars, memberTail]

theorem itemTail_stops (rest : List Json) (cs : List Char) : Stops (itemTail rest ++ ']' :: cs) := by
  intro c hc
  cases rest <;> simp [itemTail] at hc <;> simp [← hc]

theorem memberTail_stops (rest : List (String × Json)) (cs : List Char) :
    Stops (memberTail rest ++ '}' :: cs) := by
  intro c hc
  cases rest <;> simp [memberTail] at hc <;> simp [← hc]

theorem bool_append_inj {a b : Bool} {rest rest' : List Char}
    (h : chars (.bool a) ++ rest = chars (.bool b) ++ rest') : a = b ∧ rest = rest' := by
  cases a <;> cases b
  · exact ⟨rfl, List.append_cancel_left h⟩
  · cases h
  · cases h
  · exact ⟨rfl, List.append_cancel_left h⟩

mutual

/-- The text of a value ends where it says. -/
theorem chars_append_inj : ∀ (i j : Json) {rest rest' : List Char}, i.Finite → j.Finite →
    Stops rest → Stops rest' → chars i ++ rest = chars j ++ rest' → i = j ∧ rest = rest' := by
  intro i j rest rest' finite finite' stops stops' h
  -- The induction is on the first value. The second has its kind, so both are made alike.
  have kinds : i.kind = j.kind := by
    have kinds := congrArg (fun cs => cs.head?.bind kindOf?) h
    rw [chars_kind finite, chars_kind finite'] at kinds
    exact Option.some.inj kinds
  cases i with
  | null =>
    cases j <;> cases kinds
    exact ⟨rfl, List.append_cancel_left h⟩
  | bool a =>
    cases j <;> cases kinds
    obtain ⟨rfl, same⟩ := bool_append_inj h
    exact ⟨rfl, same⟩
  | number n =>
    cases j <;> cases kinds
    obtain ⟨rfl, same⟩ := number_append_inj finite finite' stops stops' h
    exact ⟨rfl, same⟩
  | string s =>
    cases j <;> cases kinds
    obtain ⟨rfl, same⟩ := quote_append_inj h
    exact ⟨rfl, same⟩
  | array a =>
    cases j <;> cases kinds
    rename_i b
    obtain ⟨rfl, same⟩ := itemChars_append_inj a b finite finite' (by simpa [chars] using h)
    exact ⟨rfl, same⟩
  | object a =>
    cases j <;> cases kinds
    rename_i b
    obtain ⟨rfl, same⟩ := memberChars_append_inj a b finite finite' (by simpa [chars] using h)
    exact ⟨rfl, same⟩

theorem itemChars_append_inj : ∀ (a b : List Json) {rest rest' : List Char}, FiniteItems a →
    FiniteItems b → itemChars a ++ ']' :: rest = itemChars b ++ ']' :: rest' →
      a = b ∧ rest = rest' := by
  intro a b rest rest' finite finite' h
  cases a with
  | nil =>
    cases b with
    | nil => exact ⟨rfl, List.tail_eq_of_cons_eq h⟩
    | cons j b =>
      -- An item does not begin with a bracket that closes.
      have first := congrArg (fun cs => cs.head?.bind kindOf?) h
      rw [itemChars_cons, List.append_assoc] at first
      rw [chars_kind finite'.1] at first
      cases first
  | cons i a =>
    cases b with
    | nil =>
      have first := congrArg (fun cs => cs.head?.bind kindOf?) h
      rw [itemChars_cons, List.append_assoc] at first
      rw [chars_kind finite.1] at first
      cases first
    | cons j b =>
      rw [itemChars_cons, itemChars_cons, List.append_assoc, List.append_assoc] at h
      obtain ⟨rfl, tails⟩ := chars_append_inj i j finite.1 finite'.1 (itemTail_stops a rest)
        (itemTail_stops b rest') h
      -- What follows the first items is again items, or the bracket on both sides.
      have further := @itemChars_append_inj a b rest rest' finite.2 finite'.2
      cases a <;> cases b
      · exact ⟨rfl, List.tail_eq_of_cons_eq tails⟩
      · cases tails
      · cases tails
      · obtain ⟨same, rests⟩ := further (List.tail_eq_of_cons_eq tails)
        exact ⟨by rw [same], rests⟩

theorem memberChars_append_inj : ∀ (a b : List (String × Json)) {rest rest' : List Char},
    FiniteMembers a → FiniteMembers b →
      memberChars a ++ '}' :: rest = memberChars b ++ '}' :: rest' → a = b ∧ rest = rest' := by
  intro a b rest rest' finite finite' h
  cases a with
  | nil =>
    cases b with
    | nil => exact ⟨rfl, List.tail_eq_of_cons_eq h⟩
    | cons n b =>
      -- A member begins with a quote.
      rw [memberChars_cons] at h
      cases h
  | cons m a =>
    obtain ⟨name, i⟩ := m
    cases b with
    | nil =>
      rw [memberChars_cons] at h
      cases h
    | cons n b =>
      obtain ⟨name', j⟩ := n
      simp only [memberChars_cons, List.append_assoc, List.cons_append] at h
      obtain ⟨rfl, values⟩ := quote_append_inj h
      obtain ⟨rfl, tails⟩ := chars_append_inj i j finite.1 finite'.1 (memberTail_stops a rest)
        (memberTail_stops b rest') (List.tail_eq_of_cons_eq values)
      have further := @memberChars_append_inj a b rest rest' finite.2 finite'.2
      cases a <;> cases b
      · exact ⟨rfl, List.tail_eq_of_cons_eq tails⟩
      · cases tails
      · cases tails
      · obtain ⟨same, rests⟩ := further (List.tail_eq_of_cons_eq tails)
        exact ⟨by rw [same], rests⟩

end

/-- No two values with finite numbers have one text. -/
theorem compact_injective {i j : Json} (finite : i.Finite) (finite' : j.Finite)
    (h : i.compact = j.compact) : i = j := by
  have text : chars i ++ [] = chars j ++ [] := by
    rw [List.append_nil, List.append_nil]
    exact String.ofList_injective h
  exact (chars_append_inj i j finite finite' (by simp [Stops]) (by simp [Stops]) text).1

end ZoomConfig.Json
