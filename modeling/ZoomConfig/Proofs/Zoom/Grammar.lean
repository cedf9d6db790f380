import ZoomConfig.Error
import ZoomConfig.Proofs.Decimal.Texts
/-!
The grammar of keys.

A condition is spelled as `zoom`, a sign and a number, with white space after each of them (`Spells`).
A key is plain if it does not begin with `zoom`, or if what follows is neither a sign nor a digit
(`Ordinary`). Reading a key finds exactly the conditions that are spelled and exactly the plain keys,
and every other key is malformed; the text of a condition is a spelling of it
(`classify_grammar`).
-/
namespace ZoomConfig

/-! ## White space at the ends of a text -/

namespace Text

/-- White space alone. -/
def Blank (cs : List Char) : Prop := ∀ x ∈ cs, isBlank x = true

instance (cs : List Char) : Decidable (Blank cs) := List.decidableBAll (isBlank · = true) cs

variable {cs front core back : List Char} {x : Char}

theorem Blank.append (hf : Blank front) (hb : Blank back) : Blank (front ++ back) := by
  intro x mem
  rcases List.mem_append.mp mem with mem | mem
  · exact hf x mem
  · exact hb x mem

theorem blank_nil : Blank [] := fun _ mem => nomatch mem

theorem blank_takeWhile (cs : List Char) : Blank (cs.takeWhile isBlank) := fun _ mem =>
  List.all_eq_true.mp List.all_takeWhile _ mem

theorem trim_split (cs : List Char) :
    ∃ front back, cs = front ++ (trim cs ++ back) ∧ Blank front ∧ Blank back := by
  refine ⟨cs.takeWhile isBlank, ((trimStart cs).reverse.takeWhile isBlank).reverse, ?_,
    blank_takeWhile cs, fun x mem => ?_⟩
  · have tail : trim cs ++ ((trimStart cs).reverse.takeWhile isBlank).reverse = trimStart cs := by
      rw [trim, trimEnd, ← List.reverse_append, List.takeWhile_append_dropWhile, List.reverse_reverse]
    rw [tail]
    exact List.takeWhile_append_dropWhile.symm
  · exact blank_takeWhile _ x (List.mem_reverse.mp mem)

theorem trimStart_append (blank : Blank front) (cs : List Char) :
    trimStart (front ++ cs) = trimStart cs :=
  List.dropWhile_append_of_pos blank

theorem trimEnd_cons (other : isBlank x = false) (cs : List Char) :
    trimEnd (x :: cs) = x :: trimEnd cs := by
  have stop : [x].dropWhile isBlank = [x] := List.dropWhile_cons_of_neg (by simp [other])
  rw [trimEnd, List.reverse_cons, List.dropWhile_append, stop, trimEnd]
  split
  · next none => simp [List.isEmpty_iff.mp none]
  · simp

theorem trim_cons (blank : Blank front) (other : isBlank x = false) (cs : List Char) :
    trim (front ++ x :: cs) = x :: trimEnd cs := by
  have stop : trimStart (x :: cs) = x :: cs := List.dropWhile_cons_of_neg (by simp [other])
  rw [trim, trimStart_append blank, stop, trimEnd_cons other]

theorem trimEnd_append (other : isBlank x = false) (blank : Blank back) (cs : List Char) :
    trimEnd (cs ++ x :: back) = cs ++ [x] := by
  have reversed : Blank back.reverse := fun y mem => blank y (List.mem_reverse.mp mem)
  have stop : (x :: cs.reverse).dropWhile isBlank = x :: cs.reverse :=
    List.dropWhile_cons_of_neg (by simp [other])
  rw [trimEnd, List.reverse_append, List.reverse_cons, List.append_assoc,
    List.dropWhile_append_of_pos reversed, List.singleton_append, stop]
  simp

/-- White space around a text whose ends are something else is all that is taken off. -/
theorem trim_between (nonempty : core ≠ []) (first : ∀ x ∈ core.head?, isBlank x = false)
    (last : ∀ x ∈ core.getLast?, isBlank x = false) (hf : Blank front) (hb : Blank back) :
    trim (front ++ (core ++ back)) = core := by
  have start : trimStart (core ++ back) = core ++ back := by
    obtain ⟨x, rest, rfl⟩ := List.exists_cons_of_ne_nil nonempty
    exact List.dropWhile_cons_of_neg (by simp [first x rfl])
  obtain ⟨before, y, rfl⟩ := List.eq_nil_or_concat core |>.resolve_left nonempty
  rw [List.concat_eq_append] at last start ⊢
  rw [trim, trimStart_append hf, start, List.append_assoc]
  exact trimEnd_append (last y (by simp)) hb before

end Text

open Text

/-! ## Signs and numbers -/

/-- The signs that comparisons are written with. No sign means equality. -/
inductive Comparison.Sign : Comparison → List Char → Prop where
  | none : Sign .eq []
  | eq : Sign .eq ['=']
  | eqEq : Sign .eq ['=', '=']
  | lt : Sign .lt ['<']
  | le : Sign .le ['<', '=']
  | gt : Sign .gt ['>']
  | ge : Sign .ge ['>', '=']

namespace Condition

variable {cs sign digits rest : List Char} {x : Char} {c : Condition} {n : Nat}

theorem not_blank_of_start (start : startsCondition (x :: cs) = true) : isBlank x = false := by
  have cases : ((x = '<' ∨ x = '>') ∨ x = '=') ∨ x.isDigit = true := by
    simpa [startsCondition] using start
  rcases cases with ((rfl | rfl) | rfl) | digit
  · decide
  · decide
  · decide
  · simp only [Char.isDigit, Bool.and_eq_true, decide_eq_true_eq, ge_iff_le, UInt32.le_iff_toNat_le]
      at digit
    have low : 48 ≤ x.toNat := digit.1
    have high : x.toNat ≤ 57 := digit.2
    simp only [isBlank, Bool.or_eq_false_iff, Bool.and_eq_false_iff, decide_eq_false_iff_not,
      beq_eq_false_iff_ne]
    omega

theorem start_of_digit (digit : x.isDigit = true) : startsCondition (x :: cs) = true := by
  simp [startsCondition, digit]

theorem start_of_sign {comparison : Comparison} (written : comparison.Sign sign) (signed : sign ≠ [])
    (cs : List Char) : startsCondition (sign ++ cs) = true := by
  cases written with
  | none => exact absurd rfl signed
  | _ => rfl

theorem splitComparison_eq (cs : List Char) : ∃ sign,
    (splitComparison cs).1.Sign sign ∧ cs = sign ++ (splitComparison cs).2 := by
  unfold splitComparison
  split
  · exact ⟨_, .le, rfl⟩
  · exact ⟨_, .ge, rfl⟩
  · exact ⟨_, .eqEq, rfl⟩
  · exact ⟨_, .eq, rfl⟩
  · exact ⟨_, .lt, rfl⟩
  · exact ⟨_, .gt, rfl⟩
  · exact ⟨_, .none, rfl⟩

theorem splitComparison_append {comparison : Comparison} (written : comparison.Sign sign)
    (other : ∀ x ∈ cs.head?, x ≠ '=' ∧ x ≠ '<' ∧ x ≠ '>') :
    splitComparison (sign ++ cs) = (comparison, cs) := by
  cases cs with
  | nil => cases written <;> rfl
  | cons x cs =>
    obtain ⟨eq, lt, gt⟩ := other x rfl
    cases written <;> simp [splitComparison, eq, lt, gt]

/-- The spellings of a number below `2 ^ 32`, with leading zeros or without. -/
structure Numeral (digits : List Char) (n : Nat) : Prop where
  nonempty : digits ≠ []
  each : ∀ d ∈ digits, d.isDigit = true
  value : Nat.ofDigitChars 10 digits 0 = n
  fits : n < 2 ^ 32

theorem digit_ne (digit : x.isDigit = true) : x ≠ '=' ∧ x ≠ '<' ∧ x ≠ '>' ∧ x ≠ '+' := by
  refine ⟨?_, ?_, ?_, ?_⟩ <;> (rintro rfl; revert digit; decide)

theorem le_maxZoom_iff : n ≤ maxZoom ↔ n < 2 ^ 32 := by
  change n ≤ 2 ^ 32 - 1 ↔ n < 2 ^ 32
  omega

/-- The number that digits spell, if they do. -/
def number? (cs : List Char) : Option Nat :=
  if cs.isEmpty || !cs.all Char.isDigit then none
  else if Decimal.digitsValue cs ≤ maxZoom then some (Decimal.digitsValue cs) else none

theorem number?_eq_some : number? cs = some n ↔ Numeral cs n := by
  constructor
  · intro h
    unfold number? at h
    split at h
    · cases h
    · next read =>
      obtain ⟨fits, value⟩ := Option.ite_none_right_eq_some.mp h
      obtain ⟨nonempty, each⟩ : cs ≠ [] ∧ ∀ d ∈ cs, d.isDigit = true := by simpa using read
      have value : Decimal.digitsValue cs = n := Option.some.inj value
      rw [value] at fits
      exact ⟨nonempty, each, value, le_maxZoom_iff.mp fits⟩
  · intro h
    have value : Decimal.digitsValue cs = n := h.value
    have all : cs.all Char.isDigit = true := List.all_eq_true.mpr h.each
    simp [number?, h.nonempty, all, value, le_maxZoom_iff.mpr h.fits]

theorem operand?_plain (plain : ∀ rest, cs ≠ '+' :: rest) : operand? cs = number? cs := by
  unfold operand?
  split
  · next rest => exact absurd rfl (plain rest)
  · rfl

theorem Numeral.plain (h : Numeral digits n) (rest : List Char) : digits ≠ '+' :: rest := by
  rintro rfl
  exact (digit_ne (h.each '+' List.mem_cons_self)).2.2.2 rfl

/-- A number is read with a plus in front or without. -/
theorem operand?_eq_some : operand? cs = some n ↔
    ∃ plus digits, cs = plus ++ digits ∧ (plus = [] ∨ plus = ['+']) ∧ Numeral digits n := by
  constructor
  · intro h
    by_cases signed : ∃ rest, cs = '+' :: rest
    · obtain ⟨rest, rfl⟩ := signed
      exact ⟨['+'], rest, rfl, .inr rfl, number?_eq_some.mp h⟩
    · rw [operand?_plain fun rest same => signed ⟨rest, same⟩] at h
      exact ⟨[], cs, rfl, .inl rfl, number?_eq_some.mp h⟩
  · rintro ⟨plus, digits, rfl, rfl | rfl, numeral⟩
    · rw [List.nil_append, operand?_plain numeral.plain]
      exact number?_eq_some.mpr numeral
    · exact number?_eq_some.mpr numeral

/-! ## Keys -/

/-- The spellings of a condition: `zoom`, a sign and a number, with white space after each of them.
Only behind a sign may a plus stand in front of the number. -/
inductive Spells (c : Condition) : List Char → Prop where
  | mk {space₁ sign space₂ plus digits space₃ : List Char} (blank₁ : Blank space₁)
    (written : c.comparison.Sign sign) (blank₂ : Blank space₂)
    (optional : plus = [] ∨ plus = ['+'] ∧ sign ≠ []) (numeral : Numeral digits c.operand)
    (blank₃ : Blank space₃) :
    Spells c (['z', 'o', 'o', 'm'] ++ (space₁ ++ (sign ++ (space₂ ++ (plus ++ (digits ++ space₃))))))

/-- The names that are no conditions, not even malformed ones: they do not begin with `zoom`, or a
character that is neither a sign nor a digit comes first after `zoom` and white space. -/
inductive Ordinary : List Char → Prop where
  | other {cs : List Char} (h : ¬['z', 'o', 'o', 'm'] <+: cs) : Ordinary cs
  | word {space rest : List Char} {x : Char} (blank : Blank space) (visible : isBlank x = false)
    (noSign : x ≠ '<' ∧ x ≠ '>' ∧ x ≠ '=') (noDigit : x.isDigit = false) :
    Ordinary (['z', 'o', 'o', 'm'] ++ (space ++ x :: rest))

theorem classify_zoom {key : String} (h : key.toList = ['z', 'o', 'o', 'm'] ++ rest) :
    classify key = classifyRest rest := by
  rw [classify, h]
  rfl

theorem classify_other {key : String} (h : ¬['z', 'o', 'o', 'm'] <+: key.toList) :
    classify key = .plain := by
  unfold classify
  split
  · next rest same => exact absurd ⟨rest, same.symm⟩ h
  · rfl

theorem classifyRest_eq (rest : List Char) : classifyRest rest =
    if startsCondition (trim rest) then
      match operand? (trim (splitComparison (trim rest)).2) with
      | some n => .condition ⟨(splitComparison (trim rest)).1, n⟩
      | none => .malformed
    else .plain := rfl

theorem spells_of_classifyRest (h : classifyRest rest = .condition c) :
    Spells c (['z', 'o', 'o', 'm'] ++ rest) := by
  obtain ⟨front, back, whole, hf, hb⟩ := trim_split rest
  rw [classifyRest_eq] at h
  generalize trim rest = core at whole h
  obtain ⟨sign, written, cut⟩ := splitComparison_eq core
  generalize splitComparison core = split at written cut h
  obtain ⟨front', back', inner, hf', hb'⟩ := trim_split split.2
  split at h
  · next start =>
    split at h
    · next n found =>
      cases h
      obtain ⟨plus, digits, number, optional, numeral⟩ := operand?_eq_some.mp found
      rw [number] at inner
      have noPlus : plus = ['+'] → sign ≠ [] := by
        rintro rfl rfl
        -- Neither white space nor a plus can come first.
        rw [cut, inner] at start
        cases front' with
        | nil => exact absurd start (by simp [startsCondition])
        | cons x _ => simpa [hf' x List.mem_cons_self] using not_blank_of_start start
      rw [whole, cut, inner]
      simp only [List.append_assoc]
      exact .mk hf written hf' (optional.imp_right fun plus => ⟨plus, noPlus plus⟩) numeral
        (hb'.append hb)
    · cases h
  · cases h

/-- The condition is read of a sign and a number that were cut out. -/
theorem classifyRest_condition {tail : List Char} (whole : trim rest = sign ++ tail)
    (start : startsCondition (sign ++ tail) = true) (written : c.comparison.Sign sign)
    (other : ∀ x ∈ tail.head?, x ≠ '=' ∧ x ≠ '<' ∧ x ≠ '>')
    (number : operand? (trim tail) = some c.operand) : classifyRest rest = .condition c := by
  rw [classifyRest_eq, whole, if_pos start, splitComparison_append written other, number]

theorem digit_not_blank (digit : x.isDigit = true) : isBlank x = false := by
  have start : startsCondition [x] = true := start_of_digit digit
  exact not_blank_of_start start

theorem blank_ne (blank : isBlank x = true) : x ≠ '=' ∧ x ≠ '<' ∧ x ≠ '>' := by
  refine ⟨?_, ?_, ?_⟩ <;> (rintro rfl; revert blank; decide)

/-- What a number with or without a plus begins and ends with. -/
structure Edges (number : List Char) : Prop where
  nonempty : number ≠ []
  first : ∀ x ∈ number.head?, isBlank x = false ∧ x ≠ '=' ∧ x ≠ '<' ∧ x ≠ '>'
  last : ∀ x ∈ number.getLast?, isBlank x = false

theorem Numeral.edges {plus : List Char} (h : Numeral digits n)
    (optional : plus = [] ∨ plus = ['+']) : Edges (plus ++ digits) := by
  have last : ∀ x ∈ (plus ++ digits).getLast?, isBlank x = false := by
    intro x mem
    rw [List.getLast?_append_of_ne_nil _ h.nonempty] at mem
    exact digit_not_blank (h.each x (List.mem_of_getLast? mem))
  refine ⟨fun none => h.nonempty (List.append_eq_nil_iff.mp none).2, ?_, last⟩
  intro x mem
  rcases optional with rfl | rfl
  · have digit := h.each x (List.mem_of_head? mem)
    obtain ⟨eq, lt, gt, _⟩ := digit_ne digit
    exact ⟨digit_not_blank digit, eq, lt, gt⟩
  · obtain rfl : '+' = x := by simpa using mem
    decide

/-- The white space between a sign and a number is no part of either. -/
theorem Edges.tail {number space : List Char} (h : Edges number) (blank : Blank space) :
    trim (space ++ number) = number ∧ (space ++ number).getLast? = number.getLast? ∧
      ∀ x ∈ (space ++ number).head?, x ≠ '=' ∧ x ≠ '<' ∧ x ≠ '>' := by
  refine ⟨?_, List.getLast?_append_of_ne_nil _ h.nonempty, ?_⟩
  · have between := trim_between h.nonempty (fun x mem => (h.first x mem).1) h.last blank blank_nil
    rwa [List.append_nil] at between
  · intro x mem
    cases space with
    | nil => exact (h.first x mem).2
    | cons y _ =>
      obtain rfl : y = x := by simpa using mem
      exact blank_ne (blank y List.mem_cons_self)

theorem classify_of_spells {key : String} (h : Spells c key.toList) :
    classify key = .condition c := by
  generalize same : key.toList = cs at h
  cases h with
  | @mk space₁ sign space₂ plus digits space₃ blank₁ written blank₂ optional numeral blank₃ =>
    have operand : operand? (plus ++ digits) = some c.operand :=
      operand?_eq_some.mpr ⟨plus, digits, rfl, optional.imp_right And.left, numeral⟩
    have edges : Edges (plus ++ digits) := numeral.edges (optional.imp_right And.left)
    rw [classify_zoom same]
    by_cases unsigned : sign = []
    · subst unsigned
      obtain rfl : plus = [] := optional.resolve_right fun signed => signed.2 rfl
      have whole : trim (space₁ ++ ([] ++ (space₂ ++ ([] ++ (digits ++ space₃))))) =
          [] ++ digits := by
        have between := trim_between edges.nonempty (fun x mem => (edges.first x mem).1) edges.last
          (blank₁.append blank₂) blank₃
        simpa using between
      have start : startsCondition digits = true := by
        obtain ⟨d, rest, rfl⟩ := List.exists_cons_of_ne_nil numeral.nonempty
        exact start_of_digit (numeral.each d List.mem_cons_self)
      obtain ⟨trimmed, _, other⟩ := edges.tail blank_nil
      have number : operand? (trim digits) = some c.operand := trimmed ▸ operand
      exact classifyRest_condition whole start written other number
    · obtain ⟨trimmed, last, other⟩ := edges.tail blank₂
      have start := start_of_sign written unsigned (space₂ ++ (plus ++ digits))
      have whole : trim (space₁ ++ (sign ++ (space₂ ++ (plus ++ (digits ++ space₃))))) =
          sign ++ (space₂ ++ (plus ++ digits)) := by
        obtain ⟨y, rest, rfl⟩ := List.exists_cons_of_ne_nil unsigned
        have first : ∀ x ∈ (y :: rest ++ (space₂ ++ (plus ++ digits))).head?, isBlank x = false := by
          intro x mem
          cases mem
          exact not_blank_of_start start
        have final : ∀ x ∈ (y :: rest ++ (space₂ ++ (plus ++ digits))).getLast?,
            isBlank x = false := by
          intro x mem
          rw [List.getLast?_append_of_ne_nil _ (by simp [edges.nonempty]), last] at mem
          exact edges.last x mem
        have between := trim_between (by simp) first final blank₁ blank₃
        simpa using between
      refine classifyRest_condition whole start written other ?_
      rw [trimmed]
      exact operand

theorem classify_eq_condition {key : String} :
    classify key = .condition c ↔ Spells c key.toList := by
  refine ⟨fun h => ?_, classify_of_spells⟩
  by_cases zoom : ['z', 'o', 'o', 'm'] <+: key.toList
  · obtain ⟨rest, same⟩ := zoom
    rw [classify_zoom same.symm] at h
    rw [← same]
    exact spells_of_classifyRest h
  · rw [classify_other zoom] at h
    cases h

theorem startsCondition_eq_false : startsCondition (x :: cs) = false ↔
    (x ≠ '<' ∧ x ≠ '>' ∧ x ≠ '=') ∧ x.isDigit = false := by
  simp [startsCondition, and_assoc]

/-- A text after `zoom` makes the key plain exactly if its first visible character does. -/
theorem classifyRest_cons {space : List Char} (blank : Blank space) (visible : isBlank x = false)
    (cs : List Char) :
    classifyRest (space ++ x :: cs) = .plain ↔ startsCondition (x :: cs) = false := by
  have same : startsCondition (x :: trimEnd cs) = startsCondition (x :: cs) := rfl
  rw [classifyRest_eq, trim_cons blank visible, same]
  cases startsCondition (x :: cs) with
  | true =>
    rw [if_pos rfl]
    split <;> simp
  | false => simp

theorem classify_eq_plain {key : String} : classify key = .plain ↔ Ordinary key.toList := by
  constructor
  · intro h
    by_cases zoom : ['z', 'o', 'o', 'm'] <+: key.toList
    · obtain ⟨rest, same⟩ := zoom
      rw [classify_zoom same.symm] at h
      rw [← same]
      have whole := List.takeWhile_append_dropWhile (p := isBlank) (l := rest)
      cases visible : rest.dropWhile isBlank with
      | nil =>
        -- Nothing but white space follows `zoom`, which then is a condition without its number.
        have nothing : trim rest = [] := by
          rw [trim, trimStart, visible]
          rfl
        rw [classifyRest_eq, nothing] at h
        cases h
      | cons x cs =>
        rw [visible] at whole
        have other : isBlank x = false := by
          have stop := List.head?_dropWhile_not isBlank rest
          simpa [visible] using stop
        rw [← whole, classifyRest_cons (blank_takeWhile rest) other, startsCondition_eq_false] at h
        rw [← whole]
        exact .word (blank_takeWhile rest) other h.1 h.2
    · exact .other zoom
  · intro h
    generalize same : key.toList = cs at h
    cases h with
    | other h => exact classify_other (same ▸ h)
    | word blank visible noSign noDigit =>
      rw [classify_zoom same, classifyRest_cons blank visible]
      exact startsCondition_eq_false.mpr ⟨noSign, noDigit⟩

theorem spells_text (small : c.operand < 2 ^ 32) : Spells c c.text.toList := by
  have symbol : c.comparison.Sign c.comparison.symbol.toList := by
    cases c.comparison <;> constructor
  have numeral : Numeral (toString c.operand).toList c.operand := by
    rw [Nat.toString_eq_ofList_toDigits, String.toList_ofList]
    exact ⟨Nat.toDigits_ne_nil, Decimal.toDigits_isDigit c.operand,
      Decimal.digitsValue_toDigits c.operand, small⟩
  have spelled := Spells.mk blank_nil symbol blank_nil (.inl rfl) numeral blank_nil
  simpa [text] using spelled

/-- A key is read as a condition exactly if it is a spelling of it, as a plain name exactly if it is
an ordinary one, and every other key is refused as malformed. The text of a condition is read as that
condition. -/
theorem classify_grammar :
    (∀ (key : String) (c : Condition), classify key = .condition c ↔ Spells c key.toList) ∧
    (∀ key : String, classify key = .plain ↔ Ordinary key.toList) ∧
    (∀ (key : String) (e : ConfigError), (NodeKey.parse key).mapError .ofKey = .error e ↔
      e = .zoomExpression key ∧ (∀ c, ¬Spells c key.toList) ∧ ¬Ordinary key.toList) ∧
    ∀ c : Condition, c.operand < 2 ^ 32 → classify c.text = .condition c := by
  refine ⟨fun _ _ => classify_eq_condition, fun _ => classify_eq_plain, fun key e => ?_,
    fun c small => classify_of_spells (spells_text small)⟩
  simp only [← classify_eq_condition, ← classify_eq_plain]
  unfold NodeKey.parse
  cases classify key with
  | plain => simp [Except.mapError]
  | condition c => simp [Except.mapError]
  | malformed => simp [Except.mapError, ConfigError.ofKey, eq_comm]

/-- White space may stand around a sign and a number, and the number may have a plus and leading
zeros. The greatest number that can be read is below `2 ^ 32`. -/
theorem classify_grammar_spaced :
    (Spells ⟨.ge, 7⟩ "zoom\t>= +007 ".toList ∧
      classify "zoom\t>= +007 " = .condition ⟨.ge, 7⟩) ∧
    (⟨.lt, 4294967295⟩ : Condition).operand < 2 ^ 32 ∧
      classify (text ⟨.lt, 4294967295⟩) = .condition ⟨.lt, 4294967295⟩ := by
  obtain ⟨conditions, -, -, texts⟩ := classify_grammar
  have each : ∀ d ∈ ['0', '0', '7'], d.isDigit = true := List.all_eq_true.mp (by decide)
  have numeral : Numeral ['0', '0', '7'] 7 := ⟨by decide, each, by decide, by decide⟩
  have spelled : Spells ⟨.ge, 7⟩ (['z', 'o', 'o', 'm'] ++ (['\t'] ++ (['>', '='] ++ ([' '] ++
      (['+'] ++ (['0', '0', '7'] ++ [' '])))))) :=
    .mk (by decide) .ge (by decide) (.inr ⟨rfl, by decide⟩) numeral (by decide)
  exact ⟨⟨spelled, (conditions _ _).mpr spelled⟩, by decide, texts _ (by decide)⟩

end Condition

end ZoomConfig
