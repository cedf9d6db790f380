import ZoomConfig.Decimal.Read
import ZoomConfig.Json.Basic
import ZoomConfig.Proofs.Decimal.Characters
import ZoomConfig.Proofs.Decimal.Parts
/-!
The text of a number determines the number.

`digits?` takes the digits of a positive number from its text. What a layout writes has the value of
the shortest digits (`positive_value`), however the point is placed, so no two finite doubles have
one text (`write_injective`).
-/
namespace ZoomConfig

namespace Decimal

/-! ## Digits -/

theorem digitsValue_eq (cs : List Char) : digitsValue cs = Nat.ofDigitChars 10 cs 0 := rfl

theorem digitsValue_toDigits (n : Nat) : digitsValue (Nat.toDigits 10 n) = n := by
  rw [digitsValue_eq, Nat.ofDigitChars_ten_toDigits]

theorem digitsValue_append_zeros (cs : List Char) (n : Nat) :
    digitsValue (cs ++ List.replicate n '0') = 10 ^ n * digitsValue cs := by
  rw [digitsValue_eq, Nat.ofDigitChars_append, Nat.ofDigitChars_replicate_zero]
  rfl

theorem digitsValue_zeros_append (cs : List Char) (n : Nat) :
    digitsValue (List.replicate n '0' ++ cs) = digitsValue cs := by
  rw [digitsValue_eq, Nat.ofDigitChars_append, Nat.ofDigitChars_replicate_zero]
  rfl

theorem toDigits_isDigit (n : Nat) : ∀ c ∈ Nat.toDigits 10 n, c.isDigit = true := fun _ hc =>
  Nat.isDigit_of_mem_toDigits (by decide) (by decide) hc

theorem spanDigits_append {ds : List Char} (rest : List Char) (digits : ∀ c ∈ ds, c.isDigit = true)
    (stop : ∀ c ∈ rest.head?, c.isDigit = false) : spanDigits (ds ++ rest) = (ds, rest) := by
  unfold spanDigits
  rw [List.span_eq_takeWhile_dropWhile, List.takeWhile_append_of_pos digits,
    List.dropWhile_append_of_pos digits]
  cases rest with
  | nil => simp
  | cons c rest =>
    have : c.isDigit = false := stop c rfl
    simp [this]

/-- The digits after a point, if there is one, and the rest. -/
def fraction : List Char → List Char × List Char
  | '.' :: rest => spanDigits rest
  | rest => ([], rest)

theorem fraction_point (cs : List Char) : fraction ('.' :: cs) = spanDigits cs := rfl

/-- The digits of a text without a sign. -/
def digits? (cs : List Char) : Option Digits :=
  let (whole, rest) := spanDigits cs
  let (decimals, rest) := fraction rest
  (exponent? rest).map fun e => ⟨digitsValue (whole ++ decimals), e - decimals.length⟩

theorem digits?_point (whole decimals rest : List Char)
    (digitsWhole : ∀ c ∈ whole, c.isDigit = true)
    (digitsDecimals : ∀ c ∈ decimals, c.isDigit = true)
    (stop : ∀ c ∈ rest.head?, c.isDigit = false) :
    digits? (whole ++ '.' :: (decimals ++ rest)) = (exponent? rest).map fun e =>
      ⟨digitsValue (whole ++ decimals), e - decimals.length⟩ := by
  unfold digits?
  rw [spanDigits_append _ digitsWhole (by simp)]
  dsimp only
  rw [fraction_point, spanDigits_append _ digitsDecimals stop]

theorem digits?_whole (whole rest : List Char) (digitsWhole : ∀ c ∈ whole, c.isDigit = true)
    (stop : ∀ c ∈ rest.head?, c.isDigit = false ∧ c ≠ '.') :
    digits? (whole ++ rest) = (exponent? rest).map fun e => ⟨digitsValue whole, e⟩ := by
  have noPoint : fraction rest = ([], rest) := by
    unfold fraction
    split
    · exact absurd rfl (stop '.' rfl).2
    · rfl
  unfold digits?
  rw [spanDigits_append _ digitsWhole fun c hc => (stop c hc).1]
  dsimp only
  rw [noPoint]
  simp

namespace Layout

/-- Is what follows a whole number nothing, or a point and a zero? -/
def Plain (l : Layout) : Prop := l.wholeTail = "" ∨ l.wholeTail = ".0"

variable {l : Layout} {n : Nat} {k : Int} {ds : List Char}

theorem zeros_isDigit (j : Nat) : ∀ c ∈ List.replicate j '0', c.isDigit = true := by
  intro c hc
  rw [List.eq_of_mem_replicate hc]
  rfl

theorem plain_value (tail : l.Plain) (digits : ∀ c ∈ ds, c.isDigit = true)
    (value : digitsValue ds = n) :
    ∃ d, digits? (l.plain ds (k + ds.length)).toList = some d ∧ d.value = Digits.value ⟨n, k⟩ := by
  unfold plain
  split
  · -- `0.000123`
    rename_i least
    refine ⟨⟨n, k⟩, ?_, rfl⟩
    have digits' : ∀ c ∈ List.replicate (k + ds.length).natAbs '0' ++ ds, c.isDigit = true := by
      intro c hc
      rcases List.mem_append.1 hc with hc | hc
      · exact zeros_isDigit _ c hc
      · exact digits c hc
    have read := digits?_point ['0'] _ [] (by simp) digits' (by simp)
    rw [List.append_nil] at read
    simp only [String.toList_append, String.toList_ofList]
    refine read.trans ?_
    have value' : digitsValue (['0'] ++ (List.replicate (k + ds.length).natAbs '0' ++ ds)) = n := by
      rw [← value, ← digitsValue_zeros_append ds (k + ds.length).natAbs]
      exact digitsValue_zeros_append _ 1
    rw [value', List.length_append, List.length_replicate]
    simp only [exponent?, Option.map_some]
    congr 2
    omega
  · dsimp only
    split
    · -- `1230` or `1230.0`
      rename_i long
      have digits' : ∀ c ∈ ds ++ List.replicate ((k + ds.length).toNat - ds.length) '0',
          c.isDigit = true := by
        intro c hc
        rcases List.mem_append.1 hc with hc | hc
        · exact digits c hc
        · exact zeros_isDigit _ c hc
      obtain ⟨j, hj⟩ : ∃ j : Nat, k = j := Int.eq_ofNat_of_zero_le (by omega)
      have zeros : (k + ds.length).toNat - ds.length = j := by omega
      rw [zeros] at digits' ⊢
      rw [String.toList_append, String.toList_ofList]
      rcases tail with tail | tail
      · refine ⟨⟨10 ^ j * n, 0⟩, ?_, ?_⟩
        · rw [tail, String.toList_empty]
          rw [digits?_whole _ _ digits' (by simp), digitsValue_append_zeros, value]
          rfl
        · unfold Digits.value
          rw [hj]
          push_cast
          rw [zpow_natCast]
          norm_num
          ring
      · refine ⟨⟨10 ^ (j + 1) * n, -1⟩, ?_, ?_⟩
        · have read := digits?_point _ _ [] digits' (zeros_isDigit 1) (by simp)
          rw [tail]
          refine read.trans ?_
          rw [List.append_assoc, List.replicate_append_replicate, digitsValue_append_zeros, value]
          rfl
        · unfold Digits.value
          rw [hj]
          push_cast
          rw [zpow_natCast, pow_succ]
          norm_num
          ring
    · -- `1.23`
      rename_i high short
      refine ⟨⟨n, k⟩, ?_, rfl⟩
      have read := digits?_point (ds.take (k + ds.length).toNat)
        (ds.drop (k + ds.length).toNat) []
        (fun c hc => digits c (List.mem_of_mem_take hc))
        (fun c hc => digits c (List.mem_of_mem_drop hc)) (by simp)
      rw [String.toList_ofList, ← List.append_nil (ds.drop _)]
      refine read.trans ?_
      rw [List.take_append_drop, value, List.length_drop]
      simp only [exponent?, Option.map_some]
      congr 2
      omega

theorem exponent?_text (e : Int) :
    exponent? ("e" ++ (if e < 0 then "-" else if l.plusSign then "+" else "") ++
      toString e.natAbs).toList = some e := by
  have digits := toDigits_isDigit e.natAbs
  have value := digitsValue_toDigits e.natAbs
  have nonempty : Nat.toDigits 10 e.natAbs ≠ [] := Nat.toDigits_ne_nil
  rw [Nat.toString_eq_ofList_toDigits, String.toList_append, String.toList_append]
  simp only [String.toList_ofList]
  generalize Nat.toDigits 10 e.natAbs = ds at digits value nonempty
  have all : ds.all Char.isDigit = true := List.all_eq_true.2 digits
  have empty : ds.isEmpty = false := by simpa using nonempty
  -- No digit is taken for a sign.
  have unsigned : sign ds = (false, ds) := by
    unfold sign
    split
    · exact absurd (digits '-' (by simp)) (by decide)
    · exact absurd (digits '+' (by simp)) (by decide)
    · rfl
  split
  · have : exponent? ('e' :: '-' :: ds) = some (-(digitsValue ds : Int)) := by
      simp [exponent?, sign, all, empty]
    refine this.trans ?_
    rw [value]
    congr 1
    omega
  · have positive : ∀ cs, sign cs = (false, ds) → exponent? ('e' :: cs) = some e := by
      intro cs h
      simp only [exponent?, true_or, if_true, h, all, empty, value]
      simp
      omega
    split
    · exact positive ('+' :: ds) rfl
    · exact positive ds unsigned

theorem scientific_value (digits : ∀ c ∈ ds, c.isDigit = true) (nonempty : ds ≠ [])
    (value : digitsValue ds = n) :
    digits? (l.scientific ds (k + ds.length)).toList = some ⟨n, k⟩ := by
  have exponent := exponent?_text (l := l) (k + ds.length - 1)
  unfold scientific
  dsimp only
  rw [String.append_assoc, String.append_assoc, String.toList_append, ← String.append_assoc]
  generalize hs : ("e" ++ (if k + ds.length - 1 < 0 then "-" else if l.plusSign then "+" else "") ++
    toString (k + ds.length - 1).natAbs).toList = exponentText at exponent ⊢
  -- The digits end where the exponent begins.
  have stop : ∀ c ∈ exponentText.head?, c = 'e' := by
    intro c hc
    rw [← hs, String.toList_append, String.toList_append] at hc
    simpa using hc.symm
  rcases ds with _ | ⟨d, _ | ⟨d', rest⟩⟩
  · exact absurd rfl nonempty
  · have read := digits?_whole _ exponentText digits
      (fun c hc => by rw [stop c hc]; decide)
    refine (congrArg digits? ?_).trans (read.trans ?_)
    · simp [Char.toString]
    · rw [exponent, value]
      simp
  · have read := digits?_point [d] (d' :: rest) exponentText
      (fun c hc => digits c (by simp_all)) (fun c hc => digits c (List.mem_cons_of_mem d hc))
      (fun c hc => by rw [stop c hc]; decide)
    refine (congrArg digits? ?_).trans (read.trans ?_)
    · simp
    · rw [exponent, List.singleton_append, value]
      simp only [Option.map_some, List.length_cons]
      congr 2
      push_cast
      omega

/-- The text of a positive double has the value of its shortest digits. -/
theorem positive_value (tail : l.Plain) (m : Nat) (e : Int) :
    ∃ d, digits? (l.positive m e).toList = some d ∧ d.value = (shortest l.tie m e).value := by
  have digits := toDigits_isDigit (shortest l.tie m e).digits
  have value := digitsValue_toDigits (shortest l.tie m e).digits
  have plain := plain_value (k := (shortest l.tie m e).exponent) tail digits value
  have scientific := scientific_value (l := l) (k := (shortest l.tie m e).exponent) digits
    Nat.toDigits_ne_nil value
  unfold positive
  dsimp only
  split
  · exact plain
  · split
    · exact plain
    · exact ⟨_, scientific, rfl⟩

/-- The text of a double without its sign. -/
def magnitude (l : Layout) (b : Binary) : String :=
  if b.mantissa = 0 then "0" ++ l.wholeTail else l.positive b.mantissa b.exponent

theorem write_finite {x : Float} {b : Binary} (h : Double.ofFloat x = .finite b) :
    l.write x = (if b.negative then "-" else "") ++ l.magnitude b := by
  unfold write
  rw [h]
  rfl

/-- The text of a double without its sign has a value, which is not zero if the double is not. -/
theorem magnitude_value (tail : l.Plain) {x : Float} {b : Binary}
    (h : Double.ofFloat x = .finite b) :
    ∃ d, digits? (l.magnitude b).toList = some d ∧
      (b.mantissa = 0 ∧ d.value = 0 ∨ Fits b.mantissa b.exponent ∧
        d.value = (shortest l.tie b.mantissa b.exponent).value ∧ d.value ≠ 0) := by
  unfold magnitude
  split
  · rename_i zero
    obtain ⟨d, read, value⟩ := @plain_value l 0 0 ['0'] tail (by simp) rfl
    refine ⟨d, ?_, .inl ⟨zero, ?_⟩⟩
    · exact read
    · rw [value]
      simp [Digits.value]
  · rename_i nonzero
    obtain ⟨d, read, value⟩ := positive_value tail b.mantissa b.exponent
    have fits := fits_of_ofFloat h nonzero
    have positive := (shortest_roundsTo fits l.tie).pos fits
    exact ⟨d, read, .inr ⟨fits, value, by rw [value]; exact positive.ne'⟩⟩

theorem digits?_minus (cs : List Char) : digits? ('-' :: cs) = none := by
  have none : spanDigits ([] ++ '-' :: cs) = ([], '-' :: cs) :=
    spanDigits_append _ (by simp) (by simp)
  unfold digits?
  rw [List.nil_append] at none
  rw [none]
  simp [fraction, exponent?]

/-- No two finite doubles are written alike. -/
theorem write_injective (tail : l.Plain) {x y : Float} (finiteX : x.isFinite = true)
    (finiteY : y.isFinite = true) (h : l.write x = l.write y) : x = y := by
  obtain ⟨a, ha⟩ := ofFloat_of_isFinite finiteX
  obtain ⟨b, hb⟩ := ofFloat_of_isFinite finiteY
  obtain ⟨c, readA, valueA⟩ := magnitude_value tail ha
  obtain ⟨d, readB, valueB⟩ := magnitude_value tail hb
  rw [write_finite ha, write_finite hb] at h
  -- Only the text without a minus sign has digits in front.
  have signs : a.negative = b.negative := by
    have texts := congrArg (fun s => digits? s.toList) h
    cases signA : a.negative <;> cases signB : b.negative <;>
      simp [signA, signB, readA, readB, digits?_minus] at texts ⊢
  rw [signs, String.append_right_inj] at h
  rw [h] at readA
  obtain rfl : d = c := by simpa [readB] using readA
  -- Zero is the only double whose digits have the value zero.
  have parts : a.mantissa = b.mantissa ∧ a.exponent = b.exponent := by
    rcases valueA with ⟨zeroA, value⟩ | ⟨fitsA, value, positive⟩ <;>
      rcases valueB with ⟨zeroB, value'⟩ | ⟨fitsB, value', positive'⟩
    · exact ⟨by rw [zeroA, zeroB], by rw [exponent_of_zero ha zeroA, exponent_of_zero hb zeroB]⟩
    · exact absurd value positive'
    · exact absurd value' positive
    · exact shortest_injective fitsA fitsB l.tie (value.symm.trans value')
  have same : a = b := by
    cases a
    cases b
    simp_all
  rw [same] at ha
  exact ofFloat_injective ha hb

theorem plain_point (tail : l.wholeTail = ".0") (ds : List Char) (place : Int) :
    '.' ∈ (l.plain ds place).toList := by
  unfold plain
  split
  · simp
  · dsimp only
    split
    · simp [tail]
    · simp

/-- A finite double is not written with digits only. -/
theorem write_mark (tail : l.wholeTail = ".0") {x : Float} (finite : x.isFinite = true) :
    '.' ∈ (l.write x).toList ∨ 'e' ∈ (l.write x).toList := by
  obtain ⟨b, hb⟩ := ofFloat_of_isFinite finite
  rw [write_finite hb, String.toList_append]
  suffices '.' ∈ (l.magnitude b).toList ∨ 'e' ∈ (l.magnitude b).toList by
    simp only [List.mem_append]
    exact this.imp .inr .inr
  unfold magnitude
  split
  · simp [tail]
  · unfold positive
    dsimp only
    split
    · exact .inl (plain_point tail _ _)
    · split
      · exact .inl (plain_point tail _ _)
      · simp [scientific]

/-- Besides digits and what follows a whole number, a finite double is written with four signs: the
words of the layout do not occur. -/
theorem write_finite_mem {x : Float} (finite : x.isFinite = true) {c : Char}
    (h : c ∈ (l.write x).toList) :
    c.isDigit ∨ c ∈ ['-', '+', '.', 'e'] ∨ c ∈ l.wholeTail.toList := by
  obtain ⟨b, hb⟩ := ofFloat_of_isFinite finite
  -- Without its words the layout writes the same text, and then the words are no marks of it.
  have wordless : l.write x = { l with nan := "", infinity := "" : Layout }.write x := by
    rw [write_finite hb, write_finite hb]
    rfl
  rw [wordless] at h
  rcases write_mem h with digit | mark
  · exact .inl digit
  · simp only [marks, List.mem_append] at mark
    rcases mark with ((sign | tail) | word) | word
    · exact .inr (.inl sign)
    · exact .inr (.inr tail)
    · simp at word
    · simp at word

end Layout

end Decimal

namespace Number

/-- Integers are finite, and so are doubles that are neither infinite nor no number. -/
def Finite : Number → Prop
  | .int _ => True
  | .float x => x.isFinite = true

theorem int_text_mem {n : Int} {c : Char} (h : c ∈ (toString n).toList) :
    c.isDigit = true ∨ c = '-' := by
  rw [Int.toString_eq_repr] at h
  cases n with
  | ofNat n => exact .inl (Decimal.Layout.nat_text_mem h)
  | negSucc n =>
    have : c = '-' ∨ c ∈ (toString (n + 1)).toList := by simpa [Int.repr] using h
    rcases this with minus | h
    · exact .inr minus
    · exact .inl (Decimal.Layout.nat_text_mem h)

theorem nat_text_injective {m n : Nat} (h : m.repr = n.repr) : m = n := by
  have digits := congrArg (fun s => Decimal.digitsValue s.toList) h
  simpa [Decimal.digitsValue_toDigits] using digits

theorem minus_not_in_nat_text (n : Nat) : '-' ∉ n.repr.toList := by
  intro minus
  have := Decimal.Layout.nat_text_mem minus
  revert this
  decide

theorem int_text_injective {m n : Int} (h : m.repr = n.repr) : m = n := by
  cases m with
  | ofNat m =>
    cases n with
    | ofNat n => exact congrArg Int.ofNat (nat_text_injective h)
    | negSucc n =>
      have text : m.repr = "-" ++ (n + 1).repr := h
      exact absurd (by simp [text]) (minus_not_in_nat_text m)
  | negSucc m =>
    cases n with
    | ofNat n =>
      have text : "-" ++ (m + 1).repr = n.repr := h
      exact absurd (by simp [← text]) (minus_not_in_nat_text n)
    | negSucc n =>
      have text : "-" ++ (m + 1).repr = "-" ++ (n + 1).repr := h
      have := nat_text_injective ((String.append_right_inj "-").1 text)
      congr 1
      omega

theorem int_ne_float {n : Int} {x : Float} (finite : x.isFinite = true) :
    (Number.int n).jsonText ≠ (Number.float x).jsonText := by
  intro h
  have digits : ∀ c, c ∈ ((Number.float x).jsonText).toList → c.isDigit = true ∨ c = '-' := by
    intro c hc
    rw [← h] at hc
    exact int_text_mem hc
  rcases Decimal.Layout.write_mark (l := Decimal.jsonLayout) rfl finite with mark | mark
  · have := digits '.' mark
    revert this
    decide
  · have := digits 'e' mark
    revert this
    decide

theorem jsonText_injective {a b : Number} (finiteA : a.Finite) (finiteB : b.Finite)
    (h : a.jsonText = b.jsonText) : a = b := by
  cases a with
  | int m =>
    cases b with
    | int n => exact congrArg Number.int (int_text_injective h)
    | float y => exact absurd h (int_ne_float finiteB)
  | float x =>
    cases b with
    | int n => exact absurd h.symm (int_ne_float finiteA)
    | float y =>
      have same := Decimal.Layout.write_injective (.inr rfl) finiteA finiteB h
      exact congrArg Number.float same

/-- The characters that finite numbers are written with. -/
def isNumeric (c : Char) : Bool := c.isDigit || c = '-' || c = '+' || c = '.' || c = 'e'

theorem jsonText_mem {n : Number} (finite : n.Finite) {c : Char} (h : c ∈ n.jsonText.toList) :
    isNumeric c = true := by
  unfold isNumeric
  cases n with
  | int n =>
    rcases int_text_mem h with digit | rfl
    · simp [digit]
    · rfl
  | float x =>
    rcases Decimal.Layout.write_finite_mem finite h with digit | sign | tail
    · simp [digit]
    · simp only [List.mem_cons, List.not_mem_nil, or_false] at sign
      rcases sign with rfl | rfl | rfl | rfl <;> rfl
    · have : c = '.' ∨ c = '0' := by simpa [Decimal.jsonLayout] using tail
      rcases this with rfl | rfl <;> rfl

theorem jsonText_ne_nil {n : Number} (finite : n.Finite) : n.jsonText.toList ≠ [] := by
  cases n with
  | int n =>
    have nonempty : ∀ m : Nat, m.repr.toList ≠ [] := by
      intro m
      rw [Nat.toList_repr]
      exact Nat.toDigits_ne_nil
    cases n with
    | ofNat n => exact nonempty n
    | negSucc n =>
      have text : (Number.int (Int.negSucc n)).jsonText = "-" ++ (n + 1).repr := rfl
      simp [text]
  | float x =>
    intro empty
    rcases Decimal.Layout.write_mark (l := Decimal.jsonLayout) rfl finite with mark | mark
    · exact List.ne_nil_of_mem mark empty
    · exact List.ne_nil_of_mem mark empty

end Number

end ZoomConfig
