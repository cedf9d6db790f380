import ZoomConfig.Json.Reader
import ZoomConfig.Json.Writer
/-!
Text between quotes.

What `quote` writes is read back by `readText` (`readText_quote`), so the text behind a quoted text
tells where it ends and what it holds (`quote_append_inj`).
-/
namespace ZoomConfig.Json

variable {c : Char} {rest : List Char}

/-- An escape by number is read as its character, if it is not one of a pair. -/
theorem readText_numbered {a b c d : Char} {n : Nat} (number : hexFour? a b c d = some n)
    (low : n < 0xD800) (rest : List Char) :
    readText ('\\' :: 'u' :: a :: b :: c :: d :: rest) =
      (readText rest).map fun p => (Char.ofNat n :: p.1, p.2) := by
  rw [readText.eq_def]
  split
  · rename_i h
    cases h
  · rename_i h
    cases h
  · rename_i h
    cases h
    -- Another escape follows, but this one is not the first of a pair.
    simp only [number, Option.bind_eq_bind, Option.bind_some]
    rw [if_neg (by omega), if_neg (by omega)]
    cases readText _ <;> rfl
  · rename_i h
    cases h
    simp only [number, Option.bind_eq_bind, Option.bind_some]
    rw [if_neg (by omega)]
    cases readText _ <;> rfl
  · rename_i single h
    cases h
    exact (single a b c d rest rfl rfl).elim
  · rename_i noEscape h
    cases h
    exact (noEscape _ _ rfl rfl).elim

theorem readText_lettered {letter : Char} (short : shortEscape? letter = some c) :
    readText ('\\' :: letter :: rest) = (readText rest).map fun p => (c :: p.1, p.2) := by
  have notNumbered : letter ≠ 'u' := by
    intro h
    rw [h] at short
    cases short
  rw [readText.eq_def]
  split
  · rename_i h
    cases h
  · rename_i h
    cases h
  · rename_i h
    cases h
    exact absurd rfl notNumbered
  · rename_i h
    cases h
    exact absurd rfl notNumbered
  · rename_i h
    cases h
    rw [short]
    simp only [Option.bind_eq_bind, Option.bind_some]
    cases readText _ <;> rfl
  · rename_i noEscape h
    cases h
    exact (noEscape _ _ rfl rfl).elim

theorem readText_plain (quote : c ≠ '"') (backslash : c ≠ '\\') (printed : 32 ≤ c.toNat) :
    readText (c :: rest) = (readText rest).map fun p => (c :: p.1, p.2) := by
  rw [readText.eq_def]
  split
  · rename_i h
    cases h
  · rename_i h
    cases h
    exact absurd rfl quote
  · rename_i h
    cases h
    exact absurd rfl backslash
  · rename_i h
    cases h
    exact absurd rfl backslash
  · rename_i h
    cases h
    exact absurd rfl backslash
  · rename_i h
    cases h
    rw [if_neg (by omega)]
    cases readText _ <;> rfl

theorem hexFour?_hexDigit : ∀ n < 32, hexFour? '0' '0' (hexDigit (n / 16)) (hexDigit n) = some n := by
  decide

theorem eq_of_toNat {d : Char} (h : c.toNat = d.toNat) : c = d := Char.toNat_inj.1 h

theorem readText_escape :
    readText (escape c ++ rest) = (readText rest).map fun p => (c :: p.1, p.2) := by
  unfold escape
  split
  · rename_i h
    exact readText_lettered (by rw [h]; rfl)
  split
  · rename_i h
    exact readText_lettered (by rw [h]; rfl)
  split
  · rename_i h
    rw [show c = Char.ofNat 8 from eq_of_toNat h]
    exact readText_lettered rfl
  split
  · rename_i h
    rw [show c = Char.ofNat 12 from eq_of_toNat h]
    exact readText_lettered rfl
  split
  · rename_i h
    exact readText_lettered (by rw [h]; rfl)
  split
  · rename_i h
    exact readText_lettered (by rw [h]; rfl)
  split
  · rename_i h
    exact readText_lettered (by rw [h]; rfl)
  split
  · rename_i control
    have read := readText_numbered (hexFour?_hexDigit c.toNat control) (by omega) rest
    rwa [Char.ofNat_toNat] at read
  · rename_i notQuote notBackslash _ _ _ _ _ notControl
    exact readText_plain notQuote notBackslash (by omega)

/-- Text between quotes is read back, up to the closing quote. -/
theorem readText_quote (s rest : List Char) :
    readText (s.flatMap escape ++ '"' :: rest) = some (s, rest) := by
  induction s with
  | nil => rw [List.flatMap_nil, List.nil_append, readText]
  | cons c s ih => rw [List.flatMap_cons, List.append_assoc, readText_escape, ih, Option.map_some]

/-- A quoted text ends where it says. -/
theorem quote_append_inj {s s' : String} {rest' : List Char}
    (h : quote s ++ rest = quote s' ++ rest') : s = s' ∧ rest = rest' := by
  have inner : s.toList.flatMap escape ++ '"' :: rest = s'.toList.flatMap escape ++ '"' :: rest' := by
    simpa [quote] using h
  have read := readText_quote s.toList rest
  rw [inner, readText_quote, Option.some.injEq, Prod.mk.injEq] at read
  exact ⟨String.toList_inj.1 read.1.symm, read.2.symm⟩

end ZoomConfig.Json
