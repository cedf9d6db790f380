import ZoomConfig.Value.Show
/-!
The characters of numbers.

The text of a number has digits, and the signs and words of its layout (`Layout.write_mem`,
`Number.text_mem`), so it never holds a slash or the key of a declaration.
-/
namespace ZoomConfig

namespace Decimal.Layout

/-- What stands in the text of a double besides digits. -/
def marks (l : Layout) : List Char :=
  ['-', '+', '.', 'e'] ++ l.wholeTail.toList ++ l.nan.toList ++ l.infinity.toList

variable {l : Layout} {digits : List Char} {place : Int} {c : Char}

theorem plain_mem (hd : ∀ c ∈ digits, c.isDigit) (h : c ∈ (l.plain digits place).toList) :
    c.isDigit ∨ c ∈ l.marks := by
  unfold plain at h
  split at h
  · simp only [String.toList_append, String.toList_ofList, List.mem_append, List.mem_replicate] at h
    rcases h with h | ⟨_, rfl⟩ | h
    · have : c = '0' ∨ c = '.' := by simpa using h
      rcases this with rfl | rfl
      · exact .inl rfl
      · simp [marks]
    · exact .inl rfl
    · exact .inl (hd c h)
  · dsimp only at h
    split at h
    · simp only [String.toList_append, String.toList_ofList, List.mem_append,
        List.mem_replicate] at h
      rcases h with (h | ⟨_, rfl⟩) | h
      · exact .inl (hd c h)
      · exact .inl rfl
      · simp [marks, h]
    · simp only [String.toList_ofList, List.mem_append, List.mem_cons] at h
      rcases h with h | rfl | h
      · exact .inl (hd c (List.mem_of_mem_take h))
      · simp [marks]
      · exact .inl (hd c (List.mem_of_mem_drop h))

theorem nat_text_mem {n : Nat} (h : c ∈ (toString n).toList) : c.isDigit := by
  rw [Nat.toString_eq_ofList_toDigits, String.toList_ofList] at h
  exact Nat.isDigit_of_mem_toDigits (by decide) (by decide) h

theorem scientific_mem (hd : ∀ c ∈ digits, c.isDigit) (h : c ∈ (l.scientific digits place).toList) :
    c.isDigit ∨ c ∈ l.marks := by
  simp only [scientific, String.toList_append, List.mem_append] at h
  rcases h with ((h | h) | h) | h
  · have digitOrPoint : c.isDigit ∨ c = '.' := by
      rcases digits with _ | ⟨d, _ | ⟨d', rest⟩⟩
      · obtain rfl : c = '0' := by simpa using h
        exact .inl rfl
      · obtain rfl : c = d := by simpa [Char.toString] using h
        exact .inl (hd c List.mem_cons_self)
      · simp only [String.toList_ofList, List.mem_cons] at h
        rcases h with rfl | rfl | h
        · exact .inl (hd _ List.mem_cons_self)
        · exact .inr rfl
        · exact .inl (hd c (by simp [h]))
    rcases digitOrPoint with digit | rfl
    · exact .inl digit
    · simp [marks]
  · obtain rfl : c = 'e' := by simpa using h
    simp [marks]
  · have plusOrMinus : c = '-' ∨ c = '+' := by
      split at h
      · exact .inl (by simpa using h)
      · split at h
        · exact .inr (by simpa using h)
        · simp at h
    rcases plusOrMinus with rfl | rfl <;> simp [marks]
  · exact .inl (nat_text_mem h)

/-- A double is written with digits and the marks of the layout. -/
theorem write_mem {x : Float} (h : c ∈ (l.write x).toList) : c.isDigit ∨ c ∈ l.marks := by
  have digits : ∀ {n : Nat}, ∀ c ∈ Nat.toDigits 10 n, c.isDigit := fun _ hc =>
    Nat.isDigit_of_mem_toDigits (by decide) (by decide) hc
  have sign : ∀ {b : Bool}, c ∈ (if b then "-" else "").toList → c ∈ l.marks := by
    intro b hc
    cases b
    · simp at hc
    · obtain rfl : c = '-' := by simpa using hc
      simp [marks]
  unfold write at h
  split at h
  · exact .inr (by simp [marks, h])
  · rw [String.toList_append, List.mem_append] at h
    rcases h with h | h
    · exact .inr (sign h)
    · exact .inr (by simp [marks, h])
  · rw [String.toList_append, List.mem_append] at h
    rcases h with h | h
    · exact .inr (sign h)
    · split at h
      · rw [String.toList_append, List.mem_append] at h
        rcases h with h | h
        · obtain rfl : c = '0' := by simpa using h
          exact .inl rfl
        · exact .inr (by simp [marks, h])
      · simp only [positive] at h
        split at h
        · exact plain_mem digits h
        · split at h
          · exact plain_mem digits h
          · exact scientific_mem digits h

end Decimal.Layout

/-- A number is written with digits and the marks of documents. -/
theorem Number.text_mem {n : Number} {c : Char} (h : c ∈ n.text.toList) :
    c.isDigit ∨ c ∈ Decimal.documentLayout.marks := by
  cases n with
  | float x => exact Decimal.Layout.write_mem h
  | int n =>
    rw [Number.text, Int.toString_eq_repr] at h
    cases n with
    | ofNat n => exact .inl (Decimal.Layout.nat_text_mem h)
    | negSucc n =>
      have : c = '-' ∨ c ∈ (toString (n + 1)).toList := by simpa [Int.repr] using h
      rcases this with rfl | h
      · exact .inr (by simp [Decimal.Layout.marks])
      · exact .inl (Decimal.Layout.nat_text_mem h)

end ZoomConfig
