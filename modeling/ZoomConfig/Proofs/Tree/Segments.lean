import ZoomConfig.Tree
/-!
The names of a path.

A path and the list of its names say the same (`segments_injective`), and putting a slash between
two paths puts their names one after the other (`segments_append`). A path lies `Below` another if it
goes on after it with a slash: its names then continue those of the other (`below_iff`).
-/
namespace ZoomConfig

namespace Text

variable {sep : Char}

theorem splitChars_append (a b : List Char) :
    splitChars sep (a ++ sep :: b) = splitChars sep a ++ splitChars sep b := by
  induction a with
  | nil => simp [splitChars]
  | cons c rest ih =>
    by_cases h : c = sep
    · simp [splitChars, h, ih]
    · simp only [List.cons_append, splitChars, h, if_false, ih]
      cases hs : splitChars sep rest with
      | nil => exact absurd hs (splitChars_ne_nil sep rest)
      | cons p ps => rfl

theorem splitChars_of_free {a : List Char} (free : sep ∉ a) : splitChars sep a = [a] := by
  induction a with
  | nil => rfl
  | cons c rest ih =>
    simp only [List.mem_cons, not_or] at free
    simp [splitChars, Ne.symm free.1, ih free.2]

theorem joinChars_append (sep : Char) : ∀ (a b : List (List Char)), a ≠ [] → b ≠ [] →
    joinChars sep (a ++ b) = joinChars sep a ++ sep :: joinChars sep b
  | [], _, h, _ => absurd rfl h
  | [p], q :: qs, _, _ => by cases qs <;> simp [joinChars]
  | [_], [], _, h => absurd rfl h
  | p :: q :: ps, b, _, h => by
    have ih := joinChars_append sep (q :: ps) b (by simp) h
    simp only [List.cons_append] at ih
    simp [joinChars, ih]

theorem join_append {a b : List String} (ha : a ≠ []) (hb : b ≠ []) :
    join sep (a ++ b) = join sep a ++ String.singleton sep ++ join sep b := by
  have h := joinChars_append sep (a.map String.toList) (b.map String.toList)
    (by simpa using ha) (by simpa using hb)
  apply String.toList_inj.mp
  simp [join, h]

theorem join_split (sep : Char) (text : String) : join sep (split sep text) = text := by
  simp [join, split, joinChars_splitChars]

theorem split_ne_nil (text : String) : split sep text ≠ [] := by
  simp [split, splitChars_ne_nil]

theorem split_append (a b : String) :
    split sep (a ++ String.singleton sep ++ b) = split sep a ++ split sep b := by
  simp [split, splitChars_append]

theorem join_single (piece : String) : join sep [piece] = piece := by
  simp [join, joinChars]

theorem split_of_free {text : String} (free : sep ∉ text.toList) : split sep text = [text] := by
  simp [split, splitChars_of_free free]

theorem splitChars_free {cs piece : List Char} (mem : piece ∈ splitChars sep cs) : sep ∉ piece := by
  induction cs generalizing piece with
  | nil =>
    obtain rfl : piece = [] := by simpa [splitChars] using mem
    exact List.not_mem_nil
  | cons c rest ih =>
    by_cases h : c = sep
    · simp only [splitChars, h, if_true, List.mem_cons] at mem
      rcases mem with rfl | mem
      · exact List.not_mem_nil
      · exact ih mem
    · cases hs : splitChars sep rest with
      | nil => exact absurd hs (splitChars_ne_nil sep rest)
      | cons p ps =>
        simp only [splitChars, h, if_false, hs, List.mem_cons] at mem ih
        rcases mem with rfl | mem
        · have first : sep ∉ p := ih (.inl rfl)
          simp [Ne.symm h, first]
        · exact ih (.inr mem)

theorem split_free {text piece : String} (mem : piece ∈ split sep text) : sep ∉ piece.toList := by
  obtain ⟨cs, inside, rfl⟩ := List.mem_map.mp mem
  rw [String.toList_ofList]
  exact splitChars_free inside

theorem split_join {pieces : List String} (some : pieces ≠ [])
    (free : ∀ piece ∈ pieces, sep ∉ piece.toList) : split sep (join sep pieces) = pieces := by
  induction pieces with
  | nil => exact absurd rfl some
  | cons piece rest ih =>
    have here := split_of_free (free piece List.mem_cons_self)
    cases rest with
    | nil => rw [join_single, here]
    | cons next rest =>
      have others := ih (List.cons_ne_nil next rest) fun p mem => free p (List.mem_cons_of_mem _ mem)
      calc split sep (join sep ([piece] ++ next :: rest))
          = split sep (piece ++ String.singleton sep ++ join sep (next :: rest)) := by
            rw [join_append (List.cons_ne_nil piece []) (List.cons_ne_nil next rest), join_single]
        _ = piece :: next :: rest := by rw [split_append, here, others]; rfl

end Text

namespace Forest

theorem segments_ne_nil (path : String) : segments path ≠ [] := Text.split_ne_nil path

theorem segments_injective {p q : String} (h : segments p = segments q) : p = q := by
  rw [← Text.join_split '/' p, ← Text.join_split '/' q]
  exact congrArg (Text.join '/') h

theorem segments_append (p q : String) : segments (p ++ "/" ++ q) = segments p ++ segments q :=
  Text.split_append p q

theorem segments_of_free {name : String} (free : '/' ∉ name.toList) : segments name = [name] :=
  Text.split_of_free free

theorem segments_free {path name : String} (mem : name ∈ segments path) : '/' ∉ name.toList :=
  Text.split_free mem

theorem segments_join {names : List String} (some : names ≠ [])
    (free : ∀ name ∈ names, '/' ∉ name.toList) : segments (Text.join '/' names) = names :=
  Text.split_join some free

/-- `q` goes on after `p` with a slash. -/
def Below (p q : String) : Prop := ∃ rest, q = p ++ "/" ++ rest

theorem below_iff (p q : String) :
    Below p q ↔ segments p <+: segments q ∧ segments p ≠ segments q := by
  constructor
  · intro given
    obtain ⟨rest, rfl⟩ := given
    rw [segments_append]
    refine ⟨List.prefix_append _ _, ?_⟩
    intro h
    exact segments_ne_nil rest (List.append_right_eq_self.mp h.symm)
  · intro given
    obtain ⟨⟨tail, h⟩, ne⟩ := given
    have longer : tail ≠ [] := by
      intro eq
      subst eq
      exact ne (by simpa using h)
    refine ⟨Text.join '/' tail, ?_⟩
    calc q = Text.join '/' (segments p ++ tail) := by rw [h]; exact (Text.join_split '/' q).symm
      _ = Text.join '/' (segments p) ++ "/" ++ Text.join '/' tail :=
        Text.join_append (segments_ne_nil p) longer
      _ = p ++ "/" ++ Text.join '/' tail := by rw [segments, Text.join_split]

end Forest

end ZoomConfig
