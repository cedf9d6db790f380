import ZoomConfig.Proofs.Zoom.Resolution
/-!
Putting entries into a mapping and taking them out.

A new key comes last (`put_of_new`). An entry that is taken out is replaced by the last one, so all
others stay, if not in their places (`remove_perm`), and none with its key is left
(`not_mem_remove`).
-/
namespace ZoomConfig

namespace Mapping

/-- A new key comes last. -/
theorem put_of_new {m : Mapping} {key : String} (new : contains m key = false) (v : Value) :
    put m key v = m ++ [(.string key, v)] := by
  refine insert_of_new (fun e mem same => ?_) v
  obtain ⟨k, u⟩ := e
  obtain rfl : k = .string key := same
  rw [contains_of_mem mem] at new
  cases new

theorem splitAtKey_eq {m : Mapping} {key : String} {before after : Mapping} {found : Value}
    (h : splitAtKey m key = some (before, found, after)) :
    m = before ++ (.string key, found) :: after := by
  induction m generalizing before with
  | nil => cases h
  | cons x rest ih =>
    obtain ⟨k, v⟩ := x
    have later : (splitAtKey rest key).map (fun parts => ((k, v) :: parts.1, parts.2)) =
          some (before, found, after) →
        (k, v) :: rest = before ++ (.string key, found) :: after := by
      intro given
      obtain ⟨⟨before', _, _⟩, inner, same⟩ := Option.map_eq_some_iff.mp given
      cases same
      rw [ih inner]
      rfl
    cases k with
    | string s =>
      by_cases same : s = key
      · subst same
        simp only [splitAtKey, if_true, Option.some.injEq, Prod.mk.injEq] at h
        obtain ⟨rfl, rfl, rfl⟩ := h
        rfl
      · simp only [splitAtKey, same, if_false] at h
        exact later h
    | _ => exact later h

theorem remove_fst (m : Mapping) (key : String) : (remove m key).1 = get? m key := by
  suffices h : (splitAtKey m key).map (·.2.1) = get? m key by
    unfold remove
    rw [← h]
    cases splitAtKey m key <;> rfl
  induction m with
  | nil => rfl
  | cons e rest ih =>
    obtain ⟨k, v⟩ := e
    cases k with
    | string s =>
      by_cases same : s = key
      · simp [splitAtKey, get?, same]
      · simp [splitAtKey, get?, same, ← ih, Function.comp_def]
    | _ => simp [splitAtKey, get?, ← ih, Function.comp_def]

theorem moveLast_perm (m : Mapping) :
    (match m.getLast? with | none => [] | some last => last :: m.dropLast).Perm m := by
  cases h : m.getLast? with
  | none => rw [List.getLast?_eq_none_iff.mp h]
  | some last =>
    obtain ⟨front, rfl⟩ := List.getLast?_eq_some_iff.mp h
    simpa using (List.perm_append_singleton last front).symm

theorem remove_of_absent {m : Mapping} {key : String} (h : (remove m key).1 = none) :
    (remove m key).2 = m := by
  unfold remove at h ⊢
  cases split : splitAtKey m key with
  | none => rfl
  | some parts => simp [split] at h

/-- Taking an entry out of a mapping leaves all others. -/
theorem remove_perm {m : Mapping} {key : String} {v : Value} (h : (remove m key).1 = some v) :
    m.Perm ((.string key, v) :: (remove m key).2) := by
  unfold remove at h ⊢
  cases split : splitAtKey m key with
  | none => simp [split] at h
  | some parts =>
    obtain ⟨before, found, after⟩ := parts
    simp only [split, Option.some.injEq] at h
    subst h
    rw [splitAtKey_eq split]
    exact List.perm_middle.trans
      (((moveLast_perm after).symm.append_left before).cons _)

theorem mem_of_mem_remove {m : Mapping} {key : String} {e : Value × Value}
    (h : e ∈ (remove m key).2) : e ∈ m := by
  cases taken : (remove m key).1 with
  | none => rwa [remove_of_absent taken] at h
  | some v => exact (remove_perm taken).mem_iff.mpr (List.mem_cons_of_mem _ h)

theorem mem_remove_iff {m : Mapping} {key : String} {e : Value × Value} (other : e.1 ≠ .string key) :
    e ∈ (remove m key).2 ↔ e ∈ m := by
  cases taken : (remove m key).1 with
  | none => rw [remove_of_absent taken]
  | some v =>
    rw [(remove_perm taken).mem_iff, List.mem_cons]
    refine (or_iff_right fun same => ?_).symm
    exact other (by rw [same])

theorem mem_of_remove {m : Mapping} {key : String} {v : Value} (h : (remove m key).1 = some v) :
    (.string key, v) ∈ m :=
  (remove_perm h).mem_iff.mpr List.mem_cons_self

theorem contains_iff {m : Mapping} {key : String} :
    contains m key = true ↔ ∃ v, (.string key, v) ∈ m := by
  constructor
  · intro here
    obtain ⟨v, found⟩ := Option.isSome_iff_exists.mp here
    exact ⟨v, mem_of_get? found⟩
  · intro given
    obtain ⟨v, mem⟩ := given
    exact contains_of_mem mem

theorem contains_append (m l : Mapping) (key : String) :
    contains (m ++ l : Mapping) key = (contains m key || contains l key) := by
  rw [Bool.eq_iff_iff, Bool.or_eq_true, contains_iff, contains_iff, contains_iff]
  simp [exists_or]

theorem not_contains_of_keys {m : Mapping} {names : List String} {key : String}
    (keys : m.map (·.1) = names.map .string) (other : key ∉ names) : contains m key = false := by
  refine Bool.eq_false_iff.mpr fun here => ?_
  obtain ⟨v, mem⟩ := contains_iff.mp here
  have inside : Value.string key ∈ m.map (·.1) := List.mem_map_of_mem mem
  rw [keys] at inside
  obtain ⟨name, given, same⟩ := List.mem_map.mp inside
  cases same
  exact other given

/-- The entries without the one at a text key, in their order. -/
def without (m : Mapping) (key : String) : Mapping := m.filter fun e => !(e.1 == .string key)

theorem mem_without {m : Mapping} {key : String} {e : Value × Value} :
    e ∈ m.without key ↔ e ∈ m ∧ e.1 ≠ .string key := by
  rw [without, List.mem_filter, Bool.not_eq_true', Bool.eq_false_iff, ne_eq, Value.beq_string_iff]

theorem without_append (m l : Mapping) (key : String) :
    (m ++ l : Mapping).without key = m.without key ++ l.without key :=
  List.filter_append ..

theorem without_of_absent {m : Mapping} {key : String} (absent : contains m key = false) :
    m.without key = m := by
  refine List.filter_eq_self.mpr fun e mem => ?_
  rw [Bool.not_eq_true', Bool.eq_false_iff, ne_eq, Value.beq_string_iff]
  intro same
  obtain ⟨k, v⟩ := e
  obtain rfl : k = .string key := same
  rw [contains_of_mem mem] at absent
  cases absent

/-- Once the entry with a key has been taken out, there is none, if there was only one. -/
theorem not_mem_remove {m : Mapping} (distinct : (m.map (·.1)).Nodup) (key : String) (v : Value) :
    (.string key, v) ∉ (remove m key).2 := by
  intro mem
  cases taken : (remove m key).1 with
  | none =>
    rw [remove_of_absent taken] at mem
    have here := contains_of_mem mem
    rw [contains, ← remove_fst, taken] at here
    cases here
  | some found =>
    have keys := ((remove_perm taken).map (·.1)).nodup_iff.mp distinct
    exact (List.nodup_cons.mp keys).1 (List.mem_map.mpr ⟨_, mem, rfl⟩)

/-- Taking an entry out leaves all entries with other keys, if not in their places. -/
theorem remove_perm_without {m : Mapping} (distinct : (m.map (·.1)).Nodup) {key : String} {v : Value}
    (taken : (remove m key).1 = some v) : (remove m key).2.Perm (m.without key) := by
  have perm := (remove_perm taken).filter fun e => !(e.1 == .string key)
  have own : ((.string key : Value) == .string key) = true := (Value.beq_string_iff _ _).mpr rfl
  have rest : (remove m key).2.without key = (remove m key).2 := by
    refine without_of_absent (Bool.eq_false_iff.mpr fun here => ?_)
    obtain ⟨w, mem⟩ := contains_iff.mp here
    exact not_mem_remove distinct key w mem
  rw [List.filter_cons_of_neg (by simp [own])] at perm
  rw [without] at rest
  rw [rest] at perm
  exact perm.symm

end Mapping

end ZoomConfig
