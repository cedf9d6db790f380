import Mathlib.Data.List.Perm.Basic
import ZoomConfig.Proofs.Dict
import ZoomConfig.Proofs.Json.Texts
import ZoomConfig.Proofs.Outcome
/-!
The canonical form of a document's value.

`Canon` ties a value to the JSON value whose text its identity is made of. The form of a container is
made of the forms of what it holds (`canon_sequence`, `canon_mapping`, `canon_tagged`), and every form
has finite numbers (`canon_finite`), so that its text tells what it is.
-/
namespace ZoomConfig

open Outcome

namespace Json

/-! ## The canonical form part by part -/

/-- A value of a document has this canonical form. -/
def Canon (v : Value) (c : Json) : Prop := ∃ j, ofValue v = .ok j ∧ j.canonical = c

/-- An entry of a mapping becomes this member. -/
def CanonEntry (e : Value × Value) (m : String × Json) : Prop :=
  keyName e.1 = .ok m.1 ∧ Canon e.2 m.2

theorem Canon.unique {v : Value} {c d : Json} (hc : Canon v c) (hd : Canon v d) : c = d := by
  obtain ⟨i, hi, rfl⟩ := hc
  obtain ⟨j, hj, rfl⟩ := hd
  rw [hi] at hj
  cases hj
  rfl

theorem canon_iff {v : Value} {j c : Json} (h : ofValue v = .ok j) : Canon v c ↔ c = j.canonical := by
  constructor
  · intro form
    exact form.unique ⟨j, h, rfl⟩
  · intro same
    exact ⟨j, h, same.symm⟩

theorem canon_null {c : Json} : Canon .null c ↔ c = .null := canon_iff (j := .null) rfl

theorem canon_bool {b : Bool} {c : Json} : Canon (.bool b) c ↔ c = .bool b :=
  canon_iff (j := .bool b) rfl

theorem canon_string {s : String} {c : Json} : Canon (.string s) c ↔ c = .string s :=
  canon_iff (j := .string s) rfl

theorem canon_items {items : List Value} {cs : List Json} :
    (∃ js, ofItems items = .ok js ∧ canonicalItems js = cs) ↔ List.Forall₂ Canon items cs := by
  induction items generalizing cs with
  | nil =>
    rw [List.forall₂_nil_left_iff]
    constructor
    · intro given
      obtain ⟨js, hjs, rfl⟩ := given
      cases hjs
      rfl
    · intro eq
      subst eq
      exact ⟨[], rfl, rfl⟩
  | cons v rest ih =>
    rw [List.forall₂_cons_left_iff]
    unfold ofItems
    constructor
    · intro given
      obtain ⟨js, hjs, rfl⟩ := given
      cases hv : ofValue v with
      | error e => simp [hv] at hjs
      | ok j =>
        simp only [hv] at hjs
        obtain ⟨others, hothers, rfl⟩ := map_eq_ok.1 hjs
        exact ⟨_, _, ⟨j, hv, rfl⟩, ih.1 ⟨others, hothers, rfl⟩, rfl⟩
    · intro given
      obtain ⟨c, cs', ⟨j, hv, rfl⟩, hrest, rfl⟩ := given
      obtain ⟨others, hothers, rfl⟩ := ih.2 hrest
      exact ⟨j :: others, by simp [hv, hothers, Except.map], rfl⟩

theorem canon_entries {entries : List (Value × Value)} {ms : List (String × Json)} :
    (∃ js, ofEntries entries = .ok js ∧ canonicalMembers js = ms) ↔
      List.Forall₂ CanonEntry entries ms := by
  induction entries generalizing ms with
  | nil =>
    rw [List.forall₂_nil_left_iff]
    constructor
    · intro given
      obtain ⟨js, hjs, rfl⟩ := given
      cases hjs
      rfl
    · intro eq
      subst eq
      exact ⟨[], rfl, rfl⟩
  | cons e rest ih =>
    obtain ⟨k, v⟩ := e
    rw [List.forall₂_cons_left_iff]
    unfold ofEntries
    constructor
    · intro given
      obtain ⟨js, hjs, rfl⟩ := given
      cases hk : keyName k with
      | error e => simp [hk] at hjs
      | ok name =>
        cases hv : ofValue v with
        | error e => simp [hk, hv] at hjs
        | ok j =>
          simp only [hk, hv] at hjs
          obtain ⟨others, hothers, rfl⟩ := map_eq_ok.1 hjs
          exact ⟨(name, j.canonical), _, ⟨hk, j, hv, rfl⟩, ih.1 ⟨others, hothers, rfl⟩, rfl⟩
    · intro given
      obtain ⟨⟨name, c⟩, ms', ⟨hk, j, hv, rfl⟩, hrest, rfl⟩ := given
      obtain ⟨others, hothers, rfl⟩ := ih.2 hrest
      dsimp only at hk hv
      exact ⟨(name, j) :: others, by simp [hk, hv, hothers, Except.map], rfl⟩

/-- The form of a sequence has the forms of its items. -/
theorem canon_sequence {items : List Value} {c : Json} :
    Canon (.sequence items) c ↔ ∃ cs, List.Forall₂ Canon items cs ∧ c = .array cs := by
  constructor
  · intro given
    obtain ⟨j, hj, rfl⟩ := given
    obtain ⟨js, hjs, rfl⟩ := map_eq_ok.1 hj
    exact ⟨_, canon_items.1 ⟨js, hjs, rfl⟩, rfl⟩
  · intro given
    obtain ⟨cs, forms, rfl⟩ := given
    obtain ⟨js, hjs, rfl⟩ := canon_items.2 forms
    exact ⟨.array js, map_eq_ok.2 ⟨js, hjs, rfl⟩, rfl⟩

/-- The form of a mapping has the names and forms of its entries, by ascending names. -/
theorem canon_mapping {entries : List (Value × Value)} {c : Json} :
    Canon (.mapping entries) c ↔
      ∃ ms, List.Forall₂ CanonEntry entries ms ∧ c = .object (Dict.ofList ms) := by
  constructor
  · intro given
    obtain ⟨j, hj, rfl⟩ := given
    obtain ⟨js, hjs, rfl⟩ := map_eq_ok.1 hj
    exact ⟨_, canon_entries.1 ⟨js, hjs, rfl⟩, rfl⟩
  · intro given
    obtain ⟨ms, forms, rfl⟩ := given
    obtain ⟨js, hjs, rfl⟩ := canon_entries.2 forms
    exact ⟨.object js, map_eq_ok.2 ⟨js, hjs, rfl⟩, rfl⟩

/-- The form of a tagged value is an object with the tag for its only name. -/
theorem canon_tagged {tag : String} {v : Value} {c : Json} :
    Canon (.tagged tag v) c ↔ ∃ d, Canon v d ∧ c = .object [(tagText tag, d)] := by
  constructor
  · intro given
    obtain ⟨j, hj, rfl⟩ := given
    obtain ⟨i, hi, rfl⟩ := map_eq_ok.1 hj
    exact ⟨_, ⟨i, hi, rfl⟩, rfl⟩
  · intro given
    obtain ⟨d, ⟨i, hi, rfl⟩, rfl⟩ := given
    exact ⟨.object [(tagText tag, i)], map_eq_ok.2 ⟨i, hi, rfl⟩, rfl⟩

theorem finiteItems_iff {items : List Json} : FiniteItems items ↔ ∀ j ∈ items, j.Finite := by
  induction items with
  | nil => simp [FiniteItems]
  | cons j rest ih => simp [FiniteItems, ih]

theorem finiteMembers_iff {members : List (String × Json)} :
    FiniteMembers members ↔ ∀ m ∈ members, m.2.Finite := by
  induction members with
  | nil => simp [FiniteMembers]
  | cons m rest ih => simp [FiniteMembers, ih]

theorem ofNumber_finite (n : Number) : (ofNumber n).canonical.Finite := by
  cases n with
  | int n => exact trivial
  | float x =>
    cases finite : x.isFinite with
    | true =>
      rw [ofNumber, if_pos finite]
      exact finite
    | false =>
      rw [ofNumber, if_neg (by simp [finite])]
      exact trivial

/-- The numbers of a canonical form are finite, as doubles that are not have become null. -/
theorem canon_finite (v : Value) : ∀ c, Canon v c → c.Finite := by
  induction v using Value.induction with
  | null =>
    intro c form
    rw [canon_null.1 form]
    exact trivial
  | bool b =>
    intro c form
    rw [canon_bool.1 form]
    exact trivial
  | number n =>
    intro c form
    rw [(canon_iff (j := ofNumber n) rfl).1 form]
    exact ofNumber_finite n
  | string s =>
    intro c form
    rw [canon_string.1 form]
    exact trivial
  | sequence items ih =>
    intro c form
    obtain ⟨cs, forms, rfl⟩ := canon_sequence.1 form
    refine finiteItems_iff.2 ?_
    intro c mem
    obtain ⟨v, hv, here⟩ := exists_of_mem_forall₂ forms c mem
    exact ih v hv c here
  | mapping entries ih =>
    intro c form
    obtain ⟨ms, forms, rfl⟩ := canon_mapping.1 form
    refine finiteMembers_iff.2 ?_
    intro m mem
    obtain ⟨e, he, _, here⟩ := exists_of_mem_forall₂ forms m (Dict.mem_ofList mem)
    exact ih e he m.2 here
  | tagged tag v ih =>
    intro c form
    obtain ⟨d, inner, rfl⟩ := canon_tagged.1 form
    exact ⟨ih d inner, trivial⟩

end Json

end ZoomConfig
