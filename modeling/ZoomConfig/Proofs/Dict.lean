import Mathlib.Data.List.Forall2
import ZoomConfig.ContentId
/-!
Dictionaries in the order of their keys.

`Sorted` says that the keys of a dictionary ascend, so that none stands twice. All that is built with
`insert` from the empty list is sorted, a sorted dictionary holds exactly the entries that `get?`
finds, and two sorted dictionaries with the same values at all keys are equal (`sorted_ext`).
-/
namespace ZoomConfig

/-- A strict order in which any two keys are equal or in order. -/
class KeyOrder (κ : Type) [LT κ] : Prop where
  irrefl : ∀ a : κ, ¬ a < a
  trans : ∀ {a b c : κ}, a < b → b < c → a < c
  connected : ∀ {a b : κ}, ¬ a < b → a ≠ b → b < a

instance : KeyOrder Nat where
  irrefl := Nat.lt_irrefl
  trans := Nat.lt_trans
  connected h ne := by omega

instance : KeyOrder String where
  irrefl := String.lt_irrefl
  trans := String.lt_trans
  connected {a b} h ne := by
    rcases String.le_total a b with le | le
    · exact absurd (String.le_antisymm le (String.not_lt.mp h)) ne
    · exact String.not_le.mp fun le' => ne (String.le_antisymm le' le)

instance : KeyOrder ContentId where
  irrefl a := List.lt_irrefl a.bytes
  trans h₁ h₂ := List.lt_trans h₁ h₂
  connected {a b} h ne := by
    rcases List.le_total a.bytes b.bytes with le | le
    · exact absurd (congrArg ContentId.mk (List.le_antisymm le (List.not_lt.mp h))) ne
    · exact List.not_le.mp fun le' => ne (congrArg ContentId.mk (List.le_antisymm le' le))

namespace Dict

variable {κ ν : Type}

/-! ## Looking up -/

theorem keys_map {μ : Type} (f : κ → ν → μ) (d : Dict κ ν) :
    keys (d.map fun e => (e.1, f e.1 e.2)) = keys d := by
  simp [keys]

section Lookup

variable [DecidableEq κ]

theorem mem_of_get? {d : Dict κ ν} {k : κ} {v : ν} (h : get? d k = some v) : (k, v) ∈ d := by
  induction d with
  | nil => simp [get?] at h
  | cons x rest ih =>
    obtain ⟨k', v'⟩ := x
    by_cases same : k' = k
    · simp [get?, same] at h
      simp [same, h]
    · simp [get?, same] at h
      exact List.mem_cons_of_mem _ (ih h)

theorem get?_of_mem {d : Dict κ ν} (distinct : (keys d).Nodup) {k : κ} {v : ν}
    (h : (k, v) ∈ d) : get? d k = some v := by
  induction d with
  | nil => simp at h
  | cons x rest ih =>
    obtain ⟨k', v'⟩ := x
    simp only [keys, List.map_cons, List.nodup_cons] at distinct
    rcases List.mem_cons.mp h with h | h
    · obtain ⟨rfl, rfl⟩ := Prod.mk.inj h
      simp [get?]
    · have other : k' ≠ k := by
        intro eq
        subst eq
        exact distinct.1 (List.mem_map.mpr ⟨(k', v), h, rfl⟩)
      simp [get?, other, ih distinct.2 h]

theorem get?_map {μ : Type} (f : κ → ν → μ) (d : Dict κ ν) (k : κ) :
    get? (d.map fun e => (e.1, f e.1 e.2)) k = (get? d k).map (f k) := by
  induction d with
  | nil => rfl
  | cons x rest ih =>
    by_cases same : x.1 = k
    · subst same
      simp [get?]
    · simp [get?, same, ih]

end Lookup

/-! ## Keys in order -/

variable [LT κ]

/-- The keys ascend. -/
def Sorted (d : Dict κ ν) : Prop := d.Pairwise fun a b => a.1 < b.1

theorem sorted_nil : Sorted ([] : Dict κ ν) := List.Pairwise.nil

section Insertion

variable [DecidableLT κ] [DecidableEq κ]

/-- The value at a key is the one that was put there last. -/
theorem get?_foldl_insert (entries : List (κ × ν)) (d : Dict κ ν) (k : κ) :
    get? (entries.foldl (fun d e => insert d e.1 e.2) d) k =
      ((entries.reverse.find? (·.1 = k)).map (·.2)).or (get? d k) := by
  induction entries generalizing d with
  | nil => rfl
  | cons e rest ih =>
    rw [List.foldl_cons, ih, get?_insert, List.reverse_cons, List.find?_append]
    by_cases same : e.1 = k
    · cases List.find? (fun x => decide (x.1 = k)) rest.reverse <;> simp [same]
    · cases List.find? (fun x => decide (x.1 = k)) rest.reverse <;> simp [same]

theorem get?_ofList (entries : List (κ × ν)) (k : κ) :
    get? (ofList entries) k = (entries.reverse.find? (·.1 = k)).map (·.2) := by
  simp [ofList, get?_foldl_insert, get?]

/-- Where every key has one value, the dictionary of a list holds its entries. -/
theorem get?_ofList_iff {entries : List (κ × ν)} {k : κ}
    (single : ∀ v v', (k, v) ∈ entries → (k, v') ∈ entries → v = v') (v : ν) :
    get? (ofList entries) k = some v ↔ (k, v) ∈ entries := by
  rw [get?_ofList]
  constructor
  · intro h
    obtain ⟨e, found, rfl⟩ := Option.map_eq_some_iff.mp h
    obtain rfl : e.1 = k := by simpa using List.find?_some found
    simpa using List.mem_of_find?_eq_some found
  · intro mem
    have some : (entries.reverse.find? (·.1 = k)).isSome := by
      rw [List.find?_isSome]
      exact ⟨(k, v), by simpa using mem, by simp⟩
    obtain ⟨e, found⟩ := Option.isSome_iff_exists.mp some
    obtain rfl : e.1 = k := by simpa using List.find?_some found
    have here : e ∈ entries := by simpa using List.mem_of_find?_eq_some found
    rw [found, Option.map_some, single e.2 v here mem]

theorem mem_insert {d : Dict κ ν} {key : κ} {value : ν} {e : κ × ν}
    (h : e ∈ insert d key value) : e = (key, value) ∨ e ∈ d := by
  induction d with
  | nil => simp [insert] at h; exact .inl h
  | cons x rest ih =>
    obtain ⟨k, v⟩ := x
    unfold insert at h
    split at h
    · rcases List.mem_cons.mp h with h | h
      · exact .inl h
      · exact .inr h
    · split at h
      · rcases List.mem_cons.mp h with h | h
        · exact .inl h
        · exact .inr (List.mem_cons_of_mem _ h)
      · rcases List.mem_cons.mp h with h | h
        · exact .inr (by simp [h])
        · rcases ih h with h | h
          · exact .inl h
          · exact .inr (List.mem_cons_of_mem _ h)

theorem insert_map {μ : Type} (f : ν → μ) (d : Dict κ ν) (key : κ) (value : ν) :
    insert (d.map fun e => (e.1, f e.2)) key (f value) =
      (insert d key value).map fun e => (e.1, f e.2) := by
  induction d with
  | nil => rfl
  | cons x rest ih =>
    simp only [List.map_cons, insert, ih]
    split
    · rfl
    · split <;> rfl

theorem mem_ofList {entries : List (κ × ν)} {e : κ × ν} (h : e ∈ ofList entries) :
    e ∈ entries := by
  suffices grow : ∀ (entries d : List (κ × ν)),
      e ∈ entries.foldl (fun d e => insert d e.1 e.2) d → e ∈ d ∨ e ∈ entries by
    simpa using grow entries [] h
  intro entries
  induction entries with
  | nil => exact fun _ h => .inl h
  | cons x rest ih =>
    intro d h
    rcases ih _ h with h | h
    · rcases mem_insert h with rfl | h
      · exact .inr List.mem_cons_self
      · exact .inl h
    · exact .inr (List.mem_cons_of_mem x h)

theorem mem_ofList_iff {entries : List (κ × ν)} (distinct : (keys entries).Nodup) (e : κ × ν) :
    e ∈ ofList entries ↔ e ∈ entries := by
  refine ⟨mem_ofList, fun mem => ?_⟩
  have single : ∀ v v', (e.1, v) ∈ entries → (e.1, v') ∈ entries → v = v' := by
    intro v v' h h'
    exact Option.some.inj ((get?_of_mem distinct h).symm.trans (get?_of_mem distinct h'))
  exact mem_of_get? ((get?_ofList_iff single e.2).mpr mem)

end Insertion

variable [KeyOrder κ]

theorem Sorted.nodup {d : Dict κ ν} (h : Sorted d) : (keys d).Nodup := by
  unfold keys List.Nodup
  rw [List.pairwise_map]
  refine h.imp ?_
  intro a b lt eq
  rw [eq] at lt
  exact KeyOrder.irrefl _ lt

variable [DecidableLT κ] [DecidableEq κ]

theorem sorted_insert {d : Dict κ ν} (h : Sorted d) (key : κ) (value : ν) :
    Sorted (insert d key value) := by
  induction d with
  | nil => simp [insert, Sorted]
  | cons x rest ih =>
    obtain ⟨k, v⟩ := x
    have after : ∀ e ∈ rest, k < e.1 := (List.pairwise_cons.mp h).1
    have tail : Sorted rest := (List.pairwise_cons.mp h).2
    unfold insert
    split
    · next lt =>
      refine List.pairwise_cons.mpr ⟨?_, h⟩
      intro e he
      rcases List.mem_cons.mp he with rfl | he
      · exact lt
      · exact KeyOrder.trans lt (after e he)
    · next nlt =>
      split
      · next eq =>
        subst eq
        exact List.pairwise_cons.mpr ⟨after, tail⟩
      · next ne =>
        refine List.pairwise_cons.mpr ⟨?_, ih tail⟩
        intro e he
        rcases mem_insert he with rfl | he
        · exact KeyOrder.connected nlt ne
        · exact after e he

theorem sorted_insertNew {d : Dict κ ν} (h : Sorted d) (key : κ) (value : ν) :
    Sorted (insertNew d key value) := by
  unfold insertNew
  split
  · exact h
  · exact sorted_insert h key value

theorem sorted_foldl_insert (entries : List (κ × ν)) {d : Dict κ ν} (h : Sorted d) :
    Sorted (entries.foldl (fun d e => insert d e.1 e.2) d) := by
  induction entries generalizing d with
  | nil => exact h
  | cons e rest ih => exact ih (sorted_insert h e.1 e.2)

theorem sorted_ofList (entries : List (κ × ν)) : Sorted (ofList entries) :=
  sorted_foldl_insert entries sorted_nil

omit [DecidableLT κ] in
theorem mem_iff_get? {d : Dict κ ν} (h : Sorted d) (k : κ) (v : ν) :
    (k, v) ∈ d ↔ get? d k = some v :=
  ⟨get?_of_mem h.nodup, mem_of_get?⟩

omit [DecidableLT κ] in
/-- A sorted dictionary is known by what is found in it. -/
theorem sorted_ext {d e : Dict κ ν} (hd : Sorted d) (he : Sorted e)
    (same : ∀ k, get? d k = get? e k) : d = e := by
  induction d generalizing e with
  | nil =>
    cases e with
    | nil => rfl
    | cons y _ => have := same y.1; simp [get?] at this
  | cons x rest ih =>
    cases e with
    | nil => have := same x.1; simp [get?] at this
    | cons y others =>
      obtain ⟨k, v⟩ := x
      obtain ⟨k', v'⟩ := y
      have afterD := (List.pairwise_cons.mp hd).1
      have afterE := (List.pairwise_cons.mp he).1
      -- The first keys agree, since each is found in the other and nothing stands before them.
      have key : k = k' := by
        by_cases eq : k = k'
        · exact eq
        · have inE : (k, v) ∈ others := by
            have := same k
            simp [get?, Ne.symm eq] at this
            exact mem_of_get? this.symm
          have inD : (k', v') ∈ rest := by
            have := same k'
            simp [get?, eq] at this
            exact mem_of_get? this
          exact absurd (KeyOrder.trans (afterE _ inE) (afterD _ inD)) (KeyOrder.irrefl _)
      subst key
      have value : v = v' := by
        have := same k
        simpa [get?] using this
      subst value
      have tails : rest = others := by
        refine ih (List.pairwise_cons.mp hd).2 (List.pairwise_cons.mp he).2 ?_
        intro j
        by_cases here : k = j
        · subst here
          have noneIn : ∀ {l : Dict κ ν}, (∀ e ∈ l, k < e.1) → get? l k = none := by
            intro l after
            cases found : get? l k with
            | none => rfl
            | some w => exact absurd (after _ (mem_of_get? found)) (KeyOrder.irrefl _)
          rw [noneIn afterD, noneIn afterE]
        · have := same j
          simpa [get?, here] using this
      rw [tails]

theorem eq_ofList_of_perm {d : Dict κ ν} {entries : List (κ × ν)} (h : Sorted d)
    (perm : d.Perm entries) : d = ofList entries := by
  refine sorted_ext h (sorted_ofList entries) fun k => Option.ext fun v => ?_
  have distinct : (keys entries).Nodup := (perm.map Prod.fst).nodup_iff.mp h.nodup
  rw [← mem_iff_get? h, ← mem_iff_get? (sorted_ofList entries), mem_ofList_iff distinct,
    perm.mem_iff]

omit [DecidableLT κ] in
theorem keys_eq {d e : Dict κ ν} (hd : Sorted d) (he : Sorted e)
    (same : ∀ k, (get? d k).isSome = (get? e k).isSome) : keys d = keys e := by
  have sorted : ∀ {d : Dict κ ν}, Sorted d → Sorted (d.map fun x => (x.1, ())) := by
    intro d h
    exact List.pairwise_map.mpr h
  rw [← keys_map (fun _ _ => ()) d, ← keys_map (fun _ _ => ()) e,
    sorted_ext (sorted hd) (sorted he)]
  intro k
  have := same k
  rw [get?_map fun _ (_ : ν) => (), get?_map fun _ (_ : ν) => ()]
  cases hd : get? d k <;> cases he : get? e k <;> simp_all

end Dict

/-- Where two lists agree item by item, each item of the second has one of the first. -/
theorem exists_of_mem_forall₂ {α β : Type} {R : α → β → Prop} {as : List α} {bs : List β}
    (related : List.Forall₂ R as bs) : ∀ b ∈ bs, ∃ a ∈ as, R a b := by
  induction related with
  | nil => simp
  | cons here _ ih =>
    intro b mem
    rcases List.mem_cons.1 mem with rfl | mem
    · exact ⟨_, List.mem_cons_self, here⟩
    · obtain ⟨a, ha, there⟩ := ih b mem
      exact ⟨a, List.mem_cons_of_mem _ ha, there⟩

end ZoomConfig
