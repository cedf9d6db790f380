/-!
Association lists in ascending order of their keys.

A `Dict` is built with `insert` from the empty list, and then no key stands twice. It is a plain
list, so that a type of trees can hold dictionaries of itself. `get?` shows all there is to see of a
dictionary: `get?_insert` and `get?_insertNew` say what it finds after a change.
-/
namespace ZoomConfig

/-- Keys with values, by ascending keys. -/
abbrev Dict (κ ν : Type) := List (κ × ν)

namespace Dict

variable {κ ν : Type} [LT κ] [DecidableLT κ] [DecidableEq κ]

/-- The value at a key. -/
def get? : Dict κ ν → κ → Option ν
  | [], _ => none
  | (k, v) :: rest, key => if k = key then some v else get? rest key

/-- Puts a value at a key, in the place of the value that is there. -/
def insert : Dict κ ν → κ → ν → Dict κ ν
  | [], key, value => [(key, value)]
  | (k, v) :: rest, key, value =>
    if key < k then (key, value) :: (k, v) :: rest
    else if key = k then (key, value) :: rest
    else (k, v) :: insert rest key value

/-- Puts a value at a key that has none; a value that is there stays. -/
def insertNew (d : Dict κ ν) (key : κ) (value : ν) : Dict κ ν :=
  if (get? d key).isSome then d else insert d key value

/-- The dictionary of a list of entries; of entries with one key the last counts. -/
def ofList (entries : List (κ × ν)) : Dict κ ν :=
  entries.foldl (fun d e => insert d e.1 e.2) []

/-- The keys in ascending order. -/
def keys (d : Dict κ ν) : List κ := d.map (·.1)

/-- A key has the value that was put there last; the others keep theirs. -/
theorem get?_insert (d : Dict κ ν) (key k : κ) (value : ν) :
    get? (insert d key value) k = if key = k then some value else get? d k := by
  induction d with
  | nil => rfl
  | cons e rest ih =>
    obtain ⟨k', v⟩ := e
    simp only [insert]
    split
    · rfl
    · split
      · next here =>
        subst here
        by_cases same : key = k <;> simp [get?, same]
      · next here =>
        by_cases same : k' = k
        · subst same
          simp [get?, here]
        · simp [get?, same, ih]

/-- A key that has a value keeps it. -/
theorem get?_insertNew (d : Dict κ ν) (key k : κ) (value : ν) :
    get? (insertNew d key value) k =
      if key = k then some ((get? d k).getD value) else get? d k := by
  unfold insertNew
  by_cases same : key = k
  · subst same
    cases h : get? d key <;> simp [h, get?_insert]
  · cases h : get? d key <;> simp [get?_insert, same]

omit [LT κ] [DecidableLT κ] in
theorem isSome_get?_iff (d : Dict κ ν) (key : κ) : (get? d key).isSome ↔ key ∈ keys d := by
  induction d with
  | nil => simp [get?, keys]
  | cons e rest ih =>
    by_cases h : e.1 = key
    · simp [get?, keys, h]
    · simpa [get?, keys, h, Ne.symm h] using ih

end Dict

end ZoomConfig
