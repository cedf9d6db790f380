import ZoomConfig.Json.Basic
import ZoomConfig.Proofs.Outcome
/-!
The keys of a value, and when it can be written as JSON.

`Value.keys` lists the keys of all mappings of a value, at every depth and in document order. JSON
needs a text for each of them and nothing else: a value is written if every key has one, and
otherwise the first key without one decides (`Json.ofValue_decided`).
-/
namespace ZoomConfig

namespace Value

mutual

/-- The keys of all mappings of a value, at every depth. What is inside a key is not looked at. -/
def keys : Value → List Value
  | .sequence items => itemKeys items
  | .mapping entries => entryKeys entries
  | .tagged _ v => keys v
  | _ => []

/-- The keys of all items. -/
def itemKeys : List Value → List Value
  | [] => []
  | v :: rest => keys v ++ itemKeys rest

/-- The keys of all entries, each before those of its value. -/
def entryKeys : List (Value × Value) → List Value
  | [] => []
  | (k, v) :: rest => k :: (keys v ++ entryKeys rest)

end

theorem mem_entryKeys {k : Value} {entries : List (Value × Value)} :
    k ∈ entryKeys entries ↔ ∃ e ∈ entries, k = e.1 ∨ k ∈ keys e.2 := by
  induction entries with
  | nil => simp [entryKeys]
  | cons e rest ih => simp [entryKeys, ih, or_assoc]

end Value

namespace Json

open Outcome

/-- Why a key has no text, if it has none. -/
def keyError? (k : Value) : Option JsonKeyError :=
  match keyName k with
  | .ok _ => none
  | .error e => some e

theorem keyError?_eq_none_iff {k : Value} : keyError? k = none ↔ ∃ name, keyName k = .ok name := by
  unfold keyError?
  cases keyName k <;> simp

/-- Keys decide over a result: it fails for the first of them that has no text, and only so. -/
def Decided {β : Type} (keys : List Value) (x : Except JsonKeyError β) : Prop :=
  match keys.findSome? keyError? with
  | none => ∃ b, x = .ok b
  | some e => x = .error e

namespace Decided

variable {β γ : Type} {keys : List Value} {x : Except JsonKeyError β}

theorem iff_decidedBy : Decided keys x ↔ DecidedBy keyError? keys x := by
  unfold Decided DecidedBy
  cases keys.findSome? keyError? with
  | none => exact failure?_eq_none.symm
  | some e => exact failure?_eq_some.symm

theorem ok (b : β) : Decided [] (.ok b) := iff_decidedBy.mpr (.ok b)

theorem map (h : Decided keys x) (f : β → γ) : Decided keys (x.map f) :=
  iff_decidedBy.mpr ((iff_decidedBy.mp h).map f)

theorem append {others : List Value} {y : β → Except JsonKeyError γ} (hx : Decided keys x)
    (hy : ∀ b, Decided others (y b)) : Decided (keys ++ others) (x >>= y) :=
  iff_decidedBy.mpr ((iff_decidedBy.mp hx).append fun b => iff_decidedBy.mp (hy b))

theorem key (k : Value) : Decided [k] (keyName k) := by
  have fault : keyError? k = failure? (keyName k) := by
    unfold keyError?
    cases keyName k <;> rfl
  exact iff_decidedBy.mpr (.single fault)

theorem ok_iff (h : Decided keys x) :
    (∃ b, x = .ok b) ↔ ∀ k ∈ keys, ∃ name, keyName k = .ok name := by
  simp only [(iff_decidedBy.mp h).ok_iff, keyError?_eq_none_iff]

theorem error_iff (h : Decided keys x) {e : JsonKeyError} :
    x = .error e ↔ keys.findSome? keyError? = some e :=
  (iff_decidedBy.mp h).error_iff

end Decided

theorem ofItems_cons (v : Value) (rest : List Value) :
    ofItems (v :: rest) = ofValue v >>= fun j => (ofItems rest).map (j :: ·) := by
  rw [ofItems]
  cases ofValue v <;> rfl

theorem ofEntries_cons (k v : Value) (rest : List (Value × Value)) :
    ofEntries ((k, v) :: rest) = keyName k >>= fun name => ofValue v >>= fun j =>
      (ofEntries rest).map ((name, j) :: ·) := by
  rw [ofEntries]
  cases keyName k with
  | error e => rfl
  | ok name => cases ofValue v <;> rfl

mutual

/-- The keys of a value decide whether it can be written. -/
theorem ofValue_decided : ∀ v : Value, Decided v.keys (ofValue v)
  | .null => Decided.ok Json.null
  | .bool b => Decided.ok (Json.bool b)
  | .number n => Decided.ok (ofNumber n)
  | .string s => Decided.ok (Json.string s)
  | .sequence items => (ofItems_decided items).map Json.array
  | .mapping entries => (ofEntries_decided entries).map Json.object
  | .tagged tag v => (ofValue_decided v).map fun j => Json.object [(tagText tag, j)]

theorem ofItems_decided : ∀ items : List Value, Decided (Value.itemKeys items) (ofItems items)
  | [] => Decided.ok []
  | v :: rest => by
    rw [Value.itemKeys, ofItems_cons]
    exact (ofValue_decided v).append fun j => (ofItems_decided rest).map (j :: ·)

theorem ofEntries_decided : ∀ entries : List (Value × Value),
    Decided (Value.entryKeys entries) (ofEntries entries)
  | [] => Decided.ok []
  | (k, v) :: rest => by
    rw [Value.entryKeys, ofEntries_cons]
    exact (Decided.key k).append fun name => (ofValue_decided v).append fun j =>
      (ofEntries_decided rest).map ((name, j) :: ·)

end

end Json

end ZoomConfig
