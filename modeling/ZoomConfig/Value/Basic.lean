import ZoomConfig.Decimal.Binary
/-!
The values of a process document.

A document holds null, booleans, numbers, text, sequences, mappings with values of any kind as keys,
and tagged values. A `Mapping` keeps the order in which its entries were written.

Correspondence (program ↔ module):
  `Mapping::get`    ↔ `Mapping.get?`
  `Mapping::insert` ↔ `Mapping.insert`
  `Mapping::remove` ↔ `Mapping.remove`
-/
namespace ZoomConfig

/-- A number is an integer or a double, and the two are never the same number. -/
inductive Number where
  | int (n : Int)
  | float (x : Float)

/-- A value of a document. A tag is kept by its name, without the exclamation mark. -/
inductive Value where
  | null
  | bool (b : Bool)
  | number (n : Number)
  | string (s : String)
  | sequence (items : List Value)
  | mapping (entries : List (Value × Value))
  | tagged (tag : String) (value : Value)

/-- Entries in document order. -/
abbrev Mapping := List (Value × Value)

instance : Inhabited Value := ⟨.null⟩

/-- Integers by value, doubles by value with all that are not numbers alike. -/
def Number.same : Number → Number → Bool
  | .int a, .int b => a == b
  | .float a, .float b => a == b || (a.isNaN && b.isNaN)
  | _, _ => false

/-- The number as a double. -/
def Number.toFloat : Number → Float
  | .int n => Decimal.ofInt n
  | .float x => x

namespace Value

/-- What holds of every value if it passes from the parts of a value to the value. -/
theorem induction {P : Value → Prop} (null : P .null) (bool : ∀ b, P (.bool b))
    (number : ∀ n, P (.number n)) (string : ∀ s, P (.string s))
    (sequence : ∀ items, (∀ v ∈ items, P v) → P (.sequence items))
    (mapping : ∀ entries, (∀ e ∈ entries, P e.2) → P (.mapping entries))
    (tagged : ∀ tag v, P v → P (.tagged tag v)) (v : Value) : P v := by
  refine @Value.rec P (fun items => ∀ v ∈ items, P v) (fun entries => ∀ e ∈ entries, P e.2)
    (fun e => P e.2) null bool number string sequence mapping tagged ?_ ?_ ?_ ?_ ?_ v
  · simp
  · intro v rest here others w mem
    rcases List.mem_cons.1 mem with rfl | mem
    · exact here
    · exact others w mem
  · simp
  · intro e rest here others x mem
    rcases List.mem_cons.1 mem with rfl | mem
    · exact here
    · exact others x mem
  · intro k v _ here
    exact here

mutual

/-- Do two values stand for the same content? The order of a mapping's entries does not matter. -/
def same : Value → Value → Bool
  | .null, .null => true
  | .bool a, .bool b => a == b
  | .number a, .number b => a.same b
  | .string a, .string b => a == b
  | .sequence a, .sequence b => sameItems a b
  | .mapping a, .mapping b => a.length == b.length && sameEntries a b
  | .tagged s a, .tagged t b => s == t && same a b
  | _, _ => false

/-- Item by item. -/
def sameItems : List Value → List Value → Bool
  | [], [] => true
  | a :: as, b :: bs => same a b && sameItems as bs
  | _, _ => false

/-- Is every entry of the first mapping found in the second? -/
def sameEntries : List (Value × Value) → List (Value × Value) → Bool
  | [], _ => true
  | (k, v) :: rest, b => (b.any fun e => same k e.1 && same v e.2) && sameEntries rest b

end

instance : BEq Value := ⟨same⟩

theorem beq_string_iff (v : Value) (s : String) : (v == .string s) = true ↔ v = .string s := by
  cases v <;> simp [BEq.beq, same]

/-- The value beneath its tags. -/
def untag : Value → Value
  | .tagged _ v => v.untag
  | v => v

/-- The text of a string, tagged or not. -/
def asString? (v : Value) : Option String :=
  match v.untag with
  | .string s => some s
  | _ => none

/-- The entries of a mapping, tagged or not. -/
def asMapping? (v : Value) : Option Mapping :=
  match v.untag with
  | .mapping entries => some entries
  | _ => none

/-- The items of a sequence, tagged or not. -/
def asSequence? (v : Value) : Option (List Value) :=
  match v.untag with
  | .sequence items => some items
  | _ => none

/-- A natural number, tagged or not. A double is none, even a whole one. -/
def asNat? (v : Value) : Option Nat :=
  match v.untag with
  | .number (.int n) => if n < 0 then none else some n.toNat
  | _ => none

/-- A number as a double, tagged or not. -/
def asFloat? (v : Value) : Option Float :=
  match v.untag with
  | .number n => some n.toFloat
  | _ => none

/-- Null, tagged or not. -/
def isNull (v : Value) : Bool :=
  match v.untag with
  | .null => true
  | _ => false

/-- An integer, tagged or not. -/
def isInteger (v : Value) : Bool :=
  match v.untag with
  | .number (.int _) => true
  | _ => false

/-- A value for a natural number. -/
def ofNat (n : Nat) : Value := .number (.int n)

end Value

namespace Mapping

/-- The value at an untagged text key. -/
def get? : Mapping → String → Option Value
  | [], _ => none
  | (.string s, v) :: rest, key => if s = key then some v else get? rest key
  | _ :: rest, key => get? rest key

/-- Is there an untagged text key of this name? -/
def contains (m : Mapping) (key : String) : Bool := (get? m key).isSome

/-- Puts a value at a key: in the place of the entry with that key, else at the end. -/
def insert : Mapping → Value → Value → Mapping
  | [], key, value => [(key, value)]
  | (k, v) :: rest, key, value =>
    if k == key then (k, value) :: rest else (k, v) :: insert rest key value

/-- Puts a value at a text key. -/
def put (m : Mapping) (key : String) (value : Value) : Mapping := insert m (.string key) value

theorem get?_put (m : Mapping) (key k : String) (value : Value) :
    get? (put m key value) k = if key = k then some value else get? m k := by
  induction m with
  | nil => simp [put, insert, get?]
  | cons e rest ih =>
    obtain ⟨k', v⟩ := e
    simp only [put, insert] at ih ⊢
    split
    · next here =>
      obtain rfl := (Value.beq_string_iff k' key).1 here
      by_cases same : key = k <;> simp [get?, same]
    · next here =>
      have other : k' ≠ .string key := fun h => here ((Value.beq_string_iff k' key).2 h)
      cases k' with
      | string s =>
        by_cases same : s = k
        · subst same
          have : key ≠ s := fun h => other (h ▸ rfl)
          simp [get?, this]
        · simp [get?, same, ih]
      | _ => simp [get?, ih]

/-- A mapping from entries; the last value of a repeated key counts, at the first place. -/
def ofEntries (entries : List (Value × Value)) : Mapping :=
  entries.foldl (fun m e => insert m e.1 e.2) []

/-- The entries before and after the one with a text key. -/
def splitAtKey : Mapping → String → Option (Mapping × Value × Mapping)
  | [], _ => none
  | (.string s, v) :: rest, key =>
    if s = key then some ([], v, rest)
    else (splitAtKey rest key).map fun (before, found, after) =>
      ((.string s, v) :: before, found, after)
  | e :: rest, key =>
    (splitAtKey rest key).map fun (before, found, after) => (e :: before, found, after)

/-- Takes the entry with a text key out of a mapping; the last entry moves into its place. -/
def remove (m : Mapping) (key : String) : Option Value × Mapping :=
  match splitAtKey m key with
  | none => (none, m)
  | some (before, found, after) =>
    (some found, before ++ match after.getLast? with
      | none => []
      | some last => last :: after.dropLast)

end Mapping

end ZoomConfig
