import ZoomConfig.Proofs.Decimal.Characters
import ZoomConfig.Proofs.Outcome
import ZoomConfig.Zoom.Node
/-!
What is left of a mapping among the inputs at a zoom level.

Keys are plain or conditions (`plainName?`, `condition?`). A mapping whose keys are conditions stands
for the value of the first one that is true (`resolve_switch`). One with plain keys stays a mapping
with all its keys, and null at those of which nothing is left (`resolve_group`).
-/
namespace ZoomConfig

/-! ## Keys -/

/-- The name of a plain key. -/
def plainName? (k : Value) : Option String :=
  match keyText k with
  | .ok name => if Condition.classify name = .plain then some name else none
  | .error _ => none

/-- The condition of a key. -/
def condition? (k : Value) : Option Condition :=
  match keyText k with
  | .ok name =>
    match Condition.classify name with
    | .condition c => some c
    | _ => none
  | .error _ => none

theorem plainName?_eq_some {k : Value} {name : String} (h : plainName? k = some name) :
    keyText k = .ok name ∧ NodeKey.parse name = .ok ⟨name, none⟩ := by
  unfold plainName? at h
  cases hk : keyText k with
  | error e => simp [hk] at h
  | ok n =>
    simp only [hk, Option.ite_none_right_eq_some, Option.some.injEq] at h
    obtain ⟨plain, rfl⟩ := h
    exact ⟨rfl, by simp [NodeKey.parse, plain]⟩

theorem condition?_eq_some {k : Value} {c : Condition} (h : condition? k = some c) :
    ∃ name, keyText k = .ok name ∧ NodeKey.parse name = .ok ⟨name, some c⟩ := by
  unfold condition? at h
  cases hk : keyText k with
  | error e => simp [hk] at h
  | ok name =>
    simp only [hk] at h
    cases hc : Condition.classify name with
    | condition c' =>
      obtain rfl : c' = c := by simpa [hc] using h
      exact ⟨name, rfl, by simp [NodeKey.parse, hc]⟩
    | plain => simp [hc] at h
    | malformed => simp [hc] at h

theorem NodeKey.parse_name {name : String} {key : NodeKey} (h : NodeKey.parse name = .ok key) :
    key.name = name := by
  unfold NodeKey.parse at h
  split at h
  · cases h
    rfl
  · cases h
    rfl
  · cases h

theorem condition?_of_parse {k : Value} {name : String} {key : NodeKey}
    (text : keyText k = .ok name) (parsed : NodeKey.parse name = .ok key) :
    condition? k = key.condition := by
  unfold NodeKey.parse at parsed
  unfold condition?
  split at parsed
  · next h =>
    cases parsed
    simp [text, h]
  · next h =>
    cases parsed
    simp [text, h]
  · cases parsed

/-- Only a text can be a key with a letter that no number has. -/
theorem keyText_eq_word {k : Value} {word : String} {c : Char} (h : keyText k = .ok word)
    (mem : c ∈ word.toList) (letter : ¬(c.isDigit ∨ c ∈ Decimal.documentLayout.marks))
    (noBool : ∀ b, boolText b ≠ word) : k = .string word := by
  cases k with
  | string s =>
    obtain rfl : s = word := by simpa [keyText] using h
    rfl
  | bool b => exact absurd (by simpa [keyText] using h) (noBool b)
  | number n =>
    have text : n.text = word := by simpa [keyText] using h
    rw [← text] at mem
    exact absurd (Number.text_mem mem) letter
  | _ => simp [keyText] at h

theorem keyText_eq_format {k : Value} (h : keyText k = .ok formatKey) : k = .string formatKey :=
  keyText_eq_word (c := 'm') h (by decide) (by decide) (by decide)

theorem keyText_eq_input {k : Value} (h : keyText k = .ok inputKey) : k = .string inputKey :=
  keyText_eq_word (c := 'p') h (by decide) (by decide) (by decide)

/-- Every key is plain; the names are distinct and without slashes. -/
def PlainKeys (entries : List (Value × Value)) : Prop :=
  (∀ e ∈ entries, ∃ name, plainName? e.1 = some name ∧ '/' ∉ name.toList) ∧
    (entries.map fun e => plainName? e.1).Nodup

/-- Every key is a condition. -/
def ZoomKeys (entries : List (Value × Value)) : Prop :=
  ∀ e ∈ entries, (condition? e.1).isSome

theorem PlainKeys.tail {e : Value × Value} {entries : List (Value × Value)}
    (h : PlainKeys (e :: entries)) : PlainKeys entries :=
  ⟨fun x mem => h.1 x (List.mem_cons_of_mem e mem), (List.nodup_cons.mp h.2).2⟩

theorem ZoomKeys.tail {e : Value × Value} {entries : List (Value × Value)}
    (h : ZoomKeys (e :: entries)) : ZoomKeys entries :=
  fun x mem => h x (List.mem_cons_of_mem e mem)

/-! ## Mappings from entries -/

namespace Mapping

theorem insert_of_new {m : Mapping} {name : String} (new : ∀ e ∈ m, e.1 ≠ .string name)
    (v : Value) : insert m (.string name) v = m ++ [(.string name, v)] := by
  induction m with
  | nil => rfl
  | cons e rest ih =>
    obtain ⟨k, v'⟩ := e
    have other : ¬(k == .string name) = true := by
      rw [Value.beq_string_iff]
      exact new (k, v') List.mem_cons_self
    simp [insert, other, ih fun e mem => new e (List.mem_cons_of_mem _ mem)]

theorem ofEntries_distinct (entries : List (String × Value))
    (distinct : (entries.map (·.1)).Nodup) :
    ofEntries (entries.map fun e => (.string e.1, e.2)) =
      entries.map fun e => (.string e.1, e.2) := by
  suffices grow : ∀ (entries : List (String × Value)) (m : Mapping),
      (entries.map (·.1)).Nodup → (∀ e ∈ entries, ∀ x ∈ m, x.1 ≠ .string e.1) →
      (entries.map fun e => ((.string e.1, e.2) : Value × Value)).foldl
        (fun m e => insert m e.1 e.2) m = m ++ entries.map fun e => (.string e.1, e.2) by
    simpa [ofEntries] using grow entries [] distinct
  intro entries
  induction entries with
  | nil => simp
  | cons e rest ih =>
    intro m distinct new
    obtain ⟨alone, distinct⟩ := List.nodup_cons.mp distinct
    rw [List.map_cons, List.foldl_cons, insert_of_new (new e List.mem_cons_self) e.2,
      ih (m ++ [(Value.string e.1, e.2)]) distinct]
    · simp
    · intro x mem y hy
      rcases List.mem_append.mp hy with hy | hy
      · exact new x (List.mem_cons_of_mem e mem) y hy
      · obtain rfl : y = (.string e.1, e.2) := by simpa using hy
        intro same
        obtain same : e.1 = x.1 := by simpa using same
        exact alone (List.mem_map.mpr ⟨x, mem, same.symm⟩)

theorem get?_strings (entries : List (String × Value)) (key : String) :
    get? (entries.map fun e => (.string e.1, e.2)) key =
      (entries.find? (·.1 = key)).map (·.2) := by
  induction entries with
  | nil => rfl
  | cons e rest ih => by_cases same : e.1 = key <;> simp [get?, same, ih]

theorem contains_strings {entries : List (String × Value)} {key : String} :
    contains (entries.map fun e => (.string e.1, e.2)) key = true ↔ key ∈ entries.map (·.1) := by
  rw [contains, get?_strings, Option.isSome_map, List.find?_isSome, List.mem_map]
  simp only [decide_eq_true_eq]

theorem contains_of_mem {m : Mapping} {key : String} {v : Value} (h : (.string key, v) ∈ m) :
    contains m key = true := by
  induction m with
  | nil => simp at h
  | cons e rest ih =>
    obtain ⟨k, w⟩ := e
    rcases List.mem_cons.mp h with h | h
    · obtain ⟨rfl, rfl⟩ := Prod.mk.inj h
      simp [contains, get?]
    · have here := ih h
      unfold contains at here ⊢
      cases k with
      | string s =>
        by_cases same : s = key
        · simp [get?, same]
        · simpa [get?, same] using here
      | _ => exact here

theorem mem_of_get? {m : Mapping} {key : String} {v : Value} (h : get? m key = some v) :
    (.string key, v) ∈ m := by
  induction m with
  | nil => cases h
  | cons e rest ih =>
    obtain ⟨k, u⟩ := e
    cases k with
    | string s =>
      by_cases same : s = key
      · obtain rfl : u = v := by simpa [get?, same] using h
        rw [same]
        exact List.mem_cons_self
      · exact List.mem_cons_of_mem _ (ih (by simpa [get?, same] using h))
    | _ => exact List.mem_cons_of_mem _ (ih h)

end Mapping

theorem ZoomKeys.not_declaration {entries : List (Value × Value)} (h : ZoomKeys entries) :
    Mapping.contains entries formatKey = false := by
  cases declaration : Mapping.contains entries formatKey with
  | false => rfl
  | true =>
    obtain ⟨v, found⟩ := Option.isSome_iff_exists.mp declaration
    have condition := h _ (Mapping.mem_of_get? found)
    have plain : condition? (.string formatKey) = none := by decide
    rw [plain] at condition
    cases condition

/-! ## Children -/

namespace Node

open Outcome

/-- Reading entries reads a key, its value and the others. -/
theorem parseChildren_bind (k v : Value) (rest : List (Value × Value)) :
    parseChildren ((k, v) :: rest) = (keyText k >>= NodeKey.parse) >>= fun key =>
      parse v >>= fun node => (parseChildren rest).map ((key, node) :: ·) := by
  rw [parseChildren]
  cases keyText k with
  | error e => rfl
  | ok name =>
    simp only [bind, Except.bind]
    cases NodeKey.parse name with
    | error e => rfl
    | ok key => cases parse v <;> rfl

theorem parseChildren_cons {k v : Value} {rest : List (Value × Value)}
    {children : List (NodeKey × Node)} (h : parseChildren ((k, v) :: rest) = .ok children) :
    ∃ name key node others, keyText k = .ok name ∧ NodeKey.parse name = .ok key ∧
      parse v = .ok node ∧ parseChildren rest = .ok others ∧ children = (key, node) :: others := by
  rw [parseChildren_bind] at h
  obtain ⟨key, read, h⟩ := bind_eq_ok.mp h
  obtain ⟨name, hname, hkey⟩ := bind_eq_ok.mp read
  obtain ⟨node, hnode, h⟩ := bind_eq_ok.mp h
  obtain ⟨others, hothers, rfl⟩ := map_eq_ok.mp h
  exact ⟨name, key, node, others, hname, hkey, hnode, hothers, rfl⟩

theorem mem_parseChildren : ∀ {entries : List (Value × Value)} {children : List (NodeKey × Node)},
    parseChildren entries = .ok children → ∀ x ∈ children, ∃ e ∈ entries,
      keyText e.1 = .ok x.1.name ∧ NodeKey.parse x.1.name = .ok x.1 ∧ parse e.2 = .ok x.2
  | [], _, h, x, mem => by
    cases h
    cases mem
  | (k, v) :: rest, _, h, x, mem => by
    obtain ⟨name, key, node, others, hname, hkey, hnode, hothers, rfl⟩ := parseChildren_cons h
    rcases List.mem_cons.mp mem with rfl | mem
    · rw [← NodeKey.parse_name hkey] at hname hkey
      exact ⟨(k, v), List.mem_cons_self, hname, hkey, hnode⟩
    · obtain ⟨e, inside, read⟩ := mem_parseChildren hothers x mem
      exact ⟨e, List.mem_cons_of_mem _ inside, read⟩

theorem parseChildren_zoom {k v : Value} {rest : List (Value × Value)} {c : Condition}
    {children : List (NodeKey × Node)} (h : parseChildren ((k, v) :: rest) = .ok children)
    (hk : condition? k = some c) :
    ∃ name node others, parse v = .ok node ∧ parseChildren rest = .ok others ∧
      children = (⟨name, some c⟩, node) :: others := by
  obtain ⟨name, key, node, others, hname, hkey, hnode, hothers, rfl⟩ := parseChildren_cons h
  obtain ⟨name', hname', hkey'⟩ := condition?_eq_some hk
  obtain rfl : name = name' := by simpa [hname] using hname'
  obtain rfl : key = ⟨name, some c⟩ := by simpa [hkey] using hkey'
  exact ⟨name, node, others, hnode, hothers, rfl⟩

theorem parseChildren_plain {k v : Value} {rest : List (Value × Value)} {name : String}
    {children : List (NodeKey × Node)} (h : parseChildren ((k, v) :: rest) = .ok children)
    (hk : plainName? k = some name) :
    ∃ node others, parse v = .ok node ∧ parseChildren rest = .ok others ∧
      children = (⟨name, none⟩, node) :: others := by
  obtain ⟨name', key, node, others, hname, hkey, hnode, hothers, rfl⟩ := parseChildren_cons h
  obtain ⟨hname', hkey'⟩ := plainName?_eq_some hk
  obtain rfl : name' = name := by simpa [hname] using hname'
  obtain rfl : key = ⟨name', none⟩ := by simpa [hkey] using hkey'
  exact ⟨node, others, hnode, hothers, rfl⟩

theorem parse_other {v : Value} (h : ∀ entries, v ≠ .mapping entries) : parse v = .ok (.value v) := by
  cases v with
  | mapping entries => exact absurd rfl (h entries)
  | _ => rfl

theorem parse_plain {entries : List (Value × Value)}
    (plain : Mapping.contains entries formatKey = false) {node : Node}
    (h : parse (.mapping entries) = .ok node) :
    ∃ children, parseChildren entries = .ok children ∧ node = .branch children := by
  simp only [parse, plain, Bool.false_eq_true, if_false] at h
  obtain ⟨children, hchildren, rfl⟩ := map_eq_ok.mp h
  exact ⟨children, hchildren, rfl⟩

theorem parse_of_keys {entries : List (Value × Value)}
    (keys : ∀ e ∈ entries, (plainName? e.1).isSome ∨ (condition? e.1).isSome)
    (each : ∀ e ∈ entries, ∃ node, parse e.2 = .ok node) :
    ∃ node, parse (.mapping entries) = .ok node := by
  have read : ∃ children, parseChildren entries = .ok children := by
    induction entries with
    | nil => exact ⟨[], rfl⟩
    | cons e rest ih =>
      obtain ⟨others, hothers⟩ := ih (fun x mem => keys x (List.mem_cons_of_mem e mem))
        fun x mem => each x (List.mem_cons_of_mem e mem)
      obtain ⟨node, hnode⟩ := each e List.mem_cons_self
      have key : ∃ name key, keyText e.1 = .ok name ∧ NodeKey.parse name = .ok key := by
        rcases keys e List.mem_cons_self with h | h
        · obtain ⟨name, h⟩ := Option.isSome_iff_exists.mp h
          exact ⟨name, _, plainName?_eq_some h⟩
        · obtain ⟨c, h⟩ := Option.isSome_iff_exists.mp h
          obtain ⟨name, hname, hkey⟩ := condition?_eq_some h
          exact ⟨name, _, hname, hkey⟩
      obtain ⟨name, key, hname, hkey⟩ := key
      exact ⟨(key, node) :: others, by simp [parseChildren, hname, hkey, hnode, hothers, Except.map]⟩
  obtain ⟨children, read⟩ := read
  by_cases declaration : Mapping.contains entries formatKey = true
  · exact ⟨.terminal entries, by simp [parse, declaration]⟩
  · exact ⟨.branch children, by simp [parse, declaration, read, Except.map]⟩

theorem resolveChildren_matched {zoom : Nat} {inInput : Bool} : ∀ {entries : List (Value × Value)}
    {children : List (NodeKey × Node)}, ZoomKeys entries → parseChildren entries = .ok children →
    resolveChildren zoom inInput true children = []
  | [], _, _, h => by
    cases h
    rfl
  | (k, v) :: rest, _, keys, h => by
    obtain ⟨c, hc⟩ := Option.isSome_iff_exists.mp (keys (k, v) List.mem_cons_self)
    obtain ⟨name, node, others, _, hothers, rfl⟩ := parseChildren_zoom h hc
    simpa [resolveChildren] using resolveChildren_matched keys.tail hothers

/-- Is the condition of an entry true? -/
def entryHolds (zoom : Nat) (e : Value × Value) : Bool := (condition? e.1).any (·.holds zoom)

/-- Of a mapping with conditions the value of the first true one is left. -/
theorem resolve_switch (zoom : Nat) (inInput : Bool) : ∀ {entries : List (Value × Value)}
    {children : List (NodeKey × Node)}, ZoomKeys entries → parseChildren entries = .ok children →
    match entries.find? (entryHolds zoom) with
    | none => collapse inInput (resolveChildren zoom inInput false children) = none
    | some e => ∃ node, parse e.2 = .ok node ∧
        collapse inInput (resolveChildren zoom inInput false children) = node.resolve zoom inInput
  | [], _, _, h => by
    cases h
    rfl
  | (k, v) :: rest, _, keys, h => by
    obtain ⟨c, hc⟩ := Option.isSome_iff_exists.mp (keys (k, v) List.mem_cons_self)
    obtain ⟨name, node, others, hnode, hothers, rfl⟩ := parseChildren_zoom h hc
    by_cases holds : c.holds zoom = true
    · have here : entryHolds zoom (k, v) = true := by simp [entryHolds, hc, holds]
      rw [List.find?_cons_of_pos here]
      refine ⟨node, hnode, ?_⟩
      simp only [resolveChildren, holds, Bool.not_false, Bool.and_self, if_true,
        resolveChildren_matched keys.tail hothers, List.append_nil]
      cases node.resolve zoom inInput <;> simp [collapse]
    · have here : ¬entryHolds zoom (k, v) = true := by simp [entryHolds, hc, holds]
      rw [List.find?_cons_of_neg here]
      simpa [resolveChildren, holds] using resolve_switch zoom inInput keys.tail hothers

/-- The entries of a group of which at least null is left. -/
def groupEntries (zoom : Nat) (children : List (NodeKey × Node)) : List (String × Value) :=
  children.map fun (key, node) => (key.name, (node.resolve zoom true).getD .null)

theorem resolveChildren_plain (zoom : Nat) : ∀ {entries : List (Value × Value)}
    {children : List (NodeKey × Node)}, PlainKeys entries → parseChildren entries = .ok children →
    resolveChildren zoom true false children =
        (groupEntries zoom children).map (fun e => ⟨e.1, e.2, false⟩) ∧
      (groupEntries zoom children).map (fun e => some e.1) = entries.map fun e => plainName? e.1
  | [], _, _, h => by
    cases h
    exact ⟨rfl, rfl⟩
  | (k, v) :: rest, _, keys, h => by
    obtain ⟨name, hname, _⟩ := keys.1 (k, v) List.mem_cons_self
    obtain ⟨node, others, _, hothers, rfl⟩ := parseChildren_plain h hname
    obtain ⟨entriesEq, names⟩ := resolveChildren_plain zoom keys.tail hothers
    constructor
    · simp only [resolveChildren, Bool.true_or, entriesEq, groupEntries, List.map_cons]
      cases node.resolve zoom true <;> rfl
    · simp only [groupEntries, List.map_cons, hname] at names ⊢
      rw [names]

/-- Of a mapping with plain keys a mapping with the same keys is left. -/
theorem resolve_group {zoom : Nat} {entries : List (Value × Value)}
    {children : List (NodeKey × Node)} (keys : PlainKeys entries) (nonempty : entries ≠ [])
    (h : parseChildren entries = .ok children) :
    collapse true (resolveChildren zoom true false children) =
      some (.mapping ((groupEntries zoom children).map fun e => (.string e.1, e.2))) := by
  obtain ⟨entriesEq, names⟩ := resolveChildren_plain zoom keys h
  have distinct : ((groupEntries zoom children).map (·.1)).Nodup := by
    have := keys.2
    rw [← names] at this
    simpa [List.Nodup, List.pairwise_map] using this
  have mapping : toMapping (resolveChildren zoom true false children) =
      (groupEntries zoom children).map fun e => (.string e.1, e.2) := by
    rw [entriesEq, toMapping, List.map_map]
    exact Mapping.ofEntries_distinct _ distinct
  have some : resolveChildren zoom true false children ≠ [] := by
    rw [entriesEq]
    intro empty
    have : entries.length = 0 := by
      rw [← List.length_map (fun e : Value × Value => plainName? e.1), ← names]
      simpa using empty
    exact nonempty (List.eq_nil_of_length_eq_zero this)
  rw [← mapping]
  match hr : resolveChildren zoom true false children with
  | [] => exact absurd hr some
  | [e] =>
    have : e.conditional = false := by
      rw [entriesEq] at hr
      obtain ⟨x, _, rfl⟩ : ∃ x ∈ groupEntries zoom children, (⟨x.1, x.2, false⟩ : Entry) = e :=
        List.mem_map.mp (by rw [hr]; exact List.mem_cons_self)
      rfl
    simp [collapse, this]
  | _ :: _ :: _ => rfl

theorem group_not_declaration {zoom : Nat} {entries : List (Value × Value)}
    {children : List (NodeKey × Node)} (keys : PlainKeys entries)
    (plain : Mapping.contains entries formatKey = false)
    (h : parseChildren entries = .ok children) :
    Mapping.contains ((groupEntries zoom children).map fun e => (.string e.1, e.2)) formatKey =
      false := by
  obtain ⟨_, names⟩ := resolveChildren_plain zoom keys h
  refine eq_false_of_ne_true fun declaration => ?_
  obtain ⟨x, mem, here⟩ := List.mem_map.mp (Mapping.contains_strings.mp declaration)
  have : some formatKey ∈ entries.map fun e => plainName? e.1 := by
    rw [← names]
    exact List.mem_map.mpr ⟨x, mem, by rw [here]⟩
  obtain ⟨⟨k, v⟩, mem', hk⟩ := List.mem_map.mp this
  obtain rfl := keyText_eq_format (plainName?_eq_some hk).1
  rw [Mapping.contains_of_mem mem'] at plain
  cases plain

end Node

end ZoomConfig
