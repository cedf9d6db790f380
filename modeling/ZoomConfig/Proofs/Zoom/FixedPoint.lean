import ZoomConfig.Proofs.Zoom.Leftover
/-!
Resolving what is left.

What is left of a value at a zoom level is settled (`Settled`): the conditions in it are true and never
stand beside each other, and no group can collapse. A settled value is read, and all of it is left
(`Settled.resolve`); what is left of a value is settled (`resolve_settled`). So resolving a second time
changes nothing (`resolve_fixed_point`). Outside the inputs this is shown for values in which no two
keys of a group have the same text and none is that of the inputs (`Value.Regular`): keys that become
one could leave a group with a single entry, and inputs are resolved otherwise than what is around them.
-/
namespace ZoomConfig

/-- A value stands in another one beneath groups alone, not inside a declaration, a sequence or a tag. -/
inductive Value.Within (u : Value) : Value → Prop where
  | here : Within u u
  | entry {entries : List (Value × Value)} {e : Value × Value}
    (group : Mapping.contains entries formatKey = false) (mem : e ∈ entries)
    (inside : Within u e.2) : Within u (.mapping entries)

/-- No group has two keys with the same text, and none has the key of the inputs. -/
def Value.Regular (v : Value) : Prop :=
  ∀ entries, Within (.mapping entries) v → Mapping.contains entries formatKey = false →
    (entries.Pairwise fun a b => ∀ name, keyText a.1 = .ok name → keyText b.1 ≠ .ok name) ∧
    ∀ e ∈ entries, e.1 ≠ .string inputKey

theorem Value.Regular.entry {entries : List (Value × Value)} {e : Value × Value}
    (h : Regular (.mapping entries)) (group : Mapping.contains entries formatKey = false)
    (mem : e ∈ entries) : e.2.Regular :=
  fun others inside => h others (.entry group mem inside)

theorem Value.Regular.mapping {entries : List (Value × Value)}
    (apart : entries.Pairwise fun a b => ∀ name, keyText a.1 = .ok name → keyText b.1 ≠ .ok name)
    (noInput : ∀ e ∈ entries, e.1 ≠ .string inputKey) (each : ∀ e ∈ entries, e.2.Regular) :
    Regular (.mapping entries) := by
  intro others inside group
  cases inside with
  | here => exact ⟨apart, noInput⟩
  | entry _ mem inside => exact each _ mem others inside group

theorem Value.Regular.other {v : Value} (h : ∀ entries, v ≠ .mapping entries) : v.Regular := by
  intro others inside
  cases inside with
  | here => exact absurd rfl (h others)
  | entry => exact absurd rfl (h _)

/-- The key of a name, with its condition if it is one. -/
def nameKey (name : String) : NodeKey := ⟨name, condition? (.string name)⟩

theorem NodeKey.parse_nameKey {name : String} {key : NodeKey} (h : NodeKey.parse name = .ok key) :
    key = nameKey name := by
  have condition : condition? (.string name) = key.condition := condition?_of_parse rfl h
  rw [nameKey, condition, ← NodeKey.parse_name h]

namespace Node

variable {zoom : Nat} {inInput : Bool}

/-! ## Settled values -/

/-- A name stands for a key that can be read, whose condition is true if it is one. -/
structure Kept (zoom : Nat) (inInput : Bool) (name : String) : Prop where
  read : NodeKey.parse name = .ok (nameKey name)
  holds : (nameKey name).holds zoom = (nameKey name).condition.isSome
  noFormat : name ≠ formatKey
  noInput : inInput = false → name ≠ inputKey

/-- The names of a group that does not collapse. -/
structure Stays (zoom : Nat) (inInput : Bool) (names : List String) : Prop where
  nonempty : names ≠ []
  distinct : names.Nodup
  kept : ∀ name ∈ names, Kept zoom inInput name
  one : names.Pairwise fun a b => (nameKey a).condition = none ∨ (nameKey b).condition = none
  single : ∀ name, names = [name] → inInput = true ∧ (nameKey name).condition = none

/-- Of the value all is left, in every part of it. Among the inputs null may stand at a plain key. -/
inductive Settled (zoom : Nat) (inInput : Bool) : Value → Prop where
  | declaration {entries : List (Value × Value)} (h : Mapping.contains entries formatKey = true) :
    Settled zoom inInput (.mapping entries)
  | group {entries : List (String × Value)} (stays : Stays zoom inInput (entries.map (·.1)))
    (nulls : ∀ e ∈ entries, e.2 = .null → inInput = true ∧ (nameKey e.1).condition = none)
    (each : ∀ e ∈ entries, e.2 ≠ .null → Settled zoom inInput e.2) :
    Settled zoom inInput (.mapping (entries.map fun e => (.string e.1, e.2)))
  | other {v : Value} (notNull : v ≠ .null) (h : ∀ entries, v ≠ .mapping entries) :
    Settled zoom inInput v

theorem Settled.ne_null {v : Value} (h : Settled zoom inInput v) : v ≠ .null := by
  cases h with
  | declaration => simp
  | group => simp
  | other notNull => exact notNull

/-- Beneath any key but that of the inputs values are resolved as around it. -/
theorem inInput_or_isInput {key : NodeKey} (other : inInput = false → key.name ≠ inputKey) :
    (inInput || key.isInput) = inInput := by
  cases inInput with
  | true => rfl
  | false => simp [NodeKey.isInput, other rfl]

/-! ## Settled values are left as they are -/

/-- What a kept name contributes with a value of which all is left, or with null among the inputs. -/
theorem Kept.contributes {name : String} {v : Value} {node : Node} (kept : Kept zoom inInput name)
    (left : node.resolve zoom inInput = some v ∨ node.resolve zoom inInput = none ∧ v = .null ∧
      inInput = true ∧ (nameKey name).condition = none) :
    (if (nameKey name).holds zoom then chosenPart zoom inInput (nameKey name, node)
      else plainPart zoom inInput (nameKey name, node)) =
        [⟨name, v, (nameKey name).condition.isSome⟩] := by
  cases given : (nameKey name).condition with
  | some c =>
    have holds : (nameKey name).holds zoom = true := by rw [kept.holds, given]; rfl
    rw [given] at left
    obtain left | ⟨-, -, -, plain⟩ := left
    · rw [if_pos holds, chosenPart, left]
      rfl
    · cases plain
  | none =>
    have holds : ¬(nameKey name).holds zoom = true := by rw [kept.holds, given]; simp
    have depth : (inInput || (nameKey name).isInput) = inInput := inInput_or_isInput kept.noInput
    rw [if_neg holds, plainPart, given, depth]
    obtain left | ⟨left, rfl, inputs, -⟩ := left
    · rw [left]
      rfl
    · rw [left, inputs]
      rfl

/-- The children that entries with kept names are read as, and what is left of them. -/
theorem resolveChildren_kept : ∀ {entries : List (String × Value)},
    (∀ e ∈ entries, Kept zoom inInput e.1) →
    ((entries.map (·.1)).Pairwise fun a b =>
      (nameKey a).condition = none ∨ (nameKey b).condition = none) →
    (∀ e ∈ entries, ∃ node, parse e.2 = .ok node ∧ (node.resolve zoom inInput = some e.2 ∨
      node.resolve zoom inInput = none ∧ e.2 = .null ∧ inInput = true ∧
        (nameKey e.1).condition = none)) →
    ∃ children, parseChildren (entries.map fun e => (.string e.1, e.2)) = .ok children ∧
      ∀ matched, (matched = true → ∀ e ∈ entries, (nameKey e.1).condition = none) →
        resolveChildren zoom inInput matched children =
          entries.map fun e => ⟨e.1, e.2, (nameKey e.1).condition.isSome⟩
  | [], _, _, _ => ⟨[], rfl, fun _ _ => rfl⟩
  | e :: rest, kept, one, each => by
    obtain ⟨kept, keptRest⟩ := List.forall_mem_cons.mp kept
    obtain ⟨node, read, left⟩ := each e List.mem_cons_self
    obtain ⟨alone, one⟩ := List.pairwise_cons.mp one
    obtain ⟨others, readRest, leftRest⟩ := resolveChildren_kept keptRest one
      fun x mem => each x (List.mem_cons_of_mem e mem)
    have part := kept.contributes left
    refine ⟨(nameKey e.1, node) :: others, ?_, fun matched unmatched => ?_⟩
    · have text : keyText (.string e.1) = .ok e.1 := rfl
      simp only [List.map_cons, parseChildren, text, kept.read, read, readRest, Except.map]
    · rw [resolveChildren_cons, List.map_cons]
      cases given : (nameKey e.1).condition with
      | some c =>
        -- No other condition follows, and none was true before.
        have first : matched = false := by
          cases matched with
          | false => rfl
          | true =>
            have plain := unmatched rfl e List.mem_cons_self
            rw [given] at plain
            cases plain
        have later : ∀ x ∈ rest, (nameKey x.1).condition = none := by
          intro x mem
          have apart := alone x.1 (List.mem_map_of_mem mem)
          rw [given] at apart
          exact apart.resolve_left (by simp)
        have holds : (nameKey e.1).holds zoom = true := by rw [kept.holds, given]; rfl
        rw [if_pos holds, given] at part
        rw [first, leftRest true fun _ => later]
        simp only [holds, Bool.not_false, Bool.and_self, if_true, part]
        rfl
      | none =>
        have holds : (nameKey e.1).holds zoom = false := by rw [kept.holds, given]; rfl
        rw [if_neg (ne_true_of_eq_false holds), given] at part
        rw [leftRest matched fun h x mem => unmatched h x (List.mem_cons_of_mem e mem)]
        simp only [holds, Bool.false_and, Bool.false_eq_true, if_false, part]
        rfl

theorem collapse_stays {entries : List (String × Value)}
    (stays : Stays zoom inInput (entries.map (·.1))) :
    collapse inInput (entries.map fun e => ⟨e.1, e.2, (nameKey e.1).condition.isSome⟩) =
      some (.mapping (entries.map fun e => (.string e.1, e.2))) := by
  have mapping : toMapping (entries.map fun e => ⟨e.1, e.2, (nameKey e.1).condition.isSome⟩) =
      entries.map fun e => (.string e.1, e.2) := by
    rw [toMapping, List.map_map]
    exact Mapping.ofEntries_distinct entries stays.distinct
  rw [← mapping]
  cases entries with
  | nil => exact absurd rfl stays.nonempty
  | cons e rest =>
    cases rest with
    | nil =>
      obtain ⟨inputs, plain⟩ := stays.single e.1 rfl
      simp [collapse, inputs, plain]
    | cons _ _ => rfl

/-- All of a settled value is left. -/
theorem Settled.resolve {v : Value} (h : Settled zoom inInput v) :
    ∃ node, parse v = .ok node ∧ node.resolve zoom inInput = some v := by
  induction h with
  | @declaration entries h => exact ⟨.terminal entries, by rw [parse, if_pos h], rfl⟩
  | @other v notNull h => exact ⟨.value v, parse_other h, resolve_value notNull zoom inInput⟩
  | @group entries stays nulls _ ih =>
    have each : ∀ e ∈ entries, ∃ node, parse e.2 = .ok node ∧
        (node.resolve zoom inInput = some e.2 ∨ node.resolve zoom inInput = none ∧ e.2 = .null ∧
          inInput = true ∧ (nameKey e.1).condition = none) := by
      intro e mem
      by_cases null : e.2 = .null
      · exact ⟨.value .null, by rw [null]; rfl, .inr ⟨rfl, null, nulls e mem null⟩⟩
      · obtain ⟨node, read, left⟩ := ih e mem null
        exact ⟨node, read, .inl left⟩
    obtain ⟨children, read, left⟩ := resolveChildren_kept
      (fun e mem => stays.kept e.1 (List.mem_map_of_mem mem)) stays.one each
    have group : ¬Mapping.contains (entries.map fun e => (.string e.1, e.2)) formatKey = true := by
      rw [Mapping.contains_strings]
      exact fun here => (stays.kept formatKey here).noFormat rfl
    refine ⟨.branch children, by rw [parse, if_neg group, read]; rfl, ?_⟩
    rw [Node.resolve, left false (by simp)]
    exact collapse_stays stays

/-! ## What is left is settled -/

/-- A part of what is left of a group. -/
structure SettledPart (zoom : Nat) (inInput : Bool) (part : Entry) : Prop where
  kept : Kept zoom inInput part.name
  conditional : part.conditional = (nameKey part.name).condition.isSome
  null : part.value = .null → inInput = true ∧ part.conditional = false
  settled : part.value ≠ .null → Settled zoom inInput part.value

section Children

variable {entries : List (Value × Value)} (group : Mapping.contains entries formatKey = false)
  (noInput : inInput = false → ∀ e ∈ entries, e.1 ≠ .string inputKey)

include group noInput

theorem kept_of_read {e : Value × Value} {key : NodeKey} (written : e ∈ entries)
    (text : keyText e.1 = .ok key.name) (read : NodeKey.parse key.name = .ok key)
    (holds : key.holds zoom = key.condition.isSome) : Kept zoom inInput key.name := by
  have named : key = nameKey key.name := NodeKey.parse_nameKey read
  refine ⟨named ▸ read, named ▸ holds, fun same => ?_, fun outside same => ?_⟩
  · rw [same] at text
    have format : (.string formatKey, e.2) ∈ entries := keyText_eq_format text ▸ written
    rw [Mapping.contains_of_mem format] at group
    cases group
  · rw [same] at text
    exact noInput outside e written (keyText_eq_input text)

/-- If what is left of the values of a group is settled, so are the parts that are left of it. -/
theorem resolveChildren_settled {children : List (NodeKey × Node)}
    (each : ∀ e ∈ entries, ∀ {node : Node} {r : Value}, parse e.2 = .ok node →
      node.resolve zoom inInput = some r → Settled zoom inInput r)
    (read : parseChildren entries = .ok children) :
    ∀ part ∈ resolveChildren zoom inInput false children, SettledPart zoom inInput part := by
  intro part mem
  obtain ⟨⟨key, node⟩, inside, here⟩ := exists_part mem
  obtain ⟨e, written, text, named, parsed⟩ := mem_parseChildren read _ inside
  have kept : key.holds zoom = key.condition.isSome → Kept zoom inInput key.name :=
    kept_of_read group noInput written text named
  have condition : (nameKey key.name).condition = key.condition := by
    rw [← NodeKey.parse_nameKey named]
  rcases here with here | ⟨holds, here⟩
  · obtain ⟨flag, name, plain, left⟩ := of_mem_plainPart here
    have kept : Kept zoom inInput key.name := kept (by rw [NodeKey.holds, plain]; rfl)
    rw [inInput_or_isInput kept.noInput] at left
    refine ⟨name ▸ kept, by rw [name, condition, flag, plain]; rfl, fun null => ⟨?_, flag⟩,
      fun some => ?_⟩
    · obtain left | ⟨inputs, _⟩ := left
      · exact absurd null (each e written parsed left).ne_null
      · exact inputs
    · exact each e written parsed (left.resolve_right fun h => some h.2)
  · obtain ⟨flag, name, left⟩ := mem_chosenPart.mp here
    have isSome : key.condition.isSome = true := isSome_of_holds holds
    have settled : Settled zoom inInput part.value := each e written parsed left
    exact ⟨name ▸ kept (holds.trans isSome.symm), by rw [name, condition, flag, isSome],
      fun null => absurd null settled.ne_null, fun _ => settled⟩

end Children

section Parts

variable {parts : List Entry}

theorem conditional_unique (once : (parts.filter (·.conditional)).length ≤ 1) {a b : Entry}
    (ha : a ∈ parts) (hb : b ∈ parts) (chosenA : a.conditional = true)
    (chosenB : b.conditional = true) : a = b := by
  have ha : a ∈ parts.filter (·.conditional) := List.mem_filter.mpr ⟨ha, chosenA⟩
  have hb : b ∈ parts.filter (·.conditional) := List.mem_filter.mpr ⟨hb, chosenB⟩
  match chosen : parts.filter (·.conditional) with
  | [] =>
    rw [chosen] at ha
    cases ha
  | [x] =>
    rw [chosen] at ha hb
    rw [List.mem_singleton.mp ha, List.mem_singleton.mp hb]
  | _ :: _ :: _ =>
    rw [chosen] at once
    simp at once

theorem single_of_distinct (nonempty : parts ≠ []) (distinct : (parts.map Entry.name).Nodup)
    {name : String} (named : ∀ part ∈ parts, part.name = name) : ∃ part, parts = [part] :=
  match parts with
  | [] => absurd rfl nonempty
  | [part] => ⟨part, rfl⟩
  | a :: b :: rest => by
    have equal : a.name = b.name := (named a (by simp)).trans (named b (by simp)).symm
    simp [equal] at distinct

theorem single_of_conditional (nonempty : parts ≠ [])
    (once : (parts.filter (·.conditional)).length ≤ 1)
    (chosen : ∀ part ∈ parts, part.conditional = true) : ∃ part, parts = [part] := by
  rw [List.filter_eq_self.mpr chosen] at once
  have some := List.length_pos_iff.mpr nonempty
  exact List.length_eq_one_iff.mp (by omega)

/-- The names of a mapping of settled parts stay, unless there is a single part that takes its place. -/
theorem stays_of_parts {names : List String} (nonempty : parts ≠ [])
    (settled : ∀ part ∈ parts, SettledPart zoom inInput part)
    (once : (parts.filter (·.conditional)).length ≤ 1)
    (distinct : inInput = false → (parts.map Entry.name).Nodup)
    (single : ∀ part, parts = [part] → inInput = true ∧ part.conditional = false)
    (nodup : names.Nodup) (same : ∀ n, n ∈ names ↔ n ∈ parts.map Entry.name) :
    Stays zoom inInput names where
  nonempty := by
    obtain ⟨first, rest, rfl⟩ := List.exists_cons_of_ne_nil nonempty
    exact List.ne_nil_of_mem ((same first.name).mpr List.mem_cons_self)
  distinct := nodup
  kept := by
    intro name mem
    obtain ⟨part, inside, rfl⟩ := List.mem_map.mp ((same name).mp mem)
    exact (settled part inside).kept
  one := by
    refine nodup.imp_of_mem fun {a b} ha hb other => ?_
    obtain ⟨first, memA, rfl⟩ := List.mem_map.mp ((same a).mp ha)
    obtain ⟨second, memB, rfl⟩ := List.mem_map.mp ((same b).mp hb)
    cases chosenA : (nameKey first.name).condition with
    | none => exact .inl rfl
    | some c =>
      cases chosenB : (nameKey second.name).condition with
      | none => exact .inr rfl
      | some d =>
        have chosenA : first.conditional = true := by
          rw [(settled first memA).conditional, chosenA]
          rfl
        have chosenB : second.conditional = true := by
          rw [(settled second memB).conditional, chosenB]
          rfl
        exact absurd (by rw [conditional_unique once memA memB chosenA chosenB]) other
  single := by
    intro name only
    have named : ∀ part ∈ parts, part.name = name := by
      intro part mem
      have here := (same part.name).mpr (List.mem_map_of_mem mem)
      rwa [only, List.mem_singleton] at here
    constructor
    · cases outside : inInput with
      | true => rfl
      | false =>
        obtain ⟨part, alone⟩ := single_of_distinct nonempty (distinct outside) named
        rw [← outside]
        exact (single part alone).1
    · cases condition : (nameKey name).condition with
      | none => rfl
      | some c =>
        have chosen : ∀ part ∈ parts, part.conditional = true := by
          intro part mem
          rw [(settled part mem).conditional, named part mem, condition]
          rfl
        obtain ⟨part, alone⟩ := single_of_conditional nonempty once chosen
        have plain := (single part alone).2
        rw [chosen part (by simp [alone])] at plain
        cases plain

theorem toMapping_settled (nonempty : parts ≠ [])
    (settled : ∀ part ∈ parts, SettledPart zoom inInput part)
    (once : (parts.filter (·.conditional)).length ≤ 1)
    (distinct : inInput = false → (parts.map Entry.name).Nodup)
    (single : ∀ part, parts = [part] → inInput = true ∧ part.conditional = false) :
    Settled zoom inInput (.mapping (toMapping parts)) := by
  obtain ⟨kept, eq, nodup, given, names⟩ := toMapping_kept parts
  have part : ∀ e ∈ kept, SettledPart zoom inInput ⟨e.1, e.2, (nameKey e.1).condition.isSome⟩ := by
    intro e mem
    obtain ⟨part, here, name, value⟩ := given e mem
    have is := settled part here
    rw [← name, ← value, ← is.conditional]
    exact is
  rw [eq]
  refine .group (stays_of_parts nonempty settled once distinct single nodup names) ?_
    fun e mem => (part e mem).settled
  intro e mem null
  obtain ⟨inputs, plain⟩ := (part e mem).null null
  exact ⟨inputs, by simpa using plain⟩

theorem collapse_settled {r : Value} (settled : ∀ part ∈ parts, SettledPart zoom inInput part)
    (once : (parts.filter (·.conditional)).length ≤ 1)
    (distinct : inInput = false → (parts.map Entry.name).Nodup)
    (left : collapse inInput parts = some r) : Settled zoom inInput r := by
  match parts, left with
  | [part], left =>
    simp only [collapse] at left
    split at left
    · next taken =>
      cases left
      have is := settled part List.mem_cons_self
      refine is.settled fun null => ?_
      obtain ⟨inputs, plain⟩ := is.null null
      simp [inputs, plain] at taken
    · next taken =>
      cases left
      refine toMapping_settled (List.cons_ne_nil part []) settled once distinct fun other same => ?_
      cases same
      simpa using taken
  | a :: b :: rest, left =>
    cases left
    exact toMapping_settled (List.cons_ne_nil a _) settled once distinct fun _ same => by cases same

end Parts

theorem resolveChildren_names (zoom : Nat) (inInput : Bool) :
    ∀ (children : List (NodeKey × Node)) (matched : Bool),
      ((resolveChildren zoom inInput matched children).map Entry.name).Sublist
        (children.map (·.1.name))
  | [], _ => List.Sublist.refl []
  | x :: rest, matched => by
    rw [resolveChildren_cons, List.map_cons]
    split
    · have here : ((chosenPart zoom inInput x).map Entry.name).Sublist [x.1.name] := by
        unfold chosenPart
        split
        · exact List.Sublist.refl _
        · exact List.nil_sublist _
      rw [List.map_append]
      exact here.append (resolveChildren_names zoom inInput rest true)
    · have here : ((plainPart zoom inInput x).map Entry.name).Sublist [x.1.name] := by
        refine (plainPart_names zoom inInput x).trans ?_
        split
        · exact List.Sublist.refl _
        · exact List.nil_sublist _
      rw [List.map_append]
      exact here.append (resolveChildren_names zoom inInput rest matched)

theorem parseChildren_texts : ∀ {entries : List (Value × Value)} {children : List (NodeKey × Node)},
    parseChildren entries = .ok children →
    (entries.map fun e => keyText e.1) = children.map fun x => .ok x.1.name
  | [], _, h => by
    cases h
    rfl
  | (k, v) :: rest, _, h => by
    obtain ⟨name, key, node, others, hname, hkey, _, hothers, rfl⟩ := parseChildren_cons h
    rw [List.map_cons, List.map_cons, parseChildren_texts hothers, NodeKey.parse_name hkey, hname]

theorem children_distinct {entries : List (Value × Value)} {children : List (NodeKey × Node)}
    (apart : entries.Pairwise fun a b => ∀ name, keyText a.1 = .ok name → keyText b.1 ≠ .ok name)
    (read : parseChildren entries = .ok children) : (children.map (·.1.name)).Nodup := by
  have texts : (entries.map fun e => keyText e.1).Pairwise fun s t =>
      ∀ name, s = .ok name → t ≠ .ok name := List.pairwise_map.mpr apart
  rw [parseChildren_texts read, List.pairwise_map] at texts
  rw [List.Nodup, List.pairwise_map]
  exact texts.imp fun differ same => differ _ rfl (by rw [same])

theorem resolve_other_settled {v r : Value} {node : Node} (notNull : v ≠ .null)
    (noMapping : ∀ entries, v ≠ .mapping entries) (read : parse v = .ok node)
    (left : node.resolve zoom inInput = some r) : Settled zoom inInput r := by
  cases (parse_other noMapping).symm.trans read
  cases (resolve_value notNull zoom inInput).symm.trans left
  exact .other notNull noMapping

/-- What is left of a value is settled. -/
theorem resolve_settled {v : Value} : ∀ {node : Node} {r : Value}, inInput = true ∨ v.Regular →
    parse v = .ok node → node.resolve zoom inInput = some r → Settled zoom inInput r := by
  induction v using Value.induction with
  | null =>
    intro node r _ read left
    cases read
    cases left
  | mapping entries ih =>
    intro node r regular read left
    by_cases declaration : Mapping.contains entries formatKey = true
    · rw [parse, if_pos declaration] at read
      cases read
      cases left
      exact .declaration declaration
    · have group : Mapping.contains entries formatKey = false := eq_false_of_ne_true declaration
      obtain ⟨children, given, rfl⟩ := parse_plain group read
      have within : inInput = false → (Value.mapping entries).Regular := fun outside =>
        regular.resolve_left (ne_true_of_eq_false outside)
      refine collapse_settled (resolveChildren_settled group
        (fun outside => (within outside entries .here group).2) ?_ given) ?_ ?_ left
      · intro e mem node r read left
        exact ih e mem (regular.imp_right fun h => h.entry group mem) read left
      · exact conditional_length zoom inInput children
      · intro outside
        exact (children_distinct (within outside entries .here group).1 given).sublist
          (resolveChildren_names zoom inInput children false)
  | _ =>
    intro node r _ read left
    exact resolve_other_settled (by simp) (by simp) read left

/-! ## Resolving twice -/

theorem Settled.names {entries : List (Value × Value)} (h : Settled zoom inInput (.mapping entries))
    (group : Mapping.contains entries formatKey = false) :
    ∃ named : List (String × Value), entries = named.map (fun e => (.string e.1, e.2)) ∧
      Stays zoom inInput (named.map (·.1)) ∧
      ∀ e ∈ named, (e.2 = .null → inInput = true) ∧ (e.2 ≠ .null → Settled zoom inInput e.2) := by
  cases h with
  | declaration h =>
    rw [group] at h
    cases h
  | group stays nulls each =>
    exact ⟨_, rfl, stays, fun e mem => ⟨fun null => (nulls e mem null).1, each e mem⟩⟩
  | other _ h => exact absurd rfl (h entries)

/-- Outside the inputs a settled group has two entries or more, and all of them are settled. -/
theorem Settled.outside {entries : List (Value × Value)} (h : Settled zoom false (.mapping entries))
    (group : Mapping.contains entries formatKey = false) :
    2 ≤ entries.length ∧ ∀ e ∈ entries, e.2 ≠ .null ∧ Settled zoom false e.2 := by
  obtain ⟨named, rfl, stays, each⟩ := h.names group
  constructor
  · match named, stays with
    | [], stays => exact absurd rfl stays.nonempty
    | [e], stays => cases (stays.single e.1 rfl).1
    | _ :: _ :: _, _ => simp
  · intro e mem
    obtain ⟨x, inside, rfl⟩ := List.mem_map.mp mem
    have some : x.2 ≠ .null := fun null => by cases (each x inside).1 null
    exact ⟨some, (each x inside).2 some⟩

theorem Settled.within {r : Value} {entries : List (Value × Value)} (h : Settled zoom false r)
    (inside : Value.Within (.mapping entries) r)
    (group : Mapping.contains entries formatKey = false) :
    2 ≤ entries.length ∧ ∀ e ∈ entries, e.2 ≠ .null := by
  induction inside with
  | here =>
    obtain ⟨length, each⟩ := h.outside group
    exact ⟨length, fun e mem => (each e mem).1⟩
  | entry outer mem _ ih => exact ih ((h.outside outer).2 _ mem).2

/-- Resolving what is left of a value at the same zoom level leaves it as it is: among the inputs for
every value, and outside of them for every value in whose groups no two keys have the same text and
none is that of the inputs. In what is then left of the latter, null stands nowhere beneath groups
alone, and every such group has two entries or more. -/
theorem resolve_fixed_point :
    (∀ (v : Value) (node : Node) (zoom : Nat) (r : Value), parse v = .ok node →
      node.resolve zoom true = some r →
      ∃ again, parse r = .ok again ∧ again.resolve zoom true = some r) ∧
    ∀ (v : Value) (node : Node) (zoom : Nat) (r : Value), v.Regular → parse v = .ok node →
      node.resolve zoom false = some r →
      (∃ again, parse r = .ok again ∧ again.resolve zoom false = some r) ∧ r ≠ .null ∧
      ∀ entries, Value.Within (.mapping entries) r → Mapping.contains entries formatKey = false →
        2 ≤ entries.length ∧ ∀ e ∈ entries, e.2 ≠ .null := by
  refine ⟨fun v node zoom r read left => ?_, fun v node zoom r regular read left => ?_⟩
  · exact (resolve_settled (.inl rfl) read left).resolve
  · have settled := resolve_settled (.inr regular) read left
    exact ⟨settled.resolve, settled.ne_null, fun entries inside group => settled.within inside group⟩

/-- Inputs with a text that two keys have, and with conditions. -/
def layeredInputs : Value :=
  .mapping [(.string "coast", .mapping [(.string "zoom<3", .string "coarse.tif")]),
    (.bool true, .string "first.tif"), (.string "zoom>=3", .mapping [(.string "fine", .null)]),
    (.string "true", .string "second.tif")]

/-- How they are read. -/
def layeredNode : Node :=
  .branch [(⟨"coast", none⟩, .branch [(⟨"zoom<3", some ⟨.lt, 3⟩⟩, .value (.string "coarse.tif"))]),
    (⟨"true", none⟩, .value (.string "first.tif")),
    (⟨"zoom>=3", some ⟨.ge, 3⟩⟩, .branch [(⟨"fine", none⟩, .value .null)]),
    (⟨"true", none⟩, .value (.string "second.tif"))]

/-- What is left of them at zoom level five. -/
def layeredLeft : Value :=
  .mapping [(.string "coast", .null), (.string "true", .string "second.tif"),
    (.string "zoom>=3", .mapping [(.string "fine", .null)])]

/-- Parameters with a choice, a name and null. -/
def survey : Value :=
  .mapping [(.string "levels", .mapping [(.string "zoom<3", .string "few"),
      (.string "zoom>=3", .mapping [(.string "first", .null), (.string "rest", .string "many")])]),
    (.string "name", .string "survey"), (.string "comment", .null)]

/-- How they are read. -/
def surveyNode : Node :=
  .branch [(⟨"levels", none⟩, .branch [(⟨"zoom<3", some ⟨.lt, 3⟩⟩, .value (.string "few")),
      (⟨"zoom>=3", some ⟨.ge, 3⟩⟩, .branch [(⟨"first", none⟩, .value .null),
        (⟨"rest", none⟩, .value (.string "many"))])]),
    (⟨"name", none⟩, .value (.string "survey")), (⟨"comment", none⟩, .value .null)]

/-- What is left of them at zoom level five. -/
def surveyLeft : Value :=
  .mapping [(.string "levels", .string "many"), (.string "name", .string "survey")]

theorem survey_regular : survey.Regular := by
  have leaf : ∀ s : String, (Value.string s).Regular := fun s => .other (by simp)
  have null : Value.null.Regular := .other (by simp)
  refine .mapping (by simp [keyText]) (by simp [inputKey]) ?_
  simp only [List.forall_mem_cons, List.not_mem_nil, false_implies, implies_true, and_true]
  refine ⟨.mapping (by simp [keyText]) (by simp [inputKey]) ?_, leaf _, null⟩
  simp only [List.forall_mem_cons, List.not_mem_nil, false_implies, implies_true, and_true]
  refine ⟨leaf _, .mapping (by simp [keyText]) (by simp [inputKey]) ?_⟩
  simp only [List.forall_mem_cons, List.not_mem_nil, false_implies, implies_true, and_true]
  exact ⟨null, leaf _⟩

/-- What is left at zoom level five is left again. -/
theorem resolve_fixed_point_layered :
    (parse layeredInputs = .ok layeredNode ∧ layeredNode.resolve 5 true = some layeredLeft ∧
      ∃ again, parse layeredLeft = .ok again ∧ again.resolve 5 true = some layeredLeft) ∧
    survey.Regular ∧ parse survey = .ok surveyNode ∧
      surveyNode.resolve 5 false = some surveyLeft ∧
      ∃ again, parse surveyLeft = .ok again ∧ again.resolve 5 false = some surveyLeft := by
  obtain ⟨inputs, others⟩ := resolve_fixed_point
  refine ⟨⟨rfl, rfl, inputs layeredInputs layeredNode 5 layeredLeft rfl rfl⟩, survey_regular, rfl, rfl,
    ?_⟩
  exact (others survey surveyNode 5 surveyLeft survey_regular rfl rfl).1

end Node

end ZoomConfig
