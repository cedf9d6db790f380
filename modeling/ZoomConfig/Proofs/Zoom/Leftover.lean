import ZoomConfig.Proofs.Zoom.FirstMatch
/-!
The form of what is left of a value.

Resolving makes mappings anew. Every group that is left has texts for keys, none of them twice, each
the text of a key that was read, and it has at least one (`resolve_tidy`). So no name that was not
written comes up, and nothing is left of a group that became empty.
-/
namespace ZoomConfig

namespace Mapping

theorem insert_strings {kept : List (String × Value)} (distinct : (kept.map (·.1)).Nodup)
    (name : String) (v : Value) : ∃ after : List (String × Value),
      insert (kept.map fun e => (.string e.1, e.2)) (.string name) v =
        after.map (fun e => (.string e.1, e.2)) ∧
      (after.map (·.1)).Nodup ∧ (∀ e ∈ after, e = (name, v) ∨ e ∈ kept) ∧
      ∀ n, n ∈ after.map (·.1) ↔ n = name ∨ n ∈ kept.map (·.1) := by
  induction kept with
  | nil => exact ⟨[(name, v)], rfl, by simp, by simp, by simp⟩
  | cons x rest ih =>
    obtain ⟨key, u⟩ := x
    obtain ⟨alone, distinct⟩ := List.nodup_cons.mp distinct
    by_cases same : key = name
    · subst same
      refine ⟨(key, v) :: rest, ?_, List.nodup_cons.mpr ⟨alone, distinct⟩, ?_, by simp⟩
      · simp [insert, Value.beq_string_iff]
      · intro e mem
        rcases List.mem_cons.mp mem with rfl | mem
        · exact .inl rfl
        · exact .inr (List.mem_cons_of_mem _ mem)
    · obtain ⟨after, eq, nodup, given, names⟩ := ih distinct
      refine ⟨(key, u) :: after, ?_, List.nodup_cons.mpr ⟨?_, nodup⟩, ?_, ?_⟩
      · simp [insert, Value.beq_string_iff, same, eq]
      · rw [names]
        exact fun again => again.elim same alone
      · intro e mem
        rcases List.mem_cons.mp mem with rfl | mem
        · exact .inr List.mem_cons_self
        · exact (given e mem).imp_right (List.mem_cons_of_mem _)
      · intro n
        rw [List.map_cons, List.map_cons, List.mem_cons, List.mem_cons, names]
        exact or_left_comm

/-- A mapping of named values has the names, none of them twice, each with one of its values. -/
theorem ofEntries_strings (entries : List (String × Value)) : ∃ kept : List (String × Value),
    ofEntries (entries.map fun e => (.string e.1, e.2)) =
        kept.map (fun e => (.string e.1, e.2)) ∧
      (kept.map (·.1)).Nodup ∧ (∀ e ∈ kept, e ∈ entries) ∧
      ∀ n, n ∈ kept.map (·.1) ↔ n ∈ entries.map (·.1) := by
  suffices grow : ∀ (entries before : List (String × Value)), (before.map (·.1)).Nodup →
      ∃ kept : List (String × Value),
        (entries.map fun e => ((.string e.1, e.2) : Value × Value)).foldl
            (fun m e => insert m e.1 e.2) (before.map fun e => (.string e.1, e.2)) =
          kept.map (fun e => (.string e.1, e.2)) ∧
        (kept.map (·.1)).Nodup ∧ (∀ e ∈ kept, e ∈ before ∨ e ∈ entries) ∧
        ∀ n, n ∈ kept.map (·.1) ↔ n ∈ before.map (·.1) ∨ n ∈ entries.map (·.1) by
    simpa [ofEntries] using grow entries [] (by simp)
  intro entries
  induction entries with
  | nil => exact fun before distinct => ⟨before, rfl, distinct, fun e mem => .inl mem, by simp⟩
  | cons x rest ih =>
    intro before distinct
    obtain ⟨after, eq, nodup, given, names⟩ := insert_strings distinct x.1 x.2
    obtain ⟨kept, eq', nodup', given', names'⟩ := ih after nodup
    refine ⟨kept, ?_, nodup', ?_, ?_⟩
    · rw [List.map_cons, List.foldl_cons, eq, eq']
    · intro e mem
      rcases given' e mem with mem | mem
      · rcases given e mem with rfl | mem
        · exact .inr List.mem_cons_self
        · exact .inl mem
      · exact .inr (List.mem_cons_of_mem _ mem)
    · intro n
      rw [names', names, List.map_cons, List.mem_cons, or_assoc, or_left_comm]

end Mapping

/-! ## Names of groups -/

/-- The texts of all keys of groups have a property. -/
inductive Value.Named (N : String → Prop) : Value → Prop where
  | declaration {entries : List (Value × Value)} (h : Mapping.contains entries formatKey = true) :
    Named N (.mapping entries)
  | group {entries : List (Value × Value)}
    (names : ∀ e ∈ entries, ∀ name, keyText e.1 = .ok name → N name)
    (each : ∀ e ∈ entries, Named N e.2) : Named N (.mapping entries)
  | other {v : Value} (h : ∀ entries, v ≠ .mapping entries) : Named N v

theorem Value.named_any (v : Value) : v.Named fun _ => True := by
  induction v using Value.induction with
  | mapping entries ih => exact .group (fun _ _ _ _ => trivial) ih
  | _ => exact .other (by simp)

/-- Every group has distinct names with a property, and at least one. -/
inductive Value.Tidy (N : String → Prop) : Value → Prop where
  | declaration {entries : List (Value × Value)} (h : Mapping.contains entries formatKey = true) :
    Tidy N (.mapping entries)
  | group {entries : List (String × Value)} (some : entries ≠ [])
    (distinct : (entries.map (·.1)).Nodup) (names : ∀ e ∈ entries, N e.1)
    (each : ∀ e ∈ entries, Tidy N e.2) :
    Tidy N (.mapping (entries.map fun e => (.string e.1, e.2)))
  | other {v : Value} (h : ∀ entries, v ≠ .mapping entries) : Tidy N v

namespace Node

variable {N : String → Prop} {zoom : Nat} {inInput : Bool}

/-- The names of parts have the property, and their values are tidy. -/
def TidyParts (N : String → Prop) (parts : List Entry) : Prop :=
  ∀ e ∈ parts, N e.name ∧ e.value.Tidy N

/-- The mapping of what is left has the names of the parts, none of them twice, each with the value of
a part. -/
theorem toMapping_kept (parts : List Entry) : ∃ kept : List (String × Value),
    toMapping parts = kept.map (fun e => (.string e.1, e.2)) ∧ (kept.map (·.1)).Nodup ∧
      (∀ e ∈ kept, ∃ part ∈ parts, part.name = e.1 ∧ part.value = e.2) ∧
      ∀ n, n ∈ kept.map (·.1) ↔ n ∈ parts.map Entry.name := by
  obtain ⟨kept, eq, distinct, given, names⟩ :=
    Mapping.ofEntries_strings (parts.map fun e => (e.name, e.value))
  rw [List.map_map] at eq
  refine ⟨kept, eq, distinct, ?_, ?_⟩
  · intro e mem
    obtain ⟨part, here, rfl⟩ := List.mem_map.mp (given e mem)
    exact ⟨part, here, rfl, rfl⟩
  · simpa [Function.comp_def] using names

theorem toMapping_tidy {parts : List Entry} (some : parts ≠ []) (tidy : TidyParts N parts) :
    Value.Tidy N (.mapping (toMapping parts)) := by
  obtain ⟨kept, eq, distinct, given, names⟩ := toMapping_kept parts
  have each : ∀ e ∈ kept, N e.1 ∧ e.2.Tidy N := by
    intro e mem
    obtain ⟨part, here, name, value⟩ := given e mem
    rw [← name, ← value]
    exact tidy part here
  have nonempty : kept ≠ [] := by
    intro none
    obtain ⟨part, rest, rfl⟩ := List.exists_cons_of_ne_nil some
    have here := (names part.name).mpr List.mem_cons_self
    rw [none] at here
    cases here
  rw [eq]
  exact .group nonempty distinct (fun e mem => (each e mem).1) fun e mem => (each e mem).2

theorem collapse_tidy {parts : List Entry} {r : Value} (tidy : TidyParts N parts)
    (left : collapse inInput parts = some r) : r.Tidy N := by
  match parts, left with
  | [e], left =>
    simp only [collapse] at left
    split at left
    · cases left
      exact (tidy e List.mem_cons_self).2
    · cases left
      exact toMapping_tidy (List.cons_ne_nil e []) tidy
  | a :: b :: rest, left =>
    cases left
    exact toMapping_tidy (List.cons_ne_nil a _) tidy

theorem resolveChildren_tidy {entries : List (Value × Value)}
    (names : ∀ e ∈ entries, ∀ name, keyText e.1 = .ok name → N name)
    (each : ∀ e ∈ entries, ∀ {node : Node} {inInput : Bool} {r : Value},
      parse e.2 = .ok node → node.resolve zoom inInput = some r → r.Tidy N) {matched : Bool}
    {children : List (NodeKey × Node)} (read : parseChildren entries = .ok children) :
    TidyParts N (resolveChildren zoom inInput matched children) := by
  intro part mem
  obtain ⟨x, inside, here⟩ := exists_part mem
  obtain ⟨e, written, text, _, parsed⟩ := mem_parseChildren read x inside
  have named : N x.1.name := names e written x.1.name text
  rcases here with here | ⟨_, here⟩
  · obtain ⟨_, name, _, left | ⟨_, null⟩⟩ := of_mem_plainPart here
    · exact ⟨name ▸ named, each e written parsed left⟩
    · rw [name, null]
      exact ⟨named, .other (by simp)⟩
  · obtain ⟨_, name, left⟩ := mem_chosenPart.mp here
    exact ⟨name ▸ named, each e written parsed left⟩

/-- What is left of a value with given names is tidy with these names. -/
theorem resolve_tidy {v : Value} (named : v.Named N) : ∀ {node : Node} {inInput : Bool} {r : Value},
    parse v = .ok node → node.resolve zoom inInput = some r → r.Tidy N := by
  have declaration : ∀ {entries : List (Value × Value)} {node : Node} {inInput : Bool} {r : Value},
      Mapping.contains entries formatKey = true → parse (.mapping entries) = .ok node →
      node.resolve zoom inInput = some r → r.Tidy N := by
    intro entries node inInput r h parsed left
    rw [parse, if_pos h] at parsed
    cases parsed
    cases left
    exact .declaration h
  induction named with
  | declaration h => exact declaration h
  | @group entries names _ ih =>
    intro node inInput r parsed left
    by_cases h : Mapping.contains entries formatKey = true
    · exact declaration h parsed left
    · rw [parse, if_neg h] at parsed
      obtain ⟨children, read, rfl⟩ := Outcome.map_eq_ok.mp parsed
      exact collapse_tidy (resolveChildren_tidy names ih read) left
  | @other v h =>
    intro node inInput r parsed left
    cases v with
    | mapping entries => exact absurd rfl (h entries)
    | null =>
      cases parsed
      cases left
    | _ =>
      cases parsed
      cases left
      exact .other h

/-! ## What is left of the parameters -/

/-- What is left outside the inputs is left of a child, which is an input if its key says so. -/
theorem mem_resolveChildren {children : List (NodeKey × Node)} {matched : Bool} {part : Entry}
    (mem : part ∈ resolveChildren zoom false matched children) : ∃ x ∈ children,
      part.name = x.1.name ∧ part.conditional = x.1.condition.isSome ∧
      x.2.resolve zoom x.1.isInput = some part.value := by
  obtain ⟨x, inside, here | ⟨holds, here⟩⟩ := exists_part mem
  · obtain ⟨flag, name, plain, left | ⟨inputs, _⟩⟩ := of_mem_plainPart here
    · exact ⟨x, inside, name, by rw [flag, plain]; rfl, by simpa using left⟩
    · cases inputs
  · obtain ⟨flag, name, left⟩ := mem_chosenPart.mp here
    have conditional := isSome_of_holds holds
    have other : x.1.isInput = false := by simp [NodeKey.isInput, ← Option.not_isSome, conditional]
    exact ⟨x, inside, name, by rw [flag, conditional], by rw [other]; exact left⟩

theorem mem_of_get?_toMapping {parts : List Entry} {name : String} {v : Value}
    (h : Mapping.get? (toMapping parts) name = some v) :
    ∃ part ∈ parts, part.name = name ∧ part.value = v := by
  obtain ⟨kept, eq, _, given, _⟩ := toMapping_kept parts
  rw [eq, Mapping.get?_strings] at h
  obtain ⟨e, found, rfl⟩ := Option.map_eq_some_iff.mp h
  obtain rfl : e.1 = name := by simpa using List.find?_some found
  exact given e (List.mem_of_find?_eq_some found)

end Node

end ZoomConfig
