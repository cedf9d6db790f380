import ZoomConfig.Json.Reader
import ZoomConfig.Proofs.Decimal.Numbers
import ZoomConfig.Proofs.Json.Texts
/-!
What JSON text is read as.

Objects that are read have each name once, and what is read as a number is one: no sum of digits and
exponents gives a double that is not a number (`parse?_sound`). Which value is read can be told from
the text it is written as (`parse?_eq_some`).
-/
namespace ZoomConfig

open Decimal

/-- As a double it is a number. -/
def Number.Proper (n : Number) : Prop := n.toFloat.isNaN = false

theorem Number.proper_int (i : Int) : (Number.int i).Proper := isNaN_ofInt i

namespace Json

/-! ## Numbers -/

theorem isSolid_powerOfTen : ∀ n ≤ 308, isSolid (powerOfTen n) = true := by decide +kernel

theorem scale_isNaN {fuel : Nat} {x y : Float} {exponent : Int} (number : x.isNaN = false)
    (h : scale fuel x exponent = some y) : y.isNaN = false := by
  induction fuel generalizing x exponent with
  | zero =>
    cases h
    exact number
  | succ fuel ih =>
    unfold scale at h
    split at h
    · next near =>
      have power := isSolid_powerOfTen _ near
      split at h
      · cases h
        exact isNaN_div number power
      · dsimp only at h
        split at h
        · cases h
        · cases h
          exact isNaN_mul number power
    · split at h
      · cases h
        exact number
      · split at h
        · exact ih (isNaN_div number (isSolid_powerOfTen _ (Nat.le_refl _))) h
        · cases h

variable {negative : Bool} {digits : Nat} {n : Number} {cs rest : List Char}

theorem signed_proper {x : Float} (number : x.isNaN = false) :
    (Number.float (signed negative x)).Proper := by
  cases negative with
  | false => exact number
  | true => exact isNaN_neg number

theorem ofParts_proper {exponent : Int} (h : ofParts negative digits exponent = some n) : n.Proper := by
  obtain ⟨x, scaled, rfl⟩ := Option.map_eq_some_iff.mp h
  exact signed_proper (scale_isNaN (isNaN_ofInt _) scaled)

theorem readExponent_proper {start : Int}
    (h : readExponent negative digits start cs = some (n, rest)) : n.Proper := by
  have ends {exponent : Int} {after : List Char}
      (h : (ofParts negative digits exponent).map (fun n => (n, after)) = some (n, rest)) :
      n.Proper := by
    obtain ⟨m, made, same⟩ := Option.map_eq_some_iff.mp h
    cases same
    exact ofParts_proper made
  unfold readExponent at h
  split at h
  · exact ends h
  · split at h
    · dsimp only at h
      split at h
      · cases h
      · split at h
        · exact ends h
        · split at h
          · cases h
          · cases h
            exact signed_proper (by decide)
    · exact ends h

theorem readFraction_proper {before : Int}
    (h : readFraction negative digits before cs = some (n, rest)) : n.Proper := by
  unfold readFraction at h
  dsimp only at h
  split at h
  · cases h
  · exact readExponent_proper h

theorem readTail_proper {skipped : Nat}
    (h : readTail negative digits skipped cs = some (n, rest)) : n.Proper := by
  unfold readTail at h
  split at h
  · exact readFraction_proper h
  · exact readExponent_proper h
  · exact readExponent_proper h
  · split at h
    · exact readExponent_proper h
    · split at h
      · cases h
        exact Number.proper_int _
      · split at h
        · cases h
          exact isNaN_neg (isNaN_ofInt _)
        · cases h
          exact Number.proper_int _

theorem readNumber_proper (h : readNumber cs = some (n, rest)) : n.Proper := by
  unfold readNumber at h
  dsimp only at h
  split at h
  · split at h
    · cases h
    · exact readTail_proper h
  · split at h
    · exact readTail_proper h
    · cases h
  · cases h

/-! ## Values -/

/-- A value in which numbers are numbers and no object has a name twice. -/
inductive Sound : Json → Prop where
  | null : Sound .null
  | bool (b : Bool) : Sound (.bool b)
  | string (s : String) : Sound (.string s)
  | number {n : Number} (proper : n.Proper) : Sound (.number n)
  | array {items : List Json} (each : ∀ j ∈ items, Sound j) : Sound (.array items)
  | object {members : List (String × Json)} (apart : (members.map (·.1)).Nodup)
    (each : ∀ m ∈ members, Sound m.2) : Sound (.object members)

/-- A member that is put in has the place of the one with its name, or the last one. -/
theorem replaceMember_names (name : String) (value : Json) (members : List (String × Json)) :
    (replaceMember name value members).map (·.1) =
      if name ∈ members.map (·.1) then members.map (·.1) else members.map (·.1) ++ [name] := by
  induction members with
  | nil => rfl
  | cons m others ih =>
    obtain ⟨n, v⟩ := m
    unfold replaceMember
    by_cases same : n = name
    · simp [same]
    · rw [if_neg same, List.map_cons, ih]
      simp only [List.map_cons, List.mem_cons, Ne.symm same, false_or]
      split <;> rfl

theorem of_mem_replaceMember {name : String} {value : Json} {members : List (String × Json)}
    {m : String × Json} (mem : m ∈ replaceMember name value members) :
    m.2 = value ∨ m ∈ members := by
  induction members with
  | nil => exact .inl (congrArg Prod.snd (List.mem_singleton.mp mem))
  | cons first others ih =>
    unfold replaceMember at mem
    split at mem
    · rcases List.mem_cons.mp mem with rfl | mem
      · exact .inl rfl
      · exact .inr (List.mem_cons_of_mem _ mem)
    · rcases List.mem_cons.mp mem with rfl | mem
      · exact .inr List.mem_cons_self
      · exact (ih mem).imp id (List.mem_cons_of_mem _)

theorem Sound.replaceMember {members : List (String × Json)} (h : Sound (.object members))
    (name : String) {value : Json} (sound : Sound value) :
    Sound (.object (replaceMember name value members)) := by
  cases h with
  | object apart each =>
    refine .object ?_ fun m mem => ?_
    · rw [replaceMember_names]
      split
      · exact apart
      · next fresh =>
        refine List.nodup_append.mpr ⟨apart, by simp, ?_⟩
        intro n mem m new same
        rw [List.mem_singleton.mp new] at same
        exact fresh (same ▸ mem)
    · rcases of_mem_replaceMember mem with same | mem
      · rw [same]
        exact sound
      · exact each m mem

theorem Sound.empty : Sound (.object []) := .object (by simp) fun _ mem => nomatch mem

/-- With some fuel only sound values and items are read, and members are added only soundly to those
already read. -/
structure ReadsSound (fuel : Nat) : Prop where
  value : ∀ {depth : Nat} {cs rest : List Char} {j : Json},
    readValue fuel depth cs = some (j, rest) → Sound j
  items : ∀ {depth : Nat} {cs rest : List Char} {items : List Json},
    readItems fuel depth cs = some (items, rest) → ∀ j ∈ items, Sound j
  members : ∀ {depth : Nat} {cs rest : List Char} {members members' : List (String × Json)},
    Sound (.object members) → readMembers fuel depth members cs = some (members', rest) →
      Sound (.object members')

namespace ReadsSound

variable {fuel depth : Nat}

theorem readValue {j : Json} (h : ReadsSound fuel)
    (read : Json.readValue (fuel + 1) depth cs = some (j, rest)) : Sound j := by
  unfold Json.readValue at read
  split at read
  · cases read; exact .null
  · cases read; exact .bool true
  · cases read; exact .bool false
  · obtain ⟨t, _, same⟩ := Option.map_eq_some_iff.mp read
    cases same
    exact .string _
  · split at read
    · cases read
    · split at read
      · cases read
        exact .array fun _ mem => nomatch mem
      · obtain ⟨t, inner, same⟩ := Option.map_eq_some_iff.mp read
        cases same
        exact .array (h.items inner)
  · split at read
    · cases read
    · split at read
      · cases read
        exact .empty
      · obtain ⟨t, inner, same⟩ := Option.map_eq_some_iff.mp read
        cases same
        exact h.members .empty inner
  · obtain ⟨t, number, same⟩ := Option.map_eq_some_iff.mp read
    cases same
    exact .number (readNumber_proper number)

theorem readItems {items : List Json} (h : ReadsSound fuel)
    (read : Json.readItems (fuel + 1) depth cs = some (items, rest)) : ∀ j ∈ items, Sound j := by
  unfold Json.readItems at read
  split at read
  · cases read
  · next item _ found =>
    have first := h.value found
    split at read
    · cases read
      intro j mem
      rw [List.mem_singleton.mp mem]
      exact first
    · obtain ⟨t, others, same⟩ := Option.map_eq_some_iff.mp read
      cases same
      intro j mem
      rcases List.mem_cons.mp mem with rfl | mem
      · exact first
      · exact h.items others j mem
    · cases read

theorem readMembers {members members' : List (String × Json)} (h : ReadsSound fuel)
    (sound : Sound (.object members))
    (read : Json.readMembers (fuel + 1) depth members cs = some (members', rest)) :
    Sound (.object members') := by
  unfold Json.readMembers at read
  split at read
  · split at read
    · cases read
    · next name _ _ =>
      split at read
      · split at read
        · cases read
        · next found =>
          have added := sound.replaceMember (String.ofList name) (h.value found)
          dsimp only at read
          split at read
          · cases read
            exact added
          · exact h.members added read
          · cases read
      · cases read
  · cases read

end ReadsSound

theorem readsSound (fuel : Nat) : ReadsSound fuel := by
  induction fuel with
  | zero => exact ⟨nofun, nofun, fun _ h => nomatch h⟩
  | succ fuel ih => exact ⟨ih.readValue, ih.readItems, ih.readMembers⟩

/-- Every text that can be read holds a sound value. -/
theorem parse?_sound {text : String} {j : Json} (h : parse? text = some j) : Sound j := by
  unfold parse? at h
  dsimp only at h
  split at h
  · next value rest read =>
    split at h
    · cases h
      exact (readsSound _).value read
    · cases h
  · cases h

/-- A text is read as a value if what it is read as is written like the value. -/
theorem parse?_eq_some {text : String} {j : Json} (finite : j.Finite)
    (read : ∃ v ∈ parse? text, v.Finite ∧ v.compact = j.compact) : parse? text = some j := by
  obtain ⟨v, found, finite', same⟩ := read
  rwa [compact_injective finite' finite same] at found

end Json

end ZoomConfig
