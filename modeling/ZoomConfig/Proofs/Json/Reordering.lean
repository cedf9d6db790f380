import ZoomConfig.Proofs.Json.Canonical
/-!
Values that differ in the order of entries.

`Reordered` relates values of which one comes from the other by putting entries of mappings, at any
depth, into another order; one level down it lets entries change places and nothing else
(`reordered_iff_parts`). Plain values are what JSON can hold: their keys are texts, none twice, and
they have no tags and no doubles beyond the finite ones. Two plain values have one canonical form
exactly if they differ in the order of entries only (`canon_iff_reordered`).
-/
namespace ZoomConfig

namespace Value

/-- One value comes from the other by reordering entries of mappings, at any depth. -/
inductive Reordered : Value → Value → Prop where
  | refl (v : Value) : Reordered v v
  | trans {u v w : Value} : Reordered u v → Reordered v w → Reordered u w
  | order {a b : List (Value × Value)} : a.Perm b → Reordered (.mapping a) (.mapping b)
  | value (before after : List (Value × Value)) {k v w : Value} : Reordered v w →
      Reordered (.mapping (before ++ (k, v) :: after)) (.mapping (before ++ (k, w) :: after))
  | item (before after : List Value) {v w : Value} : Reordered v w →
      Reordered (.sequence (before ++ v :: after)) (.sequence (before ++ w :: after))
  | tagged (tag : String) {v w : Value} : Reordered v w → Reordered (.tagged tag v) (.tagged tag w)

theorem Reordered.symm {v w : Value} (h : Reordered v w) : Reordered w v := by
  induction h with
  | refl v => exact .refl v
  | trans _ _ ih ih' => exact .trans ih' ih
  | order perm => exact .order perm.symm
  | value before after _ ih => exact .value before after ih
  | item before after _ ih => exact .item before after ih
  | tagged tag _ ih => exact .tagged tag ih

theorem Reordered.items {as bs : List Value} (h : List.Forall₂ Reordered as bs) :
    ∀ before, Reordered (.sequence (before ++ as)) (.sequence (before ++ bs)) := by
  induction h with
  | nil => exact fun before => .refl _
  | @cons _ w _ _ here _ ih =>
    intro before
    have others := ih (before ++ [w])
    rw [List.append_assoc, List.append_assoc] at others
    exact .trans (.item before _ here) others

/-- Two entries have one key, and their values differ in the order of entries only. -/
def ReorderedEntry (x y : Value × Value) : Prop :=
  x.1 = y.1 ∧ Reordered x.2 y.2

theorem Reordered.entries {as bs : List (Value × Value)}
    (h : List.Forall₂ ReorderedEntry as bs) :
    ∀ before, Reordered (.mapping (before ++ as)) (.mapping (before ++ bs)) := by
  induction h with
  | nil => exact fun before => .refl _
  | @cons x y as bs here _ ih =>
    obtain ⟨k, v⟩ := x
    obtain ⟨k', w⟩ := y
    obtain ⟨rfl, here⟩ := here
    intro before
    -- The entry is replaced first; then it belongs to those before the others.
    have others := ih (before ++ [(k, w)])
    rw [List.append_assoc, List.append_assoc] at others
    exact .trans (.value before _ here) others

/-- What agrees with a list item by item can follow any order of it. -/
theorem exists_perm_of_forall₂ {α β : Type} {R : α → β → Prop} {as : List α} {bs cs : List β}
    (each : List.Forall₂ R as bs) (perm : bs.Perm cs) :
    ∃ ds, as.Perm ds ∧ List.Forall₂ R ds cs := by
  have ordered : Relation.Comp (List.Forall₂ R) List.Perm as cs := ⟨bs, each, perm⟩
  rwa [List.forall₂_comp_perm_eq_perm_comp_forall₂] at ordered

/-- Reordering one level down: items stay where they are, entries may change places and keep their
keys, a tag stays, and anything else stays what it is. -/
def ReorderedParts : Value → Value → Prop
  | .sequence as, .sequence bs => List.Forall₂ Reordered as bs
  | .mapping as, .mapping bs => ∃ cs, as.Perm cs ∧ List.Forall₂ ReorderedEntry cs bs
  | .tagged s v, .tagged t w => s = t ∧ Reordered v w
  | v, w => v = w

theorem ReorderedEntry.refl (x : Value × Value) : ReorderedEntry x x :=
  ⟨rfl, .refl _⟩

theorem ReorderedEntry.trans {x y z : Value × Value} (h : ReorderedEntry x y)
    (h' : ReorderedEntry y z) : ReorderedEntry x z :=
  ⟨h.1.trans h'.1, .trans h.2 h'.2⟩

theorem forall₂_trans {α : Type} {R : α → α → Prop} (trans : ∀ {a b c}, R a b → R b c → R a c)
    {as bs cs : List α} (h : List.Forall₂ R as bs) (h' : List.Forall₂ R bs cs) :
    List.Forall₂ R as cs := by
  induction h generalizing cs with
  | nil => exact h'
  | cons here _ ih =>
    cases h' with
    | cons here' others' => exact .cons (trans here here') (ih others')

theorem forall₂_middle {α : Type} {R : α → α → Prop} (refl : ∀ a, R a a) (before after : List α)
    {a b : α} (here : R a b) : List.Forall₂ R (before ++ a :: after) (before ++ b :: after) :=
  List.rel_append (List.forall₂_same.2 fun c _ => refl c)
    (.cons here (List.forall₂_same.2 fun c _ => refl c))

theorem ReorderedParts.refl (v : Value) : ReorderedParts v v := by
  cases v with
  | sequence items => exact List.forall₂_same.2 fun v _ => .refl v
  | mapping entries => exact ⟨entries, .refl _, List.forall₂_same.2 fun e _ => .refl e⟩
  | tagged tag v => exact ⟨rfl, .refl v⟩
  | null => rfl
  | bool b => rfl
  | number n => rfl
  | string s => rfl

theorem ReorderedParts.trans {u v w : Value} (h : ReorderedParts u v) (h' : ReorderedParts v w) :
    ReorderedParts u w := by
  cases u with
  | sequence as =>
    cases v with
    | sequence bs =>
      cases w with
      | sequence cs => exact forall₂_trans .trans h h'
      | _ => cases h'
    | _ => cases h
  | mapping as =>
    cases v with
    | mapping bs =>
      cases w with
      | mapping cs =>
        obtain ⟨as', perm, each⟩ := h
        obtain ⟨bs', perm', each'⟩ := h'
        -- The second order is taken before the values are changed.
        obtain ⟨as'', perm'', each''⟩ := exists_perm_of_forall₂ each perm'
        exact ⟨as'', perm.trans perm'', forall₂_trans .trans each'' each'⟩
      | _ => cases h'
    | _ => cases h
  | tagged s u =>
    cases v with
    | tagged t v =>
      cases w with
      | tagged r w => exact ⟨h.1.trans h'.1, .trans h.2 h'.2⟩
      | _ => cases h'
    | _ => cases h
  | null => cases v <;> cases h; exact h'
  | bool b => cases v <;> cases h; exact h'
  | number n => cases v <;> cases h; exact h'
  | string s => cases v <;> cases h; exact h'

/-- Values that differ in the order of entries are of one kind, and their parts differ like that. -/
theorem reordered_iff_parts {v w : Value} : Reordered v w ↔ ReorderedParts v w := by
  constructor
  · intro h
    induction h with
    | refl v => exact .refl v
    | trans _ _ ih ih' => exact ih.trans ih'
    | @order a b perm => exact ⟨b, perm, List.forall₂_same.2 fun e _ => .refl e⟩
    | value before after here _ => exact ⟨_, .refl _, forall₂_middle .refl before after ⟨rfl, here⟩⟩
    | item before after here _ => exact forall₂_middle .refl before after here
    | tagged tag here _ => exact ⟨rfl, here⟩
  · intro h
    cases v with
    | sequence as =>
      cases w with
      | sequence bs => exact Reordered.items h []
      | _ => cases h
    | mapping as =>
      cases w with
      | mapping bs =>
        obtain ⟨cs, perm, each⟩ := h
        exact .trans (.order perm) (Reordered.entries each [])
      | _ => cases h
    | tagged s v =>
      cases w with
      | tagged t w =>
        obtain ⟨rfl, here⟩ := h
        exact .tagged s here
      | _ => cases h
    | null => cases w <;> cases h; exact .refl _
    | bool b => cases w <;> cases h; exact .refl _
    | number n => cases w <;> cases h; exact .refl _
    | string s => cases w <;> cases h; exact .refl _

mutual

/-- Are all keys texts, none twice in one mapping, all doubles finite, and is nothing tagged? -/
def Plain : Value → Prop
  | .number n => n.Finite
  | .sequence items => PlainItems items
  | .mapping entries => (entries.map (·.1)).Nodup ∧ PlainEntries entries
  | .tagged _ _ => False
  | _ => True

/-- Are all items plain? -/
def PlainItems : List Value → Prop
  | [] => True
  | v :: rest => Plain v ∧ PlainItems rest

/-- Are all keys texts and all values plain? -/
def PlainEntries : List (Value × Value) → Prop
  | [] => True
  | (k, v) :: rest => (∃ s, k = .string s) ∧ Plain v ∧ PlainEntries rest

end

theorem plainItems_iff {items : List Value} : PlainItems items ↔ ∀ v ∈ items, v.Plain := by
  induction items with
  | nil => simp [PlainItems]
  | cons v rest ih => simp [PlainItems, ih]

theorem plainEntries_iff {entries : List (Value × Value)} :
    PlainEntries entries ↔ ∀ e ∈ entries, (∃ s, e.1 = .string s) ∧ e.2.Plain := by
  induction entries with
  | nil => simp [PlainEntries]
  | cons e rest ih => simp [PlainEntries, ih, and_assoc]

/-- What is told from the parts of a value and from the keys of a mapping in any order is kept. -/
theorem Reordered.keeps {P : Value → Prop} {K : List Value → Prop}
    (sequence : ∀ items, P (.sequence items) ↔ ∀ v ∈ items, P v)
    (mapping : ∀ entries, P (.mapping entries) ↔ K (entries.map (·.1)) ∧ ∀ e ∈ entries, P e.2)
    (keys : ∀ a b, a.Perm b → K a → K b)
    (tag : ∀ t v w, (P v → P w) → P (.tagged t v) → P (.tagged t w)) {v w : Value}
    (h : Reordered v w) (holds : P v) : P w := by
  induction h with
  | refl v => exact holds
  | trans _ _ ih ih' => exact ih' (ih holds)
  | @order a b perm =>
    rw [mapping] at holds ⊢
    obtain ⟨names, values⟩ := holds
    exact ⟨keys _ _ (perm.map _) names, fun e mem => values e (perm.mem_iff.2 mem)⟩
  | value before after _ ih =>
    rw [mapping] at holds ⊢
    simp only [List.map_append, List.map_cons, List.forall_mem_append, List.forall_mem_cons]
      at holds ⊢
    obtain ⟨names, first, value, last⟩ := holds
    exact ⟨names, first, ih value, last⟩
  | item before after _ ih =>
    rw [sequence] at holds ⊢
    simp only [List.forall_mem_append, List.forall_mem_cons] at holds ⊢
    obtain ⟨first, value, last⟩ := holds
    exact ⟨first, ih value, last⟩
  | tagged t _ ih => exact tag t _ _ ih holds

theorem Reordered.plain {v w : Value} (h : Reordered v w) (plain : v.Plain) : w.Plain := by
  refine h.keeps (K := fun ks => ks.Nodup ∧ ∀ k ∈ ks, ∃ s, k = .string s)
    (fun _ => plainItems_iff) ?_ ?_ (fun _ _ _ _ tagged => tagged.elim) plain
  · intro entries
    simp only [Plain, plainEntries_iff, List.forall_mem_map, forall_and, and_assoc]
  · intro a b perm given
    exact ⟨perm.nodup_iff.1 given.1, fun k mem => given.2 k (perm.mem_iff.2 mem)⟩

end Value

namespace Json

open Value

theorem canonEntry_names {entries : List (Value × Value)} {ms : List (String × Json)}
    (plain : PlainEntries entries) (forms : List.Forall₂ CanonEntry entries ms) :
    entries.map (·.1) = ms.map fun m => Value.string m.1 := by
  induction forms with
  | nil => rfl
  | @cons e m _ _ here _ ih =>
    obtain ⟨k, v⟩ := e
    obtain ⟨⟨s, rfl⟩, _, others⟩ := plain
    have name : s = m.1 := Except.ok.inj here.1
    rw [List.map_cons, List.map_cons, ih others, name]

theorem canonEntry_nodup {entries : List (Value × Value)} {ms : List (String × Json)}
    (plain : (Value.mapping entries).Plain) (forms : List.Forall₂ CanonEntry entries ms) :
    (ms.map (·.1)).Nodup := by
  have names := canonEntry_names plain.2 forms
  have distinct := plain.1
  rw [names, ← Function.comp_def Value.string, ← List.map_map] at distinct
  exact distinct.of_map

/-- Members with distinct names are told from the dictionary that they make. -/
theorem ofList_eq_iff_perm {ms ns : List (String × Json)} (hm : (ms.map (·.1)).Nodup)
    (hn : (ns.map (·.1)).Nodup) : Dict.ofList ms = Dict.ofList ns ↔ ms.Perm ns := by
  -- With distinct names, what is found in the dictionary is what is in the list.
  have found : ∀ {l : List (String × Json)}, (l.map (·.1)).Nodup → ∀ name j,
      Dict.get? (Dict.ofList l) name = some j ↔ (name, j) ∈ l := by
    intro l distinct name j
    refine Dict.get?_ofList_iff ?_ j
    intro v v' hv hv'
    have here := Dict.get?_of_mem (d := l) distinct hv
    rw [Dict.get?_of_mem (d := l) distinct hv'] at here
    exact (Option.some.inj here).symm
  constructor
  · intro same
    rw [List.perm_ext_iff_of_nodup hm.of_map hn.of_map]
    intro m
    rw [← found hm, ← found hn, same]
  · intro perm
    refine Dict.sorted_ext (Dict.sorted_ofList ms) (Dict.sorted_ofList ns) ?_
    intro name
    apply Option.ext
    intro j
    rw [found hm, found hn, perm.mem_iff]

theorem canon_number {n : Number} (finite : n.Finite) {c : Json} :
    Canon (.number n) c ↔ c = .number n := by
  have number : ofNumber n = .number n := by
    cases n with
    | int n => rfl
    | float x => exact if_pos finite
  rw [canon_iff (j := ofNumber n) rfl, number]
  rfl

/-- The kind of the form of a plain value. -/
def plainKind : Value → Option Kind
  | .null => some .null
  | .bool _ => some .bool
  | .number _ => some .number
  | .string _ => some .string
  | .sequence _ => some .array
  | .mapping _ => some .object
  | .tagged _ _ => none

theorem canon_kind {v : Value} {c : Json} (plain : v.Plain) (form : Canon v c) :
    some c.kind = plainKind v := by
  cases v with
  | null =>
    rw [canon_null.1 form]
    rfl
  | bool b =>
    rw [canon_bool.1 form]
    rfl
  | number n =>
    rw [(canon_number plain).1 form]
    rfl
  | string s =>
    rw [canon_string.1 form]
    rfl
  | sequence items =>
    obtain ⟨cs, _, rfl⟩ := canon_sequence.1 form
    rfl
  | mapping entries =>
    obtain ⟨ms, _, rfl⟩ := canon_mapping.1 form
    rfl
  | tagged tag v => exact plain.elim

theorem same_kind {v w : Value} {c : Json} (plain : v.Plain) (plain' : w.Plain) (form : Canon v c)
    (form' : Canon w c) : plainKind v = plainKind w :=
  (canon_kind plain form).symm.trans (canon_kind plain' form')

theorem forall₂_of_common {α β γ : Type} {R : α → γ → Prop} {S : β → γ → Prop} {T : α → β → Prop}
    {as : List α} {bs : List β} {cs : List γ} (hR : List.Forall₂ R as cs)
    (hS : List.Forall₂ S bs cs) (hT : ∀ a ∈ as, ∀ b ∈ bs, ∀ c, R a c → S b c → T a b) :
    List.Forall₂ T as bs := by
  induction hR generalizing bs with
  | nil =>
    cases hS
    exact .nil
  | cons here _ ih =>
    cases hS with
    | cons there others =>
      refine .cons (hT _ List.mem_cons_self _ List.mem_cons_self _ here there) (ih others ?_)
      intro a ha b hb
      exact hT a (List.mem_cons_of_mem _ ha) b (List.mem_cons_of_mem _ hb)

/-- Plain values with one form differ in the order of entries only. -/
theorem reordered_of_canon (v : Value) : ∀ w c, v.Plain → w.Plain → Canon v c → Canon w c →
    Reordered v w := by
  induction v using Value.induction with
  | null =>
    intro w c plain plain' form form'
    cases w <;> cases same_kind plain plain' form form'
    exact .refl _
  | bool b =>
    intro w c plain plain' form form'
    cases w <;> cases same_kind plain plain' form form'
    rw [canon_bool] at form form'
    rw [form] at form'
    cases form'
    exact .refl _
  | number n =>
    intro w c plain plain' form form'
    cases w <;> cases same_kind plain plain' form form'
    rw [canon_number plain] at form
    rw [canon_number plain', form] at form'
    cases form'
    exact .refl _
  | string s =>
    intro w c plain plain' form form'
    cases w <;> cases same_kind plain plain' form form'
    rw [canon_string] at form form'
    rw [form] at form'
    cases form'
    exact .refl _
  | tagged tag v _ => exact fun w c plain => plain.elim
  | sequence items ih =>
    intro w c plain plain' form form'
    cases w <;> cases same_kind plain plain' form form'
    obtain ⟨cs, forms, rfl⟩ := canon_sequence.1 form
    obtain ⟨ds, forms', same⟩ := canon_sequence.1 form'
    cases same
    have plains := plainItems_iff.1 plain
    have plains' := plainItems_iff.1 plain'
    refine Reordered.items (forall₂_of_common forms forms' ?_) []
    intro v hv w hw c here there
    exact ih v hv w c (plains v hv) (plains' w hw) here there
  | mapping entries ih =>
    intro w c plain plain' form form'
    cases w <;> cases same_kind plain plain' form form'
    rename_i others
    obtain ⟨ms, forms, rfl⟩ := canon_mapping.1 form
    obtain ⟨ns, forms', same⟩ := canon_mapping.1 form'
    have perm := (ofList_eq_iff_perm (canonEntry_nodup plain forms)
      (canonEntry_nodup plain' forms')).1 (Json.object.inj same)
    -- In the order of the first mapping, the second one has its keys and the values' forms.
    obtain ⟨ordered, perm', forms''⟩ := exists_perm_of_forall₂ forms' perm.symm
    have plain'' := Reordered.plain (.order perm') plain'
    have plains := plainEntries_iff.1 plain.2
    have plains'' := plainEntries_iff.1 plain''.2
    refine .trans (Reordered.entries (forall₂_of_common forms forms'' ?_) []) (.order perm'.symm)
    intro x hx y hy m here there
    obtain ⟨⟨s, hs⟩, plainX⟩ := plains x hx
    obtain ⟨⟨t, ht⟩, plainY⟩ := plains'' y hy
    constructor
    · have name := here.1
      have name' := there.1
      rw [hs] at name
      rw [ht] at name'
      rw [hs, ht, Except.ok.inj name, Except.ok.inj name']
    · exact ih x hx y.2 m.2 plainX plainY here.2 there.2

theorem forall₂_replace {α β : Type} {R : α → β → Prop} {before after : List α} {a a' : α}
    {bs : List β} (h : List.Forall₂ R (before ++ a :: after) bs) (replaced : ∀ b, R a b → R a' b) :
    List.Forall₂ R (before ++ a' :: after) bs := by
  induction before generalizing bs with
  | nil =>
    cases h with
    | cons here others => exact .cons (replaced _ here) others
  | cons x before ih =>
    cases h with
    | cons here others => exact .cons here (ih others)

theorem canon_of_reordered {v w : Value} (h : Reordered v w) :
    ∀ c, v.Plain → Canon v c → Canon w c := by
  induction h with
  | refl v => exact fun c _ form => form
  | @trans u v w first _ ih ih' =>
    intro c plain form
    exact ih' c (first.plain plain) (ih c plain form)
  | @order a b perm =>
    intro c plain form
    obtain ⟨ms, forms, rfl⟩ := canon_mapping.1 form
    obtain ⟨ns, perm', forms'⟩ := List.perm_comp_forall₂ perm.symm forms
    refine canon_mapping.2 ⟨ns, perm', ?_⟩
    have distinct := canonEntry_nodup plain forms
    rw [(ofList_eq_iff_perm distinct ((forms'.symm.map _).nodup_iff.1 distinct)).2 forms'.symm]
  | @value before after k v w _ ih =>
    intro c plain form
    obtain ⟨ms, forms, rfl⟩ := canon_mapping.1 form
    have inner : v.Plain := (plainEntries_iff.1 plain.2 (k, v) (by simp)).2
    refine canon_mapping.2 ⟨ms, forall₂_replace forms ?_, rfl⟩
    intro m here
    exact ⟨here.1, ih m.2 inner here.2⟩
  | @item before after v w _ ih =>
    intro c plain form
    obtain ⟨cs, forms, rfl⟩ := canon_sequence.1 form
    have inner : v.Plain := plainItems_iff.1 plain v (by simp)
    refine canon_sequence.2 ⟨cs, forall₂_replace forms ?_, rfl⟩
    intro d here
    exact ih d inner here
  | tagged tag _ _ => exact fun c plain => plain.elim

theorem exists_forall₂ {α β : Type} {R : α → β → Prop} {as : List α}
    (each : ∀ a ∈ as, ∃ b, R a b) : ∃ bs, List.Forall₂ R as bs := by
  induction as with
  | nil => exact ⟨[], .nil⟩
  | cons a as ih =>
    obtain ⟨b, here⟩ := each a List.mem_cons_self
    obtain ⟨bs, others⟩ := ih fun x hx => each x (List.mem_cons_of_mem a hx)
    exact ⟨b :: bs, .cons here others⟩

theorem canon_of_plain (v : Value) : v.Plain → ∃ c, Canon v c := by
  induction v using Value.induction with
  | null => exact fun _ => ⟨_, canon_null.2 rfl⟩
  | bool b => exact fun _ => ⟨_, canon_bool.2 rfl⟩
  | number n => exact fun plain => ⟨_, (canon_number plain).2 rfl⟩
  | string s => exact fun _ => ⟨_, canon_string.2 rfl⟩
  | tagged tag v _ => exact fun plain => plain.elim
  | sequence items ih =>
    intro plain
    have plains := plainItems_iff.1 plain
    obtain ⟨cs, forms⟩ := exists_forall₂ fun v hv => ih v hv (plains v hv)
    exact ⟨_, canon_sequence.2 ⟨cs, forms, rfl⟩⟩
  | mapping entries ih =>
    intro plain
    have plains := plainEntries_iff.1 plain.2
    have each : ∀ e ∈ entries, ∃ m, CanonEntry e m := by
      intro e he
      obtain ⟨⟨s, hs⟩, inner⟩ := plains e he
      obtain ⟨c, form⟩ := ih e he inner
      exact ⟨(s, c), by rw [hs]; rfl, form⟩
    obtain ⟨ms, forms⟩ := exists_forall₂ each
    exact ⟨_, canon_mapping.2 ⟨ms, forms, rfl⟩⟩

/-- Two plain values have one form exactly if they differ in the order of entries only. -/
theorem canon_iff_reordered {v w : Value} {c : Json} (plain : v.Plain) (plain' : w.Plain)
    (form : Canon v c) : Canon w c ↔ Reordered v w := by
  constructor
  · intro form'
    exact reordered_of_canon v w c plain plain' form form'
  · intro reordered
    exact canon_of_reordered reordered c plain form

end Json

end ZoomConfig
