import ZoomConfig.Proofs.Configuration.Snapshots
import ZoomConfig.Proofs.Input.Content
/-!
Which declarations share an opened input.

A snapshot binds a path to the input that was opened for the identity of its declaration, which may
have been declared elsewhere, and first. Identities are digests of contents, so if no two of the
contents collide, the input was opened from a declaration of the same content
(`bound_input_content`). That is the same declaration up to the order of entries if JSON can hold
both, but not otherwise: a tagged value is opened in the place of a mapping from the tag
(`bound_input_of_other`).
-/
namespace ZoomConfig.Configuration

open Outcome InputRegistry Forest

/-- No two contents of declarations have one digest. -/
def CollisionFree (ds : List Declaration) : Prop :=
  ∀ d ∈ ds, ∀ d' ∈ ds, ∀ x y, d.content = .ok x → d'.content = .ok y →
    Digest.sha256 x = Digest.sha256 y → x = y

/-- Where digests do not collide, declarations with one identity have the same content. -/
theorem CollisionFree.contentId_eq_iff {ds : List Declaration} (free : CollisionFree ds)
    {d d' : Declaration} (mem : d ∈ ds) (mem' : d' ∈ ds) {id id' : ContentId}
    (hid : d.contentId = .ok id) (hid' : d'.contentId = .ok id') :
    id = id' ↔ d.SameContent d' := by
  obtain ⟨x, hx, rfl⟩ := Declaration.contentId_eq_ok.1 hid
  obtain ⟨y, hy, rfl⟩ := Declaration.contentId_eq_ok.1 hid'
  rw [← Declaration.content_eq_iff hx hy, ContentId.mk.injEq]
  constructor
  · intro digests
    exact free d mem d' mem' x y hx hy digests
  · intro contents
    rw [contents]

variable {m : Type → Type} {σ α : Type}

theorem leaf_of_unflatten {β : Type} {leaves : Dict String β} {tree : Forest β}
    (built : unflatten leaves = .ok tree) {path : String} {value : β}
    (found : Dict.get? leaves path = some value) :
    (Forest.get? tree path).bind Tree.asLeaf? = some value := by
  have leaf := ((unflatten_ok built).1.leaf (segments path) value).2
    ⟨(path, value), Dict.mem_of_get? found, rfl, rfl⟩
  obtain ⟨node, here, asLeaf⟩ := Option.map_eq_some_iff.1 leaf
  rw [Forest.get?, here, Option.bind_some, asLeaf]

theorem Coherent.inputAt_of_bound {c : Configuration m α} (h : Coherent c) {zoom : Nat}
    (mem : zoom ∈ c.initZooms.toList) {path : String} {d : Declaration} {id : ContentId}
    {input : OpenedInput m α}
    (bound : Dict.get? (leavesAt c.document.params zoom) path = some (some d))
    (hid : d.contentId = .ok id) (opened : Dict.get? c.inputs id = some input) {s : Snapshot m α}
    (given : c.snapshot zoom = .ok s) : s.inputAt path = some input := by
  obtain ⟨p, resolved, same⟩ := h.snapshot_eq mem
  obtain ⟨id', leaf, hid'⟩ := resolved.leaves.bound bound
  obtain rfl : id = id' := Except.ok.inj (hid.symm.trans hid')
  have found : Dict.get? (c.openedLeaves (p.input.getD [])) path = some (some input) := by
    rw [openedLeaves, Dict.get?_map fun _ (id : Option ContentId) => id.bind (Dict.get? c.inputs),
      leaf, Option.map_some, Option.bind_some, opened]
  rw [same] at given
  cases built : unflatten (c.openedLeaves (p.input.getD [])) with
  | error e => simp [built] at given
  | ok tree =>
    simp only [built, Except.ok.injEq] at given
    rw [← given, Snapshot.inputAt, leaf_of_unflatten built found]
    rfl

variable [Coordinate α] {files : Files (StateM σ)} {drivers : Drivers (StateM σ) α}
  {source : DocumentSource} {options : InitOptions} {w w' : σ} {c : Configuration (StateM σ) α}

/-- In a configuration that was built, the input that a snapshot binds at a path was loaded by the
driver of a declaration with the content of the one that stands there: the same path, or a mapping
with the same canonical form, which is the same mapping up to the order of entries if both are plain.
Two declarations that are bound somewhere share an input exactly if they have the same content. All
this holds if no two of the contents have one digest. -/
theorem bound_input_content (built : (build files drivers source options).run.run w = (.ok c, w'))
    (free : CollisionFree c.declared) :
    (∀ zoom ∈ c.initZooms.toList, ∀ path d,
      Dict.get? (leavesAt c.document.params zoom) path = some (some d) →
      ∃ id input, d.contentId = .ok id ∧ Dict.get? c.inputs id = some input ∧
        (∀ s, c.snapshot zoom = .ok s → s.inputAt path = some input) ∧
        (∃ w₁ w₂, LoadedFrom c.loadContext drivers input.declaration input.handle w₁ w₂) ∧
        d.SameContent input.declaration ∧
        (d.Plain → input.declaration.Plain → d.Reordered input.declaration)) ∧
    ∀ d ∈ c.declared, ∀ d' ∈ c.declared, ∃ id id', d.contentId = .ok id ∧
      d'.contentId = .ok id' ∧ (id = id' ↔ d.SameContent d') := by
  obtain ⟨k⟩ := construction built
  obtain ⟨h, opens⟩ := k.coherent
  constructor
  · intro zoom mem path d bound
    have declared : d ∈ c.declared := mem_declared.2 ⟨zoom, mem, path, bound⟩
    obtain ⟨id, hid⟩ := identify_total h.known d declared
    -- The input was opened from the first declaration of the identity, which is bound somewhere too.
    obtain ⟨input, opened, _, first, hid'⟩ := h.opened_of_declared declared hid
    have same := (free.contentId_eq_iff declared first hid hid').1 rfl
    refine ⟨id, input, hid, opened, ?_, ?_, same, ?_⟩
    · intro s given
      exact h.inputAt_of_bound mem bound hid opened given
    · exact opens.loaded (id, input) (Dict.mem_of_get? opened)
    · intro plain plain'
      exact (Declaration.sameContent_iff_reordered plain plain').1 same
  · intro d mem d' mem'
    obtain ⟨id, hid⟩ := identify_total h.known d mem
    obtain ⟨id', hid'⟩ := identify_total h.known d' mem'
    exact ⟨id, id', hid, hid', free.contentId_eq_iff mem mem' hid hid'⟩

/-- Collisions are ruled out by computing all identities. -/
theorem collisionFree_of_identities {ds : List Declaration}
    (identities : ∀ d ∈ ds, ∀ d' ∈ ds, d.contentId.toOption = d'.contentId.toOption →
      d.content.toOption = d'.content.toOption) : CollisionFree ds := by
  intro d mem d' mem' x y hx hy digests
  have hid : d.contentId = .ok ⟨Digest.sha256 x⟩ := Declaration.contentId_eq_ok.2 ⟨x, hx, rfl⟩
  have hid' : d'.contentId = .ok ⟨Digest.sha256 y⟩ := Declaration.contentId_eq_ok.2 ⟨y, hy, rfl⟩
  have same := identities d mem d' mem' (by rw [hid, hid', digests])
  rw [hx, hy] at same
  exact Option.some.inj same

/-- One declaration in two orders of its entries, and a path. -/
def reorderedInput : Value :=
  .mapping [
    (.string "a", .mapping [(.string formatKey, .string "Open"), (.string "v", .string "x")]),
    (.string "b", .mapping [(.string "v", .string "x"), (.string formatKey, .string "Open")]),
    (.string "c", .string "a.x")]

/-- The declaration in the other order has the content of the first one, and is bound to an input of
that content. -/
theorem bound_input_content_reordered : ∃ c w',
    (buildSmall reorderedInput).run.run () = (.ok c, w') ∧ CollisionFree c.declared ∧
    ∃ d d', Dict.get? (leavesAt c.document.params 3) "a" = some (some d) ∧
      Dict.get? (leavesAt c.document.params 3) "b" = some (some d') ∧ d.SameContent d' ∧
      ∃ input, (∀ s, c.snapshot 3 = .ok s → s.inputAt "b" = some input) ∧
        d'.SameContent input.declaration := by
  obtain ⟨c, w', built, test⟩ := givesWith_iff (buildSmall reorderedInput) ()
    (fun c => decide (3 ∈ c.initZooms.toList ∧
      (∀ d ∈ c.declared, ∀ d' ∈ c.declared, d.contentId.toOption = d'.contentId.toOption →
        d.content.toOption = d'.content.toOption) ∧
      ∃ d ∈ (Dict.get? (leavesAt c.document.params 3) "a").join,
        ∃ d' ∈ (Dict.get? (leavesAt c.document.params 3) "b").join,
          d.contentId.toOption = d'.contentId.toOption)) |>.mp (by decide +kernel)
  obtain ⟨mem, identities, d, hd, d', hd', same⟩ := of_decide_eq_true test
  have free := collisionFree_of_identities identities
  obtain ⟨paths, pairs⟩ := bound_input_content built free
  have boundA := Option.join_eq_some_iff.1 hd
  have boundB := Option.join_eq_some_iff.1 hd'
  obtain ⟨id, id', hid, hid', shared⟩ := pairs d (mem_declared.2 ⟨3, mem, "a", boundA⟩) d'
    (mem_declared.2 ⟨3, mem, "b", boundB⟩)
  rw [hid, hid'] at same
  obtain ⟨_, input, _, _, given, _, content, _⟩ := paths 3 mem "b" d' boundB
  exact ⟨c, w', built, free, d, d', boundA, boundB, shared.1 (Option.some.inj same), input, given,
    content⟩

/-- A tagged value, and a mapping from the tag to the value. -/
def taggedInput : Value :=
  .mapping [
    (.string "a", .mapping [(.string formatKey, .string "Open"),
      (.string "v", .tagged "t" (.string "x"))]),
    (.string "b", .mapping [(.string formatKey, .string "Open"),
      (.string "v", .mapping [(.string "!t", .string "x")])])]

/-- Is this the declaration with the tagged value? -/
def holdsTag : Declaration → Bool
  | .entries [_, (_, .tagged _ _)] => true
  | _ => false

/-- Is this the declaration with the mapping? -/
def holdsMapping : Declaration → Bool
  | .entries [(.string format, .string _), (.string v, .mapping [(.string _, .string _)])] =>
    format != v
  | _ => false

theorem not_plain_of_holdsTag {d : Declaration} (h : holdsTag d = true) : ¬d.Plain := by
  unfold holdsTag at h
  split at h
  · intro plain
    exact plain.2.2.2.2.1
  · cases h

theorem plain_of_holdsMapping {d : Declaration} (h : holdsMapping d = true) : d.Plain := by
  unfold holdsMapping at h
  split at h
  · simp_all [Declaration.Plain, Value.Plain, Value.PlainEntries]
  · cases h

theorem plain_of_reordered {d d' : Declaration} (h : d.Reordered d') (plain : d.Plain) : d'.Plain := by
  cases d with
  | path s =>
    cases d' with
    | path t => trivial
    | entries b => exact h.elim
  | entries a =>
    cases d' with
    | path t => exact h.elim
    | entries b => exact Value.Reordered.plain h plain

/-- Although no digests collide, a mapping is bound to the input of another declaration, of which it
is no reordering. -/
theorem bound_input_of_other : ∃ c w', (buildSmall taggedInput).run.run () = (.ok c, w') ∧
    3 ∈ c.initZooms.toList ∧ CollisionFree c.declared ∧
    ∃ s d input, c.snapshot 3 = .ok s ∧
      Dict.get? (leavesAt c.document.params 3) "b" = some (some d) ∧
      s.inputAt "b" = some input ∧ ¬d.Reordered input.declaration := by
  obtain ⟨c, w', built, test⟩ := givesWith_iff (buildSmall taggedInput) ()
    (fun c => decide (3 ∈ c.initZooms.toList ∧
      (∀ d ∈ c.declared, ∀ d' ∈ c.declared, d.contentId.toOption = d'.contentId.toOption →
        d.content.toOption = d'.content.toOption) ∧
      ∃ s ∈ (c.snapshot 3).toOption,
        ∃ d ∈ (Dict.get? (leavesAt c.document.params 3) "b").join,
          ∃ input ∈ s.inputAt "b", holdsMapping d ∧ holdsTag input.declaration))
    |>.mp (by decide +kernel)
  obtain ⟨mem, identities, s, hs, d, hd, input, found, mapping, tag⟩ := of_decide_eq_true test
  have given : c.snapshot 3 = .ok s := by
    cases h : c.snapshot 3 with
    | error e => simp [h, Except.toOption] at hs
    | ok s' =>
      rw [h] at hs
      rw [Option.some.inj hs]
  refine ⟨c, w', built, mem, collisionFree_of_identities identities, s, d, input, given,
    Option.join_eq_some_iff.1 hd, found, ?_⟩
  -- Reordering a mapping gives no tag.
  intro reordered
  exact not_plain_of_holdsTag tag (plain_of_reordered reordered (plain_of_holdsMapping mapping))

end ZoomConfig.Configuration
