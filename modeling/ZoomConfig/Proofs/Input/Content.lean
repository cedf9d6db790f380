import ZoomConfig.Input.Declaration
import ZoomConfig.Proofs.Json.Reordering
/-!
What an identity says about a declaration.

The identity of a declaration is the digest of its content. The content tells paths from mappings, and
it tells the text of a path and the canonical form of a mapping (`content_eq_iff`). Declarations with
the same content are the same path, or mappings that JSON cannot tell apart but for the order of
entries; plain mappings differ in that order only (`sameContent_iff_reordered`), and they always have
a content (`plain_content_eq_iff`).
-/
namespace ZoomConfig

open Outcome Json

/-! ## The bytes of a text -/

theorem bytes_toList_loop (bytes : ByteArray) (i : Nat) (read : List UInt8) :
    ByteArray.toList.loop bytes i read = read.reverse ++ bytes.data.toList.drop i := by
  fun_induction ByteArray.toList.loop bytes i read with
  | case1 i read inside ih =>
    have here : i < bytes.data.toList.length := by simpa using inside
    rw [ih, List.drop_eq_getElem_cons here, List.reverse_cons, List.append_assoc,
      List.singleton_append]
    congr 2
    simp [ByteArray.get!, inside]
  | case2 i read outside =>
    have none : bytes.data.toList.drop i = [] := by
      apply List.drop_of_length_le
      simpa using outside
    rw [none, List.append_nil]

theorem textBytes_eq (text : String) :
    ContentId.textBytes text = text.toByteArray.data.toList :=
  bytes_toList_loop text.toByteArray 0 []

theorem textBytes_injective {s t : String} (h : ContentId.textBytes s = ContentId.textBytes t) :
    s = t := by
  rw [textBytes_eq, textBytes_eq] at h
  exact String.toByteArray_inj.1 (ByteArray.ext (Array.toList_inj.1 h))

theorem domains_apart (s t : List UInt8) :
    ContentId.textBytes "path" ++ 0 :: s ≠ ContentId.textBytes "mapping" ++ 0 :: t := by
  intro same
  -- The first bytes are those of `p` and `m`.
  have first := congrArg List.head? same
  rw [List.head?_append_of_ne_nil _ (by decide +kernel),
    List.head?_append_of_ne_nil _ (by decide +kernel)] at first
  revert first
  decide +kernel

/-! ## Contents -/

namespace Declaration

/-- What the identity of a declaration is the digest of. -/
def content : Declaration → Except JsonKeyError (List UInt8)
  | .path text => .ok (ContentId.pathContent text)
  | .entries m => ContentId.mappingContent m

/-- Both are paths with one text, or both are mappings with one canonical form. -/
def SameContent : Declaration → Declaration → Prop
  | .path s, .path t => s = t
  | .entries a, .entries b => ∃ c, Canon (.mapping a) c ∧ Canon (.mapping b) c
  | _, _ => False

/-- Is a declaration a path, or a mapping that JSON can hold? -/
def Plain : Declaration → Prop
  | .path _ => True
  | .entries m => (Value.mapping m).Plain

/-- Both are paths with one text, or mappings that differ in the order of entries only. -/
def Reordered : Declaration → Declaration → Prop
  | .path s, .path t => s = t
  | .entries a, .entries b => Value.Reordered (.mapping a) (.mapping b)
  | _, _ => False

theorem contentId_eq_ok {d : Declaration} {id : ContentId} :
    d.contentId = .ok id ↔ ∃ bytes, d.content = .ok bytes ∧ id = ⟨Digest.sha256 bytes⟩ := by
  cases d with
  | path text =>
    simp only [contentId, content, Except.ok.injEq, exists_eq_left', ContentId.ofPath]
    exact eq_comm
  | entries m =>
    simp only [contentId, content, ContentId.ofMapping, mapError_eq_ok, map_eq_ok]
    constructor
    · intro given
      obtain ⟨bytes, here, rfl⟩ := given
      exact ⟨bytes, here, rfl⟩
    · intro given
      obtain ⟨bytes, here, rfl⟩ := given
      exact ⟨bytes, here, rfl⟩

/-- The content of a mapping is the text of its canonical form, behind a word. -/
theorem content_entries {m : Mapping} {bytes : List UInt8} :
    (Declaration.entries m).content = .ok bytes ↔ ∃ c, Canon (.mapping m) c ∧
      bytes = ContentId.textBytes "mapping" ++ 0 :: ContentId.textBytes c.compact := by
  simp only [content, ContentId.mappingContent, ContentId.canonicalText, map_eq_ok, Canon]
  constructor
  · intro given
    obtain ⟨_, ⟨j, hj, rfl⟩, rfl⟩ := given
    exact ⟨j.canonical, ⟨j, hj, rfl⟩, rfl⟩
  · intro given
    obtain ⟨_, ⟨j, hj, rfl⟩, rfl⟩ := given
    exact ⟨_, ⟨j, hj, rfl⟩, rfl⟩

/-- Two contents are the same exactly if they are of one path or of one canonical form. -/
theorem content_eq_iff {d d' : Declaration} {x y : List UInt8} (hx : d.content = .ok x)
    (hy : d'.content = .ok y) : x = y ↔ SameContent d d' := by
  cases d with
  | path s =>
    obtain rfl : ContentId.pathContent s = x := Except.ok.inj hx
    cases d' with
    | path t =>
      obtain rfl : ContentId.pathContent t = y := Except.ok.inj hy
      constructor
      · intro same
        exact textBytes_injective (List.tail_eq_of_cons_eq (List.append_cancel_left same))
      · intro same
        exact congrArg ContentId.pathContent same
    | entries b =>
      obtain ⟨c, _, rfl⟩ := content_entries.1 hy
      exact iff_of_false (domains_apart _ _) id
  | entries a =>
    obtain ⟨c, form, rfl⟩ := content_entries.1 hx
    cases d' with
    | path t =>
      obtain rfl : ContentId.pathContent t = y := Except.ok.inj hy
      exact iff_of_false (domains_apart _ _).symm id
    | entries b =>
      obtain ⟨c', form', rfl⟩ := content_entries.1 hy
      constructor
      · intro same
        have text := textBytes_injective (List.tail_eq_of_cons_eq (List.append_cancel_left same))
        have forms := compact_injective (canon_finite _ c form) (canon_finite _ c' form') text
        rw [← forms] at form'
        exact ⟨c, form, form'⟩
      · intro same
        obtain ⟨form₁, here, there⟩ := same
        rw [form.unique here, form'.unique there]

/-- Plain declarations have the same content exactly if they differ in the order of entries only. -/
theorem sameContent_iff_reordered {d d' : Declaration} (plain : d.Plain) (plain' : d'.Plain) :
    SameContent d d' ↔ Reordered d d' := by
  cases d with
  | path s => cases d' <;> exact Iff.rfl
  | entries a =>
    cases d' with
    | path t => exact Iff.rfl
    | entries b =>
      constructor
      · intro same
        obtain ⟨c, form, form'⟩ := same
        exact (canon_iff_reordered plain plain' form).1 form'
      · intro reordered
        obtain ⟨c, form⟩ := canon_of_plain (.mapping a) plain
        exact ⟨c, form, (canon_iff_reordered plain plain' form).2 reordered⟩

theorem content_of_plain {d : Declaration} (plain : d.Plain) : ∃ x, d.content = .ok x := by
  cases d with
  | path text => exact ⟨_, rfl⟩
  | entries m =>
    obtain ⟨c, form⟩ := canon_of_plain (.mapping m) plain
    exact ⟨_, content_entries.2 ⟨c, form, rfl⟩⟩

theorem reordered_cases {d d' : Declaration} : Reordered d d' ↔
    (∃ text, d = .path text ∧ d' = .path text) ∨
      ∃ a b, d = .entries a ∧ d' = .entries b ∧ Value.Reordered (.mapping a) (.mapping b) := by
  cases d with
  | path s =>
    cases d' with
    | path t => simp [Reordered, eq_comm]
    | entries b => simp [Reordered]
  | entries a => cases d' <;> simp [Reordered]

/-- Plain declarations have contents, whose digests are their identities. The contents are the same
exactly if both are one path, or both are mappings that differ in the order of entries only: at every
depth, items of sequences stay in their places, entries of mappings keep their keys and may change
places, and anything else is the same. -/
theorem plain_content_eq_iff {d d' : Declaration} (plain : d.Plain) (plain' : d'.Plain) :
    (∃ x y, d.content = .ok x ∧ d'.content = .ok y ∧
      d.contentId = .ok ⟨Digest.sha256 x⟩ ∧ d'.contentId = .ok ⟨Digest.sha256 y⟩ ∧
      (x = y ↔ (∃ text, d = .path text ∧ d' = .path text) ∨
        ∃ a b, d = .entries a ∧ d' = .entries b ∧ Value.Reordered (.mapping a) (.mapping b))) ∧
    ∀ v w, Value.Reordered v w ↔ Value.ReorderedParts v w := by
  obtain ⟨x, hx⟩ := content_of_plain plain
  obtain ⟨y, hy⟩ := content_of_plain plain'
  refine ⟨⟨x, y, hx, hy, contentId_eq_ok.2 ⟨x, hx, rfl⟩, contentId_eq_ok.2 ⟨y, hy, rfl⟩, ?_⟩,
    fun v w => Value.reordered_iff_parts⟩
  rw [content_eq_iff hx hy, sameContent_iff_reordered plain plain', reordered_cases]

/-- An input with a list. -/
def listing (items : List Value) : Mapping :=
  [(.string formatKey, .string "Open"), (.string "v", .sequence items)]

/-- Two entries. -/
def twoEntries : Mapping :=
  [(.string "a", .null), (.string "b", .bool true)]

theorem plain_listing {items : List Value} (plain : Value.PlainItems items) :
    (Declaration.entries (listing items)).Plain := by
  simpa [Plain, listing, Value.Plain, Value.PlainEntries, formatKey] using plain

theorem plain_twoEntries : (Value.mapping twoEntries).Plain := by
  simp [twoEntries, Value.Plain, Value.PlainEntries]

/-- Turning mappings around, in a list too, is reordering. Turning the list around is not, and neither
is putting a whole number or a negative zero for a zero. -/
theorem plain_content_eq_iff_listing :
    let zero := Value.number (.float 0)
    let ds := Declaration.entries (listing [.mapping twoEntries, zero])
    let turned := Declaration.entries (listing [.mapping twoEntries.reverse, zero]).reverse
    ds.Plain ∧ turned.Plain ∧ ds.Reordered turned ∧
      ∀ items ∈ [[zero, .mapping twoEntries], [.mapping twoEntries, .number (.int 0)],
          [.mapping twoEntries, .number (.float (-0.0))]],
        (Declaration.entries (listing items)).Plain ∧ ¬ds.Reordered (.entries (listing items)) := by
  intro zero ds turned
  have finite : (0 : Float).isFinite = true ∧ (-0.0 : Float).isFinite = true := by decide +kernel
  have plain : ds.Plain := plain_listing ⟨plain_twoEntries, finite.1, trivial⟩
  have reversed : (Value.mapping twoEntries.reverse).Plain :=
    Value.Reordered.plain (.order (List.reverse_perm _).symm) plain_twoEntries
  have inner : (Declaration.entries (listing [.mapping twoEntries.reverse, zero])).Plain :=
    plain_listing ⟨reversed, finite.1, trivial⟩
  have plain' : turned.Plain := Value.Reordered.plain (.order (List.reverse_perm _).symm) inner
  refine ⟨plain, plain', ?_, ?_⟩
  · obtain ⟨⟨x, y, hx, hy, _, _, told⟩, _⟩ := plain_content_eq_iff plain plain'
    have same : ds.content.toOption = turned.content.toOption := by decide +kernel
    rw [hx, hy] at same
    exact reordered_cases.2 (told.1 (Option.some.inj same))
  · intro items mem
    have plain'' : (Declaration.entries (listing items)).Plain := by
      apply plain_listing
      simp only [List.mem_cons, List.not_mem_nil, or_false] at mem
      obtain rfl | rfl | rfl := mem
      · exact ⟨finite.1, plain_twoEntries, trivial⟩
      · exact ⟨plain_twoEntries, trivial, trivial⟩
      · exact ⟨plain_twoEntries, finite.2, trivial⟩
    refine ⟨plain'', fun reordered => ?_⟩
    obtain ⟨⟨x, y, hx, hy, _, _, told⟩, _⟩ := plain_content_eq_iff plain plain''
    have same := told.2 (reordered_cases.1 reordered)
    have other : ∀ items ∈ [[zero, .mapping twoEntries], [.mapping twoEntries, .number (.int 0)],
        [.mapping twoEntries, .number (.float (-0.0))]],
        ds.content.toOption ≠ (Declaration.entries (listing items)).content.toOption := by
      decide +kernel
    rw [same] at hx
    exact other items mem (by rw [hx, hy])

end Declaration

end ZoomConfig
