import ZoomConfig.GeoJson
import ZoomConfig.Proofs.Geometry.Hulls
import ZoomConfig.Proofs.Json.Reading
/-!
The extent of a GeoJSON file.

A position is reached from a value through arrays and the members that hold geometry, and not through
another position (`HasPosition`). The extent of a file is the smallest box around all that are
reached from its value, with a position on each side, and it is missing only where there is none
(`bounds_of_positions`). So only the set of positions counts: items of an array of containers may be
put into another order and repeated, and members that hold no geometry may be changed (`Rearranged`),
and the box keeps its sides.
-/
namespace ZoomConfig.GeoJson

/-! ## Positions that are reached -/

/-- A value as a number. -/
def number? : Json → Option Number
  | .number n => some n
  | _ => none

/-- The two numbers at the front of items, if they begin with two. -/
def front? : List Json → Option (Number × Number)
  | v :: w :: _ => (number? v).bind fun x => (number? w).map fun y => (x, y)
  | _ => none

/-- A position is reached from a value: it is one, or it is reached from an item of an array that is
none, or from a member that holds geometry. -/
inductive HasPosition : Json → Number × Number → Prop where
  | here {items : List Json} {p : Number × Number} (begins : front? items = some p) :
    HasPosition (.array items) p
  | item {items : List Json} {j : Json} {p : Number × Number} (other : front? items = none)
    (mem : j ∈ items) (inner : HasPosition j p) : HasPosition (.array items) p
  | member {members : List (String × Json)} {name : String} {j : Json} {p : Number × Number}
    (geometry : name ∈ geometryMembers) (mem : (name, j) ∈ members) (inner : HasPosition j p) :
    HasPosition (.object members) p

theorem mem_itemPositions {items : List Json} {p : Number × Number} :
    p ∈ itemPositions items ↔ ∃ j ∈ items, p ∈ positions j := by
  induction items with
  | nil => simp [itemPositions]
  | cons j rest ih => simp [itemPositions, ih]

theorem memberPositions_eq (members : List (String × Json)) :
    memberPositions members = members.map fun m => (m.1, positions m.2) := by
  induction members with
  | nil => rfl
  | cons m rest ih => rw [List.map_cons, ← ih]; rfl

theorem number?_eq_some {v : Json} {n : Number} : number? v = some n ↔ v = .number n := by
  cases v <;> simp [number?]

theorem front?_eq_some {items : List Json} {p : Number × Number} :
    front? items = some p ↔ ∃ rest, items = .number p.1 :: .number p.2 :: rest := by
  match items with
  | [] => simp [front?]
  | [_] => simp [front?]
  | v :: w :: rest =>
    obtain ⟨x, y⟩ := p
    simp [front?, Option.bind_eq_some_iff, number?_eq_some]

theorem positions_front {items : List Json} {p : Number × Number} (begins : front? items = some p) :
    positions (.array items) = [p] := by
  obtain ⟨rest, rfl⟩ := front?_eq_some.mp begins
  rw [positions]

theorem positions_items {items : List Json} (other : front? items = none) :
    positions (.array items) = itemPositions items := by
  rw [positions]
  rintro x y rest rfl
  cases other

theorem find?_member {members : List (String × Json)} (apart : (members.map (·.1)).Nodup)
    {name : String} {m : String × Json} :
    members.find? (·.1 == name) = some m ↔ m ∈ members ∧ m.1 = name := by
  induction members with
  | nil => simp
  | cons first rest ih =>
    obtain ⟨fresh, others⟩ := List.nodup_cons.mp apart
    by_cases same : first.1 = name
    · rw [List.find?_cons_of_pos (by simpa using same)]
      constructor
      · intro h
        cases h
        exact ⟨List.mem_cons_self, same⟩
      · rintro ⟨mem, named⟩
        rcases List.mem_cons.mp mem with rfl | mem
        · rfl
        · exact absurd (List.mem_map.mpr ⟨m, mem, named.trans same.symm⟩) fresh
    · rw [List.find?_cons_of_neg (by simpa using same), ih others, List.mem_cons]
      refine and_congr_left fun named => ⟨.inr, fun mem => mem.resolve_left ?_⟩
      rintro rfl
      exact same named

theorem mem_positions_object {members : List (String × Json)} {p : Number × Number}
    (apart : (members.map (·.1)).Nodup) : p ∈ positions (.object members) ↔
      ∃ name ∈ geometryMembers, ∃ j, (name, j) ∈ members ∧ p ∈ positions j := by
  rw [positions, memberPositions_eq]
  simp only [List.mem_flatMap, List.find?_map, Option.map_map]
  refine exists_congr fun name => and_congr_right fun _ => ?_
  show p ∈ ((members.find? (·.1 == name)).map fun m => positions m.2).getD [] ↔ _
  constructor
  · intro there
    cases found : members.find? (·.1 == name) with
    | none => simp [found] at there
    | some m =>
      obtain ⟨mem, rfl⟩ := (find?_member apart).mp found
      exact ⟨m.2, mem, by simpa [found] using there⟩
  · rintro ⟨j, mem, there⟩
    rw [(find?_member apart (m := (name, j))).mpr ⟨mem, rfl⟩]
    exact there

theorem mem_positions_iff {v : Json} (sound : v.Sound) {p : Number × Number} :
    p ∈ positions v ↔ HasPosition v p := by
  induction sound with
  | @array items _ ih =>
    cases begins : front? items with
    | some q =>
      rw [positions_front begins, List.mem_singleton]
      constructor
      · rintro rfl
        exact .here begins
      · intro h
        cases h with
        | here begins' => exact Option.some.inj (begins'.symm.trans begins)
        | item other => rw [begins] at other; cases other
    | none =>
      rw [positions_items begins, mem_itemPositions]
      constructor
      · rintro ⟨j, mem, inner⟩
        exact .item begins mem ((ih j mem).mp inner)
      · intro h
        cases h with
        | here begins' => rw [begins] at begins'; cases begins'
        | item _ mem inner => exact ⟨_, mem, (ih _ mem).mpr inner⟩
  | @object members apart _ ih =>
    rw [mem_positions_object apart]
    constructor
    · rintro ⟨name, geometry, j, mem, inner⟩
      exact .member geometry mem ((ih _ mem).mp inner)
    · intro h
      cases h with
      | member geometry mem inner => exact ⟨_, geometry, _, mem, (ih _ mem).mpr inner⟩
  | null => exact ⟨nofun, nofun⟩
  | bool => exact ⟨nofun, nofun⟩
  | string => exact ⟨nofun, nofun⟩
  | number => exact ⟨nofun, nofun⟩

theorem HasPosition.proper {v : Json} {p : Number × Number} (h : HasPosition v p) (sound : v.Sound) :
    p.1.Proper ∧ p.2.Proper := by
  induction h with
  | here begins =>
    obtain ⟨rest, rfl⟩ := front?_eq_some.mp begins
    cases sound with
    | array each =>
      have first := each (.number _) List.mem_cons_self
      have second := each (.number _) (List.mem_cons_of_mem _ List.mem_cons_self)
      cases first with
      | number first =>
        cases second with
        | number second => exact ⟨first, second⟩
  | item _ mem _ ih =>
    cases sound with
    | array each => exact ih (each _ mem)
  | member _ mem _ ih =>
    cases sound with
    | object _ each => exact ih (each _ mem)

/-! ## The smallest box around positions -/

/-- A box is around positions, with one of them on each side. -/
structure Encloses (b : Box Float) (s : Set (Number × Number)) : Prop where
  around : ∀ p ∈ s, b.contains (pointBox p) = true
  left : ∃ p ∈ s, b.left = p.1.toFloat
  bottom : ∃ p ∈ s, b.bottom = p.2.toFloat
  right : ∃ p ∈ s, b.right = p.1.toFloat
  top : ∃ p ∈ s, b.top = p.2.toFloat

theorem pointBox_proper {p : Number × Number} (proper : p.1.Proper ∧ p.2.Proper) :
    (pointBox (α := Float) p).Proper :=
  ⟨proper.1, proper.2, proper.1, proper.2⟩

namespace Encloses

variable {b c : Box Float} {s : Set (Number × Number)}

/-- No smaller box is around the positions. -/
theorem least (h : Encloses b s) (around : ∀ p ∈ s, c.contains (pointBox p) = true) :
    c.contains b = true := by
  obtain ⟨p, inLeft, left⟩ := h.left
  obtain ⟨q, inBottom, bottom⟩ := h.bottom
  obtain ⟨u, inRight, right⟩ := h.right
  obtain ⟨w, inTop, top⟩ := h.top
  refine Box.contains_eq_true_iff.mpr ⟨?_, ?_, ?_, ?_⟩
  · rw [left]
    exact (Box.contains_eq_true_iff.mp (around p inLeft)).1
  · rw [right]
    exact (Box.contains_eq_true_iff.mp (around u inRight)).2.1
  · rw [bottom]
    exact (Box.contains_eq_true_iff.mp (around q inBottom)).2.2.1
  · rw [top]
    exact (Box.contains_eq_true_iff.mp (around w inTop)).2.2.2

theorem same (h : Encloses b s) (h' : Encloses c s) : b.same c = true :=
  Box.same_of_contains (h'.least h.around) (h.least h'.around)

theorem single {p : Number × Number} (proper : p.1.Proper ∧ p.2.Proper) :
    Encloses (pointBox p) {p} where
  around q mem := by
    obtain rfl := Set.mem_singleton_iff.mp mem
    exact (pointBox_proper proper).contains_self
  left := ⟨p, rfl, rfl⟩
  bottom := ⟨p, rfl, rfl⟩
  right := ⟨p, rfl, rfl⟩
  top := ⟨p, rfl, rfl⟩

/-- A side that stays or moves to one more position has a position on it. -/
theorem attained {side : Number × Number → Float} {p : Number × Number} {x y : Float}
    (before : ∃ q ∈ s, x = side q) (either : y = x ∨ y = side p) :
    ∃ q ∈ insert p s, y = side q := by
  obtain ⟨q, mem, same⟩ := before
  rcases either with stays | moves
  · exact ⟨q, .inr mem, stays.trans same⟩
  · exact ⟨p, .inl rfl, moves⟩

/-- The hull with one more position has one on each side again. -/
theorem hull (h : Encloses b s) (sides : b.Proper) {p : Number × Number}
    (proper : p.1.Proper ∧ p.2.Proper) : Encloses (b.hull (pointBox p)) (insert p s) where
  around q mem := by
    have point := pointBox_proper proper
    obtain ⟨old, new⟩ := (sides.contains_hull point).mp (sides.hull point).contains_self
    rcases mem with rfl | mem
    · exact new
    · exact Box.contains_trans old (h.around q mem)
  left := attained h.left (smaller_eq_or sides.left)
  bottom := attained h.bottom (smaller_eq_or sides.bottom)
  right := attained h.right (larger_eq_or sides.right)
  top := attained h.top (larger_eq_or sides.top)

theorem foldl {rest : List (Number × Number)} (h : Encloses b s) (sides : b.Proper)
    (proper : ∀ p ∈ rest, p.1.Proper ∧ p.2.Proper) :
    Encloses (rest.foldl (fun b q => b.hull (pointBox q)) b) (s ∪ {p | p ∈ rest}) := by
  induction rest generalizing b s with
  | nil => simpa using h
  | cons p rest ih =>
    have here := proper p List.mem_cons_self
    have more := ih (h.hull sides here) (sides.hull (pointBox_proper here)) fun q mem =>
      proper q (List.mem_cons_of_mem _ mem)
    have whole : insert p s ∪ {q | q ∈ rest} = s ∪ {q | q ∈ p :: rest} := by
      ext q
      simp only [Set.mem_union, Set.mem_insert_iff, Set.mem_ofPred_eq, List.mem_cons]
      tauto
    rw [← whole]
    exact more

end Encloses

theorem extent_eq_none_iff {ps : List (Number × Number)} :
    extent (α := Float) ps = none ↔ ps = [] := by
  cases ps <;> simp [extent]

/-- The extent of positions is the smallest box around them. -/
theorem extent_encloses {ps : List (Number × Number)} (proper : ∀ p ∈ ps, p.1.Proper ∧ p.2.Proper)
    {b : Box Float} (found : extent ps = some b) : Encloses b {p | p ∈ ps} := by
  cases ps with
  | nil => cases found
  | cons p rest =>
    cases found
    have first := proper p List.mem_cons_self
    have others (q : Number × Number) (mem : q ∈ rest) := proper q (List.mem_cons_of_mem _ mem)
    have all := (Encloses.single first).foldl (pointBox_proper first) others
    have whole : {p} ∪ {q | q ∈ rest} = {q | q ∈ p :: rest} := by
      ext q
      simp
    rwa [whole] at all

/-! ## Values with the same positions -/

/-- Is a value an object or an array? -/
def IsContainer : Json → Prop
  | .array _ | .object _ => True
  | _ => False

/-- One value comes from the other by changes that move no position. At any depth, items of an array
of containers are put into another order or repeated, and members that hold no geometry are added,
removed or replaced. -/
inductive Rearranged : Json → Json → Prop where
  | refl (v : Json) : Rearranged v v
  | trans {u v w : Json} : Rearranged u v → Rearranged v w → Rearranged u w
  | items {items items' : List Json} (containers : ∀ j ∈ items, IsContainer j)
    (same : ∀ j, j ∈ items ↔ j ∈ items') : Rearranged (.array items) (.array items')
  | others {members members' : List (String × Json)}
    (same : ∀ name ∈ geometryMembers, ∀ j, (name, j) ∈ members ↔ (name, j) ∈ members') :
    Rearranged (.object members) (.object members')
  | item (before after : List Json) {v w : Json} : Rearranged v w →
    Rearranged (.array (before ++ v :: after)) (.array (before ++ w :: after))
  | member (before after : List (String × Json)) {name : String} {v w : Json} : Rearranged v w →
    Rearranged (.object (before ++ (name, v) :: after)) (.object (before ++ (name, w) :: after))

namespace Rearranged

variable {v w : Json} {p : Number × Number}

theorem symm (h : Rearranged v w) : Rearranged w v := by
  induction h with
  | refl v => exact .refl v
  | trans _ _ ih ih' => exact .trans ih' ih
  | items containers same =>
    exact .items (fun j mem => containers j ((same j).mpr mem)) fun j => (same j).symm
  | others same => exact .others fun name geometry j => (same name geometry j).symm
  | item before after _ ih => exact .item before after ih
  | member before after _ ih => exact .member before after ih

theorem number?_eq (h : Rearranged v w) : number? v = number? w := by
  induction h with
  | trans _ _ ih ih' => exact ih.trans ih'
  | _ => rfl

theorem front?_containers {items : List Json} (containers : ∀ j ∈ items, IsContainer j) :
    front? items = none := by
  cases begins : front? items with
  | none => rfl
  | some p =>
    obtain ⟨rest, rfl⟩ := front?_eq_some.mp begins
    exact (containers _ List.mem_cons_self).elim

/-- An array begins a position or not whatever becomes of an item. -/
theorem front?_replace (before after : List Json) (same : number? v = number? w) :
    front? (before ++ v :: after) = front? (before ++ w :: after) := by
  match before with
  | [] => cases after <;> simp [front?, same]
  | [_] => simp [front?, same]
  | _ :: _ :: _ => rfl

theorem hasPosition (h : Rearranged v w) (there : HasPosition v p) : HasPosition w p := by
  induction h generalizing p with
  | refl => exact there
  | trans _ _ ih ih' => exact ih' (ih there)
  | items containers same =>
    have begins := front?_containers containers
    cases there with
    | here begins' => rw [begins] at begins'; cases begins'
    | item _ mem inner =>
      have containers' := front?_containers fun j mem => containers j ((same j).mpr mem)
      exact .item containers' ((same _).mp mem) inner
  | others same =>
    cases there with
    | member geometry mem inner => exact .member geometry ((same _ geometry _).mp mem) inner
  | @item before after v w changed ih =>
    have begins := front?_replace before after changed.number?_eq
    cases there with
    | here begins' => exact .here (begins ▸ begins')
    | item other mem inner =>
      rw [begins] at other
      rcases List.mem_append.mp mem with mem | mem
      · exact .item other (List.mem_append_left _ mem) inner
      · rcases List.mem_cons.mp mem with rfl | mem
        · exact .item other (List.mem_append_right _ List.mem_cons_self) (ih inner)
        · exact .item other (List.mem_append_right _ (List.mem_cons_of_mem _ mem)) inner
  | member before after _ ih =>
    cases there with
    | member geometry mem inner =>
      rcases List.mem_append.mp mem with mem | mem
      · exact .member geometry (List.mem_append_left _ mem) inner
      · rcases List.mem_cons.mp mem with same | mem
        · cases same
          exact .member geometry (List.mem_append_right _ List.mem_cons_self) (ih inner)
        · exact .member geometry (List.mem_append_right _ (List.mem_cons_of_mem _ mem)) inner

theorem hasPosition_iff (h : Rearranged v w) : HasPosition v p ↔ HasPosition w p :=
  ⟨h.hasPosition, h.symm.hasPosition⟩

end Rearranged

/-! ## The bounds of a file -/

namespace Reader

variable {path text : String} {value : Json} {r : Reader Float}

/-- A text that can be read is accepted if its value counts for features. -/
theorem parse_eq_ok_iff (read : Json.parse? text = some value) : parse path text = .ok r ↔
    ∃ n, featureCount value = .ok n ∧ r = ⟨path, n, extent (positions value)⟩ := by
  rw [parse, read]
  cases counted : featureCount value <;> simp [ofJson, counted, eq_comm]

/-- The bounds of a text that is accepted are the extent of its value. -/
theorem bounds_eq (read : Json.parse? text = some value) (accepted : parse path text = .ok r) :
    r.bounds = extent (positions value) := by
  obtain ⟨n, -, rfl⟩ := (parse_eq_ok_iff read).mp accepted
  rfl

theorem bounds_eq_none_iff (read : Json.parse? text = some value)
    (accepted : parse path text = .ok r) : r.bounds = none ↔ ∀ p, ¬HasPosition value p := by
  rw [bounds_eq read accepted, extent_eq_none_iff, List.eq_nil_iff_forall_not_mem]
  simp only [mem_positions_iff (Json.parse?_sound read)]

theorem bounds_encloses (read : Json.parse? text = some value) (accepted : parse path text = .ok r)
    {b : Box Float} (found : r.bounds = some b) : Encloses b {p | HasPosition value p} := by
  have sound := Json.parse?_sound read
  rw [bounds_eq read accepted] at found
  have collected := extent_encloses (fun p mem => ((mem_positions_iff sound).mp mem).proper sound) found
  simpa only [mem_positions_iff sound] using collected

/-- The bounds of a file are missing exactly if no position is reached from its value, and else they
are the smallest box around all positions that are reached, with one of them on each side. They stay
the same box, up to the sign of a zero, if the value is rearranged and is still accepted. -/
theorem bounds_of_positions (read : Json.parse? text = some value)
    (accepted : parse path text = .ok r) :
    (r.bounds = none ↔ ∀ p, ¬HasPosition value p) ∧
    (∀ b, r.bounds = some b → Encloses b {p | HasPosition value p} ∧
      ∀ c : Box Float, (∀ p, HasPosition value p → c.contains (pointBox p) = true) →
        c.contains b = true) ∧
    ∀ (path' text' : String) (value' : Json) (r' : Reader Float),
      Json.parse? text' = some value' → parse path' text' = .ok r' → Rearranged value value' →
        Option.Rel (fun b b' => b.same b' = true) r.bounds r'.bounds := by
  refine ⟨bounds_eq_none_iff read accepted, fun b found => ?_,
    fun path' text' value' r' read' accepted' changed => ?_⟩
  · have encloses := bounds_encloses read accepted found
    exact ⟨encloses, fun c around => encloses.least around⟩
  · have same : {p | HasPosition value p} = {p | HasPosition value' p} :=
      Set.ext fun _ => changed.hasPosition_iff
    have none_iff : r.bounds = none ↔ r'.bounds = none := by
      rw [bounds_eq_none_iff read accepted, bounds_eq_none_iff read' accepted']
      simp only [changed.hasPosition_iff]
    cases found : r.bounds with
    | none =>
      rw [none_iff.mp found]
      exact .none
    | some b =>
      cases found' : r'.bounds with
      | none => rw [none_iff.mpr found'] at found; cases found
      | some b' =>
        have encloses := bounds_encloses read accepted found
        rw [same] at encloses
        exact .some (encloses.same (bounds_encloses read' accepted' found'))

/-- A line with other members beside its points. -/
def lineString (others : List (String × Json)) (points : List (Nat × Nat)) : Json :=
  .object (("type", .string "LineString") :: others ++
    [("coordinates", .array (points.map fun p => .array [.ofNat p.1, .ofNat p.2]))])

/-- A line that is read from its end, comes back to it and has a name keeps its bounds. -/
theorem bounds_of_positions_repeated :
    ∃ r r' : Reader Float,
      parse "shore.geojson" (lineString [] [(1, 5), (3, 4)]).compact = .ok r ∧
      parse "named.geojson"
        (lineString [("name", .string "shore")] [(3, 4), (1, 5), (3, 4)]).compact = .ok r' ∧
      r.bounds ≠ none ∧ Option.Rel (fun b b' => b.same b' = true) r.bounds r'.bounds := by
  have read : Json.parse? (lineString [] [(1, 5), (3, 4)]).compact =
      some (lineString [] [(1, 5), (3, 4)]) :=
    Json.parse?_eq_some (by decide +kernel) (by decide +kernel)
  have read' : Json.parse?
      (lineString [("name", .string "shore")] [(3, 4), (1, 5), (3, 4)]).compact =
      some (lineString [("name", .string "shore")] [(3, 4), (1, 5), (3, 4)]) :=
    Json.parse?_eq_some (by decide +kernel) (by decide +kernel)
  have accepted : parse "shore.geojson" (lineString [] [(1, 5), (3, 4)]).compact = .ok _ :=
    (parse_eq_ok_iff read).mpr ⟨1, rfl, rfl⟩
  have accepted' : parse "named.geojson"
      (lineString [("name", .string "shore")] [(3, 4), (1, 5), (3, 4)]).compact = .ok _ :=
    (parse_eq_ok_iff read').mpr ⟨1, rfl, rfl⟩
  have turned : Rearranged (lineString [] [(1, 5), (3, 4)])
      (lineString [] [(3, 4), (1, 5), (3, 4)]) :=
    .member [("type", .string "LineString")] [] (.items (by simp [IsContainer]) (by simp))
  have named : Rearranged (lineString [] [(3, 4), (1, 5), (3, 4)])
      (lineString [("name", .string "shore")] [(3, 4), (1, 5), (3, 4)]) :=
    .others (by simp [geometryMembers])
  exact ⟨_, _, accepted, accepted', Option.some_ne_none _,
    (bounds_of_positions read accepted).2.2 _ _ _ _ read' accepted' (turned.trans named)⟩

end Reader

end ZoomConfig.GeoJson
