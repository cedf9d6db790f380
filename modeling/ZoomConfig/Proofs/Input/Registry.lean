import ZoomConfig.Input.Registry
import ZoomConfig.Proofs.Dict
import ZoomConfig.Proofs.Outcome
/-!
The registry of inputs.

Of the declarations with one identity the first counts (`identify_get?`), so identifying what was
identified before gives it back (`identify_values`). Opening a dictionary of declarations runs
through it in order and opens every entry once (`Opens`), and a registry that is opened holds one
input for each identity that some declaration has (`materialize_ok`).
-/
namespace ZoomConfig.InputRegistry

open Outcome

/-! ## The first declaration of an identity -/

/-- Does a declaration have this identity? -/
def hasId (id : ContentId) (d : Declaration) : Bool := d.contentId.toOption = some id

theorem hasId_iff (id : ContentId) (d : Declaration) :
    hasId id d = true ↔ d.contentId = .ok id := by
  cases h : d.contentId <;> simp [hasId, h, Except.toOption]

theorem identify_append (known : Dict ContentId Declaration) (ds es : List Declaration) :
    identify known (ds ++ es) = identify known ds >>= fun known => identify known es := by
  induction ds generalizing known with
  | nil => rfl
  | cons d ds ih =>
    simp only [List.cons_append, identify]
    cases d.contentId with
    | error e => rfl
    | ok id => exact ih (Dict.insertNew known id d)

variable {known after : Dict ContentId Declaration} {ds : List Declaration}

/-- What one step of `identify` does: the declaration has an identity and is added under it, unless
another was there before. -/
theorem identify_cons {d : Declaration} (h : identify known (d :: ds) = .ok after) :
    ∃ id, d.contentId = .ok id ∧ identify (Dict.insertNew known id d) ds = .ok after := by
  unfold identify at h
  cases hid : d.contentId with
  | error e => simp [hid] at h
  | ok id =>
    simp only [hid] at h
    exact ⟨id, rfl, h⟩

/-- An identity stands for the declaration known before, else for the first that has it. -/
theorem identify_get? (h : identify known ds = .ok after) (id : ContentId) :
    Dict.get? after id = (Dict.get? known id).or (ds.find? (hasId id)) := by
  induction ds generalizing known with
  | nil =>
    obtain rfl : known = after := by simpa [identify] using h
    simp
  | cons d ds ih =>
    obtain ⟨i, hi, rest⟩ := identify_cons h
    rw [ih rest, Dict.get?_insertNew]
    by_cases same : i = id
    · subst same
      have first : hasId i d = true := (hasId_iff i d).mpr hi
      cases Dict.get? known i <;> simp [first]
    · have other : ¬ hasId id d = true := by
        rw [hasId_iff, hi]
        simpa using same
      simp [same, other]

theorem identify_total (h : identify known ds = .ok after) :
    ∀ d ∈ ds, ∃ id, d.contentId = .ok id := by
  induction ds generalizing known with
  | nil => simp
  | cons d ds ih =>
    obtain ⟨i, hi, rest⟩ := identify_cons h
    intro e he
    rcases List.mem_cons.mp he with rfl | he
    · exact ⟨i, hi⟩
    · exact ih rest e he

theorem identify_succeeds (known : Dict ContentId Declaration)
    (h : ∀ d ∈ ds, ∃ id, d.contentId = .ok id) :
    ∃ after, identify known ds = .ok after := by
  induction ds generalizing known with
  | nil => exact ⟨known, rfl⟩
  | cons d ds ih =>
    obtain ⟨i, hi⟩ := h d List.mem_cons_self
    obtain ⟨after, hafter⟩ := ih (Dict.insertNew known i d)
      fun e he => h e (List.mem_cons_of_mem d he)
    exact ⟨after, by simp [identify, hi, hafter]⟩

theorem identify_sorted (h : identify known ds = .ok after) (sorted : Dict.Sorted known) :
    Dict.Sorted after := by
  induction ds generalizing known with
  | nil =>
    obtain rfl : known = after := by simpa [identify] using h
    exact sorted
  | cons d ds ih =>
    obtain ⟨i, _, rest⟩ := identify_cons h
    exact ih rest (Dict.sorted_insertNew sorted i d)

/-- Every entry has the identity of its declaration. -/
def Faithful (known : Dict ContentId Declaration) : Prop :=
  ∀ e ∈ known, e.2.contentId = .ok e.1

theorem identify_isSome (h : identify [] ds = .ok after) (id : ContentId) :
    (Dict.get? after id).isSome ↔ ∃ d ∈ ds, d.contentId = .ok id := by
  rw [identify_get? h id]
  simp only [Dict.get?, Option.none_or, List.find?_isSome, hasId_iff]

theorem identify_mem (h : identify [] ds = .ok after) {id : ContentId} {d : Declaration}
    (found : Dict.get? after id = some d) : d ∈ ds ∧ d.contentId = .ok id := by
  rw [identify_get? h id] at found
  simp only [Dict.get?, Option.none_or] at found
  exact ⟨List.mem_of_find?_eq_some found, (hasId_iff id d).mp (List.find?_some found)⟩

theorem identify_faithful (h : identify [] ds = .ok after) : Faithful after := by
  intro e he
  have sorted := identify_sorted h Dict.sorted_nil
  exact (identify_mem h ((Dict.mem_iff_get? sorted e.1 e.2).mp he)).2

/-- What was identified before is identified as it was. -/
theorem identify_values (sorted : Dict.Sorted known) (faithful : Faithful known) :
    identify [] (known.map (·.2)) = .ok known := by
  have total : ∀ d ∈ known.map (·.2), ∃ id, d.contentId = .ok id := by
    intro d hd
    obtain ⟨e, he, rfl⟩ := List.mem_map.mp hd
    exact ⟨e.1, faithful e he⟩
  obtain ⟨after, hafter⟩ := identify_succeeds [] total
  have same : ∀ id, Dict.get? after id = Dict.get? known id := by
    intro id
    rw [identify_get? hafter id]
    simp only [Dict.get?, Option.none_or]
    clear hafter total sorted
    induction known with
    | nil => rfl
    | cons e known ih =>
      have here : hasId id e.2 = decide (e.1 = id) := by
        rw [Bool.eq_iff_iff, hasId_iff, faithful e List.mem_cons_self]
        simp
      rw [List.map_cons, List.find?_cons, here,
        ih fun x hx => faithful x (List.mem_cons_of_mem e hx)]
      by_cases eq : e.1 = id <;> simp [Dict.get?, eq]
  rw [hafter, Dict.sorted_ext (identify_sorted hafter Dict.sorted_nil) sorted same]

/-! ## Opening inputs -/

section Opening

variable {σ α : Type} {ctx : LoadContext α} {drivers : Drivers (StateM σ) α} {w w₁ w' : σ}

theorem mem_of_inputDriver? {source : InputSource} {driver : InputDriver (StateM σ) α}
    (found : drivers.inputDriver? source = .ok driver) : driver ∈ drivers.inputs := by
  unfold Drivers.inputDriver? at found
  split at found
  · next d h =>
    cases found
    exact List.mem_reverse.mp (List.mem_of_find?_eq_some h)
  · cases found

/-- A handle was opened by the driver of a declaration, which took the world from `w` to `w₁`. -/
structure LoadedFrom (ctx : LoadContext α) (drivers : Drivers (StateM σ) α) (d : Declaration)
    (handle : InputHandle (StateM σ) α) (w w₁ : σ) : Prop where
  loaded : ∃ driver, drivers.inputDriver? (d.toSource ctx.configDir) = .ok driver ∧
    (driver.load (request ctx d)).run w = (.ok handle, w₁)

theorem openInput_ok_iff {d : Declaration} {handle : InputHandle (StateM σ) α} :
    (openInput ctx drivers d).run w = (.ok handle, w') ↔
      ∃ w₁ area, LoadedFrom ctx drivers d handle w w₁ ∧
        (handle.bbox ctx.pyramid.crs).run w₁ = (.ok area, w') := by
  unfold openInput
  constructor
  · intro h
    cases hdriver : drivers.inputDriver? (d.toSource ctx.configDir) with
    | error e =>
      simp only [hdriver] at h
      cases h
    | ok driver =>
      simp only [hdriver] at h
      obtain ⟨r, w₁, hload, h⟩ := run_step_eq.mp h
      cases r with
      | error e => cases h
      | ok loaded =>
        obtain ⟨r, w₂, hbox, h⟩ := run_step_eq.mp h
        cases r with
        | error e => cases h
        | ok area =>
          cases h
          exact ⟨w₁, area, ⟨driver, hdriver, hload⟩, hbox⟩
  · intro given
    obtain ⟨w₁, area, ⟨driver, found, load⟩, answer⟩ := given
    simp only [found]
    refine run_step_eq.mpr ⟨_, _, load, ?_⟩
    exact run_step_eq.mpr ⟨_, _, answer, rfl⟩

/-- Inputs are opened one after the other: each is loaded in the world that the one before left, and
tells its area then. -/
inductive Opens (ctx : LoadContext α) (drivers : Drivers (StateM σ) α) :
    σ → InputRegistry (StateM σ) α → σ → Prop where
  | done (w : σ) : Opens ctx drivers w [] w
  | next {w w₁ w₂ w' : σ} {id : ContentId} {d : Declaration} {handle : InputHandle (StateM σ) α}
      {area : Area α} {rest : InputRegistry (StateM σ) α}
      (loaded : LoadedFrom ctx drivers d handle w w₁)
      (answered : (handle.bbox ctx.pyramid.crs).run w₁ = (.ok area, w₂))
      (others : Opens ctx drivers w₂ rest w') :
      Opens ctx drivers w ((id, ⟨id, d, handle⟩) :: rest) w'

/-- The declarations of opened inputs by their identities. -/
def declarations {m : Type → Type} (opened : InputRegistry m α) : Dict ContentId Declaration :=
  opened.map fun e => (e.1, e.2.declaration)

theorem keys_declarations {m : Type → Type} (opened : InputRegistry m α) :
    Dict.keys (declarations opened) = Dict.keys opened := by
  simp [Dict.keys, declarations]

theorem openAll_ok {opened : InputRegistry (StateM σ) α}
    (h : (openAll ctx drivers known).run w = (.ok opened, w')) :
    Opens ctx drivers w opened w' ∧ declarations opened = known := by
  induction known generalizing w opened with
  | nil =>
    cases h
    exact ⟨.done w', rfl⟩
  | cons e known ih =>
    obtain ⟨id, d⟩ := e
    obtain ⟨r, w₁, hopen, h⟩ := run_step_eq.mp h
    cases r with
    | error e => cases h
    | ok handle =>
      obtain ⟨r, w₂, hrest, h⟩ := run_step_eq.mp h
      cases r with
      | error e => cases h
      | ok rest =>
        cases h
        obtain ⟨_, _, loaded, answered⟩ := openInput_ok_iff.mp hopen
        obtain ⟨others, same⟩ := ih hrest
        exact ⟨.next loaded answered others, by rw [← same]; rfl⟩

/-- Other inputs are opened after those that were opened. -/
theorem Opens.run_append {opened : InputRegistry (StateM σ) α} (h : Opens ctx drivers w opened w₁)
    {rest : List (ContentId × Declaration)} {result : Except ConfigError (InputRegistry (StateM σ) α)}
    (others : (openAll ctx drivers rest).run w₁ = (result, w')) :
    (openAll ctx drivers (declarations opened ++ rest)).run w = (result.map (opened ++ ·), w') := by
  induction h generalizing result with
  | done w =>
    show (openAll ctx drivers rest).run w = _
    rw [others]
    cases result <;> rfl
  | next loaded answered _ ih =>
    refine run_step_eq.mpr ⟨_, _, openInput_ok_iff.mpr ⟨_, _, loaded, answered⟩, ?_⟩
    refine run_step_eq.mpr ⟨_, _, ih others, ?_⟩
    cases result <;> rfl

theorem Opens.run {opened : InputRegistry (StateM σ) α} (h : Opens ctx drivers w opened w') :
    (openAll ctx drivers (declarations opened)).run w = (.ok opened, w') := by
  have none : (openAll ctx drivers []).run w' = (.ok [], w') := rfl
  have run := h.run_append none
  rwa [List.append_nil, Except.map, List.append_nil] at run

/-- Each opened input keeps its identity; it was loaded from its declaration in some world, and then
it answered. -/
theorem Opens.each {opened : InputRegistry (StateM σ) α} (h : Opens ctx drivers w opened w') :
    ∀ e ∈ opened, e.2.id = e.1 ∧
      ∃ w₁ w₂ area w₃, LoadedFrom ctx drivers e.2.declaration e.2.handle w₁ w₂ ∧
        (e.2.handle.bbox ctx.pyramid.crs).run w₂ = (.ok area, w₃) := by
  induction h with
  | done w => simp
  | next loaded answered _ ih =>
    intro e mem
    rcases List.mem_cons.mp mem with rfl | mem
    · exact ⟨rfl, _, _, _, _, loaded, answered⟩
    · exact ih e mem

theorem Opens.loaded {opened : InputRegistry (StateM σ) α} (h : Opens ctx drivers w opened w') :
    ∀ e ∈ opened, ∃ w₁ w₂, LoadedFrom ctx drivers e.2.declaration e.2.handle w₁ w₂ := by
  intro e mem
  obtain ⟨_, w₁, w₂, _, _, loaded, _⟩ := h.each e mem
  exact ⟨w₁, w₂, loaded⟩

theorem Opens.answered {opened : InputRegistry (StateM σ) α} (h : Opens ctx drivers w opened w') :
    ∀ e ∈ opened, ∃ w₁ area w₂, (e.2.handle.bbox ctx.pyramid.crs).run w₁ = (.ok area, w₂) := by
  intro e mem
  obtain ⟨_, _, w₁, area, w₂, _, answer⟩ := h.each e mem
  exact ⟨w₁, area, w₂, answer⟩

end Opening

end ZoomConfig.InputRegistry
