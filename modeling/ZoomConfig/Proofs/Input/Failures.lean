import ZoomConfig.Proofs.Input.Recording
/-!
Opening stops at the first failure.

Declarations are identified before any driver is asked, and each identity stands for the first
declaration that has it. Then inputs are opened by ascending identities, up to the first one for which
no driver is found, or whose driver fails to load it, or which does not tell its area (`Fails`).
`FailFast` says how that ends, and what drivers have been asked by then; `materialize_failFast` says
that opening declarations ends like this.
-/
namespace ZoomConfig.InputRegistry

open Outcome

/-! ## Identities first -/

theorem identify_error {ds : List Declaration} (known : Dict ContentId Declaration)
    (missing : ∃ d ∈ ds, ∀ id, d.contentId ≠ .ok id) :
    ∃ before d after e, ds = before ++ d :: after ∧ (∀ b ∈ before, ∃ id, b.contentId = .ok id) ∧
      d.contentId = .error e ∧ identify known ds = .error e := by
  induction ds generalizing known with
  | nil => simp at missing
  | cons d rest ih =>
    cases hid : d.contentId with
    | error e => exact ⟨[], d, rest, e, rfl, by simp, hid, by simp [identify, hid]⟩
    | ok id =>
      have later : ∃ d ∈ rest, ∀ id, d.contentId ≠ .ok id := by
        obtain ⟨d', mem, none⟩ := missing
        rcases List.mem_cons.mp mem with rfl | mem
        · exact absurd hid (none id)
        · exact ⟨d', mem, none⟩
      obtain ⟨before, d', after, e, rfl, good, bad, fails⟩ := ih (Dict.insertNew known id d) later
      refine ⟨d :: before, d', after, e, rfl, ?_, bad, by simp [identify, hid, fails]⟩
      exact List.forall_mem_cons.mpr ⟨⟨id, hid⟩, good⟩

theorem contentId_error {d : Declaration} {e : ConfigError} (h : d.contentId = .error e) :
    ∃ cause, e = .schema (.declarationKey cause) := by
  cases d with
  | path text => cases h
  | entries m =>
    have wrapped : ((ContentId.ofMapping m).mapError fun cause =>
        ConfigError.schema (.declarationKey cause)) = .error e := h
    cases hid : ContentId.ofMapping m with
    | ok id =>
      rw [hid] at wrapped
      cases wrapped
    | error cause =>
      rw [hid] at wrapped
      cases wrapped
      exact ⟨cause, rfl⟩

theorem identify_repeated {before after : List Declaration} {d : Declaration} (mem : d ∈ before)
    (known : Dict ContentId Declaration) :
    identify known (before ++ d :: after) = identify known (before ++ after) := by
  rw [identify_append, identify_append]
  cases first : identify known before with
  | error e => rfl
  | ok met =>
    obtain ⟨id, hid⟩ := identify_total first d mem
    have there : (Dict.get? met id).isSome = true := by
      rw [identify_get? first id]
      have has : (before.find? (hasId id)).isSome = true :=
        List.find?_isSome.mpr ⟨d, mem, (hasId_iff id d).mpr hid⟩
      cases Dict.get? known id <;> simp [has]
    show identify met (d :: after) = identify met after
    simp only [identify, hid, Dict.insertNew, there, if_true]

/-! ## Failures -/

variable {σ α : Type}

/-- The input of a declaration fails to open in a world: no driver is found, or it does not load the
input, or the input does not tell its area. Besides the error there is what was asked to be loaded,
and the world that is left. -/
inductive Fails (ctx : LoadContext α) (drivers : Drivers (StateM σ) α) (d : Declaration) :
    σ → DriverError → List (InputRequest α) → σ → Prop where
  | lookup {w : σ} {e : DriverError}
      (missing : drivers.inputDriver? (d.toSource ctx.configDir) = .error e) :
      Fails ctx drivers d w e [] w
  | load {w w' : σ} {e : DriverError} {driver : InputDriver (StateM σ) α}
      (found : drivers.inputDriver? (d.toSource ctx.configDir) = .ok driver)
      (refused : (driver.load (request ctx d)).run w = (.error e, w')) :
      Fails ctx drivers d w e [request ctx d] w'
  | bbox {w w₁ w' : σ} {e : DriverError} {handle : InputHandle (StateM σ) α}
      (loaded : LoadedFrom ctx drivers d handle w w₁)
      (refused : (handle.bbox ctx.pyramid.crs).run w₁ = (.error e, w')) :
      Fails ctx drivers d w e [request ctx d] w'

/-- Inputs are opened in their order up to the first one that fails, or to the end. An error is that of
the input that fails and names its declaration. Besides the result there is what was asked to be
loaded, and the world that is left. -/
inductive FailFast (ctx : LoadContext α) (drivers : Drivers (StateM σ) α)
    (known : Dict ContentId Declaration) (w : σ) :
    Except ConfigError (InputRegistry (StateM σ) α) → List (InputRequest α) → σ → Prop where
  | opened {opened : InputRegistry (StateM σ) α} {w' : σ} (all : Opens ctx drivers w opened w')
      (each : known = declarations opened) :
      FailFast ctx drivers known w (.ok opened) (requests ctx opened) w'
  | failed {opened : InputRegistry (StateM σ) α} {w₁ w' : σ} {id : ContentId} {d : Declaration}
      {later : Dict ContentId Declaration} {e : DriverError} {asked : List (InputRequest α)}
      (before : Opens ctx drivers w opened w₁)
      (first : known = declarations opened ++ (id, d) :: later)
      (fails : Fails ctx drivers d w₁ e asked w') :
      FailFast ctx drivers known w (.error (.driver d.describe e)) (requests ctx opened ++ asked) w'

variable {ctx : LoadContext α} {drivers : Drivers (StateM σ) α} {w w₁ w' : σ} {d : Declaration}
  {e : DriverError} {asked : List (InputRequest α)} {opened : InputRegistry (StateM σ) α}
  {known : Dict ContentId Declaration} {result : Except ConfigError (InputRegistry (StateM σ) α)}

/-- There are three ways in which an input is not opened. -/
theorem openInput_error (h : (openInput ctx drivers d).run w = (.error e, w')) :
    ∃ asked, Fails ctx drivers d w e asked w' := by
  unfold openInput at h
  cases found : drivers.inputDriver? (d.toSource ctx.configDir) with
  | error cause =>
    simp only [found] at h
    cases h
    exact ⟨_, .lookup found⟩
  | ok driver =>
    simp only [found] at h
    obtain ⟨r, w₁, load, h⟩ := run_step_eq.mp h
    cases r with
    | error cause =>
      cases h
      exact ⟨_, .load found load⟩
    | ok handle =>
      obtain ⟨r, w₂, bbox, h⟩ := run_step_eq.mp h
      cases r with
      | error cause =>
        cases h
        exact ⟨_, .bbox ⟨driver, found, load⟩ bbox⟩
      | ok area => cases h

theorem Fails.run (h : Fails ctx drivers d w e asked w') :
    (openInput ctx drivers d).run w = (.error e, w') := by
  unfold openInput
  cases h with
  | lookup missing =>
    simp only [missing]
    rfl
  | load found refused =>
    simp only [found]
    exact run_step_eq.mpr ⟨_, _, refused, rfl⟩
  | bbox loaded refused =>
    obtain ⟨driver, found, load⟩ := loaded
    simp only [found]
    refine run_step_eq.mpr ⟨_, _, load, ?_⟩
    exact run_step_eq.mpr ⟨_, _, refused, rfl⟩

/-! ## Up to the first failure -/

theorem FailFast.run (h : FailFast ctx drivers known w result asked w') :
    (openAll ctx drivers known).run w = (result, w') := by
  cases h with
  | opened all each =>
    rw [each]
    exact all.run
  | @failed opened w₁ _ id d later e asked before first fails =>
    have stops : (openAll ctx drivers ((id, d) :: later)).run w₁ =
        (.error (.driver d.describe e), w') :=
      run_step_eq.mpr ⟨_, _, fails.run, rfl⟩
    rw [first]
    exact before.run_append stops

/-- Opening inputs always goes like this. -/
theorem exists_failFast (ctx : LoadContext α) (drivers : Drivers (StateM σ) α)
    (known : Dict ContentId Declaration) (w : σ) :
    ∃ result asked w', FailFast ctx drivers known w result asked w' := by
  induction known generalizing w with
  | nil => exact ⟨_, _, w, .opened (.done w) rfl⟩
  | cons entry known ih =>
    obtain ⟨id, d⟩ := entry
    rcases here : (openInput ctx drivers d).run w with ⟨e | handle, w₁⟩
    · obtain ⟨asked, fails⟩ := openInput_error here
      exact ⟨_, _, w₁, .failed (.done w) rfl fails⟩
    · obtain ⟨_, _, loaded, answered⟩ := openInput_ok_iff.mp here
      obtain ⟨_, _, w', later⟩ := ih w₁
      cases later with
      | opened all each =>
        exact ⟨_, _, w', .opened (.next loaded answered all) (by rw [each]; rfl)⟩
      | failed before first fails =>
        exact ⟨_, _, w', .failed (.next loaded answered before) (by rw [first]; rfl) fails⟩

/-! ## What is recorded -/

theorem Fails.recorded (h : Fails ctx drivers d w e asked w') (log : List (InputRequest α)) :
    Fails ctx drivers.recorded d (log, w) e asked (log ++ asked, w') := by
  cases h with
  | lookup missing =>
    rw [List.append_nil]
    exact .lookup (by rw [inputDriver?_recorded, missing, Except.map])
  | load found refused =>
    exact .load (by rw [inputDriver?_recorded, found, Except.map]) (load_recorded log refused)
  | bbox loaded refused => exact .bbox (loaded.recorded log) (run_keeping _ _ refused)

/-- Recording changes nothing else, and it shows what was asked to be loaded. -/
theorem FailFast.recorded (h : FailFast ctx drivers known w result asked w')
    (log : List (InputRequest α)) :
    FailFast ctx drivers.recorded known (log, w) (result.map (keeping _)) asked
      (log ++ asked, w') := by
  cases h with
  | @opened opened _ all each =>
    have kept := all.recorded log
    rw [← requests_keeping (InputRequest α) opened] at kept ⊢
    exact .opened kept (by rw [each, declarations_keeping])
  | @failed opened _ _ _ _ _ _ _ before first fails =>
    have stopped := fails.recorded (log ++ requests ctx opened)
    rw [List.append_assoc] at stopped
    have kept := before.recorded log
    rw [← requests_keeping (InputRequest α) opened] at kept stopped ⊢
    exact .failed kept (by rw [first, declarations_keeping]) stopped

/-! ## Opening the declarations of a list -/

theorem materialize_of_known {m : Type → Type} [Monad m] {drivers : Drivers m α}
    {ds : List Declaration} (identified : identify [] ds = .ok known) :
    materialize ctx drivers ds = openAll ctx drivers known := by
  rw [materialize, identified]

/-- If some declaration has no identity, the error is that of the first such declaration, and no driver
is asked anything. Else the identities of the declarations are taken in ascending order, each with the
first declaration that has it, and the inputs are opened in this order up to the first one that fails:
the requests to load are those of all inputs up to that one, one for each, its own only if a driver was
found. If none fails, the opened inputs are those of all identities. A declaration that is repeated
further on changes nothing. -/
theorem materialize_failFast (ctx : LoadContext α) (drivers : Drivers (StateM σ) α)
    (ds : List Declaration) :
    ((∃ d ∈ ds, ∀ id, d.contentId ≠ .ok id) →
      ∃ before d after cause, ds = before ++ d :: after ∧
        (∀ b ∈ before, ∃ id, b.contentId = .ok id) ∧
        d.contentId = .error (.schema (.declarationKey cause)) ∧
        materialize ctx drivers ds = pure (.error (.schema (.declarationKey cause)))) ∧
    ((∀ d ∈ ds, ∃ id, d.contentId = .ok id) →
      ∃ known, Dict.Sorted known ∧ (∀ id d, (id, d) ∈ known ↔ ds.find? (hasId id) = some d) ∧
        ∀ w, ∃ result asked w', FailFast ctx drivers known w result asked w' ∧
          (materialize ctx drivers ds).run w = (result, w') ∧
          (∀ log, (materialize ctx drivers.recorded ds).run (log, w) =
            (result.map (keeping _), (log ++ asked, w'))) ∧
          ∀ opened, result = .ok opened →
            ∀ id, id ∈ Dict.keys opened ↔ ∃ d ∈ ds, d.contentId = .ok id) ∧
    ∀ before d after, ds = before ++ d :: after → d ∈ before →
      materialize ctx drivers ds = materialize ctx drivers (before ++ after) := by
  refine ⟨fun missing => ?_, fun total => ?_, fun before d after split mem => ?_⟩
  · obtain ⟨before, d, after, e, split, good, bad, fails⟩ := identify_error [] missing
    obtain ⟨cause, rfl⟩ := contentId_error bad
    exact ⟨before, d, after, cause, split, good, bad, by rw [materialize, fails]⟩
  · obtain ⟨known, identified⟩ := identify_succeeds [] total
    have sorted := identify_sorted identified Dict.sorted_nil
    refine ⟨known, sorted, fun id d => ?_, fun w => ?_⟩
    · rw [Dict.mem_iff_get? sorted, identify_get? identified]
      exact Iff.rfl
    · obtain ⟨result, asked, w', goes⟩ := exists_failFast ctx drivers known w
      refine ⟨result, asked, w', goes, ?_, fun log => ?_, fun opened ok id => ?_⟩
      · rw [materialize_of_known identified, goes.run]
      · rw [materialize_of_known identified, (goes.recorded log).run]
      · subst ok
        cases goes with
        | opened _ each =>
          rw [← identify_isSome identified id, Dict.isSome_get?_iff, each, keys_declarations]
  · rw [materialize, materialize, split, identify_repeated mem]

/-- What a run opens inputs against in `/base`. -/
def smallContext : LoadContext Float where
  configDir := "/base"
  pyramid := ⟨.geodetic, 1, 0, by decide⟩
  delimiters := ⟨.single 3, ⟨0, 0, 1, 1⟩, ⟨0, 0, 1, 1⟩⟩
  readonly := false

/-- A driver that opens every path but one. -/
def choosyDrivers : Drivers (StateM Unit) Float where
  inputs := [
    { name := "Open"
      extensions := ["x"]
      load := fun request => pure <|
        if request.source.describe = "/base/c.x" then .error (.other "refused")
        else .ok ⟨"Open", fun _ => pure (.ok .empty)⟩ }]
  outputs := []

/-- Three paths, the first of them declared twice. -/
def threePaths : List Declaration := [.path "a.x", .path "c.x", .path "a.x", .path "b.x"]

/-- Did a run with recorded drivers stop at `c.x`, after `b.x` was loaded? -/
def stoppedAtC {β : Type} : Except ConfigError β × List (InputRequest Float) × Unit → Bool
  | (.error (.driver name (.other reason)), asked, _) =>
    decide (name = "c.x" ∧ reason = "refused" ∧
      asked.map (·.source.describe) = ["/base/b.x", "/base/c.x"])
  | _ => false

/-- The second path by identities is refused. The one that was declared first comes after it, and is not
asked for any more. -/
theorem materialize_failFast_refused : (∀ d ∈ threePaths, ∃ id, d.contentId = .ok id) ∧
    ∃ known asked, FailFast smallContext choosyDrivers known ()
        (.error (.driver "c.x" (.other "refused"))) asked () ∧
      (materialize smallContext choosyDrivers threePaths).run () =
        (.error (.driver "c.x" (.other "refused")), ()) ∧
      (materialize smallContext choosyDrivers.recorded threePaths).run ([], ()) =
        (.error (.driver "c.x" (.other "refused")), (asked, ())) ∧
      asked.map (·.source.describe) = ["/base/b.x", "/base/c.x"] := by
  have identities : ∀ d ∈ threePaths, ∃ id, d.contentId = .ok id := by
    simp [threePaths, Declaration.contentId]
  obtain ⟨_, opening, _⟩ := materialize_failFast smallContext choosyDrivers threePaths
  obtain ⟨known, _, _, runs⟩ := opening identities
  obtain ⟨result, asked, w', goes, run, recorded, _⟩ := runs ()
  have ended := recorded []
  rw [List.nil_append] at ended
  have test : stoppedAtC ((materialize smallContext choosyDrivers.recorded threePaths).run ([], ())) =
      true := by
    decide +kernel
  rw [ended] at test
  unfold stoppedAtC at test
  split at test
  · next name reason asked' _ stops =>
    obtain ⟨rfl, rfl, requests⟩ := of_decide_eq_true test
    cases result with
    | ok opened => cases stops
    | error cause =>
      cases stops
      exact ⟨identities, known, asked, goes, run, ended, requests⟩
  · cases test

end ZoomConfig.InputRegistry
