/-!
Opening computations that may fail.

A chain of stages gives a result exactly if every stage does, and these lemmas take such a chain
apart: the ones about `Except` for stages that only compute, the ones about `run` for stages that act
on a world of type `σ` besides. `Ends` says what a result has and what an error has, and goes along
with such a chain.
-/
namespace ZoomConfig.Outcome

variable {ε ε' β γ σ : Type}

/-! ## Stages that only compute -/

theorem bind_eq_ok {x : Except ε β} {f : β → Except ε γ} {c : γ} :
    x >>= f = .ok c ↔ ∃ b, x = .ok b ∧ f b = .ok c := by
  cases x <;> simp [bind, Except.bind]

theorem map_eq_ok {x : Except ε β} {f : β → γ} {c : γ} :
    x.map f = .ok c ↔ ∃ b, x = .ok b ∧ f b = c := by
  cases x <;> simp [Except.map]

theorem mapError_eq_ok {x : Except ε β} {f : ε → ε'} {b : β} :
    x.mapError f = .ok b ↔ x = .ok b := by
  cases x with
  | error e =>
    constructor
    · intro h
      cases h
    · intro h
      cases h
  | ok b' =>
    constructor
    · intro h
      cases h
      rfl
    · intro h
      cases h
      rfl

theorem toOption_eq_some {x : Except ε β} {b : β} : x.toOption = some b ↔ x = .ok b := by
  cases x <;> simp [Except.toOption]

theorem pure_eq_ok {b c : β} : (pure b : Except ε β) = .ok c ↔ b = c := by
  simp [pure, Except.pure]

theorem throw_ne_ok {e : ε} {b : β} : (throw e : Except ε β) ≠ .ok b := by
  simp [throw, throwThe, MonadExceptOf.throw]

/-- A chain of steps that fails has gone well up to one step, and that step fails. -/
theorem foldlM_eq_error {step : β → γ → Except ε β} : ∀ {l : List γ} {b : β} {e : ε},
    l.foldlM step b = .error e →
    ∃ before x after b', l = before ++ x :: after ∧ before.foldlM step b = .ok b' ∧
      step b' x = .error e
  | [], _, _, h => by simp [pure, Except.pure] at h
  | x :: rest, b, e, h => by
    rw [List.foldlM_cons] at h
    cases here : step b x with
    | error e' =>
      obtain rfl : e' = e := by simpa [here, bind, Except.bind] using h
      exact ⟨[], x, rest, b, rfl, rfl, here⟩
    | ok next =>
      simp only [here, bind, Except.bind] at h
      obtain ⟨before, y, after, b', rfl, good, bad⟩ := foldlM_eq_error h
      refine ⟨x :: before, y, after, b', rfl, ?_, bad⟩
      rw [List.foldlM_cons, here]
      exact good

/-! ## Things looked at in turn -/

/-- The error of a computation, if it ends with one. -/
def failure? : Except ε β → Option ε
  | .ok _ => none
  | .error e => some e

theorem failure?_eq_none {x : Except ε β} : failure? x = none ↔ ∃ b, x = .ok b := by
  cases x <;> simp [failure?]

theorem failure?_eq_some {x : Except ε β} {e : ε} : failure? x = some e ↔ x = .error e := by
  cases x <;> simp [failure?]

/-- Things decide over a computation: it ends with the fault of the first of them that has one, and
gives a result if none has. -/
def DecidedBy {κ : Type} (fault : κ → Option ε) (things : List κ) (x : Except ε β) : Prop :=
  failure? x = things.findSome? fault

namespace DecidedBy

variable {κ : Type} {fault : κ → Option ε} {things others : List κ} {x : Except ε β}

theorem ok (b : β) : DecidedBy fault [] (.ok b) := rfl

theorem single {k : κ} (h : fault k = failure? x) : DecidedBy fault [k] x := by
  rw [DecidedBy, List.findSome?_cons, h]
  cases failure? x <;> rfl

theorem map (h : DecidedBy fault things x) (f : β → γ) : DecidedBy fault things (x.map f) := by
  unfold DecidedBy at h ⊢
  rw [← h]
  cases x <;> rfl

theorem mapError (h : DecidedBy fault things x) (f : ε → ε') :
    DecidedBy (fun k => (fault k).map f) things (x.mapError f) := by
  change failure? (x.mapError f) = things.findSome? (Option.map f ∘ fault)
  rw [← List.map_findSome?, ← h]
  cases x <;> rfl

theorem append {y : β → Except ε γ} (hx : DecidedBy fault things x)
    (hy : ∀ b, DecidedBy fault others (y b)) : DecidedBy fault (things ++ others) (x >>= y) := by
  unfold DecidedBy at hx
  rw [DecidedBy, List.findSome?_append, ← hx]
  cases x with
  | ok b => exact hy b
  | error e => rfl

theorem ok_iff (h : DecidedBy fault things x) :
    (∃ b, x = .ok b) ↔ ∀ k ∈ things, fault k = none := by
  rw [← failure?_eq_none, h, List.findSome?_eq_none_iff]

theorem error_iff (h : DecidedBy fault things x) {e : ε} :
    x = .error e ↔ things.findSome? fault = some e := by
  rw [← failure?_eq_some, h]

end DecidedBy

/-! ## Stages that act on a world -/

section Bind

variable {x : ExceptT ε (StateM σ) β} {f : β → ExceptT ε (StateM σ) γ} {w w₁ w' : σ}

theorem run_bind_ok {b : β} (h : x.run.run w = (.ok b, w₁)) :
    (x >>= f).run.run w = (f b).run.run w₁ := by
  rw [ExceptT.run_bind, StateT.run_bind, h]
  rfl

theorem run_bind_error {e : ε} (h : x.run.run w = (.error e, w₁)) :
    (x >>= f).run.run w = (.error e, w₁) := by
  rw [ExceptT.run_bind, StateT.run_bind, h]
  rfl

theorem run_bind_eq_ok {c : γ} : (x >>= f).run.run w = (.ok c, w') ↔
    ∃ b w₁, x.run.run w = (.ok b, w₁) ∧ (f b).run.run w₁ = (.ok c, w') := by
  rcases h : x.run.run w with ⟨e | b, w₁⟩
  · rw [run_bind_error h]
    constructor
    · intro k
      cases k
    · intro given
      obtain ⟨_, _, k, _⟩ := given
      cases k
  · rw [run_bind_ok h]
    constructor
    · intro k
      exact ⟨b, w₁, rfl, k⟩
    · intro given
      obtain ⟨_, _, k, k'⟩ := given
      cases k
      exact k'

end Bind

theorem run_pure_eq_ok {w w' : σ} {b c : β} :
    (pure b : ExceptT ε (StateM σ) β).run.run w = (.ok c, w') ↔ b = c ∧ w = w' := by
  show ((.ok b, w) : Except ε β × σ) = (.ok c, w') ↔ _
  simp

theorem run_lift_eq_ok {x : Except ε β} {w w' : σ} {b : β} :
    (ExceptT.mk (pure x : StateM σ (Except ε β))).run.run w = (.ok b, w') ↔ x = .ok b ∧ w = w' := by
  show (x, w) = (.ok b, w') ↔ _
  simp

/-! ## Stages that keep a state beside the world -/

section Kept

variable {κ : Type} {x : ExceptT ε (StateT κ (StateM σ)) β}
  {f : β → ExceptT ε (StateT κ (StateM σ)) γ} {k k₁ k' : κ} {w w₁ w' : σ}

theorem run_kept_bind_ok {b : β} (h : (x.run.run k).run w = ((.ok b, k₁), w₁)) :
    ((x >>= f).run.run k).run w = ((f b).run.run k₁).run w₁ := by
  rw [ExceptT.run_bind, StateT.run_bind, StateT.run_bind, h]
  rfl

theorem run_kept_bind_error {e : ε} (h : (x.run.run k).run w = ((.error e, k₁), w₁)) :
    ((x >>= f).run.run k).run w = ((.error e, k₁), w₁) := by
  rw [ExceptT.run_bind, StateT.run_bind, StateT.run_bind, h]
  rfl

theorem run_kept_bind_eq_ok {c : γ} : ((x >>= f).run.run k).run w = ((.ok c, k'), w') ↔
    ∃ b k₁ w₁, (x.run.run k).run w = ((.ok b, k₁), w₁) ∧
      ((f b).run.run k₁).run w₁ = ((.ok c, k'), w') := by
  rcases h : (x.run.run k).run w with ⟨⟨e | b, k₁⟩, w₁⟩
  · rw [run_kept_bind_error h]
    constructor
    · intro given
      cases given
    · intro given
      obtain ⟨_, _, _, h, _⟩ := given
      cases h
  · rw [run_kept_bind_ok h]
    constructor
    · intro given
      exact ⟨b, k₁, w₁, rfl, given⟩
    · intro given
      obtain ⟨_, _, _, h, given⟩ := given
      cases h
      exact given

end Kept

/-- Does a computation give a result that passes a test? -/
def givesWith (x : ExceptT ε (StateM σ) β) (w : σ) (test : β → Bool) : Bool :=
  match x.run.run w with
  | (.ok b, _) => test b
  | (.error _, _) => false

theorem givesWith_iff (x : ExceptT ε (StateM σ) β) (w : σ) (test : β → Bool) :
    givesWith x w test = true ↔ ∃ b w', x.run.run w = (.ok b, w') ∧ test b = true := by
  unfold givesWith
  rcases x.run.run w with ⟨e | b, w'⟩
  · constructor
    · intro h
      cases h
    · intro given
      obtain ⟨_, _, h, _⟩ := given
      cases h
  · constructor
    · intro h
      exact ⟨b, w', rfl, h⟩
    · intro given
      obtain ⟨_, _, h, k⟩ := given
      cases h
      exact k

theorem run_step_eq {x : StateM σ β} {f : β → StateM σ γ} {w w' : σ} {c : γ} :
    (x >>= f).run w = (c, w') ↔ ∃ b w₁, x.run w = (b, w₁) ∧ (f b).run w₁ = (c, w') := by
  rw [StateT.run_bind]
  rcases h : x.run w with ⟨b, w₁⟩
  constructor
  · intro k
    exact ⟨b, w₁, rfl, k⟩
  · intro given
    obtain ⟨_, _, k, k'⟩ := given
    cases k
    exact k'

/-! ## How computations end -/

/-- A result has one property, and an error another. -/
def Ends (P : β → Prop) (E : ε → Prop) : Except ε β → Prop
  | .ok b => P b
  | .error e => E e

/-- What a step leads to has a property in every world. -/
def Always (P : β → Prop) (x : StateM σ β) : Prop := ∀ w, P (x.run w).1

section Ends

variable {P : β → Prop} {R : γ → Prop} {E : ε → Prop} {F : ε' → Prop} {x : Except ε β}

theorem Ends.ok {b : β} (h : P b) : Ends P E (.ok b) := h

theorem Ends.error {e : ε} (h : E e) : Ends P E (.error e) := h

theorem Ends.result {b : β} (h : Ends P E x) (given : x = .ok b) : P b := by
  rwa [given] at h

theorem Ends.failure {e : ε} (h : Ends P E x) (given : x = .error e) : E e := by
  rwa [given] at h

theorem Ends.imp {S : β → Prop} {G : ε → Prop} (h : Ends P E x) (hP : ∀ b, P b → S b)
    (hE : ∀ e, E e → G e) : Ends S G x := by
  cases x with
  | ok b => exact hP b h
  | error e => exact hE e h

theorem Ends.bind {f : β → Except ε γ} (hx : Ends P E x) (hf : ∀ b, P b → Ends R E (f b)) :
    Ends R E (x >>= f) := by
  cases x with
  | ok b => exact hf b hx
  | error e => exact hx

theorem Ends.map {f : β → γ} (hx : Ends P E x) (hf : ∀ b, P b → R (f b)) :
    Ends R E (x.map f) := by
  cases x with
  | ok b => exact hf b hx
  | error e => exact hx

theorem Ends.mapError {f : ε → ε'} (h : Ends P E x) (hf : ∀ e, E e → F (f e)) :
    Ends P F (x.mapError f) := by
  cases x with
  | ok b => exact h
  | error e => exact hf e h

theorem Ends.inPlace {f : ε → ε'} (hf : ∀ e, F (f e)) :
    Ends (fun b => x = .ok b) F (x.mapError f) := by
  cases x with
  | ok b => exact rfl
  | error e => exact hf e

theorem Always.pure {b : β} (h : P b) : Always P (pure b : StateM σ β) := fun _ => h

theorem Always.bind {x : StateM σ β} {f : β → StateM σ γ} (hx : Always P x)
    (hf : ∀ b, P b → Always R (f b)) : Always R (x >>= f) :=
  fun w => hf (x.run w).1 (hx w) (x.run w).2

/-- A stage with given ends comes before one that has them after every result of the first. -/
theorem Always.stages {x : ExceptT ε (StateM σ) β} {f : β → ExceptT ε (StateM σ) γ}
    (hx : Always (Ends P E) x.run) (hf : ∀ b, P b → Always (Ends R E) (f b).run) :
    Always (Ends R E) (x >>= f).run := by
  rw [ExceptT.run_bind]
  refine Always.bind hx fun r hr => ?_
  cases r with
  | ok b => exact hf b hr
  | error e => exact Always.pure hr

end Ends

end ZoomConfig.Outcome
