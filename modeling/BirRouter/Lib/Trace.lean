import Mathlib.Data.List.Induction
import Mathlib.Tactic.Common

/-!
# Runs of a transition system

A system is a labelled step relation `step : σ → α → σ → Prop`; `Exec step s₀ as s` says that
the labels `as`, taken one after another from `s₀`, can lead to `s`.

* `Exec.invariant` — what holds at the start and survives every step holds of every state reached;
* `Exec.invariant_trace` — the same for a property of the state together with the labels so far;
* `Exec.refines` — a simulation relation with a deterministic abstract machine carries over to
  whole runs;
* `Restrict` — the steps that meet a side condition, for results about the runs that keep it;
* `foldlM_map_congr` — two runs of a step function that may stop, if a step's result up to `f` depends
  on the state up to `f` and the label up to `g` only;
* `Ensure` — the steps with a good outcome, and `Exec.restrict_iff_ensure` — the runs that keep a
  condition are those in which every step has a good outcome.
-/

set_option autoImplicit false

namespace Trace

variable {σ τ α β : Type}

/-- Runs, with the last step outermost. -/
inductive Exec (step : σ → α → σ → Prop) (s₀ : σ) : List α → σ → Prop
  | nil : Exec step s₀ [] s₀
  | snoc {as : List α} {t u : σ} {a : α} :
      Exec step s₀ as t → step t a u → Exec step s₀ (as ++ [a]) u

/-- The steps of `step` whose state and label meet `ok`. -/
def Restrict (ok : σ → α → Prop) (step : σ → α → σ → Prop) (s : σ) (a : α) (s' : σ) : Prop :=
  ok s a ∧ step s a s'

/-- The steps of `step` whose outcome meets `good`. -/
def Ensure (good : σ → α → σ → Prop) (step : σ → α → σ → Prop) (s : σ) (a : α) (s' : σ) : Prop :=
  step s a s' ∧ good s a s'

namespace Exec

variable {step : σ → α → σ → Prop} {s₀ s : σ} {as : List α}

/-- **Invariant rule**, for properties of the state and of the labels that led to it. -/
theorem invariant_trace {I : List α → σ → Prop} (h : Exec step s₀ as s) (h0 : I [] s₀)
    (hstep : ∀ {as t a u}, I as t → step t a u → I (as ++ [a]) u) : I as s := by
  induction h with
  | nil => exact h0
  | snoc _ hs ih => exact hstep ih hs

/-- **Invariant rule.** -/
theorem invariant {I : σ → Prop} (h : Exec step s₀ as s) (h0 : I s₀)
    (hstep : ∀ {t a u}, I t → step t a u → I u) : I s :=
  h.invariant_trace (I := fun _ t => I t) h0 hstep

/-- **Simulation rule.**  If every step is matched by the abstract machine `f`, the state a run
reaches is related to the one `f` reaches on the same labels. -/
theorem refines {R : σ → τ → Prop} {f : τ → α → τ} {t₀ : τ} (h : Exec step s₀ as s)
    (h0 : R s₀ t₀) (hstep : ∀ {s t a s'}, R s t → step s a s' → R s' (f t a)) :
    R s (as.foldl f t₀) := by
  refine h.invariant_trace (I := fun bs u => R u (bs.foldl f t₀)) h0 ?_
  intro bs t a u ht hs
  rw [List.foldl_append]
  exact hstep ht hs

/-- **Exact side conditions.**  If, under an invariant, a step has a good outcome exactly when it
meets the condition, the same holds of whole runs. -/
theorem restrict_iff_ensure {ok : σ → α → Prop} {good : σ → α → σ → Prop} (I : σ → Prop)
    (h0 : I s₀) (hiff : ∀ {t a u}, I t → step t a u → (ok t a ↔ good t a u))
    (hstep : ∀ {t a u}, I t → ok t a → step t a u → I u) :
    Exec (Restrict ok step) s₀ as s ↔ Exec (Ensure good step) s₀ as s := by
  constructor
  · intro h
    have hrun : I s ∧ Exec (Ensure good step) s₀ as s := by
      induction h with
      | nil => exact ⟨h0, .nil⟩
      | snoc _ hs ih =>
        obtain ⟨hok, hs⟩ := hs
        exact ⟨hstep ih.1 hok hs, ih.2.snoc ⟨hs, (hiff ih.1 hs).1 hok⟩⟩
    exact hrun.2
  · intro h
    have hrun : I s ∧ Exec (Restrict ok step) s₀ as s := by
      induction h with
      | nil => exact ⟨h0, .nil⟩
      | snoc _ hs ih =>
        obtain ⟨hs, hgood⟩ := hs
        have hok := (hiff ih.1 hs).2 hgood
        exact ⟨hstep ih.1 hok hs, ih.2.snoc ⟨hok, hs⟩⟩
    exact hrun.2

/-- The last step of a run. -/
theorem last {a : α} (h : Exec step s₀ (as ++ [a]) s) : ∃ t, Exec step s₀ as t ∧ step t a s := by
  generalize hbs : as ++ [a] = bs at h
  cases h with
  | nil => exact absurd hbs (by simp)
  | snoc h hs =>
    obtain ⟨rfl, hab⟩ := List.append_inj' hbs rfl
    cases hab
    exact ⟨_, h, hs⟩

theorem append {t : σ} {bs : List α} (h : Exec step s₀ as s) (h' : Exec step s bs t) :
    Exec step s₀ (as ++ bs) t := by
  induction h' with
  | nil => rwa [List.append_nil]
  | snoc _ hs ih =>
    rw [← List.append_assoc]
    exact ih.snoc hs

/-- A run can be cut anywhere. -/
theorem split {bs : List α} (h : Exec step s₀ (as ++ bs) s) :
    ∃ t, Exec step s₀ as t ∧ Exec step t bs s := by
  induction bs using List.reverseRecOn generalizing s with
  | nil => exact ⟨s, by rwa [List.append_nil] at h, nil⟩
  | append_singleton bs b ih =>
    rw [← List.append_assoc] at h
    obtain ⟨t, ht, hs⟩ := last h
    obtain ⟨u, hu, hut⟩ := ih ht
    exact ⟨u, hu, hut.snoc hs⟩

/-- A run can also be read from its first step. -/
theorem cons {t : σ} {a : α} (hs : step s₀ a t) (h : Exec step t as s) :
    Exec step s₀ (a :: as) s :=
  append (snoc nil hs) h

/-- Of a function that makes steps, a run is a fold. -/
theorem of_foldl (step : σ → α → σ → Prop) (f : σ → α → σ) (h : ∀ s a, step s a (f s a)) (s₀ : σ)
    (as : List α) : Exec step s₀ as (as.foldl f s₀) := by
  induction as using List.reverseRecOn with
  | nil => exact nil
  | append_singleton as a ih =>
    rw [List.foldl_append]
    exact ih.snoc (h _ a)

/-- Of a step function that may stop, a fold that meets the side condition throughout is a run. -/
theorem of_foldlM (ok : σ → α → Prop) [∀ s a, Decidable (ok s a)] (f : σ → α → Option σ) :
    ∀ {as : List α} {s₀ s : σ},
      as.foldlM (fun s a => if ok s a then f s a else none) s₀ = some s →
      Exec (Restrict ok fun s a s' => f s a = some s') s₀ as s := by
  intro as
  induction as with
  | nil =>
    intro s₀ s h
    obtain rfl := Option.some.inj h
    exact nil
  | cons a as ih =>
    intro s₀ s h
    rw [List.foldlM_cons] at h
    obtain ⟨t, ht, hrest⟩ := Option.bind_eq_some_iff.1 h
    split at ht
    · rename_i hok
      exact cons ⟨hok, ht⟩ (ih hrest)
    · cases ht

end Exec

/-! ## Two runs -/

/-- **Unwinding rule.** -/
theorem foldlM_map_congr {step : σ → α → Option σ} {f : σ → τ} {g : α → β}
    (hstep : ∀ {s t a b}, f s = f t → g a = g b → (step s a).map f = (step t b).map f) :
    ∀ {as bs : List α} {s t : σ}, f s = f t → as.map g = bs.map g →
      (as.foldlM step s).map f = (bs.foldlM step t).map f := by
  intro as
  induction as with
  | nil =>
    intro bs s t hst has
    obtain rfl := List.map_eq_nil_iff.1 has.symm
    exact congrArg some hst
  | cons a as ih =>
    intro bs s t hst has
    cases bs with
    | nil => exact absurd has (by simp)
    | cons b bs =>
      obtain ⟨hab, has⟩ := List.cons_eq_cons.1 has
      have hone := hstep hst hab
      rw [List.foldlM_cons, List.foldlM_cons]
      cases hs : step s a with
      | none =>
        rw [hs] at hone
        rw [Option.map_eq_none_iff.1 hone.symm]
        rfl
      | some s' =>
        rw [hs] at hone
        obtain ⟨t', ht', heq⟩ := Option.map_eq_some_iff.1 hone.symm
        rw [ht']
        exact ih heq.symm has

end Trace
