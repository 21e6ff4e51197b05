import Mathlib.Tactic.Common

/-!
# Loops

A loop is given by its body, which leads from the state at the head of a round to the next one
(`inl`) or to the result (`inr`), or has none: it faults, or waits for something that does not come.

* `run body n s` — the result of the loop, if it takes at most `n` rounds;
* `visits body n s` — the states at the heads of those rounds;
* `run_total`, `visits_spec` — what every round keeps holds of the result and of all states visited;
* `run_of_le` — more rounds than enough change nothing.
-/

set_option autoImplicit false

namespace Loop

variable {σ ρ : Type} {body : σ → Option (σ ⊕ ρ)} {s t : σ} {r : ρ} {n m : Nat}

def run (body : σ → Option (σ ⊕ ρ)) : Nat → σ → Option ρ
  | 0, _ => none
  | n + 1, s =>
    match body s with
    | none => none
    | some (.inl t) => run body n t
    | some (.inr r) => some r

def visits (body : σ → Option (σ ⊕ ρ)) : Nat → σ → List σ
  | 0, _ => []
  | n + 1, s =>
    match body s with
    | some (.inl t) => s :: visits body n t
    | _ => [s]

theorem run_next (h : body s = some (.inl t)) : run body (n + 1) s = run body n t := by
  rw [run, h]

theorem run_done (h : body s = some (.inr r)) : run body (n + 1) s = some r := by
  rw [run, h]

theorem run_of_le (h : run body n s = some r) (hn : n ≤ m) : run body m s = some r := by
  induction n generalizing m s with
  | zero => exact absurd h (by simp [run])
  | succ n ih =>
    obtain ⟨k, rfl⟩ := Nat.exists_eq_add_of_le' hn
    rw [← Nat.add_assoc]
    rw [run] at h ⊢
    cases hb : body s with
    | none => simp [hb] at h
    | some next =>
      cases next with
      | inl t =>
        simp only [hb] at h ⊢
        exact ih h (by omega)
      | inr r' => simpa [hb] using h

/-- **Loop rule**, for loops that come to an end or get stuck within the bound. -/
theorem run_total {f : σ → Nat} {I : σ → Prop} {Q : Option ρ → Prop}
    (hnext : ∀ {s t}, I s → body s = some (.inl t) → I t ∧ f t < f s)
    (hdone : ∀ {s r}, I s → body s = some (.inr r) → Q (some r))
    (hstuck : ∀ {s}, I s → body s = none → Q none) (h : I s) (hn : f s < n) :
    Q (run body n s) := by
  induction n generalizing s with
  | zero => omega
  | succ n ih =>
    rw [run]
    cases hb : body s with
    | none => exact hstuck h hb
    | some next =>
      cases next with
      | inl t =>
        obtain ⟨ht, hlt⟩ := hnext h hb
        exact ih ht (by omega)
      | inr r => exact hdone h hb

theorem visits_spec {I : σ → Prop} (hnext : ∀ {s t}, I s → body s = some (.inl t) → I t)
    (h : I s) : ∀ t ∈ visits body n s, I t := by
  induction n generalizing s with
  | zero => simp [visits]
  | succ n ih =>
    intro t ht
    rw [visits] at ht
    split at ht
    · rename_i u hb
      rcases List.mem_cons.1 ht with rfl | ht
      · exact h
      · exact ih (hnext h hb) t ht
    · simp only [List.mem_singleton] at ht
      exact ht ▸ h

end Loop
