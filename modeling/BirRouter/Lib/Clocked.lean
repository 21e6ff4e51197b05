import Mathlib.Algebra.Group.Nat.Defs
import Mathlib.Tactic.Common

/-!
# Clocked machines

A machine is a function `step : σ → ι → σ`, one clock cycle under an input; what it hands on in a
cycle is a list computed from the state and the input.

* `run`, `collect` — the state after some cycles and everything handed on in them;
* `Along` — every cycle of a run meets a condition on the state and the input;
* `collect_conserves` — from one cycle to a run: what is held and what comes in is what goes out and
  what is held afterwards;
* `Moves` — how far parts that pass items on with a ready/valid handshake are from being empty; parts
  in a row are one part (`Moves.comp`), and a part that always moves runs empty (`run_empties`).
-/

set_option autoImplicit false

namespace Clocked

variable {σ ι β : Type}

section Runs

variable (step : σ → ι → σ)

def run (s : σ) (cs : List ι) : σ := cs.foldl step s

/-- What `out` says in each cycle, one after another. -/
def collect (out : σ → ι → List β) : σ → List ι → List β
  | _, [] => []
  | s, c :: cs => out s c ++ collect out (step s c) cs

def Along (ok : σ → ι → Prop) : σ → List ι → Prop
  | _, [] => True
  | s, c :: cs => ok s c ∧ Along ok (step s c) cs

instance decidableAlong {ok : σ → ι → Prop} [∀ s c, Decidable (ok s c)] :
    ∀ (s : σ) (cs : List ι), Decidable (Along step ok s cs)
  | _, [] => isTrue trivial
  | s, c :: cs => @instDecidableAnd _ _ inferInstance (decidableAlong (step s c) cs)

end Runs

variable {step : σ → ι → σ}

theorem run_cons (s : σ) (c : ι) (cs : List ι) : run step s (c :: cs) = run step (step s c) cs := rfl

theorem run_append (s : σ) (cs ds : List ι) :
    run step s (cs ++ ds) = run step (run step s cs) ds := by
  unfold run
  rw [List.foldl_append]

theorem collect_append (out : σ → ι → List β) : ∀ (s : σ) (cs ds : List ι),
    collect step out s (cs ++ ds) = collect step out s cs ++ collect step out (run step s cs) ds
  | _, [], _ => rfl
  | s, c :: cs, ds => by
    rw [List.cons_append, collect, collect, collect_append out (step s c) cs ds, run_cons,
      List.append_assoc]

theorem collect_map {γ : Type} (f : List β → List γ) (h0 : f [] = [])
    (happ : ∀ l m, f (l ++ m) = f l ++ f m) (out : σ → ι → List β) : ∀ (s : σ) (cs : List ι),
    f (collect step out s cs) = collect step (fun s c => f (out s c)) s cs
  | _, [] => h0
  | s, c :: cs => by rw [collect, collect, happ, collect_map f h0 happ out (step s c) cs]

theorem along_of_forall {ok : σ → ι → Prop} (h : ∀ s c, ok s c) :
    ∀ (s : σ) (cs : List ι), Along step ok s cs
  | _, [] => trivial
  | s, c :: cs => ⟨h s c, along_of_forall h (step s c) cs⟩

/-- What survives every cycle that meets `ok` holds after a run whose cycles all do. -/
theorem run_invariant (I : σ → Prop) (ok : σ → ι → Prop)
    (hstep : ∀ s c, I s → ok s c → I (step s c)) :
    ∀ (s : σ) (cs : List ι), I s → Along step ok s cs → I (run step s cs)
  | _, [], hs, _ => hs
  | s, c :: cs, hs, hok => run_invariant I ok hstep (step s c) cs (hstep s c hs hok.1) hok.2

/-- What an invariant and `ok` imply of a cycle is true of every cycle. -/
theorem along_of_invariant (I : σ → Prop) (ok : σ → ι → Prop) {P : σ → ι → Prop}
    (hstep : ∀ s c, I s → ok s c → I (step s c)) (h : ∀ s c, I s → ok s c → P s c) :
    ∀ (s : σ) (cs : List ι), I s → Along step ok s cs → Along step P s cs
  | _, [], _, _ => trivial
  | s, c :: cs, hs, hok =>
    ⟨h s c hs hok.1, along_of_invariant I ok hstep h (step s c) cs (hstep s c hs hok.1) hok.2⟩

/-- **Conservation over a run.** -/
theorem collect_conserves (I : σ → Prop) (ok : σ → ι → Prop) (held : σ → List β)
    (inp out : σ → ι → List β) (hstep : ∀ s c, I s → ok s c → I (step s c))
    (h : ∀ s c, I s → ok s c → held s ++ inp s c = out s c ++ held (step s c)) :
    ∀ (s : σ) (cs : List ι), I s → Along step ok s cs →
      held s ++ collect step inp s cs = collect step out s cs ++ held (run step s cs)
  | s, [], _, _ => by simp [collect, run]
  | s, c :: cs, hs, hok => by
    have ih := collect_conserves I ok held inp out hstep h (step s c) cs (hstep s c hs hok.1) hok.2
    rw [collect, collect, run_cons, ← List.append_assoc, h s c hs hok.1, List.append_assoc, ih,
      List.append_assoc]

/-! ## Progress -/

/-- In one cycle the weight of a part goes from `w` to `w'` while `pushed` items enter and `popped`
leave: an item that enters adds at most `gain`, one that leaves takes at least 1, and a part that is
not empty loses 1 when the next part is `ready`. -/
structure Moves (gain w w' pushed popped : Nat) (ready : Bool) : Prop where
  le : w' + popped ≤ w + gain * pushed
  lt : ready = true → 0 < w → w' + 1 ≤ w + gain * pushed

namespace Moves

variable {a b v v' w w' pushed passed popped : Nat} {ready ready' : Bool}

theorem mono (h : Moves a w w' pushed popped ready) (hle : pushed ≤ passed) :
    Moves a w w' passed popped ready := by
  have hmul : a * pushed ≤ a * passed := Nat.mul_le_mul_left a hle
  have hle := h.le
  refine ⟨by omega, fun hr hw => ?_⟩
  have hlt := h.lt hr hw
  omega

/-- **Two parts in a row**, the second of which is ready when it is empty. -/
theorem comp (h : Moves a v v' pushed passed ready') (h' : Moves b w w' passed popped ready)
    (hready : w = 0 → ready' = true) :
    Moves ((b + 1) * a) ((b + 1) * v + w) ((b + 1) * v' + w') pushed popped ready := by
  have hle := Nat.mul_le_mul_left (b + 1) h.le
  have hle' := h'.le
  rw [Nat.mul_add, Nat.mul_add, ← Nat.mul_assoc, Nat.add_mul b 1 passed, Nat.one_mul] at hle
  refine ⟨by omega, fun hr hw => ?_⟩
  by_cases hz : w = 0
  · by_cases hp : passed = 0
    · -- the first part moves on its own
      have hv : 0 < v := Nat.pos_of_ne_zero fun hv => by simp [hv, hz] at hw
      have hlt := Nat.mul_le_mul_left (b + 1) (h.lt (hready hz) hv)
      rw [Nat.mul_add, Nat.mul_add, ← Nat.mul_assoc] at hlt
      simp only [hp, Nat.mul_zero] at hle hle'
      omega
    · omega
  · have hlt := h'.lt hr (Nat.pos_of_ne_zero hz)
    omega

end Moves

/-- **What always moves runs empty.** -/
theorem run_empties (I : σ → Prop) (weight : σ → Nat) (quiet : ι → Prop)
    (hstep : ∀ s c, I s → quiet c → I (step s c))
    (h : ∀ s c, I s → quiet c → ∃ gain popped,
      Moves gain (weight s) (weight (step s c)) 0 popped true) :
    ∀ (cs : List ι) (s : σ), I s → (∀ c ∈ cs, quiet c) → weight s ≤ cs.length →
      weight (run step s cs) = 0
  | [], s, _, _, hw => Nat.le_zero.1 hw
  | c :: cs, s, hs, hq, hw => by
    have hc := hq c List.mem_cons_self
    obtain ⟨gain, popped, hm⟩ := h s c hs hc
    refine run_empties I weight quiet hstep h cs (step s c) (hstep s c hs hc)
      (fun d hd => hq d (List.mem_cons_of_mem _ hd)) ?_
    have hle := hm.le
    rw [List.length_cons] at hw
    by_cases hz : weight s = 0
    · omega
    · have hlt := hm.lt rfl (Nat.pos_of_ne_zero hz)
      omega

end Clocked
