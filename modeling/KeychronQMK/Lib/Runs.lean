-- Runs of a step function over a list of inputs: a condition that every
-- step of a run meets, and the invariants that such a run keeps.
import Mathlib.Order.Basic
import Mathlib.Data.List.Chain

namespace keychron_qmk.runs

variable {σ ι : Type*} {step : σ → ι → σ}

/-- Every step of the run of `xs` from `s` meets `P`, a property of the
state before the step and of its input. -/
def Along (step : σ → ι → σ) (P : σ → ι → Prop) : σ → List ι → Prop
  | _, [] => True
  | s, x :: xs => P s x ∧ Along step P (step s x) xs

instance Along.decidable (P : σ → ι → Prop) [∀ s x, Decidable (P s x)] :
    ∀ s xs, Decidable (Along step P s xs)
  | _, [] => .isTrue trivial
  | s, x :: xs =>
    have := Along.decidable P (step s x) xs
    inferInstanceAs (Decidable (P s x ∧ Along step P (step s x) xs))

variable {P : σ → ι → Prop}

theorem Along.append {s : σ} {xs ys : List ι} :
    Along step P s (xs ++ ys) ↔ Along step P s xs ∧ Along step P (xs.foldl step s) ys := by
  induction xs generalizing s with
  | nil => simp [Along]
  | cons x xs ih => simp [Along, ih, and_assoc]

theorem Along.of_forall (h : ∀ s x, P s x) (s : σ) (xs : List ι) : Along step P s xs := by
  induction xs generalizing s with
  | nil => trivial
  | cons x xs ih => exact ⟨h s x, ih _⟩

theorem Along.of_mem {P : ι → Prop} {xs : List ι} (h : ∀ x ∈ xs, P x) (s : σ) :
    Along step (fun _ x => P x) s xs := by
  induction xs generalizing s with
  | nil => trivial
  | cons x xs ih =>
    obtain ⟨hx, hxs⟩ := List.forall_mem_cons.mp h
    exact ⟨hx, ih hxs _⟩

theorem Along.and {Q : σ → ι → Prop} {s : σ} {xs : List ι} :
    Along step (fun s x => P s x ∧ Q s x) s xs ↔ Along step P s xs ∧ Along step Q s xs := by
  induction xs generalizing s with
  | nil => simp [Along]
  | cons x xs ih => simp [Along, ih, and_assoc, and_left_comm]

variable {C P : σ → ι → Prop} {s : σ}

/-- An invariant that each step under the condition keeps holds at the
end of every run under the condition. -/
theorem Along.invariant {I : σ → Prop} (hstep : ∀ s x, I s → C s x → I (step s x)) {xs : List ι}
    (h0 : I s) (h : Along step C s xs) : I (xs.foldl step s) := by
  induction xs generalizing s with
  | nil => exact h0
  | cons x xs ih => exact ih (hstep s x h0 h.1) h.2

/-- A relation that every kept step takes from both sides, and every other step
from the left one alone, relates a run under the condition to what the kept
steps give. -/
theorem Along.erase {R : σ → σ → Prop} (kept : ι → Bool)
    (hkept : ∀ s r x, R s r → C s x → kept x = true → R (step s x) (step r x))
    (herased : ∀ s r x, R s r → C s x → kept x = false → R (step s x) r) {r : σ} {xs : List ι}
    (h0 : R s r) (h : Along step C s xs) : R (xs.foldl step s) ((xs.filter kept).foldl step r) := by
  induction xs generalizing s r with
  | nil => exact h0
  | cons x xs ih =>
    cases hx : kept x with
    | true =>
      rw [List.filter_cons_of_pos hx]
      exact ih (hkept s r x h0 h.1 hx) h.2
    | false =>
      rw [List.filter_cons_of_neg (by simp [hx])]
      exact ih (herased s r x h0 h.1 hx) h.2

/-- Under an invariant, a condition on every step gives a property of
every step. -/
theorem Along.imp {I : σ → Prop} (hstep : ∀ s x, I s → C s x → P s x ∧ I (step s x)) {xs : List ι}
    (h0 : I s) (h : Along step C s xs) : Along step P s xs := by
  induction xs generalizing s with
  | nil => trivial
  | cons x xs ih =>
    obtain ⟨hp, hi⟩ := hstep s x h0 h.1
    exact ⟨hp, ih hi h.2⟩

/-- When, under the invariant, the condition says exactly when a step has
the property, and such a step keeps the invariant, then all steps of a
run have the property exactly when all of them meet the condition. -/
theorem Along.iff {I : σ → Prop} (hstep : ∀ s x, I s → (C s x ↔ P s x))
    (hkeep : ∀ s x, I s → P s x → I (step s x)) {xs : List ι} (h0 : I s) :
    Along step P s xs ↔ Along step C s xs := by
  constructor
  · exact Along.imp (fun s x hi hp => ⟨(hstep s x hi).mpr hp, hkeep s x hi hp⟩) h0
  · refine Along.imp (fun s x hi hc => ?_) h0
    have hp := (hstep s x hi).mp hc
    exact ⟨hp, hkeep s x hi hp⟩

theorem Along.iff_of_along {I : σ → Prop} {H : σ → ι → Prop}
    (hstep : ∀ s x, I s → H s x → (C s x ↔ P s x))
    (hkeep : ∀ s x, I s → H s x → P s x → I (step s x)) {xs : List ι} (h0 : I s)
    (h : Along step H s xs) : Along step P s xs ↔ Along step C s xs := by
  constructor
  · intro hp
    refine Along.imp (C := fun s x => H s x ∧ P s x) (fun s x hi hx => ?_) h0
      (Along.and.mpr ⟨h, hp⟩)
    exact ⟨(hstep s x hi hx.1).mpr hx.2, hkeep s x hi hx.1 hx.2⟩
  · intro hc
    refine Along.imp (C := fun s x => H s x ∧ C s x) (fun s x hi hx => ?_) h0
      (Along.and.mpr ⟨h, hc⟩)
    have hp := (hstep s x hi hx.1).mp hx.2
    exact ⟨hp, hkeep s x hi hx.1 hp⟩

/-! ## Overwriting -/

section Overwriting

variable {β : Type*} (proj : σ → β) {v : β} (hits : ι → Prop) {xs : List ι}

theorem foldl_miss (hmiss : ∀ s, ∀ x ∈ xs, proj (step s x) = proj s) (s : σ) :
    proj (xs.foldl step s) = proj s := by
  induction xs generalizing s with
  | nil => rfl
  | cons x xs ih =>
    rw [List.foldl_cons, ih fun s y hy => hmiss s y (List.mem_cons_of_mem x hy)]
    exact hmiss s x List.mem_cons_self

theorem foldl_hit (hhit : ∀ s, ∀ x ∈ xs, hits x → proj (step s x) = v)
    (hmiss : ∀ s, ∀ x ∈ xs, ¬ hits x → proj (step s x) = proj s) (h : ∃ x ∈ xs, hits x) (s : σ) :
    proj (xs.foldl step s) = v := by
  induction xs generalizing s with
  | nil => simp at h
  | cons x xs ih =>
    have hhit' := fun s y hy => hhit s y (List.mem_cons_of_mem x hy)
    have hmiss' := fun s y hy => hmiss s y (List.mem_cons_of_mem x hy)
    rw [List.foldl_cons]
    by_cases htail : ∃ y ∈ xs, hits y
    · exact ih hhit' hmiss' htail _
    · have hnone : ∀ y ∈ xs, ¬ hits y := fun y hy hy' => htail ⟨y, hy, hy'⟩
      rw [foldl_miss proj fun s y hy => hmiss' s y hy (hnone y hy)]
      obtain ⟨y, hy, hy'⟩ := h
      rcases List.mem_cons.mp hy with rfl | hy
      · exact hhit s y List.mem_cons_self hy'
      · exact absurd hy' (hnone y hy)

end Overwriting

/-! ## Edges -/

section Edges

variable {on : σ → Bool} {v : Bool}

/-- The changes of `on` in the run of `xs` from `s`, in their order. -/
def edges (step : σ → ι → σ) (on : σ → Bool) : σ → List ι → List Bool
  | _, [] => []
  | s, x :: xs =>
    let rest := edges step on (step s x) xs
    if on (step s x) = on s then rest else on (step s x) :: rest

variable {s : σ} {xs : List ι}

theorem edges_append {ys : List ι} : edges step on s (xs ++ ys) =
    edges step on s xs ++ edges step on (xs.foldl step s) ys := by
  induction xs generalizing s with
  | nil => rfl
  | cons x xs ih =>
    simp only [List.cons_append, edges, List.foldl_cons, ih]
    split <;> rfl

variable {C : σ → ι → Prop}

theorem edges_of_latched {I : σ → Prop}
    (hstep : ∀ s x, I s → C s x → I (step s x) ∧ (on s = v → on (step s x) = v)) (h0 : I s)
    (h : Along step C s xs) (hv : on s = v) :
    edges step on s xs = [] ∧ on (xs.foldl step s) = v := by
  induction xs generalizing s with
  | nil => exact ⟨rfl, hv⟩
  | cons x xs ih =>
    obtain ⟨hi, hlatch⟩ := hstep s x h0 h.1
    have hnext := hlatch hv
    rw [edges, if_pos (hnext.trans hv.symm)]
    exact ih hi h.2 hnext

/-- A run in which `on` never leaves `v`, from the other value to `v`, has
one edge. -/
theorem edges_to_latch {I : σ → Prop}
    (hstep : ∀ s x, I s → C s x → I (step s x) ∧ (on s = v → on (step s x) = v)) (h0 : I s)
    (h : Along step C s xs) (hne : on s ≠ v) (hv : on (xs.foldl step s) = v) :
    edges step on s xs = [v] := by
  induction xs generalizing s with
  | nil => exact absurd hv hne
  | cons x xs ih =>
    obtain ⟨hi, -⟩ := hstep s x h0 h.1
    by_cases hx : on (step s x) = v
    · rw [edges, if_neg fun he => hne (he.symm.trans hx), hx,
        (edges_of_latched hstep hi h.2 hx).1]
    · have hsame : on (step s x) = on s := by
        cases v <;> simp_all
      rw [edges, if_pos hsame]
      exact ih hi h.2 hx hv

/-- Where a state shows the last input, a chain of inputs is a run that
follows the relation. -/
theorem Along.of_chain (obs : σ → ι) {r : ι → ι → Prop} (hobs : ∀ s x, obs (step s x) = x)
    (h : List.IsChain r (obs s :: xs)) : Along step (fun s x => r (obs s) x) s xs := by
  induction xs generalizing s with
  | nil => trivial
  | cons x xs ih =>
    rw [List.isChain_cons_cons] at h
    refine ⟨h.1, ih ?_⟩
    rw [hobs]
    exact h.2

end Edges

/-! ## Loops that may stop -/

section MayStop

variable {β γ : Type*} {f : β → γ → Option β} {I : β → Prop} {xs : List γ} {r : β}

theorem foldlM_some {g : β → γ → β}
    (h : ∀ r, I r → ∀ x ∈ xs, f r x = some (g r x) ∧ I (g r x)) (h0 : I r) :
    xs.foldlM f r = some (xs.foldl g r) ∧ I (xs.foldl g r) := by
  induction xs generalizing r with
  | nil => exact ⟨rfl, h0⟩
  | cons x xs ih =>
    obtain ⟨hturn, hnext⟩ := h r h0 x List.mem_cons_self
    rw [List.foldlM_cons, hturn]
    exact ih (fun r hr y hy => h r hr y (List.mem_cons_of_mem x hy)) hnext

theorem foldlM_keeps (h : ∀ r, I r → ∀ x ∈ xs, ∃ r', f r x = some r' ∧ I r') (h0 : I r) :
    ∃ r', xs.foldlM f r = some r' ∧ I r' := by
  induction xs generalizing r with
  | nil => exact ⟨r, rfl, h0⟩
  | cons x xs ih =>
    obtain ⟨r', hturn, hnext⟩ := h r h0 x List.mem_cons_self
    rw [List.foldlM_cons, hturn]
    exact ih (fun r hr y hy => h r hr y (List.mem_cons_of_mem x hy)) hnext

theorem foldlM_none (h : ∀ r, I r → ∀ x ∈ xs, ∀ r', f r x = some r' → I r') {x : γ} (hx : x ∈ xs)
    (hstop : ∀ r, I r → f r x = none) (h0 : I r) : xs.foldlM f r = none := by
  induction xs generalizing r with
  | nil => simp at hx
  | cons y ys ih =>
    rw [List.foldlM_cons]
    cases hturn : f r y with
    | none => rfl
    | some r' =>
      rcases List.mem_cons.mp hx with rfl | hmem
      · rw [hstop r h0] at hturn
        cases hturn
      · exact ih (fun r hr z hz => h r hr z (List.mem_cons_of_mem y hz)) hmem
          (h r h0 y List.mem_cons_self r' hturn)

/-- When a state of its own tells which turns stop, a loop goes to its end exactly when
every turn meets the condition on that state. -/
theorem foldlM_isSome_iff {R : β → σ → Prop} {step : σ → γ → σ} {C : σ → γ → Prop}
    (hgo : ∀ r s x, R r s → C s x → ∃ r', f r x = some r' ∧ R r' (step s x))
    (hstop : ∀ r s x, R r s → ¬ C s x → f r x = none) {s : σ} (h0 : R r s) :
    (xs.foldlM f r).isSome ↔ Along step C s xs := by
  induction xs generalizing r s with
  | nil => simp [Along]
  | cons x xs ih =>
    rw [List.foldlM_cons, Along]
    by_cases hx : C s x
    · obtain ⟨r', hr', hrel⟩ := hgo r s x h0 hx
      rw [hr', and_iff_right hx]
      exact ih hrel
    · rw [hstop r s x h0 hx, iff_false_left (by simp)]
      exact fun h => hx h.1

end MayStop

end keychron_qmk.runs
