-- Programs on a state that leave a trace of what they touch: when every access
-- of a program meets a condition, by the parts of the program.
import Mathlib.Data.List.Basic

namespace keychron_qmk.traced

/-- From a state: the result, the next state and the accesses. -/
def Traced (ι σ α : Type) : Type := σ → α × σ × List ι

section

variable {ι σ α β κ : Type}

namespace Traced

def val (m : Traced ι σ α) (s : σ) : α := (m s).1

def next (m : Traced ι σ α) (s : σ) : σ := (m s).2.1

def trace (m : Traced ι σ α) (s : σ) : List ι := (m s).2.2

end Traced

instance : Monad (Traced ι σ) where
  pure a s := (a, s, [])
  bind m f s := ((f (m.val s)).val (m.next s), (f (m.val s)).next (m.next s),
    m.trace s ++ (f (m.val s)).trace (m.next s))

def touch (i : ι) : Traced ι σ Unit := fun s => ((), s, [i])

def view (f : σ → α) : Traced ι σ α := fun s => (f s, s, [])

def change (f : σ → σ) : Traced ι σ Unit := fun s => ((), f s, [])

/-- A loop. -/
def each (f : κ → Traced ι σ Unit) : List κ → Traced ι σ Unit
  | [] => pure ()
  | x :: xs => do
    f x
    each f xs

/-- Every access meets the condition. -/
def Safe (P : ι → Prop) (m : Traced ι σ α) (s : σ) : Prop := ∀ i ∈ m.trace s, P i

/-! ## Results and states -/

section

variable (m : Traced ι σ α) (f : α → Traced ι σ β) (g : κ → Traced ι σ Unit) (s : σ)

@[simp] theorem val_pure (a : α) : (pure a : Traced ι σ α).val s = a := rfl

@[simp] theorem next_pure (a : α) : (pure a : Traced ι σ α).next s = s := rfl

@[simp] theorem val_bind : (m >>= f).val s = (f (m.val s)).val (m.next s) := rfl

@[simp] theorem next_bind : (m >>= f).next s = (f (m.val s)).next (m.next s) := rfl

@[simp] theorem next_touch (i : ι) : (touch i : Traced ι σ Unit).next s = s := rfl

@[simp] theorem val_view (v : σ → α) : (view v : Traced ι σ α).val s = v s := rfl

@[simp] theorem next_view (v : σ → α) : (view v : Traced ι σ α).next s = s := rfl

@[simp] theorem next_change (c : σ → σ) : (change c : Traced ι σ Unit).next s = c s := rfl

@[simp] theorem next_each (xs : List κ) :
    (each g xs).next s = xs.foldl (fun s x => (g x).next s) s := by
  induction xs generalizing s with
  | nil => rfl
  | cons x xs ih => exact ih _

end

/-! ## Safety -/

section

variable {P : ι → Prop} {m : Traced ι σ α} {f : α → Traced ι σ β} {g : κ → Traced ι σ Unit} {s : σ}

@[simp] theorem safe_pure (a : α) : Safe P (pure a : Traced ι σ α) s := by
  intro i hi
  exact absurd hi (List.not_mem_nil)

@[simp] theorem safe_bind : Safe P (m >>= f) s ↔ Safe P m s ∧ Safe P (f (m.val s)) (m.next s) :=
  List.forall_mem_append

@[simp] theorem safe_touch {i : ι} : Safe P (touch i : Traced ι σ Unit) s ↔ P i :=
  List.forall_mem_singleton

@[simp] theorem safe_view (v : σ → α) : Safe P (view v : Traced ι σ α) s := by
  intro i hi
  exact absurd hi (List.not_mem_nil)

@[simp] theorem safe_change (c : σ → σ) : Safe P (change c : Traced ι σ Unit) s := by
  intro i hi
  exact absurd hi (List.not_mem_nil)

theorem safe_ite_iff {m' : Traced ι σ α} {c Q : Prop} [Decidable c] (h : c → (Safe P m s ↔ Q))
    (h' : ¬ c → (Safe P m' s ↔ Q)) : Safe P (if c then m else m') s ↔ Q := by
  split
  · rename_i hc
    exact h hc
  · rename_i hc
    exact h' hc

/-- A loop whose turns keep an invariant, under which each turn is safe
exactly when its element meets a condition. -/
theorem safe_each {I : σ → Prop} {C : κ → Prop} {xs : List κ}
    (hsafe : ∀ x ∈ xs, ∀ s, I s → (Safe P (g x) s ↔ C x))
    (hkeep : ∀ x ∈ xs, ∀ s, I s → I ((g x).next s)) (h0 : I s) :
    Safe P (each g xs) s ↔ ∀ x ∈ xs, C x := by
  induction xs generalizing s with
  | nil => simp [each]
  | cons x xs ih =>
    rw [each, safe_bind, hsafe x List.mem_cons_self s h0, List.forall_mem_cons]
    apply and_congr_right
    intro _
    apply ih
    · exact fun y hy => hsafe y (List.mem_cons_of_mem x hy)
    · exact fun y hy => hkeep y (List.mem_cons_of_mem x hy)
    · exact hkeep x List.mem_cons_self s h0

end

/-! ## Frames -/

/-- What a program leaves as it was, from a state to another. -/
structure Frame (σ : Type) where
  keeps : σ → σ → Prop
  refl : ∀ s, keeps s s
  trans : ∀ {s t u}, keeps s t → keeps t u → keeps s u

/-- A program whose accesses meet the condition and that keeps the frame. -/
def Confined (P : ι → Prop) (F : Frame σ) (m : Traced ι σ α) (s : σ) : Prop :=
  Safe P m s ∧ F.keeps s (m.next s)

section

variable {P : ι → Prop} {F : Frame σ} {m m' : Traced ι σ α} {f : α → Traced ι σ β}
  {g : κ → Traced ι σ Unit} {s : σ}

theorem confined_pure (a : α) : Confined P F (pure a : Traced ι σ α) s :=
  ⟨safe_pure a, F.refl s⟩

theorem confined_view (v : σ → α) : Confined P F (view v : Traced ι σ α) s :=
  ⟨safe_view v, F.refl s⟩

theorem confined_change {c : σ → σ} (h : F.keeps s (c s)) :
    Confined P F (change c : Traced ι σ Unit) s :=
  ⟨safe_change c, h⟩

theorem confined_bind (h : Confined P F m s) (h' : ∀ a s, Confined P F (f a) s) :
    Confined P F (m >>= f) s := by
  obtain ⟨hsafe, hkeep⟩ := h
  obtain ⟨hsafe', hkeep'⟩ := h' (m.val s) (m.next s)
  exact ⟨safe_bind.mpr ⟨hsafe, hsafe'⟩, F.trans hkeep hkeep'⟩

theorem confined_ite {c : Prop} [Decidable c] (h : c → Confined P F m s)
    (h' : ¬ c → Confined P F m' s) : Confined P F (if c then m else m') s := by
  split
  · rename_i hc
    exact h hc
  · rename_i hc
    exact h' hc

theorem confined_each {xs : List κ} (h : ∀ x ∈ xs, ∀ s, Confined P F (g x) s) :
    Confined P F (each g xs) s := by
  induction xs generalizing s with
  | nil => exact confined_pure ()
  | cons x xs ih =>
    apply confined_bind (h x List.mem_cons_self s)
    intro _ s
    exact ih fun y hy => h y (List.mem_cons_of_mem x hy)

end

/-! ## Programs that change nothing -/

/-- A program that only looks. -/
def Reads (m : Traced ι σ α) : Prop := ∀ s, m.next s = s

/-- A program that changes nothing when it fails. -/
def Atomic (m : Traced ι σ Bool) : Prop := ∀ s, m.val s = false → m.next s = s

section

variable {m : Traced ι σ α} {f : α → Traced ι σ β} {n n' : Traced ι σ Bool}

theorem reads_pure (a : α) : Reads (pure a : Traced ι σ α) := fun _ => rfl

theorem reads_bind (h : Reads m) (h' : ∀ a, Reads (f a)) : Reads (m >>= f) := by
  intro s
  rw [next_bind, h' _ _, h s]

variable {g : κ → Traced ι σ Bool}

theorem anyM_of_reads (h : ∀ x, Reads (g x)) (xs : List κ) (s : σ) :
    (xs.anyM g).next s = s ∧ (xs.anyM g).val s = xs.any fun x => (g x).val s := by
  induction xs with
  | nil => exact ⟨rfl, rfl⟩
  | cons x xs ih =>
    rw [List.anyM, next_bind, val_bind, h x s, List.any_cons]
    cases (g x).val s with
    | true => exact ⟨rfl, rfl⟩
    | false => exact ih

theorem safe_anyM {P : ι → Prop} {xs : List κ} (h : ∀ x ∈ xs, ∀ s, Safe P (g x) s) (s : σ) :
    Safe P (xs.anyM g) s := by
  induction xs generalizing s with
  | nil => exact safe_pure false
  | cons x xs ih =>
    rw [List.anyM, safe_bind]
    refine ⟨h x List.mem_cons_self s, ?_⟩
    cases (g x).val s with
    | true => exact safe_pure true
    | false => exact ih (fun y hy => h y (List.mem_cons_of_mem x hy)) _

theorem atomic_false : Atomic (pure false : Traced ι σ Bool) := fun _ _ => rfl

theorem atomic_of_true (h : ∀ s, n.val s = true) : Atomic n := by
  intro s hs
  rw [h s] at hs
  exact absurd hs (by decide)

theorem atomic_bind {f : α → Traced ι σ Bool} (h : Reads m) (h' : ∀ a, Atomic (f a)) :
    Atomic (m >>= f) := by
  intro s hs
  rw [val_bind, h s] at hs
  rw [next_bind, h s]
  exact h' _ s hs

theorem atomic_ite {c : Prop} [Decidable c] (h : Atomic n) (h' : Atomic n') :
    Atomic (if c then n else n') := by
  split
  · exact h
  · exact h'

end

end

end keychron_qmk.traced
