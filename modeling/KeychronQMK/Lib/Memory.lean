-- A memory is a function of the address. A block of cells can be read from
-- it and written into it, and two memories can agree below a bound.
import Mathlib.Data.List.GetD
import Mathlib.Data.List.Range

namespace keychron_qmk.memory

variable {α : Type*}

/-! ## Blocks -/

/-- The `n` cells from address `a` on. -/
def readBlock (m : Nat → α) (a n : Nat) : List α := (List.range n).map fun i => m (a + i)

/-- The memory with the cells `l` written from address `a` on. -/
def patch (m : Nat → α) (a : Nat) (l : List α) : Nat → α :=
  fun i => if a ≤ i then (l[i - a]?).getD (m i) else m i

@[simp] theorem readBlock_length (m : Nat → α) (a n : Nat) : (readBlock m a n).length = n := by
  simp [readBlock]

@[simp] theorem readBlock_zero (m : Nat → α) (a : Nat) : readBlock m a 0 = [] := rfl

theorem readBlock_getElem? (m : Nat → α) (a n i : Nat) (h : i < n) :
    (readBlock m a n)[i]? = some (m (a + i)) := by
  simp [readBlock, h]

theorem readBlock_add (m : Nat → α) (a n k : Nat) :
    readBlock m a (n + k) = readBlock m a n ++ readBlock m (a + n) k := by
  simp [readBlock, List.range_add, Nat.add_assoc, Function.comp_def]

variable {a n i b : Nat} {m m' : Nat → α}

theorem readBlock_congr (h : ∀ i, a ≤ i → i < a + n → m i = m' i) :
    readBlock m a n = readBlock m' a n := by
  apply List.map_congr_left
  intro i hi
  exact h _ (by omega) (by have := List.mem_range.mp hi; omega)

theorem readBlock_eq_iff {l : List α} :
    readBlock m a l.length = l ↔ ∀ i (h : i < l.length), m (a + i) = l[i] := by
  constructor
  · intro h i hi
    have hr := readBlock_getElem? m a l.length i hi
    rw [h, List.getElem?_eq_getElem hi] at hr
    exact (Option.some.inj hr).symm
  · intro h
    apply List.ext_getElem (by simp)
    intro i h1 h2
    simp [readBlock, h i h2]

/-! ## Patches -/

@[simp] theorem patch_nil (m : Nat → α) (a : Nat) : patch m a [] = m := by
  funext i; simp [patch]

theorem patch_lt (m : Nat → α) (l : List α) (h : i < a) : patch m a l i = m i := by
  simp [patch, Nat.not_le.mpr h]

theorem patch_ge (m : Nat → α) (l : List α) (h : a + l.length ≤ i) : patch m a l i = m i := by
  unfold patch
  rw [List.getElem?_eq_none (by omega)]
  simp

theorem patch_in (m : Nat → α) (l : List α) (h1 : a ≤ i) (h2 : i - a < l.length) :
    patch m a l i = l[i - a] := by
  simp [patch, h1, h2]

theorem patch_congr (a : Nat) (l : List α) (h : m i = m' i) : patch m a l i = patch m' a l i := by
  simp [patch, h]

theorem patch_append (m : Nat → α) (a : Nat) (l k : List α) :
    patch m a (l ++ k) = patch (patch m a l) (a + l.length) k := by
  funext i
  rcases Nat.lt_or_ge i (a + l.length) with h | h
  · rw [patch_lt _ k h]
    rcases Nat.lt_or_ge i a with h1 | h1
    · rw [patch_lt _ _ h1, patch_lt _ _ h1]
    · rw [patch_in _ _ h1 (by simp; omega), patch_in _ _ h1 (by omega),
        List.getElem_append_left]
  · rcases Nat.lt_or_ge i (a + l.length + k.length) with h1 | h1
    · rw [patch_in _ _ (by omega) (by simp; omega), patch_in _ k h (by omega),
        List.getElem_append_right (by omega)]
      congr 1
      omega
    · rw [patch_ge _ _ (by simp; omega), patch_ge _ k h1, patch_ge _ _ h]

theorem readBlock_patch_self (m : Nat → α) (a : Nat) (l : List α) :
    readBlock (patch m a l) a l.length = l := by
  rw [readBlock_eq_iff]
  intro i hi
  rw [patch_in _ _ (by omega) (by omega)]
  congr 1
  omega

theorem readBlock_patch_below (m : Nat → α) (l : List α) (h : b + n ≤ a) :
    readBlock (patch m a l) b n = readBlock m b n :=
  readBlock_congr fun i _ hi => patch_lt _ _ (by omega)

theorem readBlock_patch_above (m : Nat → α) (l : List α) (h : a + l.length ≤ b) :
    readBlock (patch m a l) b n = readBlock m b n :=
  readBlock_congr fun i hi _ => patch_ge _ _ (by omega)

theorem patch_readBlock (m : Nat → α) (a n : Nat) : patch m a (readBlock m a n) = m := by
  funext i
  unfold patch
  split
  · rcases Nat.lt_or_ge (i - a) n with h | h
    · rw [readBlock_getElem? _ _ _ _ h, Option.getD_some]
      congr 1
      omega
    · rw [List.getElem?_eq_none (by simpa using h), Option.getD_none]
  · rfl

/-! ## Sequences of patches -/

def lastWritten (ws : List (Nat × List α)) (i : Nat) : Option α :=
  ws.reverse.findSome? fun w => if w.1 ≤ i then w.2[i - w.1]? else none

variable {ws : List (Nat × List α)}

theorem exists_of_lastWritten {x : α} (h : lastWritten ws i = some x) :
    ∃ w ∈ ws, w.1 ≤ i ∧ w.2[i - w.1]? = some x := by
  obtain ⟨w, hw, hx⟩ := List.exists_of_findSome?_eq_some h
  split at hx
  · rename_i hle
    exact ⟨w, List.mem_reverse.mp hw, hle, hx⟩
  · cases hx

theorem lastWritten_eq_none :
    lastWritten ws i = none ↔ ∀ w ∈ ws, i < w.1 ∨ w.1 + w.2.length ≤ i := by
  unfold lastWritten
  rw [List.findSome?_eq_none_iff]
  simp only [List.mem_reverse]
  refine forall₂_congr fun w _ => ?_
  split
  · rw [List.getElem?_eq_none_iff]
    omega
  · simp only [true_iff]
    omega

theorem patches_apply (m : Nat → α) (ws : List (Nat × List α)) (i : Nat) :
    ws.foldl (fun m w => patch m w.1 w.2) m i = (lastWritten ws i).getD (m i) := by
  induction ws using List.reverseRecOn with
  | nil => rfl
  | append_singleton ws w ih =>
    rw [List.foldl_append, List.foldl_cons, List.foldl_nil]
    unfold lastWritten at ih ⊢
    rw [List.reverse_append, List.reverse_singleton, List.singleton_append, List.findSome?_cons]
    unfold patch
    split
    · cases w.2[i - w.1]? with
      | none => exact ih
      | some x => rfl
    · exact ih

/-! ## Pages -/

/-- The memory after a device with pages of `p` cells has been given `l` from
address `a` on: past the end of a page it goes on at the start of it. -/
def pageWrite (p : Nat) (m : Nat → α) (a : Nat) : List α → Nat → α
  | [] => m
  | x :: l => pageWrite p (patch m a [x]) (a / p * p + (a + 1) % p) l

theorem pageWrite_eq_patch {p : Nat} (m : Nat → α) {l : List α} (h : a % p + l.length ≤ p) :
    pageWrite p m a l = patch m a l := by
  induction l generalizing m a with
  | nil => simp [pageWrite]
  | cons x l ih =>
    rw [List.length_cons] at h
    unfold pageWrite
    cases l with
    | nil => rfl
    | cons y l =>
      rw [List.length_cons] at h
      have hmod : (a + 1) % p = a % p + 1 := by
        rw [Nat.add_mod, Nat.mod_eq_of_lt (a := 1) (by omega), Nat.mod_eq_of_lt (by omega)]
      have hnext : a / p * p + (a + 1) % p = a + 1 := by
        have := Nat.div_add_mod' a p
        omega
      rw [hnext, ih (patch m a [x]) (by rw [hmod, List.length_cons]; omega)]
      exact (patch_append m a [x] (y :: l)).symm

/-! ## Agreement below a bound -/

/-- The two memories hold the same below address `n`. -/
def EqBelow (n : Nat) (m m' : Nat → α) : Prop := ∀ i < n, m i = m' i

theorem EqBelow.refl (n : Nat) (m : Nat → α) : EqBelow n m m := fun _ _ => rfl

theorem EqBelow.symm (h : EqBelow n m m') : EqBelow n m' m :=
  fun i hi => (h i hi).symm

theorem EqBelow.trans {m'' : Nat → α} (h : EqBelow n m m') (h' : EqBelow n m' m'') :
    EqBelow n m m'' := fun i hi => (h i hi).trans (h' i hi)

theorem EqBelow.patch (h : EqBelow n m m') (a : Nat) (l : List α) :
    EqBelow n (patch m a l) (patch m' a l) := fun i hi => patch_congr a l (h i hi)

theorem EqBelow.readBlock (h : EqBelow n m m') {k : Nat} (hk : a + k ≤ n) :
    readBlock m a k = readBlock m' a k :=
  readBlock_congr fun i _ hi => h i (by omega)

end keychron_qmk.memory
