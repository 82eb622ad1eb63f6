-- Ring buffers: an array with the index of the next slot and that of the
-- oldest one, of which one slot stays free. A ring is a queue of its contents.
import Mathlib.Data.List.OfFn
import Mathlib.Logic.Function.Basic

namespace keychron_qmk.ring

/-- A ring with `N` slots. `head` is the slot for the next element, `tail`
that of the oldest one. -/
structure Ring (α : Type*) (N : Nat) where
  slots : Fin N → α
  head : Fin N
  tail : Fin N

/-- The slot after a slot. -/
def next {N : Nat} (i : Fin N) : Fin N := ⟨(i + 1) % N, Nat.mod_lt _ i.pos⟩

namespace Ring

variable {α : Type*} {N : Nat} (r : Ring α N)

def slot (k : Nat) : Fin N := ⟨(r.tail + k) % N, Nat.mod_lt _ r.tail.pos⟩

def length : Nat := (r.head + (N - r.tail)) % N

/-- The contents, the oldest first. -/
def toList : List α := (List.range r.length).map fun k => r.slots (r.slot k)

/-- The slots of the contents, the oldest first. -/
def window : List (Fin N) := (List.range r.length).map r.slot

def isEmpty : Prop := r.head = r.tail

def isFull : Prop := next r.head = r.tail

instance : Decidable r.isEmpty := inferInstanceAs (Decidable (_ = _))

instance : Decidable r.isFull := inferInstanceAs (Decidable (_ = _))

def push (x : α) : Ring α N :=
  { r with slots := Function.update r.slots r.head x, head := next r.head }

def oldest : α := r.slots r.tail

def drop : Ring α N := { r with tail := next r.tail }

def pushOver (x : α) : Ring α N := (if r.isFull then r.drop else r).push x

/-! ## Lengths -/

theorem length_lt : r.length < N := Nat.mod_lt _ r.tail.pos

theorem length_toList : r.toList.length = r.length := by simp [toList]

theorem next_val {N : Nat} (i : Fin N) : (next i).val = if i.val + 1 = N then 0 else i.val + 1 := by
  unfold next
  split
  · rename_i h
    simp only [h, Nat.mod_self]
  · exact Nat.mod_eq_of_lt (by omega)

theorem length_eq : r.length = if r.tail ≤ r.head then r.head.val - r.tail.val
    else r.head.val + N - r.tail.val := by
  unfold length
  split
  · rename_i h
    have heq : r.head.val + (N - r.tail.val) = r.head.val - r.tail.val + N := by omega
    rw [heq, Nat.add_mod_right]
    exact Nat.mod_eq_of_lt (by omega)
  · rename_i h
    rw [Nat.mod_eq_of_lt (by omega)]
    omega

theorem slot_val (k : Nat) (hk : k < N) :
    (r.slot k : Nat) = if r.tail + k < N then r.tail + k else r.tail + k - N := by
  unfold slot
  split
  · rename_i h
    exact Nat.mod_eq_of_lt h
  · rename_i h
    simp only
    rw [Nat.mod_eq_sub_mod (by omega)]
    exact Nat.mod_eq_of_lt (by omega)

theorem slot_length : r.slot r.length = r.head := by
  apply Fin.ext
  rw [slot_val r _ r.length_lt, length_eq]
  by_cases h : r.tail ≤ r.head
  · have hle : r.tail.val ≤ r.head.val := h
    rw [if_pos h, if_pos (by omega)]
    omega
  · have hlt : r.head.val < r.tail.val := not_le.mp h
    rw [if_neg h, if_neg (by omega)]
    omega

theorem slot_inj {i j : Nat} (hi : i < N) (hj : j < N) (h : r.slot i = r.slot j) : i = j := by
  have hval := congrArg Fin.val h
  rw [slot_val r i hi, slot_val r j hj] at hval
  split_ifs at hval
  all_goals omega

theorem isEmpty_iff : r.isEmpty ↔ r.length = 0 := by
  unfold isEmpty
  rw [length_eq, Fin.ext_iff]
  split
  · rename_i h
    omega
  · rename_i h
    omega

theorem isFull_iff : r.isFull ↔ r.length + 1 = N := by
  unfold isFull
  rw [length_eq, Fin.ext_iff, next_val]
  by_cases h : r.tail ≤ r.head
  · have hle : r.tail.val ≤ r.head.val := h
    split
    · omega
    · omega
  · have hlt : r.head.val < r.tail.val := not_le.mp h
    split
    · omega
    · omega

theorem toList_eq_nil_iff : r.toList = [] ↔ r.isEmpty := by
  rw [isEmpty_iff, ← length_toList, List.length_eq_zero_iff]

/-! ## Contents -/

theorem length_push (h : ¬ r.isFull) (x : α) : (r.push x).length = r.length + 1 := by
  have hlen := r.length_eq
  rw [isFull_iff] at h
  rw [length_eq]
  have hnext : (r.push x).head.val = if r.head.val + 1 = N then 0 else r.head.val + 1 := next_val _
  have htail : (r.push x).tail = r.tail := rfl
  simp only [Fin.le_def, hnext] at hlen ⊢
  split_ifs at hlen ⊢
  all_goals omega

theorem toList_push (h : ¬ r.isFull) (x : α) : (r.push x).toList = r.toList ++ [x] := by
  have hfull : r.length + 1 < N := by
    rw [isFull_iff] at h
    have hlt := r.length_lt
    omega
  have hslot : ∀ k, (r.push x).slot k = r.slot k := fun _ => rfl
  unfold toList
  rw [length_push r h, List.range_succ, List.map_append, List.map_singleton]
  congr 1
  · apply List.map_congr_left
    intro k hk
    have hk := List.mem_range.mp hk
    have hne : r.slot k ≠ r.head := fun heq =>
      absurd (r.slot_inj (by omega) r.length_lt (heq.trans r.slot_length.symm)) (by omega)
    exact Function.update_of_ne hne _ _
  · rw [hslot, slot_length]
    exact congrArg (fun y => [y]) (Function.update_self _ _ _)

theorem length_drop (h : ¬ r.isEmpty) : r.length = r.drop.length + 1 := by
  have hlen := r.length_eq
  rw [isEmpty_iff] at h
  have hnext : r.drop.tail.val = if r.tail.val + 1 = N then 0 else r.tail.val + 1 := next_val _
  have hhead : r.drop.head = r.head := rfl
  rw [length_eq r.drop, hhead]
  simp only [Fin.le_def, hnext] at hlen ⊢
  split_ifs at hlen ⊢
  all_goals omega

theorem slot_drop (k : Nat) : r.drop.slot k = r.slot (k + 1) := by
  apply Fin.ext
  simp only [slot, drop, next]
  rw [Nat.add_mod, Nat.mod_mod, ← Nat.add_mod]
  congr 1
  omega

theorem toList_drop (h : ¬ r.isEmpty) : r.toList = r.oldest :: r.drop.toList := by
  have hzero : r.slot 0 = r.tail := Fin.ext (Nat.mod_eq_of_lt r.tail.isLt)
  unfold toList
  rw [length_drop r h, List.range_succ_eq_map, List.map_cons, List.map_map, hzero]
  refine congrArg _ (List.map_congr_left fun k _ => ?_)
  exact congrArg r.slots (r.slot_drop k).symm

/-! ## The slots of the contents -/

theorem toList_eq_map : r.toList = r.window.map r.slots := by
  unfold toList window
  rw [List.map_map]
  rfl

theorem window_eq_nil_iff : r.window = [] ↔ r.isEmpty := by
  rw [← toList_eq_nil_iff, toList_eq_map, List.map_eq_nil_iff]

theorem window_drop (h : ¬ r.isEmpty) : r.window = r.tail :: r.drop.window := by
  have hzero : r.slot 0 = r.tail := Fin.ext (Nat.mod_eq_of_lt r.tail.isLt)
  unfold window
  rw [length_drop r h, List.range_succ_eq_map, List.map_cons, List.map_map, hzero]
  refine congrArg _ (List.map_congr_left fun k _ => ?_)
  exact (r.slot_drop k).symm

theorem isEmpty_push (h : r.isFull) (x : α) : (r.push x).isEmpty := h

theorem toList_pushOver (x : α) (hN : 2 ≤ N) : (r.pushOver x).toList =
    (if r.toList.length + 1 = N then r.toList.tail else r.toList) ++ [x] := by
  unfold pushOver
  rw [length_toList]
  by_cases h : r.isFull
  · have hlen := r.isFull_iff.mp h
    have hne : ¬ r.isEmpty := fun he => by
      rw [isEmpty_iff] at he
      omega
    have hdrop := r.length_drop hne
    rw [if_pos h, if_pos hlen, toList_push _ fun hf => by rw [isFull_iff] at hf; omega,
      toList_drop r hne, List.tail_cons]
  · rw [if_neg h, if_neg fun hl => h (r.isFull_iff.mpr hl), toList_push r h]

end Ring

end keychron_qmk.ring
