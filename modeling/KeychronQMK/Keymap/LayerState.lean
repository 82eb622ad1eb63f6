-- The layer state of `quantum/action_layer.c`: which layers are on, as the
-- bits of a word.
import KeychronQMK.Lib.BitSlice
import Mathlib.Tactic.Common

namespace keychron_qmk.action_layer

open bitslice

/-- `layer_state_t` of 32 bits, one for each layer. -/
abbrev layer_state_t := BitVec 32

def layer_mask (layer : Nat) : layer_state_t := mask layer

def layer_on (state : layer_state_t) (layer : Nat) : layer_state_t := state ||| layer_mask layer

def layer_off (state : layer_state_t) (layer : Nat) : layer_state_t := state &&& ~~~layer_mask layer

def layer_invert (state : layer_state_t) (layer : Nat) : layer_state_t :=
  state ^^^ layer_mask layer

/-- A layer that can be on. -/
abbrev Layer := Fin 32

/-- The bit of the layer is set. -/
def IsOn (state : layer_state_t) (layer : Layer) : Prop := state.getLsbD layer = true

instance (state : layer_state_t) (layer : Layer) : Decidable (IsOn state layer) :=
  inferInstanceAs (Decidable (_ = _))

section

variable (state : layer_state_t) (layer : Nat) (l : Layer)

@[simp] theorem not_isOn_zero : ¬ IsOn 0 l := by
  simp [IsOn]

theorem eq_zero_iff : state = 0 ↔ ∀ l, ¬ IsOn state l := by
  constructor
  · rintro rfl l
    exact not_isOn_zero l
  · intro h
    apply BitVec.eq_of_getLsbD_eq
    intro i hi
    have hoff := h ⟨i, hi⟩
    unfold IsOn at hoff
    rw [Bool.not_eq_true] at hoff
    rw [hoff]
    exact (BitVec.getLsbD_zero).symm

@[simp] theorem isOn_and (other : layer_state_t) :
    IsOn (state &&& other) l ↔ IsOn state l ∧ IsOn other l := by
  unfold IsOn
  rw [BitVec.getLsbD_and, Bool.and_eq_true]

@[simp] theorem isOn_not : IsOn (~~~state) l ↔ ¬ IsOn state l := by
  have hl := l.isLt
  unfold IsOn
  simp [hl]

theorem getLsbD_layer_mask : (layer_mask layer).getLsbD l = decide ((l : Nat) = layer) := by
  have hl := l.isLt
  unfold layer_mask
  rw [getLsbD_mask]
  exact decide_eq_decide.mpr ⟨fun h => h.1, fun h => ⟨h, h ▸ hl⟩⟩

@[simp] theorem isOn_layer_mask : IsOn (layer_mask layer) l ↔ (l : Nat) = layer := by
  unfold IsOn
  rw [getLsbD_layer_mask, decide_eq_true_iff]

@[simp] theorem isOn_layer_on :
    IsOn (layer_on state layer) l ↔ (l : Nat) = layer ∨ IsOn state l := by
  unfold IsOn layer_on
  rw [BitVec.getLsbD_or, getLsbD_layer_mask]
  simp [or_comm]

@[simp] theorem isOn_layer_off :
    IsOn (layer_off state layer) l ↔ (l : Nat) ≠ layer ∧ IsOn state l := by
  unfold IsOn layer_off
  rw [BitVec.getLsbD_and, BitVec.getLsbD_not, getLsbD_layer_mask]
  simp [and_comm]

@[simp] theorem isOn_layer_invert : IsOn (layer_invert state layer) l ↔
    if (l : Nat) = layer then ¬ IsOn state l else IsOn state l := by
  unfold IsOn layer_invert
  rw [BitVec.getLsbD_xor, getLsbD_layer_mask]
  split
  · rename_i h
    simp [h]
  · rename_i h
    simp [h]

end

end keychron_qmk.action_layer
