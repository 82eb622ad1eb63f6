-- The keys that a keymap has, what `process_action` registers for one, and the
-- modifiers and the keys of the reports.
import KeychronQMK.Process.RepeatKey
import Mathlib.Data.Finset.Insert
import Mathlib.Data.Finset.Erase

namespace keychron_qmk.keyboard

open repeats (KC_NO between IS_QK_BASIC IS_QK_MODS IS_QK_MOD_TAP IS_QK_LAYER_TAP)

/-! ## Keycodes -/

def IS_QK_LAYER_MOD : UInt16 → Bool := between 0x5000 0x51FF

def IS_QK_ONE_SHOT_MOD : UInt16 → Bool := between 0x52A0 0x52BF

def IS_BASIC_KEYCODE (code : UInt8) : Bool := 0x04 ≤ code ∧ code ≤ 0xA4

def IS_MODIFIER_KEYCODE (code : UInt8) : Bool := 0xE0 ≤ code ∧ code ≤ 0xE7

/-- The system, consumer and mouse keycodes, which have reports of their
own. -/
def IS_EXTRA_KEYCODE (code : UInt8) : Bool := 0xA5 ≤ code ∧ code ≤ 0xC2 ∨ 0xCD ≤ code ∧ code ≤ 0xDF

def IS_REPORTED (code : UInt8) : Bool := IS_BASIC_KEYCODE code || IS_EXTRA_KEYCODE code

/-- The modifiers of five bits in a keycode, of which one says that they are
on the right. -/
def mods_of (mods : UInt8) : UInt8 :=
  if mods &&& 0x10 ≠ 0 then (mods &&& 0xF) <<< 4 else mods &&& 0xF

def mod_bit (code : UInt8) : UInt8 := if IS_MODIFIER_KEYCODE code then 1 <<< (code &&& 7) else 0

/-! ## Keys and what their actions register -/

/-- A key that is pressed, with the keycode and the taps of its record. One-shot
modifiers and toggles of modifiers are not among the keys: they are not
registered by being held. -/
structure Key where
  position : Nat
  keycode : UInt16
  tap_count : UInt8
  plain : ¬ (IS_QK_MOD_TAP keycode ∧ keycode &&& 0xFF ≤ 0x01) ∧ ¬ IS_QK_ONE_SHOT_MOD keycode
  deriving DecidableEq

structure Action where
  weak_mods : UInt8
  mods : UInt8
  code : UInt8

namespace Key

variable (k : Key)

/-- What `process_action` does with the keyboard for a key, after
`action_for_keycode`: a key of another kind registers nothing. -/
def action : Action :=
  let code := k.keycode.toUInt8
  let mods := mods_of (k.keycode >>> 8).toUInt8
  if IS_QK_BASIC k.keycode then ⟨0, 0, code⟩
  else if IS_QK_MODS k.keycode then
    if IS_MODIFIER_KEYCODE code || code = 0 then ⟨0, mods, code⟩ else ⟨mods, 0, code⟩
  else if IS_QK_MOD_TAP k.keycode then
    if 0 < k.tap_count then ⟨0, 0, code⟩ else ⟨0, mods, 0⟩
  else if IS_QK_LAYER_TAP k.keycode then
    if 0 < k.tap_count then ⟨0, 0, code⟩ else ⟨0, 0, 0⟩
  else if IS_QK_LAYER_MOD k.keycode then ⟨0, mods_of k.keycode.toUInt8, 0⟩
  else ⟨0, 0, 0⟩

/-- The modifiers that a key registers while it is held. -/
def mods : UInt8 := k.action.mods ||| mod_bit k.action.code

def Registers (code : UInt8) : Prop := IS_REPORTED code ∧ k.action.code = code

instance (code : UInt8) : Decidable (k.Registers code) := by
  unfold Registers
  infer_instance

end Key

/-! ## The keyboard -/

/-- The modifiers, and the codes that are in the reports as keys. -/
structure Keyboard where
  real_mods : UInt8
  weak_mods : UInt8
  registered : Finset UInt8

namespace Keyboard

variable (s : Keyboard)

def boot : Keyboard := ⟨0, 0, ∅⟩

def add_mods (mods : UInt8) : Keyboard := { s with real_mods := s.real_mods ||| mods }

def del_mods (mods : UInt8) : Keyboard := { s with real_mods := s.real_mods &&& ~~~mods }

def add_weak_mods (mods : UInt8) : Keyboard := { s with weak_mods := s.weak_mods ||| mods }

def del_weak_mods (mods : UInt8) : Keyboard := { s with weak_mods := s.weak_mods &&& ~~~mods }

def add_key (code : UInt8) : Keyboard := { s with registered := insert code s.registered }

def del_key (code : UInt8) : Keyboard := { s with registered := s.registered.erase code }

def register_code (code : UInt8) : Keyboard :=
  if IS_BASIC_KEYCODE code then s.add_key code
  else if IS_MODIFIER_KEYCODE code then s.add_mods (1 <<< (code &&& 7))
  else if IS_EXTRA_KEYCODE code then s.add_key code
  else s

def unregister_code (code : UInt8) : Keyboard :=
  if IS_BASIC_KEYCODE code then s.del_key code
  else if IS_MODIFIER_KEYCODE code then s.del_mods (1 <<< (code &&& 7))
  else if IS_EXTRA_KEYCODE code then s.del_key code
  else s

/-- A press clears the weak modifiers that other keys left. -/
def process_action (k : Key) (pressed : Bool) : Keyboard :=
  let action := k.action
  if pressed then
    ({ s with weak_mods := action.weak_mods }.add_mods action.mods).register_code action.code
  else ((s.unregister_code action.code).del_mods action.mods).del_weak_mods action.weak_mods

/-! ## What an operation does -/

theorem isModifier_eq_false_of_isBasic {code : UInt8} (h : IS_BASIC_KEYCODE code) :
    IS_MODIFIER_KEYCODE code = false := by
  simp [IS_BASIC_KEYCODE, IS_MODIFIER_KEYCODE, UInt8.le_iff_toNat_le] at h ⊢
  omega

theorem mod_bit_of_isBasic {code : UInt8} (h : IS_BASIC_KEYCODE code) : mod_bit code = 0 := by
  simp [mod_bit, isModifier_eq_false_of_isBasic h]

theorem isReported_eq_false_of_isModifier {code : UInt8} (h : IS_MODIFIER_KEYCODE code) :
    IS_REPORTED code = false := by
  simp [IS_REPORTED, IS_BASIC_KEYCODE, IS_EXTRA_KEYCODE, IS_MODIFIER_KEYCODE,
    UInt8.le_iff_toNat_le] at h ⊢
  omega

variable {s} {k : Key}

theorem register_code_eq (code : UInt8) : s.register_code code =
    { s with
      real_mods := s.real_mods ||| mod_bit code
      registered := if IS_REPORTED code then insert code s.registered else s.registered } := by
  unfold register_code
  by_cases hbasic : IS_BASIC_KEYCODE code
  · simp [hbasic, IS_REPORTED, mod_bit_of_isBasic hbasic, add_key]
  · by_cases hmod : IS_MODIFIER_KEYCODE code
    · simp [hbasic, hmod, isReported_eq_false_of_isModifier hmod, mod_bit, add_mods]
    · by_cases hextra : IS_EXTRA_KEYCODE code <;>
        simp [hbasic, hmod, hextra, IS_REPORTED, mod_bit, add_key]

theorem unregister_code_eq (code : UInt8) : s.unregister_code code =
    { s with
      real_mods := s.real_mods &&& ~~~mod_bit code
      registered := if IS_REPORTED code then s.registered.erase code else s.registered } := by
  unfold unregister_code
  by_cases hbasic : IS_BASIC_KEYCODE code
  · simp [hbasic, IS_REPORTED, mod_bit_of_isBasic hbasic, del_key]
  · by_cases hmod : IS_MODIFIER_KEYCODE code
    · simp [hbasic, hmod, isReported_eq_false_of_isModifier hmod, mod_bit, del_mods]
    · by_cases hextra : IS_EXTRA_KEYCODE code <;>
        simp [hbasic, hmod, hextra, IS_REPORTED, mod_bit, del_key]

theorem process_action_press :
    s.process_action k true =
      { weak_mods := k.action.weak_mods
        real_mods := s.real_mods ||| k.mods
        registered := if IS_REPORTED k.action.code then insert k.action.code s.registered
          else s.registered } := by
  simp [process_action, register_code_eq, add_mods, Key.mods, UInt8.or_assoc]

theorem process_action_release :
    s.process_action k false =
      { weak_mods := s.weak_mods &&& ~~~k.action.weak_mods
        real_mods := s.real_mods &&& ~~~mod_bit k.action.code &&& ~~~k.action.mods
        registered := if IS_REPORTED k.action.code then s.registered.erase k.action.code
          else s.registered } := by
  simp [process_action, unregister_code_eq, del_mods, del_weak_mods]

end Keyboard

/-! ## What is shown -/

/-- What a report can show: the code of a key, or a modifier. -/
inductive Output
  | key (code : UInt8)
  | mod (index : Nat)

def ModsShow (mods : UInt8) : Output → Prop
  | .key _ => False
  | .mod index => mods.toBitVec.getLsbD index

def CodeShows (code : UInt8) : Output → Prop
  | .key other => IS_REPORTED code ∧ other = code
  | .mod index => (mod_bit code).toBitVec.getLsbD index

def Key.Shows (k : Key) (out : Output) : Prop :=
  ModsShow k.action.mods out ∨ CodeShows k.action.code out

namespace Keyboard

def Shows (s : Keyboard) : Output → Prop
  | .key code => code ∈ s.registered
  | .mod index => s.real_mods.toBitVec.getLsbD index

variable {s : Keyboard} {k : Key} {out : Output}

theorem shows_add_mods {mods : UInt8} :
    (s.add_mods mods).Shows out ↔ s.Shows out ∨ ModsShow mods out := by
  cases out <;> simp [add_mods, Shows, ModsShow]

theorem shows_del_mods {mods : UInt8} :
    (s.del_mods mods).Shows out ↔ s.Shows out ∧ ¬ ModsShow mods out := by
  cases out with
  | key other => simp [del_mods, Shows, ModsShow]
  | mod index =>
    by_cases h : index < 8
    · simp [del_mods, Shows, ModsShow, h]
    · simp [del_mods, Shows, BitVec.getLsbD_of_ge _ _ (Nat.not_lt.mp h)]

theorem shows_register_code {code : UInt8} :
    (s.register_code code).Shows out ↔ s.Shows out ∨ CodeShows code out := by
  rw [register_code_eq]
  cases out with
  | key other => by_cases h : IS_REPORTED code <;> simp [Shows, CodeShows, h, or_comm]
  | mod index => simp [Shows, CodeShows]

theorem shows_unregister_code {code : UInt8} :
    (s.unregister_code code).Shows out ↔ s.Shows out ∧ ¬ CodeShows code out := by
  rw [unregister_code_eq]
  cases out with
  | key other => by_cases h : IS_REPORTED code <;> simp [Shows, CodeShows, h, and_comm]
  | mod index =>
    by_cases h : index < 8
    · simp [Shows, CodeShows, h]
    · simp [Shows, BitVec.getLsbD_of_ge _ _ (Nat.not_lt.mp h)]

theorem shows_press : (s.process_action k true).Shows out ↔ s.Shows out ∨ k.Shows out := by
  have hweak : Shows { s with weak_mods := k.action.weak_mods } out ↔ s.Shows out := by
    cases out <;> rfl
  simp only [process_action, ↓reduceIte, shows_register_code, shows_add_mods, hweak, or_assoc,
    Key.Shows]

theorem shows_release :
    (s.process_action k false).Shows out ↔ s.Shows out ∧ ¬ k.Shows out := by
  have hweak : ∀ keys : Keyboard,
      (keys.del_weak_mods k.action.weak_mods).Shows out ↔ keys.Shows out := by
    intro keys
    cases out <;> rfl
  simp only [process_action, Bool.false_eq_true, ↓reduceIte, hweak, shows_del_mods,
    shows_unregister_code, Key.Shows]
  tauto

end Keyboard

end keychron_qmk.keyboard
