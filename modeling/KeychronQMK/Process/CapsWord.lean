-- Caps Word with `CAPS_WORD_INVERT_ON_SHIFT`, after `process_caps_word.c` and
-- `caps_word.c`: shifts are swallowed while it is on and handed back when a key
-- ends it, and the last report can keep one.
import KeychronQMK.Process.ShiftsReturned

namespace keychron_qmk.caps_word

open runs
open repeats (between IS_QK_MOD_TAP IS_QK_LAYER_TAP)
open keyboard
open auto_shift (Shift KC_LSFT KC_RSFT)

/-! ## Keycodes -/

def OSM_LSFT : UInt16 := 0x52A2

def OSM_RSFT : UInt16 := 0x52B2

def OSM_RALT : UInt16 := 0x52B4

def KC_RALT : UInt16 := 0x00E6

def QK_CAPS_WORD_TOGGLE : UInt16 := 0x7C73

def MOD_LSFT : UInt8 := 0x02

def MOD_RSFT : UInt8 := 0x12

def MOD_RALT : UInt8 := 0x14

def MOD_MASK_SHIFT : UInt8 := 0x22

def QK_MOD_TAP_GET_MODS (keycode : UInt16) : UInt8 := (keycode >>> 8).toUInt8 &&& 0x1F

def shift_of (keycode : UInt16) (tap_count : UInt8) : Option Shift :=
  if keycode = OSM_LSFT then some .lshift
  else if keycode = OSM_RSFT then some .rshift
  else if IS_QK_MOD_TAP keycode then
    if tap_count = 0 then
      if QK_MOD_TAP_GET_MODS keycode = MOD_LSFT then some .lshift
      else if QK_MOD_TAP_GET_MODS keycode = MOD_RSFT then some .rshift
      else none
    else none
  else if keycode = KC_LSFT then some .lshift
  else if keycode = KC_RSFT then some .rshift
  else none

/-- The layer switch keys, from `QK_TO` to `QK_MOMENTARY_MAX`, from `QK_TOGGLE_LAYER` to
`QK_ONE_SHOT_LAYER_MAX` and `QK_LAYER_TAP_TOGGLE`, and AltGr. -/
def ignored (keycode : UInt16) : Bool :=
  between 0x5200 0x523F keycode || between 0x5260 0x529F keycode ||
    between 0x52C0 0x52DF keycode || keycode = KC_RALT || keycode = OSM_RALT

/-- What the switch over the keycode makes of a press: the key is passed on, it ends Caps
Word, or a keycode is judged. -/
inductive judged where
  | pass
  | stop
  | word (keycode : UInt16)
  deriving DecidableEq

/-- Tri Layer, Layer Lock and swap hands are off. -/
def judge (keycode : UInt16) (tap_count : UInt8) : judged :=
  if ignored keycode then .pass
  else if IS_QK_MOD_TAP keycode then
    if tap_count = 0 then
      if QK_MOD_TAP_GET_MODS keycode = MOD_RSFT ||| MOD_RALT then .word 0x12E6
      else if QK_MOD_TAP_GET_MODS keycode = MOD_RALT then .pass
      else .stop
    else .word (keycode &&& 0xFF)
  else if IS_QK_LAYER_TAP keycode then
    if tap_count = 0 then .pass else .word (keycode &&& 0xFF)
  else .word keycode

/-! ## The keyboard and Caps Word -/

/-- The keyboard with the modifiers of the last report. The shifts whose keys are
down are history. -/
structure CapsWord extends Keyboard where
  report_mods : UInt8
  caps_word_active : Bool
  held_mods : UInt8
  down : Shift → Bool

namespace CapsWord

def boot : CapsWord := ⟨.boot, 0, false, 0, fun _ => false⟩

variable (s : CapsWord)

def send_keyboard_report : CapsWord := { s with report_mods := s.real_mods ||| s.weak_mods }

def add_mods (mods : UInt8) : CapsWord := { s with toKeyboard := s.toKeyboard.add_mods mods }

def del_mods (mods : UInt8) : CapsWord := { s with toKeyboard := s.toKeyboard.del_mods mods }

def clear_mods : CapsWord := { s with real_mods := 0 }

def set_weak_mods (mods : UInt8) : CapsWord := { s with weak_mods := mods }

def unregister_weak_mods (mods : UInt8) : CapsWord :=
  if mods ≠ 0 then
    send_keyboard_report { s with toKeyboard := s.toKeyboard.del_weak_mods mods }
  else s

def caps_word_on : CapsWord :=
  if s.caps_word_active then s else { s.clear_mods with caps_word_active := true }

def caps_word_off : CapsWord :=
  if !s.caps_word_active then s
  else { s.unregister_weak_mods MOD_MASK_SHIFT with caps_word_active := false }

def caps_word_toggle : CapsWord := if s.caps_word_active then s.caps_word_off else s.caps_word_on

/-- With the state, whether the key is processed further. -/
def handle_shift (keycode : UInt16) (tap_count : UInt8) (pressed : Bool) : CapsWord × Bool :=
  match shift_of keycode tap_count with
  | none => (s, true)
  | some side =>
    if s.caps_word_active then
      if pressed then ({ s with held_mods := s.held_mods ||| side.bit }, false)
      else ({ s with held_mods := s.held_mods &&& ~~~side.bit }, false)
    else if side.isIn s.held_mods then
      (del_mods { s with held_mods := s.held_mods &&& ~~~side.bit } side.bit, pressed)
    else (s, true)

def caps_word_press_user (keycode : UInt16) : CapsWord × Bool :=
  if between 0x04 0x1D keycode || keycode = 0x2D then
    ({ s with toKeyboard := s.toKeyboard.add_weak_mods Shift.lshift.bit }, true)
  else if between 0x1E 0x27 keycode || keycode = 0x2A || keycode = 0x4C || keycode = 0x022D then
    (s, true)
  else (s, false)

def end_word : CapsWord := s.caps_word_off.add_mods s.caps_word_off.held_mods

def press_in_word (keycode : UInt16) (tap_count : UInt8) : CapsWord :=
  if s.real_mods &&& ~~~(MOD_MASK_SHIFT ||| 0x40) ≠ 0 then s.end_word
  else
    match judge keycode tap_count with
    | .pass => s
    | .stop => s.end_word
    | .word keycode =>
      match (s.set_weak_mods 0).caps_word_press_user keycode with
      | (s, true) =>
        send_keyboard_report (if s.held_mods ≠ 0 then
          s.set_weak_mods (s.weak_mods ^^^ Shift.lshift.bit) else s)
      | (s, false) => s.end_word

def process_caps_word (keycode : UInt16) (tap_count : UInt8) (pressed : Bool) : CapsWord × Bool :=
  if keycode = QK_CAPS_WORD_TOGGLE then (if pressed then s.caps_word_toggle else s, false)
  else
    match s.handle_shift keycode tap_count pressed with
    | (s, false) => (s, false)
    | (s, true) =>
      if s.caps_word_active && pressed then (s.press_in_word keycode tap_count, true)
      else (s, true)

def reports (k : Key) : Bool :=
  k.action.mods ≠ 0 || k.action.weak_mods ≠ 0 || IS_BASIC_KEYCODE k.action.code ||
    IS_MODIFIER_KEYCODE k.action.code

def process_action (k : Key) (pressed : Bool) : CapsWord :=
  let action := k.action
  let keys :=
    if pressed then
      ((s.toKeyboard.add_weak_mods action.weak_mods).add_mods action.mods).register_code action.code
    else
      ((s.toKeyboard.unregister_code action.code).del_mods action.mods).del_weak_mods
        action.weak_mods
  let s := { s with toKeyboard := keys }
  if reports k then s.send_keyboard_report else s

def process_record (k : Key) (pressed : Bool) : CapsWord :=
  match s.process_caps_word k.keycode k.tap_count pressed with
  | (s, false) => s
  | (s, true) => s.process_action k pressed

end CapsWord

/-! ## Runs -/

/-- The press of a key reaches `action_exec`, a record is processed (later, for a press
that waits for its tapping to be settled), or the idle timer has run out. -/
inductive input where
  | press_event
  | record (k : Key) (pressed : Bool)
  | timeout

def step (s : CapsWord) : input → CapsWord
  | .press_event => s.set_weak_mods 0
  | .record k pressed =>
    { s.process_record k pressed with
      down := match shift_of k.keycode k.tap_count with
        | none => s.down
        | some side => Function.update s.down side pressed }
  | .timeout => s.caps_word_off

/-- A letter or another key that registers a code and no modifier. -/
structure Plain (k : Key) : Prop where
  no_shift : shift_of k.keycode k.tap_count = none
  no_toggle : k.keycode ≠ QK_CAPS_WORD_TOGGLE
  mods : k.action.mods = 0
  weak_mods : k.action.weak_mods = 0
  reported : IS_REPORTED k.action.code

instance (k : Key) : Decidable (Plain k) :=
  decidable_of_iff (shift_of k.keycode k.tap_count = none ∧ k.keycode ≠ QK_CAPS_WORD_TOGGLE ∧
    k.action.mods = 0 ∧ k.action.weak_mods = 0 ∧ IS_REPORTED k.action.code)
    ⟨fun ⟨a, b, c, d, e⟩ => ⟨a, b, c, d, e⟩, fun ⟨a, b, c, d, e⟩ => ⟨a, b, c, d, e⟩⟩

def WellFormed (s : CapsWord) : input → Prop
  | .record k pressed => k.keycode = QK_CAPS_WORD_TOGGLE ∨ Plain k ∨
    ∃ side, shift_of k.keycode k.tap_count = some side ∧ s.down side = !pressed
  | _ => True

instance (s : CapsWord) : ∀ x, Decidable (WellFormed s x)
  | .record k pressed => inferInstanceAs (Decidable (k.keycode = QK_CAPS_WORD_TOGGLE ∨ Plain k ∨
    ∃ side, shift_of k.keycode k.tap_count = some side ∧ s.down side = !pressed))
  | .press_event | .timeout => .isTrue trivial

def Clean (s : CapsWord) : Prop :=
  s.caps_word_active = false → (∀ side, s.down side = false) →
    s.held_mods = 0 ∧ ∀ side : Shift, side.isIn s.real_mods = false ∧
      side.isIn s.report_mods = false

/-- A shift that was handed back is released as the last one only when the last report
has no shift. -/
def Reported (s : CapsWord) : input → Prop
  | .record k false => ∀ side, shift_of k.keycode k.tap_count = some side →
    s.caps_word_active = false → side.isIn s.held_mods →
      (∀ other, other ≠ side → s.down other = false) →
        ∀ other : Shift, other.isIn s.report_mods = false
  | _ => True

instance (s : CapsWord) : ∀ x, Decidable (Reported s x)
  | .record k false => inferInstanceAs (Decidable (∀ side,
    shift_of k.keycode k.tap_count = some side → s.caps_word_active = false →
      side.isIn s.held_mods → (∀ other, other ≠ side → s.down other = false) →
        ∀ other : Shift, other.isIn s.report_mods = false))
  | .record _ true | .press_event | .timeout => .isTrue trivial

/-! ## What a key does to the modifiers -/

section Actions

variable {s : CapsWord} {k : Key} {pressed : Bool} {side : Shift}

namespace CapsWord

@[simp]
theorem caps_word_active_process_action :
    (s.process_action k pressed).caps_word_active = s.caps_word_active := by
  unfold process_action
  dsimp only
  split <;> rfl

@[simp]
theorem held_mods_process_action :
    (s.process_action k pressed).held_mods = s.held_mods := by
  unfold process_action
  dsimp only
  split <;> rfl

@[simp]
theorem down_process_action : (s.process_action k pressed).down = s.down := by
  unfold process_action
  dsimp only
  split <;> rfl

theorem real_mods_process_action : (s.process_action k pressed).real_mods =
    if pressed then s.real_mods ||| k.mods
    else s.real_mods &&& ~~~mod_bit k.action.code &&& ~~~k.action.mods := by
  unfold process_action
  dsimp only
  cases pressed with
  | false => split <;> simp [Keyboard.unregister_code_eq, Keyboard.del_mods,
      Keyboard.del_weak_mods, send_keyboard_report]
  | true => split <;> simp [Keyboard.register_code_eq, Keyboard.add_mods, Keyboard.add_weak_mods,
      send_keyboard_report, Key.mods, UInt8.or_assoc]

theorem weak_mods_process_action : (s.process_action k pressed).weak_mods =
    if pressed then s.weak_mods ||| k.action.weak_mods
    else s.weak_mods &&& ~~~k.action.weak_mods := by
  unfold process_action
  dsimp only
  cases pressed with
  | false => split <;> simp [Keyboard.unregister_code_eq, Keyboard.del_mods,
      Keyboard.del_weak_mods, send_keyboard_report]
  | true => split <;> simp [Keyboard.register_code_eq, Keyboard.add_mods, Keyboard.add_weak_mods,
      send_keyboard_report]

theorem report_mods_process_action : (s.process_action k pressed).report_mods =
    if reports k then
      (s.process_action k pressed).real_mods ||| (s.process_action k pressed).weak_mods
    else s.report_mods := by
  unfold process_action
  dsimp only
  split <;> rfl

end CapsWord

theorem mods_of_lshift {mods : UInt8} (h : mods &&& 0x1F = MOD_LSFT) :
    mods_of mods = Shift.lshift.bit := by
  obtain ⟨mods⟩ := mods
  revert mods
  decide

theorem mods_of_rshift {mods : UInt8} (h : mods &&& 0x1F = MOD_RSFT) :
    mods_of mods = Shift.rshift.bit := by
  obtain ⟨mods⟩ := mods
  revert mods
  decide

theorem action_of_mod_tap (h : IS_QK_MOD_TAP k.keycode) (htap : k.tap_count = 0) :
    k.action = ⟨0, mods_of (k.keycode >>> 8).toUInt8, 0⟩ := by
  have hbasic : repeats.IS_QK_BASIC k.keycode = false := by
    simp [IS_QK_MOD_TAP, repeats.IS_QK_BASIC, between, UInt16.le_iff_toNat_le] at h ⊢
    omega
  have hmods : repeats.IS_QK_MODS k.keycode = false := by
    simp [IS_QK_MOD_TAP, repeats.IS_QK_MODS, between, UInt16.le_iff_toNat_le] at h ⊢
    omega
  simp [Key.action, hbasic, hmods, h, htap]

structure Holds (k : Key) (side : Shift) : Prop where
  weak_mods : k.action.weak_mods = 0
  mods : k.action.mods ||| mod_bit k.action.code = side.bit
  reports : CapsWord.reports k

theorem holds_of_shift_of (h : shift_of k.keycode k.tap_count = some side) : Holds k side := by
  have hplain := k.plain.2
  have hkey : ∀ keycode : UInt16, k.keycode = keycode → repeats.IS_QK_BASIC keycode →
      k.action = ⟨0, 0, keycode.toUInt8⟩ := by
    rintro _ rfl hbasic
    simp [Key.action, hbasic]
  unfold shift_of at h
  split_ifs at h with hleft hright hmodtap htap hmods hmods hkeycode hkeycode
  · exact absurd (by rw [hleft]; decide) hplain
  · exact absurd (by rw [hright]; decide) hplain
  · obtain rfl := Option.some.inj h
    have haction := action_of_mod_tap hmodtap htap
    rw [mods_of_lshift hmods] at haction
    constructor <;> simp [CapsWord.reports, haction] <;> decide
  · obtain rfl := Option.some.inj h
    have haction := action_of_mod_tap hmodtap htap
    rw [mods_of_rshift hmods] at haction
    constructor <;> simp [CapsWord.reports, haction] <;> decide
  · obtain rfl := Option.some.inj h
    have haction := hkey _ hkeycode (by decide)
    constructor <;> simp [CapsWord.reports, haction] <;> decide
  · obtain rfl := Option.some.inj h
    have haction := hkey _ hkeycode (by decide)
    constructor <;> simp [CapsWord.reports, haction] <;> decide

end Actions

/-! ## What holds of every state -/

/-- While Caps Word is on the real mods have no shift, and those that are held are
down; once it is off, so is every shift of the real mods. -/
structure Inv (s : CapsWord) : Prop where
  held : ∀ side : Shift, side.isIn s.held_mods → s.down side
  only : s.held_mods &&& ~~~MOD_MASK_SHIFT = 0
  on : s.caps_word_active → ∀ side : Shift, side.isIn s.real_mods = false
  off : s.caps_word_active = false → ∀ side : Shift, side.isIn s.real_mods → s.down side
  weak : s.caps_word_active = false → ∀ side : Shift, side.isIn s.weak_mods = false

section Laws

variable {s : CapsWord} {k : Key} {pressed : Bool} {side : Shift}

theorem Inv.boot : Inv .boot where
  held side := by simp [CapsWord.boot]
  only := rfl
  on h := absurd h (by decide)
  off _ side := by simp [CapsWord.boot, Keyboard.boot]
  weak _ side := by simp [CapsWord.boot, Keyboard.boot]

variable {mods : UInt8}

theorem eq_zero_of_no_shift (honly : mods &&& ~~~MOD_MASK_SHIFT = 0)
    (hnone : ∀ side : Shift, side.isIn mods = false) : mods = 0 := by
  obtain ⟨mods⟩ := mods
  revert mods
  decide

theorem Inv.clean_iff (h : Inv s) : Clean s ↔ (s.caps_word_active = false →
    (∀ side, s.down side = false) → ∀ side : Shift, side.isIn s.report_mods = false) := by
  constructor
  · intro hclean hoff hup side
    exact ((hclean hoff hup).2 side).2
  · intro hreport hoff hup
    refine ⟨eq_zero_of_no_shift h.only fun side => ?_, fun side => ⟨?_, hreport hoff hup side⟩⟩
    · by_contra hheld
      exact absurd (h.held side (by simpa using hheld)) (by simp [hup side])
    · by_contra hreal
      exact absurd (h.off hoff side (by simpa using hreal)) (by simp [hup side])

def Unseen (s : CapsWord) : Prop :=
  s.caps_word_active = false → ∀ side : Shift, side.isIn s.report_mods = false

theorem isIn_shift_mask (side : Shift) : side.isIn MOD_MASK_SHIFT = true := by
  cases side <;> rfl

theorem CapsWord.caps_word_off_eq (h : s.caps_word_active) : s.caps_word_off =
    { s with
      weak_mods := s.weak_mods &&& ~~~MOD_MASK_SHIFT
      report_mods := s.real_mods ||| s.weak_mods &&& ~~~MOD_MASK_SHIFT
      caps_word_active := false } := by
  simp [caps_word_off, h, unregister_weak_mods, MOD_MASK_SHIFT, send_keyboard_report,
    Keyboard.del_weak_mods]

theorem Inv.caps_word_off (h : Inv s) (hon : s.caps_word_active) :
    Inv s.caps_word_off ∧ Unseen s.caps_word_off := by
  rw [CapsWord.caps_word_off_eq hon]
  refine ⟨⟨h.held, h.only, fun habsurd => by simp at habsurd, fun _ side hreal => ?_,
    fun _ side => ?_⟩, fun _ side => ?_⟩
  · simp [h.on hon side] at hreal
  · simp [isIn_shift_mask]
  · simp [isIn_shift_mask, h.on hon side]

theorem Inv.end_word (h : Inv s) (hon : s.caps_word_active) :
    Inv s.end_word ∧ Unseen s.end_word ∧ s.end_word.down = s.down := by
  obtain ⟨hinv, hunseen⟩ := h.caps_word_off hon
  have hdown : s.caps_word_off.down = s.down := by rw [CapsWord.caps_word_off_eq hon]
  have hoff : s.caps_word_off.caps_word_active = false := by
    rw [CapsWord.caps_word_off_eq hon]
  refine ⟨⟨hinv.held, hinv.only, fun habsurd => ?_, fun _ side hreal => ?_, hinv.weak⟩,
    hunseen, hdown⟩
  · exact absurd (hoff.symm.trans habsurd) (by decide)
  · simp only [CapsWord.end_word, CapsWord.add_mods, Keyboard.add_mods, Shift.isIn_or,
      Bool.or_eq_true] at hreal
    rcases hreal with hreal | hheld
    · exact hinv.off hoff side hreal
    · exact hinv.held side hheld

theorem Inv.show (h : Inv s) (hon : s.caps_word_active) (weak_mods report_mods : UInt8) :
    Inv { s with weak_mods, report_mods } :=
  ⟨h.held, h.only, h.on, h.off, fun hoff => absurd (hon.symm.trans hoff) (by decide)⟩

theorem Unseen.of_on (hon : s.caps_word_active) : Unseen s :=
  fun hoff => absurd (hon.symm.trans hoff) (by decide)

theorem CapsWord.caps_word_press_user_eq (keycode : UInt16) :
    ∃ weak_mods goes_on, s.caps_word_press_user keycode = ({ s with weak_mods }, goes_on) := by
  unfold caps_word_press_user
  split_ifs
  · exact ⟨_, true, rfl⟩
  · exact ⟨s.weak_mods, true, rfl⟩
  · exact ⟨s.weak_mods, false, rfl⟩

theorem Inv.press_in_word (h : Inv s) (hon : s.caps_word_active) (keycode : UInt16)
    (tap_count : UInt8) :
    Inv (s.press_in_word keycode tap_count) ∧ Unseen (s.press_in_word keycode tap_count) ∧
      (s.press_in_word keycode tap_count).down = s.down := by
  unfold CapsWord.press_in_word
  split_ifs
  · exact h.end_word hon
  · cases judge keycode tap_count with
    | pass => exact ⟨h, .of_on hon, rfl⟩
    | stop => exact h.end_word hon
    | word keycode =>
      obtain ⟨weak_mods, goes_on, heq⟩ :=
        CapsWord.caps_word_press_user_eq (s := s.set_weak_mods 0) keycode
      simp only [heq]
      cases goes_on with
      | false => exact Inv.end_word (h.show hon weak_mods s.report_mods) hon
      | true =>
        dsimp only
        split
        · exact ⟨h.show hon _ _, .of_on hon, rfl⟩
        · exact ⟨h.show hon _ _, .of_on hon, rfl⟩

/-! ## Steps -/

theorem Inv.clean_of_unseen (h : Inv s) (hunseen : Unseen s) : Clean s :=
  h.clean_iff.mpr fun hoff _ => hunseen hoff

theorem Plain.mod_bit_code (hk : Plain k) : mod_bit k.action.code = 0 := by
  have hmodifier : IS_MODIFIER_KEYCODE k.action.code = false := by
    by_contra hmodifier
    have hreported := hk.reported
    rw [Keyboard.isReported_eq_false_of_isModifier (by simpa using hmodifier)] at hreported
    exact absurd hreported (by decide)
  simp [mod_bit, hmodifier]

/-- The action of a plain key leaves the modifiers, and its report shows no shift that is
up. -/
theorem Inv.plain (h : Inv s) (hk : Plain k) :
    Inv (s.process_action k pressed) ∧ (Clean s → Clean (s.process_action k pressed)) := by
  have hreal : (s.process_action k pressed).real_mods = s.real_mods := by
    rw [CapsWord.real_mods_process_action]
    cases pressed <;> simp [Key.mods, hk.mods, hk.mod_bit_code]
  have hweak : (s.process_action k pressed).weak_mods = s.weak_mods := by
    rw [CapsWord.weak_mods_process_action]
    cases pressed <;> simp [hk.weak_mods]
  have hinv : Inv (s.process_action k pressed) := by
    refine ⟨?_, ?_, ?_, ?_, ?_⟩
    · simpa using h.held
    · simpa using h.only
    · simpa [hreal] using h.on
    · simpa [hreal] using h.off
    · simpa [hweak] using h.weak
  refine ⟨hinv, fun hclean => hinv.clean_iff.mpr fun hoff hup side => ?_⟩
  simp only [CapsWord.caps_word_active_process_action] at hoff
  simp only [CapsWord.down_process_action] at hup
  rw [CapsWord.report_mods_process_action, hreal, hweak]
  have hleft := (hclean hoff hup).2 side
  split
  · simp [hleft.1, h.weak hoff side]
  · exact hleft.2

theorem step_of_no_shift (hnone : shift_of k.keycode k.tap_count = none)
    (hdown : (s.process_record k pressed).down = s.down) :
    step s (.record k pressed) = s.process_record k pressed := by
  simp only [step, hnone, ← hdown]

theorem Inv.step_plain (h : Inv s) (hk : Plain k) (pressed : Bool) :
    Inv (step s (.record k pressed)) ∧ (Clean s → Clean (step s (.record k pressed))) := by
  have hprocess : s.process_record k pressed =
      CapsWord.process_action (if s.caps_word_active && pressed then
        s.press_in_word k.keycode k.tap_count else s) k pressed := by
    simp only [CapsWord.process_record, CapsWord.process_caps_word, hk.no_toggle, ↓reduceIte,
      CapsWord.handle_shift, hk.no_shift]
    split_ifs <;> rfl
  by_cases hword : s.caps_word_active && pressed
  · rw [if_pos hword] at hprocess
    obtain ⟨hinv, hunseen, hdown⟩ :=
      h.press_in_word (Bool.and_eq_true_iff.mp hword).1 k.keycode k.tap_count
    rw [step_of_no_shift hk.no_shift (by simp [hprocess, hdown]), hprocess]
    obtain ⟨hinv', hclean⟩ := hinv.plain hk
    exact ⟨hinv', fun _ => hclean (hinv.clean_of_unseen hunseen)⟩
  · rw [if_neg hword] at hprocess
    rw [step_of_no_shift hk.no_shift (by simp [hprocess]), hprocess]
    exact h.plain hk

theorem Inv.caps_word_on (h : Inv s) (hoff : s.caps_word_active = false) :
    Inv s.caps_word_on ∧ Unseen s.caps_word_on ∧ s.caps_word_on.down = s.down := by
  have heq : s.caps_word_on = { s with real_mods := 0, caps_word_active := true } := by
    simp [CapsWord.caps_word_on, hoff, CapsWord.clear_mods]
  rw [heq]
  refine ⟨⟨h.held, h.only, fun _ side => side.isIn_zero, fun habsurd => ?_, fun habsurd => ?_⟩,
    .of_on rfl, rfl⟩
  · simp at habsurd
  · simp at habsurd

theorem shift_of_toggle (tap_count : UInt8) : shift_of QK_CAPS_WORD_TOGGLE tap_count = none :=
  rfl

theorem Inv.step_toggle (h : Inv s) (hk : k.keycode = QK_CAPS_WORD_TOGGLE) (pressed : Bool) :
    Inv (step s (.record k pressed)) ∧ (Clean s → Clean (step s (.record k pressed))) := by
  have hnone : shift_of k.keycode k.tap_count = none := by rw [hk, shift_of_toggle]
  have hprocess : s.process_record k pressed = if pressed then s.caps_word_toggle else s := by
    simp [CapsWord.process_record, CapsWord.process_caps_word, hk]
  cases pressed with
  | false =>
    rw [step_of_no_shift hnone (by simp [hprocess]), hprocess]
    exact ⟨h, id⟩
  | true =>
    have htoggle : Inv s.caps_word_toggle ∧ Unseen s.caps_word_toggle ∧
        s.caps_word_toggle.down = s.down := by
      unfold CapsWord.caps_word_toggle
      split_ifs with hon
      · obtain ⟨hinv, hunseen⟩ := h.caps_word_off hon
        exact ⟨hinv, hunseen, by rw [CapsWord.caps_word_off_eq hon]⟩
      · exact h.caps_word_on (by simpa using hon)
    obtain ⟨hinv, hunseen, hdown⟩ := htoggle
    rw [step_of_no_shift hnone (by simp [hprocess, hdown]), hprocess]
    exact ⟨hinv, fun _ => hinv.clean_of_unseen hunseen⟩

theorem step_of_shift (hside : shift_of k.keycode k.tap_count = some side) :
    step s (.record k pressed) =
      { s.process_record k pressed with down := Function.update s.down side pressed } := by
  simp only [step, hside]

theorem ne_toggle_of_shift (hside : shift_of k.keycode k.tap_count = some side) :
    k.keycode ≠ QK_CAPS_WORD_TOGGLE := by
  intro htoggle
  rw [htoggle, shift_of_toggle] at hside
  cases hside

theorem and_not_mask_bit (mods : UInt8) (h : mods &&& ~~~MOD_MASK_SHIFT = 0) (side : Shift) :
    (mods ||| side.bit) &&& ~~~MOD_MASK_SHIFT = 0 ∧
      (mods &&& ~~~side.bit) &&& ~~~MOD_MASK_SHIFT = 0 := by
  obtain ⟨mods⟩ := mods
  revert mods
  cases side <;> decide

variable {down : Shift → Bool}

theorem down_of_press (h : ∀ other : Shift, other.isIn mods → down other) :
    ∀ other : Shift, other.isIn (mods ||| side.bit) → Function.update down side true other := by
  intro other hother
  by_cases hsame : other = side
  · simp [hsame]
  · simp only [Shift.isIn_or, Shift.isIn_bit, hsame, decide_false, Bool.or_false] at hother
    rw [Function.update_of_ne hsame]
    exact h other hother

theorem down_of_release (h : ∀ other : Shift, other.isIn mods → down other) :
    ∀ other : Shift, other.isIn (mods &&& ~~~side.bit) →
      Function.update down side false other := by
  intro other hother
  simp only [Shift.isIn_and_not, Shift.isIn_bit, Bool.and_eq_true, Bool.not_eq_true',
    decide_eq_false_iff_not] at hother
  rw [Function.update_of_ne hother.2]
  exact h other hother.1

theorem Inv.step_shift_on (h : Inv s) (hside : shift_of k.keycode k.tap_count = some side)
    (hon : s.caps_word_active) (pressed : Bool) :
    Inv (step s (.record k pressed)) ∧
      (step s (.record k pressed)).caps_word_active = true := by
  have hprocess : s.process_record k pressed =
      { s with
        held_mods := if pressed then s.held_mods ||| side.bit else s.held_mods &&& ~~~side.bit } := by
    cases pressed <;> simp [CapsWord.process_record, CapsWord.process_caps_word,
      ne_toggle_of_shift hside, CapsWord.handle_shift, hside, hon]
  rw [step_of_shift hside, hprocess]
  refine ⟨⟨?_, ?_, h.on, fun habsurd => ?_, fun habsurd => ?_⟩, hon⟩
  · cases pressed with
    | false => exact down_of_release h.held
    | true => exact down_of_press h.held
  · cases pressed with
    | false => exact (and_not_mask_bit _ h.only side).2
    | true => exact (and_not_mask_bit _ h.only side).1
  · exact absurd (hon.symm.trans habsurd) (by decide)
  · exact absurd (hon.symm.trans habsurd) (by decide)

/-- A shift that was handed back is taken from the real mods at its release, and no report
follows. -/
theorem Inv.step_shift_back (h : Inv s) (hside : shift_of k.keycode k.tap_count = some side)
    (hoff : s.caps_word_active = false) (hheld : side.isIn s.held_mods) :
    Inv (step s (.record k false)) ∧ (step s (.record k false)).report_mods = s.report_mods ∧
      (step s (.record k false)).caps_word_active = false := by
  have hprocess : s.process_record k false =
      { s with
        held_mods := s.held_mods &&& ~~~side.bit
        real_mods := s.real_mods &&& ~~~side.bit } := by
    simp [CapsWord.process_record, CapsWord.process_caps_word, ne_toggle_of_shift hside,
      CapsWord.handle_shift, hside, hoff, hheld, CapsWord.del_mods, Keyboard.del_mods]
  rw [step_of_shift hside, hprocess]
  refine ⟨⟨down_of_release h.held, (and_not_mask_bit _ h.only side).2, fun habsurd => ?_,
    fun _ => down_of_release (h.off hoff), h.weak⟩, rfl, hoff⟩
  exact absurd (hoff.symm.trans habsurd) (by decide)

/-- Otherwise the action of the shift key sends a report. -/
theorem Inv.step_shift_off (h : Inv s) (hside : shift_of k.keycode k.tap_count = some side)
    (hoff : s.caps_word_active = false) (hheld : side.isIn s.held_mods = false) (pressed : Bool) :
    Inv (step s (.record k pressed)) ∧ Clean (step s (.record k pressed)) := by
  have hholds := holds_of_shift_of hside
  have hprocess : s.process_record k pressed = s.process_action k pressed := by
    simp [CapsWord.process_record, CapsWord.process_caps_word, ne_toggle_of_shift hside,
      CapsWord.handle_shift, hside, hoff, hheld]
  have hweak : (s.process_action k pressed).weak_mods = s.weak_mods := by
    rw [CapsWord.weak_mods_process_action]
    cases pressed <;> simp [hholds.weak_mods]
  have hdown : ∀ other : Shift, other.isIn (s.process_action k pressed).real_mods →
      Function.update s.down side pressed other := by
    rw [CapsWord.real_mods_process_action]
    cases pressed with
    | false =>
      intro other hother
      apply down_of_release (h.off hoff) other
      simpa [← hholds.mods, and_assoc, and_comm, and_left_comm] using hother
    | true =>
      rw [if_pos rfl, Key.mods, hholds.mods]
      exact down_of_press (h.off hoff)
  have hkept : ∀ other : Shift, other.isIn s.held_mods →
      Function.update s.down side pressed other := by
    intro other hother
    have hne : other ≠ side := by
      rintro rfl
      exact absurd (hheld.symm.trans hother) (by decide)
    rw [Function.update_of_ne hne]
    exact h.held other hother
  have hinv : Inv (step s (.record k pressed)) := by
    rw [step_of_shift hside, hprocess]
    refine ⟨?_, ?_, fun habsurd => ?_, fun _ => hdown, ?_⟩
    · simpa using hkept
    · simpa using h.only
    · exact absurd (hoff.symm.trans (by simpa using habsurd)) (by decide)
    · simpa [hweak] using h.weak
  refine ⟨hinv, hinv.clean_iff.mpr ?_⟩
  rw [step_of_shift hside, hprocess]
  intro _ hup other
  rw [CapsWord.report_mods_process_action, if_pos hholds.reports, hweak, Shift.isIn_or,
    h.weak hoff, Bool.or_false]
  by_contra hreal
  have hdown' := hdown other (by simpa using hreal)
  exact absurd ((hup other).symm.trans hdown') (by decide)

theorem Inv.step_shift (h : Inv s) (hside : shift_of k.keycode k.tap_count = some side)
    (hdown : s.down side = !pressed) :
    Inv (step s (.record k pressed)) ∧ (Clean s →
      (Reported s (.record k pressed) ↔ Clean (step s (.record k pressed)))) := by
  cases hactive : s.caps_word_active with
  | true =>
    obtain ⟨hinv, hon⟩ := h.step_shift_on hside hactive pressed
    refine ⟨hinv, fun _ => iff_of_true ?_ (hinv.clean_of_unseen (.of_on hon))⟩
    cases pressed with
    | false => exact fun _ _ hoff => absurd (hactive.symm.trans hoff) (by decide)
    | true => trivial
  | false =>
    cases hheld : side.isIn s.held_mods with
    | false =>
      obtain ⟨hinv, hclean⟩ := h.step_shift_off hside hactive hheld pressed
      refine ⟨hinv, fun _ => iff_of_true ?_ hclean⟩
      cases pressed with
      | false =>
        intro other hother _ hback
        obtain rfl := Option.some.inj (hside.symm.trans hother)
        exact absurd (hheld.symm.trans hback) (by decide)
      | true => trivial
    | true =>
      cases pressed with
      | true => exact absurd ((h.held side hheld).symm.trans hdown) (by decide)
      | false =>
        obtain ⟨hinv, hreport, hoff⟩ := h.step_shift_back hside hactive hheld
        refine ⟨hinv, fun _ => ?_⟩
        rw [hinv.clean_iff, hreport, step_of_shift hside]
        constructor
        · intro hreported _ hup
          refine hreported side hside hactive hheld fun other hne => ?_
          simpa [hne] using hup other
        · intro hseen other hother _ _ hup
          obtain rfl := Option.some.inj (hside.symm.trans hother)
          refine hseen (by rwa [← step_of_shift hside]) fun other' => ?_
          by_cases hne : other' = side
          · simp [hne]
          · simpa [hne] using hup other' hne

/-- What a step keeps, and when it leaves no shift. -/
theorem Inv.step {x : input} (h : Inv s) (hx : WellFormed s x) :
    Inv (step s x) ∧ (Clean s → (Reported s x ↔ Clean (step s x))) := by
  cases x with
  | press_event =>
    have hinv : Inv (caps_word.step s .press_event) :=
      ⟨h.held, h.only, h.on, h.off, fun _ side => side.isIn_zero⟩
    refine ⟨hinv, fun hclean => iff_of_true trivial (hinv.clean_iff.mpr ?_)⟩
    exact h.clean_iff.mp hclean
  | timeout =>
    cases hactive : s.caps_word_active with
    | true =>
      obtain ⟨hinv, hunseen⟩ := h.caps_word_off hactive
      exact ⟨hinv, fun _ => iff_of_true trivial (hinv.clean_of_unseen hunseen)⟩
    | false =>
      have hsame : caps_word.step s .timeout = s := by
        simp [caps_word.step, CapsWord.caps_word_off, hactive]
      rw [hsame]
      exact ⟨h, fun hclean => iff_of_true trivial hclean⟩
  | record k pressed =>
    have hnone : ∀ {P : Prop}, shift_of k.keycode k.tap_count = none →
        (P → Clean (caps_word.step s (.record k pressed))) →
          P → (Reported s (.record k pressed) ↔ Clean (caps_word.step s (.record k pressed))) := by
      intro P hnone hclean hp
      refine iff_of_true ?_ (hclean hp)
      cases pressed with
      | false => exact fun side hside => absurd (hnone.symm.trans hside) (by simp)
      | true => trivial
    rcases hx with htoggle | hplain | ⟨side, hside, hdown⟩
    · obtain ⟨hinv, hclean⟩ := h.step_toggle htoggle pressed
      exact ⟨hinv, hnone (by rw [htoggle, shift_of_toggle]) hclean⟩
    · obtain ⟨hinv, hclean⟩ := h.step_plain hplain pressed
      exact ⟨hinv, hnone hplain.no_shift hclean⟩
    · exact h.step_shift hside hdown

theorem clean_boot : Clean .boot :=
  Inv.boot.clean_iff.mpr fun _ _ side => side.isIn_zero

/-- Caps Word leaves no shift in exactly the runs in which a shift that was handed back is
released only after a report without it. -/
theorem no_shift_is_left_exactly_when_reported {xs : List input}
    (h : Along step WellFormed .boot xs) :
    Along step (fun s x => Clean (step s x)) .boot xs ↔ Along step Reported .boot xs := by
  refine Along.iff_of_along (I := fun s => Inv s ∧ Clean s) ?_ ?_ ⟨Inv.boot, clean_boot⟩ h
  · exact fun s x ⟨hinv, hclean⟩ hx => (hinv.step hx).2 hclean
  · exact fun s x ⟨hinv, _⟩ hx hstep => ⟨(hinv.step hx).1, hstep⟩

end Laws

/-! ## Two runs -/

def keyToggle : Key := ⟨0, QK_CAPS_WORD_TOGGLE, 0, by decide⟩

def keyShift : Key := ⟨1, KC_LSFT, 0, auto_shift.Watched.keyShift.plain⟩

def keyA : Key := ⟨2, 0x04, 0, auto_shift.Watched.keyA.plain⟩

def keySpace : Key := ⟨3, 0x2C, 0, by decide⟩

def tap (k : Key) : List input := [.press_event, .record k true, .record k false]

def whileShifted (word : List input) : List input :=
  tap keyToggle ++ [.press_event, .record keyShift true] ++ word ++ [.record keyShift false]

/-- The toggle ends Caps Word with a report, and the shift is not handed back. -/
theorem no_shift_is_left_by_the_toggle :
    Along step (fun s x => Clean (step s x)) .boot (whileShifted (tap keyA ++ tap keyToggle)) :=
  (no_shift_is_left_exactly_when_reported (by decide +kernel)).mpr (by decide +kernel)

/-- A space ends Caps Word, its report has the shift that is handed back, and none comes at
the release. -/
theorem a_space_leaves_the_shift :
    Along step WellFormed .boot (whileShifted (tap keySpace)) ∧
      ((whileShifted (tap keySpace)).foldl step .boot).caps_word_active = false ∧
      (∀ side, ((whileShifted (tap keySpace)).foldl step .boot).down side = false) ∧
      Shift.lshift.isIn ((whileShifted (tap keySpace)).foldl step .boot).report_mods ∧
      ¬ Clean ((whileShifted (tap keySpace)).foldl step .boot) := by
  have hoff : ((whileShifted (tap keySpace)).foldl step .boot).caps_word_active = false := by
    decide +kernel
  have hup : ∀ side, ((whileShifted (tap keySpace)).foldl step .boot).down side = false := by
    decide +kernel
  have hshift :
      Shift.lshift.isIn ((whileShifted (tap keySpace)).foldl step .boot).report_mods := by
    decide +kernel
  refine ⟨by decide +kernel, hoff, hup, hshift, fun hclean => ?_⟩
  exact absurd (((hclean hoff hup).2 .lshift).2.symm.trans hshift) (by decide)

end keychron_qmk.caps_word
