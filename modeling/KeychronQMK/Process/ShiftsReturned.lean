-- The shifts that Auto Shift takes away: what a key that is held registered,
-- and what is left of it once no auto-shift key is held.
import KeychronQMK.Process.AutoShift

namespace keychron_qmk.auto_shift

open runs
open repeats (KC_NO between IS_QK_BASIC IS_QK_MOD_TAP IS_QK_LAYER_TAP)
open keyboard

/-! ## Bits of the modifiers -/

namespace Shift

def index : Shift → Nat
  | lshift => 1
  | rshift => 5

theorem isIn_eq (side : Shift) (mods : UInt8) :
    side.isIn mods = mods.toBitVec.getLsbD side.index := by
  obtain ⟨mods⟩ := mods
  revert mods
  cases side <;> decide

@[simp]
theorem isIn_or (side : Shift) (a b : UInt8) :
    side.isIn (a ||| b) = (side.isIn a || side.isIn b) := by
  simp [isIn_eq]

@[simp]
theorem isIn_and_not (side : Shift) (a b : UInt8) :
    side.isIn (a &&& ~~~b) = (side.isIn a && !side.isIn b) := by
  have h : side.index < 8 := by cases side <;> decide
  simp [isIn_eq, h]

@[simp]
theorem isIn_bit (side other : Shift) : side.isIn other.bit = decide (side = other) := by
  cases side <;> cases other <;> rfl

@[simp]
theorem isIn_zero (side : Shift) : side.isIn 0 = false := by
  cases side <;> rfl

end Shift

/-! ## Auto-shift keys -/

theorem isBasic_of_auto_shifted {keycode : UInt16} (h : get_auto_shifted_key keycode) :
    keycode.toNat < 0x65 ∧ 0x04 ≤ keycode.toNat := by
  simp only [get_auto_shifted_key, between, KC_TAB, KC_NONUS_BACKSLASH, UInt16.le_iff_toNat_le,
    ← UInt16.toNat_inj, Bool.or_eq_true, decide_eq_true_eq] at h
  simp at h
  omega

theorem not_retro_of_auto_shifted {keycode : UInt16} (h : get_auto_shifted_key keycode) :
    IS_RETRO keycode = false := by
  have hlt := isBasic_of_auto_shifted h
  simp [IS_RETRO, IS_QK_MOD_TAP, IS_QK_LAYER_TAP, between, UInt16.le_iff_toNat_le]
  omega

theorem action_of_auto_shifted {k : Key} (h : get_auto_shifted_key k.keycode) :
    k.action = ⟨0, 0, k.keycode.toUInt8⟩ := by
  have hlt := isBasic_of_auto_shifted h
  have hbasic : IS_QK_BASIC k.keycode := by
    simp [IS_QK_BASIC, between, UInt16.le_iff_toNat_le]
    omega
  simp [Key.action, hbasic]

theorem isBasic_code_of_auto_shifted {keycode : UInt16} (h : get_auto_shifted_key keycode) :
    IS_BASIC_KEYCODE keycode.toUInt8 := by
  have hlt := isBasic_of_auto_shifted h
  simp [IS_BASIC_KEYCODE, UInt8.le_iff_toNat_le]
  omega

theorem isReported_of_auto_shifted {keycode : UInt16} (h : get_auto_shifted_key keycode) :
    IS_REPORTED keycode.toUInt8 := by
  simp [IS_REPORTED, isBasic_code_of_auto_shifted h]

theorem mods_of_auto_shifted {k : Key} (h : get_auto_shifted_key k.keycode) : k.mods = 0 := by
  simp [Key.mods, action_of_auto_shifted h, Keyboard.mod_bit_of_isBasic (isBasic_code_of_auto_shifted h)]

theorem registers_of_auto_shifted {k : Key} (h : get_auto_shifted_key k.keycode) :
    k.Registers k.keycode.toUInt8 :=
  ⟨isReported_of_auto_shifted h, by rw [action_of_auto_shifted h]⟩

theorem ne_no_of_auto_shifted {keycode : UInt16} (h : get_auto_shifted_key keycode) :
    keycode ≠ KC_NO := by
  rintro rfl
  exact absurd h (by decide)

/-! ## What an operation does -/

namespace AutoShift

variable {cfg : Config} {s : AutoShift} {side : Shift} {keycode now : UInt16} {k : Key}

/-- A shift of the user's: it is in the modifiers, or was taken away. -/
def owns (s : AutoShift) (side : Shift) : Bool := side.isIn s.real_mods || s.cancelling side

/-- The press that Auto Shift has not registered yet. -/
def pending (s : AutoShift) : List UInt16 := if s.in_progress then [s.autoshift_lastkey] else []

theorem and_not_of_and_eq_zero {a b : UInt8} (h : a &&& b = 0) : a &&& ~~~b = a := by
  apply UInt8.eq_of_toBitVec_eq
  ext i hi
  have hbit := congrArg (fun m => m.toBitVec[i]) h
  simp only [UInt8.toBitVec_and, BitVec.getElem_and] at hbit
  cases ha : a.toBitVec[i] <;> simp_all

theorem cancel_shift_eq : s.cancel_shift side =
    { s with
      real_mods := s.real_mods &&& ~~~side.bit
      cancelling := Function.update s.cancelling side (s.owns side) } := by
  unfold cancel_shift owns
  split_ifs with h
  · simp [Keyboard.del_mods, h]
  · have hzero : s.real_mods &&& side.bit = 0 := by simpa [Shift.isIn] using h
    simp [h, and_not_of_and_eq_zero hzero]

theorem cancel_shifts_eq : s.cancel_shifts =
    { s with
      real_mods := s.real_mods &&& ~~~Shift.lshift.bit &&& ~~~Shift.rshift.bit
      cancelling := s.owns } := by
  have howns : ∀ side, (s.cancel_shift .lshift).owns side = s.owns side := by
    intro side
    rw [cancel_shift_eq]
    cases side <;> simp [owns]
  unfold cancel_shifts
  rw [cancel_shift_eq, howns, cancel_shift_eq]
  congr 1
  funext side
  cases side <;> rfl

def given (s : AutoShift) (side : Shift) : UInt8 := if s.cancelling side then side.bit else 0

theorem restore_shift_eq : s.restore_shift side =
    { s with
      real_mods := s.real_mods ||| s.given side
      cancelling := Function.update s.cancelling side false } := by
  unfold restore_shift given
  split_ifs with h
  · rfl
  · have hupdate : Function.update s.cancelling side false = s.cancelling := by
      simpa using h
    simp [hupdate]

theorem autoshift_flush_shift_eq : s.autoshift_flush_shift =
    { s with
      holding_shift := false
      weak_mods := s.weak_mods &&& ~~~Shift.lshift.bit
      real_mods := s.real_mods ||| s.given .lshift ||| s.given .rshift
      cancelling := fun _ => false } := by
  unfold autoshift_flush_shift
  simp only [restore_shift_eq]
  congr 1
  funext side
  cases side <;> rfl

theorem isIn_given (other : Shift) :
    side.isIn (s.given other) = (s.cancelling side && decide (side = other)) := by
  unfold given
  split_ifs with h
  · rw [Shift.isIn_bit]
    by_cases hside : side = other
    · simp [hside, h]
    · simp [hside]
  · by_cases hside : side = other
    · simp [hside, h]
    · simp [hside]

theorem autoshift_press_user_eq {shifted : Bool} (h : get_auto_shifted_key keycode) :
    s.autoshift_press_user keycode shifted =
      { s with
        weak_mods := if shifted then s.weak_mods ||| Shift.lshift.bit else s.weak_mods
        registered := insert keycode.toUInt8 s.registered
        sent := s.sent ++ [keycode] } := by
  have hbasic := isBasic_code_of_auto_shifted h
  unfold autoshift_press_user
  cases shifted <;> simp [Keyboard.register_code, hbasic, Keyboard.add_key, Keyboard.add_weak_mods]

theorem autoshift_release_user_eq {shifted : Bool} (h : get_auto_shifted_key keycode) :
    s.autoshift_release_user keycode shifted =
      { s with registered := s.registered.erase keycode.toUInt8 } := by
  simp [autoshift_release_user, Keyboard.unregister_code, isBasic_code_of_auto_shifted h,
    Keyboard.del_key]

theorem autoshift_register_eq (h : get_auto_shifted_key s.autoshift_lastkey) :
    s.autoshift_register now =
      { s with
        in_progress := false
        lastshifted := s.lastshifted || s.timed_out now
        autoshift_shift_states := Function.update s.autoshift_shift_states
          s.autoshift_lastkey.toUInt8 (s.lastshifted || s.timed_out now)
        real_mods := s.real_mods &&& ~~~Shift.lshift.bit &&& ~~~Shift.rshift.bit
        weak_mods := if s.lastshifted || s.timed_out now then s.weak_mods ||| Shift.lshift.bit
          else s.weak_mods
        cancelling := s.owns
        registered := insert s.autoshift_lastkey.toUInt8 s.registered
        sent := s.sent ++ [s.autoshift_lastkey] } := by
  unfold autoshift_register set_autoshift_shift_state
  dsimp only
  rw [cancel_shifts_eq, autoshift_press_user_eq h]
  rfl

end AutoShift

/-! ## What holds of every state -/

/-- A shift is the user's exactly when a held key registers it, the key in
progress is held, every code is of a held key, and every press but the one in
progress was registered. -/
structure Fair (s : AutoShift) (held : Finset Key) (asked : List UInt16) : Prop where
  owns : ∀ side, s.owns side ↔ ∃ k ∈ held, side.isIn k.mods
  busy : s.in_progress → s.enabled ∧
    ∃ k ∈ held, get_auto_shifted_key k.keycode ∧ k.keycode = s.autoshift_lastkey
  registered : ∀ code ∈ s.registered, ∃ k ∈ held, k.Registers code
  asked : asked = s.sent ++ s.pending

def Quiet (s : AutoShift) (held : Finset Key) : Prop :=
  ∀ side, s.cancelling side → s.enabled ∧ ∃ k ∈ held, get_auto_shifted_key k.keycode

section Laws

variable {cfg : Config} {s : AutoShift} {held : Finset Key} {asked : List UInt16}
  {keycode now : UInt16} {k : Key}

theorem Quiet.of_not_cancelling (h : ∀ side, s.cancelling side = false) : Quiet s held :=
  fun side hside => absurd hside (by simp [h side])

theorem Quiet.of_held (henabled : s.enabled) (hk : k ∈ held)
    (hauto : get_auto_shifted_key k.keycode) : Quiet s held :=
  fun _ _ => ⟨henabled, k, hk, hauto⟩

theorem Fair.flush (h : Fair s held asked) : Fair s.autoshift_flush_shift held asked := by
  rw [AutoShift.autoshift_flush_shift_eq]
  refine ⟨fun side => ?_, h.busy, h.registered, h.asked⟩
  rw [← h.owns]
  cases side <;> simp [AutoShift.owns, AutoShift.isIn_given]

theorem Fair.register (h : Fair s held asked) (hprogress : s.in_progress) (now : UInt16) :
    Fair (s.autoshift_register now) held asked := by
  obtain ⟨henabled, k, hk, hauto, hlast⟩ := h.busy hprogress
  rw [hlast] at hauto
  rw [AutoShift.autoshift_register_eq hauto]
  refine ⟨fun side => ?_, by simp, fun code hcode => ?_, ?_⟩
  · rw [← h.owns]
    cases side <;> simp [AutoShift.owns]
  · rcases Finset.mem_insert.mp hcode with rfl | hcode
    · rw [← hlast] at hauto ⊢
      exact ⟨k, hk, registers_of_auto_shifted hauto⟩
    · exact h.registered code hcode
  · simp [h.asked, AutoShift.pending, hprogress]

theorem Fair.unregister (h : Fair s held asked) (hauto : get_auto_shifted_key keycode)
    (shifted : Bool) :
    Fair (s.autoshift_release_user keycode shifted) held asked := by
  rw [AutoShift.autoshift_release_user_eq hauto]
  exact ⟨h.owns, h.busy, fun code hcode => h.registered code (Finset.mem_of_mem_erase hcode),
    h.asked⟩

theorem Fair.let_go (h : Fair s held asked) (hauto : get_auto_shifted_key k.keycode)
    (hidle : s.in_progress → s.autoshift_lastkey ≠ k.keycode) (shifted : Bool) :
    Fair (s.autoshift_release_user k.keycode shifted) (held.erase k) asked := by
  rw [AutoShift.autoshift_release_user_eq hauto]
  refine ⟨fun side => ?_, fun hprogress => ?_, fun code hcode => ?_, h.asked⟩
  · refine (h.owns side).trans ⟨?_, ?_⟩
    · rintro ⟨other, hother, hmods⟩
      refine ⟨other, Finset.mem_erase.mpr ⟨?_, hother⟩, hmods⟩
      rintro rfl
      simp [mods_of_auto_shifted hauto] at hmods
    · rintro ⟨other, hother, hmods⟩
      exact ⟨other, Finset.mem_of_mem_erase hother, hmods⟩
  · obtain ⟨henabled, other, hother, hauto', hlast⟩ := h.busy hprogress
    refine ⟨henabled, other, Finset.mem_erase.mpr ⟨?_, hother⟩, hauto', hlast⟩
    rintro rfl
    exact hidle hprogress hlast.symm
  · obtain ⟨hne, hcode⟩ := Finset.mem_erase.mp hcode
    obtain ⟨other, hother, hregisters⟩ := h.registered code hcode
    refine ⟨other, Finset.mem_erase.mpr ⟨?_, hother⟩, hregisters⟩
    rintro rfl
    exact hne (hregisters.2.symm.trans (registers_of_auto_shifted hauto).2)

/-! ## A press -/

theorem Fair.set_enabled (h : Fair s held asked) (hidle : s.in_progress = false) (enabled : Bool) :
    Fair { s with enabled } held asked :=
  ⟨h.owns, fun hprogress => absurd hprogress (by simp [hidle]), h.registered, h.asked⟩

theorem Fair.forget_last (h : Fair s held asked) (hidle : s.in_progress = false) :
    Fair { s with autoshift_lastkey := KC_NO } held asked := by
  refine ⟨h.owns, fun hprogress => absurd hprogress (by simp [hidle]), h.registered, ?_⟩
  simpa [AutoShift.pending, hidle] using h.asked

/-- What a press makes of the key in progress. -/
theorem Fair.evaluate (h : Fair s held asked) (hquiet : Quiet s held) (cfg : Config)
    (now : UInt16) :
    Fair (s.evaluate cfg now) held asked ∧ Quiet (s.evaluate cfg now) held ∧
      (s.evaluate cfg now).in_progress = false ∧ (s.evaluate cfg now).enabled = s.enabled := by
  unfold AutoShift.evaluate
  split_ifs with hprogress
  · obtain ⟨-, key, -, hauto, hlast⟩ := h.busy hprogress
    rw [hlast] at hauto
    have hlast' : (s.autoshift_register now).autoshift_lastkey = s.autoshift_lastkey := by
      rw [AutoShift.autoshift_register_eq hauto]
    have hauto' : get_auto_shifted_key (s.autoshift_register now).autoshift_lastkey := by
      rwa [hlast']
    have hfair := ((h.register hprogress now).unregister hauto'
      (s.autoshift_register now).lastshifted).flush
    simp only [AutoShift.autoshift_end, hprogress, or_true, and_self, ↓reduceIte, Bool.false_eq_true,
      and_false]
    refine ⟨⟨hfair.owns, hfair.busy, hfair.registered, hfair.asked⟩, ?_, ?_, ?_⟩
    · apply Quiet.of_not_cancelling
      simp [AutoShift.autoshift_flush_shift_eq]
    · simp [AutoShift.autoshift_flush_shift_eq, AutoShift.autoshift_release_user,
        Keyboard.unregister_code_eq, AutoShift.autoshift_register_eq hauto]
    · simp [AutoShift.autoshift_flush_shift_eq, AutoShift.autoshift_release_user,
        Keyboard.unregister_code_eq, AutoShift.autoshift_register_eq hauto]
  · exact ⟨h, hquiet, by simpa using hprogress, rfl⟩

theorem Fair.command (h : Fair s held asked) (hquiet : Quiet s held)
    (hidle : s.in_progress = false) (keycode : UInt16) :
    Fair (s.command keycode) held asked ∧ Quiet (s.command keycode) held ∧
      (s.command keycode).in_progress = false := by
  have hflush : ∀ enabled, Fair { s with enabled }.autoshift_flush_shift held asked ∧
      Quiet { s with enabled }.autoshift_flush_shift held ∧
      { s with enabled }.autoshift_flush_shift.in_progress = false := by
    intro enabled
    refine ⟨(h.set_enabled hidle enabled).flush, Quiet.of_not_cancelling ?_, ?_⟩
    · simp [AutoShift.autoshift_flush_shift_eq]
    · simpa [AutoShift.autoshift_flush_shift_eq] using hidle
  unfold AutoShift.command
  split_ifs
  · exact hflush _
  · exact ⟨h.set_enabled hidle true, fun side hside => ⟨rfl, (hquiet side hside).2⟩, hidle⟩
  · exact hflush _
  · exact ⟨⟨h.owns, h.busy, h.registered, h.asked⟩, hquiet, hidle⟩
  · exact ⟨⟨h.owns, h.busy, h.registered, h.asked⟩, hquiet, hidle⟩
  · exact ⟨h, hquiet, hidle⟩

/-- The press of an auto-shift key is registered, or is in progress. -/
theorem Fair.press (h : Fair s held asked) (hidle : s.in_progress = false) (henabled : s.enabled)
    (hauto : get_auto_shifted_key k.keycode) :
    Fair (s.autoshift_press cfg k.keycode now) (insert k held) (asked ++ [k.keycode]) := by
  have howns : ∀ side, s.owns side ↔ ∃ key ∈ insert k held, side.isIn key.mods := by
    intro side
    simp [h.owns side, mods_of_auto_shifted hauto]
  have hasked : asked = s.sent := by simpa [AutoShift.pending, hidle] using h.asked
  have hregistered : ∀ code ∈ insert k.keycode.toUInt8 s.registered,
      ∃ key ∈ insert k held, key.Registers code := by
    intro code hcode
    rcases Finset.mem_insert.mp hcode with rfl | hcode
    · exact ⟨k, Finset.mem_insert_self k held, registers_of_auto_shifted hauto⟩
    · obtain ⟨key, hkey, hregisters⟩ := h.registered code hcode
      exact ⟨key, Finset.mem_insert_of_mem hkey, hregisters⟩
  unfold AutoShift.autoshift_press
  dsimp only
  split_ifs with hmods hrepeats
  · rw [AutoShift.autoshift_press_user_eq hauto]
    refine ⟨howns, fun hprogress => absurd hprogress (by simp [hidle,
      AutoShift.set_autoshift_shift_state]), hregistered, ?_⟩
    simp [AutoShift.pending, hidle, AutoShift.set_autoshift_shift_state, hasked]
  · have hlast : k.keycode = s.autoshift_lastkey := by
      simp only [AutoShift.repeats_last, Bool.and_eq_true, decide_eq_true_eq] at hrepeats
      exact hrepeats.1.2
    rw [← hlast, AutoShift.cancel_shifts_eq, AutoShift.autoshift_press_user_eq hauto]
    refine ⟨fun side => ?_, fun hprogress => absurd hprogress (by simp [hidle]), hregistered, ?_⟩
    · rw [← howns]
      cases side <;> simp [AutoShift.owns]
    · simp [AutoShift.pending, hidle, hasked]
  · refine ⟨howns, fun _ => ⟨henabled, k, Finset.mem_insert_self k held, hauto, rfl⟩, ?_, ?_⟩
    · exact fun code hcode => hregistered code (Finset.mem_insert_of_mem hcode)
    · simp [AutoShift.pending, hasked]

theorem AutoShift.enabled_autoshift_press (hauto : get_auto_shifted_key keycode) :
    (s.autoshift_press cfg keycode now).enabled = s.enabled := by
  unfold AutoShift.autoshift_press
  dsimp only
  split_ifs with hmods hrepeats
  · rw [autoshift_press_user_eq hauto]
    rfl
  · have hlast : keycode = s.autoshift_lastkey := by
      simp only [repeats_last, Bool.and_eq_true, decide_eq_true_eq] at hrepeats
      exact hrepeats.1.2
    rw [← hlast, cancel_shifts_eq, autoshift_press_user_eq hauto]
  · rfl

theorem AutoShift.process_action_press :
    s.process_action k true =
      { s with
        weak_mods := k.action.weak_mods
        real_mods := s.real_mods ||| k.mods
        registered := if IS_REPORTED k.action.code then insert k.action.code s.registered
          else s.registered } := by
  rw [process_action, Keyboard.process_action_press]

theorem Fair.pass_press (h : Fair s held asked) :
    Fair (s.process_action k true) (insert k held) asked := by
  rw [AutoShift.process_action_press]
  refine ⟨fun side => ?_, fun hprogress => ?_, fun code hcode => ?_, h.asked⟩
  · simp only [AutoShift.owns, Shift.isIn_or, Finset.exists_mem_insert, ← h.owns]
    grind
  · obtain ⟨henabled, key, hkey, hauto⟩ := h.busy hprogress
    exact ⟨henabled, key, Finset.mem_insert_of_mem hkey, hauto⟩
  · dsimp only at hcode
    split_ifs at hcode with hbasic
    · rcases Finset.mem_insert.mp hcode with rfl | hcode
      · exact ⟨k, Finset.mem_insert_self k held, hbasic, rfl⟩
      · obtain ⟨key, hkey, hregisters⟩ := h.registered code hcode
        exact ⟨key, Finset.mem_insert_of_mem hkey, hregisters⟩
    · obtain ⟨key, hkey, hregisters⟩ := h.registered code hcode
      exact ⟨key, Finset.mem_insert_of_mem hkey, hregisters⟩

theorem Quiet.pass_press (h : Quiet s held) : Quiet (s.process_action k true) (insert k held) := by
  intro side hside
  obtain ⟨henabled, key, hkey, hauto⟩ := h side hside
  exact ⟨henabled, key, Finset.mem_insert_of_mem hkey, hauto⟩

/-! ## A release -/

/-- The release of an auto-shift key that is evaluated. Its shift is given
back, unless Auto Shift has forgotten the key. -/
theorem Fair.release (h : Fair s held asked) (hquiet : Quiet s held)
    (hauto : get_auto_shifted_key k.keycode)
    (hknown : (∀ other ∈ held, get_auto_shifted_key other.keycode → other = k) →
      ∀ side, s.cancelling side → k.keycode = s.autoshift_lastkey) :
    Fair (s.autoshift_end cfg k.keycode now false) (held.erase k) asked ∧
      Quiet (s.autoshift_end cfg k.keycode now false) (held.erase k) := by
  unfold AutoShift.autoshift_end
  dsimp only
  split_ifs with hprogress htrigger hlast
  · simp at htrigger
  · obtain ⟨hprogress, hkey⟩ := hprogress
    have hlast := hkey.resolve_right (ne_no_of_auto_shifted hauto)
    have hlast' : (s.autoshift_register now).autoshift_lastkey = k.keycode := by
      rw [hlast] at hauto ⊢
      rw [AutoShift.autoshift_register_eq hauto]
    have hidle : (s.autoshift_register now).in_progress = false := by
      rw [hlast] at hauto
      rw [AutoShift.autoshift_register_eq hauto]
    have hfair := ((h.register hprogress now).let_go hauto (by simp [hidle])
      (s.autoshift_register now).lastshifted).flush
    rw [hlast']
    refine ⟨⟨hfair.owns, hfair.busy, hfair.registered, hfair.asked⟩, ?_⟩
    apply Quiet.of_not_cancelling
    simp [AutoShift.autoshift_flush_shift_eq]
  · have hidle : s.in_progress → s.autoshift_lastkey ≠ k.keycode :=
      fun hs he => hprogress ⟨hs, Or.inl he.symm⟩
    have hfair := (h.let_go hauto hidle (s.autoshift_shift_states k.keycode.toUInt8)).flush
    refine ⟨⟨hfair.owns, hfair.busy, hfair.registered, hfair.asked⟩, ?_⟩
    apply Quiet.of_not_cancelling
    simp [AutoShift.autoshift_flush_shift_eq]
  · have hidle : s.in_progress → s.autoshift_lastkey ≠ k.keycode :=
      fun hs he => hprogress ⟨hs, Or.inl he.symm⟩
    have hfair := h.let_go hauto hidle (s.autoshift_shift_states k.keycode.toUInt8)
    refine ⟨⟨hfair.owns, hfair.busy, hfair.registered, hfair.asked⟩, ?_⟩
    intro side hside
    obtain ⟨henabled, -⟩ := hquiet side hside
    by_contra hnone
    -- no other auto-shift key is held, so the shift would have been given back
    refine hlast (hknown (fun other hother hauto' => ?_) side hside)
    by_contra hne
    exact hnone ⟨henabled, other, Finset.mem_erase.mpr ⟨hne, hother⟩, hauto'⟩

theorem isIn_mods_of_shift {side : Shift} (h : k.keycode = side.keycode) :
    side.isIn k.mods := by
  have hcode : k.action = ⟨0, 0, side.keycode.toUInt8⟩ := by
    cases side <;> simp [Key.action, h, Shift.keycode, KC_LSFT, KC_RSFT, IS_QK_BASIC, between]
  rw [Key.mods, hcode]
  cases side <;> rfl

theorem AutoShift.shift_released_eq : s.shift_released keycode =
    { s with cancelling := fun side => s.cancelling side && keycode ≠ side.keycode } := by
  have hne : KC_RSFT ≠ KC_LSFT := by decide
  unfold shift_released
  split_ifs with hleft hright
  · congr 1
    funext side
    cases side <;> simp [Shift.keycode, hleft, hne.symm]
  · congr 1
    funext side
    cases side <;> simp [Shift.keycode, hright, hne]
  · have hsame : (fun side : Shift => s.cancelling side && decide (keycode ≠ side.keycode)) =
        s.cancelling := by
      funext side
      cases side <;> simp [Shift.keycode, hleft, hright]
    rw [hsame]

theorem AutoShift.process_action_release :
    (s.shift_released keycode).process_action k false =
      { s with
        weak_mods := s.weak_mods &&& ~~~k.action.weak_mods
        real_mods := s.real_mods &&& ~~~mod_bit k.action.code &&& ~~~k.action.mods
        cancelling := fun side => s.cancelling side && keycode ≠ side.keycode
        registered := if IS_REPORTED k.action.code then s.registered.erase k.action.code
          else s.registered } := by
  rw [process_action, Keyboard.process_action_release, shift_released_eq]

/-- A key that is passed on takes its shifts with it. What remains is a shift
that is taken away, and it must be one that another held key registers. -/
theorem Fair.pass_release (h : Fair s held asked)
    (hleft : ∀ side : Shift, side.isIn k.mods →
      ((∃ other ∈ held.erase k, side.isIn other.mods) ↔
        s.cancelling side ∧ k.keycode ≠ side.keycode))
    (hbusy : s.in_progress → get_auto_shifted_key k.keycode = false) :
    Fair ((s.shift_released k.keycode).process_action k false) (held.erase k) asked := by
  rw [AutoShift.process_action_release]
  refine ⟨fun side => ?_, fun hprogress => ?_, fun code hcode => ?_, h.asked⟩
  · by_cases hside : side.isIn k.mods
    · rw [hleft side hside]
      simp only [Key.mods, Shift.isIn_or, Bool.or_eq_true] at hside
      rcases hside with hside | hside <;> simp [AutoShift.owns, hside]
    · have hkeycode : k.keycode ≠ side.keycode := fun he => hside (isIn_mods_of_shift he)
      have hmods : side.isIn k.action.mods = false ∧ side.isIn (mod_bit k.action.code) = false := by
        simpa [Key.mods] using hside
      have howns := h.owns side
      simp only [AutoShift.owns] at howns ⊢
      rw [Shift.isIn_and_not, Shift.isIn_and_not, hmods.1, hmods.2]
      refine Iff.trans (by simp [hkeycode]) (howns.trans ⟨?_, ?_⟩)
      · rintro ⟨other, hother, hother'⟩
        refine ⟨other, Finset.mem_erase.mpr ⟨?_, hother⟩, hother'⟩
        rintro rfl
        exact hside hother'
      · rintro ⟨other, hother, hother'⟩
        exact ⟨other, Finset.mem_of_mem_erase hother, hother'⟩
  · obtain ⟨henabled, other, hother, hauto, hlast⟩ := h.busy hprogress
    refine ⟨henabled, other, Finset.mem_erase.mpr ⟨?_, hother⟩, hauto, hlast⟩
    rintro rfl
    simp [hbusy hprogress] at hauto
  · dsimp only at hcode
    split_ifs at hcode with hbasic
    · obtain ⟨hne, hcode⟩ := Finset.mem_erase.mp hcode
      obtain ⟨other, hother, hregisters⟩ := h.registered code hcode
      refine ⟨other, Finset.mem_erase.mpr ⟨?_, hother⟩, hregisters⟩
      rintro rfl
      exact hne hregisters.2.symm
    · obtain ⟨other, hother, hregisters⟩ := h.registered code hcode
      refine ⟨other, Finset.mem_erase.mpr ⟨?_, hother⟩, hregisters⟩
      rintro rfl
      rw [hregisters.2] at hbasic
      exact hbasic hregisters.1

theorem Quiet.pass_release (h : Quiet s held)
    (hauto : s.enabled → get_auto_shifted_key k.keycode = false) :
    Quiet ((s.shift_released k.keycode).process_action k false) (held.erase k) := by
  rw [AutoShift.process_action_release]
  intro side hside
  simp only [Bool.and_eq_true] at hside
  obtain ⟨henabled, other, hother, hauto'⟩ := h side hside.1
  refine ⟨henabled, other, Finset.mem_erase.mpr ⟨?_, hother⟩, hauto'⟩
  rintro rfl
  simp [hauto henabled] at hauto'

/-! ## A scan -/

theorem Fair.scan (h : Fair s held asked) (hquiet : Quiet s held) :
    Fair (s.autoshift_matrix_scan cfg now) held asked ∧
      Quiet (s.autoshift_matrix_scan cfg now) held := by
  unfold AutoShift.autoshift_matrix_scan
  split_ifs with hscan
  · obtain ⟨hprogress, -⟩ := hscan
    obtain ⟨henabled, key, hkey, hauto, hlast⟩ := h.busy hprogress
    rw [hlast] at hauto
    have hlast' : (s.autoshift_register now).autoshift_lastkey = s.autoshift_lastkey := by
      rw [AutoShift.autoshift_register_eq hauto]
    have hregister := h.register hprogress now
    simp only [AutoShift.autoshift_end, hprogress, true_or, and_self, ↓reduceIte, and_true]
    split_ifs with hrepeat
    · refine ⟨hregister, Quiet.of_held ?_ hkey (hlast ▸ hauto)⟩
      rw [AutoShift.autoshift_register_eq hauto]
      exact henabled
    · have hfair := (hregister.unregister (hlast' ▸ hauto)
        (s.autoshift_register now).lastshifted).flush
      refine ⟨⟨hfair.owns, hfair.busy, hfair.registered, hfair.asked⟩, ?_⟩
      apply Quiet.of_not_cancelling
      simp [AutoShift.autoshift_flush_shift_eq]
  · exact ⟨h, hquiet⟩

end Laws

/-! ## The run -/

namespace AutoShift

variable {cfg : Config} {s : AutoShift} {held : Finset Key} {asked : List UInt16}
  {keycode now : UInt16}

theorem command_of_auto_shifted (h : get_auto_shifted_key keycode) : s.command keycode = s := by
  have hne : ∀ other, get_auto_shifted_key other = false → keycode ≠ other := by
    rintro other hother rfl
    simp [hother] at h
  simp [command, hne AS_TOGG (by decide), hne AS_ON (by decide), hne AS_OFF (by decide),
    hne AS_UP (by decide), hne AS_DOWN (by decide)]

theorem shift_released_of_auto_shifted (h : get_auto_shifted_key keycode) :
    s.shift_released keycode = s := by
  have hne : ∀ other, get_auto_shifted_key other = false → keycode ≠ other := by
    rintro other hother rfl
    simp [hother] at h
  simp [shift_released, hne KC_LSFT (by decide), hne KC_RSFT (by decide)]

theorem process_press_of_auto_shifted (h : Fair s held asked) (hquiet : Quiet s held)
    (hauto : get_auto_shifted_key keycode) (henabled : s.enabled) (cfg : Config) (now : UInt16) :
    s.process_auto_shift cfg keycode now true =
      (false, (s.evaluate cfg now).autoshift_press cfg keycode now) := by
  obtain ⟨-, -, -, hsame⟩ := h.evaluate hquiet cfg now
  simp [process_auto_shift, command_of_auto_shifted hauto, not_retro_of_auto_shifted hauto, hauto,
    hsame, henabled]

theorem process_press_of_passed (h : Fair s held asked) (hquiet : Quiet s held)
    (hpassed : ¬ (s.enabled ∧ get_auto_shifted_key keycode)) (cfg : Config) (now : UInt16) :
    (s.process_auto_shift cfg keycode now true).1 = true ∧
      Fair (s.process_auto_shift cfg keycode now true).2 held asked ∧
      Quiet (s.process_auto_shift cfg keycode now true).2 held := by
  obtain ⟨hfair, hquiet, hidle, hsame⟩ := h.evaluate hquiet cfg now
  obtain ⟨hfair', hquiet', hidle'⟩ := hfair.command hquiet hidle keycode
  simp only [process_auto_shift, ↓reduceIte]
  split_ifs with hretro hdisabled hauto
  · exact ⟨rfl, hfair'.forget_last hidle', hquiet'⟩
  · exact ⟨rfl, hfair', hquiet'⟩
  · rw [command_of_auto_shifted hauto, hsame] at hdisabled
    exact absurd ⟨by simpa using hdisabled, hauto⟩ hpassed
  · exact ⟨rfl, hfair'.forget_last hidle', hquiet'⟩

theorem process_release_of_auto_shifted (hauto : get_auto_shifted_key keycode)
    (henabled : s.enabled) : s.process_auto_shift cfg keycode now false =
      (false, s.autoshift_end cfg keycode now false) := by
  simp [process_auto_shift, shift_released_of_auto_shifted hauto, not_retro_of_auto_shifted hauto,
    hauto, henabled]

theorem enabled_shift_released : (s.shift_released keycode).enabled = s.enabled := by
  unfold shift_released
  split_ifs <;> rfl

theorem process_release_of_passed (hpassed : ¬ (s.enabled ∧ get_auto_shifted_key keycode)) :
    s.process_auto_shift cfg keycode now false = (true, s.shift_released keycode) := by
  simp only [process_auto_shift, Bool.false_eq_true, ↓reduceIte, enabled_shift_released]
  split_ifs with hretro hdisabled hauto
  · rfl
  · rfl
  · exact absurd ⟨by simpa using hdisabled, hauto⟩ hpassed
  · rfl

end AutoShift

/-- Nothing is left behind. While no auto-shift key is held, a code is
registered only for a held key of another kind, and a shift is in the modifiers
exactly when a held key registers it. Every press that was asked for is
registered once, in order; one that is in progress is still to come. -/
structure Watched.Returned (w : Watched) : Prop where
  registered : (∀ k ∈ w.held, get_auto_shifted_key k.keycode = false) →
    ∀ code ∈ w.keys.registered, ∃ k ∈ w.held, k.Registers code
  shifts : (∀ k ∈ w.held, get_auto_shifted_key k.keycode = false) →
    ∀ side : Shift, side.isIn w.keys.real_mods ↔ ∃ k ∈ w.held, side.isIn k.mods
  sent : w.asked = w.keys.sent ++ w.keys.pending
  all_sent : (∀ k ∈ w.held, get_auto_shifted_key k.keycode = false) → w.asked = w.keys.sent

namespace Watched

/-- A key is pressed when no key is held at its position, and released when it
is held. -/
def Possible (w : Watched) : Event → Prop
  | .key k true _ _ => ∀ other ∈ w.held, other.position ≠ k.position
  | .key k false _ _ => k ∈ w.held
  | .scan _ => True

instance (w : Watched) (e : Event) : Decidable (w.Possible e) := by
  unfold Possible
  split <;> infer_instance

/-- Of the shifts of the key, those that other held keys register too are
those that stay taken away when it is released. -/
def Left (w : Watched) (k : Key) : Prop :=
  ∀ side : Shift, side.isIn k.mods →
    ((∃ other ∈ w.held.erase k, side.isIn other.mods) ↔
      w.keys.cancelling side ∧ k.keycode ≠ side.keycode)

/-- The last auto-shift key that is held is the last one that Auto Shift knows,
if a shift is taken away. -/
def Known (w : Watched) (k : Key) : Prop :=
  get_auto_shifted_key k.keycode →
    (∀ other ∈ w.held, get_auto_shifted_key other.keycode → other = k) →
      ∀ side, w.keys.cancelling side → k.keycode = w.keys.autoshift_lastkey

instance (w : Watched) (k : Key) : Decidable (w.Left k) := by
  unfold Left
  infer_instance

instance (w : Watched) (k : Key) : Decidable (w.Known k) := by
  unfold Known
  infer_instance

/-- At a release, both hold of the key. -/
def Orderly (w : Watched) : Event → Prop
  | .key k false _ _ => w.Left k ∧ w.Known k
  | _ => True

instance (w : Watched) (e : Event) : Decidable (w.Orderly e) := by
  unfold Orderly
  split <;> infer_instance

def Sound (w : Watched) : Prop := Fair w.keys w.held w.asked ∧ Quiet w.keys w.held

theorem Sound.boot : boot.Sound := by
  refine ⟨⟨fun side => ?_, fun hprogress => ?_, fun code hcode => ?_, rfl⟩,
    Quiet.of_not_cancelling fun _ => rfl⟩
  · cases side <;> simp [Watched.boot, AutoShift.boot, AutoShift.owns, Keyboard.boot]
  · exact absurd hprogress (by decide)
  · exact absurd hcode (Finset.notMem_empty code)

variable {cfg : Config} {w : Watched} {k : Key} {now : UInt16} {oneshot_mods : UInt8}

theorem step_key {pressed further : Bool} {s s' : AutoShift}
    (hs : { w.keys with oneshot_mods } = s)
    (h : s.process_auto_shift cfg k.keycode now pressed = (further, s')) :
    w.step cfg (.key k pressed now oneshot_mods) =
      { keys := if further then s'.process_action k pressed else s'
        held := if pressed then insert k w.held else w.held.erase k
        asked := if pressed && w.keys.enabled && get_auto_shifted_key k.keycode then
            w.asked ++ [k.keycode]
          else w.asked } := by
  simp only [step, hs, h]

theorem Sound.enter (h : w.Sound) (oneshot_mods : UInt8) :
    ∃ s : AutoShift, { w.keys with oneshot_mods } = s ∧ s.enabled = w.keys.enabled ∧
      Fair s w.held w.asked ∧ Quiet s w.held ∧ s.cancelling = w.keys.cancelling ∧
        s.autoshift_lastkey = w.keys.autoshift_lastkey :=
  ⟨_, rfl, rfl, ⟨h.1.owns, h.1.busy, h.1.registered, h.1.asked⟩, h.2, rfl, rfl⟩

theorem Sound.press (h : w.Sound) : (w.step cfg (.key k true now oneshot_mods)).Sound := by
  obtain ⟨s, hs, hsame, hfair, hquiet, -, -⟩ := h.enter oneshot_mods
  by_cases hauto : s.enabled ∧ get_auto_shifted_key k.keycode
  · obtain ⟨henabled, hauto⟩ := hauto
    obtain ⟨hbefore, -, hidle, henabled'⟩ := hfair.evaluate hquiet cfg now
    have hprocess :=
      AutoShift.process_press_of_auto_shifted hfair hquiet hauto henabled cfg now
    have hasked : (true && w.keys.enabled && get_auto_shifted_key k.keycode) = true := by
      simp [← hsame, henabled, hauto]
    rw [step_key hs hprocess, hasked]
    refine ⟨hbefore.press hidle (henabled'.trans henabled) hauto, ?_⟩
    refine Quiet.of_held ?_ (Finset.mem_insert_self k w.held) hauto
    exact (AutoShift.enabled_autoshift_press hauto).trans (henabled'.trans henabled)
  · obtain ⟨hpassed, hfair, hquiet⟩ :=
      AutoShift.process_press_of_passed hfair hquiet hauto cfg now
    have hasked : (true && w.keys.enabled && get_auto_shifted_key k.keycode) = false := by
      simpa [← hsame] using hauto
    rw [step_key hs (Prod.ext hpassed rfl), hasked]
    exact ⟨hfair.pass_press, hquiet.pass_press⟩

theorem Sound.release (h : w.Sound) (hleft : w.Left k) (hknown : w.Known k) :
    (w.step cfg (.key k false now oneshot_mods)).Sound := by
  obtain ⟨s, hs, hsame, hfair, hquiet, hcancelling, hlast⟩ := h.enter oneshot_mods
  by_cases hauto : s.enabled ∧ get_auto_shifted_key k.keycode
  · obtain ⟨henabled, hauto⟩ := hauto
    rw [step_key hs (AutoShift.process_release_of_auto_shifted hauto henabled)]
    refine hfair.release hquiet hauto fun hlone side hside => ?_
    rw [hlast]
    exact hknown hauto hlone side (hcancelling ▸ hside)
  · rw [step_key hs (AutoShift.process_release_of_passed hauto)]
    have hother : s.enabled → get_auto_shifted_key k.keycode = false := by
      simpa using hauto
    refine ⟨hfair.pass_release ?_ fun hprogress => hother (hfair.busy hprogress).1,
      hquiet.pass_release hother⟩
    rw [hcancelling]
    exact hleft

theorem Sound.step (h : w.Sound) {e : Event} (horderly : w.Orderly e) : (w.step cfg e).Sound := by
  obtain ⟨hfair, hquiet⟩ := h
  match e with
  | .scan now => exact hfair.scan hquiet
  | .key k true now oneshot_mods => exact Sound.press ⟨hfair, hquiet⟩
  | .key k false now oneshot_mods =>
    obtain ⟨hleft, hknown⟩ := horderly
    exact Sound.release ⟨hfair, hquiet⟩ hleft hknown

theorem Sound.returned (h : w.Sound) : w.Returned := by
  obtain ⟨hfair, hquiet⟩ := h
  refine ⟨fun _ => hfair.registered, fun hnone side => ?_, hfair.asked, fun hnone => ?_⟩
  · have hcancelling : w.keys.cancelling side = false := by
      by_contra hside
      obtain ⟨-, k, hk, hauto⟩ := hquiet side (by simpa using hside)
      simp [hnone k hk] at hauto
    simpa [AutoShift.owns, hcancelling] using hfair.owns side
  · have hidle : w.keys.in_progress = false := by
      by_contra hprogress
      obtain ⟨-, k, hk, hauto, -⟩ := hfair.busy (by simpa using hprogress)
      simp [hnone k hk] at hauto
    simpa [AutoShift.pending, hidle] using hfair.asked

theorem sound_run {es : List Event} (h : w.Sound) (horderly : Along (step cfg) Orderly w es) :
    (es.foldl (step cfg) w).Sound :=
  Along.invariant (I := Sound) (fun _ _ hsound hevent => hsound.step hevent) h horderly

/-- The keys A, Enter and left Shift, and Z with a left Shift when it is
held. -/
def keyA : Key := ⟨0, 0x0004, 0, by decide⟩

def keyEnter : Key := ⟨1, 0x0028, 0, by decide⟩

def keyShift : Key := ⟨2, KC_LSFT, 0, by decide⟩

def keyTapZ : Key := ⟨3, 0x221D, 0, by decide⟩

def shiftAndRepeat (shift : Key) : List Event :=
  [.key shift true 0 0, .key keyA true 10 0, .scan 400]

def returnedShift : List Event :=
  shiftAndRepeat keyShift ++ [.key keyA false 500 0, .key keyShift false 600 0]

/-- The mod-tap is released before the key that repeats. -/
def stuckShift : List Event :=
  shiftAndRepeat keyTapZ ++ [.key keyTapZ false 500 0, .key keyA false 600 0]

/-- Enter is pressed before the key that repeats is released. -/
def lostShift : List Event :=
  shiftAndRepeat keyShift ++ [.key keyEnter true 500 0, .key keyEnter false 510 0,
    .key keyA false 600 0]

/-- The keyboard after a run with AUTO_SHIFT_REPEAT. -/
def repeating (es : List Event) : Watched := es.foldl (step ⟨true, fun _ => 200⟩) boot

end Watched

end keychron_qmk.auto_shift
