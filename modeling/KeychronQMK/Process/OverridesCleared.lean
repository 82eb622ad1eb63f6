-- What key overrides leave behind: which key a deferred registration stands
-- for, and what the reports show once no key is held.
import KeychronQMK.Process.KeyOverride

namespace keychron_qmk.key_override

open runs
open repeats (KC_NO between IS_QK_BASIC IS_QK_MODS)
open keyboard

/-! ## Codes -/

theorem isBasic_toUInt8 {keycode : UInt16} (h : is_basic keycode) :
    IS_BASIC_KEYCODE keycode.toUInt8 := by
  simp [is_basic, between, UInt16.le_iff_toNat_le] at h
  simp [IS_BASIC_KEYCODE, UInt8.le_iff_toNat_le]
  omega

theorem not_codeShows_zero (out : Output) : ¬ CodeShows 0 out := by
  cases out with
  | key other => simp [CodeShows, IS_REPORTED, IS_BASIC_KEYCODE, IS_EXTRA_KEYCODE]
  | mod index => simp [CodeShows, mod_bit, IS_MODIFIER_KEYCODE]

theorem shows_register_code16 {code : UInt16} {s : Keyboard} {out : Output} :
    (register_code16 code s).Shows out ↔ s.Shows out ∨ CodeShows code.toUInt8 out := by
  have hweak : ∀ mods, (s.add_weak_mods mods).Shows out ↔ s.Shows out := by
    intro mods
    cases out <;> rfl
  unfold register_code16
  split_ifs with h
  · have hmods : extract_mod_bits code = 0 := by
      have hnone : IS_QK_MODS code = false := by
        simp [is_modifier, between, KC_NO, UInt16.le_iff_toNat_le, ← UInt16.toNat_inj] at h
        simp [IS_QK_MODS, between, UInt16.le_iff_toNat_le]
        omega
      simp [extract_mod_bits, hnone]
    rw [hmods, Keyboard.shows_register_code, Keyboard.shows_add_mods]
    have hzero : ¬ ModsShow 0 out := by cases out <;> simp [ModsShow]
    simp [hzero]
  · rw [Keyboard.shows_register_code, hweak]

theorem Key.shows_of_codeShows {k : Key} {out : Output} (hle : k.keycode ≤ 0x1FFF)
    (h : CodeShows k.keycode.toUInt8 out) : k.Shows out := by
  have hcode : k.action.code = k.keycode.toUInt8 := by
    by_cases hbasic : IS_QK_BASIC k.keycode
    · simp [Key.action, hbasic]
    · have hmods : IS_QK_MODS k.keycode := by
        simp [IS_QK_BASIC, between, UInt16.le_iff_toNat_le] at hbasic
        simp [IS_QK_MODS, between, UInt16.le_iff_toNat_le] at hle ⊢
        omega
      simp only [Key.action, hbasic, hmods, Bool.false_eq_true, ↓reduceIte]
      split_ifs <;> rfl
  exact Or.inr (hcode ▸ h)

theorem mod_free_lt (code : UInt8) : code.toUInt16 < SAFE_RANGE := by
  have hlt := code.toNat_lt
  simp [SAFE_RANGE, UInt16.lt_iff_toNat_lt]
  omega

/-! ## What stands -/

def key_override_t.reregisters_trigger (o : key_override_t) : Bool :=
  o.options &&& ko_option_no_reregister_trigger = 0 && o.trigger < SAFE_RANGE

/-- A trigger that is registered again is a key that `register_code16` registers
as its action does, and a custom action that lets a replacement be registered
lets it be unregistered. -/
def Config.Fitting (cfg : Config) : Prop :=
  ∀ p ∈ cfg.key_overrides,
    ((cfg.override p).reregisters_trigger → (cfg.override p).trigger ≤ 0x1FFF) ∧
      ((cfg.override p).registers_replacement → (cfg.override p).custom false)

instance (cfg : Config) : Decidable cfg.Fitting := by
  unfold Config.Fitting
  infer_instance

namespace KeyOverride

def replaces (cfg : Config) (s : KeyOverride) : Bool :=
  s.active_override.any fun p => (cfg.override p).registers_replacement &&
    clear_mods_from (cfg.override p).replacement = s.deferred_register

def Returns (cfg : Config) (s : KeyOverride) (held : Finset Key) : Prop :=
  (∃ k ∈ held, k.keycode = s.deferred_register) ∧
    ∃ p ∈ cfg.key_overrides, (cfg.override p).trigger = s.deferred_register

instance (cfg : Config) (s : KeyOverride) (held : Finset Key) : Decidable (s.Returns cfg held) := by
  unfold Returns
  infer_instance

def Awaits (cfg : Config) (s : KeyOverride) : Prop :=
  ∃ p ∈ cfg.key_overrides, (cfg.override p).trigger = s.deferred_register ∧
    (cfg.override p).reregisters_trigger

def ActiveShows (cfg : Config) (s : KeyOverride) (out : Output) : Prop :=
  ∃ p, s.active_override = some p ∧ (cfg.override p).registers_replacement ∧
    CodeShows (cfg.override p).mod_free_replacement out

end KeyOverride

/-- Everything that key overrides keep is accounted for by a held key, or by
the active override. -/
structure Covered (cfg : Config) (s : KeyOverride) (held : Finset Key) : Prop where
  idle : s.active_override = none → s.suppressed_mods = 0 ∧ s.weak_override_mods = 0
  disabled : s.enabled = false → s.active_override = none
  last : s.last_key_down ≠ 0 →
    is_modifier s.last_key_down = false ∧ ∃ k ∈ held, k.keycode = s.last_key_down
  active : ∀ p, s.active_override = some p → p ∈ cfg.key_overrides ∧
    (s.active_override_trigger_is_down → (cfg.override p).trigger ≠ KC_NO →
      ∃ k ∈ held, k.keycode = (cfg.override p).trigger)
  deferred : s.deferred_register ≠ 0 → s.replaces cfg ∨
    (∃ k ∈ held, k.keycode = s.deferred_register) ∧ s.Awaits cfg
  shows : ∀ out, s.Shows out → (∃ k ∈ held, k.Shows out) ∨ s.ActiveShows cfg out

section Laws

variable {cfg : Config} {s : KeyOverride} {held : Finset Key} {e : Seen} {now : UInt32}

theorem drop_replacement_eq (o : key_override_t) : s.drop_replacement o =
    if o.unregisters_replacement then s.unregister_code o.mod_free_replacement
    else s.toKeyboard := by
  unfold KeyOverride.drop_replacement Keyboard.unregister_code
  split_ifs <;> rfl

variable {o : key_override_t} {out : Output}

theorem not_shows_drop_replacement (hcustom : o.registers_replacement → o.custom false)
    (hregisters : o.registers_replacement) (hshows : CodeShows o.mod_free_replacement out) :
    ¬ (s.drop_replacement o).Shows out := by
  rw [drop_replacement_eq]
  have hunregisters : o.unregisters_replacement := by
    have hzero : o.mod_free_replacement ≠ 0 := by
      intro hzero
      rw [hzero] at hshows
      exact not_codeShows_zero out hshows
    simp [key_override_t.unregisters_replacement, hzero, mod_free_lt, hcustom hregisters]
  rw [if_pos hunregisters, Keyboard.shows_unregister_code]
  exact fun h => h.2 hshows

theorem shows_of_drop_replacement (h : (s.drop_replacement o).Shows out) : s.Shows out := by
  rw [drop_replacement_eq] at h
  split_ifs at h
  · exact (Keyboard.shows_unregister_code.mp h).1
  · exact h

theorem shows_of_drop_trigger {down : Bool} (h : (s.drop_trigger o down).Shows out) :
    s.Shows out := by
  have hdel : ∀ code, (s.del_key code).Shows out → s.Shows out := by
    intro code
    cases out with
    | key other => exact fun h => Finset.mem_of_mem_erase h
    | mod index => exact id
  unfold KeyOverride.drop_trigger at h
  split_ifs at h
  · exact hdel _ h
  · exact (Keyboard.shows_unregister_code.mp h).1
  · exact h

theorem schedule_eq (keycode : UInt16) : s.schedule_deferred_register keycode now =
    { s with
      defer_reference_time := (s.schedule_deferred_register keycode now).defer_reference_time
      defer_delay := (s.schedule_deferred_register keycode now).defer_delay
      deferred_register := keycode } := by
  unfold KeyOverride.schedule_deferred_register
  split_ifs <;> rfl

/-! ## The operations -/

theorem Covered.mono (h : Covered cfg s held) {held' : Finset Key} (hle : held ⊆ held') :
    Covered cfg s held' := by
  refine ⟨h.idle, h.disabled, fun hlast => ?_, fun p hp => ?_, fun hdeferred => ?_,
    fun out hout => ?_⟩
  · obtain ⟨hmod, k, hk, hkey⟩ := h.last hlast
    exact ⟨hmod, k, hle hk, hkey⟩
  · obtain ⟨hmem, htrigger⟩ := h.active p hp
    refine ⟨hmem, fun hdown hno => ?_⟩
    obtain ⟨k, hk, hkey⟩ := htrigger hdown hno
    exact ⟨k, hle hk, hkey⟩
  · obtain hreplaces | ⟨⟨k, hk, hkey⟩, hawaits⟩ := h.deferred hdeferred
    · exact Or.inl hreplaces
    · exact Or.inr ⟨⟨k, hle hk, hkey⟩, hawaits⟩
  · obtain ⟨k, hk, hshows⟩ | hactive := h.shows out hout
    · exact Or.inl ⟨k, hle hk, hshows⟩
    · exact Or.inr hactive

/-- Once an override is cleared nothing of it is shown, and its trigger may be
deferred if it is held. -/
theorem Covered.clear (h : Covered cfg s held) (hfitting : cfg.Fitting) (allow : Bool)
    (now : UInt32) : Covered cfg (s.clear_active_override cfg allow now) held := by
  unfold KeyOverride.clear_active_override
  rcases hactive : s.active_override with _ | p
  · exact h
  · obtain ⟨hmem, htrigger⟩ := h.active p hactive
    have hshows : ∀ out, (s.drop_replacement (cfg.override p)).Shows out →
        ∃ k ∈ held, k.Shows out := by
      intro out hout
      refine (h.shows out (shows_of_drop_replacement hout)).resolve_right ?_
      rintro ⟨q, hq, hregisters, hcode⟩
      obtain rfl : p = q := Option.some.inj (hactive.symm.trans hq)
      exact not_shows_drop_replacement (hfitting p hmem).2 hregisters hcode hout
    dsimp only
    split_ifs with hreregisters
    · rw [schedule_eq]
      simp only [KeyOverride.reregisters, Bool.and_eq_true, decide_eq_true_eq] at hreregisters
      obtain ⟨⟨⟨⟨-, hoption⟩, hdown⟩, hno⟩, hsafe⟩ := hreregisters
      have hagain : (cfg.override p).reregisters_trigger := by
        simp [key_override_t.reregisters_trigger, hoption, hsafe]
      exact ⟨fun _ => ⟨rfl, rfl⟩, fun _ => rfl, h.last, fun q hq => absurd hq (by simp),
        fun _ => Or.inr ⟨htrigger hdown hno, p, hmem, rfl, hagain⟩,
        fun out hout => Or.inl (hshows out hout)⟩
    · exact ⟨fun _ => ⟨rfl, rfl⟩, fun _ => rfl, h.last, fun q hq => absurd hq (by simp),
        fun hne => absurd rfl hne, fun out hout => Or.inl (hshows out hout)⟩

theorem active_clear (allow : Bool) :
    (s.clear_active_override cfg allow now).active_override = none := by
  unfold KeyOverride.clear_active_override
  rcases hactive : s.active_override with _ | p
  · exact hactive
  · rfl

theorem clear_eq (cfg : Config) (s : KeyOverride) (allow : Bool) (now : UInt32) :
    (s.clear_active_override cfg allow now).last_key_down = s.last_key_down ∧
      (s.clear_active_override cfg allow now).enabled = s.enabled := by
  unfold KeyOverride.clear_active_override
  rcases s.active_override with _ | p
  · exact ⟨rfl, rfl⟩
  · dsimp only
    split_ifs
    · rw [schedule_eq]
      exact ⟨rfl, rfl⟩
    · exact ⟨rfl, rfl⟩

variable {p : Nat}

/-- An override that is registered now shows its replacement, and one that a
modifier activated defers it. -/
theorem Covered.add_replacement (hactive : s.active_override = some p) (h : Covered cfg s held) :
    Covered cfg (s.add_replacement (cfg.override p) e) held := by
  unfold KeyOverride.add_replacement
  dsimp only
  have hidle : s.active_override ≠ none := by simp [hactive]
  have hshows : ∀ out, CodeShows (clear_mods_from (cfg.override p).replacement).toUInt8 out →
      (cfg.override p).registers_replacement → s.ActiveShows cfg out :=
    fun out hcode hregisters => ⟨p, hactive, hregisters, hcode⟩
  split_ifs with hregisters hmod hbasic
  · rw [schedule_eq]
    refine ⟨fun hnone => absurd hnone hidle, h.disabled, h.last, h.active, fun _ => Or.inl ?_,
      h.shows⟩
    simp [KeyOverride.replaces, hactive, hregisters]
  · refine ⟨fun hnone => absurd hnone hidle, h.disabled, h.last, h.active, h.deferred,
      fun out hout => ?_⟩
    have hadd : s.add_key (clear_mods_from (cfg.override p).replacement).toUInt8 =
        s.register_code (clear_mods_from (cfg.override p).replacement).toUInt8 := by
      simp [Keyboard.register_code, isBasic_toUInt8 hbasic]
    obtain hout | hcode := Keyboard.shows_register_code.mp (hadd ▸ hout)
    · exact h.shows out hout
    · exact Or.inr (hshows out hcode hregisters)
  · refine ⟨fun hnone => absurd hnone hidle, h.disabled, h.last, h.active, h.deferred,
      fun out hout => ?_⟩
    obtain hout | hcode := Keyboard.shows_register_code.mp hout
    · exact h.shows out hout
    · exact Or.inr (hshows out hcode hregisters)
  · exact h

theorem Covered.activate (h : Covered cfg s held) (hfitting : cfg.Fitting) (henabled : s.enabled)
    (hp : p ∈ cfg.key_overrides) (hshould : s.should_activate cfg p e)
    (hheld : e.key_down → ∃ k ∈ held, k.keycode = e.keycode) :
    Covered cfg (s.activate cfg p e) held := by
  have hclear := h.clear hfitting false e.now
  have hnone : (s.clear_active_override cfg false e.now).active_override = none := active_clear _
  obtain ⟨-, hsame⟩ := clear_eq cfg s false e.now
  have htrigger : (cfg.override p).trigger ≠ KC_NO →
      ∃ k ∈ held, k.keycode = (cfg.override p).trigger := by
    intro hno
    simp only [KeyOverride.should_activate, Bool.and_eq_true, Bool.or_eq_true,
      decide_eq_true_eq] at hshould
    obtain (hzero | hdown) | hlast := hshould.2
    · exact absurd hzero hno
    · simp only [KeyOverride.trigger_down, Bool.and_eq_true, decide_eq_true_eq] at hdown
      obtain ⟨k, hk, hkey⟩ := hheld hdown.2
      exact ⟨k, hk, hkey.trans hdown.1.symm⟩
    · rw [← hlast] at hno ⊢
      exact (h.last hno).2
  refine Covered.add_replacement rfl ⟨fun hnone => absurd hnone (by simp),
    fun hdisabled => ?_, hclear.last, fun q hq => ?_, fun hdeferred => ?_, fun out hout => ?_⟩
  · rw [hsame, henabled] at hdisabled
    cases hdisabled
  · obtain rfl : p = q := Option.some.inj hq
    exact ⟨hp, fun _ => htrigger⟩
  · -- with no override active, what is deferred is a trigger
    obtain hreplaces | hreturns := hclear.deferred hdeferred
    · simp [KeyOverride.replaces, hnone] at hreplaces
    · exact Or.inr hreturns
  · obtain hkey | ⟨q, hq, -⟩ := hclear.shows out (shows_of_drop_trigger hout)
    · exact Or.inl hkey
    · rw [hnone] at hq
      cases hq

/-- The first override that is to be activated is; its key is suppressed only
where it was just pressed. -/
theorem Covered.try_activating (h : Covered cfg s held) (hfitting : cfg.Fitting)
    (henabled : s.enabled) (hheld : e.key_down → ∃ k ∈ held, k.keycode = e.keycode)
    {overrides : List Nat} (hsub : ∀ p ∈ overrides, p ∈ cfg.key_overrides) :
    Covered cfg (s.try_activating_override cfg e overrides).2.2 held ∧
      ((s.try_activating_override cfg e overrides).1 = false → e.key_down) := by
  induction overrides with
  | nil => exact ⟨h, by simp [KeyOverride.try_activating_override]⟩
  | cons p overrides ih =>
    unfold KeyOverride.try_activating_override
    split_ifs with hshould
    · refine ⟨h.activate hfitting henabled (hsub p List.mem_cons_self) hshould hheld, ?_⟩
      simp [KeyOverride.trigger_down]
    · exact ih fun q hq => hsub q (List.mem_cons_of_mem p hq)

theorem Covered.deactivate (h : Covered cfg s held) (hfitting : cfg.Fitting) :
    Covered cfg (s.deactivate cfg e) held := by
  unfold KeyOverride.deactivate
  rcases hactive : s.active_override with _ | p
  · exact h
  · have hlifted : Covered cfg { s with active_override_trigger_is_down := false } held :=
      ⟨h.idle, h.disabled, h.last, fun q hq => ⟨(h.active q hq).1, fun hdown => by cases hdown⟩,
        h.deferred, h.shows⟩
    rw [hactive] at hlifted
    dsimp only
    split_ifs
    · exact h.clear hfitting true e.now
    · exact h
    · exact hlifted.clear hfitting false e.now
    · exact h.clear hfitting false e.now
    · exact hlifted
    · exact h

theorem Covered.note_key (h : Covered cfg s held)
    (hheld : e.key_down → ∃ k ∈ held, k.keycode = e.keycode) :
    Covered cfg (s.note_key e) held := by
  unfold KeyOverride.note_key
  split_ifs with hmod hdown hlast
  · exact h
  · have hmod' : is_modifier e.keycode = false := by simpa [Seen.is_mod] using hmod
    exact ⟨h.idle, h.disabled, fun _ => ⟨hmod', hheld hdown⟩, h.active,
      fun hne => absurd rfl hne, h.shows⟩
  · exact ⟨h.idle, h.disabled, fun hne => absurd rfl hne, h.active, fun hne => absurd rfl hne,
      h.shows⟩
  · exact h

theorem enabled_note_key : (s.note_key e).enabled = s.enabled := by
  unfold KeyOverride.note_key
  split_ifs <;> rfl

theorem Covered.process_seen (h : Covered cfg s held) (hfitting : cfg.Fitting)
    (henabled : s.enabled) (hheld : e.key_down → ∃ k ∈ held, k.keycode = e.keycode) :
    Covered cfg (s.process_seen cfg e).2 held ∧
      ((s.process_seen cfg e).1 = false → e.key_down) := by
  have hnote := h.note_key hheld
  have henabled' : (s.note_key e).enabled := enabled_note_key.trans henabled
  unfold KeyOverride.process_seen
  dsimp only
  by_cases hseen : (e.is_mod || e.key_down) = true
  · obtain ⟨htry, hsend⟩ := hnote.try_activating hfitting henabled' hheld fun _ hp => hp
    split_ifs
    · exact ⟨htry, hsend⟩
    · exact ⟨htry.deactivate hfitting, hsend⟩
  · simp only [hseen, Bool.false_eq_true, ↓reduceIte]
    exact ⟨hnote.deactivate hfitting, by simp⟩

theorem Covered.task (h : Covered cfg s held) (hfitting : cfg.Fitting) :
    Covered cfg (s.key_override_task now) held := by
  unfold KeyOverride.key_override_task
  split_ifs with hzero helapsed
  · exact h
  · refine ⟨h.idle, h.disabled, h.last, h.active, fun hne => absurd rfl hne, fun out hout => ?_⟩
    obtain hout | hcode := shows_register_code16.mp hout
    · exact h.shows out hout
    · obtain hreplaces | ⟨⟨k, hk, hkey⟩, p, hp, htrigger, hagain⟩ := h.deferred hzero
      · simp only [KeyOverride.replaces, Option.any_eq_true_iff_get, Bool.and_eq_true,
          decide_eq_true_eq] at hreplaces
        obtain ⟨hsome, hregisters, hreplacement⟩ := hreplaces
        refine Or.inr ⟨s.active_override.get hsome, (Option.some_get hsome).symm, hregisters, ?_⟩
        rw [key_override_t.mod_free_replacement, hreplacement]
        exact hcode
      · have hle : k.keycode ≤ 0x1FFF := by
          rw [hkey, ← htrigger]
          exact (hfitting p hp).1 hagain
        exact Or.inl ⟨k, hk, Key.shows_of_codeShows hle (hkey ▸ hcode)⟩
  · exact h

/-! ## The key of an event -/

theorem Covered.pass_press {k : Key} (h : Covered cfg s held) (hk : k ∈ held) :
    Covered cfg { s with toKeyboard := s.toKeyboard.process_action k true } held := by
  refine ⟨h.idle, h.disabled, h.last, h.active, h.deferred, fun out hout => ?_⟩
  obtain hout | hkey := Keyboard.shows_press.mp hout
  · exact h.shows out hout
  · exact Or.inl ⟨k, hk, hkey⟩

/-- Nothing that key overrides keep is accounted for by a key of this
keycode. -/
structure LetGo (cfg : Config) (s : KeyOverride) (keycode : UInt16) : Prop where
  last : s.last_key_down ≠ 0 → s.last_key_down ≠ keycode
  active : ∀ p, s.active_override = some p → s.active_override_trigger_is_down →
    (cfg.override p).trigger ≠ KC_NO → (cfg.override p).trigger ≠ keycode
  deferred : s.deferred_register ≠ 0 → s.replaces cfg ∨ s.deferred_register ≠ keycode

theorem Covered.pass_release {k : Key} (h : Covered cfg s held) (hgo : LetGo cfg s k.keycode) :
    Covered cfg { s with toKeyboard := s.toKeyboard.process_action k false } (held.erase k) := by
  have hother : ∀ keycode, keycode ≠ k.keycode → (∃ key ∈ held, key.keycode = keycode) →
      ∃ key ∈ held.erase k, key.keycode = keycode := by
    rintro keycode hne ⟨key, hkey, rfl⟩
    refine ⟨key, Finset.mem_erase.mpr ⟨?_, hkey⟩, rfl⟩
    rintro rfl
    exact hne rfl
  refine ⟨h.idle, h.disabled, fun hlast => ?_, fun p hp => ?_, fun hdeferred => ?_,
    fun out hout => ?_⟩
  · obtain ⟨hmod, hheld⟩ := h.last hlast
    exact ⟨hmod, hother _ (hgo.last hlast) hheld⟩
  · obtain ⟨hmem, htrigger⟩ := h.active p hp
    exact ⟨hmem, fun hdown hno => hother _ (hgo.active p hp hdown hno) (htrigger hdown hno)⟩
  · obtain hreplaces | ⟨hheld, hawaits⟩ := h.deferred hdeferred
    · exact Or.inl hreplaces
    · obtain hreplaces | hne := hgo.deferred hdeferred
      · exact Or.inl hreplaces
      · exact Or.inr ⟨hother _ hne hheld, hawaits⟩
  · obtain ⟨hout, hgone⟩ := Keyboard.shows_release.mp hout
    obtain ⟨key, hkey, hshows⟩ | hactive := h.shows out hout
    · refine Or.inl ⟨key, Finset.mem_erase.mpr ⟨?_, hkey⟩, hshows⟩
      rintro rfl
      exact hgone hshows
    · exact Or.inr hactive

theorem Covered.letGo_of_modifier {keycode : UInt16} (h : Covered cfg s held)
    (hmod : is_modifier keycode) : LetGo cfg s keycode := by
  have hne : ∀ other, is_modifier other = false → other ≠ keycode := by
    rintro other hother rfl
    simp [hmod] at hother
  refine ⟨fun hlast => hne _ (h.last hlast).1, fun p hp _ _ => hne _ (cfg.override p).trigger_is_key,
    fun hdeferred => ?_⟩
  obtain hreplaces | ⟨-, p, -, htrigger, -⟩ := h.deferred hdeferred
  · exact Or.inl hreplaces
  · rw [← htrigger]
    exact Or.inr (hne _ (cfg.override p).trigger_is_key)

/-- An override that is cleared at a key takes its deferred registration
along. -/
theorem deferred_clear (hactive : s.active_override = some p) :
    (s.clear_active_override cfg false now).deferred_register = 0 := by
  simp [KeyOverride.clear_active_override, hactive, KeyOverride.reregisters]

/-- What the release of a key leaves does not rest on the key, where what awaits
it is also the last key. -/
theorem letGo_of_release (cfg : Config) (s : KeyOverride) (hmod : e.is_mod = false)
    (hup : e.key_down = false)
    (hlast : e.keycode ≠ KC_NO → s.deferred_register = e.keycode → s.replaces cfg = false →
      s.last_key_down = e.keycode) :
    LetGo cfg ((s.note_key e).deactivate cfg e) e.keycode := by
  have hnote : ((s.note_key e).last_key_down ≠ 0 → (s.note_key e).last_key_down ≠ e.keycode) ∧
      ((s.note_key e).deferred_register ≠ 0 →
        (s.note_key e).replaces cfg ∨ (s.note_key e).deferred_register ≠ e.keycode) := by
    simp only [KeyOverride.note_key, hmod, hup, Bool.false_eq_true, ↓reduceIte]
    split_ifs with hkey
    · exact ⟨fun hne => absurd rfl hne, fun hne => absurd rfl hne⟩
    · refine ⟨fun _ he => hkey he.symm, fun hdeferred => ?_⟩
      by_contra hnone
      simp only [not_or, Bool.not_eq_true, ne_eq, not_not] at hnone
      exact hkey (hlast (hnone.2 ▸ hdeferred) hnone.2 hnone.1).symm
  generalize s.note_key e = s' at hnote
  unfold KeyOverride.deactivate
  rcases hactive : s'.active_override with _ | p
  · exact ⟨hnote.1, fun q hq => (by rw [hactive] at hq; cases hq), hnote.2⟩
  · simp only [hmod, hup, Bool.false_eq_true, ↓reduceIte, Bool.not_false, Bool.and_true,
      Bool.false_and, Bool.or_false, decide_eq_true_eq]
    split_ifs with htrigger
    · refine ⟨fun hne => ?_, fun q hq => ?_, fun hne => ?_⟩
      · rw [(clear_eq cfg _ false e.now).1] at hne ⊢
        exact hnote.1 hne
      · rw [active_clear] at hq
        cases hq
      · exact absurd (deferred_clear (p := p) rfl) hne
    · refine ⟨hnote.1, fun q hq _ _ he => ?_, hnote.2⟩
      obtain rfl : p = q := Option.some.inj (hactive.symm.trans hq)
      exact htrigger he.symm

/-! ## The keys that switch overrides -/

theorem Covered.switch_on (h : Covered cfg s held) : Covered cfg s.key_override_on held :=
  ⟨h.idle, fun hoff => (by cases hoff), h.last, h.active, h.deferred, h.shows⟩

theorem clear_set_enabled (enabled : Bool) :
    { s with enabled }.clear_active_override cfg false now =
      { s.clear_active_override cfg false now with enabled } := by
  unfold KeyOverride.clear_active_override
  rcases hactive : s.active_override with _ | p
  · simp [hactive]
  · simp [KeyOverride.reregisters, KeyOverride.drop_replacement]

theorem Covered.switch_off (h : Covered cfg s held) (hfitting : cfg.Fitting) (now : UInt32) :
    Covered cfg (s.key_override_off cfg now) held := by
  have hclear := h.clear hfitting false now
  have hnone : (s.clear_active_override cfg false now).active_override = none := active_clear _
  rw [KeyOverride.key_override_off, clear_set_enabled]
  exact ⟨hclear.idle, fun _ => hnone, hclear.last, hclear.active, hclear.deferred, hclear.shows⟩

theorem Covered.switch (h : Covered cfg s held) (hfitting : cfg.Fitting) (now : UInt32) :
    Covered cfg (s.key_override_toggle cfg now) held := by
  unfold KeyOverride.key_override_toggle
  split_ifs
  · exact h.switch_off hfitting now
  · exact h.switch_on

end Laws

/-! ## The run -/

namespace Watched

variable {cfg : Config} {w : Watched} {k : Key} {layer : UInt8} {now : UInt32}
  {oneshot_mods : UInt8} {flags : Nat → Bool}

/-- A deferred registration that fires is of a trigger that is held, or is the
replacement of the active override. -/
def Legitimate (cfg : Config) (w : Watched) : Event → Prop
  | .key _ _ _ _ _ _ => True
  | .task now => w.keys.deferred_register ≠ 0 →
    w.keys.defer_delay ≤ now - w.keys.defer_reference_time →
      w.keys.Returns cfg w.held ∨ w.keys.replaces cfg

instance (w : Watched) (e : Event) : Decidable (w.Legitimate cfg e) := by
  unfold Legitimate
  split <;> infer_instance

/-- Once no key but modifiers is held and no override is active, no key is
registered, a modifier only where a held one is, and no modifier is suppressed
or added by an override. -/
def Cleared (w : Watched) : Prop :=
  (∀ k ∈ w.held, is_modifier k.keycode) → w.keys.active_override = none →
    w.keys.registered = ∅ ∧
      (∀ index, w.keys.Shows (.mod index) → ∃ k ∈ w.held, k.Shows (.mod index)) ∧
        w.keys.suppressed_mods = 0 ∧ w.keys.weak_override_mods = 0

/-- A key is pressed when no key is held at its position, and released when it
is held. -/
def Possible (w : Watched) : Event → Prop
  | .key k true _ _ _ _ => ∀ other ∈ w.held, other.position ≠ k.position
  | .key k false _ _ _ _ => k ∈ w.held
  | .task _ => True

instance (w : Watched) (e : Event) : Decidable (w.Possible e) := by
  unfold Possible
  split <;> infer_instance

/-- A key that is released while it is the last key, or while its registration
is deferred as a trigger, is the last key, and overrides are on. -/
def Noted (cfg : Config) (w : Watched) : Event → Prop
  | .key k false _ _ _ _ => k.keycode ≠ KC_NO →
    w.keys.last_key_down = k.keycode ∨
      w.keys.deferred_register = k.keycode ∧ w.keys.replaces cfg = false →
      w.keys.enabled ∧ w.keys.last_key_down = k.keycode
  | _ => True

instance (w : Watched) (e : Event) : Decidable (w.Noted cfg e) := by
  unfold Noted
  split <;> infer_instance

theorem covered_boot (cfg : Config) : Covered cfg boot.keys boot.held := by
  refine ⟨fun _ => ⟨rfl, rfl⟩, fun _ => rfl, fun hne => absurd rfl hne, fun p hp => (by cases hp),
    fun hne => absurd rfl hne, fun out hout => ?_⟩
  cases out with
  | key code => exact absurd hout (Finset.notMem_empty code)
  | mod index => simp [Keyboard.Shows, boot, KeyOverride.boot, Keyboard.boot] at hout

theorem step_key {pressed further : Bool} {s : KeyOverride}
    (h : w.keys.process_key_override cfg k.keycode pressed layer now oneshot_mods flags =
      (further, s)) :
    w.step cfg (.key k pressed layer now oneshot_mods flags) =
      { keys :=
          if further then { s with toKeyboard := s.toKeyboard.process_action k pressed } else s
        held := if pressed then insert k w.held else w.held.erase k } := by
  simp only [step, h]

theorem covered_press (h : Covered cfg w.keys w.held) (hfitting : cfg.Fitting) :
    Covered cfg (w.step cfg (.key k true layer now oneshot_mods flags)).keys
      (w.step cfg (.key k true layer now oneshot_mods flags)).held := by
  have hk : k ∈ insert k w.held := Finset.mem_insert_self k w.held
  have hheld := h.mono (Finset.subset_insert k w.held)
  obtain ⟨further, s, hprocess⟩ : ∃ further s,
      w.keys.process_key_override cfg k.keycode true layer now oneshot_mods flags = (further, s) :=
    ⟨_, _, rfl⟩
  have hcovered : Covered cfg s (insert k w.held) := by
    have hs := congrArg Prod.snd hprocess
    dsimp only at hs
    rw [← hs]
    unfold KeyOverride.process_key_override
    split_ifs with htoggle hon hoff hdisabled
    · exact hheld.switch hfitting now
    · exact hheld.switch_on
    · exact hheld.switch_off hfitting now
    · exact hheld
    · exact (hheld.process_seen hfitting (by simpa using hdisabled) fun _ => ⟨k, hk, rfl⟩).1
  rw [step_key hprocess]
  cases further
  · exact hcovered
  · exact hcovered.pass_press hk

theorem covered_release (h : Covered cfg w.keys w.held) (hfitting : cfg.Fitting)
    (hnoted : w.Noted cfg (.key k false layer now oneshot_mods flags)) :
    Covered cfg (w.step cfg (.key k false layer now oneshot_mods flags)).keys
      (w.step cfg (.key k false layer now oneshot_mods flags)).held := by
  obtain ⟨s, hprocess, hcovered, hgo⟩ : ∃ s,
      w.keys.process_key_override cfg k.keycode false layer now oneshot_mods flags = (true, s) ∧
        Covered cfg s w.held ∧ LetGo cfg s k.keycode := by
    simp only [KeyOverride.process_key_override, Bool.false_eq_true, false_and, ↓reduceIte]
    split_ifs with hdisabled
    · -- nothing is noted, so nothing may rest on the key
      have hdisabled' : w.keys.enabled = false := by simpa using hdisabled
      have hnone := h.disabled hdisabled'
      have hreplaces : w.keys.replaces cfg = false := by simp [KeyOverride.replaces, hnone]
      refine ⟨w.keys, rfl, h, fun hlast he => ?_, fun p hp => ?_, fun hdeferred => Or.inr ?_⟩
      · have hon := (hnoted (he ▸ hlast) (Or.inl he)).1
        simp [hdisabled'] at hon
      · rw [hnone] at hp
        cases hp
      · intro he
        have hon := (hnoted (he ▸ hdeferred) (Or.inr ⟨he, hreplaces⟩)).1
        simp [hdisabled'] at hon
    · have henabled : w.keys.enabled = true := by simpa using hdisabled
      obtain ⟨e, he, hkeycode, hup⟩ : ∃ e : Seen,
          e = ⟨k.keycode, false, layer, now,
            w.keys.effective_mods k.keycode false oneshot_mods, flags⟩ ∧
          e.keycode = k.keycode ∧ e.key_down = false := ⟨_, rfl, rfl, rfl⟩
      rw [← he]
      obtain ⟨hcovered, hsend⟩ := h.process_seen (e := e) hfitting henabled (by simp [hup])
      by_cases hmod : is_modifier k.keycode
      · have hsent : (w.keys.process_seen cfg e).1 = true := by
          by_contra hnot
          simp [hup] at hsend
          exact hnot hsend
        exact ⟨_, Prod.ext hsent rfl, hcovered, hcovered.letGo_of_modifier hmod⟩
      · have hmod' : e.is_mod = false := by simpa [Seen.is_mod, hkeycode] using hmod
        have hseen : w.keys.process_seen cfg e = (true, (w.keys.note_key e).deactivate cfg e) := by
          simp [KeyOverride.process_seen, hmod', hup]
        have hgo := letGo_of_release cfg w.keys hmod' hup fun hno hdeferred hnot =>
          hkeycode ▸ (hnoted (hkeycode ▸ hno) (Or.inr ⟨hkeycode ▸ hdeferred, hnot⟩)).2
        rw [hseen] at hcovered ⊢
        exact ⟨_, rfl, hcovered, hkeycode ▸ hgo⟩
  rw [step_key hprocess]
  exact hcovered.pass_release hgo

theorem covered_step {e : Event} (hfitting : cfg.Fitting) (h : Covered cfg w.keys w.held)
    (hnoted : w.Noted cfg e) :
    Legitimate cfg w e ∧ Covered cfg (w.step cfg e).keys (w.step cfg e).held := by
  match e with
  | .task now =>
    refine ⟨fun hdeferred _ => ?_, h.task hfitting⟩
    obtain hreplaces | ⟨hheld, p, hp, htrigger, -⟩ := h.deferred hdeferred
    · exact Or.inr hreplaces
    · exact Or.inl ⟨hheld, p, hp, htrigger⟩
  | .key k true layer now oneshot_mods flags => exact ⟨trivial, covered_press h hfitting⟩
  | .key k false layer now oneshot_mods flags =>
    exact ⟨trivial, covered_release h hfitting hnoted⟩

theorem action_code_of_modifier (h : is_modifier k.keycode) :
    IS_REPORTED k.action.code = false := by
  have hle : k.keycode.toNat ≤ 0xE7 ∧ 0xE0 ≤ k.keycode.toNat := by
    simp [is_modifier, between, UInt16.le_iff_toNat_le] at h
    omega
  have hbasic : IS_QK_BASIC k.keycode := by
    simp [IS_QK_BASIC, between, UInt16.le_iff_toNat_le]
    omega
  simp only [Key.action, hbasic, ↓reduceIte]
  apply Keyboard.isReported_eq_false_of_isModifier
  simp [IS_MODIFIER_KEYCODE, UInt8.le_iff_toNat_le]
  omega

theorem cleared_of_covered (h : Covered cfg w.keys w.held) : w.Cleared := by
  intro hmods hnone
  have hshows : ∀ out, w.keys.Shows out → ∃ k ∈ w.held, k.Shows out := by
    intro out hout
    refine (h.shows out hout).resolve_right ?_
    rintro ⟨p, hp, -⟩
    rw [hnone] at hp
    cases hp
  refine ⟨?_, fun index => hshows (.mod index), h.idle hnone⟩
  apply Finset.eq_empty_of_forall_notMem
  intro code hcode
  obtain ⟨k, hk, hkey | hkey⟩ := hshows (.key code) hcode
  · exact hkey
  · simp [CodeShows, action_code_of_modifier (hmods k hk)] at hkey

/-- In a run whose releases are all noted, with fitting overrides, a deferred
registration is of a trigger that is held or of the active replacement, and
nothing is left behind. -/
theorem key_overrides_leave_nothing_behind (cfg : Config) (hfitting : cfg.Fitting)
    (es : List Event) (hnoted : Along (step cfg) (Noted cfg) boot es) :
    Along (step cfg) (Legitimate cfg) boot es ∧ (es.foldl (step cfg) boot).Cleared := by
  constructor
  · exact Along.imp (I := fun w => Covered cfg w.keys w.held)
      (fun w e h hnoted => covered_step hfitting h hnoted) (covered_boot cfg) hnoted
  · apply cleared_of_covered
    exact Along.invariant (I := fun w => Covered cfg w.keys w.held)
      (fun w e h hnoted => (covered_step hfitting h hnoted).2) (covered_boot cfg) hnoted

/-! ## Two runs -/

/-- With left Ctrl, X stands for B. The override ends when another key is
pressed, or stays active, and Ctrl is suppressed. -/
def ctrlX (options : UInt8) : key_override_t where
  trigger := 0x001B
  trigger_mods := 0x01
  layers := 0xFFFFFFFF
  negative_mod_mask := 0
  suppressed_mods := 0x01
  replacement := 0x0005
  options := options
  custom_action := none
  enabled := none
  trigger_is_key := by decide

/-- The only override, with an option. -/
def only (options : UInt8) : Config := ⟨[0], fun _ => ctrlX options⟩

def keyX : Key := ⟨0, 0x001B, 0, by decide⟩

def keyC : Key := ⟨1, 0x0006, 0, by decide⟩

def keyCtrl : Key := ⟨2, 0x00E0, 0, by decide⟩

/-- The key X is held, and Ctrl comes and goes; C is tapped meanwhile. -/
def tapWithin : List Event :=
  [(keyX, true, 1000), (keyCtrl, true, 1010), (keyC, true, 1020), (keyC, false, 1030),
    (keyCtrl, false, 1040), (keyX, false, 1050)].map
      (fun (k, pressed, now) => .key k pressed 0 now 0 fun _ => true) ++ [.task 1600]

/-- By default the override ends when C is pressed. -/
theorem a_default_override_leaves_nothing_behind :
    Along (step (only ko_options_all_activations)) (Legitimate (only ko_options_all_activations))
        boot tapWithin ∧
      (tapWithin.foldl (step (only ko_options_all_activations)) boot).Cleared :=
  key_overrides_leave_nothing_behind _ (by decide +kernel) tapWithin (by decide +kernel)

/-- An option keeps the override active, and the key X is registered after its
release. -/
theorem a_trigger_is_registered_after_its_release :
    Along (step (only 0x27)) Possible boot tapWithin ∧
      (tapWithin.foldl (step (only 0x27)) boot).held = ∅ ∧
      ¬ Along (step (only 0x27)) (Legitimate (only 0x27)) boot tapWithin ∧
      ¬ (tapWithin.foldl (step (only 0x27)) boot).Cleared := by
  refine ⟨by decide +kernel, by decide +kernel, by decide +kernel, fun h => ?_⟩
  have hempty := (h (by decide +kernel) (by decide +kernel)).1
  revert hempty
  decide +kernel

end Watched

end keychron_qmk.key_override
