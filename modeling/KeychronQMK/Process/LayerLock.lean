-- The layer lock: `quantum/process_keycode/process_layer_lock.c`,
-- `quantum/layer_lock.c`, and the parts of `process_action` in
-- `quantum/action.c` that handle the layer keys it intercepts.
import KeychronQMK.Keymap.LayerState
import KeychronQMK.Lib.Runs

namespace keychron_qmk.layer_lock

open action_layer bitslice runs

/-! ## The keycodes -/

/-- A set of modifiers: a bit for each. -/
abbrev Mods := BitVec 8

/-- The keycodes of a keymap whose layer keys are `MO`, `TT`, `LT` and `LM`
keys. `LT` and `LM` have room for fewer layers, which makes no difference
here. -/
inductive Keycode where
  | QK_MOMENTARY (layer : Layer)
  | QK_LAYER_TAP_TOGGLE (layer : Layer)
  | QK_LAYER_TAP (layer : Layer) (code : UInt8)
  | QK_LAYER_MOD (layer : Layer) (mods : Mods)
  | QK_LAYER_LOCK
  | basic (code : UInt8)
  deriving DecidableEq

def Keycode.layer? : Keycode → Option Layer
  | QK_MOMENTARY layer | QK_LAYER_TAP_TOGGLE layer | QK_LAYER_TAP layer _
  | QK_LAYER_MOD layer _ => some layer
  | QK_LAYER_LOCK | basic _ => none

/-- `IS_MODIFIER_KEYCODE(code)` gives `MOD_BIT(code)`, other codes give no
modifier. -/
def mods_of (code : UInt8) : Mods :=
  if 0xE0 ≤ code ∧ code ≤ 0xE7 then mask (code &&& 7).toNat else 0

/-! ## The lock -/

structure Lock where
  layer_state : layer_state_t
  locked_layers : layer_state_t
  real_mods : Mods
  deriving DecidableEq

def biton32_turn (bits_n : BitVec 32 × Nat) (k : Nat) : BitVec 32 × Nat :=
  if bits_n.1 >>> k ≠ 0 then (bits_n.1 >>> k, bits_n.2 + k) else bits_n

def biton32 (bits : BitVec 32) : Nat := ([16, 8, 4, 2, 1].foldl biton32_turn (bits, 0)).2

def get_highest_layer (state : layer_state_t) : Nat := biton32 state

namespace Lock

variable (s : Lock)

def layer_on (layer : Nat) : Lock :=
  { s with layer_state := action_layer.layer_on s.layer_state layer }

def layer_off (layer : Nat) : Lock :=
  { s with layer_state := action_layer.layer_off s.layer_state layer }

def layer_invert (layer : Nat) : Lock :=
  { s with layer_state := action_layer.layer_invert s.layer_state layer }

def register_mods (mods : Mods) : Lock := { s with real_mods := s.real_mods ||| mods }

def unregister_mods (mods : Mods) : Lock := { s with real_mods := s.real_mods &&& ~~~mods }

def clear_mods : Lock := { s with real_mods := 0 }

def is_layer_locked (layer : Nat) : Prop := s.locked_layers &&& layer_mask layer ≠ 0

instance (layer : Nat) : Decidable (s.is_layer_locked layer) := inferInstanceAs (Decidable (_ ≠ _))

/-- No OSL key has set a one-shot layer, so there is none to reset. -/
def layer_lock_invert (layer : Nat) : Lock :=
  let s' := if s.is_layer_locked layer then s.layer_off layer else s.layer_on layer
  { s' with locked_layers := s.locked_layers ^^^ layer_mask layer }

def layer_lock_all_off : Lock :=
  { s with layer_state := s.layer_state &&& ~~~s.locked_layers, locked_layers := 0 }

/-- Layers that something else turned off are unlocked. -/
def purge : Lock :=
  if s.locked_layers &&& ~~~s.layer_state ≠ 0 then
    { s with locked_layers := s.locked_layers &&& s.layer_state }
  else s

def handle_mo_or_tt (layer : Nat) (pressed : Bool) : Lock × Bool :=
  if s.is_layer_locked layer then
    (if pressed then s.layer_lock_invert layer else s, false)
  else (s, true)

def process_keycode (keycode : Keycode) (pressed : Bool) (tap_count : Nat) : Lock × Bool :=
  match keycode with
  | .QK_LAYER_LOCK =>
    (if pressed then s.layer_lock_invert (get_highest_layer s.layer_state) else s, false)
  | .QK_MOMENTARY layer => s.handle_mo_or_tt layer pressed
  | .QK_LAYER_TAP_TOGGLE layer => s.handle_mo_or_tt layer pressed
  | .QK_LAYER_MOD layer _ =>
    if s.is_layer_locked layer then
      (if pressed then s.layer_lock_invert layer else s.clear_mods, false)
    else (s, true)
  | .QK_LAYER_TAP layer _ =>
    (s, ¬ (tap_count = 0 ∧ ¬ pressed ∧ s.is_layer_locked layer))
  | .basic _ => (s, true)

def process_layer_lock (keycode : Keycode) (pressed : Bool) (tap_count : Nat) : Lock × Bool :=
  s.purge.process_keycode keycode pressed tap_count

/-- The default handling. A basic code is registered as its modifier, or as a
key, which changes nothing here. -/
def process_action (TAPPING_TOGGLE : Nat) (keycode : Keycode) (pressed : Bool)
    (tap_count : Nat) : Lock :=
  match keycode with
  | .QK_LAYER_LOCK => s
  | .QK_MOMENTARY layer => if pressed then s.layer_on layer else s.layer_off layer
  | .QK_LAYER_TAP_TOGGLE layer =>
    if pressed then
      if tap_count < TAPPING_TOGGLE then s.layer_invert layer else s
    else if tap_count ≤ TAPPING_TOGGLE then s.layer_invert layer else s
  | .QK_LAYER_MOD layer mods =>
    if pressed then (s.layer_on layer).register_mods mods
    else (s.unregister_mods mods).layer_off layer
  | .QK_LAYER_TAP layer code =>
    if pressed then
      if 0 < tap_count then s.register_mods (mods_of code) else s.layer_on layer
    else if 0 < tap_count then s.unregister_mods (mods_of code) else s.layer_off layer
  | .basic code =>
    if pressed then s.register_mods (mods_of code) else s.unregister_mods (mods_of code)

def process_record (TAPPING_TOGGLE : Nat) (keycode : Keycode) (pressed : Bool)
    (tap_count : Nat) : Lock :=
  let (s, handled) := s.process_layer_lock keycode pressed tap_count
  if handled then s.process_action TAPPING_TOGGLE keycode pressed tap_count else s

end Lock

/-! ## Runs -/

/-- A key that is down: the keycode that its press found, the modifiers that
its press registered, and whether its layer has been unlocked since then or
by the press itself. -/
structure Stroke where
  keycode : Keycode
  mods : Mods
  unlocked : Bool
  deriving DecidableEq

structure Keys where
  lock : Lock
  held : Nat → Option Stroke

def Keys.zero : Keys := ⟨⟨0, 0, 0⟩, fun _ => none⟩

/-- The keycode of a press is the one that the keymap has for the key on the
layers that are on. -/
inductive Event where
  | press (key : Nat) (keycode : Keycode) (tap_count : Nat)
  | release (key : Nat) (tap_count : Nat)
  | idle_timeout
  deriving DecidableEq

def unlocks (s s' : Lock) (layer : Layer) : Prop :=
  IsOn s.locked_layers layer ∧ ¬ IsOn s'.locked_layers layer

instance (s s' : Lock) (layer : Layer) : Decidable (unlocks s s' layer) :=
  inferInstanceAs (Decidable (_ ∧ ¬ _))

def Stroke.note (s s' : Lock) (stroke : Stroke) : Stroke :=
  match stroke.keycode.layer? with
  | some layer => { stroke with unlocked := stroke.unlocked ∨ unlocks s s' layer }
  | none => stroke

def registered (s : Lock) (keycode : Keycode) (tap_count : Nat) : Mods :=
  match keycode with
  | .QK_LAYER_MOD layer mods => if s.purge.is_layer_locked layer then 0 else mods
  | .QK_LAYER_TAP _ code => if 0 < tap_count then mods_of code else 0
  | .basic code => mods_of code
  | _ => 0

/-- Only a key that is up goes down, and only a key that is down comes up,
with the keycode of its press. -/
def step (TAPPING_TOGGLE : Nat) (s : Keys) : Event → Keys
  | .press key keycode tap_count =>
    if s.held key = none then
      let lock := s.lock.process_record TAPPING_TOGGLE keycode true tap_count
      let stroke : Stroke := ⟨keycode, registered s.lock keycode tap_count, false⟩
      ⟨lock, fun k => ((Function.update s.held key (some stroke)) k).map (·.note s.lock lock)⟩
    else s
  | .release key tap_count =>
    match s.held key with
    | none => s
    | some stroke =>
      let lock := s.lock.process_record TAPPING_TOGGLE stroke.keycode false tap_count
      ⟨lock, fun k => ((Function.update s.held key none) k).map (·.note s.lock lock)⟩
  | .idle_timeout =>
    let lock := s.lock.layer_lock_all_off
    ⟨lock, fun k => (s.held k).map (·.note s.lock lock)⟩

def run (TAPPING_TOGGLE : Nat) (events : List Event) : Keys :=
  events.foldl (step TAPPING_TOGGLE) .zero

/-! ## What the lock promises -/

def LockedOn (s : Lock) : Prop := ∀ l : Layer, IsOn s.locked_layers l → IsOn s.layer_state l

def TurnsOn (TAPPING_TOGGLE : Nat) (l : Layer) (s : Keys) (event : Event) : Prop :=
  ¬ IsOn s.lock.layer_state l ∧ IsOn (step TAPPING_TOGGLE s event).lock.layer_state l

/-- The event comes from a key that may turn the layer on: from the press of
`QK_LAYER_LOCK` or of a key of the layer, or from the release of such a key
when `releases` allows it. -/
def MayTurnOn (releases : Stroke → Prop) (l : Layer) (s : Keys) : Event → Prop
  | .press _ keycode _ => keycode = .QK_LAYER_LOCK ∨ keycode.layer? = some l
  | .release key _ =>
    ∃ stroke, s.held key = some stroke ∧ stroke.keycode.layer? = some l ∧ releases stroke
  | .idle_timeout => False

/-! ## One event -/

namespace Lock

variable {s : Lock}

theorem purge_of_lockedOn (h : LockedOn s) : s.purge = s := by
  unfold purge
  rw [if_neg]
  rw [not_not, eq_zero_iff]
  intro l hl
  obtain ⟨hlocked, hoff⟩ := (isOn_and _ _ _).mp hl
  exact (isOn_not _ _).mp hoff (h l hlocked)

theorem is_layer_locked_iff (l : Layer) : s.is_layer_locked l ↔ IsOn s.locked_layers l := by
  constructor
  · intro h
    by_contra hoff
    apply h
    rw [eq_zero_iff]
    intro k hk
    obtain ⟨hlocked, hmask⟩ := (isOn_and _ _ _).mp hk
    rw [isOn_layer_mask] at hmask
    exact hoff (Fin.ext hmask ▸ hlocked)
  · intro h hzero
    exact (eq_zero_iff _).mp hzero l ((isOn_and _ _ _).mpr ⟨h, (isOn_layer_mask _ _).mpr rfl⟩)

/-- What an event may do to the layers: locked layers stay on, a layer that is
unlocked is off, and only layers of `may` are turned on. -/
structure Sound (may : Layer → Prop) (s s' : Lock) : Prop where
  lockedOn : LockedOn s'
  unlocked_off : ∀ l, unlocks s s' l → ¬ IsOn s'.layer_state l
  turned_on : ∀ l, ¬ IsOn s.layer_state l → IsOn s'.layer_state l → may l

section

variable {may : Layer → Prop}

theorem Sound.same (h : LockedOn s) : Sound may s s :=
  ⟨h, fun _ hu => absurd hu.1 hu.2, fun _ hoff hon => absurd hon hoff⟩

theorem Sound.with_mods {s' : Lock} (h : Sound may s s') (mods : Mods) :
    Sound may s { s' with real_mods := mods } :=
  ⟨h.lockedOn, h.unlocked_off, h.turned_on⟩

variable {layer : Layer}

theorem Sound.layer_on (h : LockedOn s) (hmay : may layer) : Sound may s (s.layer_on layer) := by
  refine ⟨fun l hl => ?_, fun l hu => absurd hu.1 hu.2, fun l hoff hon => ?_⟩
  · exact (isOn_layer_on _ _ _).mpr (.inr (h l hl))
  · rcases (isOn_layer_on _ _ _).mp hon with hl | hon
    · rwa [Fin.ext hl]
    · exact absurd hon hoff

theorem Sound.layer_off (h : LockedOn s) (hfree : ¬ IsOn s.locked_layers layer) :
    Sound may s (s.layer_off layer) := by
  refine ⟨fun l hl => ?_, fun l hu => absurd hu.1 hu.2, fun l hoff hon => ?_⟩
  · refine (isOn_layer_off _ _ _).mpr ⟨fun hlayer => hfree ?_, h l hl⟩
    rwa [← Fin.ext hlayer]
  · exact absurd ((isOn_layer_off _ _ _).mp hon).2 hoff

theorem Sound.layer_invert (h : LockedOn s) (hfree : ¬ IsOn s.locked_layers layer)
    (hmay : may layer) : Sound may s (s.layer_invert layer) := by
  refine ⟨fun l hl => ?_, fun l hu => absurd hu.1 hu.2, fun l hoff hon => ?_⟩
  · have hne : (l : Nat) ≠ layer := fun hlayer => hfree (Fin.ext hlayer ▸ hl)
    refine (isOn_layer_invert _ _ _).mpr ?_
    rw [if_neg hne]
    exact h l hl
  · have hon := (isOn_layer_invert _ _ _).mp hon
    split at hon
    · rename_i hl
      rwa [Fin.ext hl]
    · exact absurd hon hoff

theorem Sound.layer_lock_invert (h : LockedOn s) {layer : Nat}
    (hmay : ∀ l : Layer, (l : Nat) = layer → may l) :
    Sound may s (s.layer_lock_invert layer) := by
  have hlocked : ∀ l, IsOn (s.layer_lock_invert layer).locked_layers l ↔
      if (l : Nat) = layer then ¬ IsOn s.locked_layers l else IsOn s.locked_layers l :=
    fun l => isOn_layer_invert s.locked_layers layer l
  have hon : ∀ l, IsOn (s.layer_lock_invert layer).layer_state l ↔
      if (l : Nat) = layer then ¬ IsOn s.locked_layers l else IsOn s.layer_state l := by
    intro l
    unfold Lock.layer_lock_invert
    by_cases hl : (l : Nat) = layer
    · rw [if_pos hl, ← is_layer_locked_iff, hl]
      split
      · rename_i hlock
        simp [Lock.layer_off, hl, hlock]
      · rename_i hfree
        simp [Lock.layer_on, hl, hfree]
    · rw [if_neg hl]
      split
      · simp [Lock.layer_off, hl]
      · simp [Lock.layer_on, hl]
  refine ⟨fun l hl => ?_, fun l hu => ?_, fun l hoff hnow => ?_⟩
  · rw [hlocked] at hl
    rw [hon]
    split at hl
    · rename_i hlayer
      rwa [if_pos hlayer]
    · rename_i hlayer
      rw [if_neg hlayer]
      exact h l hl
  · obtain ⟨hbefore, hafter⟩ := hu
    rw [hlocked] at hafter
    rw [hon]
    split at hafter
    · rename_i hlayer
      rwa [if_pos hlayer]
    · exact absurd hbefore hafter
  · rw [hon] at hnow
    split at hnow
    · rename_i hlayer
      exact hmay l hlayer
    · exact absurd hnow hoff

theorem Sound.layer_lock_all_off : Sound may s s.layer_lock_all_off := by
  refine ⟨fun l hl => absurd hl (not_isOn_zero l), fun l hu hon => ?_, fun l hoff hon => ?_⟩
  · exact (isOn_not _ _).mp ((isOn_and _ _ _).mp hon).2 hu.1
  · exact absurd ((isOn_and _ _ _).mp hon).1 hoff

end

def MayKey (keycode : Keycode) (pressed : Bool) (l : Layer) : Prop :=
  (pressed = true ∧ (keycode = .QK_LAYER_LOCK ∨ keycode.layer? = some l)) ∨
    keycode = .QK_LAYER_TAP_TOGGLE l

section

variable {TAPPING_TOGGLE : Nat} {keycode : Keycode} {pressed : Bool} {tap_count : Nat}

theorem process_record_handled (h : LockedOn s) {s' : Lock}
    (hkey : s.process_keycode keycode pressed tap_count = (s', false)) :
    s.process_record TAPPING_TOGGLE keycode pressed tap_count = s' := by
  unfold process_record process_layer_lock
  rw [purge_of_lockedOn h]
  simp [hkey]

theorem process_record_default (h : LockedOn s)
    (hkey : s.process_keycode keycode pressed tap_count = (s, true)) :
    s.process_record TAPPING_TOGGLE keycode pressed tap_count =
      s.process_action TAPPING_TOGGLE keycode pressed tap_count := by
  unfold process_record process_layer_lock
  rw [purge_of_lockedOn h]
  simp [hkey]

/-- The lock handles the keys of a locked layer, but for an `LT` key that is
pressed or that ends a tap. -/
theorem process_keycode_locked {layer : Layer} (hkey : keycode.layer? = some layer)
    (hlock : s.is_layer_locked layer) (htap : ∀ code, keycode ≠ .QK_LAYER_TAP layer code) :
    s.process_keycode keycode pressed tap_count = (if pressed then s.layer_lock_invert layer
      else if ∃ mods, keycode = .QK_LAYER_MOD layer mods then s.clear_mods else s, false) := by
  cases keycode with
  | QK_LAYER_LOCK => cases hkey
  | basic code => cases hkey
  | QK_MOMENTARY l =>
    obtain rfl := Option.some.inj hkey
    simp [process_keycode, handle_mo_or_tt, hlock]
  | QK_LAYER_TAP_TOGGLE l =>
    obtain rfl := Option.some.inj hkey
    simp [process_keycode, handle_mo_or_tt, hlock]
  | QK_LAYER_MOD l mods =>
    obtain rfl := Option.some.inj hkey
    simp [process_keycode, hlock]
  | QK_LAYER_TAP l code =>
    obtain rfl := Option.some.inj hkey
    exact absurd rfl (htap code)

theorem process_keycode_free {layer : Layer} (hkey : keycode.layer? = some layer)
    (hfree : ¬ s.is_layer_locked layer) :
    s.process_keycode keycode pressed tap_count = (s, true) := by
  cases keycode with
  | QK_LAYER_LOCK => cases hkey
  | basic code => cases hkey
  | QK_MOMENTARY l | QK_LAYER_TAP_TOGGLE l =>
    obtain rfl := Option.some.inj hkey
    simp [process_keycode, handle_mo_or_tt, hfree]
  | QK_LAYER_MOD l mods | QK_LAYER_TAP l code =>
    obtain rfl := Option.some.inj hkey
    simp [process_keycode, hfree]

end

/-- The default handling of the key of a layer that is not locked. -/
theorem sound_process_action (h : LockedOn s) (TAPPING_TOGGLE : Nat) {keycode : Keycode}
    (pressed : Bool) (tap_count : Nat) {layer : Layer} (hkey : keycode.layer? = some layer)
    (hfree : ¬ s.is_layer_locked layer) : Sound (MayKey keycode pressed) s
      (s.process_action TAPPING_TOGGLE keycode pressed tap_count) := by
  rw [is_layer_locked_iff] at hfree
  cases keycode with
  | QK_LAYER_LOCK => cases hkey
  | basic code => cases hkey
  | QK_MOMENTARY l =>
    obtain rfl := Option.some.inj hkey
    cases pressed with
    | false => exact Sound.layer_off h hfree
    | true => exact Sound.layer_on h (.inl ⟨rfl, .inr rfl⟩)
  | QK_LAYER_TAP_TOGGLE l =>
    obtain rfl := Option.some.inj hkey
    unfold process_action
    dsimp only
    split_ifs
    · exact Sound.layer_invert h hfree (.inr rfl)
    · exact Sound.same h
    · exact Sound.layer_invert h hfree (.inr rfl)
    · exact Sound.same h
  | QK_LAYER_MOD l mods =>
    obtain rfl := Option.some.inj hkey
    cases pressed with
    | false => exact (Sound.layer_off h hfree).with_mods _
    | true => exact (Sound.layer_on h (.inl ⟨rfl, .inr rfl⟩)).with_mods _
  | QK_LAYER_TAP l code =>
    obtain rfl := Option.some.inj hkey
    unfold process_action
    dsimp only
    split_ifs with hpressed
    · exact (Sound.same h).with_mods _
    · exact Sound.layer_on h (.inl ⟨hpressed, .inr rfl⟩)
    · exact (Sound.same h).with_mods _
    · exact Sound.layer_off h hfree

theorem sound_locked_layer_tap (h : LockedOn s) (TAPPING_TOGGLE : Nat) {layer : Layer}
    (code : UInt8) (pressed : Bool) (tap_count : Nat) (hlock : s.is_layer_locked layer) :
    Sound (MayKey (.QK_LAYER_TAP layer code) pressed) s
      (s.process_record TAPPING_TOGGLE (.QK_LAYER_TAP layer code) pressed tap_count) := by
  by_cases hskip : tap_count = 0 ∧ ¬ pressed
  · have hkey : s.process_keycode (.QK_LAYER_TAP layer code) pressed tap_count = (s, false) := by
      simp [process_keycode, hskip, hlock]
    rw [process_record_handled h hkey]
    exact Sound.same h
  · have hkey : s.process_keycode (.QK_LAYER_TAP layer code) pressed tap_count = (s, true) := by
      simp only [process_keycode, hlock, and_true, hskip, not_false_eq_true, decide_true]
    rw [process_record_default h hkey]
    unfold process_action
    dsimp only
    split_ifs with hpressed htap htap
    · exact (Sound.same h).with_mods _
    · exact Sound.layer_on h (.inl ⟨hpressed, .inr rfl⟩)
    · exact (Sound.same h).with_mods _
    · exact absurd ⟨Nat.eq_zero_of_not_pos htap, hpressed⟩ hskip

theorem sound_process_record (h : LockedOn s) (TAPPING_TOGGLE : Nat) (keycode : Keycode)
    (pressed : Bool) (tap_count : Nat) : Sound (MayKey keycode pressed) s
      (s.process_record TAPPING_TOGGLE keycode pressed tap_count) := by
  cases hkey : keycode.layer? with
  | none =>
    cases keycode with
    | QK_LAYER_LOCK =>
      rw [process_record_handled h rfl]
      cases pressed with
      | false => exact Sound.same h
      | true => exact Sound.layer_lock_invert h fun l _ => .inl ⟨rfl, .inl rfl⟩
    | basic code =>
      rw [process_record_default h rfl]
      cases pressed with
      | false => exact (Sound.same h).with_mods _
      | true => exact (Sound.same h).with_mods _
    | QK_MOMENTARY l | QK_LAYER_TAP_TOGGLE l | QK_LAYER_MOD l mods | QK_LAYER_TAP l code =>
      cases hkey
  | some layer =>
    by_cases hlock : s.is_layer_locked layer
    · by_cases htap : ∃ code, keycode = .QK_LAYER_TAP layer code
      · obtain ⟨code, rfl⟩ := htap
        exact sound_locked_layer_tap h TAPPING_TOGGLE code pressed tap_count hlock
      · rw [process_record_handled h (process_keycode_locked hkey hlock (not_exists.mp htap))]
        split_ifs with hpressed
        · refine Sound.layer_lock_invert h fun l hl => .inl ⟨hpressed, .inr ?_⟩
          rw [hkey, Fin.ext hl]
        · exact (Sound.same h).with_mods _
        · exact Sound.same h
    · rw [process_record_default h (process_keycode_free hkey hlock)]
      exact sound_process_action h TAPPING_TOGGLE pressed tap_count hkey hlock

/-! ## The modifiers of one event -/

/-- The modifiers that the release of a key unregisters, whoever registered
them: all keys that hold a modifier share its bit. -/
def own_mods (keycode : Keycode) (pressed : Bool) (tap_count : Nat) : Mods :=
  match keycode with
  | .QK_LAYER_MOD _ mods => if pressed then 0 else mods
  | .QK_LAYER_TAP _ code => if ¬ pressed ∧ 0 < tap_count then mods_of code else 0
  | _ => 0

/-- The release of an `LM` key whose layer is locked: it clears all modifiers. -/
def clears_mods (s : Lock) (keycode : Keycode) (pressed : Bool) : Prop :=
  pressed = false ∧ ∃ layer mods, keycode = .QK_LAYER_MOD layer mods ∧ s.is_layer_locked layer

section

variable {TAPPING_TOGGLE : Nat} {keycode : Keycode} {pressed : Bool} {tap_count : Nat} {bit : Nat}

theorem register_kept (hbit : s.real_mods.getLsbD bit = true) (mods : Mods) :
    (s.register_mods mods).real_mods.getLsbD bit = true := by
  unfold register_mods
  rw [BitVec.getLsbD_or, hbit, Bool.true_or]

theorem unregister_kept (hbit : s.real_mods.getLsbD bit = true) {mods : Mods}
    (hown : mods.getLsbD bit = false) : (s.unregister_mods mods).real_mods.getLsbD bit = true := by
  have hlt := BitVec.lt_of_getLsbD hbit
  unfold unregister_mods
  rw [BitVec.getLsbD_and, BitVec.getLsbD_not, hbit, hown]
  simp [hlt]

theorem process_action_kept (hkey : ∀ code, keycode ≠ .basic code)
    (hbit : s.real_mods.getLsbD bit = true)
    (hown : (own_mods keycode pressed tap_count).getLsbD bit = false) :
    (s.process_action TAPPING_TOGGLE keycode pressed tap_count).real_mods.getLsbD bit = true := by
  cases keycode with
  | QK_LAYER_LOCK => exact hbit
  | basic code => exact absurd rfl (hkey code)
  | QK_MOMENTARY l =>
    unfold process_action
    dsimp only
    split
    · exact hbit
    · exact hbit
  | QK_LAYER_TAP_TOGGLE l =>
    unfold process_action
    split_ifs <;> exact hbit
  | QK_LAYER_MOD l mods =>
    cases pressed with
    | true => exact register_kept hbit mods
    | false => exact unregister_kept hbit hown
  | QK_LAYER_TAP l code =>
    unfold process_action
    unfold own_mods at hown
    dsimp only at hown ⊢
    by_cases hpressed : pressed
    · rw [if_pos hpressed]
      split
      · exact register_kept hbit _
      · exact hbit
    · rw [if_neg hpressed]
      split
      · rename_i htap
        rw [if_pos ⟨hpressed, htap⟩] at hown
        exact unregister_kept hbit hown
      · exact hbit

/-- No modifier is lost but for the key's own. -/
theorem mods_kept (h : LockedOn s) (hkey : ∀ code, keycode ≠ .basic code)
    (hclear : ¬ s.clears_mods keycode pressed) (hbit : s.real_mods.getLsbD bit = true)
    (hown : (own_mods keycode pressed tap_count).getLsbD bit = false) :
    (s.process_record TAPPING_TOGGLE keycode pressed tap_count).real_mods.getLsbD bit = true := by
  have hinvert : ∀ layer, (s.layer_lock_invert layer).real_mods = s.real_mods := by
    intro layer
    unfold layer_lock_invert
    split <;> rfl
  cases hlayer : keycode.layer? with
  | none =>
    cases keycode with
    | QK_LAYER_LOCK =>
      rw [process_record_handled h rfl]
      split
      · rw [hinvert, hbit]
      · exact hbit
    | basic code => exact absurd rfl (hkey code)
    | QK_MOMENTARY l | QK_LAYER_TAP_TOGGLE l | QK_LAYER_MOD l mods | QK_LAYER_TAP l code =>
      cases hlayer
  | some layer =>
    by_cases hlock : s.is_layer_locked layer
    · by_cases htap : ∃ code, keycode = .QK_LAYER_TAP layer code
      · obtain ⟨code, rfl⟩ := htap
        cases hhandled : (s.process_keycode (.QK_LAYER_TAP layer code) pressed tap_count).2 with
        | false =>
          rw [process_record_handled h (Prod.ext rfl hhandled)]
          exact hbit
        | true =>
          rw [process_record_default h (Prod.ext rfl hhandled)]
          exact process_action_kept hkey hbit hown
      · rw [process_record_handled h (process_keycode_locked hlayer hlock (not_exists.mp htap))]
        split_ifs with hpressed hmods
        · rw [hinvert, hbit]
        · obtain ⟨mods, hmods⟩ := hmods
          exact absurd ⟨by simpa using hpressed, layer, mods, hmods, hlock⟩ hclear
        · exact hbit
    · rw [process_record_default h (process_keycode_free hlayer hlock)]
      exact process_action_kept hkey hbit hown

end

end Lock

/-! ## Runs -/

/-- The event handed to the lock: the keycode, and whether it is pressed. -/
def Keys.record? (s : Keys) : Event → Option (Keycode × Bool × Nat)
  | .press key keycode tap_count =>
    if s.held key = none then some (keycode, true, tap_count) else none
  | .release key tap_count => (s.held key).map fun stroke => (stroke.keycode, false, tap_count)
  | .idle_timeout => none

section

variable {TAPPING_TOGGLE : Nat}

theorem step_lock (s : Keys) (event : Event) :
    (∃ keycode pressed tap_count, s.record? event = some (keycode, pressed, tap_count) ∧
      (step TAPPING_TOGGLE s event).lock =
        s.lock.process_record TAPPING_TOGGLE keycode pressed tap_count) ∨
    (s.record? event = none ∧ event = .idle_timeout ∧
      (step TAPPING_TOGGLE s event).lock = s.lock.layer_lock_all_off) ∨
    (s.record? event = none ∧ (step TAPPING_TOGGLE s event).lock = s.lock) := by
  cases event with
  | press key keycode tap_count =>
    by_cases hup : s.held key = none
    · exact .inl ⟨keycode, true, tap_count, by simp [Keys.record?, hup], by simp [step, hup]⟩
    · exact .inr (.inr ⟨by simp [Keys.record?, hup], by simp [step, hup]⟩)
  | release key tap_count =>
    cases hdown : s.held key with
    | none => exact .inr (.inr ⟨by simp [Keys.record?, hdown], by simp [step, hdown]⟩)
    | some stroke =>
      exact .inl ⟨stroke.keycode, false, tap_count, by simp [Keys.record?, hdown],
        by simp [step, hdown]⟩
  | idle_timeout => exact .inr (.inl ⟨rfl, rfl, rfl⟩)

def MayEvent (s : Keys) (event : Event) (l : Layer) : Prop :=
  ∃ keycode pressed tap_count, s.record? event = some (keycode, pressed, tap_count) ∧
    Lock.MayKey keycode pressed l

variable {s : Keys}

theorem sound_step (h : LockedOn s.lock) (event : Event) :
    Lock.Sound (MayEvent s event) s.lock (step TAPPING_TOGGLE s event).lock := by
  rcases step_lock s event with ⟨keycode, pressed, tap_count, hrecord, hlock⟩ | ⟨-, -, hlock⟩ |
    ⟨-, hlock⟩
  · rw [hlock]
    have hsound := Lock.sound_process_record h TAPPING_TOGGLE keycode pressed tap_count
    exact ⟨hsound.lockedOn, hsound.unlocked_off, fun l hoff hon =>
      ⟨keycode, pressed, tap_count, hrecord, hsound.turned_on l hoff hon⟩⟩
  · rw [hlock]
    exact Lock.Sound.layer_lock_all_off
  · rw [hlock]
    exact Lock.Sound.same h

theorem lockedOn_foldl (h : LockedOn s.lock) (events : List Event) :
    LockedOn (events.foldl (step TAPPING_TOGGLE) s).lock := by
  induction events generalizing s with
  | nil => exact h
  | cons event events ih => exact ih (sound_step h event).lockedOn

theorem lockedOn_run (events : List Event) : LockedOn (run TAPPING_TOGGLE events).lock :=
  lockedOn_foldl (fun l hl => absurd hl (not_isOn_zero l)) events

/-- The release of a `TT` key. -/
def IsToggle (l : Layer) (stroke : Stroke) : Prop := stroke.keycode = .QK_LAYER_TAP_TOGGLE l

theorem mayTurnOn_of_mayEvent {event : Event} {l : Layer} (h : MayEvent s event l) :
    MayTurnOn (IsToggle l) l s event := by
  obtain ⟨keycode, pressed, tap_count, hrecord, hmay⟩ := h
  cases event with
  | press key keycode' tap_count' =>
    unfold Keys.record? at hrecord
    dsimp only at hrecord
    split at hrecord
    · obtain ⟨rfl, rfl, rfl⟩ := Option.some.inj hrecord
      rcases hmay with ⟨-, hmay⟩ | rfl
      · exact hmay
      · exact .inr rfl
    · cases hrecord
  | release key tap_count' =>
    obtain ⟨stroke, hdown, hstroke⟩ := Option.map_eq_some_iff.mp hrecord
    obtain ⟨rfl, rfl, rfl⟩ := hstroke
    rcases hmay with ⟨hpressed, -⟩ | htoggle
    · cases hpressed
    · exact ⟨stroke, hdown, by rw [htoggle]; rfl, htoggle⟩
  | idle_timeout => cases hrecord

theorem stays_off (h : LockedOn s.lock) {l : Layer} (hoff : ¬ IsOn s.lock.layer_state l)
    {events : List Event}
    (hnone : Along (step TAPPING_TOGGLE) (fun s event => MayTurnOn (IsToggle l) l s event →
      ¬ TurnsOn TAPPING_TOGGLE l s event) s events) :
    ¬ IsOn (events.foldl (step TAPPING_TOGGLE) s).lock.layer_state l := by
  induction events generalizing s with
  | nil => exact hoff
  | cons event events ih =>
    obtain ⟨hevent, hrest⟩ := hnone
    have hsound : Lock.Sound _ s.lock (step TAPPING_TOGGLE s event).lock := sound_step h event
    refine ih hsound.lockedOn (fun hon => ?_) hrest
    exact hevent (mayTurnOn_of_mayEvent (hsound.turned_on l hoff hon)) ⟨hoff, hon⟩

theorem run_append (before : List Event) (event : Event) (after : List Event) :
    run TAPPING_TOGGLE (before ++ event :: after) =
      after.foldl (step TAPPING_TOGGLE) (run TAPPING_TOGGLE (before ++ [event])) := by
  simp [run]

theorem run_concat (events : List Event) (event : Event) :
    run TAPPING_TOGGLE (events ++ [event]) =
      step TAPPING_TOGGLE (run TAPPING_TOGGLE events) event := by
  simp [run]

end

/-- After every event each locked layer is on; a layer that is unlocked is
off, and stays off until its key, the release of its `TT` key or
`QK_LAYER_LOCK` turns it on; and no event of a layer key or of
`QK_LAYER_LOCK` removes a modifier but for the key's own, where the release of
the `LM` key of a locked layer is left out. -/
theorem the_lock_holds_its_layers (TAPPING_TOGGLE : Nat) :
    (∀ events, LockedOn (run TAPPING_TOGGLE events).lock) ∧
    (∀ before event after l,
      unlocks (run TAPPING_TOGGLE before).lock (run TAPPING_TOGGLE (before ++ [event])).lock l →
      Along (step TAPPING_TOGGLE) (fun s event => MayTurnOn (IsToggle l) l s event →
        ¬ TurnsOn TAPPING_TOGGLE l s event) (run TAPPING_TOGGLE (before ++ [event])) after →
      ¬ IsOn (run TAPPING_TOGGLE (before ++ event :: after)).lock.layer_state l) ∧
    (∀ events event keycode pressed tap_count bit,
      (run TAPPING_TOGGLE events).record? event = some (keycode, pressed, tap_count) →
      (∀ code, keycode ≠ .basic code) →
      ¬ (run TAPPING_TOGGLE events).lock.clears_mods keycode pressed →
      (run TAPPING_TOGGLE events).lock.real_mods.getLsbD bit = true →
      (Lock.own_mods keycode pressed tap_count).getLsbD bit = false →
      (run TAPPING_TOGGLE (events ++ [event])).lock.real_mods.getLsbD bit = true) := by
  refine ⟨lockedOn_run, fun before event after l hunlock hnone => ?_,
    fun events event keycode pressed tap_count bit hrecord hkey hclear hbit hown => ?_⟩
  · rw [run_append]
    refine stays_off (lockedOn_run _) ?_ hnone
    rw [run_concat] at hunlock ⊢
    exact (sound_step (lockedOn_run before) event).unlocked_off l hunlock
  · rw [run_concat]
    rcases step_lock (run TAPPING_TOGGLE events) event with ⟨_, _, _, hrecord', hlock⟩ |
      ⟨hnone, -, -⟩ | ⟨hnone, -⟩
    · obtain ⟨rfl, rfl, rfl⟩ := Option.some.inj (hrecord.symm.trans hrecord')
      rw [hlock]
      exact Lock.mods_kept (lockedOn_run events) hkey hclear hbit hown
    · cases hrecord.symm.trans hnone
    · cases hrecord.symm.trans hnone

/-! ## Where it breaks -/

def Event.key? : Event → Option Nat
  | .press key _ _ | .release key _ => some key
  | .idle_timeout => none

def OneKeyEach (keyOf : Layer → Nat × Keycode) (events : List Event) : Prop :=
  ∀ key keycode tap_count l, .press key keycode tap_count ∈ events →
    keycode.layer? = some l → keyOf l = (key, keycode)

/-- A layer that was unlocked is off once its key is up, until a key turns it
on again: with a press, or with the release of a stroke that began after the
unlocking. -/
def OffOnceReleased (TAPPING_TOGGLE : Nat) : Prop :=
  ∀ keyOf before event after l, OneKeyEach keyOf (before ++ event :: after) →
    unlocks (run TAPPING_TOGGLE before).lock (run TAPPING_TOGGLE (before ++ [event])).lock l →
    Along (step TAPPING_TOGGLE) (fun s event => MayTurnOn (fun stroke => stroke.unlocked = false)
      l s event → ¬ TurnsOn TAPPING_TOGGLE l s event)
      (run TAPPING_TOGGLE (before ++ [event])) after →
    (∀ key stroke, (run TAPPING_TOGGLE (before ++ event :: after)).held key = some stroke →
      stroke.keycode.layer? ≠ some l) →
    ¬ IsOn (run TAPPING_TOGGLE (before ++ event :: after)).lock.layer_state l

/-- An event of a layer key or of `QK_LAYER_LOCK` removes no modifier that
another key holds. -/
def HeldModsKept (TAPPING_TOGGLE : Nat) : Prop :=
  ∀ keyOf events event keycode pressed tap_count key stroke bit,
    OneKeyEach keyOf (events ++ [event]) →
    (run TAPPING_TOGGLE events).record? event = some (keycode, pressed, tap_count) →
    (∀ code, keycode ≠ .basic code) → event.key? ≠ some key →
    (run TAPPING_TOGGLE events).held key = some stroke → stroke.mods.getLsbD bit = true →
    (run TAPPING_TOGGLE events).lock.real_mods.getLsbD bit = true →
    (run TAPPING_TOGGLE (events ++ [event])).lock.real_mods.getLsbD bit = true

/-- The press that unlocks the layer of a `TT` key is handled, its release
inverts the layer again; and an `LM` key takes its modifier away from a key
that still holds it. -/
theorem a_tap_toggle_turns_on_again_and_a_modifier_is_lost :
    ¬ OffOnceReleased 5 ∧ ¬ HeldModsKept 5 := by
  constructor
  · intro h
    let tt : Keycode := .QK_LAYER_TAP_TOGGLE 1
    let before : List Event :=
      [.press 1 tt 0, .press 2 .QK_LAYER_LOCK 0, .release 2 0, .release 1 0]
    refine h (fun _ => (1, tt)) before (.press 1 tt 0) [.release 1 0] 1 ?_ (by decide +kernel)
      ⟨?_, trivial⟩ ?_ (by decide +kernel)
    · intro key keycode tap_count l hmem hlayer
      simp [before, tt] at hmem
      rcases hmem with ⟨rfl, rfl, -⟩ | ⟨-, rfl, -⟩ | ⟨rfl, rfl, -⟩
      · rfl
      · cases hlayer
      · rfl
    · rintro ⟨stroke, hheld, -, hfresh⟩
      have hunlocked : ((run 5 (before ++ [.press 1 tt 0])).held 1).map (·.unlocked) =
          some true := by
        decide +kernel
      rw [hheld, Option.map_some, hfresh] at hunlocked
      cases hunlocked
    · intro key stroke hheld
      rcases key with _ | _ | _ | key
      all_goals simp [run, step, before, Keys.zero, Function.update] at hheld
  · intro h
    let lm : Keycode := .QK_LAYER_MOD 1 2
    let events : List Event := [.press 1 (.basic 0xE1) 0, .press 2 lm 0]
    have hlost := h (fun _ => (2, lm)) events (.release 2 0) lm false 0 1 ⟨.basic 0xE1, 2, false⟩ 1
      ?_ (by decide +kernel) (by simp [lm]) (by decide) (by decide +kernel) (by decide)
      (by decide +kernel)
    · revert hlost
      decide +kernel
    · intro key keycode tap_count l hmem hlayer
      simp [events, lm] at hmem
      rcases hmem with ⟨-, rfl, -⟩ | ⟨rfl, rfl, -⟩
      · cases hlayer
      · rfl

end keychron_qmk.layer_lock
