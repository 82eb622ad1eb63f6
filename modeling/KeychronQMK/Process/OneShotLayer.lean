-- The one-shot layers of `quantum/action_util.c`, and the part of
-- `process_action` in `quantum/action.c` that uses them. ONESHOT_TIMEOUT is
-- not defined, and no code overrides `oneshot_layer_changed_kb`.
import KeychronQMK.Keymap.LayerState
import KeychronQMK.Lib.Runs

namespace keychron_qmk.oneshot_layer

open action_layer runs

/-! ## The byte -/

def ONESHOT_PRESSED : UInt8 := 1
def ONESHOT_OTHER_KEY_PRESSED : UInt8 := 2
def ONESHOT_START : UInt8 := 3
def ONESHOT_TOGGLED : UInt8 := 4

/-- The layer state, the one byte of all one-shot layers, and
`keymap_config.oneshot_enable`. -/
structure OneShot where
  layer_state : layer_state_t
  oneshot_layer_data : UInt8
  oneshot_enable : Bool
  deriving DecidableEq

def layerOf (data : UInt8) : UInt8 := data >>> 3

def stateOf (data : UInt8) : UInt8 := data &&& 7

namespace OneShot

variable (s : OneShot)

def get_oneshot_layer : UInt8 := layerOf s.oneshot_layer_data

def get_oneshot_layer_state : UInt8 := stateOf s.oneshot_layer_data

def is_oneshot_layer_active : Prop := s.get_oneshot_layer_state ≠ 0

instance : Decidable s.is_oneshot_layer_active := inferInstanceAs (Decidable (_ ≠ _))

def layer_on (layer : Nat) : OneShot :=
  { s with layer_state := action_layer.layer_on s.layer_state layer }

def layer_off (layer : Nat) : OneShot :=
  { s with layer_state := action_layer.layer_off s.layer_state layer }

def reset_oneshot_layer : OneShot := { s with oneshot_layer_data := 0 }

def set_oneshot_layer (layer : Layer) (state : UInt8) : OneShot :=
  if s.oneshot_enable then
    { s with oneshot_layer_data := UInt8.ofNat layer <<< 3 ||| state }.layer_on layer
  else s.layer_on layer

def clear_oneshot_layer_state (state : UInt8) : OneShot :=
  let start_state := s.oneshot_layer_data
  let s := { s with oneshot_layer_data := s.oneshot_layer_data &&& ~~~state }
  if (s.get_oneshot_layer_state = 0 ∧ start_state ≠ s.oneshot_layer_data) ∧ s.oneshot_enable then
    (s.layer_off s.get_oneshot_layer.toNat).reset_oneshot_layer
  else s

def oneshot_set (active : Bool) : OneShot :=
  if s.oneshot_enable ≠ active then
    { s with oneshot_enable := active }.clear_oneshot_layer_state ONESHOT_OTHER_KEY_PRESSED
  else s

def oneshot_toggle : OneShot := s.oneshot_set !s.oneshot_enable

def oneshot_enable_ : OneShot := s.oneshot_set true

def oneshot_disable : OneShot := s.oneshot_set false

end OneShot

/-! ## process_action -/

/-- The kinds of the actions of keys that switch no layer. -/
inductive Kind where
  | ACT_USAGE
  | ACT_LMODS_TAP
  | ACT_RMODS_TAP
  | other
  deriving DecidableEq

/-- The action of a key: an OSL key, or an ordinary key with its kind and its
code. -/
inductive Action where
  | oneshot (layer : Layer)
  | ordinary (kind : Kind) (code : UInt8)
  deriving DecidableEq

def OP_ONESHOT : UInt8 := 0xF4

def MODS_TAP_TOGGLE : UInt8 := 1

def IS_MODIFIER_KEYCODE (code : UInt8) : Prop := 0xE0 ≤ code ∧ code ≤ 0xE7

instance (code : UInt8) : Decidable (IS_MODIFIER_KEYCODE code) :=
  inferInstanceAs (Decidable (_ ∧ _))

/-- The key uses up a one-shot layer: it is no modifier, and no modifier that
is held. -/
def Action.uses_oneshot (tap_count : Nat) : Action → Prop
  | oneshot _ => ¬ IS_MODIFIER_KEYCODE OP_ONESHOT
  | ordinary kind code => kind = .ACT_USAGE ∨ ¬ (IS_MODIFIER_KEYCODE code ∨
      ((kind = .ACT_LMODS_TAP ∨ kind = .ACT_RMODS_TAP) ∧ (code ≤ MODS_TAP_TOGGLE ∨ tap_count = 0)))

instance (tap_count : Nat) : ∀ action : Action, Decidable (action.uses_oneshot tap_count)
  | .oneshot _ => inferInstanceAs (Decidable (¬ _))
  | .ordinary _ _ => inferInstanceAs (Decidable (_ ∨ ¬ (_ ∨ (_ ∧ _))))

namespace OneShot

variable (ONESHOT_TAP_TOGGLE : Nat) (pressed : Bool) (tap_count : Nat)

/-- `case OP_ONESHOT`, and whether it sets `do_release_oneshot` to false. An
`ONESHOT_TAP_TOGGLE` of at most 1 is as one that is not defined. -/
def process_oneshot (layer : Layer) (s : OneShot) : OneShot × Bool :=
  if ¬ s.oneshot_enable then
    (if pressed then s.layer_on layer else s.layer_off layer, false)
  else if 1 < ONESHOT_TAP_TOGGLE then
    (if pressed then
      if s.get_oneshot_layer_state = ONESHOT_TOGGLED then s.reset_oneshot_layer.layer_off layer
      else if tap_count < ONESHOT_TAP_TOGGLE then s.set_oneshot_layer layer ONESHOT_START
      else s
    else if ONESHOT_TAP_TOGGLE ≤ tap_count then
      s.reset_oneshot_layer.set_oneshot_layer layer ONESHOT_TOGGLED
    else s.clear_oneshot_layer_state ONESHOT_PRESSED, true)
  else if pressed then (s.set_oneshot_layer layer ONESHOT_START, false)
  else
    let s := s.clear_oneshot_layer_state ONESHOT_PRESSED
    (if 1 < tap_count then s.clear_oneshot_layer_state ONESHOT_OTHER_KEY_PRESSED else s, false)

/-- The switch over the action. An ordinary key changes no layer. -/
def process_kind (action : Action) (s : OneShot) : OneShot × Bool :=
  match action with
  | .oneshot layer => s.process_oneshot ONESHOT_TAP_TOGGLE pressed tap_count layer
  | .ordinary _ _ => (s, false)

def process_action (action : Action) (s : OneShot) : OneShot :=
  let uses := s.is_oneshot_layer_active ∧ pressed ∧ action.uses_oneshot tap_count ∧
    s.oneshot_enable
  let s := if uses then s.clear_oneshot_layer_state ONESHOT_OTHER_KEY_PRESSED else s
  let do_release_oneshot : Bool := uses ∧ ¬ s.is_oneshot_layer_active
  let (s, keep) := s.process_kind ONESHOT_TAP_TOGGLE pressed tap_count action
  if (do_release_oneshot ∧ ¬ keep) ∧ s.get_oneshot_layer_state &&& ONESHOT_PRESSED = 0 then
    -- the release of the key on the one-shot layer
    let s := s.layer_on s.get_oneshot_layer.toNat
    let s := (s.process_kind ONESHOT_TAP_TOGGLE false tap_count action).1
    s.layer_off s.get_oneshot_layer.toNat
  else s

end OneShot

/-! ## Runs -/

/-- The one-shot layers, and the keys that are held with the action that each
got at its press. -/
structure Keys where
  oneshot : OneShot
  held : Nat → Option Action

def Keys.zero : Keys := ⟨⟨0, 0, true⟩, fun _ => none⟩

inductive Event where
  | press (key : Nat) (action : Action) (tap_count : Nat)
  | release (key : Nat) (tap_count : Nat)
  | oneshot_set (active : Bool)
  | oneshot_toggle
  deriving DecidableEq

/-- Only a key that is up goes down, and only a key that is down comes up. -/
def step (ONESHOT_TAP_TOGGLE : Nat) (s : Keys) : Event → Keys
  | .press key action tap_count =>
    if s.held key = none then
      ⟨s.oneshot.process_action ONESHOT_TAP_TOGGLE true tap_count action,
        Function.update s.held key (some action)⟩
    else s
  | .release key tap_count =>
    match s.held key with
    | none => s
    | some action =>
      ⟨s.oneshot.process_action ONESHOT_TAP_TOGGLE false tap_count action,
        Function.update s.held key none⟩
  | .oneshot_set active => { s with oneshot := s.oneshot.oneshot_set active }
  | .oneshot_toggle => { s with oneshot := s.oneshot.oneshot_toggle }

/-- With no OSL key held and no one-shot layer pending, no layer above 0 is on. -/
def NothingLeftOn (s : Keys) : Prop :=
  (∀ key layer, s.held key ≠ some (.oneshot layer)) → s.oneshot.get_oneshot_layer_state = 0 →
    ∀ l : Layer, l ≠ 0 → ¬ IsOn s.oneshot.layer_state l

/-! ## The byte of all one-shot layers -/

theorem byte_induction {P : UInt8 → Prop} (h : ∀ n : Fin 256, P (UInt8.ofNat n)) (d : UInt8) :
    P d := by
  have := h ⟨d.toNat, d.toNat_lt⟩
  rwa [UInt8.ofNat_toNat] at this

theorem layerOf_clear (d : UInt8) : layerOf (d &&& ~~~ONESHOT_PRESSED) = layerOf d ∧
    layerOf (d &&& ~~~ONESHOT_OTHER_KEY_PRESSED) = layerOf d := by
  revert d
  apply byte_induction
  decide +kernel

theorem stateOf_clear_other (d : UInt8) (h0 : stateOf d ≠ 0)
    (h2 : stateOf d ≠ ONESHOT_OTHER_KEY_PRESSED) :
    stateOf (d &&& ~~~ONESHOT_OTHER_KEY_PRESSED) ≠ 0 := by
  revert d
  apply byte_induction
  decide +kernel

theorem stateOf_cleared (d : UInt8) (h : stateOf d = ONESHOT_OTHER_KEY_PRESSED) :
    stateOf (d &&& ~~~ONESHOT_OTHER_KEY_PRESSED) = 0 ∧
      d ≠ d &&& ~~~ONESHOT_OTHER_KEY_PRESSED := by
  revert d
  apply byte_induction
  decide +kernel

theorem layerOf_set : ∀ layer : Layer,
    (layerOf (UInt8.ofNat layer <<< 3 ||| ONESHOT_START)).toNat = layer ∧
    (layerOf (UInt8.ofNat layer <<< 3 ||| ONESHOT_TOGGLED)).toNat = layer ∧
    stateOf (UInt8.ofNat layer <<< 3 ||| ONESHOT_START) = ONESHOT_START ∧
    stateOf (UInt8.ofNat layer <<< 3 ||| ONESHOT_TOGGLED) = ONESHOT_TOGGLED := by
  decide

/-! ## Tracked layers -/

namespace OneShot

/-- The byte holds the layer, with a state that waits for something. -/
structure Tracks (s : OneShot) (l : Layer) : Prop where
  layer : s.get_oneshot_layer.toNat = l
  active : s.is_oneshot_layer_active

instance (s : OneShot) (l : Layer) : Decidable (s.Tracks l) :=
  decidable_of_iff (s.get_oneshot_layer.toNat = l ∧ s.is_oneshot_layer_active)
    ⟨fun h => ⟨h.1, h.2⟩, fun h => ⟨h.layer, h.active⟩⟩

/-- Every layer above 0 that is on is the one in the byte. -/
def AllTracked (s : OneShot) : Prop := ∀ l : Layer, l ≠ 0 → IsOn s.layer_state l → s.Tracks l

instance (s : OneShot) : Decidable s.AllTracked :=
  inferInstanceAs (Decidable (∀ l : Layer, l ≠ 0 → IsOn s.layer_state l → s.Tracks l))

variable {s : OneShot}

theorem AllTracked.clear (h : s.AllTracked) (henable : s.oneshot_enable = true) {bit : UInt8}
    (hbit : layerOf (s.oneshot_layer_data &&& ~~~bit) = layerOf s.oneshot_layer_data) :
    (s.clear_oneshot_layer_state bit).AllTracked := by
  intro l hl hon
  unfold clear_oneshot_layer_state at hon ⊢
  dsimp only at hon ⊢
  split at hon
  · rename_i hoff
    exfalso
    obtain ⟨hne, hon⟩ := (isOn_layer_off _ _ _).mp hon
    have htracks := (h l hl hon).layer
    apply hne
    rw [← htracks]
    unfold get_oneshot_layer
    rw [hbit]
  · rename_i hstays
    rw [if_neg hstays]
    have htracks := h l hl hon
    refine ⟨?_, ?_⟩
    · rw [← htracks.layer]
      exact congrArg UInt8.toNat hbit
    · intro hzero
      have hchanged := htracks.active
      refine hstays ⟨⟨hzero, fun hsame => hchanged ?_⟩, henable⟩
      unfold get_oneshot_layer_state at hzero ⊢
      rw [hsame]
      exact hzero

@[simp] theorem clear_enable (s : OneShot) (bit : UInt8) :
    (s.clear_oneshot_layer_state bit).oneshot_enable = s.oneshot_enable := by
  unfold clear_oneshot_layer_state
  dsimp only
  split <;> rfl

theorem set_allTracked (henable : s.oneshot_enable = true) {layer : Layer} {state : UInt8}
    (hstate : state = ONESHOT_START ∨ state = ONESHOT_TOGGLED)
    (h : ∀ l : Layer, l ≠ 0 → IsOn s.layer_state l → l = layer) :
    (s.set_oneshot_layer layer state).AllTracked := by
  intro l hl hon
  unfold set_oneshot_layer at hon ⊢
  rw [if_pos henable] at hon ⊢
  have hlayer : l = layer := by
    rcases (isOn_layer_on _ _ _).mp hon with h' | h'
    · exact Fin.ext h'
    · exact h l hl h'
  obtain ⟨h1, h2, h3, h4⟩ := layerOf_set layer
  rw [hlayer]
  rcases hstate with rfl | rfl
  · exact ⟨h1, fun hzero => absurd (h3.symm.trans hzero) (by decide)⟩
  · exact ⟨h2, fun hzero => absurd (h4.symm.trans hzero) (by decide)⟩

theorem isOn_of_clear {bit : UInt8} {l : Layer}
    (h : IsOn (s.clear_oneshot_layer_state bit).layer_state l) : IsOn s.layer_state l := by
  unfold clear_oneshot_layer_state at h
  dsimp only at h
  split at h
  · exact ((isOn_layer_off _ _ _).mp h).2
  · exact h

theorem clear_other_off (henable : s.oneshot_enable = true)
    (hstate : s.get_oneshot_layer_state = ONESHOT_OTHER_KEY_PRESSED) {l : Layer}
    (hlayer : s.get_oneshot_layer.toNat = l) :
    ¬ IsOn (s.clear_oneshot_layer_state ONESHOT_OTHER_KEY_PRESSED).layer_state l := by
  unfold clear_oneshot_layer_state
  rw [if_pos ⟨stateOf_cleared _ hstate, henable⟩]
  intro h
  apply ((isOn_layer_off _ _ _).mp h).1
  rw [← hlayer]
  exact congrArg UInt8.toNat (layerOf_clear s.oneshot_layer_data).2.symm

/-! ## process_action -/

variable {ONESHOT_TAP_TOGGLE tap_count : Nat}

/-- No layer other than `layer` is on when a key of it is pressed, but for a
one-shot layer that only waits for another key. -/
def Alone (s : OneShot) (layer : Layer) : Prop := ∀ l : Layer, l ≠ 0 → IsOn s.layer_state l →
  l = layer ∨ (s.get_oneshot_layer.toNat = l ∧
    s.get_oneshot_layer_state = ONESHOT_OTHER_KEY_PRESSED)

instance (layer : Layer) : Decidable (s.Alone layer) :=
  inferInstanceAs (Decidable (∀ l : Layer, l ≠ 0 → IsOn s.layer_state l → l = layer ∨ _ ∧ _))

theorem process_action_release (action : Action) :
    s.process_action ONESHOT_TAP_TOGGLE false tap_count action =
      (s.process_kind ONESHOT_TAP_TOGGLE false tap_count action).1 := by
  simp [process_action]

theorem process_action_disabled (hdisabled : s.oneshot_enable = false) (pressed : Bool)
    (action : Action) : s.process_action ONESHOT_TAP_TOGGLE pressed tap_count action =
      (s.process_kind ONESHOT_TAP_TOGGLE pressed tap_count action).1 := by
  simp [process_action, hdisabled]

theorem AllTracked.press_ordinary (h : s.AllTracked) (henable : s.oneshot_enable = true)
    (kind : Kind) (code : UInt8) :
    (s.process_action ONESHOT_TAP_TOGGLE true tap_count (.ordinary kind code)).AllTracked := by
  have hcleared := h.clear henable (layerOf_clear s.oneshot_layer_data).2
  have hround : ∀ {s' : OneShot}, s'.AllTracked → ∀ n, ((s'.layer_on n).layer_off n).AllTracked := by
    intro s' h' n l hl hon
    obtain ⟨hne, hon⟩ := (isOn_layer_off _ _ _).mp hon
    obtain ⟨hlayer, hactive⟩ := h' l hl (((isOn_layer_on _ _ _).mp hon).resolve_left hne)
    exact ⟨hlayer, hactive⟩
  unfold process_action process_kind
  dsimp only
  split_ifs
  · exact hround hcleared _
  · exact hcleared
  · exact hround h _
  · exact h

theorem process_oneshot_press (henable : s.oneshot_enable = true) (layer : Layer)
    (h : s.AllTracked) (halone : ∀ l : Layer, l ≠ 0 → IsOn s.layer_state l → l = layer) :
    (s.process_oneshot ONESHOT_TAP_TOGGLE true tap_count layer).1.AllTracked := by
  unfold process_oneshot
  simp only [if_true]
  split_ifs
  · intro l hl hon
    obtain ⟨hne, hon⟩ := (isOn_layer_off _ _ _).mp hon
    exact absurd (congrArg Fin.val (halone l hl hon)) hne
  · exact set_allTracked henable (.inl rfl) halone
  · exact h
  · exact set_allTracked henable (.inl rfl) halone

theorem process_oneshot_press_state (henable : s.oneshot_enable = true) (layer : Layer)
    (h : (s.process_oneshot ONESHOT_TAP_TOGGLE true tap_count layer).2 = false) :
    (s.process_oneshot ONESHOT_TAP_TOGGLE true tap_count layer).1.get_oneshot_layer_state &&&
      ONESHOT_PRESSED ≠ 0 := by
  unfold process_oneshot at h ⊢
  rw [if_neg (not_not.mpr henable)] at h ⊢
  by_cases htoggle : 1 < ONESHOT_TAP_TOGGLE
  · simp [htoggle] at h
  · have hstate := (layerOf_set layer).2.2.1
    rw [if_neg htoggle]
    simp only [if_true, set_oneshot_layer, henable]
    change stateOf (UInt8.ofNat layer <<< 3 ||| ONESHOT_START) &&& ONESHOT_PRESSED ≠ 0
    rw [hstate]
    decide

theorem AllTracked.press_oneshot (h : s.AllTracked) (henable : s.oneshot_enable = true)
    (layer : Layer) (halone : s.Alone layer) :
    (s.process_action ONESHOT_TAP_TOGGLE true tap_count (.oneshot layer)).AllTracked := by
  have huses : (Action.oneshot layer).uses_oneshot tap_count := by
    change ¬ IS_MODIFIER_KEYCODE OP_ONESHOT
    decide
  unfold process_action
  simp only [huses, henable, and_true]
  generalize hs1 : (if s.is_oneshot_layer_active then
    s.clear_oneshot_layer_state ONESHOT_OTHER_KEY_PRESSED else s) = s1
  have h1 : s1.AllTracked ∧ s1.oneshot_enable = true ∧
      ∀ l : Layer, l ≠ 0 → IsOn s1.layer_state l → l = layer := by
    rw [← hs1]
    split
    · refine ⟨h.clear henable (layerOf_clear _).2, by simpa using henable, fun l hl hon => ?_⟩
      rcases halone l hl (isOn_of_clear hon) with hl' | ⟨hlayer, hstate⟩
      · exact hl'
      · exact absurd hon (clear_other_off henable hstate hlayer)
    · rename_i hinactive
      exact ⟨h, henable, fun l hl hon => absurd (h l hl hon).active hinactive⟩
  obtain ⟨htracked, henable1, halone1⟩ := h1
  have hpress : (s1.process_oneshot ONESHOT_TAP_TOGGLE true tap_count layer).1.AllTracked :=
    process_oneshot_press henable1 layer htracked halone1
  rw [if_neg]
  · exact hpress
  · rintro ⟨⟨-, hkeep⟩, hstate⟩
    rw [Bool.not_eq_true] at hkeep
    exact process_oneshot_press_state henable1 layer hkeep hstate

theorem AllTracked.release_oneshot (h : s.AllTracked) (henable : s.oneshot_enable = true)
    (layer : Layer) (halone : 1 < ONESHOT_TAP_TOGGLE → ONESHOT_TAP_TOGGLE ≤ tap_count →
      ∀ l : Layer, l ≠ 0 → IsOn s.layer_state l → l = layer) :
    (s.process_oneshot ONESHOT_TAP_TOGGLE false tap_count layer).1.AllTracked := by
  have hpressed := h.clear henable (layerOf_clear s.oneshot_layer_data).1
  unfold process_oneshot
  rw [if_neg (not_not.mpr henable)]
  simp only [Bool.false_eq_true, if_false]
  split_ifs with htoggle htap htwice
  · have hreset : s.reset_oneshot_layer.oneshot_enable = true := henable
    exact set_allTracked hreset (.inr rfl) (halone htoggle htap)
  · exact hpressed
  · exact hpressed.clear (by simpa using henable) (layerOf_clear _).2
  · exact hpressed

end OneShot

/-! ## The invariant -/

/-- A layer that is on is tracked, or it is the layer of a held OSL key while
the feature is off. -/
def Accounted (s : Keys) : Prop := ∀ l : Layer, l ≠ 0 → IsOn s.oneshot.layer_state l →
  s.oneshot.Tracks l ∨
    (s.oneshot.oneshot_enable = false ∧ ∃ key, s.held key = some (.oneshot l))

theorem Accounted.nothingLeftOn {s : Keys} (h : Accounted s) : NothingLeftOn s := by
  intro hheld hzero l hl hon
  rcases h l hl hon with htracks | ⟨-, key, hkey⟩
  · exact htracks.active hzero
  · exact hheld key l hkey

/-- What keeps layers accounted for: an OSL key goes down while the feature is
on, or its toggling tap ends, only when its own layer alone is on, but for a
one-shot layer that waits for another key; the feature is not turned off
while a one-shot layer waits for another key, and not turned on while a
layer is on that the byte does not hold. -/
def Clean (ONESHOT_TAP_TOGGLE : Nat) (s : Keys) : Event → Prop
  | .press key (.oneshot layer) _ =>
    s.held key = none → s.oneshot.oneshot_enable = true → s.oneshot.Alone layer
  | .press _ (.ordinary _ _) _ => True
  | .release key tap_count => ∀ layer, s.held key = some (.oneshot layer) →
    s.oneshot.oneshot_enable = true → 1 < ONESHOT_TAP_TOGGLE → ONESHOT_TAP_TOGGLE ≤ tap_count →
    ∀ l : Layer, l ≠ 0 → IsOn s.oneshot.layer_state l → l = layer
  | .oneshot_set active => CleanSet s.oneshot active
  | .oneshot_toggle => CleanSet s.oneshot !s.oneshot.oneshot_enable
where
  CleanSet (s : OneShot) (active : Bool) : Prop := s.oneshot_enable ≠ active →
    if active then s.AllTracked
    else s.get_oneshot_layer_state = ONESHOT_OTHER_KEY_PRESSED →
      ∀ l : Layer, l ≠ 0 → ¬ IsOn s.layer_state l

instance (s : OneShot) (active : Bool) : Decidable (Clean.CleanSet s active) :=
  inferInstanceAs (Decidable (s.oneshot_enable ≠ active → if active then s.AllTracked
    else _ = ONESHOT_OTHER_KEY_PRESSED → ∀ l : Layer, l ≠ 0 → ¬ IsOn s.layer_state l))

instance (ONESHOT_TAP_TOGGLE : Nat) (s : Keys) :
    ∀ event, Decidable (Clean ONESHOT_TAP_TOGGLE s event)
  | .press key (.oneshot layer) _ =>
    inferInstanceAs (Decidable (s.held key = none → _ → s.oneshot.Alone layer))
  | .press _ (.ordinary _ _) _ => .isTrue trivial
  | .release key tap_count => inferInstanceAs (Decidable (∀ layer : Layer,
      s.held key = some (.oneshot layer) → _ → 1 < ONESHOT_TAP_TOGGLE →
      ONESHOT_TAP_TOGGLE ≤ tap_count → ∀ l : Layer, l ≠ 0 → IsOn _ l → l = layer))
  | .oneshot_set active => inferInstanceAs (Decidable (Clean.CleanSet s.oneshot active))
  | .oneshot_toggle => inferInstanceAs (Decidable (Clean.CleanSet s.oneshot _))

theorem Accounted.allTracked {s : Keys} (h : Accounted s)
    (henable : s.oneshot.oneshot_enable = true) : s.oneshot.AllTracked := by
  intro l hl hon
  rcases h l hl hon with htracks | ⟨hdisabled, -⟩
  · exact htracks
  · exact absurd (henable.symm.trans hdisabled) (by decide)

theorem OneShot.AllTracked.accounted {s : Keys} (h : s.oneshot.AllTracked) : Accounted s :=
  fun l hl hon => .inl (h l hl hon)

theorem held_update {held : Nat → Option Action} {key : Nat} {value : Option Action}
    {l : Layer} (h : ∃ k, held k = some (.oneshot l)) (hkey : held key ≠ some (.oneshot l)) :
    ∃ k, Function.update held key value k = some (.oneshot l) := by
  obtain ⟨k, hk⟩ := h
  refine ⟨k, ?_⟩
  rw [Function.update_of_ne]
  · exact hk
  · rintro rfl
    exact hkey hk

section

variable {ONESHOT_TAP_TOGGLE : Nat} {s : Keys}

theorem Accounted.press (h : Accounted s) {key tap_count : Nat} {action : Action}
    (hup : s.held key = none)
    (halone : ∀ layer, action = .oneshot layer → s.oneshot.oneshot_enable = true →
      s.oneshot.Alone layer) :
    Accounted ⟨s.oneshot.process_action ONESHOT_TAP_TOGGLE true tap_count action,
      Function.update s.held key (some action)⟩ := by
  have hheld : ∀ {l : Layer}, (∃ k, s.held k = some (.oneshot l)) →
      ∃ k, Function.update s.held key (some action) k = some (.oneshot l) :=
    fun hk => held_update hk (by simp [hup])
  cases henable : s.oneshot.oneshot_enable with
  | true =>
    have htracked := h.allTracked henable
    apply OneShot.AllTracked.accounted
    cases action with
    | oneshot layer => exact htracked.press_oneshot henable layer (halone layer rfl henable)
    | ordinary kind code => exact htracked.press_ordinary henable kind code
  | false =>
    rw [OneShot.process_action_disabled henable]
    intro l hl hon
    cases action with
    | ordinary kind code =>
      exact (h l hl hon).imp id fun hk => ⟨hk.1, hheld hk.2⟩
    | oneshot layer =>
      simp only [OneShot.process_kind, OneShot.process_oneshot, henable, Bool.false_eq_true,
        not_false_eq_true, if_true] at hon ⊢
      rcases (isOn_layer_on _ _ _).mp hon with hlayer | hon
      · refine .inr ⟨henable, key, ?_⟩
        rw [Function.update_self, Fin.ext hlayer]
      · exact (h l hl hon).imp (fun ht => ⟨ht.layer, ht.active⟩) fun hk => ⟨henable, hheld hk.2⟩

theorem Accounted.release (h : Accounted s) {key tap_count : Nat} {action : Action}
    (hdown : s.held key = some action)
    (halone : ∀ layer, action = .oneshot layer → s.oneshot.oneshot_enable = true →
      1 < ONESHOT_TAP_TOGGLE → ONESHOT_TAP_TOGGLE ≤ tap_count →
      ∀ l : Layer, l ≠ 0 → IsOn s.oneshot.layer_state l → l = layer) :
    Accounted ⟨s.oneshot.process_action ONESHOT_TAP_TOGGLE false tap_count action,
      Function.update s.held key none⟩ := by
  rw [OneShot.process_action_release]
  cases action with
  | ordinary kind code =>
    intro l hl hon
    exact (h l hl hon).imp id fun hk => ⟨hk.1, held_update hk.2 (by simp [hdown])⟩
  | oneshot layer =>
    cases henable : s.oneshot.oneshot_enable with
    | true =>
      exact ((h.allTracked henable).release_oneshot henable layer
        (halone layer rfl henable)).accounted
    | false =>
      intro l hl hon
      simp only [OneShot.process_kind, OneShot.process_oneshot, henable, Bool.false_eq_true,
        not_false_eq_true, if_true, if_false] at hon ⊢
      obtain ⟨hne, hon⟩ := (isOn_layer_off _ _ _).mp hon
      refine (h l hl hon).imp (fun ht => ⟨ht.layer, ht.active⟩)
        fun hk => ⟨henable, held_update hk.2 ?_⟩
      rw [hdown]
      intro hsame
      injection hsame with hsame
      injection hsame with hsame
      exact hne (congrArg Fin.val hsame.symm)

theorem Accounted.oneshot_set (h : Accounted s) (active : Bool)
    (hclean : Clean.CleanSet s.oneshot active) :
    Accounted { s with oneshot := s.oneshot.oneshot_set active } := by
  unfold OneShot.oneshot_set
  by_cases hsame : s.oneshot.oneshot_enable = active
  · rw [if_neg (not_not.mpr hsame)]
    exact h
  rw [if_pos hsame]
  have hclean := hclean hsame
  cases active with
  | true =>
    have htracked : OneShot.AllTracked { s.oneshot with oneshot_enable := true } :=
      fun l hl hon => ⟨(hclean l hl hon).layer, (hclean l hl hon).active⟩
    exact (htracked.clear rfl (layerOf_clear _).2).accounted
  | false =>
    have htracked := h.allTracked (by simpa using hsame)
    intro l hl hon
    have hon := OneShot.isOn_of_clear hon
    left
    have htracks := htracked l hl hon
    unfold OneShot.clear_oneshot_layer_state
    rw [if_neg (by simp)]
    refine ⟨?_, stateOf_clear_other _ htracks.active fun hother => hclean hother l hl hon⟩
    rw [← htracks.layer]
    exact congrArg UInt8.toNat (layerOf_clear _).2

theorem accounted_step (h : Accounted s) {event : Event}
    (hclean : Clean ONESHOT_TAP_TOGGLE s event) : Accounted (step ONESHOT_TAP_TOGGLE s event) := by
  cases event with
  | press key action tap_count =>
    by_cases hup : s.held key = none
    · simp only [step, if_pos hup]
      refine h.press hup fun layer hlayer => ?_
      rw [hlayer] at hclean
      exact hclean hup
    · simp only [step, if_neg hup]
      exact h
  | release key tap_count =>
    cases hdown : s.held key with
    | none =>
      simp only [step, hdown]
      exact h
    | some action =>
      simp only [step, hdown]
      refine h.release hdown fun layer hlayer => ?_
      rw [hlayer] at hdown
      exact hclean layer hdown
  | oneshot_set active => exact h.oneshot_set active hclean
  | oneshot_toggle => exact h.oneshot_set _ hclean

end

/-- In every run whose steps are clean, with or without `ONESHOT_TAP_TOGGLE`,
nothing is left on after any step. -/
theorem one_shot_layers_leave_nothing_on (ONESHOT_TAP_TOGGLE : Nat) (events : List Event)
    (h : Along (step ONESHOT_TAP_TOGGLE) (Clean ONESHOT_TAP_TOGGLE) .zero events) :
    Along (step ONESHOT_TAP_TOGGLE)
      (fun s event => NothingLeftOn (step ONESHOT_TAP_TOGGLE s event)) .zero events := by
  refine Along.imp (I := Accounted) (fun s event hs hclean => ?_) ?_ h
  · have hnext := accounted_step hs hclean
    exact ⟨hnext.nothingLeftOn, hnext⟩
  · intro l _ hon
    exact absurd hon (not_isOn_zero l)

/-- Two taps of OSL keys, each used by the next ordinary key. -/
theorem two_taps_leave_nothing_on :
    let a : Action := .ordinary .ACT_USAGE 4
    let events : List Event := [.press 1 (.oneshot 1) 0, .release 1 1, .press 2 a 0, .release 2 0,
      .press 3 (.oneshot 2) 0, .press 2 a 0, .release 3 0, .release 2 0]
    Along (step 0) (Clean 0) .zero events ∧
      Along (step 0) (fun s event => NothingLeftOn (step 0 s event)) .zero events :=
  ⟨by decide +kernel, one_shot_layers_leave_nothing_on 0 _ (by decide +kernel)⟩

/-- Of two OSL keys that overlap only the layer of the second is in the byte:
the layer of the first stays on after both keys and the one-shot layer are
gone. -/
theorem overlapping_keys_leave_a_layer_on :
    ¬ ∀ (ONESHOT_TAP_TOGGLE : Nat) (events : List Event),
      Along (step ONESHOT_TAP_TOGGLE)
        (fun s event => NothingLeftOn (step ONESHOT_TAP_TOGGLE s event)) .zero events := by
  intro h
  obtain ⟨-, -, -, -, hleft, -⟩ := h 0 [.press 1 (.oneshot 1) 0, .press 2 (.oneshot 2) 0,
    .release 1 0, .release 2 0, .press 3 (.ordinary .ACT_USAGE 4) 0]
  refine hleft (fun key layer hkey => ?_) (by decide +kernel) 1 (by decide) (by decide +kernel)
  rcases key with _ | _ | _ | _ | key
  all_goals simp [step, Keys.zero, Function.update] at hkey

end keychron_qmk.oneshot_layer
