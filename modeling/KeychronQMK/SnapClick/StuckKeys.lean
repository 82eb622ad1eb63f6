-- The law of Snap Click: while no key of a pair is held, no key of the pair
-- is registered. Keys are stuck where a release is not passed on: a modifier
-- that the second `switch` does not see, a state that outlives its table, a
-- pair behind the one that ends the loop.
import KeychronQMK.SnapClick.Funs
import KeychronQMK.Lib.Runs

namespace keychron_qmk.snap_click

open action action_util report runs

variable {Key : Type}

/-- Snap Click, and the keycode that each held key was pressed with: a
release has the keycode of its press. -/
structure Keyboard (Key : Type) where
  snap : SnapClick
  held : Key → Option UInt8

/-- No key is held, and the table is the saved one. -/
def Keyboard.boot (saved : Fin SNAP_CLICK_COUNT → SnapClickConfig) : Keyboard Key :=
  ⟨snap_click_init saved ⟨saved, fun _ => .zero, .start⟩, fun _ => none⟩

/-- A key changes, or the host changes the table. The keycode is what the
keymap has for the key when it goes down. -/
inductive Input (Key : Type) where
  | change (host : Host) (key : Key) (keycode : UInt8)
  | snap_click_set (data : Nat → UInt8)
  | snap_click_config_reset

namespace Keyboard

def step [DecidableEq Key] (kb : Keyboard Key) : Input Key → Keyboard Key
  | .change host key keycode =>
    match kb.held key with
    | none => ⟨process_record host keycode true kb.snap, Function.update kb.held key (some keycode)⟩
    | some code => ⟨process_record host code false kb.snap, Function.update kb.held key none⟩
  | .snap_click_set data => { kb with snap := (snap_click.snap_click_set data kb.snap).2 }
  | .snap_click_config_reset => { kb with snap := snap_click.snap_click_config_reset kb.snap }

variable (kb : Keyboard Key)

def Held (code : UInt8) : Prop := ∃ key, kb.held key = some code

def NoStuckKey : Prop :=
  ∀ i, (kb.snap.snap_click_pair i).type ≠ .NONE →
    (∀ b, ¬ kb.Held ((kb.snap.snap_click_pair i).key b)) →
    ∀ b, registered kb.snap.keyboard ((kb.snap.snap_click_pair i).key b) = false

instance [Fintype Key] (code : UInt8) : Decidable (kb.Held code) :=
  inferInstanceAs (Decidable (∃ key, kb.held key = some code))

instance [Fintype Key] : Decidable kb.NoStuckKey :=
  inferInstanceAs (Decidable (∀ _, _ → _ → ∀ _, _ = _))

end Keyboard

/-! ## The steps that stick no key -/

def IsDown (pState : SnapClickState) (b : Fin 2) : Prop := keyBit b &&& pState.state_keys ≠ 0

instance (pState : SnapClickState) (b : Fin 2) : Decidable (IsDown pState b) :=
  inferInstanceAs (Decidable (_ ≠ _))

def ReachesPairs (host : Host) (s : SnapClick) (keycode : UInt8) : Prop :=
  Reaches host s.keyboard.report keycode ∧
    ∀ i, (s.snap_click_pair i).Matches keycode →
      ∀ b, Reaches host s.keyboard.report ((s.snap_click_pair i).key b)

def Unregisters : SnapClickType → UInt8 → Bool
  | .REGULAR, _ => true
  | .LAST_INPUT, code | .FIRST_KEY, code | .SECOND_KEY, code => !IS_MODIFIER_KEYCODE code
  | .NEUTRAL, _ | .NONE, _ => false

/-- Where a pair with both keys down takes the release, its keys differ, it
unregisters the code, and no pair after it counts the key as down. -/
def CleanRelease (s : SnapClick) (code : UInt8) : Prop :=
  ∀ i, (s.snap_click_pair i).Matches code →
    (s.snap_click_state i).state_keys = SC_MASK_BOTH_KEYS_PRESSED →
    (s.snap_click_pair i).Distinct ∧
    (registered s.keyboard code = true → Unregisters (s.snap_click_pair i).type code = true) ∧
    ∀ j, i < j → (s.snap_click_pair j).type ≠ .NONE →
      ∀ b, (s.snap_click_pair j).key b = code → ¬ IsDown (s.snap_click_state j) b

/-- The steps whose release gets through, and whose table fits the states:
a key that the state of its place counts as down is held. -/
def Careful (kb : Keyboard Key) : Input Key → Prop
  | .change host key keycode =>
    match kb.held key with
    | none => ReachesPairs host kb.snap keycode
    | some code => ReachesPairs host kb.snap code ∧
      ((∃ other, other ≠ key ∧ kb.held other = some code) ∨ CleanRelease kb.snap code)
  | .snap_click_set data => Accepted data → ∀ i, ∀ p ∈ pairFor data i, p.type ≠ .NONE →
      ∀ b, IsDown (kb.snap.snap_click_state i) b → kb.Held (p.key b)
  | .snap_click_config_reset => True

instance (host : Host) (s : SnapClick) (keycode : UInt8) : Decidable (ReachesPairs host s keycode) :=
  inferInstanceAs (Decidable (_ ∧ ∀ _, _ → ∀ _, _))

instance (s : SnapClick) (code : UInt8) : Decidable (CleanRelease s code) :=
  inferInstanceAs (Decidable (∀ _, _ → _ → _ ∧ (_ → _) ∧ ∀ _, _ → _ → ∀ _, _ → _))

instance [DecidableEq Key] [Fintype Key] (kb : Keyboard Key) : DecidablePred (Careful kb)
  | .change host key keycode =>
    match hkey : kb.held key with
    | none => decidable_of_iff (ReachesPairs host kb.snap keycode) (by simp [Careful, hkey])
    | some code => decidable_of_iff (ReachesPairs host kb.snap code ∧
        ((∃ other, other ≠ key ∧ kb.held other = some code) ∨ CleanRelease kb.snap code))
        (by simp [Careful, hkey])
  | .snap_click_set data => inferInstanceAs (Decidable (_ → ∀ _, ∀ p ∈ _, _ → ∀ _, _ → _))
  | .snap_click_config_reset => .isTrue trivial

/-! ## The two switches -/

structure Among (H : UInt8 → Prop) (s : State) : Prop where
  sound : Sound s.report
  codes : ∀ code, registered s code = true → H code

variable {H H' : UInt8 → Prop} {host : Host} {s : State} {code keycode : UInt8}

theorem Among.register (h : Among H s) (hc : H code) (hreach : Reaches host s.report code) :
    Among H (register_code host code s) := by
  have hchanged := register_code_changed h.sound hreach
  refine ⟨hchanged.sound, fun other hreg => ?_⟩
  by_cases ho : other = code
  · rw [ho]
    exact hc
  · rw [hchanged.registered other ho] at hreg
    exact h.codes other hreg

theorem Among.unregister (h : Among H s) (hH : ∀ other, other ≠ code → H other → H' other)
    (hreach : Reaches host s.report code) : Among H' (unregister_code host code s) := by
  obtain ⟨hchanged, hgone⟩ := unregister_code_changed h.sound hreach
  refine ⟨hchanged.sound, fun other hreg => ?_⟩
  by_cases ho : other = code
  · rw [ho, hgone] at hreg
    cases hreg
  · rw [hchanged.registered other ho] at hreg
    exact hH other ho (h.codes other hreg)

theorem Among.without (h : Among H s) (hH : ∀ other, other ≠ code → H other → H' other)
    (hgone : registered s code = true → H' code) : Among H' s := by
  refine ⟨h.sound, fun other hreg => ?_⟩
  by_cases ho : other = code
  · rw [ho] at hreg ⊢
    exact hgone hreg
  · exact hH other ho (h.codes other hreg)

variable {p : SnapClickConfig}

theorem among_both_keys_pressed (h : Among H s) (hkeys : ∀ b, H (p.key b))
    (hreach : ∀ b, Reaches host s.report (p.key b)) (index : Fin 2) :
    Among H (both_keys_pressed host p index s) := by
  have hswap : ∀ a b, Among H (register_code host (p.key a) (unregister_code host (p.key b) s)) :=
    fun a b => (h.unregister (fun _ _ => id) (hreach b)).register (hkeys a)
      (reaches_unregister h.sound (hreach b) (hreach a))
  unfold both_keys_pressed
  cases p.type with
  | REGULAR => exact hswap index (1 - index)
  | LAST_INPUT => exact hswap index (1 - index)
  | FIRST_KEY => exact hswap 0 1
  | SECOND_KEY => exact hswap 1 0
  | NEUTRAL => exact h.unregister (fun _ _ => id) (hreach (1 - index))
  | NONE => exact h

/-- A key that is not a modifier is unregistered where `is_key_pressed` sees
it. -/
theorem among_seen_release (h : Among H s) (hH : ∀ other, other ≠ code → H other → H' other)
    (hclean : registered s code = true → H' code ∨ IS_MODIFIER_KEYCODE code = false)
    (hreach : Reaches host s.report code) :
    Among H' (if is_key_pressed host.host_can_send_nkro code s.report then
      unregister_code host code s else s) := by
  split
  · exact h.unregister hH hreach
  · rename_i hfree
    refine h.without hH fun hreg => ?_
    rcases hclean hreg with hheld | hmod
    · exact hheld
    · -- it is registered as a key, and seen
      unfold registered at hreg
      rw [decide_eq_true_iff, hmod] at hreg
      rcases hreg with ⟨h0, hholds⟩ | ⟨habs, -⟩
      · rw [is_key_pressed_holds h.sound h0 hreach] at hfree
        exact absurd hholds hfree
      · cases habs

variable {index b : Fin 2}

/-- The released key is unregistered, and the other key of the pair is held. -/
theorem among_one_key_released (h : Among H s) (htype : p.type ≠ .NONE)
    (hH : ∀ other, other ≠ p.key index → H other → H' other) (hother : H' (p.key (1 - index)))
    (hclean : registered s (p.key index) = true →
      H' (p.key index) ∨ Unregisters p.type (p.key index) = true)
    (hreach : ∀ b, Reaches host s.report (p.key b)) :
    Among H' (one_key_released host p index s) := by
  have hseen : (Unregisters p.type (p.key index) = true →
      IS_MODIFIER_KEYCODE (p.key index) = false) →
      Among H' (let s := if is_key_pressed host.host_can_send_nkro (p.key index) s.report then
          unregister_code host (p.key index) s
        else s
      if ¬ is_key_pressed host.host_can_send_nkro (p.key (1 - index)) s.report then
        register_code host (p.key (1 - index)) s
      else s) := by
    intro hun
    have hfirst := among_seen_release h hH (fun hreg => (hclean hreg).imp_right hun) (hreach index)
    have hreach' : Reaches host (if is_key_pressed host.host_can_send_nkro (p.key index) s.report
        then unregister_code host (p.key index) s else s).report (p.key (1 - index)) := by
      split
      · exact reaches_unregister h.sound (hreach index) (hreach (1 - index))
      · exact hreach (1 - index)
    dsimp only
    generalize (if is_key_pressed host.host_can_send_nkro (p.key index) s.report then
      unregister_code host (p.key index) s else s) = s1 at hfirst hreach' ⊢
    split
    · exact hfirst.register hother hreach'
    · exact hfirst
  unfold one_key_released
  cases htp : p.type with
  | REGULAR => exact h.unregister hH (hreach index)
  | LAST_INPUT => exact hseen (by simp [htp, Unregisters])
  | FIRST_KEY => exact hseen (by simp [htp, Unregisters])
  | SECOND_KEY => exact hseen (by simp [htp, Unregisters])
  | NEUTRAL =>
    refine (h.without hH fun hreg => ?_).register hother (hreach (1 - index))
    rcases hclean hreg with hheld | hun
    · exact hheld
    · rw [htp] at hun
      cases hun
  | NONE => exact absurd htp htype

/-! ## The states of a pair -/

variable {pState : SnapClickState}

/-- A key that a turn of a press counts as down is the key itself, or was
down before. -/
theorem isDown_press (hz : pState.state_keys = 0 → pState = .zero)
    (h : IsDown (nextState true index pState) b) : b = index ∨ IsDown pState b := by
  obtain ⟨keys, last⟩ := pState
  revert hz h
  revert keys last index b
  decide +kernel

/-- After a turn of a release, only the other key is down, of a pair that had
both keys down. -/
theorem isDown_release (h : IsDown (nextState false index pState) b) :
    b = 1 - index ∧ pState.state_keys = SC_MASK_BOTH_KEYS_PRESSED := by
  obtain ⟨keys, last⟩ := pState
  revert h
  revert keys last index b
  decide +kernel

theorem zero_next (hz : pState.state_keys = 0 → pState = .zero) {pressed : Bool}
    (h : (nextState pressed index pState).state_keys = 0) :
    nextState pressed index pState = .zero := by
  obtain ⟨keys, last⟩ := pState
  revert hz h
  revert keys last index pressed
  decide +kernel

theorem isDown_of_ends (hz : pState.state_keys = 0 → pState = .zero)
    (h : ends true index pState = true) : b = index ∨ IsDown pState b := by
  obtain ⟨keys, last⟩ := pState
  revert hz h
  revert keys last index b
  decide +kernel

theorem isDown_of_both (h : pState.state_keys = SC_MASK_BOTH_KEYS_PRESSED) (b : Fin 2) :
    IsDown pState b := by
  unfold IsDown
  rw [h]
  revert b
  decide

theorem index_key (h : p.Matches keycode) : p.key (p.index keycode) = keycode := by
  unfold SnapClickConfig.index
  split
  · rename_i h1
    exact h1.symm
  · rename_i h1
    exact (h.2.resolve_right h1).symm

/-! ## One step -/

/-- What is registered, and what the pairs count as down, is among the codes
of `H`. -/
structure Accounted (H : UInt8 → Prop) (s : SnapClick) : Prop where
  among : Among H s.keyboard
  down : ∀ i, (s.snap_click_pair i).type ≠ .NONE →
    ∀ b, IsDown (s.snap_click_state i) b → H ((s.snap_click_pair i).key b)
  zero : ∀ i, (s.snap_click_state i).state_keys = 0 → s.snap_click_state i = .zero

theorem process_record_looped (host : Host) (keycode : UInt8) (pressed : Bool) (s : SnapClick) :
    Looped host keycode pressed (List.finRange SNAP_CLICK_COUNT) s
      (process_record_snap_click host keycode pressed s) :=
  process_pairs_looped host keycode pressed (List.pairwise_lt_finRange _) s

theorem process_record_pairs (host : Host) (keycode : UInt8) (pressed : Bool) (s : SnapClick) :
    (process_record host keycode pressed s).snap_click_pair =
      (process_record_snap_click host keycode pressed s).2.snap_click_pair ∧
    (process_record host keycode pressed s).snap_click_state =
      (process_record_snap_click host keycode pressed s).2.snap_click_state := by
  unfold process_record
  split <;> rename_i h <;> rw [h] <;> exact ⟨rfl, rfl⟩

theorem process_record_keyboard (host : Host) (keycode : UInt8) (pressed : Bool) (s : SnapClick) :
    ((∀ i, ¬ s.EndsAt keycode pressed i) ∧
      (process_record host keycode pressed s).keyboard =
        process_action host keycode pressed s.keyboard) ∨
    ∃ i, s.EndsAt keycode pressed i ∧ (process_record host keycode pressed s).keyboard =
      switchKeys host (s.snap_click_pair i) ((s.snap_click_pair i).index keycode) pressed
        s.keyboard := by
  have hloop := (process_record_looped host keycode pressed s).keyboard
  unfold process_record
  rcases hloop with ⟨h1, hnone, h2⟩ | ⟨h1, i, -, hends, h2⟩
  · refine .inl ⟨fun i => hnone i (List.mem_finRange i), ?_⟩
    split
    · rename_i h
      rw [h] at h2
      exact congrArg (process_action host keycode pressed) h2
    · rename_i h
      rw [h] at h1
      cases h1
  · refine .inr ⟨i, hends, ?_⟩
    split
    · rename_i h
      rw [h] at h1
      cases h1
    · rename_i h
      rw [h] at h2
      exact h2

theorem zero_kept {s : SnapClick} (h : Accounted H s) (host : Host) (keycode : UInt8)
    (pressed : Bool) (i : Fin SNAP_CLICK_COUNT)
    (hzero : ((process_record host keycode pressed s).snap_click_state i).state_keys = 0) :
    (process_record host keycode pressed s).snap_click_state i = .zero := by
  rw [(process_record_pairs host keycode pressed s).2] at hzero ⊢
  have hloop := process_record_looped host keycode pressed s
  rcases hloop.stay i with hsame | ⟨hi, hm, hbefore⟩
  · rw [hsame] at hzero ⊢
    exact h.zero i hzero
  · rw [hloop.turn i hi hm hbefore] at hzero ⊢
    exact zero_next (h.zero i) hzero

theorem accounted_press {s : SnapClick} (h : Accounted H s) (hc : H keycode)
    (hreach : ReachesPairs host s keycode) : Accounted H (process_record host keycode true s) := by
  have hloop := process_record_looped host keycode true s
  obtain ⟨hpair, hstate⟩ := process_record_pairs host keycode true s
  have hdown : ∀ i, (s.snap_click_pair i).Matches keycode → ∀ b,
      b = (s.snap_click_pair i).index keycode ∨ IsDown (s.snap_click_state i) b →
      H ((s.snap_click_pair i).key b) := by
    rintro i hm b (rfl | hb)
    · rw [index_key hm]
      exact hc
    · exact h.down i hm.1 b hb
  refine ⟨?_, fun i htype b hb => ?_, zero_kept h host keycode true⟩
  · rcases process_record_keyboard host keycode true s with ⟨-, heq⟩ | ⟨i, ⟨hm, hends⟩, heq⟩
    · rw [heq]
      exact h.among.register hc hreach.1
    · rw [heq]
      exact among_both_keys_pressed h.among
        (fun b => hdown i hm b (isDown_of_ends (h.zero i) hends)) (hreach.2 i hm) _
  · rw [hpair, hloop.pair] at htype ⊢
    rw [hstate] at hb
    rcases hloop.stay i with hsame | ⟨hi, hm, hbefore⟩
    · rw [hsame] at hb
      exact h.down i htype b hb
    · rw [hloop.turn i hi hm hbefore] at hb
      exact hdown i hm b (isDown_press (h.zero i) hb)

/-- A release, after which only the code itself may be gone. -/
theorem accounted_release {s : SnapClick} (h : Accounted H s)
    (hH : ∀ other, other ≠ code → H other → H' other) (hclean : H' code ∨ CleanRelease s code)
    (hreach : ReachesPairs host s code) : Accounted H' (process_record host code false s) := by
  have hloop := process_record_looped host code false s
  obtain ⟨hpair, hstate⟩ := process_record_pairs host code false s
  -- the other key of a pair that has both keys down is held
  have hother : ∀ i, (s.snap_click_pair i).Matches code →
      (s.snap_click_state i).state_keys = SC_MASK_BOTH_KEYS_PRESSED →
      H' ((s.snap_click_pair i).key (1 - (s.snap_click_pair i).index code)) := by
    intro i hm hboth
    by_cases hsame : (s.snap_click_pair i).key (1 - (s.snap_click_pair i).index code) = code
    · rcases hclean with hheld | hcl
      · rw [hsame]
        exact hheld
      · refine absurd ?_ (hcl i hm hboth).1
        have hkey := index_key hm
        generalize (s.snap_click_pair i).index code = index at hsame hkey
        match index with
        | 0 => exact hkey.trans hsame.symm
        | 1 => exact hsame.trans hkey.symm
    · exact hH _ hsame (h.down i hm.1 _ (isDown_of_both hboth _))
  refine ⟨?_, fun i htype b hb => ?_, zero_kept h host code false⟩
  · rcases process_record_keyboard host code false s with ⟨-, heq⟩ | ⟨i, ⟨hm, hends⟩, heq⟩
    · rw [heq]
      exact h.among.unregister hH hreach.1
    · rw [heq]
      have hboth : (s.snap_click_state i).state_keys = SC_MASK_BOTH_KEYS_PRESSED :=
        of_decide_eq_true hends
      refine among_one_key_released h.among hm.1 ?_ (hother i hm hboth) ?_ (hreach.2 i hm)
      · rw [index_key hm]
        exact hH
      · rw [index_key hm]
        exact fun hreg => hclean.imp_right fun hcl => (hcl i hm hboth).2.1 hreg
  · rw [hpair, hloop.pair] at htype ⊢
    rw [hstate] at hb
    by_cases hturn : (s.snap_click_pair i).Matches code ∧ ∀ k < i, ¬ s.EndsAt code false k
    · obtain ⟨hm, hbefore⟩ := hturn
      rw [hloop.turn i (List.mem_finRange i) hm fun k _ => hbefore k] at hb
      obtain ⟨rfl, hboth⟩ := isDown_release hb
      exact hother i hm hboth
    · have hsame := (hloop.stay i).resolve_right fun hv =>
        hturn ⟨hv.2.1, fun k => hv.2.2 k (List.mem_finRange k)⟩
      rw [hsame] at hb
      by_cases hkey : (s.snap_click_pair i).key b = code
      · rcases hclean with hheld | hcl
        · rw [hkey]
          exact hheld
        · -- a pair before it ended the loop
          have hm : (s.snap_click_pair i).Matches code := by
            refine ⟨htype, ?_⟩
            match b with
            | 0 => exact .inl hkey.symm
            | 1 => exact .inr hkey.symm
          simp only [hm, true_and, not_forall, not_not] at hturn
          obtain ⟨k, hk, hmk, hends⟩ := hturn
          exact absurd hb ((hcl k hmk (of_decide_eq_true hends)).2.2 i hk htype b hkey)
      · exact hH _ hkey (h.down i htype b hb)

/-! ## Runs -/

/-- What is registered, and what the pairs count as down, is held. -/
def Good (kb : Keyboard Key) : Prop := Accounted kb.Held kb.snap

theorem Good.noStuckKey {kb : Keyboard Key} (h : Good kb) : kb.NoStuckKey := by
  intro i _ hup b
  rw [← Bool.not_eq_true]
  exact fun hreg => hup b (h.among.codes _ hreg)

theorem good_boot (saved : Fin SNAP_CLICK_COUNT → SnapClickConfig) :
    Good (Keyboard.boot saved : Keyboard Key) := by
  refine ⟨⟨start_sound, fun code hreg => ?_⟩, fun i _ b hb => ?_, fun _ _ => rfl⟩
  · have := start_registered code
    rw [show registered State.start code = true from hreg] at this
    cases this
  · exact absurd (by simp [Keyboard.boot, snap_click_init, SnapClickState.zero]) hb

variable [DecidableEq Key]

theorem good_change {kb : Keyboard Key} (h : Good kb) {key : Key}
    (hc : Careful kb (.change host key keycode)) : Good (kb.step (.change host key keycode)) := by
  unfold Careful at hc
  unfold Good Keyboard.step
  dsimp only at hc ⊢
  cases hkey : kb.held key with
  | none =>
    rw [hkey] at hc
    have hmore : ∀ code, kb.Held code → (⟨process_record host keycode true kb.snap,
        Function.update kb.held key (some keycode)⟩ : Keyboard Key).Held code := by
      rintro code ⟨k, hk⟩
      refine ⟨k, (Function.update_of_ne ?_ _ _).trans hk⟩
      rintro rfl
      rw [hkey] at hk
      cases hk
    exact accounted_press ⟨⟨h.among.sound, fun code hreg => hmore code (h.among.codes code hreg)⟩,
      fun i htype b hb => hmore _ (h.down i htype b hb), h.zero⟩
      ⟨key, Function.update_self key _ _⟩ hc
  | some code =>
    rw [hkey] at hc
    obtain ⟨hreach, hclean⟩ := hc
    refine accounted_release h ?_ ?_ hreach
    · rintro other hne ⟨k, hk⟩
      refine ⟨k, (Function.update_of_ne ?_ _ _).trans hk⟩
      rintro rfl
      rw [hkey] at hk
      exact hne (Option.some.inj hk).symm
    · rcases hclean with ⟨k, hne, hk⟩ | hclean
      · exact .inl ⟨k, (Function.update_of_ne hne _ _).trans hk⟩
      · exact .inr hclean

theorem good_set {kb : Keyboard Key} (h : Good kb) {data : Nat → UInt8}
    (hc : Careful kb (.snap_click_set data)) : Good (kb.step (.snap_click_set data)) := by
  unfold Good Keyboard.step snap_click_set
  dsimp only
  split
  · rename_i haccepted
    refine ⟨h.among, fun i htype b hb => ?_, h.zero⟩
    dsimp only at htype hb ⊢
    have hset := hc haccepted i
    cases hp : pairFor data i with
    | none =>
      rw [hp] at htype
      exact h.down i htype b hb
    | some p =>
      rw [hp] at htype
      exact hset p hp htype b hb
  · exact h

theorem good_reset {kb : Keyboard Key} (h : Good kb) : Good (kb.step .snap_click_config_reset) :=
  ⟨h.among, fun _ htype => absurd rfl htype, h.zero⟩

theorem good_step {kb : Keyboard Key} (h : Good kb) {x : Input Key} (hc : Careful kb x) :
    Good (kb.step x) := by
  cases x with
  | change host key keycode => exact good_change h hc
  | snap_click_set data => exact good_set h hc
  | snap_click_config_reset => exact good_reset h

/-- From any saved table, in every run of careful steps, no key is stuck
after any step. -/
theorem no_key_is_stuck_where_releases_get_through
    (saved : Fin SNAP_CLICK_COUNT → SnapClickConfig) (inputs : List (Input Key))
    (h : Along Keyboard.step Careful (Keyboard.boot saved) inputs) :
    Along Keyboard.step (fun kb x => (kb.step x).NoStuckKey) (Keyboard.boot saved) inputs :=
  Along.imp (fun _ _ hgood hc => ⟨(good_step hgood hc).noStuckKey, good_step hgood hc⟩)
    (good_boot saved) h

def noPairs : Fin SNAP_CLICK_COUNT → SnapClickConfig := fun _ => ⟨.NONE, fun _ => 0⟩

def setFirst (type key0 key1 : UInt8) (i : Nat) : UInt8 := [0, 1, type, key0, key1].getD i 0

/-- A and D are a pair. A goes down, then D, and both come up. -/
theorem two_keys_come_up :
    Along Keyboard.step (fun kb x => (kb.step x).NoStuckKey) (Keyboard.boot noPairs)
      [.snap_click_set (setFirst 2 0x04 0x07), .change ⟨true, false⟩ false 0x04,
        .change ⟨true, false⟩ true 0x07, .change ⟨true, false⟩ true 0x07,
        .change ⟨true, false⟩ false 0x04] :=
  no_key_is_stuck_where_releases_get_through _ _ (by decide +kernel)

/-- Left shift and A are a pair. A goes down, then left shift, and both come
up: the release of left shift is swallowed, and its modifier stays. -/
theorem a_modifier_of_a_pair_is_stuck :
    ¬ ∀ (saved : Fin SNAP_CLICK_COUNT → SnapClickConfig) (inputs : List (Input Bool)),
      Along Keyboard.step (fun kb x => (kb.step x).NoStuckKey) (Keyboard.boot saved) inputs := by
  intro h
  have hrun := h noPairs [.snap_click_set (setFirst 2 0xE1 0x04), .change ⟨true, false⟩ false 0x04,
    .change ⟨true, false⟩ true 0xE1, .change ⟨true, false⟩ true 0xE1,
    .change ⟨true, false⟩ false 0x04]
  revert hrun
  decide +kernel

end keychron_qmk.snap_click
