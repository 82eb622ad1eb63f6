-- Snap Click resolves a pair: of its two keys, the type says which one is
-- registered. A key that finds the report of six keys full does not come.
import KeychronQMK.SnapClick.StuckKeys

namespace keychron_qmk.snap_click

open action action_util report runs

variable {Key : Type}

/-! ## What a type dictates -/

/-- The key of a pair that is registered while both are held. -/
def dictated (type : SnapClickType) (later : Fin 2) : Option (Fin 2) :=
  match type with
  | .REGULAR | .LAST_INPUT => some later
  | .FIRST_KEY => some ⟨0, Nat.two_pos⟩
  | .SECOND_KEY => some ⟨1, Nat.one_lt_two⟩
  | .NEUTRAL | .NONE => none

/-- Which key is registered, from the held keys and the one pressed last. The
key of a REGULAR pair that the other one suppressed stays suppressed. -/
def Registers (type : SnapClickType) (held : Fin 2 → Prop) (later b : Fin 2) : Prop :=
  held b ∧ ((∀ c, held c) → dictated type later = some b) ∧ (type = .REGULAR → later = b)

instance (type : SnapClickType) (held : Fin 2 → Prop) [DecidablePred held] (later b : Fin 2) :
    Decidable (Registers type held later b) :=
  inferInstanceAs (Decidable (_ ∧ (_ → _) ∧ (_ → _)))

/-- The key of the pair that was pressed last, from the codes that were
pressed, the last first. -/
def later (p : SnapClickConfig) (presses : List UInt8) : Fin 2 :=
  p.index ((presses.find? fun code => p.Matches code).getD KC_NO)

theorem later_press {p : SnapClickConfig} {code : UInt8} (h : p.Matches code)
    (presses : List UInt8) : later p (code :: presses) = p.index code := by
  unfold later
  rw [List.find?_cons_of_pos (by simpa using h)]
  rfl

theorem later_other {p : SnapClickConfig} {code : UInt8} (h : ¬ p.Matches code)
    (presses : List UInt8) : later p (code :: presses) = later p presses := by
  unfold later
  rw [List.find?_cons_of_neg (by simpa using h)]

/-! ## The keyboard -/

/-- The keyboard, and the codes that were pressed, the last first. -/
structure Traced (Key : Type) where
  keyboard : Keyboard Key
  presses : List UInt8

/-- No key is held, and the table is the saved one. -/
def Traced.boot (saved : Fin SNAP_CLICK_COUNT → SnapClickConfig) : Traced Key := ⟨.boot saved, []⟩

/-- A change of the key that has the keycode: it goes down with the keycode, or
up. -/
structure Change where
  timed_out : Bool
  keycode : UInt8

section

variable [DecidableEq Key] (host_can_send_nkro : Bool) (keyOf : UInt8 → Key)

def Traced.step (t : Traced Key) (x : Change) : Traced Key where
  keyboard := t.keyboard.step (.change ⟨host_can_send_nkro, x.timed_out⟩ (keyOf x.keycode) x.keycode)
  presses :=
    if t.keyboard.held (keyOf x.keycode) = none then x.keycode :: t.presses else t.presses

end

namespace Traced

variable (t : Traced Key)

def pair (i : Fin SNAP_CLICK_COUNT) : SnapClickConfig := t.keyboard.snap.snap_click_pair i

def Down (i : Fin SNAP_CLICK_COUNT) (b : Fin 2) : Prop := t.keyboard.Held ((t.pair i).key b)

def On (i : Fin SNAP_CLICK_COUNT) (b : Fin 2) : Prop :=
  registered t.keyboard.snap.keyboard ((t.pair i).key b) = true

instance [Fintype Key] (i : Fin SNAP_CLICK_COUNT) : DecidablePred (t.Down i) :=
  fun _ => inferInstanceAs (Decidable (∃ _, _ = _))

instance (i : Fin SNAP_CLICK_COUNT) : DecidablePred (t.On i) :=
  fun _ => inferInstanceAs (Decidable (_ = _))

def Resolved : Prop :=
  ∀ i, (t.pair i).type ≠ .NONE →
    ((∀ b, t.Down i b) →
      ∀ b, t.On i b ↔ dictated (t.pair i).type (later (t.pair i) t.presses) = some b) ∧
    (∀ b, t.Down i b → (¬ ∀ c, t.Down i c) →
      (t.On i b ↔ ((t.pair i).type = .REGULAR → later (t.pair i) t.presses = b))) ∧
    ¬ ∀ b, t.On i b

instance [Fintype Key] : Decidable t.Resolved :=
  inferInstanceAs (Decidable (∀ _, _ → (_ → ∀ _, _ ↔ _) ∧ (∀ _, _ → _ → (_ ↔ _)) ∧ ¬ ∀ _, _))

end Traced

/-- The keycode is of the pair, in use or not. -/
def SnapClickConfig.Has (p : SnapClickConfig) (code : UInt8) : Prop := ∃ b, code = p.key b

instance (p : SnapClickConfig) : DecidablePred p.Has :=
  fun _ => inferInstanceAs (Decidable (∃ _, _ = _))

/-- The pairs in use have two different basic keycodes, and share none. -/
def Separate (table : Fin SNAP_CLICK_COUNT → SnapClickConfig) : Prop :=
  ∀ i, (table i).type ≠ .NONE →
    (table i).Distinct ∧ (∀ b, IS_BASIC_KEYCODE ((table i).key b) = true) ∧
    ∀ j, j ≠ i → (table j).type ≠ .NONE → ∀ b, ¬ (table j).Has ((table i).key b)

instance (table : Fin SNAP_CLICK_COUNT → SnapClickConfig) : Decidable (Separate table) :=
  inferInstanceAs (Decidable (∀ _, _ → _ ∧ (∀ _, _) ∧ ∀ _, _ → _ → ∀ _, ¬ _))

section

variable [DecidableEq Key] (host_can_send_nkro : Bool) (keyOf : UInt8 → Key)

/-- A pair that has a key to register after the change has room for it: the
host takes the NKRO report, or the six slots are not all taken by other
codes. -/
def HasRoom (t : Traced Key) (x : Change) : Prop :=
  let t' := t.step host_can_send_nkro keyOf x
  ∀ i, (t.pair i).Matches ((t.keyboard.held (keyOf x.keycode)).getD x.keycode) →
    (∃ b, Registers (t.pair i).type (t'.Down i) (later (t.pair i) t'.presses) b) →
    Room ⟨host_can_send_nkro, x.timed_out⟩ t.keyboard.snap.keyboard.report (t.pair i).Has

instance [Fintype Key] (t : Traced Key) (x : Change) :
    Decidable (HasRoom host_can_send_nkro keyOf t x) :=
  inferInstanceAs (Decidable (∀ _, _ → (∃ _, _) → _))

end

/-! ## The codes that a change touches -/

/-- A host that does not take the NKRO report never had a key in it. -/
structure Tidy (host : Host) (s : State) : Prop where
  sound : Sound s.report
  slots : host.host_can_send_nkro = false → ∀ code, s.report.hasBit code = false

theorem Tidy.reach {host : Host} {s : State} (h : Tidy host s) (code : UInt8) :
    Reaches host s.report code := by
  intro _ hset
  cases hnkro : host.host_can_send_nkro with
  | true => rfl
  | false =>
    rw [h.slots hnkro code] at hset
    cases hset

/-- The reports after calls for some codes. -/
structure Touched (host : Host) (codes : UInt8 → Prop) (s s' : State) : Prop where
  tidy : Tidy host s'
  other : ∀ code, ¬ codes code → registered s' code = registered s code

namespace Touched

variable {host : Host} {codes : UInt8 → Prop} {s s' s'' : State}

theorem refl (h : Tidy host s) : Touched host codes s s := ⟨h, fun _ _ => rfl⟩

theorem trans (h : Touched host codes s s') (h' : Touched host codes s' s'') :
    Touched host codes s s'' :=
  ⟨h'.tidy, fun code hc => (h'.other code hc).trans (h.other code hc)⟩

theorem register (h : Tidy host s) {code : UInt8} (hc : codes code) :
    Touched host codes s (register_code host code s) := by
  have hchanged := register_code_changed h.sound (h.reach code)
  refine ⟨⟨hchanged.sound, fun hnkro key => ?_⟩, fun other ho => hchanged.registered other ?_⟩
  · unfold Report.hasBit
    rw [register_code_bits hnkro code s]
    exact h.slots hnkro key
  · rintro rfl
    exact ho hc

theorem unregister (h : Tidy host s) {code : UInt8} (hc : codes code) :
    Touched host codes s (unregister_code host code s) := by
  have hchanged := (unregister_code_changed h.sound (h.reach code)).1
  refine ⟨⟨hchanged.sound, fun hnkro key => ?_⟩, fun other ho => hchanged.registered other ?_⟩
  · unfold Report.hasBit
    rw [unregister_code_bits hnkro code s]
    exact h.slots hnkro key
  · rintro rfl
    exact ho hc

end Touched

theorem Tidy.unregister {host : Host} {s : State} (h : Tidy host s) (code : UInt8) :
    Tidy host (unregister_code host code s) :=
  (Touched.unregister h (Eq.refl code)).tidy

theorem has_key (p : SnapClickConfig) (b : Fin 2) : p.Has (p.key b) := ⟨b, rfl⟩

theorem has_iff {p : SnapClickConfig} {code : UInt8} :
    p.Has code ↔ code = p.key 0 ∨ code = p.key 1 :=
  Fin.exists_fin_two

section Pair

variable {host : Host} {p : SnapClickConfig} {index : Fin 2} {s : State}

/-- A switch touches the keys of its pair alone. -/
theorem touched_switchKeys (h : Tidy host s) (p : SnapClickConfig) (index : Fin 2)
    (pressed : Bool) :
    Touched host p.Has s (switchKeys host p index pressed s) := by
  have hreg : ∀ {s : State} (_ : Tidy host s) (a : Fin 2),
      Touched host p.Has s (register_code host (p.key a) s) := fun ht a => .register ht (has_key p a)
  have hun : ∀ b, Touched host p.Has s (unregister_code host (p.key b) s) :=
    fun b => .unregister h (has_key p b)
  have hswap : ∀ a b, Touched host p.Has s
      (register_code host (p.key a) (unregister_code host (p.key b) s)) :=
    fun a b => (hun b).trans (hreg (hun b).tidy a)
  unfold switchKeys
  split
  · unfold both_keys_pressed
    cases p.type with
    | REGULAR => exact hswap index (1 - index)
    | LAST_INPUT => exact hswap index (1 - index)
    | FIRST_KEY => exact hswap 0 1
    | SECOND_KEY => exact hswap 1 0
    | NEUTRAL => exact hun (1 - index)
    | NONE => exact .refl h
  · have hseen : ∀ s1, Touched host p.Has s s1 → Touched host p.Has s
        (if ¬ is_key_pressed host.host_can_send_nkro (p.key (1 - index)) s1.report then
          register_code host (p.key (1 - index)) s1
        else s1) := by
      intro s1 h1
      split
      · exact h1.trans (hreg h1.tidy (1 - index))
      · exact h1
    have hfirst : Touched host p.Has s
        (if is_key_pressed host.host_can_send_nkro (p.key index) s.report then
          unregister_code host (p.key index) s
        else s) := by
      split
      · exact hun index
      · exact .refl h
    unfold one_key_released
    cases p.type with
    | REGULAR => exact hun index
    | LAST_INPUT => exact hseen _ hfirst
    | FIRST_KEY => exact hseen _ hfirst
    | SECOND_KEY => exact hseen _ hfirst
    | NEUTRAL => exact hreg h (1 - index)
    | NONE => exact .refl h

/-! ## The keys of one pair -/

theorem ne_iff_other (index b : Fin 2) : b ≠ index ↔ b = 1 - index := by
  revert index b
  decide

theorem other_ne (index : Fin 2) : 1 - index ≠ index := by revert index; decide

theorem other_other (index : Fin 2) : 1 - (1 - index) = index := by revert index; decide

theorem eq_or_other (index b : Fin 2) : b = index ∨ b = 1 - index := by
  revert index b
  decide

theorem key_ne (hp : p.Distinct) {a b : Fin 2} (h : a ≠ b) : p.key a ≠ p.key b := by
  match a, b with
  | 0, 0 => exact absurd rfl h
  | 0, 1 => exact hp
  | 1, 0 => exact hp.symm
  | 1, 1 => exact absurd rfl h

variable (hp : p.Distinct) (hbasic : ∀ b, IS_BASIC_KEYCODE (p.key b) = true)

include hp hbasic

theorem on_register (h : Tidy host s) (hroom : Room host s.report p.Has) {a : Fin 2}
    (hoff : registered s (p.key (1 - a)) = false) (b : Fin 2) :
    registered (register_code host (p.key a) s) (p.key b) = true ↔ b = a := by
  rcases eq_or_other a b with rfl | rfl
  · refine iff_of_true (register_code_registered h.sound (hbasic b) (h.reach _) hroom ?_) rfl
    rintro - ⟨c, rfl⟩ hne
    rcases eq_or_other b c with rfl | rfl
    · exact absurd rfl hne
    · exact hoff
  · refine iff_of_false ?_ (other_ne a)
    rw [(register_code_changed h.sound (h.reach _)).registered _ (key_ne hp (other_ne a)), hoff]
    exact Bool.false_ne_true

theorem on_swap (h : Tidy host s) (hroom : Room host s.report p.Has) (a b : Fin 2) :
    registered (register_code host (p.key a) (unregister_code host (p.key (1 - a)) s))
      (p.key b) = true ↔ b = a :=
  on_register hp hbasic (h.unregister _)
    (room_unregister (hbasic _) hroom) (unregister_code_changed h.sound (h.reach _)).2 b

omit hbasic in
theorem on_unregister (h : Tidy host s) (a b : Fin 2) :
    registered (unregister_code host (p.key a) s) (p.key b) = true ↔
      b ≠ a ∧ registered s (p.key b) = true := by
  obtain ⟨hchanged, hgone⟩ := unregister_code_changed h.sound (h.reach (p.key a))
  by_cases hb : b = a
  · rw [hb, hgone]
    simp
  · rw [hchanged.registered _ (key_ne hp hb)]
    simp [hb]

omit hp in
theorem is_key_pressed_on (h : Tidy host s) (b : Fin 2) :
    is_key_pressed host.host_can_send_nkro (p.key b) s.report = registered s (p.key b) := by
  rw [registered_basic (hbasic b)]
  exact is_key_pressed_holds h.sound (basic_inNkroRange (hbasic b)).1 (h.reach _)

variable {held : Fin 2 → Prop} {last : Fin 2}

theorem both_keys_pressed_on (h : Tidy host s) (htype : p.type ≠ .NONE)
    (hon : ∀ b, registered s (p.key b) = true ↔ Registers p.type held last b)
    (hnew : ¬ held index)
    (hroom : (∃ b, dictated p.type index = some b) → Room host s.report p.Has) (b : Fin 2) :
    registered (both_keys_pressed host p index s) (p.key b) = true ↔
      dictated p.type index = some b := by
  have hswap : ∀ a, dictated p.type index = some a →
      (registered (register_code host (p.key a) (unregister_code host (p.key (1 - a)) s))
        (p.key b) = true ↔ dictated p.type index = some b) := by
    intro a ha
    rw [on_swap hp hbasic h (hroom ⟨a, ha⟩), ha, Option.some.injEq, eq_comm]
  unfold both_keys_pressed
  cases htp : p.type <;> rw [htp] at hswap
  case REGULAR => exact hswap index rfl
  case LAST_INPUT => exact hswap index rfl
  case FIRST_KEY => exact hswap 0 rfl
  case SECOND_KEY => exact hswap 1 rfl
  case NEUTRAL =>
    refine iff_of_false ?_ nofun
    rw [on_unregister hp h, hon]
    rintro ⟨hne, hheld, -⟩
    rcases eq_or_other index b with rfl | rfl
    · exact hnew hheld
    · exact hne rfl
  case NONE => exact absurd htp htype

/-- One of two held keys goes up. -/
theorem one_key_released_on (h : Tidy host s) (htype : p.type ≠ .NONE)
    (hon : ∀ b, registered s (p.key b) = true ↔ Registers p.type held last b)
    (hheld : ∀ b, held b)
    (hroom : (p.type = .REGULAR → last = 1 - index) → Room host s.report p.Has) (b : Fin 2) :
    registered (one_key_released host p index s) (p.key b) = true ↔
      b = 1 - index ∧ (p.type = .REGULAR → last = b) := by
  -- the three types that ask what is pressed
  have hseen : p.type ≠ .REGULAR → ∀ s1,
      s1 = (if is_key_pressed host.host_can_send_nkro (p.key index) s.report then
        unregister_code host (p.key index) s else s) →
      (registered (if ¬ is_key_pressed host.host_can_send_nkro (p.key (1 - index)) s1.report then
        register_code host (p.key (1 - index)) s1 else s1) (p.key b) = true ↔
        b = 1 - index ∧ (p.type = .REGULAR → last = b)) := by
    intro hreg s1 hs1
    have hfirst : Tidy host s1 ∧ Room host s1.report p.Has ∧
        registered s1 (p.key index) = false := by
      rw [hs1]
      split
      · exact ⟨h.unregister _, room_unregister (hbasic _) (hroom fun hr => absurd hr hreg),
          (unregister_code_changed h.sound (h.reach _)).2⟩
      · rename_i hoff
        rw [is_key_pressed_on hbasic h, Bool.not_eq_true] at hoff
        exact ⟨h, hroom fun hr => absurd hr hreg, hoff⟩
    obtain ⟨htidy, hroom1, hoff⟩ := hfirst
    rw [is_key_pressed_on hbasic htidy, and_iff_left fun hr => absurd hr hreg]
    split
    · exact on_register hp hbasic htidy hroom1 (by rwa [other_other]) b
    · rename_i hother
      rcases eq_or_other index b with rfl | rfl
      · exact iff_of_false (by simp [hoff]) (other_ne b).symm
      · exact iff_of_true (not_not.mp hother) rfl
  unfold one_key_released
  cases htp : p.type <;> rw [htp] at hseen
  case REGULAR =>
    rw [on_unregister hp h, ne_iff_other, hon, htp]
    refine and_congr_right fun _ => ⟨fun hr => hr.2.2, fun hlast => ⟨hheld b, fun _ => ?_, hlast⟩⟩
    rw [← hlast rfl]
    rfl
  case LAST_INPUT => exact hseen nofun _ rfl
  case FIRST_KEY => exact hseen nofun _ rfl
  case SECOND_KEY => exact hseen nofun _ rfl
  case NEUTRAL =>
    have hoff : registered s (p.key index) = false := by
      rw [← Bool.not_eq_true, hon, htp]
      exact fun hr => Option.some_ne_none _ (hr.2.1 hheld).symm
    rw [on_register hp hbasic h (hroom fun hr => by rw [htp] at hr; cases hr)
      (by rwa [other_other])]
    simp
  case NONE => exact absurd htp htype

/-! ## One pair over a change -/

variable {pState : SnapClickState}

omit hp hbasic in
theorem press_state (hz : pState.state_keys = 0 → pState = .zero) {index : Fin 2}
    (hnew : ¬ IsDown pState index) :
    (∀ b, IsDown (nextState true index pState) b ↔ b = index ∨ IsDown pState b) ∧
      (ends true index pState = true ↔ IsDown pState (1 - index)) := by
  obtain ⟨keys, last⟩ := pState
  revert hz hnew
  revert keys last index
  decide +kernel

omit hp hbasic in
theorem release_state {index : Fin 2} (hdown : IsDown pState index) :
    (∀ b, IsDown (nextState false index pState) b ↔ b ≠ index ∧ IsDown pState b) ∧
      (ends false index pState = true ↔ IsDown pState (1 - index)) := by
  obtain ⟨keys, last⟩ := pState
  revert hdown
  revert keys last index
  decide +kernel

end Pair

/-- The pair counts the keys that are held, and one is registered as the type
dictates. -/
structure PairGood (p : SnapClickConfig) (pState : SnapClickState) (s : State)
    (held : Fin 2 → Prop) (last : Fin 2) : Prop where
  counts : ∀ b, IsDown pState b ↔ held b
  zero : pState.state_keys = 0 → pState = .zero
  on : ∀ b, registered s (p.key b) = true ↔ Registers p.type held last b

section PairStep

variable {host : Host} {p : SnapClickConfig} {s : State} {pState : SnapClickState}
  {held held' : Fin 2 → Prop} {last : Fin 2}

theorem PairGood.press (h : PairGood p pState s held last) (hp : p.Distinct)
    (hbasic : ∀ b, IS_BASIC_KEYCODE (p.key b) = true) (htype : p.type ≠ .NONE)
    (ht : Tidy host s) {index : Fin 2} (hnew : ¬ held index) (hheld : ∀ b, held' b ↔ b = index ∨ held b)
    (hroom : (∃ b, Registers p.type held' index b) → Room host s.report p.Has) :
    PairGood p (nextState true index pState)
      (if ends true index pState then switchKeys host p index true s
        else process_action host (p.key index) true s) held' index := by
  obtain ⟨hcounts, hends⟩ := press_state h.zero (mt (h.counts index).mp hnew)
  have hself : held' index := (hheld index).mpr (.inl rfl)
  refine ⟨fun b => ?_, zero_next h.zero, fun b => ?_⟩
  · rw [hcounts, hheld, h.counts]
  · split
    · -- both are held
      rename_i hboth
      have hother : held (1 - index) := (h.counts _).mp (hends.mp hboth)
      have hall : ∀ b, held' b := by
        intro b
        rcases eq_or_other index b with rfl | rfl
        · exact hself
        · exact (hheld _).mpr (.inr hother)
      have hdict : ∀ b, Registers p.type held' index b ↔ dictated p.type index = some b := by
        refine fun b => ⟨fun hr => hr.2.1 hall, fun hd => ⟨hall b, fun _ => hd, fun hr => ?_⟩⟩
        rw [hr] at hd
        exact Option.some.inj hd
      rw [hdict]
      refine both_keys_pressed_on hp hbasic ht htype h.on hnew ?_ b
      rintro ⟨c, hc⟩
      exact hroom ⟨c, (hdict c).mpr hc⟩
    · -- it is the only one
      rename_i hone
      have hother : ¬ held (1 - index) := fun hh => hone (hends.mpr ((h.counts _).mpr hh))
      have hother' : ¬ held' (1 - index) := fun hh =>
        ((hheld _).mp hh).elim (other_ne index) hother
      have hoff : registered s (p.key (1 - index)) = false := by
        rw [← Bool.not_eq_true, h.on]
        exact fun hr => hother hr.1
      have hmine : Registers p.type held' index index :=
        ⟨hself, fun hh => absurd (hh _) hother', fun _ => rfl⟩
      have hon := on_register hp hbasic ht (hroom ⟨index, hmine⟩) hoff b
      unfold process_action
      rw [if_pos rfl, hon]
      rcases eq_or_other index b with rfl | rfl
      · exact iff_of_true rfl hmine
      · exact iff_of_false (other_ne index) fun hr => hother' hr.1

theorem PairGood.release (h : PairGood p pState s held last) (hp : p.Distinct)
    (hbasic : ∀ b, IS_BASIC_KEYCODE (p.key b) = true) (htype : p.type ≠ .NONE)
    (ht : Tidy host s) {index : Fin 2} (hdown : held index) (hheld : ∀ b, held' b ↔ b ≠ index ∧ held b)
    (hroom : (∃ b, Registers p.type held' last b) → Room host s.report p.Has) :
    PairGood p (nextState false index pState)
      (if ends false index pState then switchKeys host p index false s
        else process_action host (p.key index) false s) held' last := by
  obtain ⟨hcounts, hends⟩ := release_state ((h.counts index).mpr hdown)
  have hself : ¬ held' index := fun hh => ((hheld index).mp hh).1 rfl
  refine ⟨fun b => ?_, zero_next h.zero, fun b => ?_⟩
  · rw [hcounts, hheld, h.counts]
  · split
    · -- the other one is held still
      rename_i hboth
      have hother : held (1 - index) := (h.counts _).mp (hends.mp hboth)
      have hother' : held' (1 - index) := (hheld _).mpr ⟨other_ne index, hother⟩
      have hall : ∀ b, held b := by
        intro b
        rcases eq_or_other index b with rfl | rfl
        · exact hdown
        · exact hother
      have hdict : ∀ b, Registers p.type held' last b ↔
          b = 1 - index ∧ (p.type = .REGULAR → last = b) := by
        intro b
        rcases eq_or_other index b with rfl | rfl
        · exact iff_of_false (fun hr => hself hr.1) fun hr => other_ne b hr.1.symm
        · refine ⟨fun hr => ⟨rfl, hr.2.2⟩, fun hr => ⟨hother', fun hh => ?_, hr.2⟩⟩
          exact absurd (hh index) hself
      rw [hdict]
      exact one_key_released_on hp hbasic ht htype h.on hall
        (fun hr => hroom ⟨1 - index, (hdict _).mpr ⟨rfl, hr⟩⟩) b
    · -- it was the only one
      rename_i hone
      have hother : ¬ held (1 - index) := fun hh => hone (hends.mpr ((h.counts _).mpr hh))
      have hnone : ∀ b, ¬ held' b := by
        intro b hh
        rcases eq_or_other index b with rfl | rfl
        · exact hself hh
        · exact hother ((hheld _).mp hh).2
      unfold process_action
      rw [if_neg Bool.false_ne_true, on_unregister hp ht, h.on]
      refine iff_of_false ?_ fun hr => hnone b hr.1
      rintro ⟨hne, hr⟩
      exact hnone b ((hheld b).mpr ⟨hne, hr.1⟩)

end PairStep

/-! ## The table over a change -/

section Table

variable {host : Host} {s : SnapClick} {code : UInt8} {pressed : Bool} {i : Fin SNAP_CLICK_COUNT}

variable {p : SnapClickConfig}

theorem matches_of_key (htype : p.type ≠ .NONE) {b : Fin 2} (h : p.key b = code) :
    p.Matches code :=
  ⟨htype, has_iff.mp ⟨b, h.symm⟩⟩

theorem key_eq_iff (hp : p.Distinct) (hm : p.Matches code) {b : Fin 2} :
    p.key b = code ↔ b = p.index code := by
  constructor
  · intro hk
    by_contra hb
    exact key_ne hp hb (hk.trans (index_key hm).symm)
  · rintro rfl
    exact index_key hm

theorem matches_unique (hsep : Separate s.snap_click_pair) (hm : (s.snap_click_pair i).Matches code)
    {j : Fin SNAP_CLICK_COUNT} (hj : (s.snap_click_pair j).Matches code) : j = i := by
  by_contra hne
  have hapart := (hsep i hm.1).2.2 j hne hj.1 ((s.snap_click_pair i).index code)
  rw [index_key hm] at hapart
  exact hapart (has_iff.mpr hj.2)

theorem process_record_pair (host : Host) (hsep : Separate s.snap_click_pair)
    (hm : (s.snap_click_pair i).Matches code) (pressed : Bool) :
    (process_record host code pressed s).snap_click_state i = s.next code pressed i ∧
    (process_record host code pressed s).keyboard =
      if ends pressed ((s.snap_click_pair i).index code) (s.snap_click_state i) then
        switchKeys host (s.snap_click_pair i) ((s.snap_click_pair i).index code) pressed s.keyboard
      else process_action host code pressed s.keyboard := by
  have hloop := process_record_looped host code pressed s
  rw [(process_record_pairs host code pressed s).2]
  refine ⟨hloop.turn i (List.mem_finRange i) hm fun j _ hji hj => ?_, ?_⟩
  · exact hji.ne (matches_unique hsep hm hj.1)
  · rcases process_record_keyboard host code pressed s with ⟨hnone, heq⟩ | ⟨j, hj, heq⟩
    · rw [heq, if_neg fun hends => hnone i ⟨hm, hends⟩]
    · have hji := matches_unique hsep hm hj.1
      subst hji
      rw [heq, if_pos hj.2]

theorem process_record_state (hm : ¬ (s.snap_click_pair i).Matches code) :
    (process_record host code pressed s).snap_click_state i = s.snap_click_state i := by
  rw [(process_record_pairs host code pressed s).2]
  exact ((process_record_looped host code pressed s).stay i).resolve_right fun h => hm h.2.1

theorem process_record_table :
    (process_record host code pressed s).snap_click_pair = s.snap_click_pair :=
  (process_record_pairs host code pressed s).1.trans
    (process_record_looped host code pressed s).pair

/-- The code itself, or one of a pair in use that has it. -/
def SnapClick.Near (s : SnapClick) (code other : UInt8) : Prop :=
  other = code ∨ ∃ i, (s.snap_click_pair i).Matches code ∧ (s.snap_click_pair i).Has other

theorem touched_process_record (h : Tidy host s.keyboard) (code : UInt8) (pressed : Bool) :
    Touched host (s.Near code) s.keyboard (process_record host code pressed s).keyboard := by
  rcases process_record_keyboard host code pressed s with ⟨-, heq⟩ | ⟨i, ⟨hm, -⟩, heq⟩
  · rw [heq]
    unfold process_action
    split
    · exact .register h (.inl rfl)
    · exact .unregister h (.inl rfl)
  · rw [heq]
    have hswitch :=
      touched_switchKeys h (s.snap_click_pair i) ((s.snap_click_pair i).index code) pressed
    exact ⟨hswitch.tidy, fun other ho => hswitch.other other fun hh => ho (.inr ⟨i, hm, hh⟩)⟩

theorem not_near (hsep : Separate s.snap_click_pair) (htype : (s.snap_click_pair i).type ≠ .NONE)
    (hm : ¬ (s.snap_click_pair i).Matches code) (b : Fin 2) :
    ¬ s.Near code ((s.snap_click_pair i).key b) := by
  rintro (hcode | ⟨j, hj, hhas⟩)
  · exact hm (matches_of_key htype hcode)
  · refine (hsep i htype).2.2 j ?_ hj.1 b hhas
    rintro rfl
    exact hm hj

end Table

/-! ## Runs -/

section Runs

variable [DecidableEq Key] {host_can_send_nkro : Bool} {keyOf : UInt8 → Key}

structure Traced.Good (host_can_send_nkro : Bool) (keyOf : UInt8 → Key) (t : Traced Key) : Prop where
  separate : Separate t.keyboard.snap.snap_click_pair
  tidy : Tidy ⟨host_can_send_nkro, false⟩ t.keyboard.snap.keyboard
  on_key : ∀ key code, t.keyboard.held key = some code → keyOf code = key
  pairs : ∀ i, (t.pair i).type ≠ .NONE → PairGood (t.pair i) (t.keyboard.snap.snap_click_state i)
    t.keyboard.snap.keyboard (t.Down i) (later (t.pair i) t.presses)

omit [DecidableEq Key] in
theorem good_traced_boot {saved : Fin SNAP_CLICK_COUNT → SnapClickConfig} (hsep : Separate saved) :
    Traced.Good host_can_send_nkro keyOf (Traced.boot saved) := by
  refine ⟨hsep, ⟨start_sound, fun _ code => ?_⟩, nofun, fun i _ => ⟨fun b => ?_, fun _ => rfl,
    fun b => ?_⟩⟩
  · exact bitmap.test_zero code.toNat
  · refine iff_of_false (fun hdown => hdown ?_) nofun
    exact BitVec.and_zero
  · refine iff_of_false ?_ fun hr => nomatch hr.1
    exact Bool.not_eq_true _ ▸ start_registered _

variable {t : Traced Key}

omit [DecidableEq Key] in
theorem Traced.Good.resolved (h : t.Good host_can_send_nkro keyOf) : t.Resolved := by
  intro i htype
  have hon : ∀ b, t.On i b ↔
      Registers (t.pair i).type (t.Down i) (later (t.pair i) t.presses) b := (h.pairs i htype).on
  refine ⟨fun hall b => ?_, fun b hdown hup => ?_, fun hall => ?_⟩
  · rw [hon]
    refine ⟨fun hr => hr.2.1 hall, fun hd => ⟨hall b, fun _ => hd, fun hr => ?_⟩⟩
    rw [hr] at hd
    exact Option.some.inj hd
  · rw [hon]
    exact ⟨fun hr => hr.2.2, fun hr => ⟨hdown, fun hh => absurd hh hup, hr⟩⟩
  · -- what the type dictates is one key
    have h0 := (hon 0).mp (hall 0)
    have h1 := (hon 1).mp (hall 1)
    have hdown := Fin.forall_fin_two.mpr ⟨h0.1, h1.1⟩
    have hone := h0.2.1 hdown
    rw [h1.2.1 hdown] at hone
    cases hone

variable {kb : Keyboard Key}

theorem held_press {key : Key} (hfree : kb.held key = none) (snap : SnapClick)
    (code other : UInt8) :
    (⟨snap, Function.update kb.held key (some code)⟩ : Keyboard Key).Held other ↔
      other = code ∨ kb.Held other := by
  constructor
  · rintro ⟨k, hk⟩
    by_cases hkey : k = key
    · rw [hkey] at hk
      exact .inl (Option.some.inj ((Function.update_self key _ _).symm.trans hk)).symm
    · exact .inr ⟨k, (Function.update_of_ne hkey _ _).symm.trans hk⟩
  · rintro (rfl | ⟨k, hk⟩)
    · exact ⟨key, Function.update_self key _ _⟩
    · refine ⟨k, (Function.update_of_ne ?_ _ _).trans hk⟩
      rintro rfl
      rw [hfree] at hk
      cases hk

variable {code : UInt8}

theorem held_release (hon : ∀ key code, kb.held key = some code → keyOf code = key) {key : Key}
    (hkey : kb.held key = some code) (snap : SnapClick) (other : UInt8) :
    (⟨snap, Function.update kb.held key none⟩ : Keyboard Key).Held other ↔
      other ≠ code ∧ kb.Held other := by
  constructor
  · rintro ⟨k, hk⟩
    have hne : k ≠ key := by
      rintro rfl
      exact nomatch (Function.update_self k _ _).symm.trans hk
    have hk' := (Function.update_of_ne hne _ _).symm.trans hk
    refine ⟨?_, k, hk'⟩
    rintro rfl
    exact hne ((hon k _ hk').symm.trans (hon key _ hkey))
  · rintro ⟨hne, k, hk⟩
    refine ⟨k, (Function.update_of_ne ?_ _ _).trans hk⟩
    rintro rfl
    rw [hkey] at hk
    exact hne (Option.some.inj hk).symm

theorem PairGood.other {host : Host} {s : SnapClick} {pressed : Bool} {i : Fin SNAP_CLICK_COUNT}
    {held held' : Fin 2 → Prop} {last : Fin 2}
    (h : PairGood (s.snap_click_pair i) (s.snap_click_state i) s.keyboard held last)
    (hsep : Separate s.snap_click_pair) (ht : Tidy host s.keyboard)
    (htype : (s.snap_click_pair i).type ≠ .NONE) (hm : ¬ (s.snap_click_pair i).Matches code)
    (hheld : ∀ b, held' b ↔ held b) :
    PairGood (s.snap_click_pair i) ((process_record host code pressed s).snap_click_state i)
      (process_record host code pressed s).keyboard held' last := by
  have heq : held' = held := funext fun b => propext (hheld b)
  rw [heq, process_record_state hm]
  refine ⟨h.counts, h.zero, fun b => ?_⟩
  rw [(touched_process_record ht code pressed).other _ (not_near hsep htype hm b)]
  exact h.on b

variable {x : Change}

theorem Traced.step_press (hfree : t.keyboard.held (keyOf x.keycode) = none) :
    t.step host_can_send_nkro keyOf x =
      ⟨⟨process_record ⟨host_can_send_nkro, x.timed_out⟩ x.keycode true t.keyboard.snap,
        Function.update t.keyboard.held (keyOf x.keycode) (some x.keycode)⟩,
        x.keycode :: t.presses⟩ := by
  unfold Traced.step Keyboard.step
  simp only [hfree, if_pos]

theorem Traced.step_release (hkey : t.keyboard.held (keyOf x.keycode) = some code) :
    t.step host_can_send_nkro keyOf x =
      ⟨⟨process_record ⟨host_can_send_nkro, x.timed_out⟩ code false t.keyboard.snap,
        Function.update t.keyboard.held (keyOf x.keycode) none⟩, t.presses⟩ := by
  unfold Traced.step Keyboard.step
  simp only [hkey, reduceCtorEq, if_false]

theorem Traced.Good.press (h : t.Good host_can_send_nkro keyOf)
    (hfree : t.keyboard.held (keyOf x.keycode) = none)
    (hroom : HasRoom host_can_send_nkro keyOf t x) :
    (t.step host_can_send_nkro keyOf x).Good host_can_send_nkro keyOf := by
  have hnew : ¬ t.keyboard.Held x.keycode := by
    rintro ⟨k, hk⟩
    rw [← h.on_key k _ hk, hfree] at hk
    cases hk
  have ht : Tidy ⟨host_can_send_nkro, x.timed_out⟩ t.keyboard.snap.keyboard :=
    ⟨h.tidy.sound, h.tidy.slots⟩
  have htouched := touched_process_record ht x.keycode true
  unfold HasRoom at hroom
  rw [hfree, Traced.step_press hfree] at hroom
  rw [Traced.step_press hfree]
  refine ⟨process_record_table.symm ▸ h.separate, ⟨htouched.tidy.sound, htouched.tidy.slots⟩,
    fun key code hcode => ?_, fun i htype => ?_⟩
  · by_cases hk : key = keyOf x.keycode
    · rw [hk] at hcode ⊢
      rw [Option.some.inj ((Function.update_self (keyOf x.keycode) _ _).symm.trans hcode)]
    · exact h.on_key key code ((Function.update_of_ne hk _ _).symm.trans hcode)
  · have hroom := hroom i
    unfold Traced.Down at hroom ⊢
    unfold Traced.pair at htype hroom ⊢
    rw [process_record_table] at htype hroom ⊢
    have hgood : PairGood (t.keyboard.snap.snap_click_pair i) (t.keyboard.snap.snap_click_state i)
        t.keyboard.snap.keyboard (t.Down i) (later (t.keyboard.snap.snap_click_pair i) t.presses) :=
      h.pairs i htype
    by_cases hm : (t.keyboard.snap.snap_click_pair i).Matches x.keycode
    · have hroom := hroom hm
      obtain ⟨hdistinct, hbasic, -⟩ := h.separate i htype
      obtain ⟨hstate, hkeyboard⟩ :=
        process_record_pair ⟨host_can_send_nkro, x.timed_out⟩ h.separate hm true
      rw [later_press hm] at hroom ⊢
      rw [hstate, hkeyboard]
      have hup : ¬ t.Down i ((t.keyboard.snap.snap_click_pair i).index x.keycode) := by
        unfold Traced.Down Traced.pair
        rw [index_key hm]
        exact hnew
      have hpress := hgood.press hdistinct hbasic htype ht hup (fun b => ?_) hroom
      · rw [index_key hm] at hpress
        exact hpress
      · rw [held_press hfree, key_eq_iff hdistinct hm]
        rfl
    · rw [later_other hm]
      refine hgood.other h.separate ht htype hm fun b => ?_
      rw [held_press hfree, or_iff_right fun hcode => hm (matches_of_key htype hcode)]
      rfl

theorem Traced.Good.release (h : t.Good host_can_send_nkro keyOf)
    (hkey : t.keyboard.held (keyOf x.keycode) = some code)
    (hroom : HasRoom host_can_send_nkro keyOf t x) :
    (t.step host_can_send_nkro keyOf x).Good host_can_send_nkro keyOf := by
  have ht : Tidy ⟨host_can_send_nkro, x.timed_out⟩ t.keyboard.snap.keyboard :=
    ⟨h.tidy.sound, h.tidy.slots⟩
  have htouched := touched_process_record ht code false
  unfold HasRoom at hroom
  rw [hkey, Traced.step_release hkey] at hroom
  rw [Traced.step_release hkey]
  refine ⟨process_record_table.symm ▸ h.separate, ⟨htouched.tidy.sound, htouched.tidy.slots⟩,
    fun key other hother => ?_, fun i htype => ?_⟩
  · by_cases hk : key = keyOf x.keycode
    · rw [hk] at hother
      exact nomatch (Function.update_self (keyOf x.keycode) _ _).symm.trans hother
    · exact h.on_key key other ((Function.update_of_ne hk _ _).symm.trans hother)
  · have hroom := hroom i
    unfold Traced.Down at hroom ⊢
    unfold Traced.pair at htype hroom ⊢
    rw [process_record_table] at htype hroom ⊢
    have hgood : PairGood (t.keyboard.snap.snap_click_pair i) (t.keyboard.snap.snap_click_state i)
        t.keyboard.snap.keyboard (t.Down i) (later (t.keyboard.snap.snap_click_pair i) t.presses) :=
      h.pairs i htype
    by_cases hm : (t.keyboard.snap.snap_click_pair i).Matches code
    · have hroom := hroom hm
      obtain ⟨hdistinct, hbasic, -⟩ := h.separate i htype
      obtain ⟨hstate, hkeyboard⟩ :=
        process_record_pair ⟨host_can_send_nkro, x.timed_out⟩ h.separate hm false
      rw [hstate, hkeyboard]
      have hdown : t.Down i ((t.keyboard.snap.snap_click_pair i).index code) := by
        unfold Traced.Down Traced.pair
        rw [index_key hm]
        exact ⟨_, hkey⟩
      have hrelease := hgood.release hdistinct hbasic htype ht hdown (fun b => ?_) hroom
      · rw [index_key hm] at hrelease
        exact hrelease
      · rw [held_release h.on_key hkey, ne_eq, key_eq_iff hdistinct hm]
        rfl
    · refine hgood.other h.separate ht htype hm fun b => ?_
      rw [held_release h.on_key hkey, and_iff_right fun hcode => hm (matches_of_key htype hcode)]
      rfl

theorem Traced.Good.step (h : t.Good host_can_send_nkro keyOf)
    (hroom : HasRoom host_can_send_nkro keyOf t x) :
    (t.step host_can_send_nkro keyOf x).Good host_can_send_nkro keyOf := by
  cases hkey : t.keyboard.held (keyOf x.keycode) with
  | none => exact h.press hkey hroom
  | some code => exact h.release hkey hroom

/-- From a saved table of separate pairs, in every run of changes that have
room, each pair is resolved after every step. -/
theorem pairs_are_resolved_where_there_is_room
    {saved : Fin SNAP_CLICK_COUNT → SnapClickConfig} (hsep : Separate saved)
    (changes : List Change) (hroom : Along (Traced.step host_can_send_nkro keyOf)
      (HasRoom host_can_send_nkro keyOf) (.boot saved) changes) :
    Along (Traced.step host_can_send_nkro keyOf)
      (fun t x => (t.step host_can_send_nkro keyOf x).Resolved) (.boot saved) changes :=
  Along.imp (fun _ _ hgood hc => ⟨(hgood.step hc).resolved, hgood.step hc⟩)
    (good_traced_boot hsep) hroom

end Runs

def onePair (p : SnapClickConfig) (i : Fin SNAP_CLICK_COUNT) : SnapClickConfig :=
  if i.val = 0 then p else ⟨.NONE, fun _ => 0⟩

def eightKeys (code : UInt8) : Fin 8 := Fin.ofNat 8 code.toNat

/-- A and B are a pair of type FIRST_KEY. B goes down, then A, and A comes up
before B. -/
theorem the_first_key_is_resolved :
    Along (Traced.step false eightKeys) (fun t x => (t.step false eightKeys x).Resolved)
      (.boot (onePair ⟨.FIRST_KEY, ![0x04, 0x05]⟩))
      [⟨false, 0x05⟩, ⟨false, 0x04⟩, ⟨false, 0x04⟩, ⟨false, 0x05⟩] :=
  pairs_are_resolved_where_there_is_room (by decide) _ (by decide +kernel)

/-- A and B are a pair. Six other keys are held by a host that takes no NKRO
report, and A goes down: it is held alone, and is not registered. -/
theorem a_seventh_key_is_not_resolved :
    ¬ ∀ (host_can_send_nkro : Bool) (keyOf : UInt8 → Fin 8)
      (saved : Fin SNAP_CLICK_COUNT → SnapClickConfig), Separate saved →
      ∀ changes : List Change, Along (Traced.step host_can_send_nkro keyOf)
        (fun t x => (t.step host_can_send_nkro keyOf x).Resolved) (.boot saved) changes := by
  intro h
  have hrun := h false eightKeys (onePair ⟨.REGULAR, ![0x04, 0x05]⟩) (by decide)
    [⟨false, 0x06⟩, ⟨false, 0x07⟩, ⟨false, 0x08⟩, ⟨false, 0x09⟩, ⟨false, 0x0A⟩, ⟨false, 0x0B⟩,
      ⟨false, 0x04⟩]
  revert hrun
  decide +kernel

end keychron_qmk.snap_click
