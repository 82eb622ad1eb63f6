-- `register_code` and `unregister_code` of `quantum/action.c`, and which
-- codes they leave in the reports and in the modifiers. System, consumer and
-- mouse codes have reports of their own.
import KeychronQMK.Report.ChangeTracking
import KeychronQMK.Report.Counters
import KeychronQMK.Report.Presence

namespace keychron_qmk.action

open report action_util bitmap

def KC_NO : UInt8 := 0x00

def KC_A : UInt8 := 0x04

def KC_EXSEL : UInt8 := 0xA4

def KC_LEFT_CTRL : UInt8 := 0xE0

def KC_RIGHT_GUI : UInt8 := 0xE7

def IS_BASIC_KEYCODE (code : UInt8) : Bool := KC_A ≤ code ∧ code ≤ KC_EXSEL

def IS_MODIFIER_KEYCODE (code : UInt8) : Bool := KC_LEFT_CTRL ≤ code ∧ code ≤ KC_RIGHT_GUI

def MOD_BIT (code : UInt8) : UInt8 := 1 <<< (code &&& 0x07)

/-- What `host_can_send_nkro` and `has_oneshot_mods_timed_out` answer. -/
structure Host where
  host_can_send_nkro : Bool
  timed_out : Bool

section

variable (host : Host)

def send (s : State) : State := send_keyboard_report host.host_can_send_nkro host.timed_out s

def add_key (key : UInt8) (s : State) : State :=
  { s with report := add_key_to_report host.host_can_send_nkro key s.report }

def del_key (key : UInt8) (s : State) : State :=
  { s with report := del_key_from_report host.host_can_send_nkro key s.report }

def register_code (code : UInt8) (s : State) : State :=
  if code = KC_NO then s
  else if IS_BASIC_KEYCODE code then
    -- a key that is pressed already is pressed anew
    let s := if is_key_pressed host.host_can_send_nkro code s.report then
        send host (del_key host code s)
      else s
    send host (add_key host code s)
  else if IS_MODIFIER_KEYCODE code then send host (add_mods (MOD_BIT code) s)
  else s

def unregister_code (code : UInt8) (s : State) : State :=
  if code = KC_NO then s
  else if IS_BASIC_KEYCODE code then send host (del_key host code s)
  else if IS_MODIFIER_KEYCODE code then send host (del_mods (MOD_BIT code) s)
  else s

end

/-! ## Where a code is -/

def holds (r : Report) (key : UInt8) : Bool := (∃ i, r.keys i = key) ∨ r.hasBit key = true

def registered (s : State) (code : UInt8) : Bool :=
  (code ≠ KC_NO ∧ holds s.report code = true) ∨
    (IS_MODIFIER_KEYCODE code = true ∧ s.mods.real_mods &&& MOD_BIT code ≠ 0)

/-- The reports hold keys of the basic range, each in one place, and the
counters are right. -/
structure Sound (r : Report) : Prop where
  place : OnePlace r
  counters : CountersMatch r
  basic : ∀ key, key ≠ 0 → holds r key = true → IS_BASIC_KEYCODE key = true

def Reaches (host : Host) (r : Report) (code : UInt8) : Prop :=
  code ≠ KC_NO → r.hasBit code = true → host.host_can_send_nkro = true

instance (host : Host) (r : Report) (code : UInt8) : Decidable (Reaches host r code) :=
  inferInstanceAs (Decidable (_ → _ → _))

theorem basic_iff {code : UInt8} :
    IS_BASIC_KEYCODE code = true ↔ 0x04 ≤ code.toNat ∧ code.toNat ≤ 0xA4 := by
  unfold IS_BASIC_KEYCODE
  rw [decide_eq_true_iff, UInt8.le_iff_toNat_le, UInt8.le_iff_toNat_le]
  rfl

theorem modifier_iff {code : UInt8} :
    IS_MODIFIER_KEYCODE code = true ↔ 0xE0 ≤ code.toNat ∧ code.toNat ≤ 0xE7 := by
  unfold IS_MODIFIER_KEYCODE
  rw [decide_eq_true_iff, UInt8.le_iff_toNat_le, UInt8.le_iff_toNat_le]
  rfl

theorem basic_inNkroRange {code : UInt8} (h : IS_BASIC_KEYCODE code = true) :
    InNkroRange code := by
  rw [basic_iff] at h
  refine ⟨?_, ?_⟩
  · rintro rfl
    simp at h
  · rw [byte_index]
    unfold NKRO_REPORT_BITS
    omega

theorem modifier_not_basic {code : UInt8} (h : IS_MODIFIER_KEYCODE code = true) :
    ¬ IS_BASIC_KEYCODE code = true := by
  rw [modifier_iff] at h
  rw [basic_iff]
  omega

variable {other key : UInt8}

theorem modifier_bits {code : UInt8} (h : IS_MODIFIER_KEYCODE code = true)
    (h' : IS_MODIFIER_KEYCODE other = true) (hne : other ≠ code) :
    code.toNat % 8 ≠ other.toNat % 8 := by
  rw [modifier_iff] at h h'
  have := mt UInt8.toNat_inj.mp hne
  omega

variable {r r' : Report}

theorem holds_iff : holds r key = true ↔ r.places key ≠ 0 := by
  have hslots : (∃ i, r.keys i = key) ↔ r.slots key ≠ 0 := by
    rw [ne_eq, slots_eq_zero]
    simp
  unfold holds Report.places
  rw [decide_eq_true_iff, hslots]
  cases r.hasBit key <;> simp

theorem holds_congr (h : r'.places key = r.places key) : holds r' key = holds r key := by
  rw [Bool.eq_iff_iff, holds_iff, holds_iff, h]

/-! ## Keys of a report -/

structure Changed (key : UInt8) (r r' : Report) : Prop where
  sound : Sound r'
  other : ∀ other, other ≠ 0 → other ≠ key →
    holds r' other = holds r other ∧ r'.hasBit other = r.hasBit other

theorem basic_of_other (h : Sound r) (hk : IS_BASIC_KEYCODE key = true)
    (hother : ∀ other, other ≠ 0 → other ≠ key → holds r' other = holds r other) :
    ∀ code, code ≠ 0 → holds r' code = true → IS_BASIC_KEYCODE code = true := by
  intro code h0 hheld
  by_cases hc : code = key
  · rw [hc]
    exact hk
  · rw [hother code h0 hc] at hheld
    exact h.basic code h0 hheld

theorem del_key_changed (h : Sound r) {host : Host} (hk : IS_BASIC_KEYCODE key = true)
    (hreach : Reaches host r key) :
    Changed key r (del_key_from_report host.host_can_send_nkro key r) ∧
      holds (del_key_from_report host.host_can_send_nkro key r) key = false := by
  have hrange := basic_inNkroRange hk
  have hfree : OtherReportFree r ⟨host.host_can_send_nkro, .del_key_from_report key hrange⟩ :=
    fun hset => ⟨hreach hrange.1 hset, bit_counted h.counters hset⟩
  obtain ⟨hplace, hgone, hother⟩ := (del_key_tracks_iff h.place _ hrange).mp hfree
  have hsame : ∀ other, other ≠ 0 → other ≠ key →
      holds (del_key_from_report host.host_can_send_nkro key r) other = holds r other := by
    intro other h0 hne
    obtain ⟨hslots, hbit⟩ := hother other h0 hne
    exact holds_congr (congrArg₂ (fun n (b : Bool) => n + b.toNat) hslots hbit)
  have hcounters : CountersMatch (del_key_from_report host.host_can_send_nkro key r) :=
    (step_match_iff h.counters ⟨_, .del_key_from_report key hrange.1⟩).mpr trivial
  refine ⟨⟨⟨hplace, hcounters, basic_of_other h hk hsame⟩, fun other h0 hne =>
    ⟨hsame other h0 hne, (hother other h0 hne).2⟩⟩, ?_⟩
  rw [← Bool.not_eq_true, holds_iff, not_not]
  exact hgone

/-- A press of a key that is in no report. -/
theorem add_key_changed (h : Sound r) {host : Host} (hk : IS_BASIC_KEYCODE key = true)
    (hfree : holds r key = false) :
    Changed key r (add_key_to_report host.host_can_send_nkro key r) := by
  have hrange := basic_inNkroRange hk
  have hplaces : r.places key = 0 := by
    rw [← Bool.not_eq_true, holds_iff, not_not] at hfree
    exact hfree
  obtain ⟨hslots, hbit⟩ := Nat.add_eq_zero_iff.mp hplaces
  have hplace : OnePlace (add_key_to_report host.host_can_send_nkro key r) := by
    refine (add_key_tracks_iff h.place _ hrange).mp ?_
    unfold OtherReportFree
    dsimp only
    split
    · exact slots_eq_zero.mp hslots
    · intro hset
      rw [hset] at hbit
      cases hbit
  have hcounters : CountersMatch (add_key_to_report host.host_can_send_nkro key r) :=
    (step_match_iff h.counters ⟨_, .add_key_to_report key hrange.1⟩).mpr trivial
  have hother : ∀ other, other ≠ 0 → other ≠ key →
      (add_key_to_report host.host_can_send_nkro key r).slots other = r.slots other ∧
        (add_key_to_report host.host_can_send_nkro key r).hasBit other = r.hasBit other := by
    intro other h0 hne
    unfold add_key_to_report
    split
    · obtain ⟨hset, hkeys⟩ := add_key_bit_hasBit hrange.2 r other
      refine ⟨slots_congr hkeys other, ?_⟩
      rw [hset]
      simp [Ne.symm hne]
    · rcases add_key_byte_cases key r with ⟨heq, -⟩ | ⟨e, he, -, heq⟩
      · rw [heq]
        exact ⟨rfl, rfl⟩
      · rw [heq]
        refine ⟨?_, rfl⟩
        rw [slots_update he rfl h0, if_neg (Ne.symm hne), Nat.add_zero]
  have hsame : ∀ other, other ≠ 0 → other ≠ key →
      holds (add_key_to_report host.host_can_send_nkro key r) other = holds r other := by
    intro other h0 hne
    obtain ⟨hslots, hbit⟩ := hother other h0 hne
    exact holds_congr (congrArg₂ (fun n (b : Bool) => n + b.toNat) hslots hbit)
  exact ⟨⟨hplace, hcounters, basic_of_other h hk hsame⟩, fun other h0 hne =>
    ⟨hsame other h0 hne, (hother other h0 hne).2⟩⟩

theorem is_key_pressed_holds (h : Sound r) {host : Host} (h0 : key ≠ 0)
    (hreach : Reaches host r key) : is_key_pressed host.host_can_send_nkro key r = holds r key := by
  rw [Bool.eq_iff_iff, is_key_pressed_iff h.counters h0]
  unfold holds
  rw [decide_eq_true_iff]
  constructor
  · rintro (⟨-, hset⟩ | hslot)
    · exact .inr hset
    · exact .inl hslot
  · rintro (hslot | hset)
    · exact .inr hslot
    · exact .inl ⟨hreach h0 hset, hset⟩

/-! ## The two calls -/

theorem send_same (host : Host) (s : State) :
    (send host s).report.keys = s.report.keys ∧ (send host s).report.bits = s.report.bits ∧
      (send host s).report.kb_keys_count = s.report.kb_keys_count ∧
      (send host s).report.nkro_bit_count = s.report.nkro_bit_count ∧
      (send host s).mods.real_mods = s.mods.real_mods := by
  unfold send send_keyboard_report
  obtain ⟨x, hx⟩ := send_6kro_report_eq host.timed_out s
  rw [hx]
  simp only [send_nkro_report_eq]
  split <;> split <;> exact ⟨rfl, rfl, rfl, rfl, rfl⟩

theorem send_hasBit (host : Host) (s : State) (code : UInt8) :
    (send host s).report.hasBit code = s.report.hasBit code := by
  unfold Report.hasBit
  rw [(send_same host s).2.1]

theorem send_holds (host : Host) (s : State) (code : UInt8) :
    holds (send host s).report code = holds s.report code :=
  holds_congr (places_congr (send_same host s).1 (send_hasBit host s code))

theorem send_registered (host : Host) (s : State) (code : UInt8) :
    registered (send host s) code = registered s code := by
  unfold registered
  rw [send_holds, (send_same host s).2.2.2.2]

variable {s s' : State}

theorem send_sound (h : Sound s.report) (host : Host) : Sound (send host s).report := by
  obtain ⟨hkeys, hbits, hcount, hbitcount, -⟩ := send_same host s
  refine ⟨fun key h0 => ?_, ⟨?_, ?_⟩, fun key h0 hheld => ?_⟩
  · rw [places_congr hkeys (send_hasBit host s key)]
    exact h.place key h0
  · rw [hcount, h.counters.keys]
    unfold Report.pressed
    rw [hkeys]
  · rw [hbitcount, hbits]
    exact h.counters.bits
  · rw [send_holds] at hheld
    exact h.basic key h0 hheld

/-- The keys and the modifiers after a call for one code. -/
structure CodeChanged (code : UInt8) (s s' : State) : Prop where
  sound : Sound s'.report
  registered : ∀ other, other ≠ code → registered s' other = registered s other
  bit : ∀ other, other ≠ 0 → other ≠ code → s'.report.hasBit other = s.report.hasBit other

theorem CodeChanged.refl (h : Sound s.report) (code : UInt8) : CodeChanged code s s :=
  ⟨h, fun _ _ => rfl, fun _ _ _ => rfl⟩

theorem CodeChanged.send {code : UInt8} (h : CodeChanged code s s') (host : Host) :
    CodeChanged code s (send host s') :=
  ⟨send_sound h.sound host,
    fun other hne => (send_registered host s' other).trans (h.registered other hne),
    fun other h0 hne => (send_hasBit host s' other).trans (h.bit other h0 hne)⟩

theorem CodeChanged.trans {code : UInt8} {s'' : State} (h : CodeChanged code s s')
    (h' : CodeChanged code s' s'') : CodeChanged code s s'' :=
  ⟨h'.sound, fun other hne => (h'.registered other hne).trans (h.registered other hne),
    fun other h0 hne => (h'.bit other h0 hne).trans (h.bit other h0 hne)⟩

theorem Changed.code (h : Changed key s.report r) : CodeChanged key s { s with report := r } := by
  refine ⟨h.sound, fun other hne => ?_, fun other h0 hne => (h.other other h0 hne).2⟩
  unfold action.registered
  by_cases h0 : other = KC_NO
  · simp [h0]
  · rw [(h.other other h0 hne).1]

theorem registered_iff (h : Sound s.report) {code : UInt8} (hb : ¬ IS_BASIC_KEYCODE code = true) :
    registered s code = true ↔
      IS_MODIFIER_KEYCODE code = true ∧ s.mods.real_mods &&& MOD_BIT code ≠ 0 := by
  unfold registered
  rw [decide_eq_true_iff]
  constructor
  · rintro (⟨h0, hheld⟩ | hmod)
    · exact absurd (h.basic code h0 hheld) hb
    · exact hmod
  · exact .inr

theorem registered_basic {code : UInt8} (hb : IS_BASIC_KEYCODE code = true) :
    registered s code = holds s.report code := by
  have hmod : ¬ IS_MODIFIER_KEYCODE code = true := fun h => modifier_not_basic h hb
  have h0 : code ≠ KC_NO := (basic_inNkroRange hb).1
  unfold registered
  simp [hmod, h0]

theorem mods_changed (h : Sound s.report) {code : UInt8} {flag : Bool} {mods : UInt8}
    (hmods : ∀ other, IS_MODIFIER_KEYCODE other = true → other ≠ code →
      (mods &&& MOD_BIT other = 0 ↔ s.mods.real_mods &&& MOD_BIT other = 0)) :
    CodeChanged code s { s with
      report := flagStd flag s.report
      mods := { s.mods with real_mods := mods } } := by
  have hr : (flagStd flag s.report).keys = s.report.keys ∧
      (∀ key, (flagStd flag s.report).hasBit key = s.report.hasBit key) ∧
      (Sound s.report → Sound (flagStd flag s.report)) := by
    unfold flagStd
    split
    · refine ⟨rfl, fun _ => rfl, fun h => ?_⟩
      exact ⟨h.place, ⟨h.counters.keys, h.counters.bits⟩, h.basic⟩
    · exact ⟨rfl, fun _ => rfl, id⟩
  obtain ⟨hkeys, hbit, hsound⟩ := hr
  refine ⟨hsound h, fun other hne => ?_, fun other _ _ => hbit other⟩
  rw [Bool.eq_iff_iff]
  unfold registered
  rw [decide_eq_true_iff, decide_eq_true_iff, holds_congr (places_congr hkeys (hbit other))]
  refine or_congr Iff.rfl (and_congr_right fun hm => ?_)
  exact not_congr (hmods other hm hne)

/-- An unregistered code is in no report, and not in the modifiers. -/
theorem unregister_code_changed (h : Sound s.report) {host : Host} {code : UInt8}
    (hreach : Reaches host s.report code) : CodeChanged code s (unregister_code host code s) ∧
      registered (unregister_code host code s) code = false := by
  unfold unregister_code
  split
  · rename_i h0
    refine ⟨.refl h code, ?_⟩
    rw [h0]
    rfl
  · split
    · rename_i hb
      obtain ⟨hchanged, hgone⟩ := del_key_changed h hb hreach
      refine ⟨hchanged.code.send host, ?_⟩
      rw [send_registered, registered_basic hb]
      exact hgone
    · rename_i hb
      split
      · rename_i hm
        have hchanged : CodeChanged code s (del_mods (MOD_BIT code) s) :=
          mods_changed h fun other hm' hne =>
            and_not_and_bitOf s.mods.real_mods code other (modifier_bits hm hm' hne)
        refine ⟨hchanged.send host, ?_⟩
        rw [send_registered, ← Bool.not_eq_true, registered_iff hchanged.sound hb]
        rintro ⟨-, hset⟩
        refine hset ?_
        change s.mods.real_mods &&& ~~~(bitOf code) &&& bitOf code = 0
        rw [UInt8.and_assoc, UInt8.and_comm _ (bitOf code), UInt8.and_not_self, UInt8.and_zero]
      · rename_i hm
        refine ⟨.refl h code, ?_⟩
        rw [← Bool.not_eq_true, registered_iff h hb]
        exact fun hheld => hm hheld.1

theorem reaches_unregister (h : Sound s.report) {host : Host} {code : UInt8}
    (hreach : Reaches host s.report code) (hother : Reaches host s.report other) :
    Reaches host (unregister_code host code s).report other := by
  intro h0 hset
  obtain ⟨hchanged, hgone⟩ := unregister_code_changed h hreach
  by_cases hc : other = code
  · subst hc
    unfold registered holds at hgone
    simp [h0, hset] at hgone
  · rw [hchanged.bit other h0 hc] at hset
    exact hother h0 hset

theorem register_code_changed (h : Sound s.report) {host : Host} {code : UInt8}
    (hreach : Reaches host s.report code) : CodeChanged code s (register_code host code s) := by
  unfold register_code
  split
  · exact .refl h code
  · split
    · rename_i hb
      -- the key that is pressed already is released first
      have hfirst : ∀ s1, s1 = (if is_key_pressed host.host_can_send_nkro code s.report then
          send host (del_key host code s) else s) →
          CodeChanged code s s1 ∧ holds s1.report code = false := by
        rintro s1 rfl
        split
        · obtain ⟨hchanged, hgone⟩ := del_key_changed h hb hreach
          exact ⟨hchanged.code.send host, (send_holds host _ code).trans hgone⟩
        · rename_i hfree
          rw [is_key_pressed_holds h (basic_inNkroRange hb).1 hreach] at hfree
          exact ⟨.refl h code, by simpa using hfree⟩
      obtain ⟨hchanged, hfree⟩ := hfirst _ rfl
      exact hchanged.trans ((add_key_changed hchanged.sound hb hfree).code.send host)
    · split
      · rename_i hm
        refine CodeChanged.send (mods_changed h fun other hm' hne => ?_) host
        exact or_and_bitOf s.mods.real_mods code other (modifier_bits hm hm' hne)
      · exact .refl h code

/-! ## Room in the reports -/

/-- The host takes the NKRO report, or one of the six slots is empty or has one
of the codes. -/
def Room (host : Host) (r : Report) (codes : UInt8 → Prop) : Prop :=
  host.host_can_send_nkro = true ∨ ∃ i, r.keys i = 0 ∨ codes (r.keys i)

instance (host : Host) (r : Report) (codes : UInt8 → Prop) [DecidablePred codes] :
    Decidable (Room host r codes) :=
  inferInstanceAs (Decidable (_ ∨ ∃ _, _ ∨ _))

theorem keys_count_of_full (h : Sound r) (hfull : ∀ i, r.keys i ≠ 0) :
    r.kb_keys_count = KEYBOARD_REPORT_KEYS.toUInt8 := by
  refine UInt8.toNat_inj.mp (h.counters.keys.trans ?_)
  unfold Report.pressed
  rw [Finset.filter_true_of_mem fun i _ => hfull i]
  rfl

theorem add_key_holds (h : Sound r) {host : Host} (hk : IS_BASIC_KEYCODE key = true)
    (hroom : Room host r (· = key)) :
    holds (add_key_to_report host.host_can_send_nkro key r) key = true := by
  unfold holds add_key_to_report
  rw [decide_eq_true_iff]
  split
  · right
    rw [(add_key_bit_hasBit (basic_inNkroRange hk).2 r key).1]
    simp
  · rename_i hbyte
    left
    rcases add_key_byte_cases key r with ⟨heq, hslot | hfull⟩ | ⟨e, -, -, heq⟩
    · rw [heq]
      exact hslot
    · rw [heq]
      rcases hroom with hnkro | ⟨i, h0 | hi⟩
      · exact absurd ⟨hnkro, keys_count_of_full h hfull⟩ hbyte
      · exact absurd h0 (hfull i)
      · exact ⟨i, hi⟩
    · rw [heq]
      exact ⟨e, Function.update_self e key r.keys⟩

variable {codes : UInt8 → Prop}

theorem room_del_key {host : Host} (key : UInt8) (hroom : Room host s.report codes) :
    Room host (send host (del_key host key s)).report codes := by
  rcases hroom with hnkro | ⟨i, hi⟩
  · exact .inl hnkro
  · cases hnkro : host.host_can_send_nkro with
    | true => exact .inl hnkro
    | false =>
      refine .inr ⟨i, ?_⟩
      rw [(send_same host _).1]
      unfold del_key del_key_from_report
      rw [hnkro, if_neg (by simp), del_key_byte_keys]
      split
      · exact .inl rfl
      · exact hi

theorem room_unregister {host : Host} {code : UInt8} (hb : IS_BASIC_KEYCODE code = true)
    (hroom : Room host s.report codes) : Room host (unregister_code host code s).report codes := by
  have h0 : code ≠ KC_NO := (basic_inNkroRange hb).1
  unfold unregister_code
  rw [if_neg h0, if_pos hb]
  exact room_del_key code hroom

theorem register_code_registered (h : Sound s.report) {host : Host} {code : UInt8}
    (hb : IS_BASIC_KEYCODE code = true) (hreach : Reaches host s.report code)
    (hroom : Room host s.report codes)
    (hfree : ∀ other, codes other → other ≠ code → registered s other = false) :
    registered (register_code host code s) code = true := by
  have hmine : Room host s.report (· = code) := by
    rcases hroom with hnkro | ⟨i, h0 | hi⟩
    · exact .inl hnkro
    · exact .inr ⟨i, .inl h0⟩
    · by_cases hc : s.report.keys i = code
      · exact .inr ⟨i, .inr hc⟩
      · by_cases h0 : s.report.keys i = 0
        · exact .inr ⟨i, .inl h0⟩
        · have hout := hfree _ hi hc
          have hin : holds s.report (s.report.keys i) = true := decide_eq_true (.inl ⟨i, rfl⟩)
          unfold registered at hout
          simp [KC_NO, h0, hin] at hout
  have h0 : code ≠ KC_NO := (basic_inNkroRange hb).1
  unfold register_code
  rw [if_neg h0, if_pos hb, send_registered, registered_basic hb]
  split
  · exact add_key_holds (send_sound (del_key_changed h hb hreach).1.sound host) hb
      (room_del_key code hmine)
  · exact add_key_holds h hb hmine

/-! ## The NKRO report of a host that does not take it -/

theorem register_code_bits {host : Host} (hnkro : host.host_can_send_nkro = false) (code : UInt8)
    (s : State) : (register_code host code s).report.bits = s.report.bits := by
  have hdel : (send host (del_key host code s)).report.bits = s.report.bits := by
    rw [(send_same host _).2.1]
    unfold del_key del_key_from_report
    rw [hnkro, if_neg (by simp), (del_key_byte_nkro code s.report).1]
  have hadd : ∀ s1 : State, (send host (add_key host code s1)).report.bits = s1.report.bits := by
    intro s1
    rw [(send_same host _).2.1]
    unfold add_key add_key_to_report
    rw [hnkro, if_neg (by simp)]
    rcases add_key_byte_cases code s1.report with ⟨heq, -⟩ | ⟨e, -, -, heq⟩ <;> rw [heq]
  unfold register_code
  split
  · rfl
  · split
    · dsimp only
      rw [hadd]
      split
      · exact hdel
      · rfl
    · split
      · rw [(send_same host _).2.1]
        unfold add_mods ModByte.add flagStd
        dsimp only
        split <;> rfl
      · rfl

theorem unregister_code_bits {host : Host} (hnkro : host.host_can_send_nkro = false)
    (code : UInt8) (s : State) : (unregister_code host code s).report.bits = s.report.bits := by
  unfold unregister_code
  split
  · rfl
  · split
    · rw [(send_same host _).2.1]
      unfold del_key del_key_from_report
      rw [hnkro, if_neg (by simp), (del_key_byte_nkro code s.report).1]
    · split
      · rw [(send_same host _).2.1]
        unfold del_mods ModByte.del flagStd
        dsimp only
        split <;> rfl
      · rfl

theorem start_holds (h0 : key ≠ 0) : holds State.start.report key = false := by
  have hbit : State.start.report.hasBit key = false := test_zero key.toNat
  unfold holds
  rw [hbit]
  simp [State.start, Report.empty, Ne.symm h0]

theorem start_sound : Sound State.start.report :=
  ⟨empty_onePlace, empty_match, fun _ h0 hheld => by rw [start_holds h0] at hheld; cases hheld⟩

theorem start_registered (code : UInt8) : registered State.start code = false := by
  unfold registered
  by_cases h0 : code = KC_NO
  · simp [h0, State.start]
  · rw [start_holds h0]
    simp [State.start]

end keychron_qmk.action
