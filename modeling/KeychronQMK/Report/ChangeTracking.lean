-- The dirty bits of `kb_report_changed`: `send_keyboard_report` builds a
-- report only when its bit is set. Which changes set it, and when a send
-- hands over what is in effect.
import KeychronQMK.Report.ActionUtil
import KeychronQMK.Lib.Runs

namespace keychron_qmk.action_util

open report bitmap runs

/-- The modifiers of a report: real, weak and one-shot, without the
suppressed, with the overrides. -/
def Mods.forReport (m : Mods) : UInt8 :=
  ((m.real_mods ||| m.weak_mods ||| m.oneshot_mods) &&& ~~~m.suppressed_mods) |||
    m.weak_override_mods

/-- The modifiers in effect at a send, where the one-shot modifiers may have
timed out. -/
def Mods.atSend (timed_out : Bool) (m : Mods) : Mods :=
  if timed_out then { m with oneshot_mods := 0 } else m

def StdClear (r : Report) : Prop := r.kb_report_changed &&& KB_RPT_STD = 0

def NkroClear (r : Report) : Prop := r.kb_report_changed &&& KB_RPT_NKRO = 0

instance : DecidablePred StdClear := fun r =>
  inferInstanceAs (Decidable (r.kb_report_changed &&& KB_RPT_STD = 0))

/-! ## The dirty bits -/

theorem or_and_bitOf (x k j : UInt8) (h : k.toNat % 8 ≠ j.toNat % 8) :
    (x ||| bitOf k) &&& bitOf j = 0 ↔ x &&& bitOf j = 0 := by
  rw [and_bitOf_eq_zero, and_bitOf_eq_zero, testBit_or_bitOf]
  simp [h]

theorem or_and_bitOf_self (x k : UInt8) : (x ||| bitOf k) &&& bitOf k ≠ 0 := by
  intro h
  rw [and_bitOf_eq_zero, testBit_or_bitOf] at h
  simp at h

theorem and_not_and_bitOf (x k j : UInt8) (h : k.toNat % 8 ≠ j.toNat % 8) :
    (x &&& ~~~(bitOf k)) &&& bitOf j = 0 ↔ x &&& bitOf j = 0 := by
  rw [and_bitOf_eq_zero, and_bitOf_eq_zero, testBit_and_not_bitOf]
  simp [h]

/-- Keys that differ are flagged, and no flag is lost. -/
structure Flagged (r r' : Report) : Prop where
  std : StdClear r' → StdClear r ∧ r'.keys = r.keys
  nkro : NkroClear r' → NkroClear r ∧ r'.bits = r.bits

theorem Flagged.refl (r : Report) : Flagged r r := ⟨fun h => ⟨h, rfl⟩, fun h => ⟨h, rfl⟩⟩

variable {r r' : Report}

theorem Flagged.trans {r'' : Report} (h : Flagged r r') (h' : Flagged r' r'') : Flagged r r'' := by
  constructor
  · intro hc
    obtain ⟨h1, h2⟩ := h'.std hc
    obtain ⟨h3, h4⟩ := h.std h1
    exact ⟨h3, h2.trans h4⟩
  · intro hc
    obtain ⟨h1, h2⟩ := h'.nkro hc
    obtain ⟨h3, h4⟩ := h.nkro h1
    exact ⟨h3, h2.trans h4⟩

theorem flagged_std (hc : r'.kb_report_changed = r.kb_report_changed ||| KB_RPT_STD)
    (hb : r'.bits = r.bits) : Flagged r r' := by
  constructor
  · intro h
    unfold StdClear at h
    rw [hc] at h
    exact absurd h (or_and_bitOf_self _ 0)
  · intro h
    unfold NkroClear at h ⊢
    rw [hc] at h
    exact ⟨(or_and_bitOf _ 0 1 (by decide)).mp h, hb⟩

theorem flagged_nkro {q : Report} (hc : q.kb_report_changed = r.kb_report_changed ||| KB_RPT_NKRO)
    (hk : q.keys = r.keys) : Flagged r q := by
  constructor
  · intro h
    unfold StdClear at h ⊢
    rw [hc] at h
    exact ⟨(or_and_bitOf _ 1 0 (by decide)).mp h, hk⟩
  · intro h
    unfold NkroClear at h
    rw [hc] at h
    exact absurd h (or_and_bitOf_self _ 1)

theorem flagged_add_key_byte (code : UInt8) (r : Report) : Flagged r (add_key_byte code r) := by
  rcases add_key_byte_cases code r with ⟨heq, -⟩ | ⟨e, -, -, heq⟩
  · rw [heq]; exact .refl r
  · rw [heq]; exact flagged_std rfl rfl

theorem flagged_del_key_byte (code : UInt8) (r : Report) : Flagged r (del_key_byte code r) := by
  unfold del_key_byte
  generalize List.finRange KEYBOARD_REPORT_KEYS = l
  induction l generalizing r with
  | nil => exact .refl r
  | cons i l ih =>
    refine Flagged.trans ?_ (ih (del_key_slot code r i))
    unfold del_key_slot
    split
    · exact flagged_std rfl rfl
    · exact .refl r

theorem flagged_add_key_bit (code : UInt8) (r : Report) : Flagged r (add_key_bit code r) := by
  rcases add_key_bit_cases code r with heq | ⟨_, -, heq⟩
  · rw [heq]; exact .refl r
  · rw [heq]; exact flagged_nkro rfl rfl

theorem flagged_del_key_bit (code : UInt8) (r : Report) : Flagged r (del_key_bit code r).2 := by
  rcases del_key_bit_cases code r with heq | ⟨_, -, heq⟩
  · rw [heq]; exact .refl r
  · rw [heq]; exact flagged_nkro rfl rfl

theorem flagged_step {valid : UInt8 → Prop} (r : Report) (c : Call valid) :
    Flagged r (report.step r c) := by
  obtain ⟨can_send, op⟩ := c
  cases op with
  | add_key_to_report key _ =>
    simp only [report.step, add_key_to_report]
    split
    · exact flagged_add_key_bit key r
    · exact flagged_add_key_byte key r
  | del_key_from_report key _ =>
    have hbit := flagged_del_key_bit key r
    simp only [report.step, del_key_from_report]
    split
    · generalize del_key_bit key r = d at hbit
      obtain ⟨found, r1⟩ := d
      cases found
      · exact hbit.trans (flagged_del_key_byte key r1)
      · exact hbit
    · exact flagged_del_key_byte key r
  | clear_keys_from_report =>
    cases can_send
    · exact flagged_std rfl rfl
    · exact (flagged_nkro (q := { r with
        bits := fun _ => 0, kb_report_changed := r.kb_report_changed ||| KB_RPT_NKRO }) rfl rfl).trans
        (flagged_std rfl rfl)

theorem flagged_flagStd (changed : Bool) (r : Report) : Flagged r (flagStd changed r) := by
  unfold flagStd
  split
  · exact flagged_std rfl rfl
  · exact .refl r

/-! ## Calls that do not send -/

/-- The real, weak and override modifiers agree. -/
structure SameFlagged (m m' : Mods) : Prop where
  real_mods : m'.real_mods = m.real_mods
  weak_mods : m'.weak_mods = m.weak_mods
  weak_override_mods : m'.weak_override_mods = m.weak_override_mods

/-- A call that does not send: the keys and all modifiers but the one-shot
and the suppressed change under the dirty bit. -/
structure Quiet (s s' : State) : Prop where
  report : Flagged s.report s'.report
  last_std : s'.last_std = s.last_std
  last_nkro : s'.last_nkro = s.last_nkro
  mods : StdClear s'.report → SameFlagged s.mods s'.mods

theorem SameFlagged.refl (m : Mods) : SameFlagged m m := ⟨rfl, rfl, rfl⟩

theorem flagStd_clear {changed : Bool} (h : StdClear (flagStd changed r)) : changed = false := by
  cases changed
  · rfl
  · exact absurd h (or_and_bitOf_self r.kb_report_changed 0)

theorem quiet_put (b : ModByte) (s : State) (changed : Bool) (x : UInt8)
    (h : changed = false → x = b.get s.mods) :
    Quiet s { s with report := flagStd changed s.report, mods := b.put x s.mods } := by
  refine ⟨flagged_flagStd changed s.report, rfl, rfl, fun hclear => ?_⟩
  rw [h (flagStd_clear hclear), b.put_get]
  exact .refl s.mods

theorem quiet_add (b : ModByte) (mods : UInt8) (s : State) : Quiet s (b.add mods s) :=
  quiet_put b s _ _ fun h => or_eq_left (by simpa using h)

theorem quiet_del (b : ModByte) (mods : UInt8) (s : State) : Quiet s (b.del mods s) :=
  quiet_put b s _ _ fun h => and_not_eq_left (by simpa using h)

theorem quiet_set (b : ModByte) (mods : UInt8) (s : State) : Quiet s (b.set mods s) :=
  quiet_put b s _ _ fun h => (not_not.mp (of_decide_eq_false h)).symm

theorem quiet_clear (b : ModByte) (s : State) : Quiet s (b.clear s) :=
  quiet_put b s _ _ fun h => (not_not.mp (of_decide_eq_false h)).symm

theorem Quiet.refl (s : State) : Quiet s s := ⟨.refl _, rfl, rfl, fun _ => .refl _⟩

theorem quiet_put_oneshot (mods : UInt8) (s : State) : Quiet s (put_oneshot_mods mods s) :=
  ⟨.refl _, rfl, rfl, fun _ => ⟨rfl, rfl, rfl⟩⟩

def Op.sends : Op → Bool
  | .send_keyboard_report _ => true
  | _ => false

theorem quiet_step (s : State) {op : Op} (h : op.sends = false) : Quiet s (step s op) := by
  cases op with
  | keys call => exact ⟨flagged_step s.report call, rfl, rfl, fun _ => .refl _⟩
  | add_mods mods => exact quiet_add realMods mods s
  | del_mods mods => exact quiet_del realMods mods s
  | set_mods mods => exact quiet_set realMods mods s
  | clear_mods => exact quiet_clear realMods s
  | add_weak_mods mods => exact quiet_add weakMods mods s
  | del_weak_mods mods => exact quiet_del weakMods mods s
  | set_weak_mods mods => exact quiet_set weakMods mods s
  | clear_weak_mods => exact quiet_clear weakMods s
  | set_weak_override_mods mods => exact quiet_set weakOverrideMods mods s
  | clear_weak_override_mods => exact quiet_clear weakOverrideMods s
  | set_suppressed_override_mods mods =>
    refine ⟨.refl _, rfl, rfl, fun _ => ?_⟩
    simp only [step, set_suppressed_override_mods]
    split <;> exact ⟨rfl, rfl, rfl⟩
  | clear_suppressed_override_mods => exact quiet_clear suppressedMods s
  | add_oneshot_mods mods =>
    simp only [step, add_oneshot_mods]
    split
    · exact quiet_put_oneshot _ s
    · exact .refl s
  | del_oneshot_mods mods =>
    simp only [step, del_oneshot_mods]
    split
    · exact quiet_put_oneshot _ s
    · exact .refl s
  | set_oneshot_mods enabled mods =>
    simp only [step, set_oneshot_mods]
    split
    · split
      · exact quiet_put_oneshot _ s
      · exact .refl s
    · exact .refl s
  | clear_oneshot_mods =>
    simp only [step, clear_oneshot_mods]
    split
    · exact quiet_put_oneshot _ s
    · exact .refl s
  | send_keyboard_report timed_out => cases h

/-! ## The send -/

theorem get_mods_for_report_eq (timed_out : Bool) (s : State) :
    (get_mods_for_report timed_out s).1 = (s.mods.atSend timed_out).forReport ∧
      ∃ x, (get_mods_for_report timed_out s).2 = put_oneshot_mods x s := by
  have hclear : ∀ s1 : State, ∃ x, clear_oneshot_mods s1 = put_oneshot_mods x s1 := by
    intro s1
    unfold clear_oneshot_mods
    split
    · exact ⟨0, rfl⟩
    · exact ⟨s1.mods.oneshot_mods, rfl⟩
  unfold get_mods_for_report
  dsimp only
  split
  · rename_i hone
    have hout : (if timed_out then clear_oneshot_mods s else s) =
        put_oneshot_mods (s.mods.atSend timed_out).oneshot_mods s := by
      cases timed_out
      · rfl
      · exact if_pos hone
    rw [hout]
    obtain ⟨x, hx⟩ := hclear (put_oneshot_mods (s.mods.atSend timed_out).oneshot_mods s)
    rw [hx]
    constructor
    · cases timed_out <;> split <;> rfl
    · split
      · exact ⟨x, rfl⟩
      · exact ⟨_, rfl⟩
  · rename_i hone
    have hzero : s.mods.oneshot_mods = 0 := not_not.mp hone
    refine ⟨?_, s.mods.oneshot_mods, rfl⟩
    cases timed_out <;> simp [Mods.forReport, Mods.atSend, hzero]

theorem send_6kro_report_eq (timed_out : Bool) (s : State) :
    ∃ x, send_6kro_report timed_out s = { put_oneshot_mods x s with
      report := { s.report with
        kb_report_changed := s.report.kb_report_changed &&& ~~~KB_RPT_STD }
      report_mods := (s.mods.atSend timed_out).forReport
      last_std := ((s.mods.atSend timed_out).forReport, s.report.keys) } := by
  obtain ⟨h1, x, h2⟩ := get_mods_for_report_eq timed_out s
  refine ⟨x, ?_⟩
  unfold send_6kro_report
  generalize get_mods_for_report timed_out s = r at h1 h2
  obtain ⟨mods, s1⟩ := r
  dsimp only at h1 h2 ⊢
  subst h1 h2
  split
  · rfl
  · rename_i hsame
    have hlast : s.last_std = ((s.mods.atSend timed_out).forReport, s.report.keys) :=
      (not_not.mp hsame).symm
    rw [← hlast]
    rfl

theorem send_nkro_report_eq (s : State) : send_nkro_report s =
    { s with
      report := { s.report with
        kb_report_changed := s.report.kb_report_changed &&& ~~~KB_RPT_NKRO }
      last_nkro := s.report.bits } := by
  unfold send_nkro_report
  split
  · rfl
  · rename_i hsame
    rw [not_not.mp hsame]

/-! ## Runs -/

/-- The state, and beside it the modifiers of the last standard report. -/
structure Run where
  state : State
  sent : Mods

def Run.start : Run := ⟨.start, ⟨0, 0, 0, 0, 0⟩⟩

def Run.step (r : Run) (op : Op) : Run where
  state := action_util.step r.state op
  sent := match op with
    | .send_keyboard_report timed_out =>
      if StdClear r.state.report then r.sent else r.state.mods.atSend timed_out
    | _ => r.sent

def InEffect (r : Run) : Op → Prop
  | .send_keyboard_report timed_out =>
    let s := (r.step (.send_keyboard_report timed_out)).state
    s.last_std = ((r.state.mods.atSend timed_out).forReport, r.state.report.keys) ∧
      s.last_nkro = r.state.report.bits
  | _ => True

instance (r : Run) : DecidablePred (InEffect r) := fun op => by
  cases op <;> unfold InEffect <;> infer_instance

/-- A send under a clear bit needs the one-shot and the suppressed modifiers
to make no difference to the last standard report. -/
def Settled (r : Run) : Op → Prop
  | .send_keyboard_report timed_out =>
    StdClear r.state.report →
      { r.sent with
        oneshot_mods := (r.state.mods.atSend timed_out).oneshot_mods
        suppressed_mods := r.state.mods.suppressed_mods }.forReport = r.sent.forReport
  | _ => True

structure Tracked (r : Run) : Prop where
  mods : r.state.last_std.1 = r.sent.forReport
  std : StdClear r.state.report →
    r.state.last_std.2 = r.state.report.keys ∧ SameFlagged r.sent r.state.mods
  nkro : NkroClear r.state.report → r.state.last_nkro = r.state.report.bits

variable {s : State}

theorem tracked_quiet {r : Run} (h : Tracked r) (hs : Quiet r.state s) : Tracked ⟨s, r.sent⟩ := by
  refine ⟨?_, fun hclear => ?_, fun hclear => ?_⟩
  · dsimp only
    rw [hs.last_std, h.mods]
  · obtain ⟨h1, h2⟩ := hs.report.std hclear
    obtain ⟨g1, g2⟩ := h.std h1
    have hm := hs.mods hclear
    rw [hs.last_std, g1, h2]
    exact ⟨rfl, hm.real_mods.trans g2.real_mods, hm.weak_mods.trans g2.weak_mods,
      hm.weak_override_mods.trans g2.weak_override_mods⟩
  · obtain ⟨h1, h2⟩ := hs.report.nkro hclear
    rw [hs.last_nkro, h.nkro h1, h2]

/-- From the state `s`, the state `s'` with the same keys whose bits are
handed over. -/
structure HandsOver (s s' : State) : Prop where
  keys : s'.report.keys = s.report.keys
  bits : s'.report.bits = s.report.bits
  last_nkro : s'.last_nkro = s.report.bits
  mods : SameFlagged s.mods s'.mods

theorem nkro_half (h : NkroClear s.report → s.last_nkro = s.report.bits) {t : State}
    (ht : t = if true ∧ s.report.kb_report_changed &&& KB_RPT_NKRO ≠ 0 then send_nkro_report s
      else s) : HandsOver s t ∧ t.last_std = s.last_std := by
  rw [ht]
  split
  · rw [send_nkro_report_eq]
    exact ⟨⟨rfl, rfl, rfl, .refl _⟩, rfl⟩
  · rename_i hclear
    exact ⟨⟨rfl, rfl, h (by simpa [NkroClear] using hclear), .refl _⟩, rfl⟩

theorem send_clear (h : NkroClear s.report → s.last_nkro = s.report.bits) (hstd : StdClear s.report)
    (timed_out : Bool) :
    HandsOver s (send_keyboard_report true timed_out s) ∧
      (send_keyboard_report true timed_out s).last_std = s.last_std := by
  have hstd' : s.report.kb_report_changed &&& KB_RPT_STD = 0 := hstd
  apply nkro_half h
  unfold send_keyboard_report
  rw [if_neg (not_not.mpr hstd')]

theorem send_set (h : NkroClear s.report → s.last_nkro = s.report.bits) (hstd : ¬ StdClear s.report)
    (timed_out : Bool) :
    HandsOver s (send_keyboard_report true timed_out s) ∧
      (send_keyboard_report true timed_out s).last_std =
        ((s.mods.atSend timed_out).forReport, s.report.keys) := by
  obtain ⟨x, heq⟩ := send_6kro_report_eq timed_out s
  have hnkro : NkroClear (send_6kro_report timed_out s).report →
      (send_6kro_report timed_out s).last_nkro = (send_6kro_report timed_out s).report.bits := by
    rw [heq]
    intro hclear
    refine h ?_
    exact (and_not_and_bitOf _ 0 1 (by decide)).mp hclear
  have hstd' : s.report.kb_report_changed &&& KB_RPT_STD ≠ 0 := hstd
  obtain ⟨⟨h1, h2, h3, h4⟩, h5⟩ := nkro_half hnkro (t := send_keyboard_report true timed_out s) (by
    unfold send_keyboard_report
    rw [if_pos hstd'])
  rw [heq] at h1 h2 h3 h4 h5
  exact ⟨⟨h1, h2, h3, h4.real_mods, h4.weak_mods, h4.weak_override_mods⟩, h5⟩

theorem tracked_send {r : Run} (h : Tracked r) (timed_out : Bool) :
    Tracked (r.step (.send_keyboard_report timed_out)) := by
  by_cases hstd : StdClear r.state.report
  · obtain ⟨⟨h1, h2, h3, h4⟩, h5⟩ := send_clear h.nkro hstd timed_out
    obtain ⟨g1, g2⟩ := h.std hstd
    have hrun : r.step (.send_keyboard_report timed_out) =
        ⟨send_keyboard_report true timed_out r.state, r.sent⟩ := by
      simp [Run.step, step, hstd]
    rw [hrun]
    refine ⟨by rw [h5]; exact h.mods, fun _ => ⟨?_, ?_⟩, fun _ => h3.trans h2.symm⟩
    · rw [h5, h1]
      exact g1
    · exact ⟨h4.real_mods.trans g2.real_mods, h4.weak_mods.trans g2.weak_mods,
        h4.weak_override_mods.trans g2.weak_override_mods⟩
  · obtain ⟨⟨h1, h2, h3, h4⟩, h5⟩ := send_set h.nkro hstd timed_out
    have hrun : r.step (.send_keyboard_report timed_out) =
        ⟨send_keyboard_report true timed_out r.state, r.state.mods.atSend timed_out⟩ := by
      simp [Run.step, step, hstd]
    rw [hrun]
    refine ⟨by rw [h5], fun _ => ⟨by rw [h5, h1], ?_⟩, fun _ => h3.trans h2.symm⟩
    cases timed_out
    · exact h4
    · exact ⟨h4.real_mods, h4.weak_mods, h4.weak_override_mods⟩

theorem inEffect_send_iff {r : Run} (h : Tracked r) (timed_out : Bool) :
    Settled r (.send_keyboard_report timed_out) ↔ InEffect r (.send_keyboard_report timed_out) := by
  unfold Settled InEffect
  dsimp only [Run.step, step]
  by_cases hstd : StdClear r.state.report
  · obtain ⟨⟨-, -, h3, -⟩, h5⟩ := send_clear h.nkro hstd timed_out
    obtain ⟨g1, g2⟩ := h.std hstd
    -- only the one-shot and the suppressed modifiers can differ
    have hmods : { r.sent with
        oneshot_mods := (r.state.mods.atSend timed_out).oneshot_mods
        suppressed_mods := r.state.mods.suppressed_mods } = r.state.mods.atSend timed_out := by
      dsimp only
      rw [← g2.real_mods, ← g2.weak_mods, ← g2.weak_override_mods]
      cases timed_out <;> rfl
    have hlast : r.state.last_std = (r.sent.forReport, r.state.report.keys) :=
      Prod.ext h.mods g1
    rw [hmods, h5, h3, hlast]
    constructor
    · intro hset
      rw [hset hstd]
      exact ⟨rfl, rfl⟩
    · rintro ⟨hsame, -⟩ -
      exact (congrArg Prod.fst hsame).symm
  · obtain ⟨⟨-, -, h3, -⟩, h5⟩ := send_set h.nkro hstd timed_out
    exact iff_of_true (fun hc => absurd hc hstd) ⟨h5, h3⟩

theorem tracked_step {r : Run} (h : Tracked r) (op : Op) : Tracked (r.step op) := by
  cases hop : op.sends
  · have hq := tracked_quiet h (quiet_step r.state hop)
    cases op with
    | send_keyboard_report => cases hop
    | _ => exact hq
  · cases op with
    | send_keyboard_report timed_out => exact tracked_send h timed_out
    | _ => cases hop

theorem start_tracked : Tracked .start :=
  ⟨by decide, fun _ => ⟨rfl, .refl _⟩, fun _ => rfl⟩

/-- In every run, each send leaves the host with the modifiers and the keys
in effect exactly when, at each send under a clear bit, the one-shot and the
suppressed modifiers make no difference to the last standard report. -/
theorem the_host_has_what_is_in_effect_unless_unflagged (ops : List Op) :
    Along Run.step InEffect .start ops ↔ Along Run.step Settled .start ops := by
  refine Along.iff (I := Tracked) (fun r op h => ?_) (fun r op h _ => tracked_step h op)
    start_tracked
  cases op with
  | send_keyboard_report timed_out => exact inEffect_send_iff h timed_out
  | _ => exact Iff.rfl

/-- The suppression of a modifier that is in the last report does not reach
the host. -/
theorem a_suppressed_modifier_stays :
    ¬ ∀ ops : List Op, Along Run.step InEffect .start ops := by
  intro h
  have hrun := h [.add_mods 2, .send_keyboard_report false, .set_suppressed_override_mods 2,
    .send_keyboard_report false]
  revert hrun
  decide +kernel

end keychron_qmk.action_util
