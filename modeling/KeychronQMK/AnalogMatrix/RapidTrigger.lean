-- What the rapid trigger should do with a key (`action_rapid_trigger.c`), said
-- of the travels since the key was last reported pressed or released, and when
-- the moving points of the key follow them.
import KeychronQMK.AnalogMatrix.KeyStates

namespace keychron_qmk.analog_matrix

open runs

variable {R C : Nat}

/-! ## The travels since the last report -/

structure RapidPoints where
  actn_pt : Nat
  deactn_pt : Nat
  sen : Nat
  sen_rls : Nat

/-- What the reports of a key tell: since when it is pressed or released, with the
furthest travel since then. A press that the rapid trigger made is `again`. -/
inductive LastReport where
  | returned
  | pressed (again : Bool) (top : Nat)
  | released (bottom : Nat)
  deriving DecidableEq

/-- The guard of a key that is pressed again: there is nothing beyond the full travel. -/
def Counts (again : Bool) (t : Nat) : Prop :=
  again = true → t ≤ (FULL_TRAVEL_UNIT * TRAVEL_SCALE).toNat

instance (again : Bool) : DecidablePred (Counts again) := fun t =>
  inferInstanceAs (Decidable (again = true → t ≤ (FULL_TRAVEL_UNIT * TRAVEL_SCALE).toNat))

def LastReport.next (pts : RapidPoints) (t : Nat) (down : Bool) : LastReport → LastReport
  | .returned => if down then .pressed false t else .returned
  | .pressed again top =>
    if down then .pressed again (if Counts again t then max top t else top)
    else if t ≤ pts.deactn_pt then .returned
    else .released t
  | .released bottom =>
    if down then .pressed true t
    else if t ≤ pts.deactn_pt then .returned
    else .released (min bottom t)

/-- The guard at the bottom: a key that is held down there is not released. -/
def AboveDeadZone (pts : RapidPoints) (t : Nat) : Prop :=
  t + pts.sen_rls < (BOTTOM_DEAD_ZONE * TRAVEL_SCALE).toNat

def RightReport (pts : RapidPoints) (t : Nat) (down : Bool) : LastReport → Prop
  | .returned => down = true ↔ pts.actn_pt ≤ t
  | .pressed _ top =>
    down = false ↔ t ≤ pts.deactn_pt ∨ (t + pts.sen_rls ≤ top ∧ AboveDeadZone pts t)
  | .released bottom => down = true ↔ pts.actn_pt ≤ t ∧ bottom + pts.sen ≤ t

instance (pts : RapidPoints) (t : Nat) (down : Bool) : DecidablePred (RightReport pts t down)
  | .returned => inferInstanceAs (Decidable (down = true ↔ pts.actn_pt ≤ t))
  | .pressed _ top => inferInstanceAs (Decidable (down = false ↔ t ≤ pts.deactn_pt ∨
      (t + pts.sen_rls ≤ top ∧
        t + pts.sen_rls < (BOTTOM_DEAD_ZONE * TRAVEL_SCALE).toNat)))
  | .released bottom =>
    inferInstanceAs (Decidable (down = true ↔ pts.actn_pt ≤ t ∧ bottom + pts.sen ≤ t))

/-- The point to press again at has no place in a byte, and the travel is not
below what is left of it. -/
def PressesEarly (pts : RapidPoints) (t : Nat) : LastReport → Prop
  | .released bottom =>
    256 ≤ bottom + pts.sen ∧ bottom + pts.sen ≤ t + 256 ∧ pts.actn_pt ≤ t
  | _ => False

/-! ## The key beside its reports -/

section

variable (gc_mode : UInt8) (p : analog_matrix_profile_t R C)

structure WatchedKey where
  key : analog_key_t
  reported : LastReport

def update_watched (pts : RapidPoints) (w : WatchedKey) (t : UInt8) : WatchedKey :=
  let key := strike gc_mode p w.key t
  ⟨key, w.reported.next pts t.toNat (pressed key)⟩

def ReportsRight (pts : RapidPoints) (w : WatchedKey) (t : UInt8) : Prop :=
  RightReport pts t.toNat (pressed (strike gc_mode p w.key t)) w.reported

def PointsFollow (pts : RapidPoints) (key : analog_key_t) : LastReport → Prop
  | .returned => key.state = AKS_REGULAR_RELEASED
  | .pressed again top =>
    key.state = (if again then AKS_RAPID_PRESSED else AKS_REGULAR_PRESSED) ∧
      key.rapid.actn_pt.toNat = top ∧ key.rapid.deactn_pt.toNat = top - pts.sen_rls
  | .released bottom =>
    key.state = AKS_RAPID_RELEASED ∧ key.rapid.deactn_pt.toNat = bottom ∧
      key.rapid.actn_pt.toNat = (bottom + pts.sen) % 256

structure Follows (pts : RapidPoints) (w : WatchedKey) : Prop where
  mode : w.key.mode = AKM_RAPID
  actn_pt : w.key.regular.actn_pt.toNat = pts.actn_pt
  deactn_pt : w.key.regular.deactn_pt.toNat = pts.deactn_pt
  sen : w.key.rpd_trig_sen.toNat = pts.sen
  sen_rls : w.key.rpd_trig_sen_rls.toNat = pts.sen_rls
  ordered : pts.deactn_pt < pts.actn_pt
  in_reach : pts.actn_pt ≤ (FULL_TRAVEL_UNIT * TRAVEL_SCALE).toNat
  moving : PointsFollow pts w.key w.reported

variable {gc_mode p} {pts : RapidPoints} {w : WatchedKey} {t : UInt8}

theorem update_rapid_pts_up (key : analog_key_t) :
    (update_rapid_pts key .up).rapid.actn_pt = key.travel ∧
      (update_rapid_pts key .up).rapid.deactn_pt.toNat =
        key.travel.toNat - key.rpd_trig_sen_rls.toNat := by
  refine ⟨rfl, ?_⟩
  simp only [update_rapid_pts]
  split
  · rename_i hlt
    rw [UInt8.toNat_sub_of_le _ _ (UInt8.le_iff_toNat_le.mpr (Nat.le_of_lt hlt))]
  · rename_i hge
    rw [UInt8.lt_iff_toNat_lt] at hge
    rw [Nat.sub_eq_zero_of_le (Nat.le_of_not_lt hge)]
    rfl

theorem update_rapid_pts_down (key : analog_key_t) :
    (update_rapid_pts key .down).rapid.deactn_pt = key.travel ∧
      (update_rapid_pts key .down).rapid.actn_pt.toNat =
        (key.travel.toNat + key.rpd_trig_sen.toNat) % 256 :=
  ⟨rfl, UInt8.toNat_add ..⟩

theorem rapid_released_iff (key : analog_key_t) : rapid_released key ↔
    key.travel.toNat ≤ key.rapid.deactn_pt.toNat ∧
      key.travel.toNat + key.rpd_trig_sen_rls.toNat < (BOTTOM_DEAD_ZONE * TRAVEL_SCALE).toNat := by
  unfold rapid_released
  rw [UInt8.le_iff_toNat_le]
  omega

/-! ## One update -/

variable {s : UInt8} {key : analog_key_t}

theorem pressed_of_state (hm : key.mode = AKM_RAPID) (hs : key.state = s) :
    pressed key = decide (s = AKS_REGULAR_PRESSED ∨ s = AKS_RAPID_PRESSED) := by
  unfold pressed
  rw [hm, hs, if_neg (by decide)]

variable {last : LastReport}

theorem Follows.of_moving (h : Follows pts w) {down : Bool} (hw : w.reported = last)
    (hdown : pressed (strike gc_mode p w.key t) = down)
    (hmoving : PointsFollow pts (strike gc_mode p w.key t) (last.next pts t.toNat down)) :
    Follows pts (update_watched gc_mode p pts w t) := by
  have hsame := strike_same gc_mode p w.key t
  obtain ⟨hmode, hact, hdeact, hsen, hrls, hordered, hreach, -⟩ := h
  have hdata := hsame.data (by rw [hmode]; decide)
  rw [← hw, ← hdown] at hmoving
  refine ⟨hsame.mode.trans hmode, ?_, ?_, ?_, ?_, hordered, hreach, hmoving⟩
  · exact (congrArg (fun q : activity_point_t => q.actn_pt.toNat) hsame.regular).trans hact
  · exact (congrArg (fun q : activity_point_t => q.deactn_pt.toNat) hsame.regular).trans hdeact
  · exact (congrArg UInt8.toNat hdata).trans hsen
  · exact (congrArg UInt8.toNat hsame.sen_rls).trans hrls

theorem reportsRight_iff {down : Bool} (hw : w.reported = last)
    (hdown : pressed (strike gc_mode p w.key t) = down) :
    ReportsRight gc_mode p pts w t ↔ RightReport pts t.toNat down last := by
  rw [ReportsRight, hw, hdown]

variable {c again : Bool}

theorem Follows.up (gc_mode : UInt8) (p : analog_matrix_profile_t R C) (h : Follows pts w)
    (hstep : rapid_step (sampled w.key t) = (s, c, .up)) :
    (strike gc_mode p w.key t).state = s ∧
      (strike gc_mode p w.key t).rapid.actn_pt.toNat = t.toNat ∧
      (strike gc_mode p w.key t).rapid.deactn_pt.toNat = t.toNat - pts.sen_rls := by
  obtain ⟨hstate, hrapid⟩ := strike_rapid_step gc_mode p h.mode hstep
  obtain ⟨hactn, hdeactn⟩ := update_rapid_pts_up { sampled w.key t with state := s }
  rw [hrapid, hactn, hdeactn, ← h.sen_rls]
  exact ⟨hstate, rfl, rfl⟩

theorem Follows.down (gc_mode : UInt8) (p : analog_matrix_profile_t R C) (h : Follows pts w)
    (hstep : rapid_step (sampled w.key t) = (s, c, .down)) :
    (strike gc_mode p w.key t).state = s ∧
      (strike gc_mode p w.key t).rapid.deactn_pt.toNat = t.toNat ∧
      (strike gc_mode p w.key t).rapid.actn_pt.toNat = (t.toNat + pts.sen) % 256 := by
  obtain ⟨hstate, hrapid⟩ := strike_rapid_step gc_mode p h.mode hstep
  obtain ⟨hdeactn, hactn⟩ := update_rapid_pts_down { sampled w.key t with state := s }
  rw [hrapid, hactn, hdeactn, ← h.sen]
  exact ⟨hstate, rfl, rfl⟩

theorem Follows.stay (gc_mode : UInt8) (p : analog_matrix_profile_t R C) (h : Follows pts w)
    (hstep : rapid_step (sampled w.key t) = (s, c, .no)) :
    (strike gc_mode p w.key t).state = s ∧ (strike gc_mode p w.key t).rapid = w.key.rapid :=
  strike_rapid_step gc_mode p h.mode hstep

theorem Follows.pressed_eq (h : Follows pts w) (hs : (strike gc_mode p w.key t).state = s) :
    pressed (strike gc_mode p w.key t) =
      decide (s = AKS_REGULAR_PRESSED ∨ s = AKS_RAPID_PRESSED) :=
  pressed_of_state ((strike_same gc_mode p w.key t).mode.trans h.mode) hs

theorem Follows.after_return (h : Follows pts w) (hw : w.reported = .returned) :
    Follows pts (update_watched gc_mode p pts w t) ∧ ReportsRight gc_mode p pts w t := by
  have hs : w.key.state = AKS_REGULAR_RELEASED := by
    have := h.moving
    rw [hw] at this
    exact this
  have hact : w.key.regular.actn_pt ≤ t ↔ pts.actn_pt ≤ t.toNat := by
    rw [UInt8.le_iff_toNat_le, h.actn_pt]
  by_cases ht : w.key.regular.actn_pt ≤ t
  · have hstep : rapid_step (sampled w.key t) = (AKS_REGULAR_PRESSED, true, .up) := by
      rw [rapid_step, if_pos (by exact hs), if_pos (by exact ht)]
    obtain ⟨hstate, hactn, hdeactn⟩ := h.up gc_mode p hstep
    have hdown := h.pressed_eq hstate
    refine ⟨h.of_moving hw hdown ?_, (reportsRight_iff hw hdown).mpr ?_⟩
    · exact ⟨hstate, hactn, hdeactn⟩
    · exact iff_of_true rfl (hact.mp ht)
  · have hstep : rapid_step (sampled w.key t) = (w.key.state, false, .no) := by
      rw [rapid_step, if_pos (by exact hs), if_neg (by exact ht)]
      rfl
    rw [hs] at hstep
    obtain ⟨hstate, -⟩ := h.stay gc_mode p hstep
    have hdown := h.pressed_eq hstate
    refine ⟨h.of_moving hw hdown ?_, (reportsRight_iff hw hdown).mpr ?_⟩
    · exact hstate
    · exact iff_of_false (by decide) (fun hle => ht (hact.mpr hle))

theorem rapid_step_pressed
    (hs : key.state = if again then AKS_RAPID_PRESSED else AKS_REGULAR_PRESSED) :
    rapid_step key =
      if ¬ Counts again key.travel.toNat then (key.state, false, .no)
      else if key.travel ≤ key.regular.deactn_pt then (AKS_REGULAR_RELEASED, true, .no)
      else if rapid_released key then (AKS_RAPID_RELEASED, true, .down)
      else if key.rapid.actn_pt < key.travel then (key.state, false, .up)
      else (key.state, false, .no) := by
  unfold rapid_step
  cases again with
  | false =>
    have hcounts : Counts false key.travel.toNat := fun hagain => by cases hagain
    rw [if_neg (by exact hs ▸ by decide), if_pos (by exact hs), if_neg (not_not.mpr hcounts)]
  | true =>
    have hguard : FULL_TRAVEL_UNIT * TRAVEL_SCALE < key.travel ↔ ¬ Counts true key.travel.toNat := by
      unfold Counts
      rw [UInt8.lt_iff_toNat_lt]
      simp
    have hstate : key.state = AKS_RAPID_PRESSED := hs
    rw [if_neg (by rw [hstate]; decide), if_neg (by rw [hstate]; decide),
      if_neg (by rw [hstate]; decide), if_pos hstate]
    simp only [hguard]

theorem Follows.held (gc_mode : UInt8) (p : analog_matrix_profile_t R C) (h : Follows pts w)
    {follow : Follow} (hs : w.key.state = if again then AKS_RAPID_PRESSED else AKS_REGULAR_PRESSED)
    (hstep : rapid_step (sampled w.key t) = (w.key.state, c, follow)) :
    pressed (strike gc_mode p w.key t) = true := by
  rw [h.pressed_eq (strike_rapid_step gc_mode p h.mode hstep).1, hs]
  cases again <;> rfl

variable {n bottom : Nat}

theorem not_counts (h : ¬ Counts again n) : (FULL_TRAVEL_UNIT * TRAVEL_SCALE).toNat < n := by
  by_contra hle
  exact h fun _ => Nat.le_of_not_lt hle

theorem Follows.right_beyond (h : Follows pts w) (top : Nat) (hcounts : ¬ Counts again n) :
    RightReport pts n true (.pressed again top) := by
  have hbeyond := not_counts hcounts
  have hreach := h.in_reach
  have hordered := h.ordered
  refine iff_of_false (by decide) ?_
  rintro (hle | ⟨-, habove⟩)
  · omega
  · unfold AboveDeadZone at habove
    change _ < 228 at habove
    change 240 < n at hbeyond
    omega

/-- A key that is pressed is released below the furthest travel since the press. -/
theorem Follows.after_press (h : Follows pts w) {top : Nat} (hw : w.reported = .pressed again top) :
    Follows pts (update_watched gc_mode p pts w t) ∧ ReportsRight gc_mode p pts w t := by
  have hmoving := h.moving
  rw [hw] at hmoving
  obtain ⟨hs, htop, hrelease⟩ := hmoving
  have hsampled : (sampled w.key t).state = _ := hs
  have hstep := rapid_step_pressed hsampled
  have htravel : (sampled w.key t).travel = t := rfl
  rw [htravel] at hstep
  have hlow : t ≤ w.key.regular.deactn_pt ↔ t.toNat ≤ pts.deactn_pt := by
    rw [UInt8.le_iff_toNat_le, h.deactn_pt]
  have hrel : rapid_released (sampled w.key t) ↔
      t.toNat ≤ top - pts.sen_rls ∧ AboveDeadZone pts t.toNat := by
    unfold AboveDeadZone
    rw [rapid_released_iff, ← hrelease, ← h.sen_rls]
    exact Iff.rfl
  have hup : w.key.rapid.actn_pt < t ↔ top < t.toNat := by
    rw [UInt8.lt_iff_toNat_lt, htop]
  by_cases hcounts : Counts again t.toNat
  swap
  · -- beyond the full travel nothing moves
    rw [if_pos hcounts] at hstep
    obtain ⟨hstate, hrapid⟩ := h.stay gc_mode p hstep
    have hdown := h.held gc_mode p hs hstep
    refine ⟨h.of_moving hw hdown ?_, (reportsRight_iff hw hdown).mpr (h.right_beyond top hcounts)⟩
    rw [LastReport.next, if_pos rfl, if_neg hcounts, PointsFollow, hrapid]
    exact ⟨hstate.trans hs, htop, hrelease⟩
  rw [if_neg (not_not.mpr hcounts)] at hstep
  by_cases hret : t ≤ w.key.regular.deactn_pt
  · rw [if_pos (by exact hret)] at hstep
    obtain ⟨hstate, -⟩ := h.stay gc_mode p hstep
    have hdown := h.pressed_eq hstate
    refine ⟨h.of_moving hw hdown ?_, (reportsRight_iff hw hdown).mpr ?_⟩
    · rw [LastReport.next, if_neg (by decide), if_pos (hlow.mp hret)]
      exact hstate
    · exact iff_of_true rfl (.inl (hlow.mp hret))
  have hlong : ¬ t.toNat ≤ pts.deactn_pt := fun hle => hret (hlow.mpr hle)
  rw [if_neg (by exact hret)] at hstep
  by_cases hrelnow : rapid_released (sampled w.key t)
  · rw [if_pos hrelnow] at hstep
    obtain ⟨hstate, hdeactn, hactn⟩ := h.down gc_mode p hstep
    have hdown := h.pressed_eq hstate
    obtain ⟨hfits, habove⟩ := hrel.mp hrelnow
    refine ⟨h.of_moving hw hdown ?_, (reportsRight_iff hw hdown).mpr ?_⟩
    · rw [LastReport.next, if_neg (by decide), if_neg hlong]
      exact ⟨hstate, hdeactn, hactn⟩
    · refine iff_of_true rfl (.inr ⟨?_, habove⟩)
      omega
  rw [if_neg hrelnow] at hstep
  have hright : RightReport pts t.toNat true (.pressed again top) := by
    refine iff_of_false (by decide) ?_
    rintro (hle | ⟨hfits, habove⟩)
    · exact hlong hle
    · exact hrelnow (hrel.mpr ⟨by omega, habove⟩)
  by_cases hmore : w.key.rapid.actn_pt < t
  · rw [if_pos (by exact hmore)] at hstep
    obtain ⟨hstate, hactn, hdeactn⟩ := h.up gc_mode p hstep
    have hdown := h.held gc_mode p hs hstep
    refine ⟨h.of_moving hw hdown ?_, (reportsRight_iff hw hdown).mpr hright⟩
    rw [LastReport.next, if_pos rfl, if_pos hcounts,
      Nat.max_eq_right (Nat.le_of_lt (hup.mp hmore))]
    exact ⟨hstate.trans hs, hactn, hdeactn⟩
  · rw [if_neg (by exact hmore)] at hstep
    obtain ⟨hstate, hrapid⟩ := h.stay gc_mode p hstep
    have hdown := h.held gc_mode p hs hstep
    refine ⟨h.of_moving hw hdown ?_, (reportsRight_iff hw hdown).mpr hright⟩
    rw [LastReport.next, if_pos rfl, if_pos hcounts,
      Nat.max_eq_left (Nat.le_of_not_lt fun hlt => hmore (hup.mpr hlt)), PointsFollow, hrapid]
    exact ⟨hstate.trans hs, htop, hrelease⟩

theorem rapid_step_released (hs : key.state = AKS_RAPID_RELEASED) :
    rapid_step key =
      if key.travel ≤ key.regular.deactn_pt then (AKS_REGULAR_RELEASED, false, .no)
      else if key.rapid.actn_pt ≤ key.travel ∧ key.regular.actn_pt ≤ key.travel then
        (AKS_RAPID_PRESSED, true, .up)
      else if key.travel < key.rapid.deactn_pt then (key.state, false, .down)
      else (key.state, false, .no) := by
  have hne : key.state ≠ AKS_REGULAR_RELEASED ∧ key.state ≠ AKS_REGULAR_PRESSED := by
    rw [hs]
    decide
  rw [rapid_step, if_neg hne.1, if_neg hne.2, if_pos hs]

theorem right_released_iff {pts : RapidPoints}
    (hnot : ¬ ((bottom + pts.sen) % 256 ≤ n ∧ pts.actn_pt ≤ n)) (hbottom : bottom < 256)
    (hsen : pts.sen < 256) :
    RightReport pts n false (.released bottom) ↔ ¬ PressesEarly pts n (.released bottom) := by
  refine iff_of_true (iff_of_false (by decide) ?_) ?_
  · rintro ⟨hacted, hrisen⟩
    refine hnot ⟨?_, hacted⟩
    omega
  · rintro ⟨hwraps, hrisen, hacted⟩
    refine hnot ⟨?_, hacted⟩
    omega

/-- A key that the rapid trigger has released is pressed again above the furthest
travel since then, where that point has its place. -/
theorem Follows.after_release (h : Follows pts w) (hw : w.reported = .released bottom) :
    Follows pts (update_watched gc_mode p pts w t) ∧
      (ReportsRight gc_mode p pts w t ↔ ¬ PressesEarly pts t.toNat (.released bottom)) := by
  have hmoving := h.moving
  rw [hw] at hmoving
  obtain ⟨hs, hbottom, hagain⟩ := hmoving
  have hordered := h.ordered
  have hlow : t ≤ w.key.regular.deactn_pt ↔ t.toNat ≤ pts.deactn_pt := by
    rw [UInt8.le_iff_toNat_le, h.deactn_pt]
  have hact : w.key.regular.actn_pt ≤ t ↔ pts.actn_pt ≤ t.toNat := by
    rw [UInt8.le_iff_toNat_le, h.actn_pt]
  have hrise : w.key.rapid.actn_pt ≤ t ↔ (bottom + pts.sen) % 256 ≤ t.toNat := by
    rw [UInt8.le_iff_toNat_le, hagain]
  have hfall : t < w.key.rapid.deactn_pt ↔ t.toNat < bottom := by
    rw [UInt8.lt_iff_toNat_lt, hbottom]
  have hbound := t.toNat_lt
  have hbyte : bottom < 256 := hbottom ▸ w.key.rapid.deactn_pt.toNat_lt
  have hsen : pts.sen < 256 := h.sen ▸ w.key.rpd_trig_sen.toNat_lt
  have hsampled : (sampled w.key t).state = _ := hs
  have hstep := rapid_step_released hsampled
  by_cases hret : t ≤ w.key.regular.deactn_pt
  · have hshort := hlow.mp hret
    rw [if_pos (by exact hret)] at hstep
    obtain ⟨hstate, -⟩ := h.stay gc_mode p hstep
    have hdown := h.pressed_eq hstate
    refine ⟨h.of_moving hw hdown ?_, (reportsRight_iff hw hdown).trans ?_⟩
    · rw [LastReport.next, if_neg (by decide), if_pos hshort]
      exact hstate
    · refine right_released_iff ?_ hbyte hsen
      rintro ⟨-, hle⟩
      omega
  have hlong : ¬ t.toNat ≤ pts.deactn_pt := fun hle => hret (hlow.mpr hle)
  rw [if_neg (by exact hret)] at hstep
  by_cases hpress : w.key.rapid.actn_pt ≤ t ∧ w.key.regular.actn_pt ≤ t
  · rw [if_pos (by exact hpress)] at hstep
    obtain ⟨hstate, hactn, hdeactn⟩ := h.up gc_mode p hstep
    have hdown := h.pressed_eq hstate
    obtain ⟨hrisen, hacted⟩ := hpress
    rw [hrise] at hrisen
    rw [hact] at hacted
    refine ⟨h.of_moving hw hdown ?_, (reportsRight_iff hw hdown).trans ?_⟩
    · rw [LastReport.next, if_pos (by decide)]
      exact ⟨hstate, hactn, hdeactn⟩
    · constructor
      · rintro hright ⟨hwraps, -, -⟩
        have hfits := (hright.mp rfl).2
        omega
      · intro hearly
        refine iff_of_true rfl ⟨hacted, ?_⟩
        by_contra hshort
        refine hearly ⟨?_, ?_, hacted⟩ <;> omega
  rw [if_neg (by exact hpress)] at hstep
  rw [hrise, hact] at hpress
  have hright := right_released_iff hpress hbyte hsen
  by_cases hmore : t < w.key.rapid.deactn_pt
  · rw [if_pos (by exact hmore)] at hstep
    obtain ⟨hstate, hdeactn, hactn⟩ := h.down gc_mode p hstep
    have hdown := h.pressed_eq (hstate.trans hs)
    refine ⟨h.of_moving hw hdown ?_, (reportsRight_iff hw hdown).trans hright⟩
    rw [LastReport.next, if_neg (by decide), if_neg hlong,
      Nat.min_eq_right (Nat.le_of_lt (hfall.mp hmore))]
    exact ⟨hstate.trans hs, hdeactn, hactn⟩
  · rw [if_neg (by exact hmore)] at hstep
    obtain ⟨hstate, hrapid⟩ := h.stay gc_mode p hstep
    have hdown := h.pressed_eq (hstate.trans hs)
    refine ⟨h.of_moving hw hdown ?_, (reportsRight_iff hw hdown).trans hright⟩
    rw [LastReport.next, if_neg (by decide), if_neg hlong,
      Nat.min_eq_left (Nat.le_of_not_lt fun hlt => hmore (hfall.mpr hlt)), PointsFollow, hrapid]
    exact ⟨hstate.trans hs, hbottom, hagain⟩

/-- Every update keeps the key on its reports, and the report is the right one
unless the key is pressed early. -/
theorem Follows.update (h : Follows pts w) (t : UInt8) :
    Follows pts (update_watched gc_mode p pts w t) ∧
      (ReportsRight gc_mode p pts w t ↔ ¬ PressesEarly pts t.toNat w.reported) := by
  cases hw : w.reported with
  | returned =>
    obtain ⟨hnext, hright⟩ := h.after_return hw
    exact ⟨hnext, iff_of_true hright fun hearly => hearly⟩
  | pressed again top =>
    obtain ⟨hnext, hright⟩ := h.after_press hw
    exact ⟨hnext, iff_of_true hright fun hearly => hearly⟩
  | released bottom => exact h.after_release hw

end

/-! ## Streams of travels -/

def rapid_points (global cfg : analog_key_config_t) : RapidPoints where
  actn_pt := (key_actn_pt global cfg).toNat * TRAVEL_SCALE.toNat
  deactn_pt := ((key_actn_pt global cfg).toNat - 3) * TRAVEL_SCALE.toNat
  sen := (key_sen global cfg).toNat * TRAVEL_SCALE.toNat
  sen_rls := (key_sen_rls global cfg).toNat * TRAVEL_SCALE.toNat

/-- A key in rapid mode with its point and its sensitivities in the range that the
host gives them. -/
structure RapidSetting (global cfg : analog_key_config_t) : Prop where
  mode : key_mode global cfg = AKM_RAPID
  actn_pt : 1 ≤ (key_actn_pt global cfg).toNat ∧ (key_actn_pt global cfg).toNat ≤ 39
  sen : 1 ≤ (key_sen global cfg).toNat ∧ (key_sen global cfg).toNat ≤ 39
  sen_rls : 1 ≤ (key_sen_rls global cfg).toNat ∧ (key_sen_rls global cfg).toNat ≤ 39

theorem scaled_toNat {x : UInt8} (h : x.toNat ≤ 42) :
    (x * TRAVEL_SCALE).toNat = x.toNat * TRAVEL_SCALE.toNat := by
  rw [UInt8.toNat_mul, Nat.mod_eq_of_lt]
  change x.toNat * 6 < 256
  omega

theorem key_deactn_pt_toNat (global cfg : analog_key_config_t) :
    (key_deactn_pt global cfg).toNat = (key_actn_pt global cfg).toNat - 3 := by
  unfold key_deactn_pt
  split
  · rename_i hlt
    rw [UInt8.toNat_sub_of_le _ _ (UInt8.le_of_lt hlt)]
    rfl
  · rename_i hle
    rw [UInt8.not_lt, UInt8.le_iff_toNat_le] at hle
    exact (Nat.sub_eq_zero_of_le hle).symm

variable {global cfg : analog_key_config_t}

theorem no_adv_data (h : key_mode global cfg = AKM_RAPID) : adv_data cfg = none := by
  unfold key_mode at h
  unfold adv_data
  split at h
  · rw [h]
    rfl
  · rename_i hadv
    rw [not_not.mp hadv]
    rfl

theorem Follows.configured (h : RapidSetting global cfg) {key : analog_key_t}
    (hs : key.state = AKS_REGULAR_RELEASED) :
    Follows (rapid_points global cfg) ⟨configured_key global cfg key, .returned⟩ := by
  obtain ⟨hmode, ⟨hact, hact39⟩, ⟨-, hsen⟩, -, hrls⟩ := h
  have hdeact := key_deactn_pt_toNat global cfg
  refine ⟨hmode, scaled_toNat (by omega), ?_, ?_, scaled_toNat (by omega), ?_, ?_, hs⟩
  · change (key_deactn_pt global cfg * TRAVEL_SCALE).toNat = _
    rw [scaled_toNat (by omega), hdeact]
    rfl
  · change ((adv_data cfg).getD (key_sen global cfg * TRAVEL_SCALE)).toNat = _
    rw [no_adv_data hmode]
    exact scaled_toNat (by omega)
  · change ((key_actn_pt global cfg).toNat - 3) * 6 < (key_actn_pt global cfg).toNat * 6
    omega
  · change (key_actn_pt global cfg).toNat * 6 ≤ 240
    omega

section

variable {gc_mode : UInt8} {p : analog_matrix_profile_t R C}

/-- On any stream of travels a key in rapid mode reports what its rapid trigger
promises, if and only if no update presses it early. -/
theorem rapid_trigger_reports_right_iff {global cfg : analog_key_config_t}
    (h : RapidSetting global cfg) {key : analog_key_t} (hs : key.state = AKS_REGULAR_RELEASED)
    (ts : List UInt8) :
    Along (update_watched gc_mode p (rapid_points global cfg))
        (ReportsRight gc_mode p (rapid_points global cfg))
        ⟨configured_key global cfg key, .returned⟩ ts ↔
      Along (update_watched gc_mode p (rapid_points global cfg))
        (fun w t => ¬ PressesEarly (rapid_points global cfg) t.toNat w.reported)
        ⟨configured_key global cfg key, .returned⟩ ts :=
  Along.iff (fun _ t hw => (hw.update t).2.symm) (fun _ t hw _ => (hw.update t).1)
    (Follows.configured h hs)

end

/-- A key that actuates at 1 mm and releases at once, and presses again after 2.5 mm. -/
def late_press_config : analog_key_config_t := ⟨2, 10, 25, 1, 0, 0⟩

theorem late_press_setting : RapidSetting .zero late_press_config :=
  ⟨by decide, by decide, by decide, by decide⟩

/-- Until it has been released by a little travel, the key reports right. -/
theorem rapid_trigger_reports_right_at_first :
    Along (update_watched 0 (analog_matrix_profile_t.zero 1 1) (rapid_points .zero late_press_config))
      (ReportsRight 0 (analog_matrix_profile_t.zero 1 1) (rapid_points .zero late_press_config))
      ⟨configured_key .zero late_press_config .zero, .returned⟩ [120, 110] := by
  refine (rapid_trigger_reports_right_iff late_press_setting rfl [120, 110]).mpr ?_
  exact ⟨fun h => h, fun h => h, trivial⟩

/-- After a release at 110 units the point to press again at wraps, and the next travel
presses the key. -/
theorem a_key_is_pressed_again_without_a_rise :
    ¬ ∀ ts : List UInt8, Along
      (update_watched 0 (analog_matrix_profile_t.zero 1 1) (rapid_points .zero late_press_config))
      (ReportsRight 0 (analog_matrix_profile_t.zero 1 1) (rapid_points .zero late_press_config))
      ⟨configured_key .zero late_press_config .zero, .returned⟩ ts := by
  intro h
  obtain ⟨-, -, hright, -⟩ := h [120, 110, 109]
  revert hright
  unfold ReportsRight
  decide

end keychron_qmk.analog_matrix
