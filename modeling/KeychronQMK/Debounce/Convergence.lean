-- Convergence: in every run in which no command comes on a pending change,
-- the cooked matrix is the raw one once that was constant for the debounce
-- time, whichever algorithm is in force.
import KeychronQMK.Debounce.Settling
import KeychronQMK.Lib.Runs

namespace keychron_qmk.keychron_debounce

open runs

variable {R C : Nat}

/-! ## The algorithms without counters -/

/-- A pending change of `sym_defer_g.c` is timed from the last change of the
raw matrix, and not overdue. -/
def GlobalTracked (D : UInt8) (still_since scanned_at : Nat) (s : GlobalDefer)
    (raw cooked : Matrix R C) : Prop :=
  raw ≠ cooked → s.debouncing = true ∧ s.debouncing_time = timer_read_fast still_since ∧
    scanned_at - still_since < D.toNat

variable {D : UInt8}

theorem global_changed (hD : D ≠ 0) (clock : Nat) (s : GlobalDefer) (raw cooked : Matrix R C) :
    GlobalTracked D clock clock
      (sym_defer_g_debounce s D (timer_read_fast clock) raw cooked true).1 raw
      (sym_defer_g_debounce s D (timer_read_fast clock) raw cooked true).2 := by
  exact fun _ => ⟨rfl, rfl, by rw [Nat.sub_self]; exact time_pos hD⟩

variable {still_since scanned_at clock q : Nat} {raw cooked curr_matrix : Matrix R C}

theorem global_still {s : GlobalDefer} (h : GlobalTracked D still_since scanned_at s raw cooked)
    (htime : raw ≠ cooked → D.toNat ≤ clock - still_since →
      D.toNat ≤ (timer_read_fast clock - timer_read_fast still_since).toNat) :
    GlobalTracked D still_since clock
      (sym_defer_g_debounce s D (timer_read_fast clock) raw cooked false).1 raw
      (sym_defer_g_debounce s D (timer_read_fast clock) raw cooked false).2 := by
  unfold sym_defer_g_debounce
  simp only [Bool.false_eq_true, ite_false]
  split
  · exact fun hne => absurd rfl hne
  · rename_i hwait
    intro hne
    obtain ⟨hdeb, hat, -⟩ := h hne
    refine ⟨hdeb, hat, not_le.mp fun hle => hwait ⟨hdeb, ?_⟩⟩
    rw [hat]
    apply UInt32.le_iff_toNat_le.mpr
    exact htime hne hle

/-- A row of `sym_defer_pr.c`: a pending change has a countdown that runs
since the last change of the raw matrix, or longer. -/
structure RowTracked (D : UInt8) (q : Nat) (countdown : UInt8) (last_raw raw cooked : Row C) :
    Prop where
  time : countdown.toNat ≤ D.toNat
  fresh : last_raw = raw ∨ countdown = 0
  differs : raw ≠ cooked → last_raw = raw ∧ countdown ≠ 0 ∧ countdown.toNat + q ≤ D.toNat

theorem row_scan {elapsed countdown : UInt8} {g : Nat} {last_raw raw raw' cooked : Row C}
    (h : RowTracked D q countdown last_raw raw cooked) (hD : D ≠ 0) {changed : Bool}
    (he : changed = false → raw ≠ cooked → min D.toNat (q + g) ≤ q + elapsed.toNat)
    (hsame : changed = false → raw' = raw)
    (hlost : countdown = 0 → last_raw = raw' → cooked = raw') :
    RowTracked D (if changed then 0 else q + g)
      (defer_row D elapsed countdown last_raw raw' cooked).1 raw' raw'
      (defer_row D elapsed countdown last_raw raw' cooked).2 := by
  have htime := h.time
  unfold defer_row
  by_cases hraw : raw' = last_raw
  swap
  · rw [if_pos hraw]
    refine ⟨le_rfl, .inl rfl, fun hne => ⟨rfl, hD, ?_⟩⟩
    cases changed with
    | true => exact le_rfl
    | false =>
      rw [hsame rfl] at hne hraw
      exact absurd (h.differs hne).1.symm hraw
  rw [if_neg (not_not.mpr hraw)]
  by_cases hrun : elapsed < countdown
  · rw [if_pos hrun]
    have hlt := UInt8.lt_iff_toNat_lt.mp hrun
    have hsub := running_toNat (UInt8.not_le.mpr hrun)
    have hne0 : countdown - elapsed ≠ 0 := fun hz => by
      rw [hz] at hsub
      change 0 = _ at hsub
      omega
    refine ⟨by simp only; omega, .inl rfl, fun hne => ⟨rfl, hne0, ?_⟩⟩
    simp only
    cases changed with
    | true => rw [if_pos rfl]; omega
    | false =>
      rw [hsame rfl] at hne
      have hle := (h.differs hne).2.2
      have hmin := he rfl hne
      rw [if_neg Bool.false_ne_true]
      omega
  rw [if_neg hrun]
  by_cases hzero : countdown = 0
  · rw [if_neg (not_not.mpr hzero)]
    exact ⟨htime, .inl rfl, fun hne => absurd (hlost hzero hraw.symm).symm hne⟩
  · rw [if_pos hzero]
    exact ⟨Nat.zero_le _, .inl rfl, fun hne => absurd rfl hne⟩

/-- The rows of a matrix, of which a countdown runs since the last scan. -/
structure RowsTracked (D : UInt8) (q scanned_at : Nat) (s : RowDefer R C) (raw cooked : Matrix R C) :
    Prop where
  clocked : ∀ r, s.countdowns r ≠ 0 → s.last_time = timer_read scanned_at
  rows : ∀ r, RowTracked D q (s.countdowns r) (s.last_raw r) (raw r) (cooked r)

theorem timer_read_diff {a b : Nat} (h : a ≤ b) (hlt : b - a < 2 ^ 16) :
    (timer_read b - timer_read a).toNat = b - a := by
  simp only [timer_read, UInt16.toNat_sub, UInt16.toNat_ofNat']
  omega

theorem elapsed16_toNat (x : UInt16) :
    (if 255 < x then 255 else x.toUInt8 : UInt8).toNat = min x.toNat 255 := by
  split
  · rename_i h
    have hlt := UInt16.lt_iff_toNat_lt.mp h
    change 255 < _ at hlt
    change 255 = _
    omega
  · rename_i h
    have hle : x.toNat ≤ 255 := not_lt.mp fun hlt => h (UInt16.lt_iff_toNat_lt.mpr hlt)
    rw [UInt16.toNat_toUInt8]
    omega

theorem rows_scan {s : RowDefer R C} {raw' : Matrix R C}
    (h : RowsTracked D q scanned_at s raw cooked) (hD : D ≠ 0) (hclock : scanned_at ≤ clock)
    {changed : Bool} (htime : changed = false → raw ≠ cooked → D.toNat ≤ q + (clock - scanned_at) →
      D.toNat ≤ q + (timer_read clock - timer_read scanned_at).toNat)
    (hsame : changed = false → raw' = raw)
    (hlost : ∀ r, s.countdowns r = 0 → s.last_raw r = raw' r → cooked r = raw' r) :
    RowsTracked D (if changed then 0 else q + (clock - scanned_at)) clock
      (sym_defer_pr_debounce s D (timer_read clock) raw' cooked).1 raw'
      (sym_defer_pr_debounce s D (timer_read clock) raw' cooked).2 := by
  refine ⟨fun _ _ => rfl, fun r => ?_⟩
  refine row_scan (h.rows r) hD (fun hc hne => ?_) (fun hc => congrFun (hsame hc) r) (hlost r)
  have hbyte := D.toNat_lt
  have hin := htime hc fun heq => hne (congrFun heq r)
  rw [elapsed16_toNat, h.clocked r ((h.rows r).differs hne).2.1]
  by_cases hover : D.toNat ≤ q + (clock - scanned_at)
  · have hseen := hin hover
    omega
  · rw [timer_read_diff hclock (by omega)]
    omega

/-! ## The algorithm in force -/

/-- The matrix as a function of its keys. -/
def flat (m : Matrix R C) (k : Fin R × Fin C) : Bool := m k.1 k.2

theorem flat_ne {m m' : Matrix R C} {k : Fin R × Fin C} (h : flat m k ≠ flat m' k) : m ≠ m' :=
  fun heq => h (congrFun (congrArg flat heq) k)

/-- The algorithm in force times every key that differs from the raw matrix. -/
def Tracked (d : Debouncer R C) (still_since scanned_at : Nat) : Prop :=
  let q := scanned_at - still_since
  match d.debounce_func with
  | .DEBOUNCE_NONE => d.raw_matrix = d.matrix
  | .DEBOUNCE_SYM_DEFER_GLOBAL =>
    GlobalTracked d.debounce_time still_since scanned_at d.sym_defer_g d.raw_matrix d.matrix
  | .DEBOUNCE_SYM_DEFER_PER_ROW =>
    RowsTracked d.debounce_time q scanned_at d.sym_defer_pr d.raw_matrix d.matrix
  | .DEBOUNCE_SYM_DEFER_PER_KEY =>
    Counts d.debounce_time q scanned_at d.sym_defer_pk (flat d.raw_matrix)
      (flat d.matrix)
  | .DEBOUNCE_SYM_EAGER_PER_ROW =>
    Counts d.debounce_time q scanned_at d.sym_eager_pr d.raw_matrix d.matrix
  | .DEBOUNCE_SYM_EAGER_PER_KEY =>
    Counts d.debounce_time q scanned_at d.sym_eager_pk (flat d.raw_matrix)
      (flat d.matrix)
  | .DEBOUNCE_ASYM_EAGER_DEFER_PER_KEY =>
    Counts d.debounce_time q scanned_at d.asym_eager_defer_pk (flat d.raw_matrix)
      (flat d.matrix)

structure Timed (d : Debouncer R C) : Prop where
  zero : d.debounce_time = 0 → d.debounce_func = .DEBOUNCE_NONE
  seven_bits : d.debounce_func = .DEBOUNCE_ASYM_EAGER_DEFER_PER_KEY → d.debounce_time.toNat ≤ 127

variable {d : Debouncer R C}

theorem tracked_settled (h : Tracked d still_since scanned_at)
    (hq : d.debounce_time.toNat ≤ scanned_at - still_since) : d.raw_matrix = d.matrix := by
  unfold Tracked at h
  rcases hf : d.debounce_func with _ | _ | _ | _ | _ | _ | _
  all_goals simp only [hf] at h
  · by_contra hne
    have hlt := (h hne).2.2
    omega
  · funext r
    by_contra hne
    obtain ⟨-, hne0, hle⟩ := (h.rows r).differs hne
    have hpos := time_pos hne0
    omega
  · exact funext fun r => funext fun c => h.settled hq (r, c)
  · exact funext fun r => h.settled hq r
  · exact funext fun r => funext fun c => h.settled hq (r, c)
  · exact funext fun r => funext fun c => h.settled hq (r, c)
  · exact h

theorem tracked_init (h : d.raw_matrix = d.matrix) (clock still_since : Nat) (scanned_at : Nat) :
    Tracked (d.debounce_init clock) still_since scanned_at := by
  unfold Tracked Debouncer.debounce_init
  rcases hf : d.debounce_func with _ | _ | _ | _ | _ | _ | _
  all_goals simp only [hf]
  · exact fun hne => absurd h hne
  · refine ⟨fun _ hne => absurd rfl hne, fun r => ⟨Nat.zero_le _, .inr rfl, fun hne => ?_⟩⟩
    exact absurd (congrFun h r) hne
  · exact counts_init _ fun k => congrFun (congrArg flat h) k
  · exact counts_init _ fun r => congrFun h r
  · exact counts_init _ fun k => congrFun (congrArg flat h) k
  · exact counts_init _ fun k => congrFun (congrArg flat h) k
  · exact h

/-- What a call leaves of the choice of the algorithm. -/
structure SameChoice (d d' : Debouncer R C) : Prop where
  type : d'.debounce_type = d.debounce_type
  time : d'.debounce_time = d.debounce_time
  func : d'.debounce_func = d.debounce_func
  raw_matrix : d'.raw_matrix = d.raw_matrix

theorem SameChoice.timed {d' : Debouncer R C} (h : SameChoice d d') (ht : Timed d) : Timed d' := by
  refine ⟨?_, ?_⟩
  · rw [h.time, h.func]
    exact ht.zero
  · rw [h.time, h.func]
    exact ht.seven_bits

theorem debounce_init_same (d : Debouncer R C) (clock : Nat) :
    SameChoice d (d.debounce_init clock) ∧ (d.debounce_init clock).matrix = d.matrix := by
  unfold Debouncer.debounce_init
  split
  all_goals exact ⟨⟨rfl, rfl, rfl, rfl⟩, rfl⟩

theorem debounce_same (d : Debouncer R C) (clock : Nat) (changed : Bool) :
    SameChoice d (d.debounce clock changed) := by
  unfold Debouncer.debounce
  split
  all_goals exact ⟨rfl, rfl, rfl, rfl⟩

/-! ## Scans -/

/-- The milliseconds since `still_since` that the timers of the algorithm in
force count. -/
def Run.timed (s : Run R C) : Nat :=
  match s.debouncer.debounce_func with
  | .DEBOUNCE_SYM_DEFER_GLOBAL =>
    (timer_read_fast s.clock - timer_read_fast s.still_since).toNat
  | .DEBOUNCE_SYM_DEFER_PER_ROW =>
    s.scanned_at - s.still_since + (timer_read s.clock - timer_read s.scanned_at).toNat
  | _ => s.scanned_at - s.still_since + (timer_read_fast s.clock - timer_read_fast s.scanned_at).toNat

/-- What a scan must meet for a change to be noticed, and in time. -/
structure ScanHeeded (s : Run R C) (curr_matrix : Matrix R C) : Prop where
  /-- No timer wraps around while a change is pending. -/
  in_time : s.debouncer.raw_matrix = curr_matrix → curr_matrix ≠ s.debouncer.matrix →
    s.debouncer.debounce_time.toNat ≤ s.clock - s.still_since →
      s.debouncer.debounce_time.toNat ≤ s.timed
  /-- A row that is as `sym_defer_pr.c` saw it last is cooked so. -/
  rows : s.debouncer.debounce_func = .DEBOUNCE_SYM_DEFER_PER_ROW → ∀ r,
    s.debouncer.sym_defer_pr.countdowns r = 0 →
      s.debouncer.sym_defer_pr.last_raw r = curr_matrix r → s.debouncer.matrix r = curr_matrix r

instance (s : Run R C) (curr_matrix : Matrix R C) : Decidable (ScanHeeded s curr_matrix) :=
  decidable_of_iff (_ ∧ _) ⟨fun h => ⟨h.1, h.2⟩, fun h => ⟨h.in_time, h.rows⟩⟩

/-- The invariant of a run. -/
structure Good (s : Run R C) : Prop where
  still_since : s.still_since ≤ s.scanned_at
  scanned_at : s.scanned_at ≤ s.clock
  timed : Timed s.debouncer
  tracked : Tracked s.debouncer s.still_since s.scanned_at

variable {s : Run R C}

theorem still_time (h1 : s.still_since ≤ s.scanned_at) (h2 : s.scanned_at ≤ s.clock) (p : Prop)
    [Decidable p] : s.clock - (if p then s.still_since else s.clock) =
      if p then s.scanned_at - s.still_since + (s.clock - s.scanned_at) else 0 := by
  split
  · omega
  · omega

theorem still_iff (hf : d.debounce_func ≠ .DEBOUNCE_ASYM_EAGER_DEFER_PER_KEY) :
    (d.raw_matrix = curr_matrix ∧ ¬ d.unlocks clock curr_matrix) ↔
      decide (d.raw_matrix ≠ curr_matrix) = false := by
  rw [decide_eq_false_iff_not, not_not]
  exact and_iff_left fun hu => hf hu.1

theorem scan_tracked (h : Good s) (hc : ScanHeeded s curr_matrix) :
    Tracked (s.step (.scan curr_matrix)).debouncer
      (s.step (.scan curr_matrix)).still_since s.clock := by
  obtain ⟨hss, hsc, htimed, htracked⟩ := h
  obtain ⟨hin, hrows⟩ := hc
  have hsum : s.scanned_at - s.still_since + (s.clock - s.scanned_at) = s.clock - s.still_since := by
    omega
  have hraw : decide (s.debouncer.raw_matrix ≠ curr_matrix) = false →
      curr_matrix = s.debouncer.raw_matrix :=
    fun hd => (not_not.mp (of_decide_eq_false hd)).symm
  have hD : s.debouncer.debounce_func ≠ .DEBOUNCE_NONE → s.debouncer.debounce_time ≠ 0 :=
    fun hne hz => hne (htimed.zero hz)
  unfold Run.timed at hin
  unfold Tracked at htracked
  rcases hf : s.debouncer.debounce_func with _ | _ | _ | _ | _ | _ | _
  all_goals
    simp only [hf] at htracked hin
    simp only [Tracked, Run.step, Debouncer.matrix_scan, Debouncer.debounce, hf,
      still_time hss hsc]
  · by_cases hsame : s.debouncer.raw_matrix = curr_matrix
    · have hd := decide_eq_false (not_not.mpr hsame)
      rw [if_pos ((still_iff (by rw [hf]; decide)).mpr hd), hd]
      rw [hsame] at htracked
      exact global_still htracked (hin hsame)
    · rw [if_neg fun hst => hsame hst.1, decide_eq_true hsame]
      exact global_changed (hD (by rw [hf]; decide)) _ _ _ _
  · have hscan := rows_scan htracked (hD (by rw [hf]; decide)) hsc
      (fun hd hne hle => hin (hraw hd).symm (hraw hd ▸ hne) (hsum ▸ hle)) hraw (hrows hf)
    by_cases hsame : s.debouncer.raw_matrix = curr_matrix
    · have hd := decide_eq_false (not_not.mpr hsame)
      rw [if_pos ((still_iff (by rw [hf]; decide)).mpr hd)]
      rwa [hd] at hscan
    · rw [if_neg fun hst => hsame hst.1]
      rwa [decide_eq_true hsame] at hscan
  · exact counts_scan deferBounded htracked (hD (by rw [hf]; decide)) hsc
      (fun hd _ hne hle => hin (hraw hd).symm (hraw hd ▸ flat_ne hne) (hsum ▸ hle))
      (fun hd => congrArg flat (hraw hd))
      ((still_iff (by rw [hf]; decide)).trans (and_iff_left fun _ => trivial).symm)
  · exact counts_scan (eagerBounded (Row C)) htracked trivial hsc
      (fun hd r hne hle => hin (hraw hd).symm
        (hraw hd ▸ fun heq => hne (congrFun heq r)) (hsum ▸ hle)) hraw
      ((still_iff (by rw [hf]; decide)).trans (and_iff_left fun _ => trivial).symm)
  · exact counts_scan (eagerBounded Bool) htracked trivial hsc
      (fun hd _ hne hle => hin (hraw hd).symm (hraw hd ▸ flat_ne hne) (hsum ▸ hle))
      (fun hd => congrArg flat (hraw hd))
      ((still_iff (by rw [hf]; decide)).trans (and_iff_left fun _ => trivial).symm)
  · refine counts_scan asymBounded htracked
      ⟨hD (by rw [hf]; decide), htimed.seven_bits hf⟩ hsc
      (fun hd _ hne hle => hin (hraw hd).symm (hraw hd ▸ flat_ne hne) (hsum ▸ hle))
      (fun hd => congrArg flat (hraw hd)) ?_
    rw [decide_eq_false_iff_not, not_not]
    refine and_congr_right fun _ => ⟨fun hn k hk => hn ⟨hf, k, hk⟩, fun hn hu => ?_⟩
    obtain ⟨-, k, hk⟩ := hu
    exact hn k hk
  · by_cases hsame : s.debouncer.raw_matrix = curr_matrix
    · have hd := decide_eq_false (not_not.mpr hsame)
      rw [hd]
      exact hsame.symm.trans htracked
    · rw [decide_eq_true hsame]
      rfl

/-! ## Commands -/

theorem debounce_set_effect (clock : Nat) {type : DebounceType} {time : UInt8} {force : Bool}
    (h : ¬ (type = d.debounce_type ∧ time = d.debounce_time ∧ force = false)) :
    ∃ d' : Debouncer R C, Timed d' ∧ d'.raw_matrix = d.raw_matrix ∧ d'.matrix = d.matrix ∧
      d.debounce_set clock type time force = d'.debounce_init clock := by
  rw [Debouncer.debounce_set, if_neg h]
  refine ⟨_, ⟨fun hz => ?_, fun hf => ?_⟩, ?_, ?_, rfl⟩
  · by_cases hcap : (if time = 0 then DebounceType.DEBOUNCE_NONE else type) =
        DebounceType.DEBOUNCE_ASYM_EAGER_DEFER_PER_KEY ∧ 127 < time
    · exact absurd ((if_pos hcap).symm.trans hz) (by decide)
    · exact if_pos ((if_neg hcap).symm.trans hz)
  · by_cases hlt : 127 < time
    · exact (congrArg UInt8.toNat (if_pos ⟨hf, hlt⟩)).le
    · exact (congrArg UInt8.toNat (if_neg fun hc => hlt hc.2)).trans_le
        (UInt8.le_iff_toNat_le.mp (UInt8.not_lt.mp hlt))
  · rfl
  · rfl

theorem debounce_set_tracked (still_since scanned_at clock : Nat) (type : DebounceType)
    (time : UInt8) (force : Bool)
    (h : (type = d.debounce_type ∧ time = d.debounce_time ∧ force = false) →
      Timed d ∧ Tracked d still_since scanned_at)
    (hequal : ¬ (type = d.debounce_type ∧ time = d.debounce_time ∧ force = false) →
      d.raw_matrix = d.matrix) :
    Timed (d.debounce_set clock type time force) ∧
      Tracked (d.debounce_set clock type time force) still_since scanned_at := by
  by_cases hno : type = d.debounce_type ∧ time = d.debounce_time ∧ force = false
  · rw [Debouncer.debounce_set, if_pos hno]
    exact h hno
  · obtain ⟨d', htimed, hraw, hcooked, heq⟩ := debounce_set_effect clock hno
    rw [heq]
    exact ⟨(debounce_init_same d' clock).1.timed htimed,
      tracked_init (hraw.trans ((hequal hno).trans hcooked.symm)) _ _ _⟩

theorem good_start (R C : Nat) (type time : UInt8) : Good (Run.start R C type time) := by
  obtain ⟨htimed, htracked⟩ := debounce_set_tracked 0 0
    (d := Debouncer.zero R C) 0 ((DebounceType.ofByte type).getD DEFAULT_DEBOUNCE_TYPE) time
    (decide ((DebounceType.ofByte type).getD DEFAULT_DEBOUNCE_TYPE = .DEBOUNCE_SYM_DEFER_GLOBAL))
    (fun h => absurd h.1 (of_decide_eq_false h.2.2)) fun _ => rfl
  exact ⟨le_rfl, le_rfl, htimed, htracked⟩

/-! ## Runs -/

/-- The condition on a step: a command that changes the type or the time does
not come while a change is pending, and a scan is heeded. -/
def Heeded (s : Run R C) : Input R C → Prop
  | .wait _ => True
  | .scan curr_matrix => ScanHeeded s curr_matrix
  | .set type time => s.debouncer.raw_matrix = s.debouncer.matrix ∨
      DebounceType.ofByte type = none ∨
      DebounceType.ofByte type = some s.debouncer.debounce_type ∧ time = s.debouncer.debounce_time
  | .reset => s.debouncer.raw_matrix = s.debouncer.matrix

/-- After a scan the cooked matrix is the raw one, if that was still for the
debounce time in force. -/
def Cooks (s : Run R C) : Input R C → Prop
  | .scan curr_matrix =>
    let s := s.step (.scan curr_matrix)
    s.debouncer.debounce_time.toNat ≤ s.clock - s.still_since → s.debouncer.matrix = curr_matrix
  | _ => True

instance (s : Run R C) : ∀ x, Decidable (Heeded s x)
  | .wait _ => .isTrue trivial
  | .scan curr_matrix => inferInstanceAs (Decidable (ScanHeeded s curr_matrix))
  | .set _ _ => inferInstanceAs (Decidable (_ ∨ _ ∨ _))
  | .reset => inferInstanceAs (Decidable (s.debouncer.raw_matrix = s.debouncer.matrix))

instance (s : Run R C) : ∀ x, Decidable (Cooks s x)
  | .wait _ | .set _ _ | .reset => .isTrue trivial
  | .scan _ => inferInstanceAs (Decidable (_ → _))

theorem good_step (h : Good s) {x : Input R C} (hx : Heeded s x) : Cooks s x ∧ Good (s.step x) := by
  have hscanned := h.scanned_at
  cases x with
  | wait ms => exact ⟨trivial, h.still_since, Nat.le_add_right_of_le hscanned, h.timed, h.tracked⟩
  | scan curr_matrix =>
    have htracked := scan_tracked h hx
    have hsame := debounce_same { s.debouncer with raw_matrix := curr_matrix } s.clock
      (decide (s.debouncer.raw_matrix ≠ curr_matrix))
    refine ⟨fun hq => ?_, ?_, le_rfl, hsame.timed ⟨h.timed.zero, h.timed.seven_bits⟩, htracked⟩
    · exact (tracked_settled htracked hq).symm.trans hsame.raw_matrix
    · simp only [Run.step]
      split
      · exact h.still_since.trans hscanned
      · exact le_rfl
  | set type time =>
    suffices hd : Timed (s.debouncer.debounce_rx s.clock type time) ∧
        Tracked (s.debouncer.debounce_rx s.clock type time) s.still_since s.scanned_at from
      ⟨trivial, h.still_since, hscanned, hd.1, hd.2⟩
    unfold Debouncer.debounce_rx
    split
    · rename_i t ht
      refine debounce_set_tracked _ _ _ _ _ _ (fun _ => ⟨h.timed, h.tracked⟩) fun hne => ?_
      rcases hx with heq | hnone | ⟨hsome, htime⟩
      · exact heq
      · rw [hnone] at ht
        cases ht
      · rw [hsome] at ht
        exact absurd ⟨(Option.some.inj ht).symm, htime, rfl⟩ hne
    · exact ⟨h.timed, h.tracked⟩
  | reset =>
    obtain ⟨htimed, htracked⟩ := debounce_set_tracked _ _ s.clock DEFAULT_DEBOUNCE_TYPE DEBOUNCE true
      (fun _ => ⟨h.timed, h.tracked⟩) fun _ => hx
    exact ⟨trivial, h.still_since, hscanned, htimed, htracked⟩

end keychron_qmk.keychron_debounce
