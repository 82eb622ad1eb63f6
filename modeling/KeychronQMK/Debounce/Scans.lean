-- Scans with one algorithm and one debounce time, at any times: how long the
-- raw matrix was held when an algorithm cooks it.
import KeychronQMK.Debounce.Convergence

namespace keychron_qmk.keychron_debounce

variable {R C : Nat}

/-! ## Scans -/

/-- A debouncer since power-up, with the scans that it has seen, the last one
first, and the scan that last cooked each key and each row. -/
structure Scanning (R C : Nat) where
  debouncer : Debouncer R C
  clock : Nat
  scans : List (Nat × Matrix R C)
  key_cooked : Fin R → Fin C → Option Nat
  row_cooked : Fin R → Option Nat

namespace Scanning

def start (R C : Nat) (type time : UInt8) : Scanning R C :=
  ⟨.start R C type time, 0, [], fun _ _ => none, fun _ => none⟩

/-- The next scan, some milliseconds after the last one. -/
def step (s : Scanning R C) (x : Nat × Matrix R C) : Scanning R C :=
  let clock := s.clock + x.1
  let debouncer := s.debouncer.matrix_scan clock x.2
  { debouncer, clock
    scans := (clock, x.2) :: s.scans
    key_cooked := fun r c =>
      if debouncer.matrix r c ≠ s.debouncer.matrix r c then some clock else s.key_cooked r c
    row_cooked := fun r =>
      if debouncer.matrix r ≠ s.debouncer.matrix r then some clock else s.row_cooked r }

end Scanning

/-- Since `T` milliseconds or longer, every scan read `v` as what `obs` sees of
the matrix. -/
def Held {β : Type} (obs : Matrix R C → β) (v : β) (T now : Nat) (scans : List (Nat × Matrix R C)) :
    Prop :=
  ∃ recent before, scans = recent ++ before ∧ (∀ x ∈ recent, obs x.2 = v) ∧
    ∃ x ∈ recent, x.1 + T ≤ now

section Held

variable {β : Type} {obs : Matrix R C → β} {v : β} {T now : Nat} {scans : List (Nat × Matrix R C)}

theorem Held.mono {T' : Nat} (h : Held obs v T now scans) (hle : T' ≤ T) :
    Held obs v T' now scans := by
  obtain ⟨recent, before, heq, hall, x, hx, hT⟩ := h
  exact ⟨recent, before, heq, hall, x, hx, by omega⟩

theorem Held.first (now : Nat) (m : Matrix R C) (scans : List (Nat × Matrix R C)) :
    Held obs (obs m) 0 now ((now, m) :: scans) := by
  refine ⟨[(now, m)], scans, rfl, fun x hx => ?_, (now, m), List.mem_singleton_self _, le_refl now⟩
  rw [List.mem_singleton.mp hx]

theorem Held.scan (h : Held obs v T now scans) {m : Matrix R C} (hm : obs m = v) (gap : Nat) :
    Held obs v (T + gap) (now + gap) ((now + gap, m) :: scans) := by
  obtain ⟨recent, before, rfl, hall, x, hx, hT⟩ := h
  refine ⟨(now + gap, m) :: recent, before, rfl, fun y hy => ?_, x, List.mem_cons_of_mem _ hx,
    by omega⟩
  rcases List.mem_cons.mp hy with rfl | hy
  · exact hm
  · exact hall y hy

end Held

/-- How long a value `raw` was held before a scan and `raw'` after it: `H q`
says that it was for `q` milliseconds. -/
structure Holds {ν : Type} (raw raw' : ν) (gap : Nat) (H H' : Nat → Prop) : Prop where
  fresh : H' 0
  longer : raw' = raw → ∀ {q}, H q → H' (q + gap)
  shorter : ∀ {q q'}, H' q → q' ≤ q → H' q'

theorem holds_scan {β : Type} (obs : Matrix R C → β) (raw curr_matrix : Matrix R C)
    (now gap : Nat) (scans : List (Nat × Matrix R C)) :
    Holds (obs raw) (obs curr_matrix) gap (fun q => Held obs (obs raw) q now scans)
      (fun q => Held obs (obs curr_matrix) q (now + gap) ((now + gap, curr_matrix) :: scans)) where
  fresh := Held.first _ _ _
  longer heq _ h := by
    rw [heq]
    exact h.scan heq gap
  shorter h hle := h.mono hle

/-! ## Counters -/

theorem timer_diff_le {a b : Nat} (h : a ≤ b) :
    (timer_read_fast b - timer_read_fast a).toNat ≤ b - a := by
  simp only [timer_read_fast, UInt32.toNat_sub, UInt32.toNat_ofNat']
  omega

section Counters

variable {κ : Type} {s : Counters κ} {scanned_at gap : Nat} {k : κ}

theorem elapsed_le (h : Clocked s scanned_at) (hk : (s.debounce_counters k).time ≠ 0) :
    (s.elapsed (timer_read_fast (scanned_at + gap))).toNat ≤ gap := by
  obtain ⟨hneed, hlast⟩ := h k hk
  have hdiff := timer_diff_le (Nat.le_add_right scanned_at gap)
  unfold Counters.elapsed
  rw [if_pos hneed, hlast, elapsed_time_toNat]
  omega

theorem elapsed_eq (h : Clocked s scanned_at) (hk : (s.debounce_counters k).time ≠ 0)
    (hgap : gap < 2 ^ 32) :
    (s.elapsed (timer_read_fast (scanned_at + gap))).toNat = min gap 255 := by
  obtain ⟨hneed, hlast⟩ := h k hk
  have hdiff := timer_diff (Nat.le_add_right scanned_at gap) (by omega)
  unfold Counters.elapsed
  rw [if_pos hneed, hlast, elapsed_time_toNat, hdiff]
  omega

end Counters

section Counters

variable {κ ν : Type} [Fintype κ]

/-- What a call does to each cell, whatever the elapsed time and the transfer
that it takes from the whole matrix. -/
theorem counters_scan (rules : Rules ν) {s : Counters κ} (D : UInt8) {scanned_at : Nat}
    (h : Clocked s scanned_at) (gap : Nat) {raw raw' cooked : κ → ν} {changed : Bool}
    (hchanged : ∀ k, raw' k ≠ raw k → changed = true) {P : κ → debounce_counter_t → ν → Prop}
    (hcell : ∀ k elapsed transfers,
      ((s.debounce_counters k).time ≠ 0 →
        elapsed.toNat ≤ gap ∧ (gap < 2 ^ 32 → elapsed.toNat = min gap 255)) →
      (raw' k ≠ raw k → transfers = true) →
      ((updated rules elapsed (s.debounce_counters k) (raw' k) (cooked k)).flag = true →
        transfers = true) →
      P k (called rules D elapsed transfers (s.debounce_counters k) (raw' k) (cooked k)).counter
        (called rules D elapsed transfers (s.debounce_counters k) (raw' k) (cooked k)).cooked)
    (k : κ) :
    P k ((s.debounce rules D (timer_read_fast (scanned_at + gap)) raw' cooked
        changed).1.debounce_counters k)
      ((s.debounce rules D (timer_read_fast (scanned_at + gap)) raw' cooked changed).2 k) := by
  obtain ⟨transfers, htold, hflag, hcells⟩ := debounce_cells rules s D
    (timer_read_fast (scanned_at + gap)) raw' cooked changed
  rw [(hcells k).1, (hcells k).2]
  exact hcell k _ transfers (fun hne => ⟨elapsed_le h hne, elapsed_eq h hne⟩)
    (fun hne => htold (hchanged k hne)) (hflag k)

end Counters

/-! ## Deferred keys -/

section Cells

variable {D elapsed : UInt8} {gap : Nat} {transfers : Bool} {c : debounce_counter_t}
  {raw raw' cooked : Bool} {H H' : Nat → Prop}

/-- The counter of a deferred key runs while its change is held. -/
structure Deferred (D : UInt8) (H : Nat → Prop) (c : debounce_counter_t) (raw cooked : Bool) :
    Prop where
  time : c.time.toNat ≤ D.toNat
  held : c.time ≠ 0 → raw ≠ cooked ∧ H (D.toNat - c.time.toNat)

theorem Deferred.of_idle (h : c.time = 0) : Deferred D H c raw cooked :=
  ⟨by rw [h]; exact Nat.zero_le _, fun hne => absurd h hne⟩

theorem deferred_scan (h : Deferred D H c raw cooked) (hH : Holds raw raw' gap H H')
    (he : c.time ≠ 0 → elapsed.toNat ≤ gap) (ht : raw' ≠ raw → transfers = true) :
    Deferred D H' (called deferRules D elapsed transfers c raw' cooked).counter raw'
        (called deferRules D elapsed transfers c raw' cooked).cooked ∧
      ((called deferRules D elapsed transfers c raw' cooked).cooked ≠ cooked →
        (called deferRules D elapsed transfers c raw' cooked).cooked = raw' ∧ H' D.toNat) := by
  have hsame (hne : c.time ≠ 0) (hne' : raw' ≠ cooked) : raw' = raw := by
    have := (h.held hne).1
    revert this hne'
    cases raw <;> cases raw' <;> cases cooked <;> decide
  rcases updated_cases deferRules elapsed c raw' cooked with
    ⟨hne, hle, hu⟩ | ⟨hrun, time, hval, hzero, hu⟩
  · -- The counter expires.
    have hle := UInt8.le_iff_toNat_le.mp hle
    have hcalled : called deferRules D elapsed transfers c raw' cooked =
        ⟨{ c with time := 0 }, raw', false⟩ := by
      rw [called_eq hu]
      cases transfers with
      | false => rfl
      | true => exact defer_transfer_stop rfl
    rw [hcalled]
    refine ⟨.of_idle rfl, fun hcooked => ⟨rfl, ?_⟩⟩
    have hraw := hsame hne hcooked
    have hgap := he hne
    exact hH.shorter (hH.longer hraw (h.held hne).2) (by omega)
  · have hgo (hne : c.time ≠ 0) (hne' : raw' ≠ cooked) :
        Deferred D H' { c with time := time } raw' cooked := by
      have htime := h.time
      have hgap := he hne
      rw [if_neg hne] at hval
      refine ⟨by simp only; omega, fun _ => ⟨hne', ?_⟩⟩
      refine hH.shorter (hH.longer (hsame hne hne') (h.held hne).2) ?_
      simp only
      omega
    cases transfers with
    | false =>
      have hraw : raw' = raw := by
        by_contra hne
        exact Bool.false_ne_true (ht hne)
      rw [called_eq hu]
      refine ⟨?_, fun hcooked => absurd rfl hcooked⟩
      by_cases hz : c.time = 0
      · exact .of_idle (hzero.mpr hz)
      · exact hgo hz (hraw ▸ (h.held hz).1)
    | true =>
      rw [called_eq hu]
      simp only [if_true]
      by_cases hne : raw' = cooked
      · rw [defer_transfer_stop hne]
        exact ⟨.of_idle rfl, fun hcooked => absurd rfl hcooked⟩
      · by_cases hz : time = 0
        · rw [defer_transfer_start hne hz]
          refine ⟨⟨le_refl _, fun _ => ⟨hne, ?_⟩⟩, fun hcooked => absurd rfl hcooked⟩
          simp only [Nat.sub_self]
          exact hH.fresh
        · rw [defer_transfer_run hne hz]
          exact ⟨hgo (fun h0 => hz (hzero.mpr h0)) hne, fun hcooked => absurd rfl hcooked⟩

/-! ## Eager presses and deferred releases -/

/-- A key that is read pressed is cooked so; a counter runs only on such a
key, and that of a release runs while the release is held. -/
structure Released (D : UInt8) (H : Nat → Prop) (c : debounce_counter_t) (raw cooked : Bool) :
    Prop where
  time : c.time.toNat ≤ D.toNat
  pressed : raw = true → cooked = true
  running : c.time ≠ 0 → cooked = true
  held : c.time ≠ 0 → c.pressed = false → raw = false ∧ H (D.toNat - c.time.toNat)

theorem Released.of_idle (h : c.time = 0) (hp : raw = true → cooked = true) :
    Released D H c raw cooked :=
  ⟨by rw [h]; exact Nat.zero_le _, hp, fun hne => absurd h hne, fun hne => absurd h hne⟩

/-- A transfer with the key cooked as released or its counter idle. -/
theorem released_transfer (hD : D.toNat ≤ 127) (hH : Holds raw raw' gap H H')
    (h : c.time ≠ 0 → cooked = true ∧ c.time.toNat ≤ D.toNat ∧
      (c.pressed = false → raw' = false → H' (D.toNat - c.time.toNat))) :
    Released D H' (asymRules.transfer D c raw' cooked).counter raw'
        (asymRules.transfer D c raw' cooked).cooked ∧
      (cooked = true → (asymRules.transfer D c raw' cooked).cooked = true) := by
  by_cases hne : raw' = cooked
  · by_cases hc : c.time ≠ 0 ∧ c.pressed = false
    · rw [asym_transfer_stop hne hc]
      exact ⟨.of_idle rfl fun hp => hne ▸ hp, id⟩
    · rw [asym_transfer_keep hne hc]
      refine ⟨⟨?_, fun hp => hne ▸ hp, fun hz => (h hz).1, fun hz hp => absurd ⟨hz, hp⟩ hc⟩, id⟩
      by_cases hz : c.time = 0
      · rw [hz]
        exact Nat.zero_le _
      · exact (h hz).2.1
  · by_cases hz : c.time = 0
    · rw [asym_transfer_start hne hz, mod_of_le hD]
      have hcooked : (if raw' then !cooked else cooked) = true := by
        revert hne
        cases raw' <;> cases cooked <;> decide
      refine ⟨⟨le_refl _, fun _ => hcooked, fun _ => hcooked, fun _ hp => ⟨hp, ?_⟩⟩,
        fun _ => hcooked⟩
      simp only [Nat.sub_self]
      exact hH.fresh
    · rw [asym_transfer_run hne hz]
      obtain ⟨hcooked, htime, hheld⟩ := h hz
      have hraw : raw' = false := by
        rw [hcooked] at hne
        exact Bool.eq_false_of_not_eq_true hne
      exact ⟨⟨htime, fun _ => hcooked, fun _ => hcooked, fun _ hp => ⟨hraw, hheld hp hraw⟩⟩, id⟩

theorem released_scan (hD : D.toNat ≤ 127) (h : Released D H c raw cooked)
    (hH : Holds raw raw' gap H H') (he : c.time ≠ 0 → elapsed.toNat ≤ gap)
    (ht : raw' ≠ raw → transfers = true)
    (hu : (updated asymRules elapsed c raw' cooked).flag = true → transfers = true) :
    Released D H' (called asymRules D elapsed transfers c raw' cooked).counter raw'
        (called asymRules D elapsed transfers c raw' cooked).cooked ∧
      (cooked = true → (called asymRules D elapsed transfers c raw' cooked).cooked = false →
        raw' = false ∧ H' D.toNat) := by
  have htime := h.time
  rcases updated_cases asymRules elapsed c raw' cooked with
    ⟨hne, hle, hcase⟩ | ⟨hrun, time, hval, hzero, hcase⟩
  · have hle := UInt8.le_iff_toNat_le.mp hle
    have hgap := he hne
    rw [called_eq hcase]
    rw [hcase] at hu
    have hidle (cooked : Bool) : ({ c with time := 0 } : debounce_counter_t).time ≠ 0 →
        cooked = true ∧ ({ c with time := 0 } : debounce_counter_t).time.toNat ≤ D.toNat ∧
        (({ c with time := 0 } : debounce_counter_t).pressed = false → raw' = false →
          H' (D.toNat - ({ c with time := 0 } : debounce_counter_t).time.toNat)) :=
      fun hz => absurd rfl hz
    rcases Bool.eq_false_or_eq_true c.pressed with hp | hp
    · -- The lock of a press ends, on a key that is cooked as pressed.
      have htrans : transfers = true := hu (by simp [asymRules, hp])
      have hcooked : (asymRules.expire c raw' cooked).1 = true := by
        simp [asymRules, hp, h.running hne]
      obtain ⟨hrel, hkeep⟩ := released_transfer hD hH (hidle true)
      rw [htrans, hcooked]
      refine ⟨hrel, fun _ hfalse => ?_⟩
      have := (hkeep rfl).symm.trans hfalse
      cases this
    · -- The release has been held.
      have hcooked : (asymRules.expire c raw' cooked).1 = raw' := by simp [asymRules, hp]
      have hheld : raw' = false → H' D.toNat := by
        intro hfalse
        obtain ⟨hraw, hheld⟩ := h.held hne hp
        exact hH.shorter (hH.longer (hfalse.trans hraw.symm) hheld) (by omega)
      rw [hcooked]
      cases transfers with
      | false => exact ⟨.of_idle rfl id, fun _ hfalse => ⟨hfalse, hheld hfalse⟩⟩
      | true =>
        obtain ⟨hrel, -⟩ := released_transfer hD hH (hidle raw')
        refine ⟨hrel, fun _ hfalse => ?_⟩
        have hraw : raw' = false := by
          by_contra hne'
          have := (hrel.pressed (Bool.eq_true_of_not_eq_false hne')).symm.trans hfalse
          cases this
        exact ⟨hraw, hheld hraw⟩
  · rw [called_eq hcase]
    have hgo : ({ c with time := time } : debounce_counter_t).time ≠ 0 → cooked = true ∧
        time.toNat ≤ D.toNat ∧
        (c.pressed = false → raw' = false → H' (D.toNat - time.toNat)) := by
      intro hz
      have hne : c.time ≠ 0 := fun h0 => hz (hzero.mpr h0)
      have hgap := he hne
      rw [if_neg hne] at hval
      refine ⟨h.running hne, by omega, fun hp hfalse => ?_⟩
      obtain ⟨hraw, hheld⟩ := h.held hne hp
      exact hH.shorter (hH.longer (hfalse.trans hraw.symm) hheld) (by omega)
    cases transfers with
    | false =>
      have hraw : raw' = raw := by
        by_contra hne
        exact Bool.false_ne_true (ht hne)
      refine ⟨⟨?_, fun hp => h.pressed (hraw ▸ hp), fun hz => (hgo hz).1, fun hz hp => ?_⟩,
        fun hcooked hfalse => ?_⟩
      · by_cases hz : time = 0
        · rw [if_neg Bool.false_ne_true]
          simp only [hz]
          exact Nat.zero_le _
        · exact (hgo hz).2.1
      · have hfalse : raw' = false :=
          hraw.trans (h.held (fun h0 => hz (hzero.mpr h0)) hp).1
        exact ⟨hfalse, (hgo hz).2.2 hp hfalse⟩
      · rw [hcooked] at hfalse
        cases hfalse
    | true =>
      obtain ⟨hrel, hkeep⟩ := released_transfer hD hH hgo
      refine ⟨hrel, fun hcooked hfalse => ?_⟩
      have := (hkeep hcooked).symm.trans hfalse
      cases this

end Cells

/-! ## Deferred rows and matrices -/

section Rows

variable {D elapsed countdown : UInt8} {gap : Nat} {last_raw raw raw' : Row C}
  {H H' : Nat → Prop}

structure RowHeld (D : UInt8) (H : Nat → Prop) (countdown : UInt8) (last_raw raw : Row C) :
    Prop where
  last : last_raw = raw
  time : countdown.toNat ≤ D.toNat
  held : countdown ≠ 0 → H (D.toNat - countdown.toNat)

theorem row_held_scan (cooked : Row C) (h : RowHeld D H countdown last_raw raw) (hH : Holds raw raw' gap H H')
    (he : elapsed.toNat ≤ gap) :
    RowHeld D H' (defer_row D elapsed countdown last_raw raw' cooked).1 raw' raw' ∧
      ((defer_row D elapsed countdown last_raw raw' cooked).2 ≠ cooked →
        (defer_row D elapsed countdown last_raw raw' cooked).2 = raw' ∧ H' D.toNat) := by
  obtain ⟨hlast, htime, hheld⟩ := h
  unfold defer_row
  by_cases hraw : raw' = last_raw
  · have hlonger (hne : countdown ≠ 0) : H' (D.toNat - countdown.toNat + gap) :=
      hH.longer (hraw.trans hlast) (hheld hne)
    rw [if_neg (not_not.mpr hraw)]
    by_cases hlt : elapsed < countdown
    · have hlt' := UInt8.lt_iff_toNat_lt.mp hlt
      have hsub := running_toNat (UInt8.not_le.mpr hlt)
      have hne : countdown ≠ 0 := by
        rintro rfl
        exact Nat.not_lt_zero _ hlt'
      rw [if_pos hlt]
      refine ⟨⟨rfl, by simp only; omega, fun _ => ?_⟩, fun hcooked => absurd rfl hcooked⟩
      refine hH.shorter (hlonger hne) ?_
      simp only
      omega
    · have hle := UInt8.le_iff_toNat_le.mp (UInt8.not_lt.mp hlt)
      rw [if_neg hlt]
      by_cases hz : countdown = 0
      · rw [if_neg (not_not.mpr hz), hz]
        exact ⟨⟨rfl, Nat.zero_le _, fun hne => absurd rfl hne⟩, fun hcooked => absurd rfl hcooked⟩
      · rw [if_pos hz]
        exact ⟨⟨rfl, Nat.zero_le _, fun hne => absurd rfl hne⟩,
          fun _ => ⟨rfl, hH.shorter (hlonger hz) (by omega)⟩⟩
  · rw [if_pos hraw]
    refine ⟨⟨rfl, le_refl _, fun _ => ?_⟩, fun hcooked => absurd rfl hcooked⟩
    rw [Nat.sub_self]
    exact hH.fresh

theorem row_elapsed_le {a b : Nat} (h : a ≤ b) :
    (if 255 < timer_read b - timer_read a then 255
      else (timer_read b - timer_read a).toUInt8 : UInt8).toNat ≤ b - a := by
  rw [elapsed16_toNat]
  simp only [timer_read, UInt16.toNat_sub, UInt16.toNat_ofNat']
  omega

end Rows

section Global

variable {H H' : Nat → Prop}

def GlobalHeld (scanned_at : Nat) (H : Nat → Prop) (s : GlobalDefer) : Prop :=
  s.debouncing = true → ∃ since ≤ scanned_at, s.debouncing_time = timer_read_fast since ∧
    H (scanned_at - since)

theorem global_held_scan (D : UInt8) {scanned_at gap : Nat} {s : GlobalDefer}
    {raw raw' : Matrix R C} (cooked : Matrix R C) (h : GlobalHeld scanned_at H s)
    (hH : Holds raw raw' gap H H') :
    GlobalHeld (scanned_at + gap) H' (sym_defer_g_debounce s D (timer_read_fast (scanned_at + gap))
        raw' cooked (decide (raw ≠ raw'))).1 ∧
      ((sym_defer_g_debounce s D (timer_read_fast (scanned_at + gap)) raw' cooked
          (decide (raw ≠ raw'))).2 ≠ cooked →
        (sym_defer_g_debounce s D (timer_read_fast (scanned_at + gap)) raw' cooked
          (decide (raw ≠ raw'))).2 = raw' ∧ H' D.toNat) := by
  unfold sym_defer_g_debounce
  by_cases hraw : raw = raw'
  · rw [decide_eq_false (not_not.mpr hraw), if_neg Bool.false_ne_true]
    have hlonger (hs : s.debouncing = true) : ∃ since ≤ scanned_at + gap,
        s.debouncing_time = timer_read_fast since ∧ H' (scanned_at + gap - since) := by
      obtain ⟨since, hle, htime, hheld⟩ := h hs
      exact ⟨since, by omega, htime, hH.shorter (hH.longer hraw.symm hheld) (by omega)⟩
    by_cases hdue : s.debouncing = true ∧
        D.toUInt32 ≤ timer_read_fast (scanned_at + gap) - s.debouncing_time
    · rw [if_pos hdue]
      refine ⟨fun hs => Bool.noConfusion hs, fun _ => ⟨rfl, ?_⟩⟩
      obtain ⟨since, hle, htime, hheld⟩ := hlonger hdue.1
      have hD := UInt32.le_iff_toNat_le.mp hdue.2
      rw [htime, UInt8.toNat_toUInt32] at hD
      exact hH.shorter hheld (hD.trans (timer_diff_le hle))
    · rw [if_neg hdue]
      exact ⟨hlonger, fun hcooked => absurd rfl hcooked⟩
  · rw [decide_eq_true hraw, if_pos rfl]
    refine ⟨fun _ => ⟨_, le_refl _, rfl, ?_⟩, fun hcooked => absurd rfl hcooked⟩
    rw [Nat.sub_self]
    exact hH.fresh

end Global

/-! ## Power-up -/

/-- No counter runs, and no key is read pressed. -/
structure Idle (d : Debouncer R C) : Prop where
  sym_defer_g : d.sym_defer_g.debouncing = false
  sym_defer_pr : d.sym_defer_pr.last_time = timer_read 0 ∧ ∀ r,
    d.sym_defer_pr.countdowns r = 0 ∧ d.sym_defer_pr.last_raw r = d.raw_matrix r
  sym_defer_pk : ∀ k, (d.sym_defer_pk.debounce_counters k).time = 0
  sym_eager_pr : ∀ r, (d.sym_eager_pr.debounce_counters r).time = 0
  sym_eager_pk : ∀ k, (d.sym_eager_pk.debounce_counters k).time = 0
  asym_eager_defer_pk : ∀ k, (d.asym_eager_defer_pk.debounce_counters k).time = 0
  same : d.raw_matrix = d.matrix

variable {d : Debouncer R C}

theorem Idle.of_choice (h : Idle d) (debounce_type : DebounceType) (debounce_time : UInt8)
    (debounce_func : DebounceType) :
    Idle { d with debounce_type, debounce_time, debounce_func } :=
  ⟨h.1, h.2, h.3, h.4, h.5, h.6, h.7⟩

theorem Idle.init (h : Idle d) (hraw : ∀ r c, d.raw_matrix r c = false) :
    Idle (d.debounce_init 0) := by
  obtain ⟨hg, hpr, hpk, her, hek, ha, hsame⟩ := h
  unfold Debouncer.debounce_init
  split
  · exact ⟨hg, hpr, hpk, her, hek, ha, hsame⟩
  · exact ⟨hg, hpr, hpk, her, hek, ha, hsame⟩
  · refine ⟨hg, ⟨rfl, fun r => ⟨rfl, ?_⟩⟩, hpk, her, hek, ha, hsame⟩
    exact funext fun c => (hraw r c).symm
  · exact ⟨hg, hpr, fun _ => rfl, her, hek, ha, hsame⟩
  · exact ⟨hg, hpr, hpk, fun _ => rfl, hek, ha, hsame⟩
  · exact ⟨hg, hpr, hpk, her, fun _ => rfl, ha, hsame⟩
  · exact ⟨hg, hpr, hpk, her, hek, fun _ => rfl, hsame⟩

theorem Idle.set (h : Idle d) (hraw : ∀ r c, d.raw_matrix r c = false) (type : DebounceType)
    (time : UInt8) (force : Bool) : Idle (d.debounce_set 0 type time force) := by
  unfold Debouncer.debounce_set
  by_cases hno : type = d.debounce_type ∧ time = d.debounce_time ∧ force = false
  · rw [if_pos hno]
    exact h
  · rw [if_neg hno]
    exact Idle.init (h.of_choice _ _ _) hraw

theorem idle_start (R C : Nat) (type time : UInt8) : Idle (Debouncer.start R C type time) :=
  Idle.set ⟨rfl, ⟨rfl, fun _ => ⟨rfl, rfl⟩⟩, fun _ => rfl, fun _ => rfl, fun _ => rfl,
    fun _ => rfl, rfl⟩ (fun _ _ => rfl) _ _ _

theorem timed_start (R C : Nat) (type time : UInt8) : Timed (Debouncer.start R C type time) :=
  (good_start R C type time).timed

theorem Timed.of_raw {d : Debouncer R C} (h : Timed d) (raw_matrix : Matrix R C) :
    Timed { d with raw_matrix } := ⟨h.zero, h.seven_bits⟩

theorem clocked_of_idle {κ : Type} {s : Counters κ} (h : ∀ k, (s.debounce_counters k).time = 0)
    (scanned_at : Nat) : Clocked s scanned_at := fun k hk => absurd (h k) hk

/-! ## Runs -/

def key (r : Fin R) (c : Fin C) (m : Matrix R C) : Bool := m r c

def row (r : Fin R) (m : Matrix R C) : Row C := m r

def Scanning.heldFor {β : Type} (s : Scanning R C) (obs : Matrix R C → β) (q : Nat) : Prop :=
  Held obs (obs s.debouncer.raw_matrix) q s.clock s.scans

/-- The invariant of the deferring algorithms. -/
def Scanning.Defers (s : Scanning R C) : Prop :=
  let d := s.debouncer
  match d.debounce_func with
  | .DEBOUNCE_SYM_DEFER_GLOBAL => GlobalHeld s.clock (s.heldFor id) d.sym_defer_g
  | .DEBOUNCE_SYM_DEFER_PER_ROW => d.sym_defer_pr.last_time = timer_read s.clock ∧
      ∀ r, RowHeld d.debounce_time (s.heldFor (row r)) (d.sym_defer_pr.countdowns r)
        (d.sym_defer_pr.last_raw r) (d.raw_matrix r)
  | .DEBOUNCE_SYM_DEFER_PER_KEY => Clocked d.sym_defer_pk s.clock ∧
      ∀ k, Deferred d.debounce_time (s.heldFor (key k.1 k.2)) (d.sym_defer_pk.debounce_counters k)
        (flat d.raw_matrix k) (flat d.matrix k)
  | .DEBOUNCE_ASYM_EAGER_DEFER_PER_KEY => Clocked d.asym_eager_defer_pk s.clock ∧
      ∀ k, Released d.debounce_time (s.heldFor (key k.1 k.2))
        (d.asym_eager_defer_pk.debounce_counters k) (flat d.raw_matrix k) (flat d.matrix k)
  | _ => True

/-- What a scan cooks was held for the debounce time; `asym_eager_defer_pk.c`
holds back releases alone. -/
def Scanning.Filters (s : Scanning R C) (x : Nat × Matrix R C) : Prop :=
  let s' := s.step x
  let T := s.debouncer.debounce_time.toNat
  let cooked := s.debouncer.matrix
  let cooked' := s'.debouncer.matrix
  match s.debouncer.debounce_func with
  | .DEBOUNCE_SYM_DEFER_GLOBAL =>
    cooked' ≠ cooked → Held id cooked' T s'.clock s'.scans
  | .DEBOUNCE_SYM_DEFER_PER_ROW =>
    ∀ r, cooked' r ≠ cooked r → Held (row r) (cooked' r) T s'.clock s'.scans
  | .DEBOUNCE_SYM_DEFER_PER_KEY =>
    ∀ r c, cooked' r c ≠ cooked r c → Held (key r c) (cooked' r c) T s'.clock s'.scans
  | .DEBOUNCE_ASYM_EAGER_DEFER_PER_KEY =>
    ∀ r c, (x.2 r c = true → cooked' r c = true) ∧
      (cooked r c = true → cooked' r c = false → Held (key r c) false T s'.clock s'.scans)
  | _ => True

theorem defers_start (R C : Nat) (type time : UInt8) : (Scanning.start R C type time).Defers := by
  obtain ⟨hg, hpr, hpk, -, -, ha, hsame⟩ := idle_start R C type time
  unfold Scanning.Defers Scanning.start
  simp only
  split
  · exact fun hs => absurd hs (by rw [hg]; decide)
  · refine ⟨hpr.1, fun r => ⟨(hpr.2 r).2, ?_, fun hne => absurd (hpr.2 r).1 hne⟩⟩
    rw [(hpr.2 r).1]
    exact Nat.zero_le _
  · exact ⟨clocked_of_idle hpk 0, fun k => .of_idle (hpk k)⟩
  · refine ⟨clocked_of_idle ha 0, fun k => .of_idle (ha k) fun hp => ?_⟩
    rw [← hsame]
    exact hp
  · trivial

def Scanning.readFor (s : Scanning R C) (x : Nat × Matrix R C) (k : Fin R × Fin C) (q : Nat) :
    Prop :=
  Held (key k.1 k.2) (key k.1 k.2 x.2) q (s.clock + x.1) ((s.clock + x.1, x.2) :: s.scans)

theorem defers_step {s : Scanning R C} (h : s.Defers) (ht : Timed s.debouncer)
    (x : Nat × Matrix R C) : (s.step x).Defers ∧ s.Filters x := by
  have hH {β : Type} (obs : Matrix R C → β) := holds_scan obs s.debouncer.raw_matrix x.2 s.clock x.1
    s.scans
  have hle := Nat.le_add_right s.clock x.1
  have hchanged (k : Fin R × Fin C) (hne : flat x.2 k ≠ flat s.debouncer.raw_matrix k) :
      decide (s.debouncer.raw_matrix ≠ x.2) = true := decide_eq_true (flat_ne hne.symm)
  unfold Scanning.Defers at h
  unfold Scanning.Defers Scanning.Filters Scanning.heldFor
  rcases hf : s.debouncer.debounce_func with _ | _ | _ | _ | _ | _ | _
  all_goals
    simp only [hf] at h
    simp only [Scanning.step, Debouncer.matrix_scan, Debouncer.debounce, hf]
  · have hid : Holds s.debouncer.raw_matrix x.2 _ _ _ := hH id
    obtain ⟨hheld, hcooks⟩ :=
      global_held_scan s.debouncer.debounce_time s.debouncer.matrix h hid
    refine ⟨hheld, fun hne => ?_⟩
    rw [(hcooks hne).1]
    exact (hcooks hne).2
  · obtain ⟨hlast, hrows⟩ := h
    have helapsed := row_elapsed_le hle
    rw [← hlast, Nat.add_sub_cancel_left] at helapsed
    have hrow (r : Fin R) := row_held_scan (s.debouncer.matrix r) (hrows r) (hH (row r)) helapsed
    refine ⟨⟨rfl, fun r => (hrow r).1⟩, fun r hne => ?_⟩
    obtain ⟨heq, hT⟩ := (hrow r).2 hne
    rw [← heq] at hT
    exact hT
  · obtain ⟨hclocked, hkeys⟩ := h
    have hscan := counters_scan deferRules s.debouncer.debounce_time hclocked x.1
      (P := fun k c cooked =>
        Deferred s.debouncer.debounce_time (s.readFor x k) c (key k.1 k.2 x.2) cooked ∧
          (cooked ≠ flat s.debouncer.matrix k →
            cooked = key k.1 k.2 x.2 ∧ s.readFor x k s.debouncer.debounce_time.toNat)) hchanged
      fun k _ _ he hne _ =>
        deferred_scan (hkeys k) (hH (key k.1 k.2)) (fun hz => (he hz).1) hne
    refine ⟨⟨debounce_clocked deferBounded hclocked _ _ _ _ _, fun k => (hscan k).1⟩,
      fun r c hne => ?_⟩
    obtain ⟨heq, hT⟩ := (hscan (r, c)).2 hne
    unfold Scanning.readFor at hT
    rw [← heq] at hT
    exact hT
  · trivial
  · trivial
  · obtain ⟨hclocked, hkeys⟩ := h
    have hscan := counters_scan asymRules s.debouncer.debounce_time hclocked x.1
      (P := fun k c cooked =>
        Released s.debouncer.debounce_time (s.readFor x k) c (key k.1 k.2 x.2) cooked ∧
          (flat s.debouncer.matrix k = true → cooked = false →
            key k.1 k.2 x.2 = false ∧ s.readFor x k s.debouncer.debounce_time.toNat)) hchanged
      fun k _ _ he hne hflag =>
        released_scan (ht.seven_bits hf) (hkeys k) (hH (key k.1 k.2)) (fun hz => (he hz).1) hne hflag
    refine ⟨⟨debounce_clocked asymBounded hclocked _ _ _ _ _, fun k => (hscan k).1⟩,
      fun r c => ⟨(hscan (r, c)).1.pressed, fun hcooked hfalse => ?_⟩⟩
    obtain ⟨heq, hT⟩ := (hscan (r, c)).2 hcooked hfalse
    unfold Scanning.readFor at hT
    rw [heq] at hT
    exact hT
  · trivial

/-- In every run the deferring algorithms cook only what was held for the
debounce time, and the asymmetric one releases only what was, and cooks each
press in the scan that reads it. -/
theorem what_is_deferred_was_held (R C : Nat) (type time : UInt8) (xs : List (Nat × Matrix R C))
    (x : Nat × Matrix R C) : (xs.foldl Scanning.step (.start R C type time)).Filters x := by
  have hinv : (xs.foldl Scanning.step (.start R C type time)).Defers ∧
      Timed (xs.foldl Scanning.step (.start R C type time)).debouncer := by
    refine List.foldlRecOn (motive := fun s : Scanning R C => s.Defers ∧ Timed s.debouncer) xs _
      ⟨defers_start R C type time, timed_start R C type time⟩ ?_
    rintro s ⟨hs, ht⟩ y -
    exact ⟨(defers_step hs ht y).1, (debounce_same _ _ _).timed (ht.of_raw y.2)⟩
  exact (defers_step hinv.1 hinv.2 x).2

end keychron_qmk.keychron_debounce
