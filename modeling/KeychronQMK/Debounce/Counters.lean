-- The algorithms with counters: what one call does to a cell, and the
-- invariant that bounds the time for which a cell can differ from the raw
-- matrix.
import KeychronQMK.Debounce.Funs

namespace keychron_qmk.keychron_debounce

/-! ## Timers -/

theorem timer_diff {a b : Nat} (h : a ≤ b) (hlt : b - a < 2 ^ 32) :
    (timer_read_fast b - timer_read_fast a).toNat = b - a := by
  simp only [timer_read_fast, UInt32.toNat_sub, UInt32.toNat_ofNat']
  omega

theorem elapsed_time_toNat (now last_time : UInt32) :
    (elapsed_time now last_time).toNat = min (now - last_time).toNat 255 := by
  unfold elapsed_time
  split
  · rename_i h
    have hlt := UInt32.lt_iff_toNat_lt.mp h
    change 255 < _ at hlt
    change 255 = _
    omega
  · rename_i h
    have hle : (now - last_time).toNat ≤ 255 :=
      not_lt.mp fun hlt => h (UInt32.lt_iff_toNat_lt.mpr hlt)
    rw [UInt32.toNat_toUInt8]
    omega

/-- When the timer sees in time that a debounce time of `D` is over, so does
the elapsed time. -/
theorem elapsed_between {D : UInt8} {q a b : Nat} (h : a ≤ b)
    (htime : D.toNat ≤ q + (b - a) →
      D.toNat ≤ q + (timer_read_fast b - timer_read_fast a).toNat) :
    min D.toNat (q + (b - a)) ≤
      q + (elapsed_time (timer_read_fast b) (timer_read_fast a)).toNat := by
  have hD := D.toNat_lt
  rw [elapsed_time_toNat]
  by_cases hover : D.toNat ≤ q + (b - a)
  · have hin := htime hover
    omega
  · rw [timer_diff h (by omega)]
    omega

/-! ## One cell -/

section Cells

variable {ν : Type}

/-- A cell once its counter is brought up to date. -/
def updated (rules : Rules ν) (elapsed : UInt8) (c : debounce_counter_t) (raw cooked : ν) :
    Cell ν :=
  if 0 < elapsed then update_cell rules elapsed c raw cooked else ⟨c, cooked, false⟩

def called (rules : Rules ν) (debounce_time elapsed : UInt8) (transfers : Bool)
    (c : debounce_counter_t) (raw cooked : ν) : Cell ν :=
  let u := updated rules elapsed c raw cooked
  if transfers then rules.transfer debounce_time u.counter raw u.cooked else u

/-- A cell `q` milliseconds after the raw matrix became still, with a debounce
time of `D`: one that differs has a counter that runs since then, or longer. -/
structure Pending (D : UInt8) (q : Nat) (c : debounce_counter_t) (raw cooked : ν) : Prop where
  time : c.time.toNat ≤ D.toNat
  differs : raw ≠ cooked → c.time ≠ 0 ∧ c.time.toNat + q ≤ D.toNat

variable {D x elapsed : UInt8} {c : debounce_counter_t} {raw cooked : ν}

theorem Pending.of_idle {q : Nat} (ht : c.time = 0) (h : raw = cooked) :
    Pending D q c raw cooked :=
  ⟨by rw [ht]; exact Nat.zero_le _, fun hne => absurd h hne⟩

theorem time_pos (h : x ≠ 0) : 0 < x.toNat := by
  refine Nat.pos_of_ne_zero fun hz => h (UInt8.toNat_inj.mp ?_)
  rw [hz]
  rfl

theorem Pending.settled {q : Nat} (h : Pending D q c raw cooked) (hq : D.toNat ≤ q) :
    raw = cooked := by
  by_contra hne
  obtain ⟨ht, hle⟩ := h.differs hne
  have hpos := time_pos ht
  omega

theorem running_toNat {e : UInt8} (h : ¬ x ≤ e) : (x - e).toNat = x.toNat - e.toNat := by
  have hlt := UInt8.lt_iff_toNat_lt.mp (UInt8.not_le.mp h)
  exact UInt8.toNat_sub_of_le x e (UInt8.le_iff_toNat_le.mpr hlt.le)

/-- What a counter is after a call has brought it up to date. -/
theorem updated_cases (rules : Rules ν) (elapsed : UInt8) (c : debounce_counter_t)
    (raw cooked : ν) :
    (c.time ≠ 0 ∧ c.time ≤ elapsed ∧ updated rules elapsed c raw cooked =
      ⟨{ c with time := 0 }, (rules.expire c raw cooked).1, (rules.expire c raw cooked).2⟩) ∨
    ((c.time = 0 ∨ elapsed.toNat < c.time.toNat) ∧ ∃ time : UInt8,
      time.toNat = c.time.toNat - (if c.time = 0 then 0 else elapsed.toNat) ∧
      (time = 0 ↔ c.time = 0) ∧
      updated rules elapsed c raw cooked = ⟨{ c with time := time }, cooked, false⟩) := by
  unfold updated update_cell DEBOUNCE_ELAPSED
  by_cases ht : c.time = 0
  · right
    refine ⟨.inl ht, 0, by rw [ht]; rfl, by simp [ht], ?_⟩
    have hc : c = { c with time := 0 } := by rw [← ht]
    simp only [ht, ne_eq, not_true, ite_false, ite_self]
    rw [← hc]
  · by_cases hle : c.time ≤ elapsed
    · left
      have hpos : 0 < elapsed := UInt8.lt_of_lt_of_le (UInt8.lt_iff_toNat_lt.mpr (time_pos ht)) hle
      simp only [ne_eq, ht, not_false_eq_true, ite_true, hle, hpos, true_and]
    · right
      have hlt := UInt8.lt_iff_toNat_lt.mp (UInt8.not_le.mp hle)
      have hsub := running_toNat hle
      refine ⟨.inr hlt, c.time - elapsed, by rw [hsub, if_neg ht], ?_, ?_⟩
      · refine iff_of_false (fun hz => ?_) ht
        rw [hz] at hsub
        change 0 = _ at hsub
        omega
      · simp only [ne_eq, ht, not_false_eq_true, ite_true, hle, ite_false]
        split
        · rfl
        · rename_i hzero
          have he : elapsed = 0 := by
            by_contra hne
            exact hzero (UInt8.lt_iff_toNat_lt.mpr (time_pos hne))
          rw [he]
          simp

/-- What an algorithm does to the pending cells. A lock that ends on a cell
that differs is not calm. -/
structure Bounded (rules : Rules ν) where
  calm : debounce_counter_t → UInt8 → ν → ν → Prop
  ready : UInt8 → Prop
  starts : ∀ {D c raw cooked}, (rules.transfer D c raw cooked).counter.time ≠ 0 → c.time ≠ 0 ∨
    (rules.transfer D c raw cooked).flag = true
  flag_of_not_calm : ∀ {c elapsed raw cooked}, ¬ calm c elapsed raw cooked →
    (updated rules elapsed c raw cooked).flag = true
  /-- A call `g` milliseconds after the last one. -/
  unchanged : ∀ {D q c raw cooked elapsed g transfers}, Pending D q c raw cooked →
    (raw ≠ cooked → min D.toNat (q + g) ≤ q + elapsed.toNat) → calm c elapsed raw cooked →
    ((updated rules elapsed c raw cooked).flag = true → transfers = true) →
    Pending D (q + g) (called rules D elapsed transfers c raw cooked).counter raw
      (called rules D elapsed transfers c raw cooked).cooked
  changed : ∀ {D q c raw raw' cooked elapsed}, ready D → Pending D q c raw cooked →
    Pending D 0 (called rules D elapsed true c raw' cooked).counter raw'
      (called rules D elapsed true c raw' cooked).cooked

theorem called_eq {rules : Rules ν} {transfers : Bool} {u : Cell ν}
    (h : updated rules elapsed c raw cooked = u) :
    called rules D elapsed transfers c raw cooked =
      if transfers then rules.transfer D u.counter raw u.cooked else u := by
  unfold called
  rw [h]

theorem Pending.run {time : UInt8} {q g : Nat} (h : Pending D q c raw cooked)
    (he : raw ≠ cooked → min D.toNat (q + g) ≤ q + elapsed.toNat)
    (hrun : c.time = 0 ∨ elapsed.toNat < c.time.toNat)
    (hval : time.toNat = c.time.toNat - (if c.time = 0 then 0 else elapsed.toNat))
    (hzero : time = 0 ↔ c.time = 0) : Pending D (q + g) { c with time := time } raw cooked := by
  have htime := h.time
  refine ⟨by simp only; omega, fun hne => ?_⟩
  obtain ⟨hne0, hle⟩ := h.differs hne
  have hmin := he hne
  rw [if_neg hne0] at hval
  have hlt := hrun.resolve_left hne0
  exact ⟨fun hz => hne0 (hzero.mp hz), by simp only; omega⟩

end Cells

/-! ## The symmetric rules -/

section SymmetricRules

variable {D : UInt8} {q g : Nat} {c : debounce_counter_t} {elapsed : UInt8} {transfers : Bool}

variable {raw cooked : Bool}

theorem defer_transfer_start (hne : raw ≠ cooked) (hz : c.time = 0) :
    deferRules.transfer D c raw cooked = ⟨{ c with time := D }, cooked, true⟩ :=
  (if_pos hne).trans (if_pos hz)

theorem defer_transfer_run (hne : raw ≠ cooked) (hz : c.time ≠ 0) :
    deferRules.transfer D c raw cooked = ⟨c, cooked, false⟩ := (if_pos hne).trans (if_neg hz)

theorem defer_transfer_stop (h : raw = cooked) :
    deferRules.transfer D c raw cooked = ⟨{ c with time := 0 }, cooked, false⟩ :=
  if_neg (not_not.mpr h)

theorem defer_unchanged (h : Pending D q c raw cooked)
    (he : raw ≠ cooked → min D.toNat (q + g) ≤ q + elapsed.toNat) :
    Pending D (q + g) (called deferRules D elapsed transfers c raw cooked).counter raw
      (called deferRules D elapsed transfers c raw cooked).cooked := by
  rcases updated_cases deferRules elapsed c raw cooked with
    ⟨-, -, heq⟩ | ⟨hrun, time, hval, hzero, heq⟩
  · rw [called_eq heq]
    cases transfers with
    | true =>
      rw [if_pos rfl, defer_transfer_stop (by rfl)]
      exact .of_idle rfl rfl
    | false => exact .of_idle rfl rfl
  · have hkept := h.run he hrun hval hzero
    rw [called_eq heq]
    cases transfers with
    | false => exact hkept
    | true =>
      by_cases hne : raw = cooked
      · rw [defer_transfer_stop hne]
        exact .of_idle rfl hne
      · rw [defer_transfer_run hne fun hz => (h.differs hne).1 (hzero.mp hz)]
        exact hkept

theorem defer_changed {raw' : Bool} (hD : D ≠ 0) (h : Pending D q c raw cooked) :
    Pending D 0 (called deferRules D elapsed true c raw' cooked).counter raw'
      (called deferRules D elapsed true c raw' cooked).cooked := by
  have htime := h.time
  rcases updated_cases deferRules elapsed c raw' cooked with
    ⟨-, -, heq⟩ | ⟨-, time, hval, -, heq⟩
  · rw [called_eq heq, if_pos rfl, defer_transfer_stop (by rfl)]
    exact .of_idle rfl rfl
  · rw [called_eq heq, if_pos rfl]
    by_cases hne : raw' = cooked
    · rw [defer_transfer_stop hne]
      exact .of_idle rfl hne
    by_cases hz : time = 0
    · rw [defer_transfer_start hne hz]
      exact ⟨le_rfl, fun _ => ⟨hD, le_rfl⟩⟩
    · rw [defer_transfer_run hne hz]
      exact ⟨by simp only; omega, fun _ => ⟨hz, by simp only; omega⟩⟩

def deferBounded : Bounded deferRules where
  calm _ _ _ _ := True
  ready D := D ≠ 0
  flag_of_not_calm h := absurd trivial h
  starts {D c raw cooked} h := by
    by_cases hne : raw = cooked
    · rw [defer_transfer_stop hne] at h
      exact absurd rfl h
    by_cases hz : c.time = 0
    · rw [defer_transfer_start hne hz]
      exact .inr rfl
    · exact .inl hz
  unchanged h he _ _ := defer_unchanged h he
  changed hD h := defer_changed hD h

variable {ν : Type} [DecidableEq ν]

theorem eager_transfer_start {raw cooked : ν} (hne : raw ≠ cooked) (hz : c.time = 0) :
    (eagerRules ν).transfer D c raw cooked = ⟨{ c with time := D }, raw, true⟩ :=
  if_pos ⟨hne, hz⟩

theorem eager_transfer_keep {raw cooked : ν} (h : ¬ (raw ≠ cooked ∧ c.time = 0)) :
    (eagerRules ν).transfer D c raw cooked = ⟨c, cooked, false⟩ := if_neg h

theorem eager_transfer_pending {raw cooked : ν} (hle : c.time.toNat ≤ D.toNat) :
    Pending D 0 ((eagerRules ν).transfer D c raw cooked).counter raw
      ((eagerRules ν).transfer D c raw cooked).cooked := by
  by_cases h : raw ≠ cooked ∧ c.time = 0
  · rw [eager_transfer_start h.1 h.2]
    exact ⟨le_rfl, fun hne => absurd rfl hne⟩
  · rw [eager_transfer_keep h]
    exact ⟨hle, fun hne => ⟨fun hz => h ⟨hne, hz⟩, hle⟩⟩

theorem eager_unchanged {raw cooked : ν} (h : Pending D q c raw cooked)
    (he : raw ≠ cooked → min D.toNat (q + g) ≤ q + elapsed.toNat)
    (ht : (updated (eagerRules ν) elapsed c raw cooked).flag = true → transfers = true) :
    Pending D (q + g) (called (eagerRules ν) D elapsed transfers c raw cooked).counter raw
      (called (eagerRules ν) D elapsed transfers c raw cooked).cooked := by
  rcases updated_cases (eagerRules ν) elapsed c raw cooked with
    ⟨-, -, heq⟩ | ⟨hrun, time, hval, hzero, heq⟩
  · -- A counter that expires has the values transferred in the same call.
    rw [called_eq heq, ht (by rw [heq]; rfl), if_pos rfl]
    change Pending D (q + g) ((eagerRules ν).transfer D { c with time := 0 } raw cooked).counter raw
      ((eagerRules ν).transfer D { c with time := 0 } raw cooked).cooked
    by_cases hne : raw = cooked
    · rw [eager_transfer_keep fun hc => hc.1 hne]
      exact .of_idle rfl hne
    · rw [eager_transfer_start hne (by rfl)]
      exact ⟨le_rfl, fun hne => absurd rfl hne⟩
  · have hkept := h.run he hrun hval hzero
    rw [called_eq heq]
    cases transfers with
    | false => exact hkept
    | true =>
      rw [if_pos rfl, eager_transfer_keep fun hc => (h.differs hc.1).1 (hzero.mp hc.2)]
      exact hkept

theorem eager_changed {raw raw' cooked : ν} (h : Pending D q c raw cooked) :
    Pending D 0 (called (eagerRules ν) D elapsed true c raw' cooked).counter raw'
      (called (eagerRules ν) D elapsed true c raw' cooked).cooked := by
  have htime := h.time
  rcases updated_cases (eagerRules ν) elapsed c raw' cooked with
    ⟨-, -, heq⟩ | ⟨-, time, hval, -, heq⟩
  · rw [called_eq heq, if_pos rfl]
    exact eager_transfer_pending (Nat.zero_le _)
  · rw [called_eq heq, if_pos rfl]
    exact eager_transfer_pending (by simp only; omega)

def eagerBounded (ν : Type) [DecidableEq ν] : Bounded (eagerRules ν) where
  calm _ _ _ _ := True
  ready _ := True
  flag_of_not_calm h := absurd trivial h
  starts {D c raw cooked} h := by
    by_cases hc : raw ≠ cooked ∧ c.time = 0
    · rw [eager_transfer_start hc.1 hc.2]
      exact .inr rfl
    · rw [eager_transfer_keep hc] at h
      exact .inl h
  unchanged h he _ ht := eager_unchanged h he ht
  changed _ h := eager_changed h

end SymmetricRules

/-! ## The asymmetric rules -/

section AsymmetricRules

variable {D : UInt8} {q g : Nat} {c : debounce_counter_t} {raw raw' cooked : Bool}
  {elapsed : UInt8} {transfers : Bool}

theorem asym_transfer_start (hne : raw ≠ cooked) (hz : c.time = 0) :
    asymRules.transfer D c raw cooked =
      ⟨⟨raw, D % 128⟩, if raw then !cooked else cooked, true⟩ :=
  (if_pos hne).trans (if_pos hz)

theorem asym_transfer_run (hne : raw ≠ cooked) (hz : c.time ≠ 0) :
    asymRules.transfer D c raw cooked = ⟨c, cooked, false⟩ := (if_pos hne).trans (if_neg hz)

theorem asym_transfer_stop (h : raw = cooked) (hc : c.time ≠ 0 ∧ c.pressed = false) :
    asymRules.transfer D c raw cooked = ⟨{ c with time := 0 }, cooked, false⟩ :=
  (if_neg (not_not.mpr h)).trans (if_pos hc)

theorem asym_transfer_keep (h : raw = cooked) (hc : ¬ (c.time ≠ 0 ∧ c.pressed = false)) :
    asymRules.transfer D c raw cooked = ⟨c, cooked, false⟩ :=
  (if_neg (not_not.mpr h)).trans (if_neg hc)

theorem asym_transfer_equal (h : raw = cooked) (hle : c.time.toNat ≤ D.toNat) :
    Pending D q (asymRules.transfer D c raw cooked).counter raw
      (asymRules.transfer D c raw cooked).cooked := by
  by_cases hc : c.time ≠ 0 ∧ c.pressed = false
  · rw [asym_transfer_stop h hc]
    exact .of_idle rfl h
  · rw [asym_transfer_keep h hc]
    exact ⟨hle, fun hne => absurd h hne⟩

theorem mod_of_le {D : UInt8} (h : D.toNat ≤ 127) : D % 128 = D := by
  apply UInt8.toNat_inj.mp
  exact Nat.mod_eq_of_lt (by change D.toNat < 128; omega)

theorem asym_transfer_pending (hD : D ≠ 0) (hle : D.toNat ≤ 127) (hc : c.time.toNat ≤ D.toNat) :
    Pending D 0 (asymRules.transfer D c raw cooked).counter raw
      (asymRules.transfer D c raw cooked).cooked := by
  by_cases hne : raw = cooked
  · exact asym_transfer_equal hne hc
  by_cases hz : c.time = 0
  · rw [asym_transfer_start hne hz, mod_of_le hle]
    exact ⟨le_rfl, fun _ => ⟨hD, le_rfl⟩⟩
  · rw [asym_transfer_run hne hz]
    exact ⟨hc, fun _ => ⟨hz, hc⟩⟩

theorem asym_unchanged (h : Pending D q c raw cooked)
    (he : raw ≠ cooked → min D.toNat (q + g) ≤ q + elapsed.toNat)
    (hcalm : ¬ Unlocks c elapsed raw cooked) :
    Pending D (q + g) (called asymRules D elapsed transfers c raw cooked).counter raw
      (called asymRules D elapsed transfers c raw cooked).cooked := by
  rcases updated_cases asymRules elapsed c raw cooked with
    ⟨hne0, hexpired, heq⟩ | ⟨hrun, time, hval, hzero, heq⟩
  · -- A key that differs is released, and this is cooked now.
    have hequal : raw = (asymRules.expire c raw cooked).1 := by
      unfold asymRules
      simp only
      split
      · rename_i hp
        by_contra hne
        exact hcalm ⟨hp, hne0, hexpired, hne⟩
      · rfl
    rw [called_eq heq]
    cases transfers with
    | false => exact .of_idle rfl hequal
    | true =>
      exact asym_transfer_equal hequal (Nat.zero_le _)
  · have hkept := h.run he hrun hval hzero
    rw [called_eq heq]
    cases transfers with
    | false => exact hkept
    | true =>
      by_cases hne : raw = cooked
      · exact asym_transfer_equal hne hkept.time
      · rw [asym_transfer_run hne (hkept.differs hne).1]
        exact hkept

theorem asym_changed (hD : D ≠ 0) (hle : D.toNat ≤ 127) (h : Pending D q c raw cooked) :
    Pending D 0 (called asymRules D elapsed true c raw' cooked).counter raw'
      (called asymRules D elapsed true c raw' cooked).cooked := by
  have htime := h.time
  rcases updated_cases asymRules elapsed c raw' cooked with
    ⟨-, -, heq⟩ | ⟨-, time, hval, -, heq⟩
  · rw [called_eq heq, if_pos rfl]
    exact asym_transfer_pending hD hle (Nat.zero_le _)
  · rw [called_eq heq, if_pos rfl]
    exact asym_transfer_pending hD hle (by simp only; omega)

theorem flag_of_unlocks (h : Unlocks c elapsed raw cooked) :
    (updated asymRules elapsed c raw cooked).flag = true := by
  obtain ⟨hp, hne0, hle, -⟩ := h
  rcases updated_cases asymRules elapsed c raw cooked with ⟨-, -, heq⟩ | ⟨hrun, -, -, -, -⟩
  · rw [heq]
    unfold asymRules
    simp only [hp, ite_true]
  · exact absurd (UInt8.le_iff_toNat_le.mp hle) (not_le.mpr (hrun.resolve_left hne0))

def asymBounded : Bounded asymRules where
  calm c elapsed raw cooked := ¬ Unlocks c elapsed raw cooked
  ready D := D ≠ 0 ∧ D.toNat ≤ 127
  starts {D c raw cooked} h := by
    by_cases hz : c.time = 0
    · by_cases hne : raw = cooked
      · rw [asym_transfer_keep hne fun hc => hc.1 hz] at h
        exact absurd hz h
      · rw [asym_transfer_start hne hz]
        exact .inr rfl
    · exact .inl hz
  flag_of_not_calm h := flag_of_unlocks (not_not.mp h)
  unchanged h he hcalm _ := asym_unchanged h he hcalm
  changed hD h := asym_changed hD.1 hD.2 h

end AsymmetricRules

end keychron_qmk.keychron_debounce
