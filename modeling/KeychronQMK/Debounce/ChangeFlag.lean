-- What the debounce functions return: each algorithm keeps `cooked_changed`
-- right, and `debounce` drops it.
import KeychronQMK.Debounce.Settling

namespace keychron_qmk.keychron_debounce

/-! ## The flags -/

/-- What a cell adds to `cooked_changed`: when its counter expires, and in the
transfer. -/
structure Marks (ν : Type) where
  expire : debounce_counter_t → (raw cooked : ν) → Bool
  transfer : debounce_counter_t → (raw cooked : ν) → Bool

/-- `cooked[row] ^ cooked_next` of the bit, and nothing once counters start. -/
def deferMarks : Marks Bool where
  expire _ raw cooked := xor cooked raw
  transfer _ _ _ := false

def eagerMarks (ν : Type) [DecidableEq ν] : Marks ν where
  expire _ _ _ := false
  transfer c raw cooked := decide (raw ≠ cooked ∧ c.time = DEBOUNCE_ELAPSED)

def asymMarks : Marks Bool where
  expire c raw cooked := if c.pressed then false else xor raw cooked
  transfer c raw cooked :=
    if raw ≠ cooked then
      if c.time = DEBOUNCE_ELAPSED then raw else false
    else false

section Engine

variable {κ ν : Type} [Fintype κ]

def update_changed (marks : Marks ν) (s : Counters κ) (elapsed : UInt8) (raw cooked : κ → ν) :
    Bool :=
  decide (∃ k, (s.debounce_counters k).time ≠ DEBOUNCE_ELAPSED ∧
    (s.debounce_counters k).time ≤ elapsed ∧
    marks.expire (s.debounce_counters k) (raw k) (cooked k) = true)

def transfer_changed (marks : Marks ν) (s : Counters κ) (raw cooked : κ → ν) : Bool :=
  decide (∃ k, marks.transfer (s.debounce_counters k) (raw k) (cooked k) = true)

/-- What the call that the algorithms with counters share returns. -/
def Counters.cooked_changed (rules : Rules ν) (marks : Marks ν) (s : Counters κ) (now : UInt32)
    (raw cooked : κ → ν) (changed : Bool) : Bool :=
  let cooked_changed :=
    if s.counters_need_update then
      let elapsed := elapsed_time now s.last_time
      if 0 < elapsed then update_changed marks s elapsed raw cooked else false
    else false
  let (s, cooked) := s.tick rules now raw cooked
  if changed || s.matrix_need_update then cooked_changed || transfer_changed marks s raw cooked
  else cooked_changed

end Engine

section Rest

variable {R C : Nat}

def none_changed (raw cooked : Matrix R C) (changed : Bool) : Bool :=
  if changed then decide (cooked ≠ raw) else false

def sym_defer_g_changed (s : GlobalDefer) (debounce_time : UInt8) (now : UInt32)
    (raw cooked : Matrix R C) (changed : Bool) : Bool :=
  if changed then false
  else if s.debouncing ∧ debounce_time.toUInt32 ≤ now - s.debouncing_time then
    decide (cooked ≠ raw)
  else false

def defer_row_changed (elapsed countdown : UInt8) (last_raw raw cooked : Row C) : Bool :=
  if raw ≠ last_raw then false
  else if elapsed < countdown then false
  else if countdown ≠ 0 then decide (cooked ≠ raw)
  else false

def RowDefer.elapsed (s : RowDefer R C) (now : UInt16) : UInt8 :=
  let elapsed16 := now - s.last_time
  if 255 < elapsed16 then 255 else elapsed16.toUInt8

def sym_defer_pr_changed (s : RowDefer R C) (now : UInt16) (raw cooked : Matrix R C) : Bool :=
  decide (∃ r, defer_row_changed (s.elapsed now) (s.countdowns r) (s.last_raw r) (raw r) (cooked r))

end Rest

namespace Debouncer

variable {R C : Nat} (d : Debouncer R C)

def func_returned (clock : Nat) (changed : Bool) : Bool :=
  let now := timer_read_fast clock
  let raw (k : Fin R × Fin C) := d.raw_matrix k.1 k.2
  let cooked (k : Fin R × Fin C) := d.matrix k.1 k.2
  match d.debounce_func with
  | .DEBOUNCE_NONE => none_changed d.raw_matrix d.matrix changed
  | .DEBOUNCE_SYM_DEFER_GLOBAL =>
    sym_defer_g_changed d.sym_defer_g d.debounce_time now d.raw_matrix d.matrix changed
  | .DEBOUNCE_SYM_DEFER_PER_ROW =>
    sym_defer_pr_changed d.sym_defer_pr (timer_read clock) d.raw_matrix d.matrix
  | .DEBOUNCE_SYM_DEFER_PER_KEY =>
    d.sym_defer_pk.cooked_changed deferRules deferMarks now raw cooked changed
  | .DEBOUNCE_SYM_EAGER_PER_ROW =>
    d.sym_eager_pr.cooked_changed (eagerRules (Row C)) (eagerMarks (Row C)) now d.raw_matrix
      d.matrix changed
  | .DEBOUNCE_SYM_EAGER_PER_KEY =>
    d.sym_eager_pk.cooked_changed (eagerRules Bool) (eagerMarks Bool) now raw cooked changed
  | .DEBOUNCE_ASYM_EAGER_DEFER_PER_KEY =>
    d.asym_eager_defer_pk.cooked_changed asymRules asymMarks now raw cooked changed

/-- `debounce` with what it returns: the flag of the algorithm is dropped. -/
def debounce_call (clock : Nat) (changed : Bool) : Bool × Debouncer R C :=
  (false, d.debounce clock changed)

end Debouncer

/-! ## The counters -/

section Cells

variable {ν : Type} {rules : Rules ν} {marks : Marks ν} {D elapsed : UInt8} {transfers : Bool}
  {c : debounce_counter_t} {raw cooked : ν}

/-- Marks that are right: a cell is marked exactly when its cooked state
becomes another, and one that an expired counter has cooked stays so. -/
structure Marked (rules : Rules ν) (marks : Marks ν) : Prop where
  expire : ∀ {c raw cooked},
    marks.expire c raw cooked = true ↔ (rules.expire c raw cooked).1 ≠ cooked
  transfer : ∀ {D c raw cooked},
    marks.transfer c raw cooked = true ↔ (rules.transfer D c raw cooked).cooked ≠ cooked
  after_expire : ∀ {D b c raw cooked}, (rules.expire b raw cooked).1 ≠ cooked →
    (rules.transfer D c raw (rules.expire b raw cooked).1).cooked = (rules.expire b raw cooked).1

theorem called_marked (m : Marked rules marks) :
    (called rules D elapsed transfers c raw cooked).cooked ≠ cooked ↔
      (c.time ≠ 0 ∧ c.time ≤ elapsed ∧ marks.expire c raw cooked = true) ∨
      (transfers = true ∧ marks.transfer (updated rules elapsed c raw cooked).counter raw
        (updated rules elapsed c raw cooked).cooked = true) := by
  rw [m.transfer (D := D)]
  rcases updated_cases rules elapsed c raw cooked with ⟨hne, hle, hu⟩ | ⟨hrun, time, -, -, hu⟩
  · rw [called_eq hu, hu]
    simp only [hne, ne_eq, not_false_eq_true, hle, true_and, m.expire]
    by_cases hexpire : (rules.expire c raw cooked).1 = cooked
    · cases transfers with
      | false => simp [hexpire]
      | true => simp [hexpire]
    · have hkeep := m.after_expire (D := D) (c := { c with time := 0 }) hexpire
      cases transfers with
      | false => simp [hexpire]
      | true => simp [hkeep, hexpire]
  · have hidle : ¬ (c.time ≠ 0 ∧ c.time ≤ elapsed ∧ marks.expire c raw cooked = true) := by
      rintro ⟨hne, hle, -⟩
      have hlt := hrun.resolve_left hne
      exact absurd (UInt8.le_iff_toNat_le.mp hle) (Nat.not_le.mpr hlt)
    rw [called_eq hu, hu, or_iff_right hidle]
    cases transfers with
    | false => simp
    | true => simp

end Cells

section Engine

variable {κ ν : Type} [Fintype κ] {rules : Rules ν} {marks : Marks ν}

def Counters.transfers (rules : Rules ν) (s : Counters κ) (now : UInt32) (raw cooked : κ → ν)
    (changed : Bool) : Bool :=
  changed || (s.tick rules now raw cooked).1.matrix_need_update

theorem debounce_cooked (rules : Rules ν) (s : Counters κ) (D : UInt8) (now : UInt32)
    (raw cooked : κ → ν) (changed : Bool) (k : κ) :
    (s.debounce rules D now raw cooked changed).2 k =
      (called rules D (s.elapsed now) (s.transfers rules now raw cooked changed)
        (s.debounce_counters k) (raw k) (cooked k)).cooked := by
  obtain ⟨hcounter, hcooked, -⟩ := tick_cells rules s now raw cooked k
  unfold Counters.debounce called Counters.transfers
  simp only
  rw [← hcounter, ← hcooked]
  split
  · unfold transfer_matrix_values
    split
    · rfl
    · rfl
  · exact hcooked

theorem update_changed_iff (s : Counters κ) (now : UInt32) (raw cooked : κ → ν) :
    (if s.counters_need_update then
      if 0 < elapsed_time now s.last_time then
        update_changed marks s (elapsed_time now s.last_time) raw cooked
      else false
    else false) = true ↔
      ∃ k, (s.debounce_counters k).time ≠ 0 ∧ (s.debounce_counters k).time ≤ s.elapsed now ∧
        marks.expire (s.debounce_counters k) (raw k) (cooked k) = true := by
  have hzero (e : UInt8) (he : ¬ 0 < e) : ¬ ∃ k, (s.debounce_counters k).time ≠ 0 ∧
      (s.debounce_counters k).time ≤ e ∧
      marks.expire (s.debounce_counters k) (raw k) (cooked k) = true := by
    rintro ⟨k, hne, hle, -⟩
    exact he (UInt8.lt_of_lt_of_le (UInt8.lt_iff_toNat_lt.mpr (time_pos hne)) hle)
  unfold Counters.elapsed
  by_cases hneed : s.counters_need_update = true
  · simp only [hneed, ite_true]
    split
    · rw [update_changed, decide_eq_true_iff]
      rfl
    · rename_i h
      exact iff_of_false Bool.false_ne_true (hzero _ h)
  · rw [if_neg hneed, if_neg hneed]
    exact iff_of_false Bool.false_ne_true (hzero 0 (by decide))

theorem cooked_changed_iff (m : Marked rules marks) (s : Counters κ) (D : UInt8) (now : UInt32)
    (raw cooked : κ → ν) (changed : Bool) :
    s.cooked_changed rules marks now raw cooked changed = true ↔
      ∃ k, (s.debounce rules D now raw cooked changed).2 k ≠ cooked k := by
  have htick := tick_cells rules s now raw cooked
  have htransfer : transfer_changed marks (s.tick rules now raw cooked).1 raw
      (s.tick rules now raw cooked).2 = true ↔
      ∃ k, marks.transfer
        (updated rules (s.elapsed now) (s.debounce_counters k) (raw k) (cooked k)).counter (raw k)
        (updated rules (s.elapsed now) (s.debounce_counters k) (raw k) (cooked k)).cooked =
          true := by
    rw [transfer_changed, decide_eq_true_iff]
    refine exists_congr fun k => ?_
    rw [(htick k).1, (htick k).2.1]
  simp only [debounce_cooked, called_marked m, exists_or, exists_and_left]
  rw [← update_changed_iff, ← htransfer]
  unfold Counters.cooked_changed Counters.transfers
  simp only
  split
  · rename_i h
    rw [Bool.or_eq_true, h]
    simp only [true_and]
  · rename_i h
    simp only [h, Bool.false_eq_true, false_and, or_false]

/-- A lock ends in the call. -/
theorem transfers_iff (s : Counters κ) (now : UInt32) (raw cooked : κ → ν) (changed : Bool) :
    s.transfers rules now raw cooked changed = true ↔
      changed = true ∨ if 0 < s.elapsed now then
        ∃ k, (s.debounce_counters k).time ≠ 0 ∧ (s.debounce_counters k).time ≤ s.elapsed now ∧
          (rules.expire (s.debounce_counters k) (raw k) (cooked k)).2 = true
      else s.matrix_need_update = true := by
  have hflag (k : κ) : (update_cell rules (s.elapsed now) (s.debounce_counters k) (raw k)
      (cooked k)).flag = true ↔ (s.debounce_counters k).time ≠ 0 ∧
        (s.debounce_counters k).time ≤ s.elapsed now ∧
        (rules.expire (s.debounce_counters k) (raw k) (cooked k)).2 = true := by
    unfold update_cell DEBOUNCE_ELAPSED
    split
    · rename_i hne
      split
      · rename_i hle
        simp only [ne_eq, hne, not_false_eq_true, hle, true_and]
      · rename_i hle
        simp only [hle, false_and, and_false, Bool.false_eq_true]
    · rename_i hz
      simp only [hz, false_and, Bool.false_eq_true]
  unfold Counters.transfers
  rw [Bool.or_eq_true]
  refine or_congr_right ?_
  simp only [← hflag]
  unfold Counters.tick Counters.elapsed
  by_cases hneed : s.counters_need_update = true
  · simp only [hneed, ite_true]
    split
    · exact decide_eq_true_iff
    · rfl
  · have hzero : ¬ (0 : UInt8) < 0 := by decide
    simp only [if_neg hneed, if_neg hzero]

end Engine

/-! ## The marks of each algorithm -/

theorem deferMarked : Marked deferRules deferMarks where
  expire {c raw cooked} := by cases raw <;> cases cooked <;> simp [deferMarks, deferRules]
  transfer {D c raw cooked} := by
    refine iff_of_false Bool.false_ne_true (not_not.mpr ?_)
    unfold deferRules
    simp only
    split
    · split <;> rfl
    · rfl
  after_expire {D b c raw cooked} _ := by
    unfold deferRules
    simp

theorem eagerMarked (ν : Type) [DecidableEq ν] : Marked (eagerRules ν) (eagerMarks ν) where
  expire {c raw cooked} := iff_of_false Bool.false_ne_true (not_not.mpr rfl)
  transfer {D c raw cooked} := by
    unfold eagerMarks eagerRules
    rw [decide_eq_true_iff]
    simp only
    split
    · rename_i h
      exact iff_of_true h h.1
    · rename_i h
      exact iff_of_false h (not_not.mpr rfl)
  after_expire {D b c raw cooked} h := absurd rfl h

theorem asymMarked : Marked asymRules asymMarks where
  expire {c raw cooked} := by
    unfold asymMarks asymRules
    simp only
    split
    · exact iff_of_false Bool.false_ne_true (not_not.mpr rfl)
    · cases raw <;> cases cooked <;> decide
  transfer {D c raw cooked} := by
    unfold asymMarks asymRules
    simp only
    by_cases hne : raw = cooked
    · rw [if_neg (not_not.mpr hne), if_neg (not_not.mpr hne)]
      refine iff_of_false Bool.false_ne_true (not_not.mpr ?_)
      split <;> rfl
    · rw [if_pos hne, if_pos hne]
      by_cases hz : c.time = DEBOUNCE_ELAPSED
      · rw [if_pos hz, if_pos hz]
        cases raw <;> cases cooked <;> simp at hne ⊢
      · rw [if_neg hz, if_neg hz]
        exact iff_of_false Bool.false_ne_true (not_not.mpr rfl)
  after_expire {D b c raw cooked} h := by
    unfold asymRules at h ⊢
    simp only at h ⊢
    by_cases hp : b.pressed = true
    · rw [if_pos hp] at h
      exact absurd rfl h
    · rw [if_neg hp]
      simp only [ne_eq, not_true, ite_false]
      split <;> rfl

/-! ## When a call cooks -/

section Cells

variable {D elapsed : UInt8} {transfers : Bool} {c : debounce_counter_t}

/-- The counter of a key that differs expires. -/
def DeferCooks {ν : Type} (elapsed : UInt8) (c : debounce_counter_t) (raw cooked : ν) : Prop :=
  raw ≠ cooked ∧ c.time ≠ 0 ∧ c.time ≤ elapsed

/-- A cell that differs is not locked, or not any more. -/
def EagerCooks {ν : Type} (transfers : Prop) (elapsed : UInt8) (c : debounce_counter_t)
    (raw cooked : ν) : Prop := raw ≠ cooked ∧ c.time ≤ elapsed ∧ transfers

/-- The counter of a release expires, or a press is seen that no counter
hides. -/
def AsymCooks (transfers : Prop) (elapsed : UInt8) (c : debounce_counter_t) (raw cooked : Bool) :
    Prop :=
  raw ≠ cooked ∧ c.time ≤ elapsed ∧
    ((c.time ≠ 0 ∧ c.pressed = false) ∨ (transfers ∧ raw = true ∧ (c.time = 0 ∨ c.pressed = true)))

variable {ν : Type} {raw cooked : ν}

theorem updated_done {rules : Rules ν} :
    (updated rules elapsed c raw cooked).counter.time = 0 ↔ c.time ≤ elapsed := by
  rcases updated_cases rules elapsed c raw cooked with ⟨-, hle, hu⟩ | ⟨hrun, time, -, hzero, hu⟩
  · rw [hu]
    exact iff_of_true rfl hle
  · rw [hu]
    refine hzero.trans ⟨fun hz => ?_, fun hle => ?_⟩
    · rw [hz]
      exact UInt8.zero_le
    · refine hrun.resolve_right fun hlt => ?_
      exact absurd (UInt8.le_iff_toNat_le.mp hle) (Nat.not_le.mpr hlt)

theorem updated_cooked {rules : Rules ν} :
    (updated rules elapsed c raw cooked).cooked =
      if c.time ≠ 0 ∧ c.time ≤ elapsed then (rules.expire c raw cooked).1 else cooked := by
  rcases updated_cases rules elapsed c raw cooked with ⟨hne, hle, hu⟩ | ⟨hrun, time, -, -, hu⟩
  · rw [hu, if_pos ⟨hne, hle⟩]
  · rw [hu, if_neg]
    rintro ⟨hne, hle⟩
    exact absurd (UInt8.le_iff_toNat_le.mp hle) (Nat.not_le.mpr (hrun.resolve_left hne))

theorem called_defer {raw cooked : Bool} :
    (called deferRules D elapsed transfers c raw cooked).cooked ≠ cooked ↔
      DeferCooks elapsed c raw cooked := by
  rw [called_marked deferMarked]
  unfold DeferCooks deferMarks
  rw [ne_comm (a := raw)]
  simp only [bne_iff_ne, Bool.false_eq_true, and_false, or_false]
  exact ⟨fun ⟨hz, hle, hne⟩ => ⟨hne, hz, hle⟩, fun ⟨hne, hz, hle⟩ => ⟨hz, hle, hne⟩⟩

theorem called_eager [DecidableEq ν] :
    (called (eagerRules ν) D elapsed transfers c raw cooked).cooked ≠ cooked ↔
      EagerCooks (transfers = true) elapsed c raw cooked := by
  have hcooked : (updated (eagerRules ν) elapsed c raw cooked).cooked = cooked := by
    rw [updated_cooked]
    exact ite_self _
  rw [called_marked (eagerMarked ν), hcooked]
  simp only [eagerMarks, DEBOUNCE_ELAPSED, updated_done, decide_eq_true_iff, Bool.false_eq_true,
    and_false, false_or, EagerCooks]
  rw [and_comm, and_assoc]

theorem called_asym {raw cooked : Bool} :
    (called asymRules D elapsed transfers c raw cooked).cooked ≠ cooked ↔
      AsymCooks (transfers = true) elapsed c raw cooked := by
  rw [called_marked asymMarked]
  simp only [asymMarks, DEBOUNCE_ELAPSED, updated_done, updated_cooked]
  unfold AsymCooks asymRules
  by_cases hz : c.time = 0
  · have hle : c.time ≤ elapsed := by rw [hz]; exact UInt8.zero_le
    simp only [hz, UInt8.zero_le]
    by_cases hne : raw = cooked
    · simp [hne]
    · simp [hne]
  · by_cases hle : c.time ≤ elapsed
    · cases hp : c.pressed <;> cases raw <;> cases cooked <;> simp [hz, hle, hp]
    · simp [hle]

end Cells

section Engine

variable {κ : Type} [Fintype κ]

/-- A lock that `locks` knows ends in the call, or the call before it left
values to transfer. -/
def Counters.unlocks (s : Counters κ) (locks : debounce_counter_t → Bool) (now : UInt32) : Prop :=
  if 0 < s.elapsed now then
    ∃ k, (s.debounce_counters k).time ≠ 0 ∧ (s.debounce_counters k).time ≤ s.elapsed now ∧
      locks (s.debounce_counters k) = true
  else s.matrix_need_update = true

theorem eager_transfers {ν : Type} [DecidableEq ν] (s : Counters κ) (now : UInt32)
    (raw cooked : κ → ν) (changed : Bool) :
    s.transfers (eagerRules ν) now raw cooked changed = true ↔
      changed = true ∨ s.unlocks (fun _ => true) now := transfers_iff s now raw cooked changed

theorem asym_transfers (s : Counters κ) (now : UInt32) (raw cooked : κ → Bool) (changed : Bool) :
    s.transfers asymRules now raw cooked changed = true ↔
      changed = true ∨ s.unlocks (fun c => c.pressed) now := by
  have hlock (c : debounce_counter_t) (raw cooked : Bool) :
      (asymRules.expire c raw cooked).2 = true ↔ c.pressed = true := by
    unfold asymRules
    cases hp : c.pressed <;> simp [hp]
  rw [transfers_iff]
  simp only [hlock]
  rfl

end Engine

/-! ## The whole matrix -/

section Rest

variable {R C : Nat}

theorem none_changed_iff (raw cooked : Matrix R C) (changed : Bool) :
    (none_debounce raw cooked changed ≠ cooked ↔ changed = true ∧ raw ≠ cooked) ∧
      none_changed raw cooked changed = decide (none_debounce raw cooked changed ≠ cooked) := by
  unfold none_debounce none_changed
  cases changed with
  | false => simp
  | true => simp [ne_comm]

theorem sym_defer_g_changed_iff (s : GlobalDefer) (D : UInt8) (now : UInt32)
    (raw cooked : Matrix R C) (changed : Bool) :
    ((sym_defer_g_debounce s D now raw cooked changed).2 ≠ cooked ↔
      changed = false ∧ s.debouncing = true ∧ D.toUInt32 ≤ now - s.debouncing_time ∧
        raw ≠ cooked) ∧
      sym_defer_g_changed s D now raw cooked changed =
        decide ((sym_defer_g_debounce s D now raw cooked changed).2 ≠ cooked) := by
  unfold sym_defer_g_debounce sym_defer_g_changed
  cases changed with
  | true => simp
  | false =>
    simp only [Bool.false_eq_true, if_false, true_and]
    split
    · rename_i h
      simp [h, ne_comm]
    · rename_i h
      refine ⟨iff_of_false (not_not.mpr rfl) fun hc => h ⟨hc.1, hc.2.1⟩, ?_⟩
      simp

theorem defer_row_changed_iff (D elapsed countdown : UInt8) (last_raw raw cooked : Row C) :
    ((defer_row D elapsed countdown last_raw raw cooked).2 ≠ cooked ↔
      raw = last_raw ∧ countdown ≠ 0 ∧ countdown ≤ elapsed ∧ raw ≠ cooked) ∧
      (defer_row_changed elapsed countdown last_raw raw cooked = true ↔
        (defer_row D elapsed countdown last_raw raw cooked).2 ≠ cooked) := by
  unfold defer_row defer_row_changed
  by_cases hraw : raw = last_raw
  · rw [if_neg (not_not.mpr hraw), if_neg (not_not.mpr hraw)]
    by_cases hlt : elapsed < countdown
    · simp [hlt, UInt8.not_le.mpr hlt]
    · have hle := UInt8.not_lt.mp hlt
      by_cases hz : countdown = 0
      · simp [hz, UInt8.not_lt.mpr UInt8.zero_le]
      · simp [hlt, hle, hz, hraw, ne_comm]
  · simp [hraw]

theorem sym_defer_pr_changed_iff (s : RowDefer R C) (D : UInt8) (now : UInt16)
    (raw cooked : Matrix R C) :
    ((sym_defer_pr_debounce s D now raw cooked).2 ≠ cooked ↔
      ∃ r, raw r = s.last_raw r ∧ s.countdowns r ≠ 0 ∧ s.countdowns r ≤ s.elapsed now ∧
        raw r ≠ cooked r) ∧
      sym_defer_pr_changed s now raw cooked =
        decide ((sym_defer_pr_debounce s D now raw cooked).2 ≠ cooked) := by
  have hrow (r : Fin R) := defer_row_changed_iff D (s.elapsed now) (s.countdowns r)
    (s.last_raw r) (raw r) (cooked r)
  have hne : (sym_defer_pr_debounce s D now raw cooked).2 ≠ cooked ↔
      ∃ r, (defer_row D (s.elapsed now) (s.countdowns r) (s.last_raw r) (raw r) (cooked r)).2 ≠
        cooked r := Function.ne_iff
  constructor
  · rw [hne]
    exact exists_congr fun r => (hrow r).1
  · unfold sym_defer_pr_changed
    rw [decide_eq_decide, hne]
    exact exists_congr fun r => (hrow r).2

end Rest

namespace Debouncer

variable {R C : Nat} (d : Debouncer R C)

def cooks (clock : Nat) (changed : Bool) : Prop :=
  let now := timer_read_fast clock
  match d.debounce_func with
  | .DEBOUNCE_NONE => changed = true ∧ d.raw_matrix ≠ d.matrix
  | .DEBOUNCE_SYM_DEFER_GLOBAL =>
    changed = false ∧ d.sym_defer_g.debouncing = true ∧
      d.debounce_time.toUInt32 ≤ now - d.sym_defer_g.debouncing_time ∧ d.raw_matrix ≠ d.matrix
  | .DEBOUNCE_SYM_DEFER_PER_ROW =>
    ∃ r, d.raw_matrix r = d.sym_defer_pr.last_raw r ∧ d.sym_defer_pr.countdowns r ≠ 0 ∧
      d.sym_defer_pr.countdowns r ≤ d.sym_defer_pr.elapsed (timer_read clock) ∧
      d.raw_matrix r ≠ d.matrix r
  | .DEBOUNCE_SYM_DEFER_PER_KEY =>
    ∃ k : Fin R × Fin C, DeferCooks (d.sym_defer_pk.elapsed now)
      (d.sym_defer_pk.debounce_counters k) (d.raw_matrix k.1 k.2) (d.matrix k.1 k.2)
  | .DEBOUNCE_SYM_EAGER_PER_ROW =>
    ∃ r, EagerCooks (changed = true ∨ d.sym_eager_pr.unlocks (fun _ => true) now)
      (d.sym_eager_pr.elapsed now) (d.sym_eager_pr.debounce_counters r) (d.raw_matrix r)
      (d.matrix r)
  | .DEBOUNCE_SYM_EAGER_PER_KEY =>
    ∃ k : Fin R × Fin C, EagerCooks
      (changed = true ∨ d.sym_eager_pk.unlocks (fun _ => true) now)
      (d.sym_eager_pk.elapsed now) (d.sym_eager_pk.debounce_counters k) (d.raw_matrix k.1 k.2)
      (d.matrix k.1 k.2)
  | .DEBOUNCE_ASYM_EAGER_DEFER_PER_KEY =>
    ∃ k : Fin R × Fin C, AsymCooks
      (changed = true ∨ d.asym_eager_defer_pk.unlocks (fun c => c.pressed) now)
      (d.asym_eager_defer_pk.elapsed now) (d.asym_eager_defer_pk.debounce_counters k)
      (d.raw_matrix k.1 k.2) (d.matrix k.1 k.2)

variable {d}

theorem key_matrix_ne_iff {m : Matrix R C} {f : Fin R × Fin C → Bool} :
    (fun r c => f (r, c)) ≠ m ↔ ∃ k : Fin R × Fin C, f k ≠ m k.1 k.2 := by
  simp only [Function.ne_iff, Prod.exists]

theorem key_counters_changed {rules : Rules Bool} {marks : Marks Bool} (m : Marked rules marks)
    (s : Counters (Fin R × Fin C)) (D : UInt8) (now : UInt32) (raw cooked : Matrix R C)
    (changed : Bool) {P : Fin R × Fin C → Prop}
    (hP : ∀ k, (called rules D (s.elapsed now)
      (s.transfers rules now (fun k => raw k.1 k.2) (fun k => cooked k.1 k.2) changed)
      (s.debounce_counters k) (raw k.1 k.2) (cooked k.1 k.2)).cooked ≠ cooked k.1 k.2 ↔ P k) :
    ((fun r c => (s.debounce rules D now (fun k => raw k.1 k.2) (fun k => cooked k.1 k.2)
        changed).2 (r, c)) ≠ cooked ↔ ∃ k, P k) ∧
      s.cooked_changed rules marks now (fun k => raw k.1 k.2) (fun k => cooked k.1 k.2) changed =
        decide ((fun r c => (s.debounce rules D now (fun k => raw k.1 k.2)
          (fun k => cooked k.1 k.2) changed).2 (r, c)) ≠ cooked) := by
  constructor
  · rw [key_matrix_ne_iff]
    refine exists_congr fun k => ?_
    rw [debounce_cooked]
    exact hP k
  · rw [Bool.eq_iff_iff, decide_eq_true_iff, cooked_changed_iff m s D, key_matrix_ne_iff]

/-- Each algorithm returns whether it changed the cooked matrix, and it does
change it exactly in these states. -/
theorem func_returned_is_right (clock : Nat) (changed : Bool) :
    ((d.debounce clock changed).matrix ≠ d.matrix ↔ d.cooks clock changed) ∧
      d.func_returned clock changed = decide ((d.debounce clock changed).matrix ≠ d.matrix) := by
  unfold func_returned debounce cooks
  rcases hf : d.debounce_func with _ | _ | _ | _ | _ | _ | _
  · exact sym_defer_g_changed_iff _ _ _ _ _ _
  · exact sym_defer_pr_changed_iff _ _ _ _ _
  · exact key_counters_changed deferMarked _ _ _ _ _ _ fun k => called_defer
  · constructor
    · simp only
      rw [Function.ne_iff]
      refine exists_congr fun r => ?_
      rw [debounce_cooked, called_eager, eager_transfers]
    · rw [Bool.eq_iff_iff, decide_eq_true_iff, cooked_changed_iff (eagerMarked (Row C)) _
        d.debounce_time, ← Function.ne_iff]
  · refine key_counters_changed (eagerMarked Bool) _ _ _ _ _ _ fun k => ?_
    rw [called_eager, eager_transfers]
  · refine key_counters_changed asymMarked _ _ _ _ _ _ fun k => ?_
    rw [called_asym, asym_transfers]
  · exact none_changed_iff _ _ _

/-- The functions of all algorithms return whether they changed the cooked
matrix; `debounce` does so exactly when its call changes nothing. -/
theorem change_flag_is_right_where_nothing_is_cooked (R C : Nat) (d : Debouncer R C) (clock : Nat)
    (changed : Bool) :
    ((d.debounce_call clock changed).1 =
        decide ((d.debounce_call clock changed).2.matrix ≠ d.matrix) ∧
      ∀ func, { d with debounce_func := func }.func_returned clock changed =
        decide (({ d with debounce_func := func }.debounce clock changed).matrix ≠ d.matrix)) ↔
      ¬ d.cooks clock changed := by
  have hfuncs (func : DebounceType) :=
    (func_returned_is_right (d := { d with debounce_func := func }) clock changed).2
  rw [and_iff_left hfuncs, ← (func_returned_is_right clock changed).1]
  unfold debounce_call
  rw [eq_comm, decide_eq_false_iff_not]

/-- A press is cooked at once, and not reported. -/
theorem a_cooked_press_is_not_reported :
    let d := (Debouncer.start 1 1 4 5).matrix_scan 0 fun _ _ => false
    let d' := { d with raw_matrix := fun _ _ => true }
    (d'.debounce_call 1 true).1 ≠ decide ((d'.debounce_call 1 true).2.matrix ≠ d'.matrix) := by
  decide

end Debouncer

end keychron_qmk.keychron_debounce
