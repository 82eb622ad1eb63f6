-- The counters of a whole matrix: a call keeps the bounds of every cell, so
-- that no cell differs once the raw matrix was constant for the debounce time.
import KeychronQMK.Debounce.Counters

namespace keychron_qmk.keychron_debounce

/-! ## All counters of an algorithm -/

section Engine

variable {κ ν : Type} [Fintype κ] {rules : Rules ν}

theorem tick_cells (rules : Rules ν) (s : Counters κ) (now : UInt32) (raw cooked : κ → ν) (k : κ) :
    (s.tick rules now raw cooked).1.debounce_counters k =
        (updated rules (s.elapsed now) (s.debounce_counters k) (raw k) (cooked k)).counter ∧
      (s.tick rules now raw cooked).2 k =
        (updated rules (s.elapsed now) (s.debounce_counters k) (raw k) (cooked k)).cooked ∧
      ((updated rules (s.elapsed now) (s.debounce_counters k) (raw k) (cooked k)).flag = true →
        (s.tick rules now raw cooked).1.matrix_need_update = true) := by
  unfold Counters.tick Counters.elapsed updated
  by_cases hneed : s.counters_need_update = true
  · simp only [hneed, ite_true]
    split
    · exact ⟨rfl, rfl, fun hf => decide_eq_true ⟨k, hf⟩⟩
    · exact ⟨rfl, rfl, fun hf => Bool.noConfusion hf⟩
  · have hzero : ¬ (0 : UInt8) < 0 := by decide
    rw [if_neg hneed, if_neg hneed, if_neg hzero]
    exact ⟨rfl, rfl, fun hf => Bool.noConfusion hf⟩

/-- Where a counter runs, the counters are to be updated, and were so last at
the last scan. -/
def Clocked (s : Counters κ) (scanned_at : Nat) : Prop :=
  ∀ k, (s.debounce_counters k).time ≠ 0 →
    s.counters_need_update = true ∧ s.last_time = timer_read_fast scanned_at

variable {scanned_at q clock : Nat} {s : Counters κ}

variable (rules) in
theorem tick_clocked (h : Clocked s scanned_at) (clock : Nat) (raw cooked : κ → ν) :
    Clocked (s.tick rules (timer_read_fast clock) raw cooked).1 clock ∧
      (s.counters_need_update = true →
        (s.tick rules (timer_read_fast clock) raw cooked).1.last_time = timer_read_fast clock) := by
  unfold Counters.tick
  by_cases hneed : s.counters_need_update = true
  · simp only [hneed, ite_true]
    split
    · exact ⟨fun k hk => ⟨decide_eq_true ⟨k, hk⟩, rfl⟩, fun _ => rfl⟩
    · exact ⟨fun k hk => ⟨rfl, rfl⟩, fun _ => rfl⟩
  · rw [if_neg hneed]
    exact ⟨fun k hk => absurd (h k hk).1 hneed, fun hc => absurd hc hneed⟩

theorem debounce_cells (rules : Rules ν) (s : Counters κ) (D : UInt8) (now : UInt32)
    (raw cooked : κ → ν) (changed : Bool) : ∃ transfers : Bool,
      (changed = true → transfers = true) ∧
      (∀ k, (updated rules (s.elapsed now) (s.debounce_counters k) (raw k) (cooked k)).flag = true →
        transfers = true) ∧
      ∀ k, (s.debounce rules D now raw cooked changed).1.debounce_counters k =
          (called rules D (s.elapsed now) transfers (s.debounce_counters k) (raw k)
            (cooked k)).counter ∧
        (s.debounce rules D now raw cooked changed).2 k =
          (called rules D (s.elapsed now) transfers (s.debounce_counters k) (raw k)
            (cooked k)).cooked := by
  have htick := tick_cells rules s now raw cooked
  refine ⟨changed || (s.tick rules now raw cooked).1.matrix_need_update, ?_, ?_, fun k => ?_⟩
  · intro hc
    rw [hc, Bool.true_or]
  · intro k hf
    rw [(htick k).2.2 hf, Bool.or_true]
  obtain ⟨hcounter, hcooked, -⟩ := htick k
  unfold Counters.debounce called
  simp only
  rw [← hcounter, ← hcooked]
  split
  · unfold transfer_matrix_values
    split
    · exact ⟨rfl, rfl⟩
    · exact ⟨rfl, rfl⟩
  · exact ⟨hcounter, hcooked⟩

theorem debounce_clocked (b : Bounded rules) (h : Clocked s scanned_at) (D : UInt8) (clock : Nat)
    (raw cooked : κ → ν) (changed : Bool) :
    Clocked (s.debounce rules D (timer_read_fast clock) raw cooked changed).1 clock := by
  obtain ⟨htick, hlast⟩ := tick_clocked rules h clock raw cooked
  unfold Counters.debounce
  simp only
  generalize s.tick rules (timer_read_fast clock) raw cooked = t at htick hlast ⊢
  split
  · have hnow : (if s.counters_need_update = true then t.1
        else { t.1 with last_time := timer_read_fast clock }).last_time = timer_read_fast clock := by
      split
      · rename_i hneed
        exact hlast hneed
      · rfl
    have hsame : (if s.counters_need_update = true then t.1
        else { t.1 with last_time := timer_read_fast clock }).debounce_counters =
          t.1.debounce_counters ∧
        (if s.counters_need_update = true then t.1
          else { t.1 with last_time := timer_read_fast clock }).counters_need_update =
          t.1.counters_need_update := by
      split
      · exact ⟨rfl, rfl⟩
      · exact ⟨rfl, rfl⟩
    intro k hk
    refine ⟨?_, hnow⟩
    simp only [transfer_matrix_values, hsame] at hk ⊢
    rcases b.starts hk with hrun | hflag
    · rw [(htick k hrun).1, Bool.true_or]
    · rw [decide_eq_true ⟨k, hflag⟩, Bool.or_true]
  · exact htick

/-- The counters of an algorithm `q` milliseconds after the raw matrix became still. -/
structure Counts (D : UInt8) (q scanned_at : Nat) (s : Counters κ) (raw cooked : κ → ν) : Prop where
  clocked : Clocked s scanned_at
  cells : ∀ k, Pending D q (s.debounce_counters k) (raw k) (cooked k)

variable {D : UInt8} {raw cooked raw' : κ → ν}

omit [Fintype κ] in
theorem counts_init (s : Counters κ) (h : ∀ k, raw k = cooked k) :
    Counts D q scanned_at s.init raw cooked :=
  ⟨fun _ hk => absurd rfl hk, fun k => .of_idle rfl (h k)⟩

theorem counts_changed (b : Bounded rules) (h : Counts D q scanned_at s raw cooked)
    (hready : b.ready D) :
    Counts D 0 clock (s.debounce rules D (timer_read_fast clock) raw' cooked true).1 raw'
      (s.debounce rules D (timer_read_fast clock) raw' cooked true).2 := by
  refine ⟨debounce_clocked b h.clocked D clock raw' cooked true, fun k => ?_⟩
  obtain ⟨transfers, hchanged, -, hcells⟩ :=
    debounce_cells rules s D (timer_read_fast clock) raw' cooked true
  rw [(hcells k).1, (hcells k).2, hchanged rfl]
  exact b.changed hready (h.cells k)

theorem counts_unlocked (b : Bounded rules) (h : Counts D q scanned_at s raw cooked)
    (hready : b.ready D) {k : κ}
    (hk : ¬ b.calm (s.debounce_counters k) (s.elapsed (timer_read_fast clock)) (raw k) (cooked k)) :
    Counts D 0 clock (s.debounce rules D (timer_read_fast clock) raw cooked false).1 raw
      (s.debounce rules D (timer_read_fast clock) raw cooked false).2 := by
  refine ⟨debounce_clocked b h.clocked D clock raw cooked false, fun k' => ?_⟩
  obtain ⟨transfers, -, hflag, hcells⟩ :=
    debounce_cells rules s D (timer_read_fast clock) raw cooked false
  rw [(hcells k').1, (hcells k').2, hflag k (b.flag_of_not_calm hk)]
  exact b.changed hready (h.cells k')

theorem counts_still (b : Bounded rules) (h : Counts D q scanned_at s raw cooked)
    (htime : ∀ k, raw k ≠ cooked k → D.toNat ≤ q + (clock - scanned_at) →
      D.toNat ≤ q + (timer_read_fast clock - timer_read_fast scanned_at).toNat)
    (hclock : scanned_at ≤ clock) (hcalm : ∀ k, b.calm (s.debounce_counters k)
      (s.elapsed (timer_read_fast clock)) (raw k) (cooked k)) :
    Counts D (q + (clock - scanned_at)) clock
      (s.debounce rules D (timer_read_fast clock) raw cooked false).1 raw
      (s.debounce rules D (timer_read_fast clock) raw cooked false).2 := by
  refine ⟨debounce_clocked b h.clocked D clock raw cooked false, fun k => ?_⟩
  obtain ⟨transfers, -, hflag, hcells⟩ :=
    debounce_cells rules s D (timer_read_fast clock) raw cooked false
  rw [(hcells k).1, (hcells k).2]
  refine b.unchanged (h.cells k) (fun hne => ?_) (hcalm k) (hflag k)
  -- A cell that differs has a counter, so the elapsed time is that since the last scan.
  obtain ⟨hneed, hlast⟩ := h.clocked k ((h.cells k).differs hne).1
  unfold Counters.elapsed
  rw [if_pos hneed, hlast]
  exact elapsed_between hclock (htime k hne)

theorem counts_scan (b : Bounded rules) {changed : Bool} {still : Prop} [Decidable still]
    (h : Counts D q scanned_at s raw cooked) (hready : b.ready D) (hclock : scanned_at ≤ clock)
    (htime : changed = false → ∀ k, raw k ≠ cooked k → D.toNat ≤ q + (clock - scanned_at) →
      D.toNat ≤ q + (timer_read_fast clock - timer_read_fast scanned_at).toNat)
    (hsame : changed = false → raw' = raw)
    (hstill : still ↔ changed = false ∧ ∀ k, b.calm (s.debounce_counters k)
      (s.elapsed (timer_read_fast clock)) (raw' k) (cooked k)) :
    Counts D (if still then q + (clock - scanned_at) else 0) clock
      (s.debounce rules D (timer_read_fast clock) raw' cooked changed).1 raw'
      (s.debounce rules D (timer_read_fast clock) raw' cooked changed).2 := by
  cases changed with
  | true =>
    rw [if_neg fun hs => Bool.noConfusion (hstill.mp hs).1]
    exact counts_changed b h hready
  | false =>
    rw [hsame rfl] at hstill ⊢
    split
    · rename_i hs
      exact counts_still b h (htime rfl) hclock (hstill.mp hs).2
    · rename_i hs
      obtain ⟨k, hk⟩ := not_forall.mp fun hcalm => hs (hstill.mpr ⟨rfl, hcalm⟩)
      exact counts_unlocked b h hready hk

omit [Fintype κ] in
theorem Counts.settled (h : Counts D q scanned_at s raw cooked) (hq : D.toNat ≤ q) (k : κ) :
    raw k = cooked k :=
  (h.cells k).settled hq

end Engine

end keychron_qmk.keychron_debounce
