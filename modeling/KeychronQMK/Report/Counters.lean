-- The counters of the adaptive NKRO: `kb_keys_count` counts the six slots
-- and `nkro_bit_count` the bits of the bitmap, until a clear of the keys.
import KeychronQMK.Report.Keys
import KeychronQMK.Lib.Runs

namespace keychron_qmk.report

open bitmap runs

/-- The number of slots that hold a key. -/
def Report.pressed (r : Report) : Nat := (Finset.univ.filter fun i => r.keys i ≠ 0).card

structure CountersMatch (r : Report) : Prop where
  keys : r.kb_keys_count.toNat = r.pressed
  bits : r.nkro_bit_count.toNat = count r.bits

instance (r : Report) : Decidable (CountersMatch r) :=
  decidable_of_iff (r.kb_keys_count.toNat = r.pressed ∧ r.nkro_bit_count.toNat = count r.bits)
    ⟨fun h => ⟨h.1, h.2⟩, fun h => ⟨h.keys, h.bits⟩⟩

theorem pressed_le (r : Report) : r.pressed ≤ 6 :=
  (Finset.card_filter_le _ _).trans_eq (Finset.card_fin KEYBOARD_REPORT_KEYS)

variable {x code key : UInt8}

theorem toNat_succ {n : Nat} (h : x.toNat = n) (hn : n < 255) : (x + 1).toNat = n + 1 := by
  rw [UInt8.toNat_add, h]
  exact Nat.mod_eq_of_lt (by simp; omega)

theorem toNat_pred {n : Nat} (h : x.toNat = n + 1) : (x - 1).toNat = n := by
  rw [UInt8.toNat_sub_of_le x 1 (by rw [UInt8.le_iff_toNat_le, h]; simp), h]
  simp

variable {keys : Fin KEYBOARD_REPORT_KEYS → UInt8}

theorem card_update_key {e : Fin KEYBOARD_REPORT_KEYS} (he : keys e = 0) (hc : code ≠ 0) :
    (Finset.univ.filter fun i => Function.update keys e code i ≠ 0).card =
      (Finset.univ.filter fun i => keys i ≠ 0).card + 1 := by
  rw [← Finset.card_insert_of_notMem (a := e) (by simp [he])]
  congr 1
  ext i
  by_cases hi : i = e
  · simp [hi, hc]
  · simp [hi]

theorem card_update_zero {i : Fin KEYBOARD_REPORT_KEYS} (hi : keys i ≠ 0) :
    (Finset.univ.filter fun j => Function.update keys i 0 j ≠ 0).card + 1 =
      (Finset.univ.filter fun j => keys j ≠ 0).card := by
  rw [← Finset.card_erase_add_one (s := Finset.univ.filter fun j => keys j ≠ 0) (a := i)
    (by simp [hi])]
  congr 2
  ext j
  by_cases hj : j = i
  · simp [hj]
  · simp [hj]

/-! ## Each call but the clear keeps the counters right -/

variable {r : Report}

theorem add_key_byte_match (h : CountersMatch r) (hc : code ≠ 0) :
    CountersMatch (add_key_byte code r) := by
  rcases add_key_byte_cases code r with ⟨heq, -⟩ | ⟨e, he, -, heq⟩
  · rw [heq]; exact h
  · rw [heq]
    have hlt := pressed_le r
    exact ⟨(toNat_succ h.keys (by omega)).trans (card_update_key he hc).symm, h.bits⟩

theorem del_key_slot_match (h : CountersMatch r) (hc : code ≠ 0) (i : Fin KEYBOARD_REPORT_KEYS) :
    CountersMatch (del_key_slot code r i) := by
  unfold del_key_slot
  split
  · rename_i hi
    refine ⟨toNat_pred ?_, h.bits⟩
    rw [h.keys]
    exact (card_update_zero (by rw [hi]; exact hc)).symm
  · exact h

theorem del_key_byte_match (h : CountersMatch r) (hc : code ≠ 0) :
    CountersMatch (del_key_byte code r) := by
  unfold del_key_byte
  generalize List.finRange KEYBOARD_REPORT_KEYS = l
  induction l generalizing r with
  | nil => exact h
  | cons i l ih => exact ih (del_key_slot_match h hc i)

theorem count_bits_le (r : Report) : count r.bits ≤ 240 := count_le r.bits

theorem add_key_bit_match (h : CountersMatch r) (code : UInt8) :
    CountersMatch (add_key_bit code r) := by
  rcases add_key_bit_cases code r with heq | ⟨hlt, hclear, heq⟩
  · rw [heq]; exact h
  · rw [heq]
    have hle := count_bits_le r
    exact ⟨h.keys, (toNat_succ h.bits (by omega)).trans
      (count_set r.bits (i := ⟨_, hlt⟩) (byte_index code) hclear).symm⟩

theorem del_key_bit_match (h : CountersMatch r) (code : UInt8) :
    CountersMatch (del_key_bit code r).2 := by
  rcases del_key_bit_cases code r with heq | ⟨hlt, hset, heq⟩
  · rw [heq]; exact h
  · rw [heq]
    refine ⟨h.keys, toNat_pred ?_⟩
    rw [h.bits]
    exact (count_clear r.bits (i := ⟨_, hlt⟩) (byte_index code) hset).symm

/-! ## Runs -/

/-- The keycodes that a report can hold. -/
def NonZero (key : UInt8) : Prop := key ≠ 0

instance : DecidablePred NonZero := fun key => inferInstanceAs (Decidable (key ≠ 0))

def NothingCounted (r : Report) (c : Call NonZero) : Prop :=
  match c.op with
  | .clear_keys_from_report =>
    r.kb_keys_count = 0 ∧ (c.host_can_send_nkro = true → r.nkro_bit_count = 0)
  | _ => True

theorem clear_keys_match_iff (h : CountersMatch r) (can_send : Bool) :
    CountersMatch (clear_keys_from_report can_send r) ↔
      r.kb_keys_count = 0 ∧ (can_send = true → r.nkro_bit_count = 0) := by
  have hzero : ∀ x : UInt8, x.toNat = 0 ↔ x = 0 := fun x => UInt8.toNat_inj (b := 0)
  have hkeys : (clear_keys_from_report can_send r).pressed = 0 := by
    simp [Report.pressed, clear_keys_from_report]
  cases can_send with
  | false =>
    constructor
    · rintro ⟨h1, -⟩
      exact ⟨(hzero _).mp h1, nofun⟩
    · rintro ⟨h1, -⟩
      exact ⟨(((hzero _).mpr h1).trans hkeys.symm), h.bits⟩
  | true =>
    have hbits : count (clear_keys_from_report true r).bits = 0 :=
      count_zero (n := NKRO_REPORT_BITS)
    constructor
    · rintro ⟨h1, h2⟩
      rw [hkeys] at h1
      rw [hbits] at h2
      exact ⟨(hzero _).mp h1, fun _ => (hzero _).mp h2⟩
    · rintro ⟨h1, h2⟩
      exact ⟨((hzero _).mpr h1).trans hkeys.symm, ((hzero _).mpr (h2 rfl)).trans hbits.symm⟩

theorem step_match_iff (h : CountersMatch r) (c : Call NonZero) :
    CountersMatch (step r c) ↔ NothingCounted r c := by
  obtain ⟨can_send, op⟩ := c
  cases op with
  | add_key_to_report key hk =>
    refine iff_of_true ?_ trivial
    simp only [step, add_key_to_report]
    split
    · exact add_key_bit_match h key
    · exact add_key_byte_match h hk
  | del_key_from_report key hk =>
    refine iff_of_true ?_ trivial
    have hbit := del_key_bit_match h key
    simp only [step, del_key_from_report]
    split
    · generalize del_key_bit key r = d at hbit
      obtain ⟨found, r1⟩ := d
      cases found
      · exact del_key_byte_match hbit hk
      · exact hbit
    · exact del_key_byte_match h hk
  | clear_keys_from_report => exact clear_keys_match_iff h can_send

theorem empty_match : CountersMatch .empty := by
  refine ⟨?_, ?_⟩
  · simp [Report.pressed, Report.empty]
  · exact (count_zero (n := NKRO_REPORT_BITS)).symm

/-- In every run, the counters are right after each call exactly when no
call clears keys that are counted. -/
theorem the_counters_match_until_keys_are_cleared (calls : List (Call NonZero)) :
    Along step (fun r c => CountersMatch (step r c)) .empty calls ↔
      Along step NothingCounted .empty calls :=
  Along.iff (I := CountersMatch) (fun _ c h => (step_match_iff h c).symm) (fun _ _ _ h => h)
    empty_match

/-- Press one key and clear all keys: one key is counted, and none is held. -/
theorem a_clear_keeps_the_count : ¬ ∀ calls : List (Call NonZero),
    Along step (fun r c => CountersMatch (step r c)) .empty calls := by
  intro h
  have hrun := h [⟨true, .add_key_to_report 4 (by decide)⟩,
    ⟨true, .clear_keys_from_report⟩]
  revert hrun
  decide +kernel

/-! ## What the counters are for -/

theorem bit_counted (h : CountersMatch r) (hset : r.hasBit key = true) : r.nkro_bit_count ≠ 0 := by
  intro hzero
  have hcount := h.bits
  rw [hzero, eq_comm, UInt8.toNat_zero, count, Finset.card_eq_zero] at hcount
  have hmem : key.toNat ∈ (Finset.range (8 * NKRO_REPORT_BITS)).filter fun k => test r.bits k := by
    simpa using ⟨test_lt hset, hset⟩
  rw [hcount] at hmem
  exact absurd hmem (by simp)

theorem is_key_pressed_iff (h : CountersMatch r) (hk : key ≠ 0) (can_send : Bool) :
    is_key_pressed can_send key r = true ↔
      (can_send = true ∧ r.hasBit key = true) ∨ ∃ i, r.keys i = key := by
  have hbit : r.nkro_bit_count ≠ 0 ∧ (∃ hlt : (key >>> 3).toNat < NKRO_REPORT_BITS,
      r.bits ⟨_, hlt⟩ &&& bitOf key ≠ 0) ↔ r.hasBit key = true := by
    constructor
    · rintro ⟨-, hlt, hset⟩
      simpa using mt (and_bitOf_hasBit r key hlt).mpr hset
    · intro hset
      have hlt := hasBit_lt hset
      refine ⟨bit_counted h hset, hlt, fun hclear => ?_⟩
      rw [(and_bitOf_hasBit r key hlt).mp hclear] at hset
      cases hset
  unfold is_key_pressed
  rw [if_neg hk]
  split
  · rename_i hc
    rw [hbit] at hc
    simp [hc]
  · rename_i hc
    rw [hbit] at hc
    simp [hc]

end keychron_qmk.report
