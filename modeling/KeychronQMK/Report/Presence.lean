-- Where a key is: in a slot of the six-key report or in the NKRO bitmap.
-- When a key is in one place at most, and gone after its release.
import KeychronQMK.Report.Keys
import KeychronQMK.Lib.Runs

namespace keychron_qmk.report

open bitmap runs

def Report.slots (r : Report) (key : UInt8) : Nat := (Finset.univ.filter fun i => r.keys i = key).card

def Report.places (r : Report) (key : UInt8) : Nat := r.slots key + (r.hasBit key).toNat

def OnePlace (r : Report) : Prop := ∀ key, key ≠ 0 → r.places key ≤ 1

def InNkroRange (key : UInt8) : Prop := key ≠ 0 ∧ (key >>> 3).toNat < NKRO_REPORT_BITS

instance : DecidablePred InNkroRange := fun key =>
  inferInstanceAs (Decidable (key ≠ 0 ∧ (key >>> 3).toNat < NKRO_REPORT_BITS))

/-- No key is in two places after the call. A release takes its key out of
both reports, and leaves the other keys. -/
def Tracks (r : Report) (c : Call InNkroRange) : Prop :=
  OnePlace (step r c) ∧
  match c.op with
  | .del_key_from_report key _ => (step r c).places key = 0 ∧
      ∀ other, other ≠ 0 → other ≠ key →
        (step r c).slots other = r.slots other ∧ (step r c).hasBit other = r.hasBit other
  | _ => True

/-- The calls that do not meet their key in the report that they do not
look at. A press goes to the bitmap while the six slots are counted full
and the host takes NKRO, else to a slot. A release looks into the bitmap
while the host takes NKRO and a bit is counted. -/
def OtherReportFree (r : Report) (c : Call InNkroRange) : Prop :=
  match c.op with
  | .add_key_to_report key _ =>
    if c.host_can_send_nkro = true ∧ r.kb_keys_count = KEYBOARD_REPORT_KEYS.toUInt8 then
      ∀ i, r.keys i ≠ key
    else r.hasBit key = true → ∀ i, r.keys i ≠ 0
  | .del_key_from_report key _ =>
    r.hasBit key = true → c.host_can_send_nkro = true ∧ r.nkro_bit_count ≠ 0
  | .clear_keys_from_report => True

variable {r r' : Report} {key : UInt8}

theorem slots_eq_zero : r.slots key = 0 ↔ ∀ i, r.keys i ≠ key := by
  simp [Report.slots, Finset.filter_eq_empty_iff]

theorem slots_congr (h : r'.keys = r.keys) (key : UInt8) : r'.slots key = r.slots key := by
  unfold Report.slots
  rw [h]

theorem places_congr (h1 : r'.keys = r.keys) (h2 : r'.hasBit key = r.hasBit key) :
    r'.places key = r.places key := by
  unfold Report.places
  rw [slots_congr h1, h2]

theorem slots_update {q : Report} {e : Fin KEYBOARD_REPORT_KEYS} {code : UInt8} (he : r.keys e = 0)
    (hr : q.keys = Function.update r.keys e code) (hk : key ≠ 0) :
    q.slots key = r.slots key + if code = key then 1 else 0 := by
  unfold Report.slots
  rw [hr]
  split
  · rename_i heq
    rw [← Finset.card_insert_of_notMem (a := e) (by simp [he, Ne.symm hk])]
    congr 1
    ext i
    by_cases hi : i = e
    · simp [hi, heq]
    · simp [hi]
  · rename_i hne
    rw [Nat.add_zero]
    congr 1
    ext i
    by_cases hi : i = e
    · simp [hi, hne, he, Ne.symm hk]
    · simp [hi]

theorem slots_del_key_byte (code : UInt8) (r : Report) (hk : key ≠ 0) :
    (del_key_byte code r).slots key = if key = code then 0 else r.slots key := by
  split
  · rename_i h
    subst h
    rw [slots_eq_zero]
    intro i
    rw [del_key_byte_keys]
    split
    · exact Ne.symm hk
    · assumption
  · rename_i h
    have hsame : ∀ i, (del_key_byte code r).keys i = key ↔ r.keys i = key := by
      intro i
      rw [del_key_byte_keys]
      by_cases hi : r.keys i = code
      · rw [if_pos hi, hi]
        exact ⟨fun h0 => absurd h0.symm hk, fun h0 => absurd h0.symm h⟩
      · rw [if_neg hi]
    unfold Report.slots
    simp only [hsame]

theorem hasBit_del_key_byte (code : UInt8) (r : Report) (key : UInt8) :
    (del_key_byte code r).hasBit key = r.hasBit key := by
  unfold Report.hasBit
  rw [(del_key_byte_nkro code r).1]

/-! ## One call -/

theorem add_key_tracks_iff (h : OnePlace r) (can_send : Bool) (hk : InNkroRange key) :
    OtherReportFree r ⟨can_send, .add_key_to_report key hk⟩ ↔
      OnePlace (add_key_to_report can_send key r) := by
  unfold OtherReportFree add_key_to_report
  dsimp only
  split
  · -- the bit is set
    have hbit := fun k => (add_key_bit_hasBit hk.2 r k).1
    have hkeys := (add_key_bit_hasBit hk.2 r key).2
    rw [← slots_eq_zero]
    constructor
    · intro hfree k hk0
      unfold Report.places
      rw [slots_congr hkeys, hbit]
      by_cases heq : key = k
      · subst heq
        rw [hfree, Nat.zero_add]
        exact Bool.toNat_le _
      · have := h k hk0
        simpa [heq, Report.places] using this
    · intro hone
      have := hone key hk.1
      unfold Report.places at this
      rw [slots_congr hkeys, hbit] at this
      simp at this
      omega
  · rcases add_key_byte_cases key r with ⟨heq, hheld⟩ | ⟨e, he, hnone, heq⟩
    · -- the key is in a slot already, or no slot is empty
      rw [heq]
      refine iff_of_true ?_ h
      intro hset i
      rcases hheld with ⟨j, hj⟩ | hfull
      · have hplaces := h key hk.1
        unfold Report.places at hplaces
        rw [hset] at hplaces
        have hslots : r.slots key = 0 := by simp at hplaces; omega
        exact absurd hj (slots_eq_zero.mp hslots j)
      · exact hfull i
    · rw [heq]
      have hslots := fun k (hk0 : k ≠ 0) => slots_update (r := r)
        (q := { r with
          keys := Function.update r.keys e key
          kb_report_changed := r.kb_report_changed ||| KB_RPT_STD
          kb_keys_count := r.kb_keys_count + 1 }) he rfl hk0
      have hzero : r.slots key = 0 := slots_eq_zero.mpr hnone
      constructor
      · intro hfree k hk0
        unfold Report.places
        rw [hslots k hk0]
        by_cases heq : key = k
        · subst heq
          have hclear : r.hasBit key = false := by
            by_contra hset
            exact hfree (by simpa using hset) e he
          change r.slots key + _ + (r.hasBit key).toNat ≤ 1
          rw [hzero, hclear]
          simp
        · have := h k hk0
          change r.slots k + _ + (r.hasBit k).toNat ≤ 1
          simpa [heq, Report.places] using this
      · intro hone hset
        have := hone key hk.1
        unfold Report.places at this
        rw [hslots key hk.1] at this
        change r.slots key + _ + (r.hasBit key).toNat ≤ 1 at this
        rw [hset] at this
        simp at this

theorem del_key_tracks_iff (h : OnePlace r) (can_send : Bool) (hk : InNkroRange key) :
    OtherReportFree r ⟨can_send, .del_key_from_report key hk⟩ ↔
      Tracks r ⟨can_send, .del_key_from_report key hk⟩ := by
  -- the loop over the slots releases the key there
  have hbyte : ∀ r1 : Report, r1.keys = r.keys → (∀ k, r1.hasBit k = r.hasBit k) →
      ((r.hasBit key = true → False) ↔
        (OnePlace (del_key_byte key r1) ∧ (del_key_byte key r1).places key = 0 ∧
          ∀ other, other ≠ 0 → other ≠ key →
            (del_key_byte key r1).slots other = r.slots other ∧
              (del_key_byte key r1).hasBit other = r.hasBit other)) := by
    intro r1 hkeys hbits
    have hslots : ∀ k, k ≠ 0 → (del_key_byte key r1).slots k = if k = key then 0 else r.slots k := by
      intro k hk0
      rw [slots_del_key_byte key r1 hk0, slots_congr hkeys]
    have hbit : ∀ k, (del_key_byte key r1).hasBit k = r.hasBit k := by
      intro k
      rw [hasBit_del_key_byte, hbits]
    constructor
    · intro hclear
      refine ⟨fun k hk0 => ?_, ?_, fun k hk0 hne => ⟨by rw [hslots k hk0, if_neg hne], hbit k⟩⟩
      · have hone := h k hk0
        unfold Report.places at *
        rw [hslots k hk0, hbit]
        split <;> omega
      · unfold Report.places
        rw [hslots key hk.1, hbit, if_pos rfl]
        simpa using hclear
    · rintro ⟨-, hgone, -⟩ hset
      unfold Report.places at hgone
      rw [hbit, hset] at hgone
      simp at hgone
  unfold OtherReportFree Tracks step del_key_from_report
  dsimp only
  by_cases hlook : can_send = true ∧ r.nkro_bit_count ≠ 0
  · rw [if_pos hlook]
    refine iff_of_true (fun _ => hlook) ?_
    have hd := del_key_bit_hasBit hk.2 r
    generalize del_key_bit key r = d at hd
    obtain ⟨found, r1⟩ := d
    obtain ⟨-, hkeys, hfound⟩ := hd key
    have hbits := fun k => (hd k).1
    cases found
    · -- the bit is not set
      refine (hbyte r1 hkeys fun k => ?_).mp (by rw [← hfound]; exact nofun)
      rw [hbits]
      by_cases hk' : key = k
      · rw [← hk', ← hfound]
        rfl
      · simp [hk']
    · -- the bit was set, so no slot holds the key
      have hslots : r.slots key = 0 := by
        have := h key hk.1
        unfold Report.places at this
        rw [← hfound] at this
        simp at this
        omega
      refine ⟨fun k hk0 => ?_, ?_, fun k _ hne => ⟨slots_congr hkeys k, ?_⟩⟩
      · have hone := h k hk0
        unfold Report.places at *
        rw [slots_congr hkeys, hbits]
        cases hset : r.hasBit k
        · simpa [hset] using hone
        · rw [hset] at hone
          cases !decide (key = k) <;> simp at hone ⊢ <;> omega
      · unfold Report.places
        rw [slots_congr hkeys, hslots, hbits]
        simp
      · rw [hbits]
        simp [Ne.symm hne]
  · rw [if_neg hlook]
    have hlook' : (r.hasBit key = true → can_send = true ∧ r.nkro_bit_count ≠ 0) ↔
        (r.hasBit key = true → False) := ⟨fun hh hset => hlook (hh hset), fun hh hset => (hh hset).elim⟩
    rw [hlook']
    exact hbyte r rfl fun _ => rfl

theorem clear_keys_onePlace (r : Report) (can_send : Bool) :
    OnePlace (clear_keys_from_report can_send r) := by
  intro k hk0
  have hslots : (clear_keys_from_report can_send r).slots k = 0 :=
    slots_eq_zero.mpr fun _ => Ne.symm hk0
  unfold Report.places
  rw [hslots, Nat.zero_add]
  exact Bool.toNat_le _

theorem tracks_iff (h : OnePlace r) (c : Call InNkroRange) : OtherReportFree r c ↔ Tracks r c := by
  obtain ⟨can_send, op⟩ := c
  cases op with
  | add_key_to_report key hk =>
    rw [add_key_tracks_iff h can_send hk]
    exact (and_iff_left trivial).symm
  | del_key_from_report key hk => exact del_key_tracks_iff h can_send hk
  | clear_keys_from_report => exact iff_of_true trivial ⟨clear_keys_onePlace r can_send, trivial⟩

theorem empty_onePlace : OnePlace .empty := by
  intro k hk0
  have hslots : Report.empty.slots k = 0 := slots_eq_zero.mpr fun _ => Ne.symm hk0
  unfold Report.places
  rw [hslots, Nat.zero_add]
  exact Bool.toNat_le _

/-- In every run, each call keeps its key in one place, or takes it out of
both, exactly when no call meets its key in the report that it does not
look at. -/
theorem a_key_is_in_one_place_until_the_reports_switch (calls : List (Call InNkroRange)) :
    Along step Tracks .empty calls ↔ Along step OtherReportFree .empty calls :=
  Along.iff (I := OnePlace) (fun _ c h => tracks_iff h c) (fun _ _ _ h => h.1) empty_onePlace

/-- Seven keys are pressed, so the seventh is a bit of the NKRO report. The
host stops taking NKRO, and the release leaves the bit. -/
theorem a_release_misses_the_bit :
    ¬ ∀ calls : List (Call InNkroRange), Along step Tracks .empty calls := by
  intro h
  have hrun := h [⟨true, .add_key_to_report 4 (by decide)⟩, ⟨true, .add_key_to_report 5 (by decide)⟩,
    ⟨true, .add_key_to_report 6 (by decide)⟩, ⟨true, .add_key_to_report 7 (by decide)⟩,
    ⟨true, .add_key_to_report 8 (by decide)⟩, ⟨true, .add_key_to_report 9 (by decide)⟩,
    ⟨true, .add_key_to_report 10 (by decide)⟩, ⟨false, .del_key_from_report 10 (by decide)⟩]
  obtain ⟨-, -, -, -, -, -, -, ⟨-, hgone, -⟩, -⟩ := hrun
  revert hgone
  decide +kernel

end keychron_qmk.report
