-- What the flash keeps through entries whose programs can fail: each entry is
-- whole, torn or missing, and the cache is ahead of the flash where it is missing.
import KeychronQMK.Eeprom.FailingFlash
import KeychronQMK.Eeprom.FlatArray

namespace keychron_qmk.emulated_flash.failing

open memory

namespace Chip

/-! ## Programs -/

section

variable (cfg : Config) (c : Chip) (w : UInt16)

@[simp] theorem slip_eeprom (h : Bool) (e : Slip) : (c.slip h e).eeprom = c.eeprom := by
  unfold slip
  split <;> rfl

@[simp] theorem slip_fates (h : Bool) (e : Slip) : (c.slip h e).fates = c.fates := by
  unfold slip
  split <;> rfl

@[simp] theorem slip_ahead (h : Bool) (e : Slip) : (c.slip h e).ahead = c.ahead := by
  unfold slip
  split <;> rfl

@[simp] theorem slip_gap (h : Bool) (e : Slip) : (c.slip h e).gap = c.gap := by
  unfold slip
  split <;> rfl

@[simp] theorem slip_compacted (h : Bool) (e : Slip) : (c.slip h e).compacted = c.compacted := by
  unfold slip
  split <;> rfl

@[simp] theorem mem_slip {h : Bool} {e e' : Slip} :
    e ∈ (c.slip h e').slips ↔ h = true ∧ e = e' ∨ e ∈ c.slips := by
  unfold slip
  split
  · simp_all
  · simp_all

/-- Every program to come completes. -/
def Done : Prop := ∀ n, c.fates n = .FLASH_COMPLETE

@[simp] theorem append_status : (c.append w).1 = c.fates 0 := rfl

@[simp] theorem append_fates : (c.append w).2.fates = fun n => c.fates (n + 1) := by
  simp [append, FLASH_ProgramHalfWord]

@[simp] theorem append_ahead : (c.append w).2.ahead = c.ahead := by
  simp [append, FLASH_ProgramHalfWord]

@[simp] theorem append_gap : (c.append w).2.gap = c.gap := by
  simp [append, FLASH_ProgramHalfWord]

@[simp] theorem append_compacted : (c.append w).2.compacted = c.compacted := by
  simp [append, FLASH_ProgramHalfWord]

@[simp] theorem append_slips {e : Slip} : e ∈ (c.append w).2.slips ↔
    (c.gap = true ∧ c.fates 0 = .FLASH_COMPLETE) ∧ e = .behind_gap ∨ e ∈ c.slips := by
  simp [append, FLASH_ProgramHalfWord]

theorem append_eeprom : (c.append w).2.eeprom =
    if c.fates 0 = .FLASH_COMPLETE then emulated_flash.append c.eeprom w
    else { c.eeprom with empty_slot := c.eeprom.empty_slot + 1 } := by
  simp only [append, FLASH_ProgramHalfWord, slip_eeprom]
  split <;> rfl

@[simp] theorem append_DataBuf : (c.append w).2.eeprom.DataBuf = c.eeprom.DataBuf := by
  rw [append_eeprom]
  split <;> rfl

@[simp] theorem append_empty_slot :
    (c.append w).2.eeprom.empty_slot = c.eeprom.empty_slot + 1 := by
  rw [append_eeprom]
  split <;> rfl

theorem append_flash_of_ne {i : Nat} (h : i ≠ c.eeprom.empty_slot) :
    (c.append w).2.eeprom.flash i = c.eeprom.flash i := by
  rw [append_eeprom]
  split
  · exact Function.update_of_ne h _ _
  · rfl

theorem append_first_eq : c.append_first w =
    (c.fates 0, { (c.append w).2 with gap := c.gap || c.fates 0 != .FLASH_COMPLETE }) := by
  simp [append_first]

@[simp] theorem append_first_status : (c.append_first w).1 = c.fates 0 := rfl

@[simp] theorem append_first_ahead : (c.append_first w).2.ahead = c.ahead := by
  simp [append_first_eq]

end

/-! ## What is kept -/

variable {cfg : Config} {c c' : Chip} {d : Nat → UInt8}

/-- The flash keeps `d`, and the cache is `d` but for the bytes that are ahead. The
log is erased from its first gap on. -/
structure Kept (cfg : Config) (c : Chip) (d : Nat → UInt8) : Prop where
  keeps : ∃ slot I, Keeps cfg c.eeprom.flash slot I d ∧ slot ≤ c.eeprom.empty_slot ∧
    (c.gap = false → slot = c.eeprom.empty_slot)
  room : c.eeprom.empty_slot ≤ cfg.log_last
  ahead : ∀ a < cfg.FEE_DENSITY_BYTES, c.ahead a = false → c.eeprom.DataBuf a = d a
  clean : Clean cfg c.eeprom

/-- What a part of a write to the half-word `k` leaves of a chip whose flash keeps `d`:
each byte is kept as it was or as it is in the cache, and without a compaction only
those of the half-word change. -/
structure Leaves (cfg : Config) (c : Chip) (d : Nat → UInt8) (k : Nat) (c' : Chip) : Prop where
  done : c.Done → c'.Done
  data : c'.eeprom.DataBuf = c.eeprom.DataBuf
  ahead : ∀ a < cfg.FEE_DENSITY_BYTES, c.ahead a = false → c'.ahead a = false
  kept : .behind_gap ∉ c'.slips → ∃ d', Kept cfg c' d' ∧
    (∀ a < cfg.FEE_DENSITY_BYTES, d' a = d a ∨ d' a = c.eeprom.DataBuf a) ∧
    (c'.compacted = false → ∀ a < cfg.FEE_DENSITY_BYTES, a / 2 ≠ k → d' a = d a)

theorem Kept.base_le (h : c.Kept cfg d) : cfg.log_base ≤ c.eeprom.empty_slot := by
  obtain ⟨slot, I, hkeeps, hle, -⟩ := h.keeps
  exact Nat.le_trans hkeeps.base_le hle

theorem Kept.erased (h : c.Kept cfg d) {i : Nat} (hi : c.eeprom.empty_slot ≤ i)
    (hlast : i < cfg.log_last) : c.eeprom.flash i = FEE_EMPTY_WORD := by
  obtain ⟨slot, I, hkeeps, hle, -⟩ := h.keeps
  exact hkeeps.erased i (by omega) hlast

theorem Kept.restored (h : c.Kept cfg d) :
    EqBelow cfg.FEE_DENSITY_BYTES (emulated_flash.EEPROM_Init cfg c.eeprom).DataBuf d := by
  obtain ⟨slot, I, hkeeps, -⟩ := h.keeps
  exact hkeeps.init.1

theorem Kept.init (h : c.Kept cfg d) : (c.EEPROM_Init cfg).Kept cfg d := by
  obtain ⟨slot, I, hkeeps, hle, -⟩ := h.keeps
  obtain ⟨hdata, hslot⟩ := hkeeps.init
  exact ⟨⟨slot, I, hkeeps, Nat.le_of_eq hslot.symm, fun _ => hslot.symm⟩, hslot ▸ hkeeps.room,
    fun a ha _ => hdata a ha, h.clean⟩

theorem kept_of_synced (h : Synced cfg c.eeprom d)
    (hahead : ∀ a < cfg.FEE_DENSITY_BYTES, c.ahead a = false → c.eeprom.DataBuf a = d a) :
    c.Kept cfg d := by
  obtain ⟨⟨E, hE⟩, hclean⟩ := h
  exact ⟨⟨_, _, holds_iff.mp hE, Nat.le_refl _, fun _ => rfl⟩, hE.room, hahead, hclean⟩

/-! ## Compaction -/

theorem compact_word_of_done (h : c.Done) (status : FLASH_Status) (k : Nat) :
    let r := c.compact_word status k
    r.1 = status ∧ r.2.eeprom = emulated_flash.compact_word c.eeprom k ∧ r.2.Done ∧
      r.2.ahead = (c.in_flash k).ahead := by
  simp only [compact_word, FLASH_ProgramHalfWord, emulated_flash.compact_word, h 0, if_true]
  split
  · exact ⟨rfl, rfl, fun n => h (n + 1), rfl⟩
  · exact ⟨rfl, rfl, h, rfl⟩

theorem compact_word_slips (status : FLASH_Status) (k : Nat) :
    (c.compact_word status k).2.slips = c.slips ∧
      (c.compact_word status k).2.compacted = c.compacted := by
  unfold compact_word
  split
  · by_cases hdone : c.fates 0 = .FLASH_COMPLETE
    · simp [FLASH_ProgramHalfWord, hdone, in_flash]
    · simp [FLASH_ProgramHalfWord, hdone]
  · exact ⟨rfl, rfl⟩

theorem compact_slips : (c.eeprom_compact cfg).2.slips = c.slips ∧
    (c.eeprom_compact cfg).2.compacted = true := by
  unfold eeprom_compact
  induction cfg.log_base with
  | zero => exact ⟨rfl, rfl⟩
  | succ n ih =>
    rw [List.range_succ, List.foldl_append, List.foldl_cons, List.foldl_nil,
      (compact_word_slips _ _).1, (compact_word_slips _ _).2]
    exact ih

/-- A compaction without failures is one of the flash that has none. -/
theorem compact_of_done (cfg : Config) (h : c.Done) :
    let r := c.eeprom_compact cfg
    r.1 = .FLASH_COMPLETE ∧ r.2.eeprom = emulated_flash.eeprom_compact cfg c.eeprom ∧ r.2.Done ∧
      ∀ a < cfg.FEE_DENSITY_BYTES, r.2.ahead a = false := by
  suffices hturns : ∀ n,
      let r := (List.range n).foldl (fun r k => r.2.compact_word r.1 k)
        (.FLASH_COMPLETE, { c with
          eeprom := eeprom_clear cfg c.eeprom
          ahead := fun _ => true
          gap := false
          compacted := true })
      r.1 = .FLASH_COMPLETE ∧
        r.2.eeprom = (List.range n).foldl emulated_flash.compact_word (eeprom_clear cfg c.eeprom) ∧
          r.2.Done ∧ ∀ a, a / 2 < n → r.2.ahead a = false by
    obtain ⟨hstatus, heeprom, hdone, hahead⟩ := hturns cfg.log_base
    exact ⟨hstatus, heeprom, hdone, fun a ha => hahead a (lt_log_base ha)⟩
  intro n
  induction n with
  | zero => exact ⟨rfl, rfl, h, fun a ha => absurd ha (Nat.not_lt_zero _)⟩
  | succ n ih =>
    obtain ⟨hstatus, heeprom, hdone, hahead⟩ := ih
    simp only [List.range_succ, List.foldl_append, List.foldl_cons, List.foldl_nil]
    generalize (List.range n).foldl _ _ = r at *
    obtain ⟨hstatus', heeprom', hdone', hahead'⟩ := compact_word_of_done hdone r.1 n
    refine ⟨hstatus'.trans hstatus, heeprom'.trans (by rw [heeprom]), hdone', fun a ha => ?_⟩
    rw [hahead']
    simp only [in_flash]
    rcases Nat.lt_succ_iff_lt_or_eq.mp ha with ha | ha
    · simp [hahead a ha]
    · simp [ha]

theorem compact_leaves (h : c.Kept cfg d) (hdone : c.Done) (k : Nat) :
    let r := c.eeprom_compact cfg
    Leaves cfg c d k r.2 ∧ r.2.eeprom.empty_slot = cfg.log_base ∧
      ∀ i < cfg.log_base, r.2.eeprom.flash i = ~~~c.eeprom.word i := by
  obtain ⟨-, heeprom, hdone', hahead⟩ := compact_of_done cfg hdone
  obtain ⟨hdata, hsynced, hslot, hflash⟩ := compact_synced h.clean
  rw [← heeprom] at hdata hsynced hslot hflash
  refine ⟨⟨?_, hdata, ?_, ?_⟩, hslot, hflash⟩
  · exact fun _ => hdone'
  · exact fun a ha _ => hahead a ha
  · intro _
    refine ⟨c.eeprom.DataBuf, kept_of_synced hsynced fun a _ _ => congrFun hdata a,
      fun a _ => .inr rfl, fun hcompacted => ?_⟩
    simp [compact_slips.2] at hcompacted

/-! ## Direct entries -/

/-- A buffer with a half-word of the cache. -/
def refreshed (c : Chip) (k : Nat) (d : Nat → UInt8) : Nat → UInt8 :=
  fun a => if a / 2 = k then c.eeprom.DataBuf a else d a

theorem refreshed_eq_or (k a : Nat) : c.refreshed k d a = d a ∨
    c.refreshed k d a = c.eeprom.DataBuf a := by
  unfold refreshed
  split
  · exact .inr rfl
  · exact .inl rfl

theorem refreshed_of_ne {k a : Nat} (h : a / 2 ≠ k) : c.refreshed k d a = d a := if_neg h

/-- A half-word of the cache comes into the flash: its bytes are kept, and they are no
longer ahead. -/
theorem ahead_in_flash (h : c.Kept cfg d) (k : Nat) {a : Nat} (ha : a < cfg.FEE_DENSITY_BYTES)
    (hahead : (c.in_flash k).ahead a = false) : c.eeprom.DataBuf a = c.refreshed k d a := by
  by_cases hk : a / 2 = k
  · exact (if_pos hk).symm
  · rw [refreshed_of_ne hk]
    refine h.ahead a ha ?_
    simpa [in_flash, hk] using hahead

/-- A direct entry makes an erased half-word that of the cache, or leaves it erased. -/
theorem direct_leaves (h : c.Kept cfg d) {Address : UInt16}
    (ha : Address.toNat < cfg.FEE_DENSITY_BYTES)
    (hempty : c.eeprom.flash (Address.toNat / 2) = FEE_EMPTY_WORD) :
    let r := c.eeprom_write_direct_entry Address
    Leaves cfg c d (Address.toNat / 2) r.2 ∧ ∃ status, r.1 = some status ∧
      (status = .FLASH_COMPLETE → ∀ a, a / 2 = Address.toNat / 2 → r.2.ahead a = false) := by
  generalize hk : Address.toNat / 2 = k at hempty ⊢
  have hlast : k < cfg.log_base := hk ▸ lt_log_base ha
  obtain ⟨slot, I, hkeeps, hle, hgap⟩ := h.keeps
  -- the half-word holds the complement of the cache when the program completes
  have hdirect : Keeps cfg (Function.update c.eeprom.flash k (~~~c.eeprom.word k)) slot I
      (c.refreshed k d) := by
    have hword : halfWord (c.refreshed k d (2 * k)) (c.refreshed k d (2 * k + 1)) =
        c.eeprom.word k := by
      simp only [refreshed, Eeprom.word]
      rw [if_pos (by omega), if_pos (by omega)]
    rw [← hword]
    exact hkeeps.direct hlast hempty fun a _ hak => (refreshed_of_ne hak).symm
  simp only [eeprom_write_direct_entry, hk, if_pos hempty]
  by_cases hzero : ~~~c.eeprom.word k = FEE_EMPTY_WORD
  · rw [if_pos hzero]
    refine ⟨⟨id, rfl, ?_, fun _ => ?_⟩, _, rfl, fun _ a hak => ?_⟩
    · intro a _ hahead
      simp [in_flash, hahead]
    · refine ⟨c.refreshed k d, ⟨⟨slot, I, ?_, hle, hgap⟩, h.room, ?_, h.clean⟩,
        fun a _ => refreshed_eq_or k a, fun _ a _ hak => refreshed_of_ne hak⟩
      · rw [hzero, ← hempty, Function.update_eq_self] at hdirect
        exact hdirect
      · exact fun a ha hahead => ahead_in_flash h k ha hahead
    · simp [in_flash, hak]
  · rw [if_neg hzero]
    by_cases hdone : c.fates 0 = .FLASH_COMPLETE
    · simp only [FLASH_ProgramHalfWord, if_pos hdone]
      refine ⟨⟨fun hd n => hd (n + 1), rfl, ?_, fun _ => ?_⟩, _, rfl, fun _ a hak => ?_⟩
      · intro a _ hahead
        simp [in_flash, hahead]
      · refine ⟨c.refreshed k d, ⟨⟨slot, I, ?_, hle, hgap⟩, h.room, ?_, ?_⟩,
          fun a _ => refreshed_eq_or k a, fun _ a _ hak => refreshed_of_ne hak⟩
        · simpa only [in_flash, emulated_flash.FLASH_ProgramHalfWord, hempty, erased_and]
            using hdirect
        · exact fun a ha hahead => ahead_in_flash h k ha hahead
        · intro p hp
          rcases List.mem_append.mp hp with hp | hp
          · exact h.clean p hp
          · rw [List.mem_singleton.mp hp]
            exact ⟨hempty, Nat.lt_of_lt_of_le hlast (log_base_le cfg)⟩
      · simp [in_flash, hak]
    · simp only [FLASH_ProgramHalfWord, if_neg hdone]
      refine ⟨⟨fun hd => absurd (hd 0) hdone, rfl, fun _ _ => id, fun _ => ?_⟩, _, rfl,
        fun hstatus => absurd hstatus hdone⟩
      exact ⟨d, ⟨⟨slot, I, hkeeps, hle, hgap⟩, h.room, h.ahead, h.clean⟩, fun _ _ => .inl rfl,
        fun _ _ _ _ => rfl⟩

/-! ## Log entries -/

theorem append_flash (c : Chip) (w : UInt16)
    (hempty : c.eeprom.flash c.eeprom.empty_slot = FEE_EMPTY_WORD) :
    (c.append w).2.eeprom.flash =
      if c.fates 0 = .FLASH_COMPLETE then patch c.eeprom.flash c.eeprom.empty_slot [w]
      else c.eeprom.flash := by
  rw [append_eeprom]
  split
  · simp only [emulated_flash.append, emulated_flash.FLASH_ProgramHalfWord, hempty, erased_and,
      update_eq_patch]
  · rfl

theorem append_clean (w : UInt16) (hclean : Clean cfg c.eeprom)
    (hempty : c.eeprom.flash c.eeprom.empty_slot = FEE_EMPTY_WORD)
    (hlast : c.eeprom.empty_slot < cfg.log_last) : Clean cfg (c.append w).2.eeprom := by
  rw [append_eeprom]
  split
  · exact (append_spec hempty hlast hclean w).2.2.2
  · exact hclean

theorem Kept.append_whole (h : c.Kept cfg d) (hgap : c.gap = false) (e : Entry cfg)
    (hflash : c'.eeprom.flash = patch c.eeprom.flash c.eeprom.empty_slot e.words)
    (hslot : c'.eeprom.empty_slot = c.eeprom.empty_slot + e.words.length)
    (hroom : c'.eeprom.empty_slot ≤ cfg.log_last)
    (hprogrammed : c.eeprom.flash e.place ≠ FEE_EMPTY_WORD)
    (hahead : ∀ b < cfg.FEE_DENSITY_BYTES, c'.ahead b = false → c'.eeprom.DataBuf b = e.apply d b)
    (hclean : Clean cfg c'.eeprom) : c'.Kept cfg (e.apply d) := by
  obtain ⟨slot, I, hkeeps, -, hslot_eq⟩ := h.keeps
  obtain rfl := hslot_eq hgap
  refine ⟨⟨_, I ++ [.whole e], ?_, Nat.le_refl _, fun _ => rfl⟩, hroom, hahead, hclean⟩
  rw [hflash, hslot]
  refine hkeeps.append (.whole e) (hslot ▸ hroom) ?_
  rintro k rfl
  exact hprogrammed

theorem Kept.append_torn (h : c.Kept cfg d) (hgap : c.gap = false) {header : UInt16}
    (hnext : 0xE000 ≤ header.toNat) (hheader : header.toNat < 0xFFFF)
    (hflash : c'.eeprom.flash = patch c.eeprom.flash c.eeprom.empty_slot [header])
    (hslot : c'.eeprom.empty_slot = c.eeprom.empty_slot + 2)
    (hroom : c'.eeprom.empty_slot ≤ cfg.log_last)
    (hahead : ∀ b < cfg.FEE_DENSITY_BYTES, c'.ahead b = false → c'.eeprom.DataBuf b = d b)
    (hclean : Clean cfg c'.eeprom) : c'.Kept cfg d := by
  have hcell : FEE_EMPTY_WORD = patch c.eeprom.flash c.eeprom.empty_slot [header]
      (c.eeprom.empty_slot + 1) := by
    rw [patch_ge _ _ (by simp)]
    exact (h.erased (by omega) (by omega)).symm
  have hpatch := patch_append c.eeprom.flash c.eeprom.empty_slot [header] [FEE_EMPTY_WORD]
  rw [← update_eq_patch, List.length_singleton, Function.update_eq_self_iff.mpr hcell] at hpatch
  obtain ⟨slot, I, hkeeps, -, hslot_eq⟩ := h.keeps
  obtain rfl := hslot_eq hgap
  refine ⟨⟨_, I ++ [.torn header hnext hheader], ?_, Nat.le_refl _, fun _ => rfl⟩, hroom, hahead,
    hclean⟩
  rw [hflash, hslot, ← hpatch]
  exact hkeeps.append (.torn header hnext hheader) (hslot ▸ hroom) fun _ hwrites => hwrites.elim

theorem Kept.append_missing (h : c.Kept cfg d) (hgap : c'.gap = true)
    (hflash : c'.eeprom.flash = c.eeprom.flash)
    (hslot : c.eeprom.empty_slot ≤ c'.eeprom.empty_slot)
    (hroom : c'.eeprom.empty_slot ≤ cfg.log_last)
    (hahead : ∀ b < cfg.FEE_DENSITY_BYTES, c'.ahead b = false → c'.eeprom.DataBuf b = d b)
    (hclean : Clean cfg c'.eeprom) : c'.Kept cfg d := by
  obtain ⟨slot, I, hkeeps, hle, -⟩ := h.keeps
  refine ⟨⟨slot, I, hflash ▸ hkeeps, Nat.le_trans hle hslot, fun h' => ?_⟩, hroom, hahead, hclean⟩
  simp [hgap] at h'

/-- An entry of one half-word. When its program completes, `f` says that its bytes are no
longer ahead. -/
theorem append_first_leaves (h : c.Kept cfg d) (e : Entry cfg) {w : UInt16} (hw : e.words = [w])
    (f : (Nat → Bool) → Nat → Bool)
    (hlast : c.eeprom.empty_slot < cfg.log_last)
    (hprogrammed : c.eeprom.flash e.place ≠ FEE_EMPTY_WORD)
    (happly : ∀ b, e.apply d b = d b ∨ e.apply d b = c.eeprom.DataBuf b)
    (hkeep : ∀ b, c.ahead b = false → f c.ahead b = false)
    (hnew : ∀ b < cfg.FEE_DENSITY_BYTES, f c.ahead b = false →
      c.eeprom.DataBuf b = e.apply d b) :
    let r := c.append_first w
    Leaves cfg c d e.place
      (if r.1 = .FLASH_COMPLETE then { r.2 with ahead := f r.2.ahead } else r.2) := by
  have hempty := h.erased (Nat.le_refl _) hlast
  simp only [append_first_eq, append_ahead]
  by_cases hdone : c.fates 0 = .FLASH_COMPLETE
  · rw [if_pos hdone]
    refine ⟨fun hd n => ?_, ?_, fun b _ => hkeep b, fun hslips => ?_⟩
    · simpa using hd (n + 1)
    · simp
    · have hgap : c.gap = false := by
        rw [← Bool.not_eq_true]
        intro hgap
        simp [hgap, hdone] at hslips
      refine ⟨e.apply d, h.append_whole hgap e ?_ ?_ ?_ hprogrammed ?_ ?_, fun b _ => happly b,
        fun _ b _ hb => Entry.apply_of_ne hb⟩
      · simp only [append_flash c w hempty, if_pos hdone, hw]
      · simp [hw]
      · simpa using Nat.succ_le_of_lt hlast
      · simpa using hnew
      · exact append_clean w h.clean hempty hlast
  · rw [if_neg hdone]
    refine ⟨fun hd => absurd (hd 0) hdone, ?_, fun b _ hb => ?_, fun _ => ?_⟩
    · simp
    · simpa using hb
    · refine ⟨d, h.append_missing ?_ ?_ ?_ ?_ ?_ ?_, fun _ _ => .inl rfl, fun _ _ _ _ => rfl⟩
      · simp [hdone]
      · simp only [append_flash c w hempty, if_neg hdone]
      · simp
      · simpa using Nat.succ_le_of_lt hlast
      · simpa using h.ahead
      · exact append_clean w h.clean hempty hlast

theorem log_byte_leaves (h : c.Kept cfg d) {a : Nat} (hlow : a < FEE_BYTE_RANGE)
    (ha : a < cfg.FEE_DENSITY_BYTES)
    (hprogrammed : c.eeprom.flash (a / 2) ≠ FEE_EMPTY_WORD ∨ cfg.log_last ≤ c.eeprom.empty_slot)
    (hadmitted : c.Done ∨ (c.eeprom_write_log_byte_entry cfg a).2.compacted = false) :
    let r := c.eeprom_write_log_byte_entry cfg a
    Leaves cfg c d (a / 2) r.2 ∧ (r.1 = .FLASH_COMPLETE → r.2.ahead a = false) ∧
      if cfg.log_last ≤ c.eeprom.empty_slot then
        r.2.eeprom.empty_slot = cfg.log_base ∧
          ∀ i < cfg.log_base, r.2.eeprom.flash i = ~~~c.eeprom.word i
      else ∀ i < cfg.log_base, r.2.eeprom.flash i = c.eeprom.flash i := by
  intro r
  have hr : r = c.eeprom_write_log_byte_entry cfg a := rfl
  unfold eeprom_write_log_byte_entry at hr
  by_cases hfull : cfg.log_last ≤ c.eeprom.empty_slot
  · rw [if_pos hfull] at hr ⊢
    have hdone : c.Done := by
      refine hadmitted.resolve_right ?_
      rw [eeprom_write_log_byte_entry, if_pos hfull, compact_slips.2]
      decide
    obtain ⟨hleaves, hslot, hflash⟩ := compact_leaves h hdone (a / 2)
    obtain ⟨-, -, -, hahead⟩ := compact_of_done cfg hdone
    rw [hr]
    exact ⟨hleaves, fun _ => hahead a ha, hslot, hflash⟩
  · rw [if_neg hfull] at hr ⊢
    have hlast : c.eeprom.empty_slot < cfg.log_last := by omega
    have hleaves := append_first_leaves h (.byte a (c.eeprom.DataBuf a) hlow ha) rfl
      (fun ahead => Function.update ahead a false) hlast (hprogrammed.resolve_right hfull)
      (fun b => ?_) (fun b hb => ?_) (fun b hb hahead => ?_)
    · rw [hr]
      refine ⟨hleaves, fun hstatus => ?_, fun i hi => ?_⟩
      · simp only [append_first_status] at hstatus
        simp [hstatus]
      · have hne : i ≠ c.eeprom.empty_slot := by
          have := h.base_le
          omega
        simp only [append_first_eq]
        split <;> exact append_flash_of_ne c _ hne
    · rcases eq_or_ne b a with rfl | hba
      · exact .inr (by simp [Entry.apply])
      · exact .inl (by simp [Entry.apply, hba])
    · simp [Function.update_apply, hb]
    · rcases eq_or_ne b a with rfl | hba
      · simp [Entry.apply]
      · simp only [Function.update_of_ne hba] at hahead
        simpa [Entry.apply, hba] using h.ahead b hb hahead

/-- An entry of two half-words: whole when both programs complete, torn when the second
fails, and missing when both do. -/
theorem append_next_leaves (h : c.Kept cfg d) (e : Entry cfg) {header value : UInt16}
    (hw : e.words = [header, value]) (hnext : 0xE000 ≤ header.toNat)
    (hheader : header.toNat < 0xFFFF) (hroom : c.eeprom.empty_slot + 2 ≤ cfg.log_last)
    (hprogrammed : c.eeprom.flash e.place ≠ FEE_EMPTY_WORD)
    (happly : ∀ b, e.apply d b = c.refreshed e.place d b) :
    let r := c.append_first header
    let r' := r.2.append value
    Leaves cfg c d e.place (if (if r'.1 ≠ .FLASH_COMPLETE then r'.1 else r.1) = .FLASH_COMPLETE
      then r'.2.in_flash e.place else r'.2) := by
  intro r r'
  have hempty := h.erased (Nat.le_refl _) (by omega)
  have hempty' : r.2.eeprom.flash r.2.eeprom.empty_slot = FEE_EMPTY_WORD := by
    simp only [r, append_first_eq, append_empty_slot]
    rw [append_flash_of_ne _ _ (by omega)]
    exact h.erased (by omega) (by omega)
  have hclean : Clean cfg r'.2.eeprom := by
    refine append_clean value ?_ hempty' ?_
    · exact append_clean header h.clean hempty (by omega)
    · simp only [r, append_first_eq, append_empty_slot]
      omega
  have hflash : r'.2.eeprom.flash = if c.fates 1 = .FLASH_COMPLETE then
      patch r.2.eeprom.flash r.2.eeprom.empty_slot [value] else r.2.eeprom.flash := by
    have hfate : r.2.fates 0 = c.fates 1 := by simp [r, append_first_eq]
    rw [← hfate]
    exact append_flash r.2 value hempty'
  have hfirst : r.2.eeprom.flash = if c.fates 0 = .FLASH_COMPLETE then
      patch c.eeprom.flash c.eeprom.empty_slot [header] else c.eeprom.flash :=
    append_flash c header hempty
  have hslot : r'.2.eeprom.empty_slot = c.eeprom.empty_slot + 2 := by
    simp [r', r, append_first_eq]
  have hdata : r'.2.eeprom.DataBuf = c.eeprom.DataBuf := by simp [r', r, append_first_eq]
  have hahead : r'.2.ahead = c.ahead := by simp [r', r]
  have hgap : r'.2.gap = (c.gap || c.fates 0 != .FLASH_COMPLETE) := by
    simp [r', r, append_first_eq]
  have hstatus : ((if r'.1 ≠ .FLASH_COMPLETE then r'.1 else r.1) = .FLASH_COMPLETE) =
      (c.fates 0 = .FLASH_COMPLETE ∧ c.fates 1 = .FLASH_COMPLETE) := by
    have h1 : r'.1 = c.fates 1 := by simp [r', r, append_first_eq]
    rw [h1, show r.1 = c.fates 0 from rfl]
    by_cases hdone : c.fates 1 = .FLASH_COMPLETE <;> simp [hdone]
  have hslips : ∀ e, e ∈ r'.2.slips ↔ ((c.gap = true ∨ c.fates 0 ≠ .FLASH_COMPLETE) ∧
      c.fates 1 = .FLASH_COMPLETE ∨ c.gap = true ∧ c.fates 0 = .FLASH_COMPLETE) ∧
        e = .behind_gap ∨ e ∈ c.slips := by
    intro e
    simp only [r', r, append_slips, append_first_eq, append_fates, Bool.or_eq_true, bne_iff_ne]
    tauto
  have hdone : c.Done → r'.2.Done := by
    intro hd n
    simpa [r', r, append_first_eq] using hd (n + 2)
  by_cases hall : c.fates 0 = .FLASH_COMPLETE ∧ c.fates 1 = .FLASH_COMPLETE
  · rw [if_pos (hstatus ▸ hall)]
    refine ⟨hdone, hdata, fun b _ hb => ?_, fun hbehind => ?_⟩
    · simp [in_flash, hahead, hb]
    · -- a log with a gap would be a slip
      have hcgap : c.gap = false := by
        by_contra hgap'
        exact hbehind ((hslips _).mpr (.inl ⟨.inr ⟨by simpa using hgap', hall.1⟩, rfl⟩))
      rw [if_pos hall.2, hfirst, if_pos hall.1] at hflash
      refine ⟨e.apply d, h.append_whole hcgap e ?_ ?_ ?_ hprogrammed ?_ hclean, fun b _ => ?_,
        fun _ b _ hb => Entry.apply_of_ne hb⟩
      · have hslot' : r.2.eeprom.empty_slot = c.eeprom.empty_slot + [header].length := by
          simp [r, append_first_eq]
        rw [hslot', ← patch_append] at hflash
        rw [hw]
        exact hflash
      · rw [hw]
        exact hslot
      · exact hslot ▸ hroom
      · intro b hb hahead'
        rw [happly]
        refine (congrFun hdata b).trans (ahead_in_flash h e.place hb ?_)
        simpa only [in_flash, hahead] using hahead'
      · rw [happly]
        exact refreshed_eq_or e.place b
  · rw [if_neg (hstatus ▸ hall)]
    refine ⟨hdone, hdata, fun b _ hb => by rw [hahead, hb], fun hbehind => ?_⟩
    refine ⟨d, ?_, fun _ _ => .inl rfl, fun _ _ _ _ => rfl⟩
    have hahead' : ∀ b < cfg.FEE_DENSITY_BYTES, r'.2.ahead b = false →
        r'.2.eeprom.DataBuf b = d b := by
      rw [hahead, hdata]
      exact h.ahead
    by_cases hfirst_done : c.fates 0 = .FLASH_COMPLETE
    · -- the value is missing behind its header
      have hcgap : c.gap = false := by
        by_contra hgap'
        exact hbehind ((hslips _).mpr (.inl ⟨.inr ⟨by simpa using hgap', hfirst_done⟩, rfl⟩))
      rw [if_neg fun hnext_done => hall ⟨hfirst_done, hnext_done⟩, hfirst, if_pos hfirst_done]
        at hflash
      exact h.append_torn hcgap hnext hheader hflash hslot (hslot ▸ hroom) hahead' hclean
    · -- a value behind a missing header would be a slip
      have hnext_failed : ¬ c.fates 1 = .FLASH_COMPLETE := by
        intro hnext_done
        exact hbehind ((hslips _).mpr (.inl ⟨.inl ⟨.inr hfirst_done, hnext_done⟩, rfl⟩))
      rw [if_neg hnext_failed, hfirst, if_neg hfirst_done] at hflash
      refine h.append_missing ?_ hflash (by omega) (hslot ▸ hroom) hahead' hclean
      simp [hgap, hfirst_done]

theorem putWord_eq_refreshed (k : Nat) :
    putWord d (2 * k) (c.eeprom.word k) = c.refreshed k d := by
  funext a
  by_cases hk : a / 2 = k
  · rw [refreshed, if_pos hk]
    obtain rfl | rfl : a = 2 * k ∨ a = 2 * k + 1 := by omega
    · simp [putWord, Eeprom.word, Function.update_of_ne]
    · simp [putWord, Eeprom.word]
  · rw [refreshed_of_ne hk, putWord_of_ne (by omega) _ (by omega)]

theorem log_word_leaves (h : c.Kept cfg d) {k : Nat} (hhigh : FEE_BYTE_RANGE ≤ 2 * k)
    (ha : 2 * k < cfg.FEE_DENSITY_BYTES) (hsize : cfg.FEE_DENSITY_BYTES ≤ FEE_ADDRESS_MAX_SIZE)
    (hprogrammed : c.eeprom.flash k ≠ FEE_EMPTY_WORD)
    (hadmitted : c.Done ∨ (c.eeprom_write_log_word_entry cfg (2 * k)).2.compacted = false) :
    let r := c.eeprom_write_log_word_entry cfg (2 * k)
    Leaves cfg c d k r.2 ∧ (r.1 = .FLASH_COMPLETE →
      ∀ a < cfg.FEE_DENSITY_BYTES, a / 2 = k → r.2.ahead a = false) := by
  intro r
  have hr : r = c.eeprom_write_log_word_entry cfg (2 * k) := rfl
  have hk : 2 * k / 2 = k := by omega
  have hcompact : r = c.eeprom_compact cfg → Leaves cfg c d k r.2 ∧ (r.1 = .FLASH_COMPLETE →
      ∀ a < cfg.FEE_DENSITY_BYTES, a / 2 = k → r.2.ahead a = false) := by
    intro hr'
    have hdone : c.Done := by
      refine hadmitted.resolve_right ?_
      rw [← hr, hr', compact_slips.2]
      decide
    rw [hr']
    exact ⟨(compact_leaves h hdone k).1,
      fun _ a ha' _ => (compact_of_done cfg hdone).2.2.2 a ha'⟩
  let e : Entry cfg := .word (2 * k) (c.eeprom.word k) (by omega) hhigh ha (by omega)
  have hplace : e.place = k := hk
  have happly : e.apply d = c.refreshed k d := putWord_eq_refreshed k
  unfold eeprom_write_log_word_entry at hr
  rw [hk] at hr
  dsimp only at hr
  by_cases hvalue : c.eeprom.word k ≤ 1
  · rw [if_pos hvalue] at hr
    by_cases hroom : c.eeprom.empty_slot + 1 > cfg.log_last
    · rw [if_pos hroom] at hr
      exact hcompact hr
    · rw [if_neg hroom] at hr
      have hleaves := append_first_leaves h e (if_pos hvalue)
        (fun ahead b => ahead b && b / 2 != k) (by omega) (by rwa [hplace])
        (fun b => happly ▸ refreshed_eq_or k b) (fun b hb => by simp [hb])
        (fun b hb hahead => happly ▸ ahead_in_flash h k hb hahead)
      rw [hplace] at hleaves
      rw [hr]
      refine ⟨hleaves, fun hstatus a _ hak => ?_⟩
      simp only [append_first_status] at hstatus
      simp [in_flash, hstatus, hak]
  · rw [if_neg hvalue] at hr
    by_cases hroom : c.eeprom.empty_slot + 2 > cfg.log_last
    · rw [if_pos hroom] at hr
      exact hcompact hr
    · rw [if_neg hroom] at hr
      have hheader := header_toNat (a := 2 * k) (by omega)
      simp only [FEE_ADDRESS_MAX_SIZE, FEE_BYTE_RANGE] at hsize hhigh hheader
      have hleaves := append_next_leaves h e (if_neg hvalue) (hheader ▸ by omega)
        (hheader ▸ by omega) (by omega) (by rwa [hplace])
        (fun b => by rw [happly, hplace])
      rw [hplace] at hleaves
      rw [hr]
      refine ⟨hleaves, fun hstatus a _ hak => ?_⟩
      rw [if_pos hstatus]
      simp [in_flash, hak]

end Chip

end keychron_qmk.emulated_flash.failing
