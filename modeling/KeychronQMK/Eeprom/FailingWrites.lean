-- The writes of a byte and of a word on a flash whose programs can fail: what is
-- kept of each, and which statuses say so.
import KeychronQMK.Eeprom.FailingEntries

namespace keychron_qmk.emulated_flash.failing

open memory

namespace Chip

variable {cfg : Config} {c c' : Chip} {d : Nat → UInt8}

/-! ## Slips and compactions -/

/-- Slips and compactions are not forgotten. -/
structure Later (c c' : Chip) : Prop where
  slips : ∀ e ∈ c.slips, e ∈ c'.slips
  compacted : c.compacted = true → c'.compacted = true

theorem Later.refl (c : Chip) : Later c c := ⟨fun _ he => he, id⟩

theorem Later.trans {c'' : Chip} (h : Later c c') (h' : Later c' c'') : Later c c'' :=
  ⟨fun e he => h'.slips e (h.slips e he), fun hc => h'.compacted (h.compacted hc)⟩

theorem Later.not_compacted (h : Later c c') (hcompacted : c'.compacted = false) :
    c.compacted = false := by
  by_contra hfirst
  have := h.compacted (by simpa using hfirst)
  simp [hcompacted] at this

theorem slip_later (h : Bool) (e : Slip) : Later c (c.slip h e) :=
  ⟨fun _ he => (mem_slip c).mpr (.inr he), fun hc => (slip_compacted c h e).trans hc⟩

theorem append_later (w : UInt16) : Later c (c.append w).2 :=
  ⟨fun e he => by simp [he], fun hc => by simp [hc]⟩

theorem append_first_later (w : UInt16) : Later c (c.append_first w).2 :=
  ⟨fun e he => by simp [append_first_eq, he], fun hc => by simp [append_first_eq, hc]⟩

theorem compact_later : Later c (c.eeprom_compact cfg).2 :=
  ⟨fun _ he => compact_slips.1.symm ▸ he, fun _ => compact_slips.2⟩

theorem direct_later (Address : UInt16) : Later c (c.eeprom_write_direct_entry Address).2 := by
  unfold eeprom_write_direct_entry
  dsimp only
  split
  · split
    · exact ⟨fun _ he => he, id⟩
    · dsimp only
      split <;> exact ⟨fun _ he => he, id⟩
  · exact .refl c

theorem log_byte_later (a : Nat) : Later c (c.eeprom_write_log_byte_entry cfg a).2 := by
  unfold eeprom_write_log_byte_entry
  split
  · exact compact_later
  · have hfirst := append_first_later (c := c) (.ofNat (a <<< 8 ||| (c.eeprom.DataBuf a).toNat))
    dsimp only
    split <;> exact ⟨hfirst.slips, hfirst.compacted⟩

theorem log_word_later (a : Nat) : Later c (c.eeprom_write_log_word_entry cfg a).2 := by
  unfold eeprom_write_log_word_entry
  dsimp only
  split
  · split
    · exact compact_later
    · generalize UInt16.ofNat _ = w
      have hfirst := append_first_later (c := c) w
      split <;> exact ⟨hfirst.slips, hfirst.compacted⟩
  · split
    · exact compact_later
    · generalize UInt16.ofNat _ = w
      have hboth := (append_first_later (c := c) w).trans
        (append_later (~~~c.eeprom.word (a / 2)))
      split_ifs <;> exact ⟨hboth.slips, hboth.compacted⟩

theorem changed_byte_later (changed : Bool) (a : Nat) :
    Later c (c.write_changed_byte cfg changed a).2 := by
  unfold write_changed_byte
  split
  · exact log_byte_later a
  · exact slip_later _ _

theorem write_byte_later (Address : UInt16) (v : UInt8) :
    Later c (c.EEPROM_WriteDataByte cfg Address v).2 := by
  unfold EEPROM_WriteDataByte
  dsimp only
  split
  · exact .refl c
  · split
    · exact slip_later _ _
    · have hcache : Later c (c.cache Address.toNat v) := ⟨fun _ he => he, id⟩
      have hdirect := hcache.trans (direct_later Address)
      split
      · exact hdirect
      · refine hdirect.trans ?_
        split
        · exact log_byte_later _
        · exact log_word_later _

/-! ## Writes -/

/-- What a write leaves of a chip whose flash keeps `d`: the cache is `buf`, and the flash
keeps each byte as it was or as it is in the cache. Without a compaction only bytes
that the write covers change. -/
structure Wrote (cfg : Config) (c : Chip) (d : Nat → UInt8) (covered : Nat → Prop)
    (buf : Nat → UInt8) (c' : Chip) : Prop where
  done : c.Done → c'.Done
  data : c'.eeprom.DataBuf = buf
  kept : ∃ d', Kept cfg c' d' ∧ (c'.compacted = false → ∀ a < cfg.FEE_DENSITY_BYTES,
    (¬ covered a → d' a = d a) ∧ (d' a = d a ∨ d' a = buf a))

theorem Kept.cache (h : c.Kept cfg d) (a : Nat) (v : UInt8) : (c.cache a v).Kept cfg d := by
  refine ⟨h.keeps, h.room, fun b hb hahead => ?_, h.clean⟩
  rcases eq_or_ne b a with rfl | hba
  · simp [Chip.cache] at hahead
  · simp only [Chip.cache, Function.update_of_ne hba] at hahead ⊢
    exact h.ahead b hb hahead

theorem Kept.cache_word (h : c.Kept cfg d) (a : Nat) (w : UInt16) :
    (c.cache_word a w).Kept cfg d := by
  refine ⟨h.keeps, h.room, fun b hb hahead => ?_, h.clean⟩
  simp only [Chip.cache_word, Bool.or_eq_false_iff, bne_eq_false_iff_eq] at hahead
  exact hahead.2.trans (h.ahead b hb hahead.1)

theorem Kept.slip (h : c.Kept cfg d) (b : Bool) (e : Slip) : (c.slip b e).Kept cfg d := by
  unfold Chip.slip
  split
  · exact ⟨h.keeps, h.room, h.ahead, h.clean⟩
  · exact h

variable {buf : Nat → UInt8}

theorem Leaves.wrote {k : Nat} {c0 : Chip} (h : Leaves cfg c d k c') (hdone : c0.Done → c.Done)
    (hbuf : c.eeprom.DataBuf = buf) (hslips : .behind_gap ∉ c'.slips) :
    Wrote cfg c0 d (fun a => a / 2 = k) buf c' := by
  obtain ⟨d', hkept, heither, honly⟩ := h.kept hslips
  exact ⟨fun hd => h.done (hdone hd), h.data.trans hbuf, d', hkept,
    fun hcompacted a ha => ⟨honly hcompacted a ha, hbuf ▸ heither a ha⟩⟩

theorem Kept.unchanged (h : c.Kept cfg d) (covered : Nat → Prop) :
    Wrote cfg c d covered c.eeprom.DataBuf c :=
  ⟨id, rfl, d, h, fun _ _ _ => ⟨fun _ => rfl, .inl rfl⟩⟩

theorem Kept.skip (h : c.Kept cfg d) (covered : Nat → Prop) (a : Nat) :
    Wrote cfg c d covered c.eeprom.DataBuf (c.skip a) ∧
      (∀ b, c.ahead b = false → (c.skip a).ahead b = false) ∧
      (.skipped ∉ (c.skip a).slips → (c.skip a).ahead a = false) := by
  refine ⟨⟨fun hd n => ?_, ?_, d, h.slip _ _, fun _ _ _ => ⟨fun _ => rfl, .inl rfl⟩⟩, ?_, ?_⟩
  · simpa [Chip.skip] using hd n
  · simp [Chip.skip]
  · intro b hb
    simpa [Chip.skip] using hb
  · intro hskipped
    simp only [Chip.skip, mem_slip, and_true, not_or, Bool.not_eq_true] at hskipped
    simpa [Chip.skip] using hskipped.1

theorem succeeded_some {status : FLASH_Status} (h : succeeded (some status) = true) :
    status = .FLASH_COMPLETE := by
  simpa [succeeded] using h

variable {r : Option FLASH_Status × Chip}

/-- A write of a byte. When it reports no error and leaves nothing out, its byte is not
ahead of the flash. -/
theorem write_byte_spec (h : c.Kept cfg d) (hsize : cfg.FEE_DENSITY_BYTES ≤ FEE_ADDRESS_MAX_SIZE)
    (Address : UInt16) (v : UInt8) (hr : r = c.EEPROM_WriteDataByte cfg Address v)
    (hadmitted : c.Done ∨ r.2.compacted = false) (hslips : .behind_gap ∉ r.2.slips) :
    Wrote cfg c d (fun a => a / 2 = Address.toNat / 2)
      (flat_write cfg c.eeprom.DataBuf (Address.toNat, v)) r.2 ∧
    (∀ a < cfg.FEE_DENSITY_BYTES, a ≠ Address.toNat → c.ahead a = false →
      r.2.ahead a = false) ∧
    (Address.toNat < cfg.FEE_DENSITY_BYTES → succeeded r.1 = true → .skipped ∉ r.2.slips →
      r.2.ahead Address.toNat = false) := by
  unfold EEPROM_WriteDataByte at hr
  by_cases ha : Address.toNat < cfg.FEE_DENSITY_BYTES
  · rw [if_neg (by omega)] at hr
    simp only [flat_write, if_pos ha]
    by_cases hsame : c.eeprom.DataBuf Address.toNat = v
    · rw [if_pos hsame] at hr
      obtain ⟨hwrote, hahead, hpresent⟩ :=
        h.skip (fun a => a / 2 = Address.toNat / 2) Address.toNat
      rw [← hsame, Function.update_eq_self, hr]
      exact ⟨hwrote, fun a _ _ => hahead a, fun _ _ => hpresent⟩
    · rw [if_neg hsame] at hr
      have hcache := h.cache Address.toNat v
      have hkeep : ∀ a, a ≠ Address.toNat → c.ahead a = false →
          (c.cache Address.toNat v).ahead a = false := by
        intro a hne hahead
        simpa [Chip.cache, hne] using hahead
      by_cases hempty : c.eeprom.flash (Address.toNat / 2) = FEE_EMPTY_WORD
      · obtain ⟨hleaves, status, hstatus, hpresent⟩ := direct_leaves hcache ha hempty
        simp only [hstatus] at hr
        rw [hr] at hslips ⊢
        refine ⟨hleaves.wrote id rfl hslips, fun a ha' hne hahead =>
          hleaves.ahead a ha' (hkeep a hne hahead), fun _ hsucceeded _ => ?_⟩
        exact hpresent (succeeded_some hsucceeded) _ rfl
      · have hdirect : (c.cache Address.toNat v).eeprom_write_direct_entry Address =
            (none, c.cache Address.toNat v) := if_neg hempty
        simp only [hdirect] at hr
        by_cases hlow : Address.toNat < FEE_BYTE_RANGE
        · rw [if_pos hlow] at hr
          rw [hr] at hadmitted hslips ⊢
          obtain ⟨hleaves, hpresent, -⟩ := log_byte_leaves hcache hlow ha (.inl hempty) hadmitted
          exact ⟨hleaves.wrote id rfl hslips, fun a ha' hne hahead =>
            hleaves.ahead a ha' (hkeep a hne hahead), fun _ hsucceeded _ =>
            hpresent (succeeded_some hsucceeded)⟩
        · rw [if_neg hlow] at hr
          rw [hr] at hadmitted hslips ⊢
          simp only [FEE_BYTE_RANGE] at hlow
          obtain ⟨hleaves, hpresent⟩ := log_word_leaves hcache (k := Address.toNat / 2)
            (by simp only [FEE_BYTE_RANGE]; omega) (by omega) hsize hempty hadmitted
          exact ⟨hleaves.wrote id rfl hslips, fun a ha' hne hahead =>
            hleaves.ahead a ha' (hkeep a hne hahead), fun _ hsucceeded _ =>
            hpresent (succeeded_some hsucceeded) _ ha rfl⟩
  · rw [if_pos (by omega)] at hr
    simp only [flat_write, if_neg ha]
    rw [hr]
    exact ⟨h.unchanged _, fun _ _ _ => id, fun ha' => absurd ha' ha⟩

theorem changed_byte_leaves (h : c.Kept cfg d) (changed : Bool) {a : Nat}
    (hlow : a < FEE_BYTE_RANGE) (ha : a < cfg.FEE_DENSITY_BYTES)
    (hready : changed = true →
      c.eeprom.flash (a / 2) ≠ FEE_EMPTY_WORD ∨ cfg.log_last ≤ c.eeprom.empty_slot)
    (hadmitted : c.Done ∨ (c.write_changed_byte cfg changed a).2.compacted = false) :
    let r := c.write_changed_byte cfg changed a
    Leaves cfg c d (a / 2) r.2 ∧
      (r.1 = .FLASH_COMPLETE → .skipped ∉ r.2.slips → r.2.ahead a = false) := by
  cases changed with
  | true =>
    obtain ⟨hleaves, hpresent, -⟩ := log_byte_leaves h hlow ha (hready rfl) hadmitted
    exact ⟨hleaves, fun hstatus _ => hpresent hstatus⟩
  | false =>
    obtain ⟨hwrote, hahead, hpresent⟩ := h.skip (fun _ => True) a
    exact ⟨⟨hwrote.done, hwrote.data, fun b _ => hahead b, fun _ =>
      ⟨d, h.slip _ _, fun _ _ => .inl rfl, fun _ _ _ _ => rfl⟩⟩, fun _ => hpresent⟩

/-- The second byte of a word can be logged after the first one, unless a compaction
leaves the half-word erased and the log room. -/
theorem changed_byte_ready (h : c.Kept cfg d) (changed : Bool) {a : Nat}
    (hlow : a < FEE_BYTE_RANGE) (ha : a < cfg.FEE_DENSITY_BYTES)
    (hprogrammed : c.eeprom.flash (a / 2) ≠ FEE_EMPTY_WORD)
    (hadmitted : c.Done ∨ (c.write_changed_byte cfg changed a).2.compacted = false)
    (hapart : changed = true → cfg.log_last ≤ c.eeprom.empty_slot → c.eeprom.word (a / 2) = 0 →
      cfg.log_last ≤ cfg.log_base) :
    let r := c.write_changed_byte cfg changed a
    r.2.eeprom.flash (a / 2) ≠ FEE_EMPTY_WORD ∨ cfg.log_last ≤ r.2.eeprom.empty_slot := by
  cases changed with
  | true =>
    obtain ⟨-, -, hflash⟩ := log_byte_leaves h hlow ha (.inl hprogrammed) hadmitted
    have hr : c.write_changed_byte cfg true a = c.eeprom_write_log_byte_entry cfg a := rfl
    rw [hr]
    split at hflash
    · rename_i hfull
      by_cases hzero : c.eeprom.word (a / 2) = 0
      · exact .inr (hflash.1 ▸ hapart rfl hfull hzero)
      · left
        rw [hflash.2 _ (lt_log_base ha)]
        intro hempty
        apply hzero
        rw [← UInt16.not_not (a := c.eeprom.word (a / 2)), hempty]
        decide
    · exact .inl (hflash _ (lt_log_base ha) ▸ hprogrammed)
  | false =>
    left
    simpa [write_changed_byte, Chip.skip] using hprogrammed

/-- Both bytes of a word in the low addresses, which the cache has and the flash may
lack. -/
theorem both_bytes_leaves (h : c.Kept cfg d) (lo hi : Bool) {a : Nat} (heven : a % 2 = 0)
    (hlow : a < FEE_BYTE_RANGE) (ha : a < cfg.FEE_DENSITY_BYTES)
    (hprogrammed : c.eeprom.flash (a / 2) ≠ FEE_EMPTY_WORD)
    (hapart : lo = true → hi = true → cfg.log_last ≤ c.eeprom.empty_slot →
      c.eeprom.word (a / 2) = 0 → cfg.log_last ≤ cfg.log_base) {r r' : FLASH_Status × Chip}
    (hr : r = c.write_changed_byte cfg lo a) (hr' : r' = r.2.write_changed_byte cfg hi (a + 1))
    (hadmitted : c.Done ∨ r'.2.compacted = false) (hslips : .behind_gap ∉ r'.2.slips) :
    Leaves cfg c d (a / 2) r'.2 ∧ (r.1 = .FLASH_COMPLETE → r'.1 = .FLASH_COMPLETE →
      .skipped ∉ r'.2.slips → ∀ b, b / 2 = a / 2 → r'.2.ahead b = false) := by
  have hlater : Later r.2 r'.2 := hr' ▸ changed_byte_later hi (a + 1)
  have hadmitted₁ : c.Done ∨ r.2.compacted = false := hadmitted.imp_right hlater.not_compacted
  have heven' := cfg.density_even
  have hk : (a + 1) / 2 = a / 2 := by omega
  obtain ⟨hleaves, hpresent⟩ :=
    changed_byte_leaves h lo hlow ha (fun _ => .inl hprogrammed) (hr ▸ hadmitted₁)
  rw [← hr] at hleaves hpresent
  obtain ⟨d', hkept, heither, honly⟩ := hleaves.kept fun he => hslips (hlater.slips _ he)
  have hready : hi = true → r.2.eeprom.flash ((a + 1) / 2) ≠ FEE_EMPTY_WORD ∨
      cfg.log_last ≤ r.2.eeprom.empty_slot := by
    intro hchanged
    rw [hk, hr]
    exact changed_byte_ready h lo hlow ha hprogrammed (hr ▸ hadmitted₁) fun hlo =>
      hapart hlo hchanged
  have hlow' : a + 1 < FEE_BYTE_RANGE := by
    simp only [FEE_BYTE_RANGE] at hlow ⊢
    omega
  obtain ⟨hleaves', hpresent'⟩ := changed_byte_leaves hkept hi hlow' (by omega) hready
    (hr' ▸ hadmitted.imp_left hleaves.done)
  rw [← hr', hk] at hleaves'
  rw [← hr'] at hpresent'
  obtain ⟨d'', hkept', heither', honly'⟩ := hleaves'.kept hslips
  refine ⟨⟨fun hd => hleaves'.done (hleaves.done hd), hleaves'.data.trans hleaves.data,
    fun b hb hahead => hleaves'.ahead b hb (hleaves.ahead b hb hahead),
    fun _ => ⟨d'', hkept', fun b hb => ?_, fun hcompacted b hb hne => ?_⟩⟩, ?_⟩
  · rcases heither' b hb with h' | h'
    · exact h' ▸ heither b hb
    · exact .inr (h'.trans (congrFun hleaves.data b))
  · exact (honly' hcompacted b hb hne).trans (honly (hlater.not_compacted hcompacted) b hb hne)
  · intro hstatus hstatus' hskipped b hb
    obtain rfl | rfl : b = a ∨ b = a + 1 := by omega
    · exact hleaves'.ahead b ha (hpresent hstatus fun he => hskipped (hlater.slips _ he))
    · exact hpresent' hstatus' hskipped

/-- A word write that does not compact between two bytes of a programmed half-word. -/
def Apart (cfg : Config) (c : Chip) (Address DataWord : UInt16) : Prop :=
  ¬ (CompactsBetween cfg c.eeprom Address DataWord ∧
    c.eeprom.flash (Address.toNat / 2) ≠ FEE_EMPTY_WORD)

variable {Address DataWord : UInt16}

theorem write_aligned_word_spec (h : c.Kept cfg d)
    (hsize : cfg.FEE_DENSITY_BYTES ≤ FEE_ADDRESS_MAX_SIZE)
    (ha : Address.toNat < cfg.FEE_DENSITY_BYTES) (heven : Address.toNat % 2 = 0)
    (hapart : c.Apart cfg Address DataWord) (hr : r = c.write_aligned_word cfg Address DataWord)
    (hadmitted : c.Done ∨ r.2.compacted = false) (hslips : .behind_gap ∉ r.2.slips) :
    Wrote cfg c d (fun a => a / 2 = Address.toNat / 2)
      (putWord c.eeprom.DataBuf Address.toNat DataWord) r.2 ∧
    (succeeded r.1 = true → .skipped ∉ r.2.slips →
      ∀ a < cfg.FEE_DENSITY_BYTES, a / 2 = Address.toNat / 2 → r.2.ahead a = false) := by
  generalize hk : Address.toNat / 2 = k at *
  have ha2 : Address.toNat = 2 * k := by omega
  unfold write_aligned_word at hr
  dsimp only at hr
  rw [hk] at hr
  by_cases hsame : c.eeprom.word k = DataWord
  · rw [if_pos hsame] at hr
    have hput : putWord c.eeprom.DataBuf Address.toNat DataWord = c.eeprom.DataBuf := by
      rw [ha2, ← hsame]
      exact putWord_word fun _ _ => rfl
    rw [hput, hr]
    refine ⟨⟨fun hd n => ?_, ?_, d, (h.slip _ _).slip _ _, fun _ _ _ => ⟨fun _ => rfl, .inl rfl⟩⟩,
      fun _ hskipped a _ hak => ?_⟩
    · simpa [Chip.skip] using hd n
    · simp [Chip.skip]
    · simp only [Chip.skip, mem_slip, and_true, slip_ahead, not_or, Bool.not_eq_true] at hskipped ⊢
      obtain rfl | rfl : a = Address.toNat ∨ a = Address.toNat + 1 := by omega
      · exact hskipped.2.1
      · exact hskipped.1
  · rw [if_neg hsame] at hr
    have hcache := h.cache_word Address.toNat DataWord
    have hword : (c.cache_word Address.toNat DataWord).eeprom.word k = DataWord := by
      simp only [Chip.cache_word, Eeprom.word, putWord, ha2]
      rw [Function.update_of_ne (by omega), Function.update_self, Function.update_self,
        halfWord_bytes]
    by_cases hempty : c.eeprom.flash k = FEE_EMPTY_WORD
    · obtain ⟨hleaves, status, hstatus, hpresent⟩ := direct_leaves hcache ha (hk ▸ hempty)
      simp only [hstatus] at hr
      rw [hr] at hslips ⊢
      rw [hk] at hleaves hpresent
      exact ⟨hleaves.wrote id rfl hslips, fun hsucceeded _ a _ hak =>
        hpresent (succeeded_some hsucceeded) a hak⟩
    · have hdirect : (c.cache_word Address.toNat DataWord).eeprom_write_direct_entry Address =
          (none, c.cache_word Address.toNat DataWord) := if_neg (hk ▸ hempty)
      simp only [hdirect] at hr
      by_cases hlow : Address.toNat < FEE_BYTE_RANGE
      · rw [if_pos hlow] at hr
        have hroom : (lowByte (c.eeprom.word k) != lowByte DataWord) = true →
            (highByte (c.eeprom.word k) != highByte DataWord) = true →
            cfg.log_last ≤ c.eeprom.empty_slot → DataWord = 0 → cfg.log_last ≤ cfg.log_base := by
          intro hlo hhi hfull hzero
          by_contra hroom
          simp only [bne_iff_ne, Eeprom.word, lowByte_halfWord, highByte_halfWord, hzero, ← ha2]
            at hlo hhi
          exact hapart ⟨⟨heven, hlow, ha, hzero, hlo, hhi, hfull, by omega⟩, hk ▸ hempty⟩
        rw [hr] at hadmitted hslips ⊢
        obtain ⟨hleaves, hpresent⟩ := both_bytes_leaves hcache _ _ heven hlow ha (hk ▸ hempty)
          (by rw [hk, hword]; exact hroom) rfl rfl hadmitted hslips
        rw [hk] at hleaves hpresent
        refine ⟨hleaves.wrote id rfl hslips, fun hsucceeded hskipped a _ hak => ?_⟩
        have hstatus := succeeded_some hsucceeded
        split at hstatus
        · rename_i hfailed
          exact absurd hstatus hfailed
        · rename_i hdone
          exact hpresent hstatus (not_not.mp hdone) hskipped a hak
      · rw [if_neg hlow] at hr
        have hlog := log_word_leaves hcache (k := k) (by omega) (by omega) hsize hempty
        rw [← ha2] at hlog
        rw [hr] at hadmitted hslips ⊢
        obtain ⟨hleaves, hpresent⟩ := hlog hadmitted
        exact ⟨hleaves.wrote id rfl hslips, fun hsucceeded _ => hpresent (succeeded_some hsucceeded)⟩

theorem flat_write_of_ne {f : Nat → UInt8} {w : Nat × UInt8} {a : Nat} (h : a ≠ w.1) :
    flat_write cfg f w a = f a := by
  unfold flat_write
  split
  · exact Function.update_of_ne h _ _
  · rfl

/-- The two bytes of a word at an odd address, which are in two half-words. -/
theorem write_odd_word_spec (h : c.Kept cfg d)
    (hsize : cfg.FEE_DENSITY_BYTES ≤ FEE_ADDRESS_MAX_SIZE)
    (ha : Address.toNat < cfg.FEE_DENSITY_BYTES) (hodd : Address.toNat % 2 ≠ 0)
    (hr : r = c.EEPROM_WriteDataWord cfg Address DataWord)
    (hadmitted : c.Done ∨ r.2.compacted = false) (hslips : .behind_gap ∉ r.2.slips) :
    Wrote cfg c d (fun a => a / 2 = Address.toNat / 2 ∨ a / 2 = (Address.toNat + 1) / 2)
      ([(Address.toNat, lowByte DataWord), (Address.toNat + 1, highByte DataWord)].foldl
        (flat_write cfg) c.eeprom.DataBuf) r.2 ∧
    (succeeded r.1 = true → r.2.slips = [] → r.2.ahead Address.toNat = false ∧
      (Address.toNat + 1 < cfg.FEE_DENSITY_BYTES → r.2.ahead (Address.toNat + 1) = false)) := by
  have hnext : (Address + 1).toNat = Address.toNat + 1 := by
    simp only [FEE_ADDRESS_MAX_SIZE] at hsize
    rw [UInt16.toNat_add, UInt16.toNat_one]
    omega
  rw [EEPROM_WriteDataWord, if_neg (by omega), if_pos hodd] at hr
  generalize hr₁ : c.EEPROM_WriteDataByte cfg Address (lowByte DataWord) = r₁ at hr
  dsimp only at hr
  generalize hr₂ : r₁.2.EEPROM_WriteDataByte cfg (Address + 1) (highByte DataWord) = r₂ at hr
  have hlater : Later r₁.2 r₂.2 := hr₂ ▸ write_byte_later _ _
  have hcompacted : r.2.compacted = r₂.2.compacted := by simp [hr]
  have hslips₂ : ∀ e ∈ r₂.2.slips, e ∈ r.2.slips := by
    intro e he
    rw [hr]
    exact (mem_slip _).mpr (.inr he)
  obtain ⟨hwrote₁, -, hpresent₁⟩ := write_byte_spec h hsize Address (lowByte DataWord) hr₁.symm
    (hadmitted.imp_right fun hc => hlater.not_compacted (hcompacted ▸ hc))
    fun he => hslips (hslips₂ _ (hlater.slips _ he))
  obtain ⟨d₁, hkept₁, honly₁⟩ := hwrote₁.kept
  obtain ⟨hwrote₂, hahead₂, hpresent₂⟩ := write_byte_spec hkept₁ hsize (Address + 1)
    (highByte DataWord) hr₂.symm (hadmitted.imp hwrote₁.done fun hc => hcompacted ▸ hc)
    fun he => hslips (hslips₂ _ he)
  obtain ⟨d₂, hkept₂, honly₂⟩ := hwrote₂.kept
  rw [hwrote₁.data] at hwrote₂ honly₂
  rw [hnext] at hwrote₂ hahead₂ hpresent₂ honly₂
  have hdata : r.2.eeprom.DataBuf = r₂.2.eeprom.DataBuf := by simp [hr]
  refine ⟨⟨fun hd n => ?_, hdata.trans hwrote₂.data, d₂, ?_, fun hc a ha' => ?_⟩,
    fun hsucceeded hempty => ?_⟩
  · have := hwrote₂.done (hwrote₁.done hd) n
    simpa [hr] using this
  · rw [hr]
    exact hkept₂.slip _ _
  · rw [hcompacted] at hc
    obtain ⟨hsame₁, hor₁⟩ := honly₁ (hlater.not_compacted hc) a ha'
    obtain ⟨hsame₂, hor₂⟩ := honly₂ hc a ha'
    refine ⟨fun hout => (hsame₂ fun h' => hout (.inr h')).trans (hsame₁ fun h' => hout (.inl h')),
      ?_⟩
    by_cases hin : a / 2 = (Address.toNat + 1) / 2
    · rw [hsame₁ (by omega)] at hor₂
      exact hor₂
    · rw [hsame₂ hin]
      refine hor₁.imp_right fun hnew => hnew.trans ?_
      exact (flat_write_of_ne fun heq => hin (by rw [heq])).symm
  · simp only [hr] at hsucceeded hempty ⊢
    have hnone : ∀ e, e ∉ r₂.2.slips := by
      intro e he
      have := hslips₂ e he
      simp [hr, hempty] at this
    -- neither of the two writes reports an error
    have hboth : succeeded r₁.1 = true ∧ succeeded r₂.1 = true := by
      split at hsucceeded
      · rename_i hfailed
        have hzero : r₂.1 = none := by
          simpa [succeeded, hfailed] using hsucceeded
        refine ⟨?_, hsucceeded⟩
        by_contra hdropped
        have : Slip.error_dropped ∈ (r₂.2.slip (decide (r₂.1 = none) && !succeeded r₁.1)
            .error_dropped).slips := by
          rw [mem_slip]
          exact .inl ⟨by simpa [hzero] using hdropped, rfl⟩
        simp [hempty] at this
      · rename_i hdone
        exact ⟨hsucceeded, by rw [not_not.mp hdone]; decide⟩
    refine ⟨?_, fun ha' => ?_⟩
    · rw [slip_ahead]
      refine hahead₂ _ ha (by omega) (hpresent₁ ha hboth.1 fun he => ?_)
      exact hnone _ (hlater.slips _ he)
    · rw [slip_ahead]
      exact hpresent₂ ha' hboth.2 (hnone _)

/-- The byte is in a half-word that the call writes. -/
def covers (call : Call) (a : Nat) : Bool := call.writes.any fun w => w.1 / 2 == a / 2

def CallApart (cfg : Config) (c : Chip) : Call → Prop
  | .byte _ _ => True
  | .word Address DataWord => c.Apart cfg Address DataWord

instance (cfg : Config) (c : Chip) : DecidablePred (CallApart cfg c)
  | .byte _ _ => inferInstanceAs (Decidable True)
  | .word _ _ => inferInstanceAs (Decidable (¬ (_ ∧ _)))

theorem Wrote.mono {covered covered' : Nat → Prop} (h : Wrote cfg c d covered buf c')
    (himp : ∀ a, covered a → covered' a) : Wrote cfg c d covered' buf c' := by
  obtain ⟨d', hkept, honly⟩ := h.kept
  exact ⟨h.done, h.data, d', hkept, fun hcompacted a ha =>
    ⟨fun hout => (honly hcompacted a ha).1 fun hin => hout (himp a hin), (honly hcompacted a ha).2⟩⟩

/-- A call whose programs may fail. The bytes of one that reports no error and makes no
slip are not ahead of the flash. -/
theorem run_spec (h : c.Kept cfg d) (hsize : cfg.FEE_DENSITY_BYTES ≤ FEE_ADDRESS_MAX_SIZE)
    {call : Call} (hapart : c.CallApart cfg call) {fates : Nat → FLASH_Status}
    (hr : r = c.run cfg call fates)
    (hadmitted : (∀ i, fates i = .FLASH_COMPLETE) ∨ r.2.compacted = false)
    (hslips : .behind_gap ∉ r.2.slips) :
    Wrote cfg { c with fates, compacted := false, slips := [] } d (fun a => covers call a = true)
      (call.writes.foldl (flat_write cfg) c.eeprom.DataBuf) r.2 ∧
    (succeeded r.1 = true → r.2.slips = [] → ∀ p ∈ call.writes, p.1 < cfg.FEE_DENSITY_BYTES →
      r.2.ahead p.1 = false) := by
  have h0 : Kept cfg { c with fates, compacted := false, slips := [] } d :=
    ⟨h.keeps, h.room, h.ahead, h.clean⟩
  have heven := cfg.density_even
  cases call with
  | byte Address v =>
    obtain ⟨hwrote, -, hpresent⟩ := write_byte_spec h0 hsize Address v hr hadmitted hslips
    refine ⟨hwrote.mono fun a hin => ?_, fun hsucceeded hempty p hp hlt => ?_⟩
    · simp [covers, Call.writes, hin]
    · obtain rfl := List.mem_singleton.mp hp
      exact hpresent hlt hsucceeded (by simp [hempty])
  | word Address DataWord =>
    by_cases ha : Address.toNat < cfg.FEE_DENSITY_BYTES
    · by_cases hodd : Address.toNat % 2 ≠ 0
      · obtain ⟨hwrote, hpresent⟩ := write_odd_word_spec h0 hsize ha hodd hr hadmitted hslips
        refine ⟨hwrote.mono fun a hin => ?_, fun hsucceeded hempty p hp hlt => ?_⟩
        · rcases hin with hin | hin <;> simp [covers, Call.writes, hin]
        · obtain ⟨hfirst, hsecond⟩ := hpresent hsucceeded hempty
          simp only [Call.writes, List.mem_cons, List.not_mem_nil, or_false] at hp
          obtain rfl | rfl := hp
          · exact hfirst
          · exact hsecond hlt
      · have hr' : r = Chip.write_aligned_word cfg
            { c with fates, compacted := false, slips := [] } Address DataWord := by
          rw [hr, run, EEPROM_WriteDataWord]
          rw [if_neg (by omega), if_neg hodd]
        obtain ⟨hwrote, hpresent⟩ := write_aligned_word_spec h0 hsize ha (by omega) hapart hr'
          hadmitted hslips
        have hflat : (Call.word Address DataWord).writes.foldl (flat_write cfg) c.eeprom.DataBuf =
            putWord c.eeprom.DataBuf Address.toNat DataWord := by
          have ha' : Address.toNat + 1 < cfg.FEE_DENSITY_BYTES := by omega
          simp only [Call.writes, List.foldl_cons, List.foldl_nil, flat_write, if_pos ha,
            if_pos ha']
          rfl
        rw [hflat]
        refine ⟨hwrote.mono fun a hin => ?_, fun hsucceeded hempty p hp hlt => ?_⟩
        · simp [covers, Call.writes, hin]
        · refine hpresent hsucceeded (by simp [hempty]) p.1 hlt ?_
          simp only [Call.writes, List.mem_cons, List.not_mem_nil, or_false] at hp
          obtain rfl | rfl := hp
          · rfl
          · dsimp only
            omega
    · have hr' : r = (some .FLASH_BAD_ADDRESS, { c with fates, compacted := false, slips := [] }) := by
        rw [hr, run, EEPROM_WriteDataWord]
        rw [if_pos (by omega)]
      have ha' : ¬ Address.toNat + 1 < cfg.FEE_DENSITY_BYTES := by omega
      have hflat : (Call.word Address DataWord).writes.foldl (flat_write cfg) c.eeprom.DataBuf =
          c.eeprom.DataBuf := by
        simp only [Call.writes, List.foldl_cons, List.foldl_nil, flat_write, if_neg ha, if_neg ha']
      rw [hflat, hr']
      exact ⟨h0.unchanged _, fun hsucceeded => absurd (succeeded_some hsucceeded) (by decide)⟩

end Chip

end keychron_qmk.emulated_flash.failing
