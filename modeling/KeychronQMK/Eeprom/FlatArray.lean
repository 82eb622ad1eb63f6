-- The purpose of the emulated EEPROM: an array of bytes that an
-- `EEPROM_Init` restores from the flash, and a flash that is only programmed
-- where it is erased.
import KeychronQMK.Eeprom.TornLog
import KeychronQMK.Lib.Runs

namespace keychron_qmk.emulated_flash

open memory runs

/-! ## What the flash holds -/

/-- The flash holds the buffer `d`: the compacted area and the entries `E` of
the log give it, the log is erased behind them, and no entry is in a half-word
of the compacted area that is still erased. -/
structure Holds (cfg : Config) (flash : Nat → UInt16) (slot : Nat) (E : List (Entry cfg))
    (d : Nat → UInt8) : Prop where
  log : readBlock flash cfg.log_base (logWords E).length = logWords E
  slot_eq : slot = cfg.log_base + (logWords E).length
  room : slot ≤ cfg.log_last
  erased : ∀ i, slot ≤ i → i < cfg.log_last → flash i = FEE_EMPTY_WORD
  data : EqBelow cfg.FEE_DENSITY_BYTES (applyAll E (load_compacted cfg flash fun _ => 0)) d
  silent : ∀ k < cfg.log_base, flash k = FEE_EMPTY_WORD → ∀ e ∈ E, k ≠ e.place

/-- Every half-word was programmed where it was erased, and in the two areas. -/
def Clean (cfg : Config) (s : Eeprom) : Prop :=
  ∀ p ∈ s.programmed, p.2 = FEE_EMPTY_WORD ∧ p.1 < cfg.log_last

/-- The flash of a state holds the buffer `d`, and was programmed as it should. -/
structure Synced (cfg : Config) (s : Eeprom) (d : Nat → UInt8) : Prop where
  holds : ∃ E, Holds cfg s.flash s.empty_slot E d
  clean : Clean cfg s

section

variable {cfg : Config} {flash : Nat → UInt16} {slot : Nat} {E : List (Entry cfg)}
  {d d' : Nat → UInt8} {s : Eeprom}

theorem holds_iff :
    Holds cfg flash slot E d ↔ Keeps cfg flash slot (E.map .whole) d := by
  have hwords : itemWords (E.map .whole) = logWords E := by
    simp only [itemWords, logWords, List.flatMap_map]
    rfl
  have hitems : ∀ d0 : Nat → UInt8, applyItems (E.map .whole) d0 = applyAll E d0 := by
    intro d0
    simp only [applyItems, applyAll, List.foldl_map]
    rfl
  constructor
  · intro h
    refine ⟨hwords ▸ h.log, hwords ▸ h.slot_eq, h.room, h.erased, hitems _ ▸ h.data, ?_⟩
    intro k hk hempty
    rw [List.forall_mem_map]
    exact h.silent k hk hempty
  · intro h
    refine ⟨hwords ▸ h.log, hwords ▸ h.slot_eq, h.room, h.erased, hitems _ ▸ h.data, ?_⟩
    intro k hk hempty
    have hsilent := h.silent k hk hempty
    rw [List.forall_mem_map] at hsilent
    exact hsilent

theorem Holds.congr (h : Holds cfg flash slot E d) (hd : EqBelow cfg.FEE_DENSITY_BYTES d d') :
    Holds cfg flash slot E d' :=
  ⟨h.log, h.slot_eq, h.room, h.erased, h.data.trans hd, h.silent⟩

theorem Synced.congr (h : Synced cfg s d) (hd : EqBelow cfg.FEE_DENSITY_BYTES d d') :
    Synced cfg s d' := by
  obtain ⟨⟨E, hE⟩, hclean⟩ := h
  exact ⟨⟨E, hE.congr hd⟩, hclean⟩

theorem Holds.init (h : Holds cfg s.flash slot E d) :
    EqBelow cfg.FEE_DENSITY_BYTES (EEPROM_Init cfg s).DataBuf d ∧
      (EEPROM_Init cfg s).empty_slot = slot :=
  (holds_iff.mp h).init

theorem Holds.synced_init (h : Holds cfg s.flash slot E d) (hclean : Clean cfg s) :
    Synced cfg (EEPROM_Init cfg s) d := by
  refine ⟨⟨E, ?_⟩, hclean⟩
  rw [h.init.2]
  exact h

/-! ## Erasing and compacting -/

theorem erase_pages (cfg : Config) (s : Eeprom) (n i : Nat) :
    ((List.range n).foldl (FLASH_ErasePage cfg) s).flash i =
      if 2 * i < n * cfg.FEE_PAGE_SIZE then FEE_EMPTY_WORD else s.flash i := by
  induction n with
  | zero => simp
  | succ n ih =>
    rw [List.range_succ, List.foldl_append, List.foldl_cons, List.foldl_nil]
    simp only [FLASH_ErasePage, ih, Nat.succ_mul]
    split_ifs <;> first | rfl | omega

theorem erase_pages_keeps (cfg : Config) (s : Eeprom) (n : Nat) :
    ((List.range n).foldl (FLASH_ErasePage cfg) s).DataBuf = s.DataBuf ∧
      ((List.range n).foldl (FLASH_ErasePage cfg) s).programmed = s.programmed := by
  induction n with
  | zero => exact ⟨rfl, rfl⟩
  | succ n ih =>
    rw [List.range_succ, List.foldl_append]
    exact ih

theorem clear_flash (cfg : Config) (s : Eeprom) {i : Nat} (hi : i < cfg.log_last) :
    (eeprom_clear cfg s).flash i = FEE_EMPTY_WORD := by
  have hfits := cfg.fits
  unfold Config.log_last at hi
  exact (erase_pages cfg s cfg.FEE_PAGE_COUNT i).trans (if_pos (by omega))

theorem holds_erased (h : ∀ i < cfg.log_last, flash i = FEE_EMPTY_WORD) :
    Holds cfg flash cfg.log_base [] fun _ => 0 where
  log := rfl
  slot_eq := rfl
  room := log_base_le cfg
  erased i _ hi := h i hi
  data a ha := by
    have hflash := h (a / 2) (Nat.lt_of_lt_of_le (lt_log_base ha) (log_base_le cfg))
    simp only [applyAll, List.foldl_nil, load_compacted, if_pos ha, hflash]
    split <;> decide
  silent _ _ _ e he := absurd he List.not_mem_nil

theorem clear_synced (h : Clean cfg s) : Synced cfg (eeprom_clear cfg s) fun _ => 0 := by
  refine ⟨⟨[], holds_erased fun i hi => clear_flash cfg s hi⟩, ?_⟩
  unfold Clean
  rw [show (eeprom_clear cfg s).programmed = s.programmed from (erase_pages_keeps cfg s _).2]
  exact h

theorem erased_and (w : UInt16) : FEE_EMPTY_WORD &&& w = w := by
  exact UInt16.neg_one_and

/-- The first `n` turns of the loop of `eeprom_compact`. -/
theorem compact_words (hclear : ∀ i < cfg.log_last, s.flash i = FEE_EMPTY_WORD)
    (hclean : Clean cfg s) {n : Nat} (hn : n ≤ cfg.log_base) :
    let t := (List.range n).foldl compact_word s
    t.DataBuf = s.DataBuf ∧ t.empty_slot = s.empty_slot ∧ Clean cfg t ∧
      (∀ k < n, t.flash k = ~~~s.word k) ∧ ∀ k, n ≤ k → t.flash k = s.flash k := by
  induction n with
  | zero => exact ⟨rfl, rfl, hclean, fun k hk => absurd hk (Nat.not_lt_zero k), fun _ _ => rfl⟩
  | succ n ih =>
    obtain ⟨hdata, hslot, hprogrammed, hdone, hrest⟩ := ih (by omega)
    rw [List.range_succ, List.foldl_append, List.foldl_cons, List.foldl_nil]
    generalize (List.range n).foldl compact_word s = t at *
    have hword : t.word n = s.word n := by simp only [Eeprom.word, hdata]
    have hlast : n < cfg.log_last := Nat.lt_of_lt_of_le hn (log_base_le cfg)
    have hempty : t.flash n = FEE_EMPTY_WORD := (hrest n (Nat.le_refl n)).trans (hclear n hlast)
    intro t'
    have ht' : t' = compact_word t n := rfl
    unfold compact_word at ht'
    split at ht'
    · rw [ht', hword]
      refine ⟨hdata, hslot, ?_, ?_, ?_⟩
      · intro p hp
        rcases List.mem_append.mp hp with hp | hp
        · exact hprogrammed p hp
        · rw [List.mem_singleton.mp hp]
          exact ⟨hempty, hlast⟩
      · intro k hk
        simp only [FLASH_ProgramHalfWord, hempty, erased_and]
        rcases Nat.lt_succ_iff_lt_or_eq.mp hk with hk | rfl
        · rw [Function.update_of_ne (by omega), hdone k hk]
        · exact Function.update_self _ _ _
      · intro k hk
        simp only [FLASH_ProgramHalfWord]
        rw [Function.update_of_ne (by omega), hrest k (by omega)]
    · rename_i hzero
      rw [ht']
      refine ⟨hdata, hslot, hprogrammed, ?_, fun k hk => hrest k (by omega)⟩
      intro k hk
      rcases Nat.lt_succ_iff_lt_or_eq.mp hk with hk | rfl
      · exact hdone k hk
      · rw [hempty, ← hword, not_not.mp hzero]
        decide

theorem compact_synced (h : Clean cfg s) : (eeprom_compact cfg s).DataBuf = s.DataBuf ∧
    Synced cfg (eeprom_compact cfg s) s.DataBuf ∧ (eeprom_compact cfg s).empty_slot = cfg.log_base ∧
      ∀ k < cfg.log_base, (eeprom_compact cfg s).flash k = ~~~s.word k := by
  have hclear : ∀ i < cfg.log_last, (eeprom_clear cfg s).flash i = FEE_EMPTY_WORD :=
    fun i hi => clear_flash cfg s hi
  have hdata : (eeprom_clear cfg s).DataBuf = s.DataBuf := (erase_pages_keeps cfg s _).1
  have hword : ∀ k, (eeprom_clear cfg s).word k = s.word k := by
    intro k
    simp only [Eeprom.word, hdata]
  obtain ⟨hbuf, hslot, hclean, hdone, hrest⟩ :=
    compact_words hclear (clear_synced h).clean (Nat.le_refl cfg.log_base)
  simp only [hword] at hdone
  have hslot : (eeprom_compact cfg s).empty_slot = cfg.log_base := hslot
  refine ⟨hbuf.trans hdata, ⟨⟨[], ?_⟩, hclean⟩, hslot, hdone⟩
  refine ⟨rfl, hslot, hslot ▸ log_base_le cfg, ?_, ?_, fun _ _ _ e he => absurd he List.not_mem_nil⟩
  · intro i hi hlast
    exact (hrest i (hslot ▸ hi)).trans (hclear i hlast)
  · intro a ha
    change load_compacted cfg (eeprom_compact cfg s).flash (fun _ => 0) a = s.DataBuf a
    exact load_of_compacted ha (hdone _ (lt_log_base ha)) _

/-! ## Single writes -/

theorem update_eq_patch (m : Nat → UInt16) (a : Nat) (w : UInt16) :
    Function.update m a w = patch m a [w] := by
  funext i
  rcases eq_or_ne i a with rfl | hi
  · rw [Function.update_self, patch_in _ _ (Nat.le_refl i) (by simp)]
    simp
  · rw [Function.update_of_ne hi]
    rcases Nat.lt_or_gt_of_ne hi with hlt | hgt
    · exact (patch_lt _ _ hlt).symm
    · exact (patch_ge _ _ (by simp; omega)).symm

theorem Holds.append (h : Holds cfg flash slot E d) (e : Entry cfg)
    (hroom : slot + e.words.length ≤ cfg.log_last)
    (hprogrammed : flash e.place ≠ FEE_EMPTY_WORD) :
    Holds cfg (patch flash slot e.words) (slot + e.words.length) (E ++ [e]) (e.apply d) := by
  rw [holds_iff, List.map_append]
  refine (holds_iff.mp h).append (.whole e) hroom ?_
  rintro k rfl
  exact hprogrammed

theorem append_spec (h : s.flash s.empty_slot = FEE_EMPTY_WORD)
    (hlast : s.empty_slot < cfg.log_last) (hclean : Clean cfg s) (w : UInt16) :
    (append s w).flash = patch s.flash s.empty_slot [w] ∧
      (append s w).empty_slot = s.empty_slot + 1 ∧ (append s w).DataBuf = s.DataBuf ∧
        Clean cfg (append s w) := by
  refine ⟨?_, rfl, rfl, ?_⟩
  · simp only [append, FLASH_ProgramHalfWord, h, erased_and, update_eq_patch]
  · intro p hp
    rcases List.mem_append.mp hp with hp | hp
    · exact hclean p hp
    · rw [List.mem_singleton.mp hp]
      exact ⟨h, hlast⟩

/-- What a byte write through the log leaves: a compacted cache, or an entry
more. -/
theorem log_byte_spec (h : Synced cfg s d) {a : Nat} (hlow : a < FEE_BYTE_RANGE)
    (ha : a < cfg.FEE_DENSITY_BYTES) (hprogrammed : s.flash (a / 2) ≠ FEE_EMPTY_WORD) :
    let t := eeprom_write_log_byte_entry cfg s a
    t.DataBuf = s.DataBuf ∧
      if cfg.log_last ≤ s.empty_slot then
        Synced cfg t s.DataBuf ∧ t.empty_slot = cfg.log_base ∧
          ∀ k < cfg.log_base, t.flash k = ~~~s.word k
      else
        Synced cfg t (Function.update d a (s.DataBuf a)) ∧
          ∀ k < cfg.log_base, t.flash k = s.flash k := by
  intro t
  have ht : t = eeprom_write_log_byte_entry cfg s a := rfl
  unfold eeprom_write_log_byte_entry at ht
  by_cases hfull : cfg.log_last ≤ s.empty_slot
  · rw [if_pos hfull] at ht ⊢
    rw [ht]
    exact compact_synced h.clean
  · rw [if_neg hfull] at ht ⊢
    obtain ⟨⟨E, hE⟩, hclean⟩ := h
    have hlast : s.empty_slot < cfg.log_last := by omega
    obtain ⟨hflash, hslot, hdata, hclean'⟩ :=
      append_spec (hE.erased _ (Nat.le_refl _) hlast) hlast hclean
        (.ofNat (a <<< 8 ||| (s.DataBuf a).toNat))
    rw [ht]
    refine ⟨hdata, ⟨⟨E ++ [.byte a (s.DataBuf a) hlow ha], ?_⟩, hclean'⟩, ?_⟩
    · rw [hflash, hslot]
      exact hE.append (.byte a (s.DataBuf a) hlow ha) hlast hprogrammed
    · intro k hk
      rw [hflash, patch_lt _ _ (Nat.lt_of_lt_of_le hk (hE.slot_eq ▸ Nat.le_add_right _ _))]

/-- What a word write through the log leaves. -/
theorem log_word_spec (h : Synced cfg s d) {a : Nat} (heven : a % 2 = 0)
    (hhigh : FEE_BYTE_RANGE ≤ a) (ha : a < cfg.FEE_DENSITY_BYTES)
    (hreached : a < FEE_ADDRESS_MAX_SIZE) (hprogrammed : s.flash (a / 2) ≠ FEE_EMPTY_WORD) :
    let t := eeprom_write_log_word_entry cfg s a
    t.DataBuf = s.DataBuf ∧
      (Synced cfg t s.DataBuf ∨ Synced cfg t (putWord d a (s.word (a / 2)))) := by
  intro t
  have ht : t = eeprom_write_log_word_entry cfg s a := rfl
  obtain ⟨hcompact, hsynced, -⟩ := compact_synced h.clean
  obtain ⟨⟨E, hE⟩, hclean⟩ := h
  have happend := hE.append (.word a (s.word (a / 2)) heven hhigh ha hreached)
  unfold eeprom_write_log_word_entry at ht
  dsimp only at ht
  by_cases hvalue : s.word (a / 2) ≤ 1
  · simp only [Entry.words, if_pos hvalue] at happend
    rw [if_pos hvalue] at ht
    by_cases hroom : s.empty_slot + 1 > cfg.log_last
    · rw [ht, if_pos hroom]
      exact ⟨hcompact, .inl hsynced⟩
    · rw [if_neg hroom] at ht
      have hlast : s.empty_slot < cfg.log_last := by omega
      obtain ⟨hflash, hslot, hdata, hclean'⟩ :=
        append_spec (hE.erased _ (Nat.le_refl _) hlast) hlast hclean
          (.ofNat (a >>> 1 ||| (FEE_WORD_ENCODING ||| (s.word (a / 2)).toNat <<< 13)))
      rw [ht]
      refine ⟨hdata, .inr ⟨⟨E ++ [.word a (s.word (a / 2)) heven hhigh ha hreached], ?_⟩,
        hclean'⟩⟩
      rw [hflash, hslot]
      exact happend (by simp only [List.length_singleton]; omega) hprogrammed
  · simp only [Entry.words, if_neg hvalue] at happend
    rw [if_neg hvalue] at ht
    by_cases hroom : s.empty_slot + 2 > cfg.log_last
    · rw [ht, if_pos hroom]
      exact ⟨hcompact, .inl hsynced⟩
    · rw [if_neg hroom] at ht
      have hlast : s.empty_slot < cfg.log_last := by omega
      obtain ⟨hflash, hslot, hdata, hclean'⟩ :=
        append_spec (hE.erased _ (Nat.le_refl _) hlast) hlast hclean
          (.ofNat ((a - FEE_BYTE_RANGE) >>> 1 ||| (FEE_WORD_ENCODING ||| FEE_VALUE_NEXT)))
      generalize append s _ = s1 at ht hflash hslot hdata hclean'
      have hempty1 : s1.flash s1.empty_slot = FEE_EMPTY_WORD := by
        rw [hflash, hslot, patch_ge _ _ (by simp)]
        exact hE.erased _ (by omega) (by omega)
      obtain ⟨hflash1, hslot1, hdata1, hclean1⟩ :=
        append_spec hempty1 (by omega) hclean' (~~~s.word (a / 2))
      rw [ht]
      refine ⟨hdata1.trans hdata,
        .inr ⟨⟨E ++ [.word a (s.word (a / 2)) heven hhigh ha hreached], ?_⟩, hclean1⟩⟩
      have hpatch := patch_append s.flash s.empty_slot
        [.ofNat ((a - FEE_BYTE_RANGE) >>> 1 ||| (FEE_WORD_ENCODING ||| FEE_VALUE_NEXT))]
        [~~~s.word (a / 2)]
      rw [hflash1, hslot1, hflash, hslot]
      simp only [List.length_singleton, List.cons_append, List.nil_append] at hpatch
      rw [← hpatch]
      exact happend (by simpa using Nat.not_lt.mp hroom) hprogrammed

/-- What a direct write leaves, where the flash holds the cache but for the
half-word of the write. -/
theorem direct_spec (h : Synced cfg s d) {Address : UInt16}
    (ha : Address.toNat < cfg.FEE_DENSITY_BYTES)
    (hd : ∀ a < cfg.FEE_DENSITY_BYTES, a / 2 ≠ Address.toNat / 2 → d a = s.DataBuf a) :
    match eeprom_write_direct_entry s Address with
    | some t => t.DataBuf = s.DataBuf ∧ Synced cfg t s.DataBuf
    | none => s.flash (Address.toNat / 2) ≠ FEE_EMPTY_WORD := by
  obtain ⟨⟨E, hE⟩, hclean⟩ := h
  generalize hk : Address.toNat / 2 = k at hd
  have hklt : k < cfg.log_base := hk ▸ lt_log_base ha
  have hlast : k < cfg.log_last := Nat.lt_of_lt_of_le hklt (log_base_le cfg)
  unfold eeprom_write_direct_entry
  rw [hk]
  by_cases hempty : s.flash k = FEE_EMPTY_WORD
  · -- in both cases the half-word holds the complement of the cache
    have hholds : Holds cfg (Function.update s.flash k (~~~s.word k)) s.empty_slot E s.DataBuf :=
      holds_iff.mpr ((holds_iff.mp hE).direct hklt hempty hd)
    rw [if_pos hempty]
    by_cases hzero : ~~~s.word k = FEE_EMPTY_WORD
    · rw [if_pos hzero]
      rw [hzero, ← hempty, Function.update_eq_self] at hholds
      exact ⟨rfl, ⟨E, hholds⟩, hclean⟩
    · rw [if_neg hzero]
      refine ⟨rfl, ⟨E, ?_⟩, ?_⟩
      · simpa only [FLASH_ProgramHalfWord, hempty, erased_and] using hholds
      · intro p hp
        rcases List.mem_append.mp hp with hp | hp
        · exact hclean p hp
        · rw [List.mem_singleton.mp hp]
          exact ⟨hempty, hlast⟩
  · rw [if_neg hempty]
    exact hempty

/-! ## The writes of a byte and of a word -/

def flat_write (cfg : Config) (f : Nat → UInt8) (w : Nat × UInt8) : Nat → UInt8 :=
  if w.1 < cfg.FEE_DENSITY_BYTES then Function.update f w.1 w.2 else f

theorem putWord_word {k : Nat} (hd : ∀ a, a / 2 ≠ k → d a = s.DataBuf a) :
    putWord d (2 * k) (s.word k) = s.DataBuf := by
  funext a
  simp only [putWord, Eeprom.word, lowByte_halfWord, highByte_halfWord, Function.update_apply]
  split_ifs with h1 h2
  · rw [h1]
  · rw [h2]
  · exact hd a (by omega)

theorem putWord_of_ne {a b : Nat} (heven : a % 2 = 0) (w : UInt16) (h : b / 2 ≠ a / 2) :
    putWord d a w b = d b := by
  rw [putWord, Function.update_of_ne (by omega), Function.update_of_ne (by omega)]

theorem log_word_of_cache (h : Synced cfg s d) {k : Nat} (hhigh : FEE_BYTE_RANGE ≤ 2 * k)
    (ha : 2 * k < cfg.FEE_DENSITY_BYTES) (hsize : cfg.FEE_DENSITY_BYTES ≤ FEE_ADDRESS_MAX_SIZE)
    (hd : ∀ a, a / 2 ≠ k → d a = s.DataBuf a) (hprogrammed : s.flash k ≠ FEE_EMPTY_WORD) :
    let t := eeprom_write_log_word_entry cfg s (2 * k)
    t.DataBuf = s.DataBuf ∧ Synced cfg t s.DataBuf := by
  have hk : 2 * k / 2 = k := by omega
  obtain ⟨hdata, hsynced⟩ := log_word_spec h (a := 2 * k) (by omega) hhigh ha (by omega) (by rwa [hk])
  rw [hk, putWord_word hd, or_self] at hsynced
  exact ⟨hdata, hsynced⟩

theorem log_byte_of_cache (h : Synced cfg s d) {a : Nat} (hlow : a < FEE_BYTE_RANGE)
    (ha : a < cfg.FEE_DENSITY_BYTES) (hd : ∀ b, b ≠ a → d b = s.DataBuf b)
    (hprogrammed : s.flash (a / 2) ≠ FEE_EMPTY_WORD ∨ cfg.log_last ≤ s.empty_slot) :
    let t := eeprom_write_log_byte_entry cfg s a
    t.DataBuf = s.DataBuf ∧ Synced cfg t s.DataBuf := by
  by_cases hfull : cfg.log_last ≤ s.empty_slot
  · obtain ⟨hdata, hsynced, -⟩ := compact_synced h.clean
    simp only [eeprom_write_log_byte_entry, ge_iff_le, if_pos hfull]
    exact ⟨hdata, hsynced⟩
  · obtain ⟨hdata, hcases⟩ := log_byte_spec h hlow ha (hprogrammed.resolve_right hfull)
    rw [if_neg hfull] at hcases
    have heq : Function.update d a (s.DataBuf a) = s.DataBuf := by
      funext b
      rcases eq_or_ne b a with rfl | hb
      · exact Function.update_self _ _ _
      · rw [Function.update_of_ne hb, hd b hb]
    exact ⟨hdata, heq ▸ hcases.1⟩

theorem write_byte_spec (h : Synced cfg s s.DataBuf)
    (hsize : cfg.FEE_DENSITY_BYTES ≤ FEE_ADDRESS_MAX_SIZE) (Address : UInt16) (v : UInt8) :
    let t := (EEPROM_WriteDataByte cfg s Address v).2
    Synced cfg t t.DataBuf ∧ t.DataBuf = flat_write cfg s.DataBuf (Address.toNat, v) := by
  intro t
  have ht : t = (EEPROM_WriteDataByte cfg s Address v).2 := rfl
  unfold EEPROM_WriteDataByte at ht
  dsimp only at ht
  generalize hs1 : { s with DataBuf := Function.update s.DataBuf Address.toNat v } = s1 at ht
  simp only [flat_write]
  by_cases ha : Address.toNat < cfg.FEE_DENSITY_BYTES
  · rw [if_neg (by omega)] at ht
    rw [if_pos ha]
    have hbuf : s1.DataBuf = Function.update s.DataBuf Address.toNat v := by rw [← hs1]
    by_cases hsame : s.DataBuf Address.toNat = v
    · rw [if_pos hsame] at ht
      rw [ht, ← hsame, Function.update_eq_self]
      exact ⟨h, rfl⟩
    · rw [if_neg hsame] at ht
      have h1 : Synced cfg s1 s.DataBuf := by
        rw [← hs1]
        exact ⟨h.holds, h.clean⟩
      have hother : ∀ b, b ≠ Address.toNat → s.DataBuf b = s1.DataBuf b := by
        intro b hb
        rw [hbuf, Function.update_of_ne hb]
      have hdirect := direct_spec h1 ha fun b _ hb => hother b fun he => hb (by rw [he])
      rw [← hbuf]
      suffices hgoal : t.DataBuf = s1.DataBuf ∧ Synced cfg t s1.DataBuf by
        exact ⟨hgoal.1 ▸ hgoal.2, hgoal.1⟩
      split at ht
      · rename_i u hu
        rw [hu] at hdirect
        rw [ht]
        exact hdirect
      · rename_i hu
        rw [hu] at hdirect
        by_cases hlow : Address.toNat < FEE_BYTE_RANGE
        · rw [ht, if_pos hlow]
          exact log_byte_of_cache h1 hlow ha hother (.inl hdirect)
        · rw [ht, if_neg hlow]
          simp only [FEE_BYTE_RANGE] at hlow
          refine log_word_of_cache h1 ?_ (by omega) hsize ?_ hdirect
          · simp only [FEE_BYTE_RANGE]
            omega
          · exact fun b hb => hother b fun he => hb (by rw [he])
  · rw [if_pos (by omega)] at ht
    rw [if_neg ha, ht]
    exact ⟨h, rfl⟩

/-- A word write that the log may compact between its two bytes: it writes 0
over two bytes that are not, and the log has room for a byte but is full. -/
def CompactsBetween (cfg : Config) (s : Eeprom) (Address DataWord : UInt16) : Prop :=
  Address.toNat % 2 = 0 ∧ Address.toNat < FEE_BYTE_RANGE ∧
    Address.toNat < cfg.FEE_DENSITY_BYTES ∧ DataWord = 0 ∧ s.DataBuf Address.toNat ≠ 0 ∧
      s.DataBuf (Address.toNat + 1) ≠ 0 ∧ cfg.log_last ≤ s.empty_slot ∧
        cfg.log_base < cfg.log_last

instance (cfg : Config) (s : Eeprom) (Address DataWord : UInt16) :
    Decidable (CompactsBetween cfg s Address DataWord) :=
  inferInstanceAs (Decidable (_ ∧ _))

/-- The first of the two bytes of a word in the low addresses. What the flash
holds then lacks the other byte at most, and that can still be logged. -/
theorem low_byte_spec (h : Synced cfg s d) {a : Nat} (heven : a % 2 = 0)
    (hlow : a < FEE_BYTE_RANGE) (ha : a < cfg.FEE_DENSITY_BYTES)
    (hd : ∀ b, b / 2 ≠ a / 2 → d b = s.DataBuf b)
    (hprogrammed : s.flash (a / 2) ≠ FEE_EMPTY_WORD)
    (hsafe : d a ≠ s.DataBuf a → d (a + 1) ≠ s.DataBuf (a + 1) → cfg.log_last ≤ s.empty_slot →
      s.word (a / 2) = 0 → cfg.log_last ≤ cfg.log_base) :
    let t := if d a ≠ s.DataBuf a then eeprom_write_log_byte_entry cfg s a else s
    t.DataBuf = s.DataBuf ∧ ∃ d', Synced cfg t d' ∧ (∀ b, b ≠ a + 1 → d' b = s.DataBuf b) ∧
      (d' (a + 1) = s.DataBuf (a + 1) ∨ d' (a + 1) = d (a + 1)) ∧
        (d (a + 1) ≠ s.DataBuf (a + 1) →
          t.flash (a / 2) ≠ FEE_EMPTY_WORD ∨ cfg.log_last ≤ t.empty_slot) := by
  by_cases hchanged : d a ≠ s.DataBuf a
  · rw [if_pos hchanged]
    obtain ⟨hdata, hcases⟩ := log_byte_spec h hlow ha hprogrammed
    refine ⟨hdata, ?_⟩
    split at hcases
    · rename_i hfull
      obtain ⟨hsynced, hslot, hflash⟩ := hcases
      refine ⟨s.DataBuf, hsynced, fun _ _ => rfl, .inl rfl, fun hother => ?_⟩
      by_cases hzero : s.word (a / 2) = 0
      · exact .inr (hslot ▸ hsafe hchanged hother hfull hzero)
      · left
        rw [hflash _ (lt_log_base ha)]
        intro hempty
        apply hzero
        rw [← UInt16.not_not (a := s.word (a / 2)), hempty]
        decide
    · obtain ⟨hsynced, hflash⟩ := hcases
      refine ⟨_, hsynced, fun b hb => ?_, .inr ?_, fun _ => .inl ?_⟩
      · rcases eq_or_ne b a with rfl | hba
        · exact Function.update_self _ _ _
        · rw [Function.update_of_ne hba]
          exact hd b (by omega)
      · exact Function.update_of_ne (by omega) _ _
      · rwa [hflash _ (lt_log_base ha)]
  · rw [if_neg hchanged]
    refine ⟨rfl, d, h, fun b hb => ?_, .inr rfl, fun _ => .inl hprogrammed⟩
    rcases eq_or_ne b a with rfl | hba
    · exact not_not.mp hchanged
    · exact hd b (by omega)

/-- Both bytes of a word in the low addresses. -/
theorem both_bytes_spec (h : Synced cfg s d) {a : Nat} (heven : a % 2 = 0)
    (hlow : a < FEE_BYTE_RANGE) (ha : a < cfg.FEE_DENSITY_BYTES)
    (hd : ∀ b, b / 2 ≠ a / 2 → d b = s.DataBuf b)
    (hprogrammed : s.flash (a / 2) ≠ FEE_EMPTY_WORD)
    (hsafe : d a ≠ s.DataBuf a → d (a + 1) ≠ s.DataBuf (a + 1) → cfg.log_last ≤ s.empty_slot →
      s.word (a / 2) = 0 → cfg.log_last ≤ cfg.log_base) :
    let t := if d a ≠ s.DataBuf a then eeprom_write_log_byte_entry cfg s a else s
    let t' := if d (a + 1) ≠ s.DataBuf (a + 1) then eeprom_write_log_byte_entry cfg t (a + 1)
      else t
    t'.DataBuf = s.DataBuf ∧ Synced cfg t' s.DataBuf := by
  intro t t'
  obtain ⟨hdata, d', hsynced, hd', hother, hready⟩ :=
    low_byte_spec h heven hlow ha hd hprogrammed hsafe
  have heven' := cfg.density_even
  by_cases hchanged : d (a + 1) ≠ s.DataBuf (a + 1)
  · have ht' : t' = eeprom_write_log_byte_entry cfg t (a + 1) := if_pos hchanged
    have hk : (a + 1) / 2 = a / 2 := by omega
    simp only [FEE_BYTE_RANGE] at hlow
    have hlow' : a + 1 < FEE_BYTE_RANGE := by
      simp only [FEE_BYTE_RANGE]
      omega
    obtain ⟨hdata', hsynced'⟩ := log_byte_of_cache hsynced hlow' (by omega)
      (fun b hb => (hd' b hb).trans (congrFun hdata b).symm) (hk ▸ hready hchanged)
    rw [ht']
    exact ⟨hdata'.trans hdata, hdata ▸ hsynced'⟩
  · have ht' : t' = t := if_neg hchanged
    have heq : d' = s.DataBuf := by
      funext b
      rcases eq_or_ne b (a + 1) with rfl | hb
      · exact hother.elim id fun he => he.trans (not_not.mp hchanged)
      · exact hd' b hb
    rw [ht']
    exact ⟨hdata, heq ▸ hsynced⟩

theorem write_aligned_word_spec (h : Synced cfg s s.DataBuf)
    (hsize : cfg.FEE_DENSITY_BYTES ≤ FEE_ADDRESS_MAX_SIZE) {Address DataWord : UInt16}
    (ha : Address.toNat < cfg.FEE_DENSITY_BYTES) (heven : Address.toNat % 2 = 0)
    (hsafe : ¬ CompactsBetween cfg s Address DataWord) :
    let t := (write_aligned_word cfg s Address DataWord).2
    Synced cfg t t.DataBuf ∧ t.DataBuf = putWord s.DataBuf Address.toNat DataWord := by
  intro t
  have ht : t = (write_aligned_word cfg s Address DataWord).2 := rfl
  unfold write_aligned_word at ht
  dsimp only at ht
  have hk : 2 * (Address.toNat / 2) = Address.toNat := by omega
  have hlo : lowByte (s.word (Address.toNat / 2)) = s.DataBuf Address.toNat := by
    rw [Eeprom.word, lowByte_halfWord, hk]
  have hhi : highByte (s.word (Address.toNat / 2)) = s.DataBuf (Address.toNat + 1) := by
    rw [Eeprom.word, highByte_halfWord, hk]
  generalize hs1 : { s with DataBuf := putWord s.DataBuf Address.toNat DataWord } = s1 at ht
  have hbuf : s1.DataBuf = putWord s.DataBuf Address.toNat DataWord := by rw [← hs1]
  by_cases hsame : s.word (Address.toNat / 2) = DataWord
  · rw [if_pos hsame] at ht
    have hput := putWord_word (s := s) (k := Address.toNat / 2) fun _ _ => rfl
    rw [hk, hsame] at hput
    rw [ht, hput]
    exact ⟨h, rfl⟩
  · rw [if_neg hsame] at ht
    have h1 : Synced cfg s1 s.DataBuf := by
      rw [← hs1]
      exact ⟨h.holds, h.clean⟩
    have hother : ∀ b, b / 2 ≠ Address.toNat / 2 → s.DataBuf b = s1.DataBuf b := by
      intro b hb
      rw [hbuf, putWord_of_ne heven _ hb]
    have hlo1 : s1.DataBuf Address.toNat = lowByte DataWord := by
      rw [hbuf, putWord, Function.update_of_ne (by omega), Function.update_self]
    have hhi1 : s1.DataBuf (Address.toNat + 1) = highByte DataWord := by
      rw [hbuf, putWord, Function.update_self]
    have hdirect := direct_spec h1 ha fun b _ hb => hother b hb
    rw [← hbuf]
    suffices hgoal : t.DataBuf = s1.DataBuf ∧ Synced cfg t s1.DataBuf by
      exact ⟨hgoal.1 ▸ hgoal.2, hgoal.1⟩
    split at ht
    · rename_i u hu
      rw [hu] at hdirect
      rw [ht]
      exact hdirect
    · rename_i hu
      rw [hu] at hdirect
      by_cases hlow : Address.toNat < FEE_BYTE_RANGE
      · rw [if_pos hlow, hlo, hhi, ← hlo1, ← hhi1] at ht
        rw [ht]
        refine both_bytes_spec h1 heven hlow ha hother hdirect ?_
        intro hchanged hchanged' hfull hzero
        by_contra hroom
        have hzero : DataWord = 0 := by
          rw [← hzero, Eeprom.word, hk, hlo1, hhi1, halfWord_bytes]
        rw [hlo1, hzero] at hchanged
        rw [hhi1, hzero] at hchanged'
        have hslot : s1.empty_slot = s.empty_slot := by rw [← hs1]
        exact hsafe ⟨heven, hlow, ha, hzero, hchanged, hchanged', hslot ▸ hfull, by omega⟩
      · rw [ht, if_neg hlow]
        simp only [FEE_BYTE_RANGE] at hlow
        have := log_word_of_cache h1 (k := Address.toNat / 2)
          (by simp only [FEE_BYTE_RANGE]; omega) (by omega) hsize hother hdirect
        rwa [hk] at this

/-! ## The run -/

def Call.writes : Call → List (Nat × UInt8)
  | .byte Address DataByte => [(Address.toNat, DataByte)]
  | .word Address DataWord =>
    [(Address.toNat, lowByte DataWord), (Address.toNat + 1, highByte DataWord)]

def Call.Safe (cfg : Config) (s : Eeprom) : Call → Prop
  | .byte _ _ => True
  | .word Address DataWord => ¬ CompactsBetween cfg s Address DataWord

instance (cfg : Config) (s : Eeprom) : DecidablePred (Call.Safe cfg s)
  | .byte _ _ => inferInstanceAs (Decidable True)
  | .word _ _ => inferInstanceAs (Decidable (¬ _))

theorem run_spec (h : Synced cfg s s.DataBuf)
    (hsize : cfg.FEE_DENSITY_BYTES ≤ FEE_ADDRESS_MAX_SIZE) {c : Call} (hsafe : c.Safe cfg s) :
    Synced cfg (c.run cfg s) (c.run cfg s).DataBuf ∧
      (c.run cfg s).DataBuf = c.writes.foldl (flat_write cfg) s.DataBuf := by
  cases c with
  | byte Address v => exact write_byte_spec h hsize Address v
  | word Address DataWord =>
    simp only [Call.run, EEPROM_WriteDataWord, Call.writes, List.foldl_cons, List.foldl_nil]
    have heven := cfg.density_even
    by_cases ha : Address.toNat < cfg.FEE_DENSITY_BYTES
    · rw [if_neg (by omega)]
      by_cases hodd : Address.toNat % 2 ≠ 0
      · rw [if_pos hodd]
        have hnext : (Address + 1).toNat = Address.toNat + 1 := by
          simp only [FEE_ADDRESS_MAX_SIZE] at hsize
          rw [UInt16.toNat_add, UInt16.toNat_one]
          omega
        obtain ⟨hsynced, hdata⟩ := write_byte_spec h hsize Address (lowByte DataWord)
        obtain ⟨hsynced', hdata'⟩ :=
          write_byte_spec hsynced hsize (Address + 1) (highByte DataWord)
        refine ⟨hsynced', hdata'.trans ?_⟩
        rw [hdata, hnext]
      · rw [if_neg hodd]
        obtain ⟨hsynced, hdata⟩ := write_aligned_word_spec h hsize ha (by omega) hsafe
        refine ⟨hsynced, hdata.trans ?_⟩
        have ha' : Address.toNat + 1 < cfg.FEE_DENSITY_BYTES := by omega
        simp only [flat_write, if_pos ha, if_pos ha']
        rfl
    · have ha' : ¬ Address.toNat + 1 < cfg.FEE_DENSITY_BYTES := by omega
      rw [if_pos (by omega)]
      simp only [flat_write, if_neg ha, if_neg ha']
      exact ⟨h, trivial⟩

theorem flat_write_eqBelow {f f' : Nat → UInt8} (h : EqBelow cfg.FEE_DENSITY_BYTES f f')
    (writes : List (Nat × UInt8)) : EqBelow cfg.FEE_DENSITY_BYTES
      (writes.foldl (flat_write cfg) f) (writes.foldl (flat_write cfg) f') := by
  induction writes generalizing f f' with
  | nil => exact h
  | cons w writes ih =>
    refine ih fun a ha => ?_
    simp only [flat_write]
    split
    · simp only [Function.update_apply, h a ha]
    · exact h a ha

theorem runs_spec (hsize : cfg.FEE_DENSITY_BYTES ≤ FEE_ADDRESS_MAX_SIZE) {calls : List Call}
    (h : Synced cfg s s.DataBuf) (hsafe : Along (Call.run cfg) (Call.Safe cfg) s calls) :
    let t := calls.foldl (Call.run cfg) s
    Synced cfg t t.DataBuf ∧
      t.DataBuf = (calls.flatMap Call.writes).foldl (flat_write cfg) s.DataBuf := by
  induction calls generalizing s with
  | nil => exact ⟨h, rfl⟩
  | cons c calls ih =>
    obtain ⟨hsynced, hdata⟩ := run_spec h hsize hsafe.1
    obtain ⟨hsynced', hdata'⟩ := ih hsynced hsafe.2
    refine ⟨hsynced', hdata'.trans ?_⟩
    rw [List.flatMap_cons, List.foldl_append, hdata]

def block_writes (dest : Nat) (src : List UInt8) : List (Nat × UInt8) :=
  (List.range' dest src.length).zip src

variable {src : List UInt8}

theorem word_calls_writes {dest : Nat} (h : dest + src.length ≤ 0x10000) :
    (word_calls dest src).flatMap Call.writes = block_writes dest src := by
  fun_induction word_calls dest src with
  | case1 dest lo hi src ih =>
    simp only [List.length_cons] at h
    have hdest : (UInt16.ofNat dest).toNat = dest := by
      rw [UInt16.toNat_ofNat']
      omega
    rw [List.flatMap_cons, ih (by omega)]
    simp [Call.writes, block_writes, hdest, List.range'_succ]
  | case2 dest b =>
    have hdest : (UInt16.ofNat dest).toNat = dest := by
      simp only [List.length_singleton] at h
      rw [UInt16.toNat_ofNat']
      omega
    simp [Call.writes, block_writes, hdest]
  | case3 dest => rfl

theorem block_calls_writes {dest : Nat} (h : dest + src.length ≤ 0x10000) :
    (block_calls dest src).flatMap Call.writes = block_writes dest src := by
  unfold block_calls
  split
  · rfl
  · rename_i b rest
    simp only [List.length_cons] at h
    split
    · have hdest : (UInt16.ofNat dest).toNat = dest := by
        rw [UInt16.toNat_ofNat']
        omega
      rw [List.flatMap_cons, word_calls_writes (by omega)]
      simp [Call.writes, block_writes, hdest, List.range'_succ]
    · exact word_calls_writes (by simpa using by omega)

end

/-- An operation on the EEPROM. -/
inductive Op
  | call (c : Call)
  | eeprom_write_block (dest : Nat) (src : List UInt8)
  | EEPROM_Erase
  | EEPROM_Init

/-- The EEPROM, and the array that it stands for. -/
structure Watched where
  eeprom : Eeprom
  flat : Nat → UInt8

namespace Watched

variable (cfg : Config)

def boot : Watched :=
  ⟨EEPROM_Init cfg ⟨fun _ => FEE_EMPTY_WORD, fun _ => 0, 0, []⟩, fun _ => 0⟩

def step (w : Watched) : Op → Watched
  | .call c => ⟨c.run cfg w.eeprom, c.writes.foldl (flat_write cfg) w.flat⟩
  | .eeprom_write_block dest src =>
    ⟨emulated_flash.eeprom_write_block cfg w.eeprom dest src,
      (block_writes dest src).foldl (flat_write cfg) w.flat⟩
  | .EEPROM_Erase => ⟨emulated_flash.EEPROM_Erase cfg w.eeprom, fun _ => 0⟩
  | .EEPROM_Init => ⟨emulated_flash.EEPROM_Init cfg w.eeprom, w.flat⟩

/-- The cache and every read in range give the array, and the flash was
programmed only where it was erased, in the two areas. -/
structure Agrees (w : Watched) : Prop where
  cache : EqBelow cfg.FEE_DENSITY_BYTES w.eeprom.DataBuf w.flat
  byte : ∀ Address : UInt16, Address.toNat < cfg.FEE_DENSITY_BYTES →
    EEPROM_ReadDataByte cfg w.eeprom Address = w.flat Address.toNat
  word : ∀ Address : UInt16, Address.toNat + 1 < cfg.FEE_DENSITY_BYTES →
    EEPROM_ReadDataWord cfg w.eeprom Address =
      halfWord (w.flat Address.toNat) (w.flat (Address.toNat + 1))
  block : ∀ src len, src + len ≤ cfg.FEE_DENSITY_BYTES →
    eeprom_read_block cfg w.eeprom src len = readBlock w.flat src len
  programmed : Clean cfg w.eeprom

/-- No call of the operation compacts between two bytes, and a block ends
within the addresses of 16 bits. -/
def Safe (w : Watched) : Op → Prop
  | .call c => c.Safe cfg w.eeprom
  | .eeprom_write_block dest src => dest + src.length ≤ 0x10000 ∧
      Along (Call.run cfg) (Call.Safe cfg) w.eeprom (block_calls dest src)
  | _ => True

instance (w : Watched) : DecidablePred (Safe cfg w)
  | .call c => inferInstanceAs (Decidable (c.Safe cfg w.eeprom))
  | .eeprom_write_block _ _ => inferInstanceAs (Decidable (_ ∧ _))
  | .EEPROM_Erase => inferInstanceAs (Decidable True)
  | .EEPROM_Init => inferInstanceAs (Decidable True)

/-- The state behind an operation agrees with the array. -/
def Refines (w : Watched) (op : Op) : Prop := Agrees cfg (w.step cfg op)

variable {cfg : Config} {w : Watched}

/-! ## Reads -/

variable {s : Eeprom} {f : Nat → UInt8} {Address : UInt16}

theorem read_byte_eq (h : EqBelow cfg.FEE_DENSITY_BYTES s.DataBuf f)
    (ha : Address.toNat < cfg.FEE_DENSITY_BYTES) :
    EEPROM_ReadDataByte cfg s Address = f Address.toNat := by
  rw [EEPROM_ReadDataByte, if_pos ha]
  exact h _ ha

theorem read_word_eq (h : EqBelow cfg.FEE_DENSITY_BYTES s.DataBuf f)
    (ha : Address.toNat + 1 < cfg.FEE_DENSITY_BYTES) :
    EEPROM_ReadDataWord cfg s Address =
      halfWord (f Address.toNat) (f (Address.toNat + 1)) := by
  simp only [EEPROM_ReadDataWord, if_pos ha]
  rw [← h _ (by omega), ← h _ ha]
  split
  · rfl
  · rw [Eeprom.word, show 2 * (Address.toNat / 2) = Address.toNat by omega]

theorem read_words_eq (h : EqBelow cfg.FEE_DENSITY_BYTES s.DataBuf f)
    (hsize : cfg.FEE_DENSITY_BYTES ≤ FEE_ADDRESS_MAX_SIZE) {src len : Nat}
    (hfits : src + len ≤ cfg.FEE_DENSITY_BYTES) :
    read_words cfg s src len = readBlock f src len := by
  simp only [FEE_ADDRESS_MAX_SIZE] at hsize
  fun_induction read_words cfg s src len with
  | case1 src => rfl
  | case2 src =>
    have hsrc : (UInt16.ofNat src).toNat = src := by
      rw [UInt16.toNat_ofNat']
      omega
    rw [read_byte_eq h (by omega), hsrc]
    rfl
  | case3 src len value ih =>
    have hsrc : (UInt16.ofNat src).toNat = src := by
      rw [UInt16.toNat_ofNat']
      omega
    have hvalue : value = halfWord (f src) (f (src + 1)) := by
      exact (read_word_eq h (by omega)).trans (by rw [hsrc])
    rw [ih (by omega), hvalue, lowByte_halfWord, highByte_halfWord,
      show len.succ.succ = 1 + (1 + len) by omega, readBlock_add, readBlock_add]
    rfl

theorem read_block_eq (h : EqBelow cfg.FEE_DENSITY_BYTES s.DataBuf f)
    (hsize : cfg.FEE_DENSITY_BYTES ≤ FEE_ADDRESS_MAX_SIZE) {src len : Nat}
    (hfits : src + len ≤ cfg.FEE_DENSITY_BYTES) :
    eeprom_read_block cfg s src len = readBlock f src len := by
  unfold eeprom_read_block
  split
  · rfl
  · rename_i len
    split
    · have hsrc : (UInt16.ofNat src).toNat = src := by
        simp only [FEE_ADDRESS_MAX_SIZE] at hsize
        rw [UInt16.toNat_ofNat']
        omega
      rw [read_byte_eq h (by omega), hsrc, read_words_eq h hsize (by omega),
        show len.succ = 1 + len by omega, readBlock_add]
      rfl
    · exact read_words_eq h hsize hfits

theorem agrees_of_cache (hcache : EqBelow cfg.FEE_DENSITY_BYTES w.eeprom.DataBuf w.flat)
    (hclean : Clean cfg w.eeprom) (hsize : cfg.FEE_DENSITY_BYTES ≤ FEE_ADDRESS_MAX_SIZE) :
    Agrees cfg w where
  cache := hcache
  byte _ ha := read_byte_eq hcache ha
  word _ ha := read_word_eq hcache ha
  block _ _ hfits := read_block_eq hcache hsize hfits
  programmed := hclean

/-! ## Every run -/

/-- The flash holds the cache, and the cache is the array. -/
structure Kept (cfg : Config) (w : Watched) : Prop where
  synced : Synced cfg w.eeprom w.eeprom.DataBuf
  cache : EqBelow cfg.FEE_DENSITY_BYTES w.eeprom.DataBuf w.flat

theorem Kept.agrees (h : Kept cfg w) (hsize : cfg.FEE_DENSITY_BYTES ≤ FEE_ADDRESS_MAX_SIZE) :
    Agrees cfg w := agrees_of_cache h.cache h.synced.clean hsize

theorem kept_init {slot : Nat} {E : List (Entry cfg)} (h : Holds cfg s.flash slot E f)
    (hclean : Clean cfg s) : Kept cfg ⟨EEPROM_Init cfg s, f⟩ :=
  ⟨(h.synced_init hclean).congr h.init.1.symm, h.init.1⟩

theorem Kept.boot : Kept cfg (boot cfg) :=
  kept_init (holds_erased fun _ _ => rfl) fun _ hp => absurd hp List.not_mem_nil

theorem Kept.step (h : Kept cfg w) (hsize : cfg.FEE_DENSITY_BYTES ≤ FEE_ADDRESS_MAX_SIZE)
    {op : Op} (hsafe : w.Safe cfg op) : Kept cfg (w.step cfg op) := by
  cases op with
  | call c =>
    obtain ⟨hsynced, hdata⟩ := run_spec h.synced hsize hsafe
    refine ⟨hsynced, ?_⟩
    simp only [Watched.step]
    rw [hdata]
    exact flat_write_eqBelow h.cache _
  | eeprom_write_block dest src =>
    obtain ⟨hsynced, hdata⟩ := runs_spec hsize h.synced hsafe.2
    refine ⟨hsynced, ?_⟩
    simp only [Watched.step, emulated_flash.eeprom_write_block]
    rw [hdata, block_calls_writes hsafe.1]
    exact flat_write_eqBelow h.cache _
  | EEPROM_Erase =>
    obtain ⟨⟨E, hE⟩, hclean⟩ := clear_synced h.synced.clean
    exact kept_init hE hclean
  | EEPROM_Init =>
    obtain ⟨⟨E, hE⟩, hclean⟩ := h.synced.congr h.cache
    exact kept_init hE hclean

/-- In every run of safe operations from the boot, every state behind an
operation agrees with the array. -/
theorem the_eeprom_is_a_flat_array (cfg : Config) (ops : List Op)
    (hsize : cfg.FEE_DENSITY_BYTES ≤ FEE_ADDRESS_MAX_SIZE)
    (h : Along (step cfg) (Safe cfg) (boot cfg) ops) :
    Along (step cfg) (Refines cfg) (boot cfg) ops := by
  refine Along.imp (I := Kept cfg) (fun w op hkept hsafe => ?_) Kept.boot h
  have hnext := hkept.step hsize hsafe
  exact ⟨hnext.agrees hsize, hnext⟩

def four_bytes : Config := ⟨1, 8, 4, 2, by decide, by decide, by decide⟩

/-- A word is written twice, and once more through a compacted flash. -/
theorem three_writes_are_kept :
    Along (step four_bytes) (Refines four_bytes) (boot four_bytes)
      [.call (.word 0 0x1234), .call (.byte 0 0x35), .call (.word 2 0x0100),
        .call (.byte 1 0), .EEPROM_Init] :=
  the_eeprom_is_a_flat_array four_bytes _ (by decide)
    ⟨by decide, trivial, by decide, trivial, trivial, trivial⟩

/-- The log is full, so the write of 0 to the word compacts the flash for its
first byte, and logs 0 for its second. The next value of that byte goes to the
compacted area, and the older entry of the log hides it. -/
theorem a_logged_zero_hides_a_write : ¬ Along (step four_bytes) (Refines four_bytes)
    (boot four_bytes) [.call (.word 0 0x1234), .call (.byte 0 0x35), .call (.word 0 0),
      .call (.byte 1 0x55), .EEPROM_Init] := by
  rintro ⟨-, -, -, -, hinit, -⟩
  have hbyte := hinit.byte 1 (by decide)
  exact absurd hbyte (by decide +kernel)

end Watched

end keychron_qmk.emulated_flash
