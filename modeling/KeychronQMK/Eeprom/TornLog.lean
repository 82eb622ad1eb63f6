-- The write log of the emulated EEPROM with torn entries: the header of a word
-- is programmed and its value is not, and the replay passes the entry over.
import KeychronQMK.Eeprom.WriteLog

namespace keychron_qmk.emulated_flash

open memory

/-! ## Items -/

/-- What a log can hold: entries, and headers of words whose value is missing. -/
inductive Item (cfg : Config) where
  | whole (e : Entry cfg)
  | torn (header : UInt16) (next : 0xE000 ≤ header.toNat) (programmed : header.toNat < 0xFFFF)

namespace Item

variable {cfg : Config}

def words : Item cfg → List UInt16
  | whole e => e.words
  | torn header .. => [header, FEE_EMPTY_WORD]

def apply (d : Nat → UInt8) : Item cfg → Nat → UInt8
  | whole e => e.apply d
  | torn .. => d

def Writes (k : Nat) : Item cfg → Prop
  | whole e => k = e.place
  | torn .. => False

theorem apply_of_not_writes {e : Item cfg} {d : Nat → UInt8} {a : Nat} (h : ¬ e.Writes (a / 2)) :
    e.apply d a = d a := by
  cases e with
  | whole e => exact Entry.apply_of_ne h
  | torn header next programmed => rfl

theorem apply_congr (e : Item cfg) {d d' : Nat → UInt8} {a : Nat} (h : d a = d' a) :
    e.apply d a = e.apply d' a := by
  cases e with
  | whole e =>
    cases e with
    | byte address value low fits => simp only [apply, Entry.apply, Function.update_apply, h]
    | word address value even high fits reached =>
      simp only [apply, Entry.apply, putWord, Function.update_apply, h]
  | torn header next programmed => exact h

end Item

section

variable {cfg : Config} {rest : List UInt16} {slot : Nat} {d d' : Nat → UInt8}

theorem replay_torn {header : UInt16} (h : 0xE000 ≤ header.toNat) (h' : header.toNat < 0xFFFF) :
    replay cfg (header :: FEE_EMPTY_WORD :: rest) slot d = replay cfg rest (slot + 2) d := by
  rw [replay.eq_def]
  dsimp only
  rw [if_neg (ne_empty_of_lt h'), if_neg (by rw [and_word_encoding]; omega),
    if_pos (by rw [and_value_next, FEE_VALUE_NEXT]; omega), if_pos (by decide)]

theorem replay_item (e : Item cfg) : replay cfg (e.words ++ rest) slot d =
    replay cfg rest (slot + e.words.length) (e.apply d) := by
  cases e with
  | whole e => exact replay_entry e
  | torn header next programmed => exact replay_torn next programmed

def itemWords (I : List (Item cfg)) : List UInt16 := I.flatMap Item.words

def applyItems (I : List (Item cfg)) (d : Nat → UInt8) : Nat → UInt8 :=
  I.foldl (fun d e => e.apply d) d

theorem itemWords_append (I : List (Item cfg)) (e : Item cfg) :
    itemWords (I ++ [e]) = itemWords I ++ e.words := by
  simp [itemWords]

theorem applyItems_append (I : List (Item cfg)) (e : Item cfg) :
    applyItems (I ++ [e]) d = e.apply (applyItems I d) := by
  simp [applyItems]

theorem replay_items (I : List (Item cfg)) (n : Nat) :
    replay cfg (itemWords I ++ List.replicate n FEE_EMPTY_WORD) slot d =
      (slot + (itemWords I).length, applyItems I d) := by
  induction I generalizing slot d with
  | nil => exact replay_erased n
  | cons e I ih =>
    have hcons : itemWords (e :: I) = e.words ++ itemWords I := rfl
    rw [hcons, List.append_assoc, replay_item, ih, List.length_append, Nat.add_assoc]
    rfl

theorem applyItems_of_not_writes {I : List (Item cfg)} {a : Nat}
    (h : ∀ e ∈ I, ¬ e.Writes (a / 2)) : applyItems I d a = d a := by
  induction I generalizing d with
  | nil => rfl
  | cons e I ih =>
    rw [List.forall_mem_cons] at h
    exact (ih h.2).trans (Item.apply_of_not_writes h.1)

theorem applyItems_congr {a : Nat} (I : List (Item cfg)) (h : d a = d' a) :
    applyItems I d a = applyItems I d' a := by
  induction I generalizing d d' with
  | nil => exact h
  | cons e I ih => exact ih (e.apply_congr h)

end

/-! ## What the flash keeps -/

/-- The flash keeps the buffer `d`: the compacted area and the items `I` of the log
give it, the log is erased behind them, and no item writes a half-word of the
compacted area that is still erased. -/
structure Keeps (cfg : Config) (flash : Nat → UInt16) (slot : Nat) (I : List (Item cfg))
    (d : Nat → UInt8) : Prop where
  log : readBlock flash cfg.log_base (itemWords I).length = itemWords I
  slot_eq : slot = cfg.log_base + (itemWords I).length
  room : slot ≤ cfg.log_last
  erased : ∀ i, slot ≤ i → i < cfg.log_last → flash i = FEE_EMPTY_WORD
  data : EqBelow cfg.FEE_DENSITY_BYTES (applyItems I (load_compacted cfg flash fun _ => 0)) d
  silent : ∀ k < cfg.log_base, flash k = FEE_EMPTY_WORD → ∀ e ∈ I, ¬ e.Writes k

section

variable {cfg : Config} {flash : Nat → UInt16} {slot : Nat} {I : List (Item cfg)}
  {d d' : Nat → UInt8} {s : Eeprom}

theorem log_base_le (cfg : Config) : cfg.log_base ≤ cfg.log_last := Nat.le_add_right _ _

theorem lt_log_base {a : Nat} (h : a < cfg.FEE_DENSITY_BYTES) : a / 2 < cfg.log_base := by
  have := cfg.density_even
  unfold Config.log_base
  omega

theorem load_compacted_congr {flash' : Nat → UInt16} {d0 d0' : Nat → UInt8} {a : Nat}
    (ha : a < cfg.FEE_DENSITY_BYTES) (h : flash (a / 2) = flash' (a / 2)) :
    load_compacted cfg flash d0 a = load_compacted cfg flash' d0' a := by
  simp only [load_compacted, if_pos ha, h]

theorem load_of_compacted {a : Nat} (ha : a < cfg.FEE_DENSITY_BYTES)
    (h : flash (a / 2) = ~~~halfWord (d (2 * (a / 2))) (d (2 * (a / 2) + 1))) (d0 : Nat → UInt8) :
    load_compacted cfg flash d0 a = d a := by
  simp only [load_compacted, if_pos ha, h, UInt16.not_not, lowByte_halfWord, highByte_halfWord]
  split
  · congr 1
    omega
  · congr 1
    omega

namespace Keeps

theorem base_le (h : Keeps cfg flash slot I d) : cfg.log_base ≤ slot :=
  h.slot_eq ▸ Nat.le_add_right _ _

theorem init (h : Keeps cfg s.flash slot I d) :
    EqBelow cfg.FEE_DENSITY_BYTES (EEPROM_Init cfg s).DataBuf d ∧
      (EEPROM_Init cfg s).empty_slot = slot := by
  have hlog : readBlock s.flash cfg.log_base (cfg.log_last - cfg.log_base) =
      itemWords I ++ List.replicate (cfg.log_last - slot) FEE_EMPTY_WORD := by
    have hlen : cfg.log_last - cfg.log_base = (itemWords I).length + (cfg.log_last - slot) := by
      have := h.slot_eq
      have := h.room
      omega
    rw [hlen, readBlock_add, h.log, ← h.slot_eq]
    congr 1
    apply List.eq_replicate_iff.mpr
    refine ⟨by simp, fun w hw => ?_⟩
    simp only [readBlock, List.mem_map, List.mem_range] at hw
    obtain ⟨i, hi, rfl⟩ := hw
    exact h.erased _ (by omega) (by omega)
  unfold EEPROM_Init
  rw [hlog]
  dsimp only
  rw [replay_items, ← h.slot_eq]
  refine ⟨fun a ha => ?_, rfl⟩
  rw [← h.data a ha]
  exact applyItems_congr I (load_compacted_congr ha rfl)

theorem append (h : Keeps cfg flash slot I d) (e : Item cfg)
    (hroom : slot + e.words.length ≤ cfg.log_last)
    (hprogrammed : ∀ k, e.Writes k → flash k ≠ FEE_EMPTY_WORD) :
    Keeps cfg (patch flash slot e.words) (slot + e.words.length) (I ++ [e]) (e.apply d) := by
  have hslot := h.slot_eq
  have hbelow : ∀ k < cfg.log_base, patch flash slot e.words k = flash k :=
    fun k hk => patch_lt _ _ (by omega)
  constructor
  · rw [itemWords_append, List.length_append, readBlock_add, ← hslot, readBlock_patch_self,
      readBlock_patch_below _ _ (by omega), h.log]
  · rw [itemWords_append, List.length_append]
    omega
  · exact hroom
  · intro i hi hlast
    rw [patch_ge _ _ hi]
    exact h.erased i (by omega) hlast
  · intro a ha
    rw [applyItems_append]
    refine e.apply_congr ?_
    rw [← h.data a ha]
    exact applyItems_congr I (load_compacted_congr ha (hbelow _ (lt_log_base ha)))
  · intro k hk hempty e' he'
    rw [hbelow k hk] at hempty
    rcases List.mem_append.mp he' with he' | he'
    · exact h.silent k hk hempty e' he'
    · rw [List.mem_singleton.mp he']
      exact fun hwrites => hprogrammed k hwrites hempty

/-- An erased half-word of the compacted area, programmed with the complement of a
half-word of `d'`, where `d` has all other bytes of `d'`. -/
theorem direct (h : Keeps cfg flash slot I d) {k : Nat} (hk : k < cfg.log_base)
    (hempty : flash k = FEE_EMPTY_WORD)
    (hd : ∀ a < cfg.FEE_DENSITY_BYTES, a / 2 ≠ k → d a = d' a) :
    Keeps cfg (Function.update flash k (~~~halfWord (d' (2 * k)) (d' (2 * k + 1)))) slot I d' := by
  have hsilent := h.silent k hk hempty
  have hbase := h.base_le
  constructor
  · refine Eq.trans (readBlock_congr fun i hi _ => ?_) h.log
    exact Function.update_of_ne (by omega) _ _
  · exact h.slot_eq
  · exact h.room
  · intro i hi hi'
    rw [Function.update_of_ne (by omega)]
    exact h.erased i hi hi'
  · intro a ha
    by_cases hak : a / 2 = k
    · rw [applyItems_of_not_writes fun e he => hak ▸ hsilent e he]
      refine load_of_compacted ha ?_ _
      rw [hak, Function.update_self]
    · rw [← hd a ha hak, ← h.data a ha]
      refine applyItems_congr I (load_compacted_congr ha ?_)
      exact Function.update_of_ne hak _ _
  · intro k' hk' hempty'
    rcases eq_or_ne k' k with rfl | hne
    · exact hsilent
    · rw [Function.update_of_ne hne] at hempty'
      exact h.silent k' hk' hempty'

end Keeps

end

end keychron_qmk.emulated_flash
