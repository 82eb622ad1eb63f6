-- A power loss in the middle of a write. The log has no mark for a complete
-- entry: the playback takes the words that are missing as zeros.
import KeychronQMK.WearLeveling.FlatArray
import KeychronQMK.Lib.Runs

namespace keychron_qmk.wear_leveling

open memory runs

/-! ## Torn entries -/

section

variable {c : Config}

theorem torn_length (k : Nat) (v : List UInt8) :
    (v.take (k * c.write_size - 3) ++ List.replicate (v.length - (k * c.write_size - 3)) 0).length =
      v.length := by
  rw [List.length_append, List.length_take, List.length_replicate]
  omega

variable {v : List UInt8}

theorem torn_nonempty (k : Nat) (h : 0 < v.length) :
    0 < (v.take (k * c.write_size - 3) ++
      List.replicate (v.length - (k * c.write_size - 3)) 0).length := by
  rwa [torn_length]

theorem torn_short (k : Nat) (h : v.length ≤ 5) :
    (v.take (k * c.write_size - 3) ++
      List.replicate (v.length - (k * c.write_size - 3)) 0).length ≤ 5 := by
  rwa [torn_length]

variable {a k : Nat}

theorem torn_fits (k : Nat) (h : a + v.length ≤ c.logical_size) :
    (if k * c.write_size < 3 then a - a % 256 else a) + (v.take (k * c.write_size - 3) ++
      List.replicate (v.length - (k * c.write_size - 3)) 0).length ≤ c.logical_size := by
  rw [torn_length]
  split
  · omega
  · exact h

/-- The entry that the playback finds when only the first `k` words are in
the log. Without its second half-word the address has its low byte zero. -/
def LogEntry.torn (k : Nat) : LogEntry c → LogEntry c
  | .multibyte a v h1 h2 h3 =>
    .multibyte (if k * c.write_size < 3 then a - a % 256 else a)
      (v.take (k * c.write_size - 3) ++ List.replicate (v.length - (k * c.write_size - 3)) 0)
      (torn_nonempty k h1) (torn_short k h2) (torn_fits k h3)
  | e => e

/-- The entries that the playback finds when only the first `k` words of
the entries are in the log. -/
def tornLog : List (LogEntry c) → Nat → List (LogEntry c)
  | [], _ => []
  | e :: E, k =>
    if e.words.length ≤ k then e :: tornLog E (k - e.words.length)
    else if k = 0 then [] else [e.torn k]

theorem LogEntry.words_length (e : LogEntry c) : e.words.length * c.write_size = e.bytes.length := by
  obtain ⟨k, hk⟩ := e.bytes_words
  simp [LogEntry.words, wordsOf, hk, Nat.mul_div_cancel k c.write_size_pos]

theorem LogEntry.flatten_take_words (e : LogEntry c) (h : k ≤ e.words.length) :
    (e.words.take k).flatten = e.bytes.take (k * c.write_size) := by
  have hlen := e.words_length
  have hle : k * c.write_size ≤ e.bytes.length := by
    rw [← hlen]; exact Nat.mul_le_mul_right _ h
  have htake : e.words.take k = wordsOf c (e.bytes.take (k * c.write_size)) := by
    rw [wordsOf_take c e.bytes k hle, LogEntry.words, wordsOf, ← List.map_take, List.take_range,
      Nat.min_eq_left (by simpa [LogEntry.words, wordsOf] using h)]
    rfl
  rw [htake]
  exact flatten_wordsOf c k _ (by rw [List.length_take, Nat.min_eq_left hle])

/-- A torn entry is a multi-byte entry with more bytes than its first words
hold. -/
theorem multibyte_words_lt {h1 h2 h3} (hk0 : 0 < k)
    (hk : k < (LogEntry.multibyte (c := c) a v h1 h2 h3).words.length) :
    k * c.write_size < multibyteSize c v.length ∧ k * c.write_size ≤ 3 + v.length ∧
      (k * c.write_size < 3 → k * c.write_size = 2 ∧ c.write_size = 2) ∧ c.write_size < 8 := by
  have hwords := (LogEntry.multibyte (c := c) a v h1 h2 h3).words_length
  rw [LogEntry.bytes_length] at hwords
  dsimp only at hwords
  unfold multibyteSize at hwords ⊢
  rcases c.write_size_valid with hw | hw | hw
  all_goals
    rw [hw] at hwords ⊢
    split_ifs at hwords ⊢ <;> omega

theorem take_append_zeros (x : List UInt8) {p n : Nat} (h1 : x.length ≤ n)
    (h2 : n ≤ x.length + p) :
    (x ++ List.replicate p 0).take n = x ++ List.replicate (n - x.length) 0 := by
  rw [List.take_append, List.take_of_length_le h1, List.take_replicate, Nat.min_eq_left (by omega)]

/-- In the store, a torn entry is its first words and then zeros. -/
theorem torn_bytes (e : LogEntry c) (hk0 : 0 < k) (hk : k < e.words.length) :
    (e.torn k).bytes = (e.words.take k).flatten ++
      List.replicate (e.bytes.length - k * c.write_size) 0 := by
  rw [e.flatten_take_words (Nat.le_of_lt hk), e.bytes_length]
  cases e with
  | multibyte a v h1 h2 h3 =>
    have hlog := c.logical_addressable
    obtain ⟨hsize, hle, hshort, -⟩ := multibyte_words_lt hk0 hk
    have hsize8 := (multibyteSize_le c v.length).2
    generalize hn : k * c.write_size = n at hsize hle hshort
    have hlen : (v.take (n - 3) ++ List.replicate (v.length - (n - 3)) (0 : UInt8)).length =
        v.length := by simp; omega
    simp only [LogEntry.torn, hn, LogEntry.bytes, hlen]
    rw [multibyte_header _ _ (by split <;> omega) (by omega), multibyte_header a _ (by omega)
      (by omega), List.take_take, Nat.min_eq_left (by omega)]
    split
    · -- only the first half-word of the header
      rename_i h3'
      obtain ⟨rfl, -⟩ := hshort h3'
      have hzeros : List.replicate v.length (0 : UInt8) ++ List.replicate (5 - v.length) 0 =
          List.replicate 5 0 := by
        rw [List.replicate_append_replicate]; congr 1; omega
      have h0 : (a - a % 256) / 65536 = a / 65536 := by omega
      have h1' : (a - a % 256) / 256 % 256 = a / 256 % 256 := by omega
      have h2' : (a - a % 256) % 256 = 0 := by omega
      have htake := take_append_zeros [UInt8.ofNat (v.length * 8 + a / 65536),
        UInt8.ofNat (a / 256 % 256)] (p := 6) (Nat.le_of_lt hsize) (by simpa using hsize8)
      rw [h0, h1', h2']
      simpa [hzeros] using htake
    · -- the whole header, and the first bytes of the value
      have hzeros : List.replicate (v.length - (n - 3)) (0 : UInt8) ++
          List.replicate (5 - v.length) 0 = List.replicate (8 - n) 0 := by
        rw [List.replicate_append_replicate]; congr 1; omega
      generalize hH : [UInt8.ofNat (v.length * 8 + a / 65536), UInt8.ofNat (a / 256 % 256),
        UInt8.ofNat (a % 256)] = H
      have hH3 : H.length = 3 := by rw [← hH]; rfl
      have hv : (H ++ v.take (n - 3)).length = n := by simp [hH3]; omega
      have htake := take_append_zeros (H ++ v.take (n - 3)) (p := 8 - n)
        (n := multibyteSize c v.length) (by omega) (by omega)
      have hfirst : (H ++ v ++ List.replicate (5 - v.length) 0).take n = H ++ v.take (n - 3) := by
        rw [List.append_assoc, List.take_append, List.take_of_length_le (by omega), hH3,
          List.take_append_of_le_length (by omega)]
      rw [hv, ← hzeros] at htake
      rw [hfirst, ← htake]
      simp only [List.append_assoc]
  | optimized_64 a v two low fits =>
    have := (LogEntry.optimized_64 (c := c) a v two low fits).words_length
    rw [LogEntry.bytes_length, two] at this
    dsimp only at this
    omega
  | word_01 a v two even low bit fits =>
    have := (LogEntry.word_01 (c := c) a v two even low bit fits).words_length
    rw [LogEntry.bytes_length, two] at this
    dsimp only at this
    omega

theorem logBytes_tornLog (E : List (LogEntry c)) (k : Nat) :
    ∃ r, logBytes (tornLog E k) =
      ((E.flatMap LogEntry.words).take k).flatten ++ List.replicate r 0 := by
  induction E generalizing k with
  | nil => exact ⟨0, by simp [tornLog]⟩
  | cons e E ih =>
    rw [tornLog, List.flatMap_cons]
    split_ifs with hfull hzero
    · obtain ⟨r, hr⟩ := ih (k - e.words.length)
      refine ⟨r, ?_⟩
      rw [logBytes_cons, hr, List.take_append, List.take_of_length_le hfull, List.flatten_append,
        e.flatten_words, List.append_assoc]
    · exact ⟨0, by simp [hzero]⟩
    · refine ⟨e.bytes.length - k * c.write_size, ?_⟩
      rw [logBytes_cons, logBytes_nil, List.append_nil, torn_bytes e (by omega) (by omega),
        List.take_append_of_le_length (by omega)]

theorem torn_bytes_length (e : LogEntry c) (k : Nat) : (e.torn k).bytes.length = e.bytes.length := by
  rw [LogEntry.bytes_length, LogEntry.bytes_length]
  cases e with
  | multibyte a v h1 h2 h3 =>
    simp only [LogEntry.torn, List.length_append, List.length_take, List.length_replicate]
    congr 1
    omega
  | optimized_64 => rfl
  | word_01 => rfl

theorem logBytes_tornLog_length (E : List (LogEntry c)) (k : Nat) :
    (logBytes (tornLog E k)).length ≤ (logBytes E).length := by
  induction E generalizing k with
  | nil => simp [tornLog]
  | cons e E ih =>
    rw [tornLog]
    split_ifs
    · simpa using ih _
    · simp
    · simp [torn_bytes_length]

/-! ## What a torn log makes of the logical data -/

/-- One logical byte after the torn log of a write of `p` at `a`: the old
value, or inside the range the new value or a zero, or a zero where the
address of a torn entry has lost its low byte. -/
def TornByte (E : List (LogEntry c)) (a : Nat) (p : List UInt8) (before after : UInt8) (i : Nat) :
    Prop :=
  after = before ∨
  (a ≤ i ∧ i < a + p.length ∧
    (p[i - a]? = some after ∨ (c.write_size < 8 ∧ after = 0))) ∨
  (c.write_size = 2 ∧ after = 0 ∧ ∃ e ∈ E,
    e.address - e.address % 256 ≤ i ∧ i < e.address - e.address % 256 + e.value.length)

/-- The bytes that a torn entry writes. -/
theorem torn_apply_byte (e : LogEntry c) (hk0 : 0 < k) (hk : k < e.words.length) (m : Nat → UInt8)
    (i : Nat) : TornByte [e] e.address e.value (m i) ((e.torn k).apply m i) i := by
  cases e with
  | multibyte a v h1 h2 h3 =>
    obtain ⟨-, hle, hshort, h8⟩ := multibyte_words_lt hk0 hk
    simp only [LogEntry.torn, LogEntry.apply, LogEntry.address, LogEntry.value]
    generalize k * c.write_size = n at hle hshort
    split
    · rename_i hn
      obtain ⟨rfl, hw⟩ := hshort hn
      by_cases hi : a - a % 256 ≤ i ∧ i < a - a % 256 + v.length
      · right; right
        rw [patch_in _ _ hi.1 (by simp; omega)]
        exact ⟨hw, by simp, _, List.mem_singleton_self _, hi⟩
      · left
        rcases Nat.lt_or_ge i (a - a % 256) with h | h
        · exact patch_lt _ _ h
        · exact patch_ge _ _ (by simp; omega)
    · by_cases hi : a ≤ i ∧ i < a + v.length
      · right; left
        rw [patch_in _ _ hi.1 (by simp; omega)]
        refine ⟨hi.1, hi.2, ?_⟩
        rcases Nat.lt_or_ge (i - a) (n - 3) with h | h
        · left
          rw [List.getElem_append_left (by simp; omega), List.getElem_take,
            List.getElem?_eq_getElem]
        · right
          rw [List.getElem_append_right (by simp; omega), List.getElem_replicate]
          exact ⟨h8, rfl⟩
      · left
        rcases Nat.lt_or_ge i a with h | h
        · exact patch_lt _ _ h
        · exact patch_ge _ _ (by simp; omega)
  | optimized_64 a v two low fits =>
    have := (LogEntry.optimized_64 (c := c) a v two low fits).words_length
    rw [LogEntry.bytes_length, two] at this
    dsimp only at this
    omega
  | word_01 a v two even low bit fits =>
    have := (LogEntry.word_01 (c := c) a v two even low bit fits).words_length
    rw [LogEntry.bytes_length, two] at this
    dsimp only at this
    omega

theorem torn_byte {p : List UInt8} {E : List (LogEntry c)} (h : Covers a p E) (k : Nat)
    (m : Nat → UInt8) (i : Nat) : TornByte E a p (m i) (applyAll (tornLog E k) m i) i := by
  induction h generalizing k m with
  | nil => exact .inl rfl
  | cons e h ih =>
    rw [tornLog]
    split_ifs with hfull hzero
    · rw [applyAll_cons]
      rcases ih (k - e.words.length) (e.apply m) with hold | ⟨h1, h2, h3⟩ | ⟨h1, h2, f, hf, h3⟩
      · rw [hold]
        by_cases hi : e.address ≤ i ∧ i < e.address + e.value.length
        · right; left
          refine ⟨hi.1, by simp; omega, .inl ?_⟩
          rw [LogEntry.apply, patch_in _ _ hi.1 (by omega),
            List.getElem?_append_left (by omega), List.getElem?_eq_getElem]
        · left
          rcases Nat.lt_or_ge i e.address with h | h
          · exact patch_lt _ _ h
          · exact patch_ge _ _ (by omega)
      · right; left
        refine ⟨by omega, by simp; omega, h3.imp (fun h => ?_) id⟩
        rw [List.getElem?_append_right (by omega), ← h]
        congr 1
        omega
      · exact .inr (.inr ⟨h1, h2, f, List.mem_cons_of_mem _ hf, h3⟩)
    · exact .inl rfl
    · rw [applyAll_cons, applyAll_nil]
      rcases torn_apply_byte e (k := k) (by omega) (by omega) m i with
        hold | ⟨h1, h2, h3⟩ | ⟨h1, h2, f, hf, h3⟩
      · exact .inl hold
      · right; left
        refine ⟨h1, by simp; omega, h3.imp (fun h => ?_) id⟩
        rw [List.getElem?_append_left (by omega), h]
      · rw [List.mem_singleton.mp hf] at h3
        exact .inr (.inr ⟨h1, h2, e, List.mem_cons_self, h3⟩)

end

/-! ## Power losses in a run -/

/-- The words that the code has written between the two states, oldest
first, with their addresses. -/
def writesSince (s s' : State) : List (Nat × List UInt8) :=
  (s'.trace.take (s'.trace.length - s.trace.length)).reverse.filterMap fun access =>
    match access with
    | .write a w => some (a, w)
    | _ => none

def afterWrites (m : Nat → UInt8) (writes : List (Nat × List UInt8)) : Nat → UInt8 :=
  writes.foldl (fun m w => patch m w.1 w.2) m

/-- The device when the power comes back, after a loss that let only the
first `k` words of a write reach the store. -/
def powerLoss (c : Config) (a : Nat) (v : List UInt8) (k : Nat) (s : State) : State :=
  { State.erased with
    store := afterWrites s.store ((writesSince s (wear_leveling_write c a v s).2).take k) }

/-- What happens to the device. -/
inductive Event (c : Config) where
  | op (op : Op) (in_bounds : op.InBounds c)
  | powerLoss (address : Nat) (value : List UInt8) (words : Nat)
    (in_bounds : address + value.length ≤ c.logical_size)

def eventStep (c : Config) (s : State) : Event c → Observation × State
  | .op op _ => step c s op
  | .powerLoss a v k _ => step c (powerLoss c a v k s) .init

/-- The array after a power loss, for a write that the log holds. -/
def tornWrite (c : Config) (m : Nat → UInt8) (a : Nat) (v : List UInt8) (k : Nat)
    (hv : a + v.length ≤ c.logical_size) : Nat → UInt8 :=
  if readBlock m a v.length = v then m else applyAll (tornLog (entriesOf c a v hv) k) m

def flatEventStep (c : Config) (m : Nat → UInt8) : Event c → Observation × (Nat → UInt8)
  | .op op _ => flatStep c m op
  | .powerLoss a v k hv => flatStep c (tornWrite c m a v k hv) .init

def LossInLog (c : Config) (s : State) : Event c → Prop
  | .op _ _ => True
  | .powerLoss a v _ _ => (wear_leveling_write c a v s).1 ≠ .Consolidated

def observeEvents (c : Config) : State → List (Event c) → List Observation
  | _, [] => []
  | s, e :: es => (eventStep c s e).1 :: observeEvents c (eventStep c s e).2 es

def flatObserveEvents (c : Config) : (Nat → UInt8) → List (Event c) → List Observation
  | _, [] => []
  | m, e :: es => (flatEventStep c m e).1 :: flatObserveEvents c (flatEventStep c m e).2 es

theorem afterWrites_writeCalls (m : Nat → UInt8) (a : Nat) (words : List (List UInt8)) (k : Nat) :
    afterWrites m (((writeCalls a words).filterMap fun access =>
      match access with
      | .write a w => some (a, w)
      | _ => none).take k) = patch m a (words.take k).flatten := by
  induction words generalizing m a k with
  | nil => simp [writeCalls, afterWrites]
  | cons w words ih =>
    cases k with
    | zero => simp [afterWrites]
    | succ k =>
      simp only [writeCalls, List.filterMap_cons, List.take_succ_cons, List.flatten_cons,
        patch_append]
      exact ih (patch m a w) (a + w.length) k

variable {m : Nat → UInt8} {a : Nat}

theorem patch_append_zeros (h : ∀ i, a ≤ i → m i = 0) (l : List UInt8) (r : Nat) :
    patch m a (l ++ List.replicate r 0) = patch m a l := by
  funext i
  rcases Nat.lt_or_ge i a with h1 | h1
  · rw [patch_lt _ _ h1, patch_lt _ _ h1]
  · rcases Nat.lt_or_ge (i - a) l.length with h2 | h2
    · rw [patch_in _ _ h1 (by simp; omega), patch_in _ _ h1 h2, List.getElem_append_left]
    · rw [patch_ge m l (by omega), h i h1]
      rcases Nat.lt_or_ge (i - a) (l.length + r) with h3 | h3
      · rw [patch_in _ _ h1 (by simp; omega), List.getElem_append_right h2,
          List.getElem_replicate]
      · rw [patch_ge _ _ (by simp; omega), h i h1]

variable {s : State}

theorem writesSince_logged {s' : State} {access : Access} {words : List (List UInt8)}
    (haccess : ∀ b w, access ≠ .write b w)
    (h : s'.trace = (writeCalls a words).reverse ++ access :: s.trace) (m : Nat → UInt8) (k : Nat) :
    afterWrites m ((writesSince s s').take k) = patch m a (words.take k).flatten := by
  have hlen : s'.trace.length - s.trace.length = ((writeCalls a words).reverse ++ [access]).length := by
    rw [h]; simp; omega
  have htake : s'.trace.take (s'.trace.length - s.trace.length) =
      (writeCalls a words).reverse ++ [access] := by
    rw [hlen, h, List.append_cons _ access s.trace, List.take_left]
  rw [writesSince, htake, List.reverse_append, List.reverse_reverse, List.reverse_singleton,
    List.singleton_append, ← afterWrites_writeCalls]
  cases access with
  | write b w => exact absurd rfl (haccess b w)
  | _ => rfl

/-- After a power loss in the log, the store holds the torn log. -/
theorem refines_powerLoss {c : Config} (h : Refines c s m) {v : List UInt8}
    (hv : a + v.length ≤ c.logical_size) (k : Nat)
    (hlog : (wear_leveling_write c a v s).1 ≠ .Consolidated) :
    (wear_leveling_init c (powerLoss c a v k s)).1 ≠ .Failed ∧
      Refines c (wear_leveling_init c (powerLoss c a v k s)).2 (tornWrite c m a v k hv) := by
  obtain ⟨E, hE, hcache⟩ := h.synced
  have hout := write_outcome c a v hv s hE.no_wrap
  have hread : readBlock m a v.length = readBlock s.cache a v.length :=
    (h.cache.readBlock hv).symm
  unfold tornWrite powerLoss
  rw [hread]
  generalize wear_leveling_write c a v s = r at hlog hout ⊢
  generalize entriesOf c a v hv = F at hout ⊢
  cases hout with
  | skipped same =>
    rw [if_pos same]
    have hnone : writesSince s s = [] := by simp [writesSince]
    exact refines_init h _ rfl (by simp [hnone, afterWrites])
  | logged s' differs _ _ write_address room _ trace =>
    rw [if_neg differs]
    obtain ⟨r, hr⟩ := logBytes_tornLog F k
    have hle := logBytes_tornLog_length F k
    have hstore : afterWrites s.store ((writesSince s s').take k) =
        patch s.store s.write_address (logBytes (tornLog F k)) := by
      rw [writesSince_logged (by simp) trace, hr, patch_append_zeros hE.erased]
    rw [hstore]
    have hT := hE.append (tornLog F k) (by omega)
    obtain ⟨st, s1, heq, hst, hw, hsync, hc⟩ := init_holds
      (s := { State.erased with store := patch s.store s.write_address (logBytes (tornLog F k)) })
      rfl hT
    rw [heq]
    refine ⟨hst, hw, hsync, hc.trans ?_⟩
    rw [applyAll_append]
    apply eqBelow_applyAll
    have hstart : c.log_start ≤ s.write_address := by have := hE.stop; omega
    exact (eqBelow_applyAll (consolidatedImage_patch c s.store _ hstart) E).trans
      (hcache.symm.trans h.cache)
  | consolidated => exact absurd rfl hlog
  | failed _ refused => exact absurd refused h.works.not_refuses

theorem refines_eventStep {c : Config} (h : Refines c s m) (e : Event c) (he : LossInLog c s e) :
    (eventStep c s e).1 = (flatEventStep c m e).1 ∧
      Refines c (eventStep c s e).2 (flatEventStep c m e).2 := by
  cases e with
  | op op hop => exact refines_step h op hop
  | powerLoss a v k hv =>
    obtain ⟨hst, hr⟩ := refines_powerLoss h hv k he
    refine ⟨?_, hr⟩
    simp only [eventStep, flatEventStep, step, flatStep]
    rw [hr.cache.readBlock (by omega)]
    simp [hst]

theorem observeEvents_of_refines {c : Config} (h : Refines c s m) (es : List (Event c))
    (hes : Along (fun s e => (eventStep c s e).2) (LossInLog c) s es) :
    observeEvents c s es = flatObserveEvents c m es := by
  induction es generalizing s m with
  | nil => rfl
  | cons e es ih =>
    obtain ⟨ho, hr⟩ := refines_eventStep h e hes.1
    rw [observeEvents, flatObserveEvents, ho, ih hr hes.2]

/-- Power losses that cut a write after any number of its words, in any
run: the device is then a flat array that has the entries before the cut,
with the missing words of the torn entry as zeros. Only bytes of the write
change, to their new value or to zero, unless a half-word cut takes the low
byte of an address. -/
theorem a_torn_write_reads_as_zeros (c : Config) (es : List (Event c))
    (hes : Along (fun s e => (eventStep c s e).2) (LossInLog c) (boot c) es) :
    observeEvents c (boot c) es = flatObserveEvents c (fun _ => 0) es ∧
    ∀ m a v k (hv : a + v.length ≤ c.logical_size) i,
      TornByte (entriesOf c a v hv) a v (m i) (tornWrite c m a v k hv i) i := by
  refine ⟨observeEvents_of_refines (refines_boot c) es hes, ?_⟩
  intro m a v k hv i
  unfold tornWrite
  split
  · exact .inl rfl
  · exact torn_byte (covers_entriesOf c a v hv) k m i

def halfWordConfig : Config where
  write_size := 2
  logical_size := 72
  backing_size := 144
  write_size_valid := smallConfig.write_size_valid
  logical_pos := by decide
  logical_addressable := by decide
  backing_addressable := by decide
  backing_twice := by decide
  logical_aligned := by decide
  backing_multiple := by decide

/-- The entry at 66 loses its second half-word, and with it the low byte of
its address: the re-init zeroes byte 0. -/
theorem a_torn_write_reads_as_zeros_small :
    observeEvents halfWordConfig (boot halfWordConfig)
        [.op (.write 0 [9]) (by decide), .powerLoss 66 [5] 1 (by decide),
          .op (.write 66 [6]) (by decide), .op .powerCycle trivial] =
      flatObserveEvents halfWordConfig (fun _ => 0)
        [.op (.write 0 [9]) (by decide), .powerLoss 66 [5] 1 (by decide),
          .op (.write 66 [6]) (by decide), .op .powerCycle trivial] := by
  refine (a_torn_write_reads_as_zeros halfWordConfig _ ?_).1
  exact ⟨trivial, by unfold LossInLog; decide +kernel, trivial, trivial, trivial⟩

/-- Every logical byte is as it was, or inside the range of the write its
new value. -/
def OldOrNew (c : Config) (s : State) (a : Nat) (v : List UInt8) (k : Nat) : Prop :=
  ∀ i < c.logical_size,
    let after := (wear_leveling_init c (powerLoss c a v k s)).2.cache i
    after = s.cache i ∨ (a ≤ i ∧ i < a + v.length ∧ v[i - a]? = some after)

/-- Byte 0 holds 9 before the write of byte 66, and 0 after the power loss. -/
theorem a_torn_write_changes_another_byte :
    ¬ ∀ (c : Config) (ops : List Op) (a : Nat) (v : List UInt8) (k : Nat),
      (∀ op ∈ ops, op.InBounds c) → a + v.length ≤ c.logical_size →
      let s := ops.foldl (fun s op => (step c s op).2) (boot c)
      (wear_leveling_write c a v s).1 ≠ .Consolidated → OldOrNew c s a v k := by
  intro h
  have h0 := h halfWordConfig [.write 0 [9]] 66 [5] 1 (by decide) (by decide) (by decide +kernel) 0
    (by decide)
  revert h0
  decide +kernel

end keychron_qmk.wear_leveling
