-- Which accesses the code makes on any content of the store, whatever the
-- driver answers: when all of them stay inside the store, the log entry and
-- the cache.
import KeychronQMK.WearLeveling.FlatArray
import KeychronQMK.Lib.Runs

namespace keychron_qmk.wear_leveling

open memory runs

/-- The access stays inside the store, inside the bytes of the entry that
come from the store, or inside the cache. -/
def Access.InBounds (c : Config) : Access → Prop
  | .read a => a + c.write_size ≤ c.backing_size
  | .write a v => a + v.length ≤ c.backing_size
  | .erase => True
  | .entry first last loaded => 3 ≤ first ∧ last ≤ loaded ∧ last ≤ 8
  | .cache a count => a + count ≤ c.logical_size

instance (c : Config) : DecidablePred (Access.InBounds c) := fun x => by
  cases x <;> unfold Access.InBounds <;> infer_instance

/-- Every access from `s` to `s'` is in bounds. -/
def Tame (c : Config) (s s' : State) : Prop := ∀ x ∈ s'.trace, x ∈ s.trace ∨ x.InBounds c

section

variable {c : Config} {s s' s'' : State}

theorem Tame.refl (c : Config) (s : State) : Tame c s s := fun _ h => .inl h

theorem Tame.trans (h : Tame c s s') (h' : Tame c s' s'') : Tame c s s'' := by
  intro x hx
  rcases h' x hx with hx | hx
  · exact h x hx
  · exact .inr hx

theorem Tame.of_trace (h : s'.trace = s.trace) : Tame c s s' := by
  intro x hx
  rw [h] at hx
  exact .inl hx

theorem Tame.of_cons {a : Access} (h : s'.trace = a :: s.trace) (ha : a.InBounds c) :
    Tame c s s' := by
  intro x hx
  rw [h] at hx
  rcases List.mem_cons.mp hx with rfl | hx
  · exact .inr ha
  · exact .inl hx

end

/-! ## Driver calls -/

theorem call_tame (c : Config) (s : State) : Tame c s (backing_store_call s).2 ∧
    (backing_store_call s).2.store = s.store ∧
    (backing_store_call s).2.write_address = s.write_address := by
  unfold backing_store_call
  split <;> exact ⟨Tame.of_trace rfl, rfl, rfl⟩

theorem erase_tame (c : Config) (s : State) : Tame c s (backing_store_erase s).2 ∧
    (backing_store_erase s).2.write_address = s.write_address := by
  unfold backing_store_erase
  split <;> exact ⟨Tame.of_cons rfl trivial, rfl⟩

variable {a n : Nat}

theorem write_tame {c : Config} {v : List UInt8} (h : a + v.length ≤ c.backing_size) (s : State) :
    Tame c s (backing_store_write a v s).2 ∧
    (backing_store_write a v s).2.write_address = s.write_address := by
  unfold backing_store_write
  split <;> exact ⟨Tame.of_cons rfl h, rfl⟩

theorem read_tame {c : Config} (h : a + c.write_size ≤ c.backing_size) (s : State) :
    Tame c s (backing_store_read c a s).2.2 ∧
    (backing_store_read c a s).2.2.store = s.store ∧
    (backing_store_read c a s).2.1.length = c.write_size ∧
    ((backing_store_read c a s).1 = true →
      (backing_store_read c a s).2.1 = readBlock s.store a c.write_size) := by
  unfold backing_store_read
  split
  · exact ⟨Tame.of_cons rfl h, rfl, readBlock_length _ _ _, nofun⟩
  · rw [if_pos h]
    exact ⟨Tame.of_cons rfl h, rfl, readBlock_length _ _ _, fun _ => rfl⟩
  · exact ⟨Tame.of_cons rfl h, rfl, readBlock_length _ _ _, fun _ => rfl⟩

theorem read_bulk_tame {c : Config} (n : Nat) (h : a + n * c.write_size ≤ c.backing_size)
    (s : State) : Tame c s (backing_store_read_bulk c a n s).2.2 ∧
    (backing_store_read_bulk c a n s).2.2.store = s.store ∧
    (backing_store_read_bulk c a n s).2.1.length = n * c.write_size := by
  induction n generalizing a s with
  | zero => exact ⟨Tame.refl c s, rfl, by simp [backing_store_read_bulk]⟩
  | succ n ih =>
    rw [Nat.succ_mul] at h
    obtain ⟨h1, h2, h3, -⟩ := read_tame (c := c) (a := a) (by omega) s
    rw [backing_store_read_bulk, Nat.succ_mul]
    generalize backing_store_read c a s = r at *
    obtain ⟨ok, value, s1⟩ := r
    obtain ⟨g1, g2, g3⟩ := ih (a := a + c.write_size) (by omega) s1
    cases ok
    · exact ⟨h1, h2, by simp [h3]; omega⟩
    · exact ⟨h1.trans g1, g2.trans h2, by simp [h3, g3]; omega⟩

theorem write_bulk_tame {c : Config} (words : List (List UInt8))
    (hw : ∀ w ∈ words, w.length = c.write_size)
    (h : a + words.length * c.write_size ≤ c.backing_size) (s : State) :
    Tame c s (backing_store_write_bulk c a words s).2 := by
  induction words generalizing a s with
  | nil => exact Tame.refl c s
  | cons w words ih =>
    rw [List.length_cons, Nat.succ_mul] at h
    have hlen := hw w List.mem_cons_self
    obtain ⟨h1, -⟩ := write_tame (c := c) (a := a) (v := w) (by omega) s
    rw [backing_store_write_bulk]
    generalize backing_store_write a w s = r at *
    obtain ⟨ok, s1⟩ := r
    cases ok
    · exact h1
    · exact h1.trans (ih (fun v hv => hw v (List.mem_cons_of_mem _ hv)) (by omega) s1)

/-! ## Consolidation -/

def Aligned (c : Config) (s : State) : Prop := s.write_address % c.write_size = 0

theorem write_size_dvd (c : Config) :
    c.write_size ∣ c.logical_size ∧ c.write_size ∣ c.backing_size ∧ c.write_size ∣ c.log_start := by
  have h1 := Nat.dvd_of_mod_eq_zero c.logical_aligned
  obtain ⟨k, hk⟩ := write_size_dvd_eight c
  exact ⟨h1, Nat.dvd_trans h1 (Nat.dvd_of_mod_eq_zero c.backing_multiple),
    Nat.dvd_add h1 ⟨k, by rw [Nat.mul_comm]; exact hk⟩⟩

theorem log_start_aligned (c : Config) : c.log_start % c.write_size = 0 :=
  Nat.mod_eq_zero_of_dvd (write_size_dvd c).2.2

theorem unlock_tame (c : Config) (s : State) : Tame c s (wear_leveling_unlock s).2 :=
  Tame.of_trace (unlock_keeps s).2.2.2.1

theorem lock_tame (c : Config) (s : State) : Tame c s (wear_leveling_lock s).2 :=
  Tame.of_trace (lock_keeps s).2.2.2.1

theorem wordsOf_length (c : Config) (k : Nat) (bytes : List UInt8)
    (h : bytes.length = k * c.write_size) : (wordsOf c bytes).length = k := by
  simp [wordsOf, h, Nat.mul_div_cancel k c.write_size_pos]

theorem write_consolidated_tame {c : Config} (hc : c.log_start ≤ c.backing_size) (s : State) :
    Tame c s (wear_leveling_write_consolidated c s).2 := by
  have hu := unlock_tame c s
  have hl := logical_words c
  obtain ⟨k, hk⟩ := write_size_dvd_eight c
  unfold Config.log_start at hc
  unfold wear_leveling_write_consolidated
  generalize wear_leveling_unlock s = r at hu
  obtain ⟨lock_status, s1⟩ := r
  have himage : (readBlock s1.cache 0 c.logical_size).length =
      c.logical_size / c.write_size * c.write_size := by rw [readBlock_length]; exact hl
  have hbulk := write_bulk_tame (c := c) (a := 0) _ (length_of_mem_wordsOf c _ _ himage)
    (by rw [wordsOf_length c _ _ himage]; omega) s1
  have hlock : ∀ (status : Status) (s2 : State), Tame c s s2 → Tame c s
      (if lock_status = .Success then (status, (wear_leveling_lock s2).2) else (status, s2)).2 := by
    intro status s2 h2
    split
    · exact h2.trans (lock_tame c s2)
    · exact h2
  dsimp only at hu ⊢
  generalize backing_store_write_bulk c 0 _ s1 = r at hbulk
  obtain ⟨ok, s2⟩ := r
  have h2 := hu.trans hbulk
  cases ok
  · exact hlock _ _ h2
  · have hsum : (checksumOf c s2.cache).length = k * c.write_size := by
      rw [checksumOf_length]; exact hk
    have hbulk2 := write_bulk_tame (c := c) (a := c.logical_size) _
      (length_of_mem_wordsOf c _ _ hsum) (by rw [wordsOf_length c _ _ hsum]; omega) s2
    dsimp only
    generalize backing_store_write_bulk c c.logical_size _ s2 = r at hbulk2
    obtain ⟨ok, s3⟩ := r
    have h3 := h2.trans hbulk2
    cases ok
    · exact hlock _ _ h3
    · exact hlock _ _ h3

theorem consolidate_force_tame {c : Config} (hc : c.log_start ≤ c.backing_size) (s : State) :
    Tame c s (wear_leveling_consolidate_force c s).2 ∧
    ((wear_leveling_consolidate_force c s).2.write_address = s.write_address ∨
      (wear_leveling_consolidate_force c s).2.write_address = c.log_start) := by
  have hu := unlock_tame c s
  have hwa := (unlock_keeps s).2.1
  unfold wear_leveling_consolidate_force
  generalize wear_leveling_unlock s = r at hu hwa
  obtain ⟨lock_status, s1⟩ := r
  obtain ⟨he, hwe⟩ := erase_tame c s1
  dsimp only at *
  generalize backing_store_erase s1 = r at he hwe
  obtain ⟨ok, s2⟩ := r
  cases ok
  · exact ⟨hu.trans he, .inl (hwe.trans hwa)⟩
  · exact ⟨(hu.trans he).trans (write_consolidated_tame hc s2), .inr rfl⟩

theorem consolidate_if_needed_tame {c : Config} (hc : c.log_start ≤ c.backing_size) {s : State}
    (ha : Aligned c s) : Tame c s (wear_leveling_consolidate_if_needed c s).2 ∧
      Aligned c (wear_leveling_consolidate_if_needed c s).2 := by
  unfold wear_leveling_consolidate_if_needed
  split
  · obtain ⟨h1, h2 | h2⟩ := consolidate_force_tame hc s
    · exact ⟨h1, by rw [Aligned, h2]; exact ha⟩
    · exact ⟨h1, by rw [Aligned, h2]; exact log_start_aligned c⟩
  · exact ⟨Tame.refl c s, ha⟩

/-! ## Appends -/

theorem word_room {c : Config} (ha : a % c.write_size = 0) (h : a < c.backing_size) :
    a + c.write_size ≤ c.backing_size := by
  obtain ⟨j, hj⟩ := Nat.dvd_of_mod_eq_zero ha
  obtain ⟨k, hk⟩ := (write_size_dvd c).2.1
  have hjk : j < k := by
    rw [hj, hk] at h
    exact Nat.lt_of_mul_lt_mul_left h
  calc a + c.write_size = c.write_size * (j + 1) := by rw [hj, Nat.mul_succ]
    _ ≤ c.write_size * k := Nat.mul_le_mul_left _ hjk
    _ = c.backing_size := hk.symm

theorem append_raw_tame {c : Config} (hc : c.log_start ≤ c.backing_size) {w : List UInt8}
    (hw : w.length = c.write_size) {s : State} (ha : Aligned c s)
    (hroom : s.write_address < c.backing_size) :
    Tame c s (wear_leveling_append_raw c w s).2 ∧ Aligned c (wear_leveling_append_raw c w s).2 ∧
    ((wear_leveling_append_raw c w s).1 = .Success →
      (wear_leveling_append_raw c w s).2.write_address < c.backing_size) := by
  have hb := c.backing_addressable
  have hword := word_room ha hroom
  obtain ⟨h1, h2⟩ := write_tame (c := c) (a := s.write_address) (v := w) (by omega) s
  unfold wear_leveling_append_raw
  generalize backing_store_write s.write_address w s = r at *
  obtain ⟨ok, s1⟩ := r
  cases ok
  · refine ⟨h1, ?_, nofun⟩
    rw [Aligned, h2]
    exact ha
  · dsimp only at h2 ⊢
    rw [h2, u32_of_lt (by omega)]
    have hnext : (s.write_address + c.write_size) % c.write_size = 0 := by
      rw [Nat.add_mod_right]; exact ha
    obtain ⟨g1, g2⟩ := consolidate_if_needed_tame hc
      (s := { s1 with write_address := s.write_address + c.write_size }) hnext
    refine ⟨h1.trans g1, g2, ?_⟩
    unfold wear_leveling_consolidate_if_needed
    split
    · intro hs
      rcases consolidate_force_cases c
        { s1 with write_address := s.write_address + c.write_size } with ⟨_, h, -⟩ | ⟨_, h, -⟩
      · rw [h] at hs; exact absurd hs (by simp)
      · rw [h] at hs; exact absurd hs (by simp)
    · rename_i hlt
      exact fun _ => Nat.lt_of_not_le hlt

theorem append_all_tame {c : Config} (hc : c.log_start ≤ c.backing_size)
    (words : List (List UInt8)) (hw : ∀ w ∈ words, w.length = c.write_size) {s : State}
    (ha : Aligned c s) (hroom : s.write_address < c.backing_size) :
    Tame c s (append_all c words s).2 ∧ Aligned c (append_all c words s).2 := by
  induction words generalizing s with
  | nil => exact ⟨Tame.refl c s, ha⟩
  | cons w words ih =>
    obtain ⟨h1, h2, h3⟩ := append_raw_tame hc (hw w List.mem_cons_self) ha hroom
    unfold append_all
    generalize wear_leveling_append_raw c w s = r at *
    obtain ⟨status, s1⟩ := r
    cases status with
    | Success =>
      obtain ⟨g1, g2⟩ := ih (fun v hv => hw v (List.mem_cons_of_mem _ hv)) h2 (h3 rfl)
      exact ⟨h1.trans g1, g2⟩
    | Failed => exact ⟨h1, h2⟩
    | Consolidated => exact ⟨h1, h2⟩

/-! ## Playback -/

/-- The bytes of a multi-byte entry that hold its address and its length, in
whole words. -/
def headerSize (c : Config) : Nat := c.write_size + if c.write_size = 2 then c.write_size else 0

def entrySize (c : Config) (m : Nat → UInt8) (a : Nat) : Option Nat :=
  let word := readBlock m a c.write_size
  let header := readBlock m a (headerSize c)
  if LOG_ENTRY_GET_TYPE word = 0 then
    if LOG_ENTRY_MULTIBYTE_GET_ADDRESS header + LOG_ENTRY_MULTIBYTE_GET_LENGTH header >
      c.logical_size then none
    else some (multibyteSize c (LOG_ENTRY_MULTIBYTE_GET_LENGTH header))
  else if c.write_size = 2 ∧ LOG_ENTRY_GET_TYPE word = 1 then
    if LOG_ENTRY_OPTIMIZED_64_GET_ADDRESS word ≥ c.logical_size then none else some c.write_size
  else if c.write_size = 2 ∧ LOG_ENTRY_GET_TYPE word = 2 then
    if LOG_ENTRY_WORD_01_GET_ADDRESS word + 1 ≥ c.logical_size then none else some c.write_size
  else none

/-- The addresses that the playback comes to. -/
inductive Visits (c : Config) (m : Nat → UInt8) : Nat → Prop
  | start : Visits c m c.log_start
  | next {a n : Nat} (h : Visits c m a) (room : a < c.backing_size)
    (word : readBlock m a c.write_size ≠ List.replicate c.write_size 0)
    (size : entrySize c m a = some n) : Visits c m (a + n)

/-- A multi-byte entry at `a` has its header in the store, and its value too
when the playback takes it. The value has at most 5 bytes. -/
def WholeEntry (c : Config) (m : Nat → UInt8) (a : Nat) : Prop :=
  LOG_ENTRY_GET_TYPE (readBlock m a c.write_size) = 0 →
    let header := readBlock m a (headerSize c)
    a + headerSize c ≤ c.backing_size ∧
      (LOG_ENTRY_MULTIBYTE_GET_ADDRESS header + LOG_ENTRY_MULTIBYTE_GET_LENGTH header ≤
          c.logical_size →
        LOG_ENTRY_MULTIBYTE_GET_LENGTH header ≤ 5 ∧
          a + multibyteSize c (LOG_ENTRY_MULTIBYTE_GET_LENGTH header) ≤ c.backing_size)

/-- Every entry that the playback comes to is whole. -/
def CleanLog (c : Config) (m : Nat → UInt8) : Prop :=
  ∀ a, Visits c m a → a < c.backing_size →
    readBlock m a c.write_size ≠ List.replicate c.write_size 0 → WholeEntry c m a

structure Playback.Reads (c : Config) (s : State) (a n : Nat) (p : Playback) : Prop where
  tame : Tame c s p.state
  store : p.state.store = s.store
  read : p.status = .Failed ∨
    (p.status = .Success ∧ p.log = readBlock s.store a n ∧ p.address = a + n)

variable {p : Playback}

theorem Playback.Reads.word {c : Config} {s : State} (h : p.Reads c s a n) (needed : Bool)
    (room : a + (n + if needed then c.write_size else 0) ≤ c.backing_size) :
    (p.word c needed).Reads c s a (n + if needed then c.write_size else 0) := by
  obtain ⟨h1, h2, h3⟩ := h
  rcases h3 with h3 | ⟨h3, h4, h5⟩
  · have hp : p.word c needed = p := by simp [Playback.word, h3]
    rw [hp]
    exact ⟨h1, h2, .inl h3⟩
  · cases needed
    · exact ⟨h1, h2, .inr ⟨h3, h4, h5⟩⟩
    · simp only [if_true] at room
      obtain ⟨g1, g2, -, g4⟩ := read_tame (c := c) (a := p.address) (by omega) p.state
      unfold Playback.word
      simp only [h3, ne_eq, reduceCtorEq, not_false_eq_true, decide_true, Bool.and_self, if_true]
      generalize backing_store_read c p.address p.state = r at *
      obtain ⟨ok, value, s1⟩ := r
      cases ok
      · exact ⟨h1.trans g1, g2.trans h2, .inl rfl⟩
      · refine ⟨h1.trans g1, g2.trans h2, .inr ⟨rfl, ?_, ?_⟩⟩
        · have hvalue : value = readBlock s.store (a + n) c.write_size := by
            rw [← h5, ← h2]; exact g4 rfl
          rw [h4, readBlock_add, hvalue]
        · simp [h5, Nat.add_assoc]

theorem Playback.Reads.rest {c : Config} {s : State} (h : p.Reads c s a (headerSize c)) (l : Nat)
    (room : a + multibyteSize c l ≤ c.backing_size) :
    (p.rest c l).Reads c s a (multibyteSize c l) := by
  unfold multibyteSize at *
  unfold headerSize at h
  have h1 := h.word (c.write_size = 2 ∧ l > 1) (by simp only [decide_eq_true_eq]; omega)
  have h2 := h1.word (c.write_size = 2 ∧ l > 3) (by simp only [decide_eq_true_eq]; omega)
  have h3 := h2.word (c.write_size = 4 ∧ l > 1) (by simp only [decide_eq_true_eq]; omega)
  simp only [decide_eq_true_eq] at h3
  exact h3

/-- The playback of the entry at `a` is over. -/
structure Played (c : Config) (s : State) (a : Nat) (p : Playback) : Prop where
  tame : Tame c s p.state
  store : p.state.store = s.store
  next : p.status = .Failed ∨ ∃ n, entrySize c s.store a = some n ∧ p.address = a + n

theorem playback_multibyte_played {c : Config} {s : State} (h : p.Reads c s a c.write_size)
    (hw : WholeEntry c s.store a)
    (htype : LOG_ENTRY_GET_TYPE (readBlock s.store a c.write_size) = 0) :
    Played c s a (playback_multibyte c p) := by
  obtain ⟨hroom, hvalue⟩ := hw htype
  have h1 : (p.word c (c.write_size = 2)).Reads c s a (headerSize c) := by
    have := h.word (c.write_size = 2) (by simpa [headerSize] using hroom)
    simpa [headerSize] using this
  unfold playback_multibyte
  generalize p.word c (c.write_size = 2) = p1 at h1
  dsimp only
  split
  · rename_i hf
    exact ⟨h1.tame, h1.store, .inl hf⟩
  · rename_i hok
    obtain ⟨-, hlog, -⟩ := h1.read.resolve_left hok
    rw [hlog]
    split
    · exact ⟨h1.tame, h1.store, .inl rfl⟩
    · rename_i hfits
      obtain ⟨h5, hsize⟩ := hvalue (Nat.le_of_not_lt hfits)
      have hl := multibyteSize_le c
        (LOG_ENTRY_MULTIBYTE_GET_LENGTH (readBlock s.store a (headerSize c)))
      have h2 := h1.rest _ hsize
      have hnext : entrySize c s.store a = some (multibyteSize c
          (LOG_ENTRY_MULTIBYTE_GET_LENGTH (readBlock s.store a (headerSize c)))) := by
        unfold entrySize
        rw [if_pos htype, if_neg hfits]
      generalize LOG_ENTRY_MULTIBYTE_GET_LENGTH (readBlock s.store a (headerSize c)) = l at *
      generalize LOG_ENTRY_MULTIBYTE_GET_ADDRESS (readBlock s.store a (headerSize c)) = b at *
      generalize p1.rest c l = p2 at h2
      split
      · rename_i hf
        exact ⟨h2.tame, h2.store, .inl hf⟩
      · rename_i hok2
        obtain ⟨-, hlog2, haddr2⟩ := h2.read.resolve_left hok2
        refine ⟨?_, h2.store, .inr ⟨_, hnext, haddr2⟩⟩
        refine (h2.tame.trans (Tame.of_cons rfl ?_)).trans (Tame.of_cons rfl ?_)
        · change 3 ≤ 3 ∧ 3 + l ≤ p2.log.length ∧ 3 + l ≤ 8
          rw [hlog2, readBlock_length]
          omega
        · change b + (List.map _ (List.range l)).length ≤ c.logical_size
          simpa using hfits

theorem playback_at_played {c : Config} {s : State} (hw : WholeEntry c s.store a) :
    Played c s a (playback_at c a (readBlock s.store a c.write_size) s) := by
  have htame : Tame c s s := Tame.refl c s
  unfold playback_at playback_entry
  split
  · rename_i htype
    exact playback_multibyte_played ⟨htame, rfl, .inr ⟨rfl, rfl, rfl⟩⟩ hw htype
  rename_i h0
  split
  · rename_i h1
    unfold playback_optimized_64
    dsimp only
    split
    · exact ⟨htame, rfl, .inl rfl⟩
    · rename_i hlt
      refine ⟨Tame.of_cons rfl (Nat.lt_of_not_le hlt), rfl, .inr ⟨c.write_size, ?_, rfl⟩⟩
      unfold entrySize
      rw [if_neg h0, if_pos h1, if_neg hlt]
  rename_i h1
  split
  · rename_i h2
    unfold playback_word_01
    dsimp only
    split
    · exact ⟨htame, rfl, .inl rfl⟩
    · rename_i hlt
      refine ⟨Tame.of_cons rfl (Nat.lt_of_not_le hlt), rfl, .inr ⟨c.write_size, ?_, rfl⟩⟩
      unfold entrySize
      rw [if_neg h0, if_neg h1, if_pos h2, if_neg hlt]
  · exact ⟨htame, rfl, .inl rfl⟩

theorem entrySize_aligned {c : Config} {m : Nat → UInt8} (h : entrySize c m a = some n) :
    n % c.write_size = 0 := by
  unfold entrySize at h
  dsimp only at h
  split_ifs at h
  · obtain ⟨k, hk⟩ := multibyteSize_words c
      (LOG_ENTRY_MULTIBYTE_GET_LENGTH (readBlock m a (headerSize c)))
    rw [← Option.some.inj h, hk]
    exact Nat.mul_mod_left k c.write_size
  · rw [← Option.some.inj h]; exact Nat.mod_self _
  · rw [← Option.some.inj h]; exact Nat.mod_self _

theorem playback_read_played {c : Config} {s : State} (hlog : CleanLog c s.store)
    (hv : Visits c s.store a) (ha : a % c.write_size = 0) (hlt : a < c.backing_size)
    (hr : ¬ (backing_store_read c a s).1 = false)
    (hz : ¬ (backing_store_read c a s).2.1 = List.replicate c.write_size 0) :
    Played c s a (playback_at c a (backing_store_read c a s).2.1 (backing_store_read c a s).2.2) ∧
      readBlock s.store a c.write_size ≠ List.replicate c.write_size 0 := by
  obtain ⟨h1, h2, -, h4⟩ := read_tame (word_room ha hlt) s
  generalize backing_store_read c a s = r at *
  obtain ⟨ok, value, s1⟩ := r
  rw [h4 (by simpa using hr)] at hz ⊢
  have hp := playback_at_played (s := s1) (by rw [h2]; exact hlog a hv hlt hz)
  have hnext := hp.next
  rw [h2] at hp hnext
  exact ⟨⟨h1.trans hp.tame, hp.store.trans h2, hnext⟩, hz⟩

theorem playback_loop_tame (c : Config) (a : Nat) (s : State) (hlog : CleanLog c s.store)
    (hv : Visits c s.store a) (ha : a % c.write_size = 0) :
    Tame c s (playback_loop c a s).2.2 ∧ ((playback_loop c a s).1 ≠ .Failed →
      (playback_loop c a s).2.1 % c.write_size = 0) := by
  fun_induction playback_loop c a s with
  | case1 a s hlt r hr =>
    exact ⟨(read_tame (word_room ha hlt) s).1, fun h => absurd rfl h⟩
  | case2 a s hlt r hr hz =>
    exact ⟨(read_tame (word_room ha hlt) s).1, fun _ => ha⟩
  | case3 a s hlt r hr hz p hp =>
    exact ⟨(playback_read_played hlog hv ha hlt hr hz).1.tame, fun h => absurd rfl h⟩
  | case4 a s hlt r hr hz p hp ih =>
    obtain ⟨hplayed, hword⟩ := playback_read_played hlog hv ha hlt hr hz
    obtain ⟨n, hn, haddr⟩ := hplayed.next.resolve_left hp
    have haddr' : p.address = a + n := haddr
    have hstore : p.state.store = s.store := hplayed.store
    have hnext : Visits c s.store p.address := haddr' ▸ hv.next hlt hword hn
    have halign : p.address % c.write_size = 0 := by
      rw [haddr', Nat.add_mod, ha, entrySize_aligned hn]
      exact Nat.zero_mod _
    obtain ⟨g1, g2⟩ := ih (hstore ▸ hlog) (hstore ▸ hnext) halign
    exact ⟨hplayed.tame.trans g1, g2⟩
  | case5 a s hlt => exact ⟨Tame.refl c s, fun _ => ha⟩

/-! ## The interface -/

theorem read_consolidated_tame {c : Config} (hc : c.log_start ≤ c.backing_size) (s : State) :
    Tame c s (wear_leveling_read_consolidated c s).2 ∧
      (wear_leveling_read_consolidated c s).2.store = s.store := by
  have hl := logical_words c
  obtain ⟨k, hk⟩ := write_size_dvd_eight c
  have hk' : 8 / c.write_size = k := by rw [hk, Nat.mul_div_cancel k c.write_size_pos]
  unfold Config.log_start at hc
  obtain ⟨h1, h2, h3⟩ := read_bulk_tame (c := c) (a := 0) (c.logical_size / c.write_size)
    (by omega) s
  unfold wear_leveling_read_consolidated
  generalize backing_store_read_bulk c 0 (c.logical_size / c.write_size) s = r at *
  obtain ⟨ok, image, s1⟩ := r
  dsimp only at *
  cases ok
  · exact ⟨h1, h2⟩
  · rw [← hl] at h3
    have hupdate : Tame c s1 (s1.update 0 image) :=
      Tame.of_cons rfl (by change 0 + image.length ≤ c.logical_size; omega)
    obtain ⟨g1, g2, -⟩ := read_bulk_tame (c := c) (a := c.logical_size) (8 / c.write_size)
      (by rw [hk', ← hk]; omega) (s1.update 0 image)
    dsimp only
    have h12 := (h1.trans hupdate).trans g1
    split
    · exact ⟨h12, g2.trans h2⟩
    · exact ⟨h12, g2.trans h2⟩

theorem playback_log_tame {c : Config} (hc : c.log_start ≤ c.backing_size) {s : State}
    (hlog : CleanLog c s.store) : Tame c s (wear_leveling_playback_log c s).2 ∧
      ((wear_leveling_playback_log c s).1 ≠ .Failed →
        Aligned c (wear_leveling_playback_log c s).2) := by
  obtain ⟨h1, h2⟩ := playback_loop_tame c c.log_start s hlog .start (log_start_aligned c)
  unfold wear_leveling_playback_log
  generalize playback_loop c c.log_start s = r at h1 h2
  obtain ⟨status, address, s1⟩ := r
  dsimp only at *
  have hforce : Tame c s (wear_leveling_consolidate_force c { s1 with write_address := address }).2 ∧
      ((wear_leveling_consolidate_force c { s1 with write_address := address }).1 ≠ .Failed →
        Aligned c (wear_leveling_consolidate_force c { s1 with write_address := address }).2) := by
    obtain ⟨g1, -⟩ := consolidate_force_tame hc { s1 with write_address := address }
    refine ⟨h1.trans g1, fun hok => ?_⟩
    rcases consolidate_force_cases c { s1 with write_address := address } with
      ⟨s2, heq, hs2⟩ | ⟨s2, heq, -⟩
    · rw [heq, Aligned, hs2.write_address]
      exact log_start_aligned c
    · rw [heq] at hok
      exact absurd rfl hok
  unfold wear_leveling_consolidate_if_needed
  split
  · exact hforce
  · rename_i hok
    split
    · exact hforce
    · exact ⟨h1, fun _ => h2 hok⟩

theorem init_tame {c : Config} (hc : c.log_start ≤ c.backing_size) {s : State}
    (hlog : CleanLog c s.store) :
    Tame c s (wear_leveling_init c s).2 ∧ Aligned c (wear_leveling_init c s).2 := by
  have hstart := log_start_aligned c
  obtain ⟨h1, h2, -⟩ := call_tame c (wear_leveling_clear_cache c s)
  unfold wear_leveling_init backing_store_init
  dsimp only
  generalize backing_store_call (wear_leveling_clear_cache c s) = r at h1 h2
  obtain ⟨ok, s1⟩ := r
  have h1' : Tame c s s1 := h1
  cases ok
  · exact ⟨h1', hstart⟩
  obtain ⟨g1, g2⟩ := read_consolidated_tame hc s1
  dsimp only
  generalize wear_leveling_read_consolidated c s1 = r at g1 g2
  obtain ⟨status, s2⟩ := r
  have hs2 : s2.store = s.store := g2.trans h2
  obtain ⟨k1, k2⟩ := playback_log_tame hc (s := s2) (hs2 ▸ hlog)
  have htame := (h1'.trans g1).trans k1
  cases status with
  | Failed => exact ⟨h1'.trans g1, hstart⟩
  | Success | Consolidated =>
    dsimp only
    generalize wear_leveling_playback_log c s2 = r at k2 htame
    obtain ⟨status', s3⟩ := r
    cases status' with
    | Failed => exact ⟨htame, hstart⟩  -- a failed playback ends in a cleared cache
    | Success | Consolidated => exact ⟨htame, k2 fun h => Status.noConfusion h⟩

theorem interface_erase_tame (c : Config) (s : State) :
    Tame c s (wear_leveling_erase c s).2 ∧ (Aligned c s → Aligned c (wear_leveling_erase c s).2) := by
  have hstart := log_start_aligned c
  have hu := unlock_tame c s
  have hwa := (unlock_keeps s).2.1
  unfold wear_leveling_erase
  generalize wear_leveling_unlock s = r at hu hwa
  obtain ⟨lock_status, s1⟩ := r
  have hlock : ∀ s2, Tame c s s2 → Tame c s (wear_leveling_lock s2).2 :=
    fun s2 h => h.trans (lock_tame c s2)
  have hlock_wa : ∀ s2, (wear_leveling_lock s2).2.write_address = s2.write_address :=
    fun s2 => (lock_keeps s2).2.1
  obtain ⟨he, -⟩ := erase_tame c s1
  have he' : Tame c s (wear_leveling_clear_cache c (backing_store_erase s1).2) := hu.trans he
  cases lock_status with
  | Failure =>
    refine ⟨hlock s1 hu, fun h => ?_⟩
    rw [Aligned, hlock_wa, hwa]
    exact h
  | Success =>
    refine ⟨hlock _ he', fun _ => ?_⟩
    change (wear_leveling_lock _).2.write_address % c.write_size = 0
    rw [hlock_wa]
    exact hstart
  | Unchanged => exact ⟨he', fun _ => hstart⟩

/-- The call of a write that appends only while the log has room. -/
theorem interface_write_tame {c : Config} (hc : c.log_start ≤ c.backing_size) {s : State}
    (ha : Aligned c s) {v : List UInt8} (hv : a + v.length ≤ c.logical_size)
    (hroom : s.write_address < c.backing_size) :
    Tame c s (wear_leveling_write c a v s).2 ∧ Aligned c (wear_leveling_write c a v s).2 := by
  unfold wear_leveling_write
  split
  · exact ⟨Tame.refl c s, ha⟩
  split
  · exact ⟨Tame.refl c s, ha⟩
  have hupdate : Tame c s (s.update a v) := Tame.of_cons rfl hv
  have hu := hupdate.trans (unlock_tame c (s.update a v))
  have hwa : (wear_leveling_unlock (s.update a v)).2.write_address = s.write_address :=
    (unlock_keeps (s.update a v)).2.1
  generalize wear_leveling_unlock (s.update a v) = r at hu hwa
  obtain ⟨lock_status, s1⟩ := r
  have hlock : ∀ s2, Tame c s s2 ∧ Aligned c s2 →
      Tame c s (wear_leveling_lock s2).2 ∧ Aligned c (wear_leveling_lock s2).2 := by
    rintro s2 ⟨h1, h2⟩
    refine ⟨h1.trans (lock_tame c s2), ?_⟩
    rw [Aligned, (lock_keeps s2).2.1]
    exact h2
  have ha1 : Aligned c s1 := by rw [Aligned, hwa]; exact ha
  have hrest : ∀ lock_status, Tame c s (wear_leveling_write_unlocked c a v lock_status s1).2 ∧
      Aligned c (wear_leveling_write_unlocked c a v lock_status s1).2 := by
    intro lock_status
    obtain ⟨g1, g2⟩ := append_all_tame hc ((entriesOf c a v hv).flatMap LogEntry.words)
      (length_of_mem_flatMap_words _) ha1 (by rw [hwa]; exact hroom)
    rw [← write_raw_eq] at g1 g2
    unfold wear_leveling_write_unlocked
    generalize wear_leveling_write_raw c a v s1 = r at g1 g2
    obtain ⟨status, s2⟩ := r
    cases status with
    | Success =>
      obtain ⟨k1, k2⟩ := consolidate_if_needed_tame hc (s := s2) g2
      dsimp only
      split
      · exact hlock _ ⟨(hu.trans g1).trans k1, k2⟩
      · exact ⟨(hu.trans g1).trans k1, k2⟩
    | Failed | Consolidated =>
      dsimp only
      split
      · exact hlock _ ⟨hu.trans g1, g2⟩
      · exact ⟨hu.trans g1, g2⟩
  cases lock_status with
  | Failure => exact hlock s1 ⟨hu, ha1⟩
  | Success => exact hrest _
  | Unchanged => exact hrest _

/-! ## Runs -/

/-- A call of the interface, with the answers that the driver gives while it
runs. -/
inductive FaultyOp where
  | init (answers : List Answer)
  | write (address : Nat) (value : List UInt8) (answers : List Answer)
  | erase (answers : List Answer)

def faultyStep (c : Config) (s : State) : FaultyOp → State
  | .init as => (wear_leveling_init c { s with answers := as }).2
  | .write a v as => (wear_leveling_write c a v { s with answers := as }).2
  | .erase as => (wear_leveling_erase c { s with answers := as }).2

/-- The calls that stay in bounds: an init over a clean log, and a write
that is turned away, that the cache answers, or that has room in the log.
A consolidation that was refused leaves no room. -/
def Guarded (c : Config) (s : State) : FaultyOp → Prop
  | .init _ => CleanLog c s.store
  | .write a v _ => c.logical_size < u32 (a + v.length) ∨ readBlock s.cache a v.length = v ∨
      (a + v.length ≤ c.logical_size ∧ s.write_address < c.backing_size)
  | .erase _ => True

theorem faultyStep_tame {c : Config} (hc : c.log_start ≤ c.backing_size) {s : State}
    (ha : Aligned c s) {op : FaultyOp} (hop : Guarded c s op) :
    Tame c s (faultyStep c s op) ∧ Aligned c (faultyStep c s op) := by
  cases op with
  | init as => exact init_tame hc (s := { s with answers := as }) hop
  | write a v as =>
    change Tame c s (wear_leveling_write c a v { s with answers := as }).2 ∧
      Aligned c (wear_leveling_write c a v { s with answers := as }).2
    rcases hop with h | h | ⟨h1, h2⟩
    · have hrun : wear_leveling_write c a v { s with answers := as } =
          (.Failed, { s with answers := as }) := by
        exact if_pos h
      rw [hrun]
      exact ⟨Tame.refl c s, ha⟩
    · unfold wear_leveling_write
      split
      · exact ⟨Tame.refl c s, ha⟩
      · exact ⟨Tame.refl c s, ha⟩
    · exact interface_write_tame hc (s := { s with answers := as }) ha h1 h2
  | erase as =>
    obtain ⟨h1, h2⟩ := interface_erase_tame c { s with answers := as }
    exact ⟨h1, h2 ha⟩

/-- The device before the first call, on any content of the store. -/
def State.over (m : Nat → UInt8) : State := { State.erased with store := m }

/-- On any content of the store, and over a driver that can refuse any of
its calls: in every run whose calls are guarded, every access is in bounds. -/
theorem every_access_is_in_bounds (c : Config) (hc : c.log_start ≤ c.backing_size)
    (m : Nat → UInt8) (ops : List FaultyOp) (h : Along (faultyStep c) (Guarded c) (.over m) ops) :
    ∀ x ∈ (ops.foldl (faultyStep c) (.over m)).trace, x.InBounds c := by
  have hstep : ∀ s op, (Tame c (.over m) s ∧ Aligned c s) → Guarded c s op →
      Tame c (.over m) (faultyStep c s op) ∧ Aligned c (faultyStep c s op) := by
    rintro s op ⟨h1, h2⟩ hop
    obtain ⟨g1, g2⟩ := faultyStep_tame hc h2 hop
    exact ⟨h1.trans g1, g2⟩
  obtain ⟨htame, -⟩ := Along.invariant hstep ⟨Tame.refl c _, Nat.zero_mod _⟩ h
  intro x hx
  rcases htame x hx with hx | hx
  · exact absurd hx (by simp [State.over, State.erased])
  · exact hx

theorem cleanLog_erased (c : Config) : CleanLog c fun _ => 0 := by
  intro a _ _ hz
  refine absurd ?_ hz
  simp [readBlock]

theorem every_access_is_in_bounds_small :
    ([.init [], .write 3 [1, 2, 3] [.done, .refused fun _ => 0], .erase []].foldl
      (faultyStep smallConfig) (.over fun _ => 0)).trace.Forall fun x => x.InBounds smallConfig := by
  refine List.forall_iff_forall_mem.mpr (every_access_is_in_bounds smallConfig (by decide) _ _ ?_)
  exact ⟨cleanLog_erased smallConfig, .inr (.inr ⟨by decide, by decide +kernel⟩), trivial, trivial⟩

def longEntryStore : Nat → UInt8 := patch (fun _ => 0) 16 [0x38, 0, 0, 1, 2, 3, 4, 5]

/-- The playback copies the bytes 3 to 9 of the 8-byte entry of length 7. -/
theorem a_long_entry_is_copied_from_outside :
    ¬ ∀ (c : Config) (m : Nat → UInt8) (ops : List FaultyOp),
      ∀ x ∈ (ops.foldl (faultyStep c) (.over m)).trace, x.InBounds c := by
  intro h
  have hbad := h smallConfig longEntryStore [.init []] (.entry 3 10 8) (by decide +kernel)
  revert hbad
  decide

end keychron_qmk.wear_leveling
