-- With a driver that works: the playback of a log gives the logical data
-- after its entries, and the address after its last entry.
import KeychronQMK.WearLeveling.LogEntries

namespace keychron_qmk.wear_leveling

open memory

/-! ## The driver calls -/

def Works (s : State) : Prop := s.answers = []

variable {s : State}

theorem Works.log (h : Works s) (a : Access) : Works (s.log a) := h

theorem call_works (h : Works s) : backing_store_call s = (true, s) := by
  obtain ⟨_, _, _, _, _, _, _⟩ := s
  cases h
  rfl

theorem read_works (h : Works s) (c : Config) (a : Nat) :
    backing_store_read c a s = (true, readBlock s.store a c.write_size, s.log (.read a)) := by
  obtain ⟨_, _, _, _, _, _, _⟩ := s
  cases h
  rfl

theorem erase_works (h : Works s) :
    backing_store_erase s = (true, { s.log .erase with store := fun _ => 0 }) := by
  obtain ⟨_, _, _, _, _, _, _⟩ := s
  cases h
  rfl

theorem write_works (h : Works s) (a : Nat) (v : List UInt8) :
    backing_store_write a v s =
      (true, { s.log (.write a v) with store := patch s.store a v }) := by
  obtain ⟨_, _, _, _, _, _, _⟩ := s
  cases h
  rfl

def Reads (c : Config) (n : Nat) (s : State) : Prop := ∀ a, a + c.write_size ≤ n → ∀ cache t,
  backing_store_read c a { s with cache := cache, trace := t } =
    (true, readBlock s.store a c.write_size, { s with cache := cache, trace := .read a :: t })

theorem Works.reads {s : State} (h : Works s) (c : Config) (n : Nat) : Reads c n s :=
  fun a _ cache t => read_works (s := { s with cache := cache, trace := t }) h c a

variable {n N : Nat}

theorem Reads.trace {c : Config} (h : Reads c n s) (cache : Nat → UInt8) (t : List Access) :
    Reads c n { s with cache := cache, trace := t } := h

theorem Reads.read {c : Config} (h : Reads c n s) {a : Nat} (room : a + c.write_size ≤ n) :
    backing_store_read c a s = (true, readBlock s.store a c.write_size, s.log (.read a)) :=
  h a room s.cache s.trace

theorem Reads.read_bulk {c : Config} (h : Reads c N s) (a n : Nat)
    (room : a + n * c.write_size ≤ N) :
    ∃ t, backing_store_read_bulk c a n s =
      (true, readBlock s.store a (n * c.write_size), { s with trace := t }) := by
  induction n generalizing a s with
  | zero => exact ⟨s.trace, by simp [backing_store_read_bulk]⟩
  | succ n ih =>
    rw [Nat.succ_mul] at room
    obtain ⟨t, ht⟩ := ih (h.trace s.cache (.read a :: s.trace)) (a + c.write_size) (by omega)
    refine ⟨t, ?_⟩
    rw [backing_store_read_bulk, h.read (by omega), State.log]
    simp only [ht]
    rw [Nat.add_comm n 1, Nat.add_mul, Nat.one_mul, readBlock_add]

/-! ## The words of one entry -/

/-- The playback stands in the entry that starts at `a`, with `n` of its
bytes read. -/
structure Playback.At (s : State) (a n : Nat) (p : Playback) : Prop where
  status : p.status = .Success
  log : p.log = readBlock s.store a n
  address : p.address = a + n
  state : ∃ t, p.state = { s with trace := t }

variable {p : Playback}

theorem Playback.At.word_reads {c : Config} {a : Nat} (h : p.At s a n) (hs : Reads c N s)
    (needed : Bool) (room : a + (n + if needed then c.write_size else 0) ≤ N) :
    (p.word c needed).At s a (n + if needed then c.write_size else 0) := by
  obtain ⟨h1, h2, h3, t, ht⟩ := h
  unfold Playback.word
  cases needed
  · exact ⟨h1, by simpa using h2, by simpa using h3, t, by simpa using ht⟩
  · simp only [if_true] at room
    have hr : backing_store_read c p.address p.state =
        (true, readBlock s.store (a + n) c.write_size, p.state.log (.read p.address)) := by
      rw [ht, h3, (hs.trace s.cache t).read (by omega)]
    simp only [h1, hr, ne_eq, reduceCtorEq, not_false_eq_true, decide_true, Bool.and_self,
      if_true]
    refine ⟨rfl, ?_, ?_, .read p.address :: t, ?_⟩
    · rw [h2, readBlock_add]
    · rw [h3, Nat.add_assoc]
    · rw [ht, State.log]

theorem Playback.At.word {a : Nat} (h : p.At s a n) (hs : Works s) (c : Config) (needed : Bool) :
    (p.word c needed).At s a (n + if needed then c.write_size else 0) :=
  h.word_reads (hs.reads c _) needed (Nat.le_refl _)

theorem Playback.At.rest {a : Nat} (h : p.At s a n) (hs : Works s) (c : Config) (l : Nat)
    (hn : n = c.write_size + if c.write_size = 2 then c.write_size else 0) :
    (p.rest c l).At s a (multibyteSize c l) := by
  have h3 := ((h.word hs c (c.write_size = 2 ∧ l > 1)).word hs c (c.write_size = 2 ∧ l > 3)).word
    hs c (c.write_size = 4 ∧ l > 1)
  simp only [decide_eq_true_eq, hn] at h3
  exact h3

theorem readBlock_getD (m : Nat → UInt8) (a n i : Nat) (h : i < n) {d : UInt8} :
    (readBlock m a n).getD i d = m (a + i) := by
  rw [List.getD_eq_getElem?_getD, readBlock_getElem? _ _ _ _ h, Option.getD_some]

/-! ## One entry -/

theorem LogEntry.bytes_length {c : Config} (e : LogEntry c) :
    e.bytes.length = match e with
      | multibyte _ v .. => multibyteSize c v.length
      | _ => 2 := by
  cases e with
  | multibyte a v h1 h2 h3 =>
    have := (multibyteSize_le c v.length).2
    simp [LogEntry.bytes, LOG_ENTRY_MAKE_MULTIBYTE]
    omega
  | optimized_64 => rfl
  | word_01 => rfl

theorem LogEntry.write_size_le {c : Config} (e : LogEntry c) :
    c.write_size ≤ e.bytes.length := by
  rw [e.bytes_length]
  cases e with
  | multibyte => simp only [multibyteSize]; omega
  | optimized_64 _ _ two => simp [two]
  | word_01 _ _ two => simp [two]

def Stores {c : Config} (m : Nat → UInt8) (a : Nat) (e : LogEntry c) : Prop :=
  readBlock m a e.bytes.length = e.bytes

theorem Stores.byte {c : Config} {m : Nat → UInt8} {a : Nat} {e : LogEntry c} (h : Stores m a e)
    {i : Nat} {x : UInt8} (hi : e.bytes[i]? = some x) : m (a + i) = x := by
  obtain ⟨hlt, he⟩ := List.getElem?_eq_some_iff.mp hi
  rw [← he]
  exact readBlock_eq_iff.mp h i hlt

section

variable {c : Config} {m : Nat → UInt8} {a0 a : Nat} {v : List UInt8} {h1 : 0 < v.length}
  {h2 : v.length ≤ 5} {h3 : a + v.length ≤ c.logical_size}

theorem multibyte_byte (h : Stores m a0 (.multibyte (c := c) a v h1 h2 h3)) {i : Nat} {x : UInt8}
    (hi : i < 3 + v.length)
    (hx : ([UInt8.ofNat (v.length * 8 + a / 65536), UInt8.ofNat (a / 256 % 256),
      UInt8.ofNat (a % 256)] ++ v)[i]? = some x) : m (a0 + i) = x := by
  have hsize := multibyteSize_le c v.length
  have hlog := c.logical_addressable
  apply h.byte
  unfold LogEntry.bytes
  rw [List.getElem?_take_of_lt (by omega), multibyte_header _ _ (by omega) (by omega),
    List.getElem?_append_left (by simp; omega)]
  exact hx

variable {n : Nat}

theorem multibyte_hasHeader (h : Stores m a0 (.multibyte (c := c) a v h1 h2 h3)) (hn : 3 ≤ n) :
    HasHeader (readBlock m a0 n) (v.length * 8 + a / 65536) (a / 256 % 256)
      (a % 256) := by
  have hlog := c.logical_addressable
  refine ⟨?_, ?_, ?_⟩
  · rw [readBlock_getD _ _ _ _ (by omega), multibyte_byte h (i := 0) (by omega) rfl,
      UInt8.toNat_ofNat']
    omega
  · rw [readBlock_getD _ _ _ _ (by omega), multibyte_byte h (i := 1) (by omega) rfl,
      UInt8.toNat_ofNat']
    omega
  · rw [readBlock_getD _ _ _ _ (by omega), multibyte_byte h (i := 2) (by omega) rfl,
      UInt8.toNat_ofNat']
    omega

theorem multibyte_type (h : Stores m a0 (.multibyte (c := c) a v h1 h2 h3)) (hn : 0 < n) :
    LOG_ENTRY_GET_TYPE (readBlock m a0 n) = 0 := by
  have h0 := (multibyte_hasHeader h (Nat.le_refl 3)).1
  have h3' : ∀ x : Nat, x &&& 3 = x % 4 := fun x => and_mask x 2
  have hlog := c.logical_addressable
  rw [readBlock_getD _ _ _ _ (by omega)] at h0
  unfold LOG_ENTRY_GET_TYPE
  rw [readBlock_getD _ _ _ _ hn, h0, h3', Nat.shiftRight_eq_div_pow]
  omega

theorem multibyte_value (h : Stores m a0 (.multibyte (c := c) a v h1 h2 h3)) (hn : 3 + v.length ≤ n)
    (outside : Nat → UInt8) :
    ((List.range v.length).map fun i => (readBlock m a0 n).getD (3 + i) (outside (3 + i))) = v := by
  apply List.ext_getElem (by simp)
  intro i hi1 hi2
  simp only [List.getElem_map, List.getElem_range]
  rw [readBlock_getD _ _ _ _ (by omega)]
  apply multibyte_byte h (by omega)
  rw [List.getElem?_append_right (by simp), List.getElem?_eq_getElem (by simpa using hi2)]
  simp

theorem playback_multibyte_stores {s : State} (hs : Works s) {p : Playback}
    (hp : p.At s a0 c.write_size) (h : Stores s.store a0 (.multibyte (c := c) a v h1 h2 h3)) :
    ∃ t, playback_multibyte c p = ⟨.Success, readBlock s.store a0 (multibyteSize c v.length),
      a0 + multibyteSize c v.length, { s with cache := patch s.cache a v, trace := t }⟩ := by
  have hsize := multibyteSize_le c v.length
  have hlog := c.logical_addressable
  have hn : 3 ≤ c.write_size + if c.write_size = 2 then c.write_size else 0 := by
    rcases c.write_size_valid with h | h | h <;> rw [h] <;> decide
  have hp1 := hp.word hs c (c.write_size = 2)
  simp only [decide_eq_true_eq] at hp1
  obtain ⟨-, hlen, haddr⟩ := get_multibyte (by omega) (by omega) (multibyte_hasHeader h hn)
  rw [← hp1.log] at hlen haddr
  have hp2 := hp1.rest hs c v.length rfl
  obtain ⟨t, ht⟩ := hp2.state
  unfold playback_multibyte
  simp only [hp1.status, hlen, haddr, reduceCtorEq, if_false, Nat.not_lt.mpr h3, hp2.status]
  rw [hp2.log, hp2.address, ht, multibyte_value h (by omega) (s.outside _)]
  exact ⟨_, rfl⟩

end

/-- The playback of an entry that the store holds makes the update of the
entry, and stops right after it. -/
theorem playback_at_stores {c : Config} (hs : Works s) {a0 : Nat} (e : LogEntry c)
    (h : Stores s.store a0 e) :
    ∃ log t, playback_at c a0 (readBlock s.store a0 c.write_size) s =
      ⟨.Success, log, a0 + e.bytes.length, { s with cache := e.apply s.cache, trace := t }⟩ := by
  have hw := c.write_size_pos
  unfold playback_at playback_entry
  cases e with
  | multibyte a v h1 h2 h3 =>
    have hp : Playback.At s a0 c.write_size ⟨.Success, readBlock s.store a0 c.write_size,
        a0 + c.write_size, s⟩ := ⟨rfl, rfl, rfl, s.trace, rfl⟩
    obtain ⟨t, ht⟩ := playback_multibyte_stores hs hp h
    rw [if_pos (multibyte_type h hw), ht, LogEntry.bytes_length]
    exact ⟨_, _, rfl⟩
  | optimized_64 a v two low fits =>
    have hb0 := h.byte (i := 0) (x := UInt8.ofNat (64 + a)) (by
      rw [LogEntry.bytes, optimized_64_header a v low]; rfl)
    have hb1 := h.byte (i := 1) (x := v) (by
      rw [LogEntry.bytes, optimized_64_header a v low]; rfl)
    have hlog : ((readBlock s.store a0 c.write_size).getD 0 0).toNat = 64 + a := by
      rw [readBlock_getD _ _ _ _ hw, hb0, UInt8.toNat_ofNat']; omega
    obtain ⟨htype, haddr⟩ := get_optimized_64 low hlog
    have hval : LOG_ENTRY_OPTIMIZED_64_GET_VALUE (readBlock s.store a0 c.write_size) = v := by
      unfold LOG_ENTRY_OPTIMIZED_64_GET_VALUE
      rw [readBlock_getD _ _ _ _ (by omega), hb1]
    rw [if_neg (by rw [htype]; decide), if_pos ⟨two, htype⟩, LogEntry.bytes_length]
    simp only [playback_optimized_64, haddr, hval, ge_iff_le, Nat.not_le.mpr fits, if_false]
    exact ⟨_, _, by rw [two]; rfl⟩
  | word_01 a v two even low bit fits =>
    have hb0 := h.byte (i := 0) (x := UInt8.ofNat (128 + v * 32 + a / 512)) (by
      rw [LogEntry.bytes, word_01_header a v low bit]; rfl)
    have hb1 := h.byte (i := 1) (x := UInt8.ofNat (a / 2 % 256)) (by
      rw [LogEntry.bytes, word_01_header a v low bit]; rfl)
    have hlog0 : ((readBlock s.store a0 c.write_size).getD 0 0).toNat = 128 + v * 32 + a / 512 := by
      rw [readBlock_getD _ _ _ _ hw, hb0, UInt8.toNat_ofNat']; omega
    have hlog1 : ((readBlock s.store a0 c.write_size).getD 1 0).toNat = a / 2 % 256 := by
      rw [readBlock_getD _ _ _ _ (by omega), hb1, UInt8.toNat_ofNat']; omega
    obtain ⟨htype, haddr, hval⟩ := get_word_01 low even bit hlog0 hlog1
    rw [if_neg (by rw [htype]; decide), if_neg (by rw [htype]; simp), if_pos ⟨two, htype⟩,
      LogEntry.bytes_length]
    simp only [playback_word_01, haddr, hval, ge_iff_le, Nat.not_le.mpr fits, if_false]
    exact ⟨_, _, by rw [two]; rfl⟩

/-! ## The whole log -/

theorem first_word_ne_zero {c : Config} {m : Nat → UInt8} {a0 : Nat} (e : LogEntry c)
    (h : Stores m a0 e) : readBlock m a0 c.write_size ≠ List.replicate c.write_size 0 := by
  intro hz
  have hw := c.write_size_pos
  have hm : (m a0).toNat = 0 := by
    have h0 := readBlock_getD m a0 c.write_size 0 hw (d := 0)
    rw [hz] at h0
    simpa using (congrArg UInt8.toNat h0).symm
  cases e with
  | multibyte a v h1 h2 h3 =>
    have h0 := (multibyte_hasHeader h (Nat.le_refl 3)).1
    rw [readBlock_getD _ _ _ _ (by omega), Nat.add_zero, hm] at h0
    omega
  | optimized_64 a v two low fits =>
    have hb0 := h.byte (i := 0) (x := UInt8.ofNat (64 + a)) (by
      rw [LogEntry.bytes, optimized_64_header a v low]; rfl)
    rw [Nat.add_zero] at hb0
    rw [hb0, UInt8.toNat_ofNat'] at hm
    omega
  | word_01 a v two even low bit fits =>
    have hb0 := h.byte (i := 0) (x := UInt8.ofNat (128 + v * 32 + a / 512)) (by
      rw [LogEntry.bytes, word_01_header a v low bit]; rfl)
    rw [Nat.add_zero] at hb0
    rw [hb0, UInt8.toNat_ofNat'] at hm
    omega

/-- The loop over a log that holds the entries `E` and then a word of
zeros, or that ends at the end of the store. -/
theorem playback_loop_stores {c : Config} (E : List (LogEntry c)) (hs : Works s) (a0 : Nat)
    (h : readBlock s.store a0 (logBytes E).length = logBytes E)
    (hroom : E = [] ∨ a0 + (logBytes E).length ≤ c.backing_size)
    (hend : c.backing_size ≤ a0 + (logBytes E).length ∨
      readBlock s.store (a0 + (logBytes E).length) c.write_size = List.replicate c.write_size 0) :
    ∃ t, playback_loop c a0 s = (.Success, a0 + (logBytes E).length,
      { s with cache := applyAll E s.cache, trace := t }) := by
  induction E generalizing s a0 with
  | nil =>
    simp only [logBytes_nil, List.length_nil, Nat.add_zero] at hend
    rw [playback_loop]
    split
    · have hz : readBlock s.store a0 c.write_size = List.replicate c.write_size 0 := by
        rcases hend with h | h
        · omega
        · exact h
      simp only [read_works hs, hz, Bool.true_eq_false, if_false, if_true]
      exact ⟨_, rfl⟩
    · exact ⟨_, rfl⟩
  | cons e E ih =>
    simp only [logBytes_cons, List.length_append] at h hroom hend ⊢
    rw [readBlock_add] at h
    obtain ⟨he, hE⟩ := List.append_inj h (by simp)
    have hstores : Stores s.store a0 e := he
    have hwe := e.write_size_le
    have hw := c.write_size_pos
    have hlt : a0 < c.backing_size := by
      rcases hroom with h | h
      · cases h
      · omega
    obtain ⟨log, t, ht⟩ := playback_at_stores (hs.log (.read a0)) e hstores
    have ht' : playback_at c a0 (readBlock s.store a0 c.write_size) (s.log (.read a0)) =
        ⟨.Success, log, a0 + e.bytes.length,
          { s with cache := e.apply s.cache, trace := t }⟩ := ht
    obtain ⟨t', ht2⟩ := ih (s := { s with cache := e.apply s.cache, trace := t }) hs
      (a0 + e.bytes.length) hE (by right; rcases hroom with h | h <;> [cases h; omega])
      (by rw [Nat.add_assoc]; exact hend)
    rw [playback_loop, if_pos hlt]
    simp only [read_works hs, Bool.true_eq_false, if_false, first_word_ne_zero e hstores, ht',
      reduceCtorEq, ht2, Nat.add_assoc]
    exact ⟨t', rfl⟩

end keychron_qmk.wear_leveling
