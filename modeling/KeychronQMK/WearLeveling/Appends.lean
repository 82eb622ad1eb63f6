-- What an append to the write log can end in, for any answers of the
-- driver: the words are in the log, or the cache was consolidated in the
-- middle of them, or a call was refused.
import KeychronQMK.WearLeveling.Playback

namespace keychron_qmk.wear_leveling

open memory

/-! ## Writes of words -/

variable {s s' : State}

theorem works_of_suffix (h : s'.answers <:+ s.answers) (hs : Works s) : Works s' := by
  rw [hs] at h
  exact List.suffix_nil.mp h

/-- The driver refuses a call that it should serve. -/
def Refuses (s : State) : Prop := ∃ left, .refused left ∈ s.answers

theorem Refuses.of_suffix (h : Refuses s') (hs : s'.answers <:+ s.answers) : Refuses s := by
  obtain ⟨left, hmem⟩ := h
  exact ⟨left, hs.subset hmem⟩

theorem Works.not_refuses (h : Works s) : ¬ Refuses s := by
  rintro ⟨left, hmem⟩
  rw [h] at hmem
  cases hmem

/-- The store has the bytes `bytes` from address `a` on. The RAM is as it
was. -/
structure Wrote (a : Nat) (bytes : List UInt8) (s s' : State) : Prop where
  cache : s'.cache = s.cache
  write_address : s'.write_address = s.write_address
  unlocked : s'.unlocked = s.unlocked
  store : s'.store = patch s.store a bytes
  answers : s'.answers <:+ s.answers

theorem write_cases (a : Nat) (v : List UInt8) (s : State) :
    (∃ s', backing_store_write a v s = (true, s') ∧ Wrote a v s s' ∧
      s'.trace = .write a v :: s.trace) ∨
    (∃ s', backing_store_write a v s = (false, s') ∧ s'.cache = s.cache ∧ Refuses s) := by
  obtain ⟨cache, wa, ul, store, answers, trace, outside⟩ := s
  match answers with
  | [] => exact .inl ⟨_, rfl, ⟨rfl, rfl, rfl, rfl, List.suffix_refl _⟩, rfl⟩
  | .done :: rest => exact .inl ⟨_, rfl, ⟨rfl, rfl, rfl, rfl, List.suffix_cons _ _⟩, rfl⟩
  | .inRange left :: rest => exact .inl ⟨_, rfl, ⟨rfl, rfl, rfl, rfl, List.suffix_refl _⟩, rfl⟩
  | .refused left :: rest => exact .inr ⟨_, rfl, rfl, left, List.mem_cons_self⟩

theorem write_bulk_cases (c : Config) (a : Nat) (words : List (List UInt8))
    (hw : ∀ w ∈ words, w.length = c.write_size) (s : State) :
    (∃ s', backing_store_write_bulk c a words s = (true, s') ∧ Wrote a words.flatten s s') ∨
    (∃ s', backing_store_write_bulk c a words s = (false, s') ∧ s'.cache = s.cache ∧ Refuses s) := by
  induction words generalizing a s with
  | nil =>
    exact .inl ⟨s, rfl, rfl, rfl, rfl, by simp, List.suffix_refl _⟩
  | cons w words ih =>
    rw [backing_store_write_bulk]
    obtain ⟨s1, h1, hs1, -⟩ | ⟨s1, h1, hc1, hn⟩ := write_cases a w s
    · rw [h1]
      have hlen := hw w List.mem_cons_self
      obtain ⟨s2, h2, hs2⟩ | ⟨s2, h2, hc2, hn⟩ :=
        ih (a + c.write_size) (fun v hv => hw v (List.mem_cons_of_mem _ hv)) s1
      · left
        refine ⟨s2, h2, hs2.cache.trans hs1.cache, hs2.write_address.trans hs1.write_address,
          hs2.unlocked.trans hs1.unlocked, ?_, hs2.answers.trans hs1.answers⟩
        rw [hs2.store, hs1.store, List.flatten_cons, patch_append, hlen]
      · exact .inr ⟨s2, h2, hc2.trans hs1.cache, hn.of_suffix hs1.answers⟩
    · rw [h1]
      exact .inr ⟨s1, rfl, hc1, hn⟩

theorem flatten_wordsOf (c : Config) (k : Nat) (bytes : List UInt8)
    (h : bytes.length = k * c.write_size) : (wordsOf c bytes).flatten = bytes := by
  have hw := c.write_size_pos
  unfold wordsOf
  rw [h, Nat.mul_div_cancel k hw]
  induction k generalizing bytes with
  | zero => simpa using (List.length_eq_zero_iff.mp (by simpa using h)).symm
  | succ k ih =>
    rw [Nat.succ_mul] at h
    have ih' := ih (bytes.drop c.write_size) (by simp [h])
    rw [List.range_succ_eq_map, List.map_cons, List.flatten_cons, List.map_map]
    conv_rhs => rw [← List.take_append_drop c.write_size bytes]
    rw [← ih']
    simp [Function.comp_def, List.drop_drop, Nat.succ_mul, Nat.add_comm]

theorem length_of_mem_wordsOf (c : Config) (k : Nat) (bytes : List UInt8)
    (h : bytes.length = k * c.write_size) : ∀ w ∈ wordsOf c bytes, w.length = c.write_size := by
  have hw := c.write_size_pos
  intro w hm
  unfold wordsOf at hm
  rw [h, Nat.mul_div_cancel k hw] at hm
  obtain ⟨i, hi, rfl⟩ := List.mem_map.mp hm
  have hi' : (i + 1) * c.write_size ≤ k * c.write_size :=
    Nat.mul_le_mul_right _ (List.mem_range.mp hi)
  rw [Nat.succ_mul] at hi'
  simp [h]
  omega

/-! ## Consolidation -/

def consolidatedStore (c : Config) (m : Nat → UInt8) : Nat → UInt8 :=
  patch (patch (fun _ => 0) 0 (readBlock m 0 c.logical_size)) c.logical_size (checksumOf c m)

/-- The cache of `s` is on the store, before an empty write log. -/
structure ConsolidatedFrom (c : Config) (s s' : State) : Prop where
  cache : s'.cache = s.cache
  store : s'.store = consolidatedStore c s.cache
  write_address : s'.write_address = c.log_start
  answers : s'.answers <:+ s.answers

theorem unlock_keeps (s : State) : (wear_leveling_unlock s).2.cache = s.cache ∧
    (wear_leveling_unlock s).2.write_address = s.write_address ∧
    (wear_leveling_unlock s).2.store = s.store ∧
    (wear_leveling_unlock s).2.trace = s.trace ∧
    (wear_leveling_unlock s).2.answers <:+ s.answers := by
  obtain ⟨cache, wa, ul, store, answers, trace, outside⟩ := s
  cases ul
  · match answers with
    | [] => exact ⟨rfl, rfl, rfl, rfl, List.suffix_refl _⟩
    | .done :: rest => exact ⟨rfl, rfl, rfl, rfl, List.suffix_cons _ _⟩
    | .inRange left :: rest => exact ⟨rfl, rfl, rfl, rfl, List.suffix_refl _⟩
    | .refused left :: rest => exact ⟨rfl, rfl, rfl, rfl, List.suffix_cons _ _⟩
  · exact ⟨rfl, rfl, rfl, rfl, List.suffix_refl _⟩

theorem lock_keeps (s : State) : (wear_leveling_lock s).2.cache = s.cache ∧
    (wear_leveling_lock s).2.write_address = s.write_address ∧
    (wear_leveling_lock s).2.store = s.store ∧
    (wear_leveling_lock s).2.trace = s.trace ∧
    (wear_leveling_lock s).2.answers <:+ s.answers := by
  obtain ⟨cache, wa, ul, store, answers, trace, outside⟩ := s
  cases ul
  · exact ⟨rfl, rfl, rfl, rfl, List.suffix_refl _⟩
  · match answers with
    | [] => exact ⟨rfl, rfl, rfl, rfl, List.suffix_refl _⟩
    | .done :: rest => exact ⟨rfl, rfl, rfl, rfl, List.suffix_cons _ _⟩
    | .inRange left :: rest => exact ⟨rfl, rfl, rfl, rfl, List.suffix_refl _⟩
    | .refused left :: rest => exact ⟨rfl, rfl, rfl, rfl, List.suffix_cons _ _⟩

theorem erase_cases (s : State) :
    (∃ s', backing_store_erase s = (true, s') ∧ s'.cache = s.cache ∧
      s'.store = (fun _ => 0) ∧ s'.answers <:+ s.answers) ∨
    (∃ s', backing_store_erase s = (false, s') ∧ s'.cache = s.cache ∧ Refuses s) := by
  obtain ⟨cache, wa, ul, store, answers, trace, outside⟩ := s
  match answers with
  | [] => exact .inl ⟨_, rfl, rfl, rfl, List.suffix_refl _⟩
  | .done :: rest => exact .inl ⟨_, rfl, rfl, rfl, List.suffix_cons _ _⟩
  | .inRange left :: rest => exact .inl ⟨_, rfl, rfl, rfl, List.suffix_refl _⟩
  | .refused left :: rest => exact .inr ⟨_, rfl, rfl, left, List.mem_cons_self⟩

theorem write_size_dvd_eight (c : Config) : ∃ k, 8 = k * c.write_size := by
  rcases c.write_size_valid with h | h | h
  · exact ⟨4, by omega⟩
  · exact ⟨2, by omega⟩
  · exact ⟨1, by omega⟩

theorem logical_words (c : Config) :
    c.logical_size = c.logical_size / c.write_size * c.write_size :=
  (Nat.div_mul_cancel (Nat.dvd_of_mod_eq_zero c.logical_aligned)).symm

@[simp] theorem checksumOf_length (c : Config) (m : Nat → UInt8) : (checksumOf c m).length = 8 :=
  raw8_length _

theorem write_consolidated_cases (c : Config) (s : State) (he : s.store = fun _ => 0) :
    (∃ s', wear_leveling_write_consolidated c s = (.Consolidated, s') ∧ s'.cache = s.cache ∧
      s'.store = consolidatedStore c s.cache ∧ s'.answers <:+ s.answers) ∨
    (∃ s', wear_leveling_write_consolidated c s = (.Failed, s') ∧ s'.cache = s.cache ∧
      Refuses s) := by
  obtain ⟨hu1, -, hu3, -, hu5⟩ := unlock_keeps s
  unfold wear_leveling_write_consolidated
  obtain ⟨k, hk⟩ := write_size_dvd_eight c
  have himage : (readBlock (wear_leveling_unlock s).2.cache 0 c.logical_size).length =
      c.logical_size / c.write_size * c.write_size := by
    rw [readBlock_length]; exact logical_words c
  have hsum : (checksumOf c (wear_leveling_unlock s).2.cache).length = k * c.write_size := by
    rw [checksumOf_length]; exact hk
  generalize wear_leveling_unlock s = r at *
  obtain ⟨lock_status, s1⟩ := r
  dsimp only at *
  -- the lock at the end keeps the cache and the store
  have hlock : ∀ (status : Status) (s2 : State), ∃ s', (if lock_status = .Success then
      (status, (wear_leveling_lock s2).2) else (status, s2)) = (status, s') ∧
      s'.cache = s2.cache ∧ s'.store = s2.store ∧ s'.answers <:+ s2.answers := by
    intro status s2
    obtain ⟨h1, -, h3, -, h5⟩ := lock_keeps s2
    split
    · exact ⟨_, rfl, h1, h3, h5⟩
    · exact ⟨_, rfl, rfl, rfl, List.suffix_refl _⟩
  obtain ⟨s2, h2, hs2⟩ | ⟨s2, h2, hc2, hn⟩ := write_bulk_cases c 0 _
    (length_of_mem_wordsOf c _ _ himage) s1
  · rw [h2]
    dsimp only
    rw [hs2.cache]
    obtain ⟨s3, h3, hs3⟩ | ⟨s3, h3, hc3, hn⟩ := write_bulk_cases c c.logical_size _
      (length_of_mem_wordsOf c _ _ hsum) s2
    · obtain ⟨s', h', h1, h3', h5⟩ := hlock .Consolidated s3
      rw [h3]
      refine .inl ⟨s', h', h1.trans (hs3.cache.trans (hs2.cache.trans hu1)), ?_,
        h5.trans (hs3.answers.trans (hs2.answers.trans hu5))⟩
      rw [h3', hs3.store, hs2.store, hu3, he, flatten_wordsOf c _ _ himage,
        flatten_wordsOf c _ _ hsum, hu1]
      rfl
    · obtain ⟨s', h', h1, -, -⟩ := hlock .Failed s3
      rw [h3]
      exact .inr ⟨s', h', h1.trans (hc3.trans (hs2.cache.trans hu1)),
        hn.of_suffix (hs2.answers.trans hu5)⟩
  · obtain ⟨s', h', h1, -, -⟩ := hlock .Failed s2
    rw [h2]
    exact .inr ⟨s', h', h1.trans (hc2.trans hu1), hn.of_suffix hu5⟩

theorem consolidate_force_cases (c : Config) (s : State) :
    (∃ s', wear_leveling_consolidate_force c s = (.Consolidated, s') ∧
      ConsolidatedFrom c s s') ∨
    (∃ s', wear_leveling_consolidate_force c s = (.Failed, s') ∧ s'.cache = s.cache ∧
      Refuses s) := by
  obtain ⟨hu1, -, -, -, hu5⟩ := unlock_keeps s
  unfold wear_leveling_consolidate_force
  generalize wear_leveling_unlock s = r at *
  obtain ⟨lock_status, s1⟩ := r
  dsimp only at *
  obtain ⟨s2, h2, hc2, he, ha2⟩ | ⟨s2, h2, hc2, hn⟩ := erase_cases s1
  · rw [h2]
    obtain ⟨s3, h3, hc3, hs3, ha3⟩ | ⟨s3, h3, hc3, hn⟩ := write_consolidated_cases c s2 he
    · left
      refine ⟨{ s3 with write_address := c.log_start }, ?_, ⟨?_, ?_, rfl, ?_⟩⟩
      · simp only [h3]
      · exact hc3.trans (hc2.trans hu1)
      · exact hs3.trans (by rw [hc2, hu1])
      · exact ha3.trans (ha2.trans hu5)
    · right
      refine ⟨{ s3 with write_address := c.log_start }, ?_, hc3.trans (hc2.trans hu1),
        hn.of_suffix (ha2.trans hu5)⟩
      simp only [h3]
  · rw [h2]
    exact .inr ⟨s2, rfl, hc2.trans hu1, hn.of_suffix hu5⟩

/-! ## Appends -/

def writeCalls (a : Nat) : List (List UInt8) → List Access
  | [] => []
  | w :: words => .write a w :: writeCalls (a + w.length) words

/-- All words are in the log, and the log is not full after them. -/
structure Appended (c : Config) (words : List (List UInt8)) (s s' : State) : Prop where
  cache : s'.cache = s.cache
  unlocked : s'.unlocked = s.unlocked
  store : s'.store = patch s.store s.write_address words.flatten
  write_address : s'.write_address = s.write_address + words.flatten.length
  room : words = [] ∨ s'.write_address < c.backing_size
  answers : s'.answers <:+ s.answers
  trace : s'.trace = (writeCalls s.write_address words).reverse ++ s.trace

/-- How an append of words can end. -/
inductive Outcome (c : Config) (words : List (List UInt8)) (s : State) : Status × State → Prop
  | success (s' : State) (h : Appended c words s s') : Outcome c words s (.Success, s')
  | consolidated (s' : State) (h : ConsolidatedFrom c s s') : Outcome c words s (.Consolidated, s')
  | failed (s' : State) (cache : s'.cache = s.cache) (refused : Refuses s) :
    Outcome c words s (.Failed, s')

theorem Appended.refl (c : Config) (s : State) : Appended c [] s s :=
  ⟨rfl, rfl, by simp, rfl, .inl rfl, List.suffix_refl _, rfl⟩

theorem writeCalls_append (a : Nat) (words words' : List (List UInt8)) :
    writeCalls a (words ++ words') =
      writeCalls a words ++ writeCalls (a + words.flatten.length) words' := by
  induction words generalizing a with
  | nil => simp [writeCalls]
  | cons w words ih => simp [writeCalls, ih, Nat.add_assoc]

variable {c : Config}

theorem Appended.trans {words words' : List (List UInt8)} {s1 s2 : State}
    (h : Appended c words s s1) (h' : Appended c words' s1 s2) :
    Appended c (words ++ words') s s2 := by
  refine ⟨h'.cache.trans h.cache, h'.unlocked.trans h.unlocked, ?_, ?_, ?_,
    h'.answers.trans h.answers, ?_⟩
  · rw [h'.store, h.store, h.write_address, List.flatten_append, patch_append]
  · rw [h'.write_address, h.write_address, List.flatten_append, List.length_append, Nat.add_assoc]
  · rcases h'.room with hw | hr
    · subst hw
      rcases h.room with hw | hr
      · exact .inl (by simp [hw])
      · exact .inr (by rw [h'.write_address]; simpa using hr)
    · exact .inr hr
  · rw [h'.trace, h.trace, h.write_address, writeCalls_append, List.reverse_append,
      List.append_assoc]

theorem append_raw_outcome (c : Config) (w : List UInt8) (hw : w.length = c.write_size)
    (s : State) (hs : s.write_address + 8 < 2 ^ 32) :
    Outcome c [w] s (wear_leveling_append_raw c w s) := by
  have hle : c.write_size ≤ 8 := by rcases c.write_size_valid with h | h | h <;> omega
  unfold wear_leveling_append_raw
  obtain ⟨s1, h1, hs1, ht1⟩ | ⟨s1, h1, hc1, hn⟩ := write_cases s.write_address w s
  · rw [h1]
    dsimp only
    rw [hs1.write_address, u32_of_lt (by omega)]
    unfold wear_leveling_consolidate_if_needed
    split
    · obtain ⟨s2, h2, hs2⟩ | ⟨s2, h2, hc2, hn⟩ := consolidate_force_cases c
        { s1 with write_address := s.write_address + c.write_size }
      · rw [h2]
        refine .consolidated s2 ⟨hs2.cache.trans hs1.cache, ?_, hs2.write_address,
          hs2.answers.trans hs1.answers⟩
        rw [hs2.store]
        exact congrArg _ hs1.cache
      · rw [h2]
        exact .failed s2 (hc2.trans hs1.cache) (hn.of_suffix hs1.answers)
    · rename_i hroom
      refine .success _ ⟨hs1.cache, hs1.unlocked, ?_, ?_, .inr ?_, hs1.answers, ?_⟩
      · simpa using hs1.store
      · simp [hw]
      · simpa using hroom
      · simpa [writeCalls] using ht1
  · rw [h1]
    exact .failed s1 hc1 hn

def append_all (c : Config) : List (List UInt8) → State → Status × State
  | [], s => (.Success, s)
  | w :: words, s => ifSuccess (wear_leveling_append_raw c w s) (append_all c words)

theorem append_all_outcome (c : Config) (words : List (List UInt8))
    (hw : ∀ w ∈ words, w.length = c.write_size) (s : State) (hs : s.write_address + 8 < 2 ^ 32) :
    Outcome c words s (append_all c words s) := by
  induction words generalizing s with
  | nil => exact .success s (.refl c s)
  | cons w words ih =>
    unfold append_all
    have h := append_raw_outcome c w (hw w List.mem_cons_self) s hs
    generalize wear_leveling_append_raw c w s = r at h ⊢
    cases h with
    | success s1 h1 =>
      have hs1 : s1.write_address + 8 < 2 ^ 32 := by
        have hlt : s1.write_address < c.backing_size := by
          rcases h1.room with h | h
          · simp at h
          · exact h
        have := c.backing_addressable
        omega
      have h' := ih (fun v hv => hw v (List.mem_cons_of_mem _ hv)) s1 hs1
      simp only [ifSuccess]
      generalize append_all c words s1 = r at h' ⊢
      cases h' with
      | success s2 h2 => exact .success s2 (h1.trans h2)
      | consolidated s2 h2 =>
        refine .consolidated s2 ⟨h2.cache.trans h1.cache, ?_, h2.write_address,
          h2.answers.trans h1.answers⟩
        rw [h2.store, h1.cache]
      | failed s2 hc hn =>
        exact .failed s2 (hc.trans h1.cache) (hn.of_suffix h1.answers)
    | consolidated s1 h1 => exact .consolidated s1 h1
    | failed s1 hc hn => exact .failed s1 hc hn

theorem append_all_append (c : Config) (words words' : List (List UInt8)) (s : State) :
    append_all c (words ++ words') s =
      ifSuccess (append_all c words s) (append_all c words') := by
  induction words generalizing s with
  | nil => rfl
  | cons w words ih =>
    simp only [List.cons_append, append_all]
    rcases wear_leveling_append_raw c w s with ⟨_ | _ | _, s1⟩
    · rfl
    · exact ih s1
    · rfl

/-! ## The words of a write -/

def LogEntry.words {c : Config} (e : LogEntry c) : List (List UInt8) := wordsOf c e.bytes

/-- The entries hold the bytes `p` for the addresses from `a` on, in order. -/
inductive Covers {c : Config} : Nat → List UInt8 → List (LogEntry c) → Prop
  | nil (a : Nat) : Covers a [] []
  | cons (e : LogEntry c) {p : List UInt8} {E : List (LogEntry c)}
    (h : Covers (e.address + e.value.length) p E) : Covers e.address (e.value ++ p) (e :: E)

theorem Covers.applyAll {a : Nat} {p : List UInt8} {E : List (LogEntry c)} (h : Covers a p E)
    (m : Nat → UInt8) : applyAll E m = patch m a p := by
  induction h generalizing m with
  | nil => simp
  | cons e h ih => rw [applyAll_cons, ih, LogEntry.apply, patch_append]

theorem multibyteSize_words (c : Config) (l : Nat) :
    ∃ k, multibyteSize c l = k * c.write_size := by
  unfold multibyteSize
  split_ifs
  · exact ⟨5, by omega⟩
  all_goals first
    | exact ⟨1, by omega⟩
    | exact ⟨2, by omega⟩
    | exact ⟨3, by omega⟩
    | exact ⟨4, by omega⟩

theorem LogEntry.bytes_words (e : LogEntry c) : ∃ k, e.bytes.length = k * c.write_size := by
  rw [e.bytes_length]
  cases e with
  | multibyte _ v => exact multibyteSize_words c v.length
  | optimized_64 _ _ two => exact ⟨1, by simp [two]⟩
  | word_01 _ _ two => exact ⟨1, by simp [two]⟩

theorem LogEntry.flatten_words (e : LogEntry c) : e.words.flatten = e.bytes := by
  obtain ⟨k, hk⟩ := e.bytes_words
  exact flatten_wordsOf c k _ hk

theorem LogEntry.length_of_mem_words (e : LogEntry c) : ∀ w ∈ e.words, w.length = c.write_size := by
  obtain ⟨k, hk⟩ := e.bytes_words
  exact length_of_mem_wordsOf c k _ hk

theorem flatten_flatMap_words (E : List (LogEntry c)) :
    (E.flatMap LogEntry.words).flatten = logBytes E := by
  induction E with
  | nil => rfl
  | cons e E ih => simp [ih, e.flatten_words]

theorem length_of_mem_flatMap_words (E : List (LogEntry c)) :
    ∀ w ∈ E.flatMap LogEntry.words, w.length = c.write_size := by
  intro w hw
  obtain ⟨e, -, he⟩ := List.mem_flatMap.mp hw
  exact e.length_of_mem_words w he

theorem wordsOf_take (c : Config) (raw : List UInt8) (k : Nat) (h : k * c.write_size ≤ raw.length) :
    wordsOf c (raw.take (k * c.write_size)) = (List.range k).map (rawWord c raw) := by
  have hw := c.write_size_pos
  unfold wordsOf
  rw [List.length_take, Nat.min_eq_left h, Nat.mul_div_cancel k hw]
  apply List.map_congr_left
  intro i hi
  have hi' : (i + 1) * c.write_size ≤ k * c.write_size :=
    Nat.mul_le_mul_right _ (List.mem_range.mp hi)
  rw [Nat.succ_mul] at hi'
  unfold rawWord
  rw [List.drop_take, List.take_take, Nat.min_eq_left (by omega)]

@[simp] theorem ifSuccess_ret (s : State) (f : State → Status × State) :
    ifSuccess (.Success, s) f = f s := rfl

theorem ifSuccess_id (r : Status × State) : ifSuccess r (fun s => (.Success, s)) = r := by
  rcases r with ⟨_ | _ | _, _⟩ <;> rfl

/-- The function for multi-byte entries appends the words of the entry. -/
theorem write_raw_multibyte_eq (c : Config) (a : Nat) (v : List UInt8) (h1 h2 h3) (s : State) :
    wear_leveling_write_raw_multibyte c a v s =
      append_all c (LogEntry.multibyte (c := c) a v h1 h2 h3).words s := by
  have hraw : (LOG_ENTRY_MAKE_MULTIBYTE a v.length ++ v ++
      List.replicate (5 - v.length) 0).length = 8 := by
    simp [LOG_ENTRY_MAKE_MULTIBYTE]; omega
  have hwords : ∀ k, multibyteSize c v.length = k * c.write_size →
      (LogEntry.multibyte (c := c) a v h1 h2 h3).words = (List.range k).map
        (rawWord c (LOG_ENTRY_MAKE_MULTIBYTE a v.length ++ v ++
          List.replicate (5 - v.length) 0)) := by
    intro k hk
    have := (multibyteSize_le c v.length).2
    change wordsOf c ((LOG_ENTRY_MAKE_MULTIBYTE a v.length ++ v ++
      List.replicate (5 - v.length) 0).take (multibyteSize c v.length)) = _
    rw [hk, wordsOf_take _ _ _ (by omega)]
  unfold wear_leveling_write_raw_multibyte
  rcases c.write_size_valid with hw | hw | hw
  · rcases (by omega : v.length = 1 ∨ v.length = 2 ∨ v.length = 3 ∨ 4 ≤ v.length) with h | h | h | h
    · rw [hwords 2 (by simp [multibyteSize, hw, h])]
      simp [hw, h, append_all, List.range_succ, ifSuccess_id]
    · rw [hwords 3 (by simp [multibyteSize, hw, h])]
      simp [hw, h, append_all, List.range_succ, ifSuccess_id]
    · rw [hwords 3 (by simp [multibyteSize, hw, h])]
      simp [hw, h, append_all, List.range_succ, ifSuccess_id]
    · have hl1 : v.length > 1 := by omega
      have hl3 : v.length > 3 := by omega
      rw [hwords 4 (by simp [multibyteSize, hw, hl1, hl3])]
      simp [hw, hl1, hl3, append_all, List.range_succ, ifSuccess_id]
  · rcases (by omega : v.length = 1 ∨ 2 ≤ v.length) with h | h
    · rw [hwords 1 (by simp [multibyteSize, hw, h])]
      simp [hw, h, append_all, List.range_succ, ifSuccess_id]
    · have hl1 : v.length > 1 := by omega
      rw [hwords 2 (by simp [multibyteSize, hw, hl1])]
      simp [hw, hl1, append_all, List.range_succ, ifSuccess_id]
  · rw [hwords 1 (by simp [multibyteSize, hw])]
    simp [hw, append_all, List.range_succ, ifSuccess_id]

theorem take_two_of_u16_at {p : List UInt8} (h2 : 2 ≤ p.length)
    (h : u16_at p = 0 ∨ u16_at p = 1) : p.take 2 = [UInt8.ofNat (u16_at p), 0] := by
  match p, h2 with
  | x :: y :: rest, _ =>
    have hor : u16_at (x :: y :: rest) = y.toNat * 256 + x.toNat := by
      have hx : x.toNat < 2 ^ 8 := x.toNat_lt
      exact shiftLeft_or hx
    have hx' : UInt8.ofNat (u16_at (x :: y :: rest)) = x := by
      apply UInt8.toNat_inj.mp
      rw [UInt8.toNat_ofNat']
      omega
    have hy' : y = 0 := UInt8.toNat_inj.mp (by simp; omega)
    rw [hx', hy']
    rfl

theorem append_all_words (c : Config) (e : LogEntry c) (E : List (LogEntry c)) (s : State) :
    append_all c ((e :: E).flatMap LogEntry.words) s =
      ifSuccess (append_all c e.words s) (append_all c (E.flatMap LogEntry.words)) := by
  rw [List.flatMap_cons, append_all_append]

def entriesOf (c : Config) (a : Nat) (p : List UInt8) (h : a + p.length ≤ c.logical_size) :
    List (LogEntry c) :=
  if h0 : p.length = 0 then []
  else if hb : c.write_size = 2 ∧ 2 ≤ p.length ∧ a % 2 = 0 ∧ a < 16384 ∧
      (u16_at p = 0 ∨ u16_at p = 1) then
    .word_01 a (u16_at p) hb.1 hb.2.2.1 hb.2.2.2.1 hb.2.2.2.2 (by omega) ::
      entriesOf c (a + 2) (p.drop 2) (by rw [List.length_drop]; omega)
  else if hl : c.write_size = 2 ∧ a < 64 then
    .optimized_64 a (p.getD 0 0) hl.1 hl.2 (by omega) ::
      entriesOf c (a + 1) (p.drop 1) (by rw [List.length_drop]; omega)
  else
    .multibyte a (p.take (min 5 p.length)) (by rw [List.length_take]; omega)
      (by rw [List.length_take]; omega) (by rw [List.length_take]; omega) ::
      entriesOf c (a + min 5 p.length) (p.drop (min 5 p.length)) (by rw [List.length_drop]; omega)
termination_by p.length
decreasing_by
  all_goals simp only [List.length_drop]
  all_goals omega

theorem covers_entriesOf (c : Config) (a : Nat) (p : List UInt8)
    (h : a + p.length ≤ c.logical_size) : Covers a p (entriesOf c a p h) := by
  fun_induction entriesOf c a p h with
  | case1 a p h h0 =>
    rw [List.length_eq_zero_iff.mp h0]
    exact .nil a
  | case2 a p h h0 hb ih =>
    obtain ⟨hw, hl, he, hlow, hv⟩ := hb
    have hc := Covers.cons (.word_01 (c := c) a (u16_at p) hw he hlow hv (by omega)) ih
    change Covers a ([UInt8.ofNat (u16_at p), 0] ++ p.drop 2) _ at hc
    rwa [← take_two_of_u16_at hl hv, List.take_append_drop] at hc
  | case3 a p h h0 hb hl ih =>
    have hc := Covers.cons (.optimized_64 (c := c) a (p.getD 0 0) hl.1 hl.2 (by omega)) ih
    change Covers a ([p.getD 0 0] ++ p.drop 1) _ at hc
    have hp : [p.getD 0 0] ++ p.drop 1 = p := by
      match p, h0 with
      | x :: rest, _ => rfl
    rwa [hp] at hc
  | case4 a p h h0 hb hl ih =>
    have hlen : (p.take (min 5 p.length)).length = min 5 p.length := by simp
    have hc := Covers.cons (.multibyte (c := c) a (p.take (min 5 p.length)) (by omega) (by omega)
      (by omega)) (p := p.drop (min 5 p.length))
      (E := entriesOf c (a + min 5 p.length) (p.drop (min 5 p.length)) (by rw [List.length_drop]; omega))
      (by simpa only [LogEntry.address, LogEntry.value, hlen] using ih)
    change Covers a (p.take (min 5 p.length) ++ p.drop (min 5 p.length)) _ at hc
    rwa [List.take_append_drop] at hc

theorem write_raw_eq (c : Config) (a : Nat) (p : List UInt8) (h : a + p.length ≤ c.logical_size)
    (s : State) : wear_leveling_write_raw c a p s =
      append_all c ((entriesOf c a p h).flatMap LogEntry.words) s := by
  fun_induction entriesOf c a p h generalizing s with
  | case1 a p h h0 =>
    rw [wear_leveling_write_raw, if_pos h0]
    rfl
  | case2 a p h h0 hb ih =>
    rw [wear_leveling_write_raw, if_neg h0, if_pos hb, append_all_words]
    congr 1
    · simp [LogEntry.words, LogEntry.bytes, wordsOf, hb.1, LOG_ENTRY_MAKE_WORD_01, append_all,
        ifSuccess_id]
    · funext s; exact ih s
  | case3 a p h h0 hb hl ih =>
    rw [wear_leveling_write_raw, if_neg h0, if_neg hb, if_pos hl, append_all_words]
    congr 1
    · simp [LogEntry.words, LogEntry.bytes, wordsOf, hl.1, LOG_ENTRY_MAKE_OPTIMIZED_64,
        append_all, ifSuccess_id]
    · funext s; exact ih s
  | case4 a p h h0 hb hl ih =>
    have hk : (if LOG_ENTRY_MULTIBYTE_MAX_BYTES ≤ p.length then LOG_ENTRY_MULTIBYTE_MAX_BYTES
        else p.length) = min 5 p.length := by
      unfold LOG_ENTRY_MULTIBYTE_MAX_BYTES
      split <;> omega
    rw [wear_leveling_write_raw, if_neg h0, if_neg hb, if_neg hl, hk, append_all_words,
      ← write_raw_multibyte_eq]
    dsimp only
    congr 1
    funext s; exact ih s

end keychron_qmk.wear_leveling
