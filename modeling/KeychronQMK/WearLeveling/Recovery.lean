-- What an init salvages from a store, whatever is in it, and when the next
-- init finds the same: over a driver that refuses to read behind the store.
import KeychronQMK.WearLeveling.Bounds

namespace keychron_qmk.wear_leveling

open memory

/-! ## The log of a store -/

theorem entrySize_pos {c : Config} {m : Nat → UInt8} {a n : Nat} (h : entrySize c m a = some n) :
    0 < n := by
  have hw := c.write_size_pos
  unfold entrySize at h
  dsimp only at h
  split_ifs at h
  · rw [← Option.some.inj h]
    unfold multibyteSize
    omega
  · exact Option.some.inj h ▸ hw
  · exact Option.some.inj h ▸ hw

def takenSize (c : Config) (m : Nat → UInt8) (a : Nat) : Option Nat :=
  (entrySize c m a).filter fun n => a + n ≤ c.backing_size

theorem takenSize_eq_some {c : Config} {m : Nat → UInt8} {a n : Nat} :
    takenSize c m a = some n ↔ entrySize c m a = some n ∧ a + n ≤ c.backing_size := by
  simp [takenSize, Option.filter_eq_some_iff]

/-- The entries that the playback takes from `a` on, and the erased word at
which it ends. There is no such word where it ends in a consolidation, at an
entry that it does not take or at the end of the store. -/
def logEntries (c : Config) (m : Nat → UInt8) (a : Nat) : List Nat × Option Nat :=
  if a < c.backing_size then
    if readBlock m a c.write_size = List.replicate c.write_size 0 then ([], some a)
    else if h : (takenSize c m a).isSome then
      let rest := logEntries c m (a + (takenSize c m a).get h)
      (a :: rest.1, rest.2)
    else ([], none)
  else ([], none)
termination_by c.backing_size - a
decreasing_by
  have := entrySize_pos (takenSize_eq_some.mp (Option.some_get h).symm).1
  omega

/-- The cells that the entry at `a` writes in the cache: the first one, and
how many. -/
def entryCells (c : Config) (m : Nat → UInt8) (a : Nat) : Nat × Nat :=
  let word := readBlock m a c.write_size
  let header := readBlock m a (headerSize c)
  if LOG_ENTRY_GET_TYPE word = 0 then
    (LOG_ENTRY_MULTIBYTE_GET_ADDRESS header, LOG_ENTRY_MULTIBYTE_GET_LENGTH header)
  else if LOG_ENTRY_GET_TYPE word = 1 then (LOG_ENTRY_OPTIMIZED_64_GET_ADDRESS word, 1)
  else (LOG_ENTRY_WORD_01_GET_ADDRESS word, 2)

def entryValue (c : Config) (m : Nat → UInt8) (outside : Nat → Nat → UInt8) (a : Nat) :
    List UInt8 :=
  let word := readBlock m a c.write_size
  if LOG_ENTRY_GET_TYPE word = 0 then
    let l := LOG_ENTRY_MULTIBYTE_GET_LENGTH (readBlock m a (headerSize c))
    let size := multibyteSize c l
    (List.range l).map fun i => (readBlock m a size).getD (3 + i) (outside (a + size) (3 + i))
  else if LOG_ENTRY_GET_TYPE word = 1 then [LOG_ENTRY_OPTIMIZED_64_GET_VALUE word]
  else [LOG_ENTRY_WORD_01_GET_VALUE word, 0]

def replay (c : Config) (m : Nat → UInt8) (outside : Nat → Nat → UInt8) (entries : List Nat)
    (cache : Nat → UInt8) : Nat → UInt8 :=
  entries.foldl
    (fun cache a => patch cache (entryCells c m a).1 (entryValue c m outside a)) cache

/-- The cells whose byte came from outside of an entry, after the entry at
`a`: an entry has room for 5 bytes. -/
def loosen (c : Config) (m : Nat → UInt8) (loose : Nat → Bool) (a : Nat) : Nat → Bool := fun i =>
  let (first, count) := entryCells c m a
  if first ≤ i ∧ i < first + count then first + 5 ≤ i else loose i

def looseCells (c : Config) (m : Nat → UInt8) (entries : List Nat) : Nat → Bool :=
  entries.foldl (loosen c m) fun _ => false

/-- The log ends in a consolidation, or no byte from outside of an entry is
left in the cache at its end. -/
def Settles (c : Config) (m : Nat → UInt8) : Prop :=
  let log := logEntries c m c.log_start
  log.2 = none ∨ ∀ i < c.logical_size, looseCells c m log.1 i = false

instance (c : Config) : DecidablePred (Settles c) := fun m =>
  inferInstanceAs (Decidable ((logEntries c m c.log_start).2 = none ∨
    ∀ i < c.logical_size, looseCells c m (logEntries c m c.log_start).1 i = false))

/-! ## The cells of an entry -/

section Cells

variable {c : Config} {m : Nat → UInt8} {outside outside' : Nat → Nat → UInt8}

theorem entryValue_length (c : Config) (m : Nat → UInt8) (outside : Nat → Nat → UInt8) (a : Nat) :
    (entryValue c m outside a).length = (entryCells c m a).2 := by
  unfold entryValue entryCells
  dsimp only
  split_ifs
  · simp
  · rfl
  · rfl

theorem entryValue_inside (c : Config) (m : Nat → UInt8) (outside outside' : Nat → Nat → UInt8)
    (a : Nat) {i : Nat} (hi : i < 5) :
    (entryValue c m outside a)[i]? = (entryValue c m outside' a)[i]? := by
  unfold entryValue
  dsimp only
  split_ifs
  · by_cases hl : i < LOG_ENTRY_MULTIBYTE_GET_LENGTH (readBlock m a (headerSize c))
    · have hsize := multibyteSize_le c (LOG_ENTRY_MULTIBYTE_GET_LENGTH (readBlock m a (headerSize c)))
      simp only [List.getElem?_map, List.getElem?_range hl, Option.map_some]
      rw [readBlock_getD _ _ _ _ (by omega), readBlock_getD _ _ _ _ (by omega)]
    · simp [hl]
  · rfl
  · rfl

theorem entryValue_outside {a i : Nat} {x : UInt8} (hi : 5 ≤ i) (hlt : i < (entryCells c m a).2) :
    (entryValue c m (fun _ _ => x) a)[i]? = some x := by
  unfold entryCells at hlt
  unfold entryValue
  dsimp only at hlt ⊢
  split_ifs at hlt ⊢
  · have hsize := multibyteSize_le c (LOG_ENTRY_MULTIBYTE_GET_LENGTH (readBlock m a (headerSize c)))
    simp only [List.getElem?_map, List.getElem?_range hlt, Option.map_some]
    rw [List.getD_eq_getElem?_getD, List.getElem?_eq_none (by simp; omega), Option.getD_none]
  · simp only at hlt
    omega
  · simp only at hlt
    omega

variable {entries : List Nat} {loose : Nat → Bool}

theorem replay_agree {cache cache' : Nat → UInt8} {n : Nat}
    (h : ∀ i < n, loose i = false → cache i = cache' i) :
    ∀ i < n, entries.foldl (loosen c m) loose i = false →
      replay c m outside entries cache i = replay c m outside' entries cache' i := by
  induction entries generalizing cache cache' loose with
  | nil => exact h
  | cons a entries ih =>
    refine ih fun i hi hfree => ?_
    unfold loosen at hfree
    have hlen := entryValue_length c m outside a
    have hlen' := entryValue_length c m outside' a
    dsimp only at hfree
    split at hfree
    · rename_i hin
      have hnear : i - (entryCells c m a).1 < 5 := by
        simp at hfree
        omega
      have hinside := entryValue_inside c m outside outside' a hnear
      unfold memory.patch
      dsimp only
      rw [if_pos hin.1, if_pos hin.1, hinside, List.getElem?_eq_getElem (by omega)]
      rfl
    · rename_i hout
      unfold memory.patch
      dsimp only
      split
      · rw [List.getElem?_eq_none (by omega), List.getElem?_eq_none (by omega)]
        exact h i hi hfree
      · exact h i hi hfree

theorem replay_loose {cache : Nat → UInt8} {x : UInt8} (h : ∀ i, loose i = true → cache i = x) :
    ∀ i, entries.foldl (loosen c m) loose i = true →
      replay c m (fun _ _ => x) entries cache i = x := by
  induction entries generalizing cache loose with
  | nil => exact h
  | cons a entries ih =>
    refine ih fun i hloose => ?_
    unfold loosen at hloose
    have hlen := entryValue_length c m (fun _ _ => x) a
    dsimp only at hloose
    split at hloose
    · rename_i hin
      have hfar : 5 ≤ i - (entryCells c m a).1 := by
        simp at hloose
        omega
      have houtside := entryValue_outside (c := c) (m := m) (x := x) (a := a) hfar (by omega)
      unfold memory.patch
      dsimp only
      rw [if_pos hin.1, houtside]
      rfl
    · rename_i hout
      unfold memory.patch
      dsimp only
      split
      · rw [List.getElem?_eq_none (by omega)]
        exact h i hloose
      · exact h i hloose

end Cells

/-! ## The driver -/

/-- The driver does what it is asked, and refuses to read behind the store. -/
def Serves (s : State) : Prop := ∃ left, s.answers = [.inRange left]

section Playback

variable {c : Config} {s : State}

theorem Serves.not_refuses (h : Serves s) : ¬ Refuses s := by
  obtain ⟨left, hleft⟩ := h
  rintro ⟨left', hmem⟩
  rw [hleft] at hmem
  cases hmem with
  | tail _ hmem => cases hmem

theorem Serves.call (h : Serves s) : backing_store_call s = (true, s) := by
  obtain ⟨_, _, _, _, _, _, _⟩ := s
  obtain ⟨left, hleft⟩ := h
  cases hleft
  rfl

theorem Serves.reads (h : Serves s) (c : Config) : Reads c c.backing_size s := by
  intro a room cache t
  obtain ⟨left, hleft⟩ := h
  unfold backing_store_read
  rw [hleft]
  dsimp only
  rw [if_pos room]
  rfl

variable {a n : Nat}

theorem Serves.read_behind (h : Serves s) (hout : c.backing_size < a + c.write_size) :
    ∃ value, backing_store_read c a s = (false, value, s.log (.read a)) := by
  obtain ⟨left, hleft⟩ := h
  unfold backing_store_read
  rw [hleft]
  dsimp only
  rw [if_neg (Nat.not_le.mpr hout)]
  exact ⟨_, rfl⟩

/-! ## One entry -/

/-- The playback has read `n` bytes of the entry at `a`, or the store ends
before them. -/
inductive Playback.Reaches (c : Config) (s : State) (a n : Nat) (p : Playback) : Prop
  | inside (h : p.At s a n) (room : a + n ≤ c.backing_size)
  | cut (status : p.status = .Failed) (state : ∃ t, p.state = { s with trace := t })
    (short : c.backing_size < a + n)

variable {p : Playback}

theorem Playback.Reaches.word (h : p.Reaches c s a n) (hs : Serves s) (needed : Bool) :
    (p.word c needed).Reaches c s a (n + if needed then c.write_size else 0) := by
  cases h with
  | inside h room =>
    by_cases room' : a + (n + if needed then c.write_size else 0) ≤ c.backing_size
    · exact .inside (h.word_reads (hs.reads c) needed room') room'
    · obtain ⟨hstatus, -, haddress, t, ht⟩ := h
      cases needed with
      | false => exact absurd room room'
      | true =>
        simp only [if_true] at room' ⊢
        obtain ⟨value, hread⟩ := Serves.read_behind (c := c) (s := p.state) (a := p.address)
          (by rw [ht]; exact hs) (by omega)
        refine .cut ?_ ⟨.read p.address :: t, ?_⟩ (by omega)
        · simp [Playback.word, hstatus, hread]
        · simp only [Playback.word, hstatus, hread, ne_eq, reduceCtorEq, not_false_eq_true,
            decide_true, Bool.and_self, if_true]
          rw [ht, State.log]
  | cut status state short =>
    have hp : p.word c needed = p := by simp [Playback.word, status]
    rw [hp]
    exact .cut status state (by omega)

theorem Playback.Reaches.rest (h : p.Reaches c s a (headerSize c)) (hs : Serves s) (l : Nat) :
    (p.rest c l).Reaches c s a (multibyteSize c l) := by
  have h3 := ((h.word hs (c.write_size = 2 ∧ l > 1)).word hs (c.write_size = 2 ∧ l > 3)).word hs
    (c.write_size = 4 ∧ l > 1)
  simp only [decide_eq_true_eq, headerSize] at h3
  exact h3

/-- The playback of the entry at `a` is over: it took the entry, or it failed. -/
inductive Taken (c : Config) (s : State) (a : Nat) (p : Playback) : Prop
  | taken (n : Nat) (size : takenSize c s.store a = some n) (status : p.status = .Success)
    (address : p.address = a + n)
    (state : ∃ t, p.state = { s with
      cache := patch s.cache (entryCells c s.store a).1 (entryValue c s.store s.outside a)
      trace := t })
  | failed (size : takenSize c s.store a = none) (status : p.status = .Failed)
    (state : ∃ t, p.state = { s with trace := t })

variable {m : Nat → UInt8}

theorem takenSize_eq_none (h : ∀ n, entrySize c m a = some n → c.backing_size < a + n) :
    takenSize c m a = none := by
  rw [Option.eq_none_iff_forall_ne_some]
  intro n hn
  obtain ⟨hsize, hroom⟩ := takenSize_eq_some.mp hn
  exact absurd (h n hsize) (Nat.not_lt.mpr hroom)

theorem headerSize_le (c : Config) (l : Nat) : headerSize c ≤ multibyteSize c l := by
  unfold headerSize multibyteSize
  omega

theorem playback_multibyte_taken (hs : Serves s) (h : p.Reaches c s a c.write_size)
    (htype : LOG_ENTRY_GET_TYPE (readBlock s.store a c.write_size) = 0) :
    Taken c s a (playback_multibyte c p) := by
  have hsize : entrySize c s.store a =
      if LOG_ENTRY_MULTIBYTE_GET_ADDRESS (readBlock s.store a (headerSize c)) +
        LOG_ENTRY_MULTIBYTE_GET_LENGTH (readBlock s.store a (headerSize c)) > c.logical_size then none
      else some (multibyteSize c
        (LOG_ENTRY_MULTIBYTE_GET_LENGTH (readBlock s.store a (headerSize c)))) := by
    rw [entrySize, if_pos htype]
  have h1 : (p.word c (c.write_size = 2)).Reaches c s a (headerSize c) := by
    simpa [headerSize] using h.word hs (c.write_size = 2)
  unfold playback_multibyte
  dsimp only
  cases h1 with
  | cut status state short =>
    rw [if_pos status]
    refine .failed (takenSize_eq_none fun n hn => ?_) status state
    rw [hsize] at hn
    split at hn
    · cases hn
    · have hle := headerSize_le c
        (LOG_ENTRY_MULTIBYTE_GET_LENGTH (readBlock s.store a (headerSize c)))
      rw [Option.some.inj hn] at hle
      omega
  | inside h1 room =>
    rw [if_neg (by simp [h1.status]), h1.log]
    split
    · rename_i hlong
      rw [if_pos hlong] at hsize
      exact .failed (takenSize_eq_none fun n hn => by rw [hsize] at hn; cases hn) rfl h1.state
    · rename_i hfits
      rw [if_neg hfits] at hsize
      have h2 := (Playback.Reaches.inside h1 room).rest hs
        (LOG_ENTRY_MULTIBYTE_GET_LENGTH (readBlock s.store a (headerSize c)))
      cases h2 with
      | cut status state short =>
        rw [if_pos status]
        refine .failed (takenSize_eq_none fun n hn => ?_) status state
        rw [hsize] at hn
        rw [← Option.some.inj hn]
        exact short
      | inside h2 room2 =>
        rw [if_neg (by simp [h2.status])]
        obtain ⟨t, ht⟩ := h2.state
        refine .taken _ (takenSize_eq_some.mpr ⟨hsize, room2⟩) h2.status h2.address ?_
        unfold entryCells entryValue
        rw [if_pos htype, if_pos htype, ht, h2.log, h2.address]
        exact ⟨_, rfl⟩

theorem playback_at_taken (hs : Serves s) (room : a + c.write_size ≤ c.backing_size) :
    Taken c s a (playback_at c a (readBlock s.store a c.write_size) s) := by
  have hnone : entrySize c s.store a = none → takenSize c s.store a = none := fun h =>
    takenSize_eq_none fun n hn => by rw [h] at hn; cases hn
  have hsame : ∃ t, s = { s with trace := t } := ⟨s.trace, rfl⟩
  unfold playback_at playback_entry
  split
  · rename_i htype
    exact playback_multibyte_taken hs (.inside ⟨rfl, rfl, rfl, s.trace, rfl⟩ room) htype
  rename_i h0
  split
  · rename_i h1
    unfold playback_optimized_64
    dsimp only
    split
    · rename_i hout
      exact .failed (hnone (by rw [entrySize, if_neg h0, if_pos h1, if_pos hout])) rfl hsame
    · rename_i hin
      refine .taken c.write_size (takenSize_eq_some.mpr ⟨?_, room⟩) rfl rfl ?_
      · rw [entrySize, if_neg h0, if_pos h1, if_neg hin]
      · unfold entryCells entryValue
        rw [if_neg h0, if_neg h0, if_pos h1.2, if_pos h1.2]
        exact ⟨_, rfl⟩
  rename_i h1
  split
  · rename_i h2
    have htype : ¬ LOG_ENTRY_GET_TYPE (readBlock s.store a c.write_size) = 1 := by
      rw [h2.2]
      simp
    unfold playback_word_01
    dsimp only
    split
    · rename_i hout
      exact .failed (hnone (by rw [entrySize, if_neg h0, if_neg h1, if_pos h2, if_pos hout])) rfl
        hsame
    · rename_i hin
      refine .taken c.write_size (takenSize_eq_some.mpr ⟨?_, room⟩) rfl rfl ?_
      · rw [entrySize, if_neg h0, if_neg h1, if_pos h2, if_neg hin]
      · unfold entryCells entryValue
        rw [if_neg h0, if_neg h0, if_neg htype, if_neg htype]
        exact ⟨_, rfl⟩
  · rename_i h2
    exact .failed (hnone (by rw [entrySize, if_neg h0, if_neg h1, if_neg h2])) rfl hsame

/-! ## The whole log -/

theorem logEntries_full (h : ¬ a < c.backing_size) : logEntries c m a = ([], none) := by
  rw [logEntries, if_neg h]

theorem logEntries_erased (h : a < c.backing_size)
    (hz : readBlock m a c.write_size = List.replicate c.write_size 0) :
    logEntries c m a = ([], some a) := by
  rw [logEntries, if_pos h, if_pos hz]

theorem logEntries_failed (h : a < c.backing_size)
    (hz : readBlock m a c.write_size ≠ List.replicate c.write_size 0)
    (hsize : takenSize c m a = none) : logEntries c m a = ([], none) := by
  rw [logEntries, if_pos h, if_neg hz, dif_neg (by simp [hsize])]

theorem logEntries_taken (h : a < c.backing_size)
    (hz : readBlock m a c.write_size ≠ List.replicate c.write_size 0)
    (hsize : takenSize c m a = some n) :
    logEntries c m a = (a :: (logEntries c m (a + n)).1, (logEntries c m (a + n)).2) := by
  rw [logEntries, if_pos h, if_neg hz, dif_pos (by simp [hsize])]
  simp [hsize]

/-- How a playback from `a` on ends: before an erased word, or with a
consolidation ahead. -/
inductive Ends (c : Config) (s : State) (a : Nat) : Status × Nat × State → Prop
  | erased (z : Nat) (t : List Access) (stop : (logEntries c s.store a).2 = some z)
    (room : z < c.backing_size) : Ends c s a (.Success, z, { s with
      cache := replay c s.store s.outside (logEntries c s.store a).1 s.cache
      trace := t })
  | ahead (st : Status) (n : Nat) (t : List Access) (stop : (logEntries c s.store a).2 = none)
    (full : st = .Failed ∨ c.backing_size ≤ n) : Ends c s a (st, n, { s with
      cache := replay c s.store s.outside (logEntries c s.store a).1 s.cache
      trace := t })

theorem Ends.entry {t : List Access} {r : Status × Nat × State} (hlt : a < c.backing_size)
    (hz : readBlock s.store a c.write_size ≠ List.replicate c.write_size 0)
    (hsize : takenSize c s.store a = some n) (h : Ends c { s with
      cache := patch s.cache (entryCells c s.store a).1 (entryValue c s.store s.outside a)
      trace := t } (a + n) r) : Ends c s a r := by
  have hlog := logEntries_taken hlt hz hsize
  have hreplay : replay c s.store s.outside (logEntries c s.store a).1 s.cache =
      replay c s.store s.outside (logEntries c s.store (a + n)).1
        (patch s.cache (entryCells c s.store a).1 (entryValue c s.store s.outside a)) := by
    rw [hlog]
    rfl
  cases h with
  | erased z t' stop room =>
    have h' := Ends.erased (c := c) (s := s) (a := a) z t' (by rw [hlog]; exact stop) room
    rw [hreplay] at h'
    exact h'
  | ahead st k t' stop full =>
    have h' := Ends.ahead (c := c) (s := s) (a := a) st k t' (by rw [hlog]; exact stop) full
    rw [hreplay] at h'
    exact h'

theorem playback_loop_ends (a : Nat) (s : State) (hs : Serves s) (ha : a % c.write_size = 0) :
    Ends c s a (playback_loop c a s) := by
  have hread : a < c.backing_size → backing_store_read c a s =
      (true, readBlock s.store a c.write_size, s.log (.read a)) := fun hlt =>
    (hs.reads c).read (word_room ha hlt)
  have htaken : a < c.backing_size → Taken c (s.log (.read a)) a
      (playback_at c a (readBlock s.store a c.write_size) (s.log (.read a))) := fun hlt =>
    playback_at_taken (s := s.log (.read a)) hs (word_room ha hlt)
  fun_induction playback_loop c a s with
  | case1 a s hlt r hr =>
    rw [show r = _ from hread hlt] at hr
    cases hr
  | case2 a s hlt r hr hz =>
    rw [show r = _ from hread hlt] at hz ⊢
    have hlog := logEntries_erased hlt hz
    have h := Ends.erased (c := c) (s := s) (a := a) a (.read a :: s.trace) (by rw [hlog]) hlt
    rw [hlog] at h
    exact h
  | case3 a s hlt r hr hz p hp =>
    have hr' : r = _ := hread hlt
    rw [hr'] at hz
    have hdone := htaken hlt
    rw [show playback_at c a (readBlock s.store a c.write_size) (s.log (.read a)) = p by
      rw [show p = playback_at c a r.2.1 r.2.2 from rfl, hr']] at hdone
    cases hdone with
    | taken n size status => exact absurd (status.symm.trans hp) (by simp)
    | failed size status state =>
      obtain ⟨t, ht⟩ := state
      have hlog := logEntries_failed hlt hz size
      have h := Ends.ahead (c := c) (s := s) (a := a) .Failed p.address t (by rw [hlog]) (.inl rfl)
      rw [hlog] at h
      rw [ht]
      exact h
  | case4 a s hlt r hr hz p hp ih =>
    have hr' : r = _ := hread hlt
    rw [hr'] at hz
    have hdone := htaken hlt
    rw [show playback_at c a (readBlock s.store a c.write_size) (s.log (.read a)) = p by
      rw [show p = playback_at c a r.2.1 r.2.2 from rfl, hr']] at hdone
    cases hdone with
    | failed size status => exact absurd status hp
    | taken n size status address state =>
      obtain ⟨t, ht⟩ := state
      have hnext : (a + n) % c.write_size = 0 := by
        rw [Nat.add_mod, ha, entrySize_aligned (takenSize_eq_some.mp size).1]
        exact Nat.zero_mod _
      have hs' : Serves p.state := by
        rw [ht]
        exact hs
      rw [← address] at hnext
      have hrest := ih hs' hnext (fun h => (hs'.reads c).read (word_room hnext h))
        fun h => playback_at_taken (s := p.state.log (.read p.address)) hs' (word_room hnext h)
      refine Ends.entry (t := t) hlt hz size ?_
      rw [← address]
      rw [show p.state = _ from ht] at hrest ⊢
      exact hrest
  | case5 a s hlt =>
    have hlog := logEntries_full (m := s.store) hlt
    have h := Ends.ahead (c := c) (s := s) (a := a) .Success a s.trace (by rw [hlog])
      (.inr (Nat.le_of_not_lt hlt))
    rw [hlog] at h
    exact h

/-! ## The init -/

/-- What an init finds in the store: the cache that its playback gives, and a
log to go on with, or a store that holds this cache alone. -/
inductive Found (c : Config) (s : State) : Status × State → Prop
  | clean (z : Nat) (s' : State) (stop : (logEntries c s.store c.log_start).2 = some z)
    (store : s'.store = s.store) (write_address : s'.write_address = z)
    (cache : EqBelow c.logical_size s'.cache (replay c s.store s.outside
      (logEntries c s.store c.log_start).1 (consolidatedImage c s.store))) :
    Found c s (.Success, s')
  | consolidated (s' : State) (stop : (logEntries c s.store c.log_start).2 = none)
    (store : s'.store = consolidatedStore c s'.cache) (write_address : s'.write_address = c.log_start)
    (cache : EqBelow c.logical_size s'.cache (replay c s.store s.outside
      (logEntries c s.store c.log_start).1 (consolidatedImage c s.store))) :
    Found c s (.Consolidated, s')

theorem replay_congr (c : Config) (m : Nat → UInt8) (outside : Nat → Nat → UInt8)
    {cache cache' : Nat → UInt8} (h : EqBelow n cache cache') (entries : List Nat) :
    EqBelow n (replay c m outside entries cache) (replay c m outside entries cache') := by
  induction entries generalizing cache cache' with
  | nil => exact h
  | cons a entries ih => exact ih (h.patch _ _)

theorem Serves.consolidate_force (h : Serves s) : ∃ s',
    wear_leveling_consolidate_force c s = (.Consolidated, s') ∧ ConsolidatedFrom c s s' := by
  rcases consolidate_force_cases c s with hdone | ⟨_, _, _, hrefused⟩
  · exact hdone
  · exact absurd hrefused h.not_refuses

theorem Serves.init (h : Serves s) (hc : c.log_start ≤ c.backing_size) :
    Found c s (wear_leveling_init c s) := by
  have hclear : Serves (wear_leveling_clear_cache c s) := h
  have hreads : Reads c c.log_start (wear_leveling_clear_cache c s) := fun a room =>
    hclear.reads c a (Nat.le_trans room hc)
  obtain ⟨cache, t, hread, hcache⟩ := hreads.read_consolidated rfl
  have hends := playback_loop_ends (c := c) c.log_start
    { wear_leveling_clear_cache c s with cache := cache, trace := t } h (log_start_aligned c)
  have hreplay := replay_congr c s.store s.outside hcache
    (logEntries c s.store c.log_start).1
  unfold wear_leveling_init backing_store_init
  dsimp only
  rw [hclear.call]
  dsimp only
  rw [hread]
  dsimp only
  unfold wear_leveling_playback_log
  generalize playback_loop c c.log_start _ = r at hends
  -- a consolidation stores the cache, and the log is empty after it
  have hforce : ∀ n t', (logEntries c s.store c.log_start).2 = none →
      ∃ s2, wear_leveling_consolidate_force c { s with
          cache := replay c s.store s.outside (logEntries c s.store c.log_start).1 cache,
          write_address := n, trace := t' } = (.Consolidated, s2) ∧
        Found c s (.Consolidated, s2) := by
    intro n t' hstop
    obtain ⟨s2, heq, hs2⟩ := Serves.consolidate_force (c := c) (s := { s with
      cache := replay c s.store s.outside (logEntries c s.store c.log_start).1 cache,
      write_address := n, trace := t' }) h
    refine ⟨s2, heq, .consolidated s2 hstop ?_ hs2.write_address ?_⟩
    · rw [hs2.store, hs2.cache]
    · rw [hs2.cache]
      exact hreplay
  cases hends with
  | erased z t' stop room =>
    dsimp only
    unfold wear_leveling_consolidate_if_needed
    rw [if_neg (by simp), if_neg (Nat.not_le.mpr room)]
    exact .clean z _ stop rfl rfl hreplay
  | ahead st n t' stop full =>
    dsimp only
    by_cases hfailed : st = .Failed
    · rw [if_pos hfailed]
      obtain ⟨s2, heq, hfound⟩ := hforce n t' stop
      dsimp only [wear_leveling_clear_cache]
      rw [heq]
      exact hfound
    · rw [if_neg hfailed]
      unfold wear_leveling_consolidate_if_needed
      rw [if_pos (full.resolve_left hfailed)]
      obtain ⟨s2, heq, hfound⟩ := hforce n t' stop
      dsimp only [wear_leveling_clear_cache]
      rw [heq]
      exact hfound

theorem logEntries_consolidated (c : Config) (m : Nat → UInt8) :
    logEntries c (consolidatedStore c m) c.log_start =
      ([], if c.log_start < c.backing_size then some c.log_start else none) := by
  have herased := (holdsLog_consolidatedStore c m).erased
  split
  · rename_i hlt
    refine logEntries_erased hlt (List.ext_getElem (by simp) fun i h1 h2 => ?_)
    simp only [readBlock, List.getElem_map, List.getElem_range, List.getElem_replicate]
    exact herased _ (Nat.le_add_right _ _)
  · rename_i hge
    exact logEntries_full hge

end Playback

/-- An init over the store `m` does not fail, and an init over the store that
it leaves, with any static data, gives the same cache and write address. -/
def Recovers (c : Config) (m : Nat → UInt8) : Prop :=
  ∀ s, Serves s → s.store = m →
    (wear_leveling_init c s).1 ≠ .Failed ∧
      ∀ s', Serves s' → s'.store = (wear_leveling_init c s).2.store →
        (wear_leveling_init c s').2.write_address = (wear_leveling_init c s).2.write_address ∧
          EqBelow c.logical_size (wear_leveling_init c s').2.cache (wear_leveling_init c s).2.cache

theorem Found.status {c : Config} {s : State} {r : Status × State} (h : Found c s r) :
    r.1 ≠ .Failed := by
  cases h with
  | clean | consolidated => simp

theorem Found.again {c : Config} {s' : State} {r' : Status × State} {m : Nat → UInt8}
    (h : Found c s' r') (hstore : s'.store = consolidatedStore c m) :
    r'.2.write_address = c.log_start ∧ EqBelow c.logical_size r'.2.cache m := by
  have hlog := logEntries_consolidated c m
  have himage := consolidatedImage_consolidatedStore c m
  rw [← hstore] at hlog himage
  cases h with
  | clean z s1 stop store write_address cache =>
    rw [hlog] at stop cache
    refine ⟨?_, cache.trans himage⟩
    split at stop
    · exact write_address.trans (Option.some.inj stop).symm
    · cases stop
  | consolidated s1 stop store write_address cache =>
    rw [hlog] at cache
    exact ⟨write_address, cache.trans himage⟩

/-- The device before an init over the store `m`, with the byte `x` all over
the memory outside of the entries. -/
def State.amid (m : Nat → UInt8) (x : UInt8) : State :=
  { State.over m with answers := [.inRange fun _ => 0], outside := fun _ _ => x }

theorem amid_serves (m : Nat → UInt8) (x : UInt8) : Serves (.amid m x) := ⟨_, rfl⟩

theorem amid_store (m : Nat → UInt8) (x : UInt8) : (State.amid m x).store = m := rfl

/-- Whatever is in the store, recovery is stable exactly when the log ends in
a consolidation or leaves no byte from outside of an entry in the cache. -/
theorem recovery_is_stable_iff (c : Config) (hc : c.log_start ≤ c.backing_size) (m : Nat → UInt8) :
    Recovers c m ↔ Settles c m := by
  unfold Settles
  dsimp only
  constructor
  · intro h
    by_cases hstop : (logEntries c m c.log_start).2 = none
    · exact .inl hstop
    refine .inr fun i hi => ?_
    by_contra hloose
    rw [Bool.not_eq_false] at hloose
    -- the memory around the entries differs between the two inits
    have hcell : ∀ x, (wear_leveling_init c (.amid m x)).2.store = m ∧
        (wear_leveling_init c (.amid m x)).2.cache i = x := by
      intro x
      have hfound := (amid_serves m x).init hc
      generalize wear_leveling_init c (.amid m x) = r at hfound
      cases hfound with
      | clean z s1 stop store write_address cache =>
        refine ⟨store, (cache i hi).trans ?_⟩
        exact replay_loose (fun j hj => by cases hj) i hloose
      | consolidated s1 stop => exact absurd stop hstop
    obtain ⟨-, hagain⟩ := h (.amid m 0) (amid_serves m 0) rfl
    obtain ⟨-, hcache⟩ := hagain (.amid m 1) (amid_serves m 1) (hcell 0).1.symm
    have h01 := hcache i hi
    rw [(hcell 0).2, (hcell 1).2] at h01
    exact absurd h01 (by simp)
  · rintro h s hs rfl
    have hfound := hs.init hc
    refine ⟨hfound.status, fun s' hs' hstore => ?_⟩
    have hfound' := hs'.init hc
    generalize wear_leveling_init c s = r at hfound hstore ⊢
    generalize wear_leveling_init c s' = r' at hfound' ⊢
    cases hfound with
    | consolidated s1 stop store write_address cache =>
      obtain ⟨haddress, hcache⟩ := hfound'.again (hstore.trans store)
      exact ⟨haddress.trans write_address.symm, hcache⟩
    | clean z s1 stop store write_address cache =>
      have hsettled := h.resolve_left (by rw [stop]; simp)
      dsimp only at hstore
      rw [store] at hstore
      cases hfound' with
      | consolidated s2 stop' =>
        rw [hstore, stop] at stop'
        cases stop'
      | clean z' s2 stop' store' write_address' cache' =>
        rw [hstore] at stop' cache'
        rw [stop] at stop'
        refine ⟨?_, fun i hi => ?_⟩
        · exact write_address'.trans ((Option.some.inj stop').symm.trans write_address.symm)
        · rw [cache' i hi, cache i hi]
          exact replay_agree (n := c.logical_size) (fun _ _ _ => rfl) i hi (hsettled i hi)

theorem recovery_is_stable_erased :
    Recovers smallConfig (fun _ => 0) ↔ Settles smallConfig (fun _ => 0) :=
  recovery_is_stable_iff smallConfig (by decide) _

/-- The log holds one entry of length 7. Two of its bytes are what lies behind
the entry in memory, which the next init finds changed. -/
theorem a_long_entry_is_not_recovered :
    ¬ ∀ (c : Config), c.log_start ≤ c.backing_size → ∀ m, Recovers c m := by
  intro h
  obtain ⟨-, hagain⟩ := h smallConfig (by decide) longEntryStore (.amid longEntryStore 0)
    (amid_serves _ 0) (amid_store _ 0)
  obtain ⟨-, hcache⟩ := hagain
    (.amid (wear_leveling_init smallConfig (.amid longEntryStore 0)).2.store 1)
    (amid_serves _ 1) (amid_store _ 1)
  have hcell := hcache 5 (by decide)
  revert hcell
  decide +kernel

end keychron_qmk.wear_leveling
