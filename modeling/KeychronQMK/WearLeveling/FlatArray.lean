-- The purpose of the wear leveling: a flat array of bytes that a power
-- cycle keeps. Every run of writes, reads, erases and re-inits on a driver
-- that works gives what the flat array gives.
import KeychronQMK.WearLeveling.Appends

namespace keychron_qmk.wear_leveling

open memory

/-! ## What a store holds -/

/-- The logical data that `wear_leveling_read_consolidated` finds: the
consolidated data when their checksum is right, else zeros. -/
def consolidatedImage (c : Config) (m : Nat → UInt8) : Nat → UInt8 :=
  if readBlock m c.logical_size 8 = checksumOf c m then m else fun _ => 0

/-- The write log holds the entries `E` and ends at `n`. Everything after
it is erased. -/
structure HoldsLog (c : Config) (m : Nat → UInt8) (E : List (LogEntry c)) (n : Nat) : Prop where
  log : readBlock m c.log_start (logBytes E).length = logBytes E
  stop : n = c.log_start + (logBytes E).length
  room : E = [] ∨ n < c.backing_size
  erased : ∀ i, n ≤ i → m i = 0

/-- The store holds what the RAM holds: a playback of it gives the cache
and the write address. -/
def Synced (c : Config) (s : State) : Prop :=
  ∃ E, HoldsLog c s.store E s.write_address ∧
    EqBelow c.logical_size s.cache (applyAll E (consolidatedImage c s.store))

variable {m : Nat → UInt8}

theorem checksumOf_congr (c : Config) {m' : Nat → UInt8} (h : EqBelow c.logical_size m m') :
    checksumOf c m = checksumOf c m' := by
  unfold checksumOf
  rw [h.readBlock (by omega)]

variable {a n : Nat}

theorem consolidatedImage_patch (c : Config) (m : Nat → UInt8) (l : List UInt8)
    (ha : c.log_start ≤ a) :
    EqBelow c.logical_size (consolidatedImage c (patch m a l)) (consolidatedImage c m) := by
  unfold Config.log_start at ha
  have hm : EqBelow c.logical_size (patch m a l) m := fun i hi => patch_lt _ _ (by omega)
  unfold consolidatedImage
  rw [checksumOf_congr c hm, readBlock_patch_below m l (by omega)]
  split
  · exact hm
  · exact EqBelow.refl _ _

theorem holdsLog_consolidatedStore (c : Config) (m : Nat → UInt8) :
    HoldsLog c (consolidatedStore c m) [] c.log_start := by
  refine ⟨rfl, rfl, .inl rfl, ?_⟩
  intro i hi
  unfold Config.log_start at hi
  unfold consolidatedStore
  rw [patch_ge _ _ (by simpa using hi), patch_ge _ _ (by simp; omega)]

theorem consolidatedStore_eqBelow (c : Config) (m : Nat → UInt8) :
    EqBelow c.logical_size (consolidatedStore c m) m := by
  intro i hi
  unfold consolidatedStore
  rw [patch_lt _ _ hi, patch_in _ _ (Nat.zero_le i) (by simpa using hi)]
  simp [readBlock]

theorem consolidatedImage_consolidatedStore (c : Config) (m : Nat → UInt8) :
    EqBelow c.logical_size (consolidatedImage c (consolidatedStore c m)) m := by
  have hm := consolidatedStore_eqBelow c m
  have hsum : readBlock (consolidatedStore c m) c.logical_size 8 =
      checksumOf c (consolidatedStore c m) := by
    rw [checksumOf_congr c hm]
    conv_lhs => rw [← checksumOf_length c m]
    exact readBlock_patch_self _ _ _
  unfold consolidatedImage
  rw [if_pos hsum]
  exact hm

variable {c : Config} {s s' : State}

theorem synced_of_consolidatedFrom (h : ConsolidatedFrom c s s') : Synced c s' := by
  refine ⟨[], ?_, ?_⟩
  · rw [h.store, h.write_address]
    exact holdsLog_consolidatedStore c s.cache
  · rw [h.store, h.cache]
    exact (consolidatedImage_consolidatedStore c s.cache).symm

variable {E : List (LogEntry c)}

theorem HoldsLog.append (h : HoldsLog c m E n) (F : List (LogEntry c))
    (hroom : n + (logBytes F).length < c.backing_size) :
    HoldsLog c (patch m n (logBytes F)) (E ++ F) (n + (logBytes F).length) := by
  obtain ⟨h1, h2, h3, h4⟩ := h
  refine ⟨?_, ?_, .inr hroom, ?_⟩
  · rw [logBytes_append, List.length_append, readBlock_add, ← h2, readBlock_patch_self,
      readBlock_patch_below _ _ (by omega), h1]
  · rw [logBytes_append, List.length_append]
    omega
  · intro i hi
    rw [patch_ge _ _ hi]
    exact h4 i (by omega)

/-! ## Re-init -/

theorem Reads.read_consolidated (hs : Reads c c.log_start s) (hwa : s.write_address = c.log_start) :
    ∃ cache t, wear_leveling_read_consolidated c s =
      (.Success, { s with cache := cache, trace := t }) ∧
      EqBelow c.logical_size cache (consolidatedImage c s.store) := by
  have hl := logical_words c
  obtain ⟨k, hk⟩ := write_size_dvd_eight c
  have hk' : 8 / c.write_size = k := by rw [hk, Nat.mul_div_cancel k c.write_size_pos]
  have hstart : c.log_start = c.logical_size + 8 := rfl
  obtain ⟨t1, h1⟩ := hs.read_bulk 0 (c.logical_size / c.write_size) (by omega)
  rw [← hl] at h1
  have himage : EqBelow c.logical_size (patch s.cache 0 (readBlock s.store 0 c.logical_size))
      s.store := by
    intro i hi
    rw [patch_in _ _ (Nat.zero_le i) (by simpa using hi)]
    simp [readBlock]
  obtain ⟨t2, h2⟩ := Reads.read_bulk
    (s := State.update 0 (readBlock s.store 0 c.logical_size) { s with trace := t1 })
    hs c.logical_size k (by omega)
  rw [← hk] at h2
  unfold wear_leveling_read_consolidated
  simp only [h1, hk', h2]
  simp only [State.update, State.log, checksumOf_congr c himage]
  unfold consolidatedImage
  split
  · exact ⟨_, t2, rfl, himage⟩
  · refine ⟨fun _ => 0, t2, ?_, EqBelow.refl _ _⟩
    unfold wear_leveling_clear_cache
    rw [← hwa]

theorem read_consolidated_works (hs : Works s) (hwa : s.write_address = c.log_start) :
    ∃ cache t, wear_leveling_read_consolidated c s =
      (.Success, { s with cache := cache, trace := t }) ∧
      EqBelow c.logical_size cache (consolidatedImage c s.store) :=
  (hs.reads c _).read_consolidated hwa

/-- A re-init over a store that holds a log. -/
theorem init_holds (hs : Works s) (h : HoldsLog c s.store E n) :
    ∃ st s', wear_leveling_init c s = (st, s') ∧ st ≠ .Failed ∧ Works s' ∧ Synced c s' ∧
      EqBelow c.logical_size s'.cache (applyAll E (consolidatedImage c s.store)) := by
  obtain ⟨cache, t, hread, hcache⟩ := read_consolidated_works (c := c)
    (s := wear_leveling_clear_cache c s) hs rfl
  obtain ⟨t', hloop⟩ := playback_loop_stores E
    (s := { wear_leveling_clear_cache c s with cache := cache, trace := t }) hs c.log_start h.log
    (by rw [← h.stop]; exact h.room.imp id Nat.le_of_lt)
    (by
      right
      apply List.ext_getElem (by simp)
      intro i h1 h2
      simp only [readBlock, List.getElem_map, List.getElem_range, List.getElem_replicate]
      exact h.erased _ (by rw [h.stop]; omega))
  rw [← h.stop] at hloop
  have hE := eqBelow_applyAll hcache E
  unfold wear_leveling_init wear_leveling_playback_log
  unfold backing_store_init
  simp only [call_works (s := wear_leveling_clear_cache c s) hs, hread, hloop, reduceCtorEq,
    if_false]
  unfold wear_leveling_consolidate_if_needed
  split_ifs with hfull
  · obtain ⟨s', h', hs'⟩ | ⟨_, _, _, hn⟩ := consolidate_force_cases c
      { wear_leveling_clear_cache c s with
        cache := applyAll E cache, trace := t', write_address := n }
    · refine ⟨.Consolidated, s', ?_, by simp, works_of_suffix hs'.answers hs,
        synced_of_consolidatedFrom hs', ?_⟩
      · rw [h']
      · rw [hs'.cache]; exact hE
    · exact absurd hn (Works.not_refuses hs)
  · exact ⟨.Success, _, rfl, by simp, hs, ⟨E, h, hE⟩, hE⟩

/-! ## Writes -/

/-- How a write inside the bounds can end, when `E` are the entries that it
appends. -/
inductive WriteOutcome (c : Config) (a : Nat) (v : List UInt8) (E : List (LogEntry c)) (s : State) :
    Status × State → Prop
  | skipped (same : readBlock s.cache a v.length = v) : WriteOutcome c a v E s (.Success, s)
  | logged (s' : State) (differs : readBlock s.cache a v.length ≠ v)
    (cache : s'.cache = patch s.cache a v)
    (store : s'.store = patch s.store s.write_address (logBytes E))
    (write_address : s'.write_address = s.write_address + (logBytes E).length)
    (room : s'.write_address < c.backing_size)
    (answers : s'.answers <:+ s.answers)
    (trace : s'.trace = (writeCalls s.write_address (E.flatMap LogEntry.words)).reverse ++
      .cache a v.length :: s.trace) : WriteOutcome c a v E s (.Success, s')
  | consolidated (s' : State) (differs : readBlock s.cache a v.length ≠ v)
    (cache : s'.cache = patch s.cache a v)
    (store : s'.store = consolidatedStore c s'.cache)
    (write_address : s'.write_address = c.log_start)
    (answers : s'.answers <:+ s.answers) : WriteOutcome c a v E s (.Consolidated, s')
  | failed (s' : State) (refused : Refuses s) : WriteOutcome c a v E s (.Failed, s')

variable {v : List UInt8}

theorem Covers.words_ne_nil (h : Covers a v E) (hv : v ≠ []) : E.flatMap LogEntry.words ≠ [] := by
  cases h with
  | nil => exact absurd rfl hv
  | cons e h =>
    intro hnil
    have hwe := e.write_size_le
    have hw := c.write_size_pos
    have hflat := e.flatten_words
    rw [(List.append_eq_nil_iff.mp hnil).1] at hflat
    rw [← hflat] at hwe
    simp at hwe
    omega

theorem call_refused (h : (backing_store_call s).1 = false) : Refuses s := by
  unfold backing_store_call at h
  split at h
  · rename_i left rest heq
    exact ⟨left, heq ▸ List.mem_cons_self⟩
  · cases h

theorem unlock_refused (h : (wear_leveling_unlock s).1 = .Failure) : Refuses s := by
  unfold wear_leveling_unlock backing_store_unlock at h
  split at h
  · cases h
  · rename_i hcall
    split at h
    · rename_i heq
      exact call_refused (by rw [heq])
    · cases h

theorem lock_refused (h : (wear_leveling_lock s).1 = .Failure) : Refuses s := by
  unfold wear_leveling_lock backing_store_lock at h
  split at h
  · cases h
  · split at h
    · rename_i heq
      exact call_refused (by rw [heq])
    · cases h

/-- The outcome of the call, from what the appends and the lock do. -/
theorem write_unlocked_outcome (c : Config) (a : Nat) (v : List UInt8) (s s1 : State)
    (hv : a + v.length ≤ c.logical_size) (hs : s.write_address + 8 < 2 ^ 32)
    (differs : readBlock s.cache a v.length ≠ v) (cache : s1.cache = patch s.cache a v)
    (write_address : s1.write_address = s.write_address) (store : s1.store = s.store)
    (trace : s1.trace = .cache a v.length :: s.trace) (answers : s1.answers <:+ s.answers)
    (lock_status : LockStatus) :
    WriteOutcome c a v (entriesOf c a v hv) s
      (wear_leveling_write_unlocked c a v lock_status s1) := by
  have hv0 : v ≠ [] := by
    rintro rfl
    exact differs rfl
  have hcov := covers_entriesOf c a v hv
  have heq := write_raw_eq c a v hv s1
  generalize entriesOf c a v hv = E at hcov heq
  have hout := append_all_outcome c (E.flatMap LogEntry.words) (length_of_mem_flatMap_words E) s1
    (by rw [write_address]; exact hs)
  rw [← heq] at hout
  unfold wear_leveling_write_unlocked
  generalize wear_leveling_write_raw c a v s1 = r at hout ⊢
  cases hout with
  | success s2 h2 =>
    have hroom : s2.write_address < c.backing_size := by
      rcases h2.room with h | h
      · exact absurd h (hcov.words_ne_nil hv0)
      · exact h
    have hflat := flatten_flatMap_words E
    have hans := h2.answers.trans answers
    have hlogged : ∀ s3 : State, s3.cache = s2.cache → s3.write_address = s2.write_address →
        s3.store = s2.store → s3.trace = s2.trace → s3.answers <:+ s2.answers →
        WriteOutcome c a v E s (.Success, s3) := by
      intro s3 e1 e2 e3 e4 e5
      refine .logged s3 differs ?_ ?_ ?_ ?_ (e5.trans hans) ?_
      · rw [e1, h2.cache, cache]
      · rw [e3, h2.store, store, write_address, hflat]
      · rw [e2, h2.write_address, write_address, hflat]
      · rw [e2]; exact hroom
      · rw [e4, h2.trace, trace, write_address]
    obtain ⟨hl1, hl2, hl3, hl4, hl5⟩ := lock_keeps s2
    unfold wear_leveling_consolidate_if_needed
    simp only [Nat.not_le.mpr hroom, if_false]
    split_ifs with hls hre
    · exact .failed _ ((lock_refused hre).of_suffix hans)
    · exact hlogged _ hl1 hl2 hl3 hl4 hl5
    · exact hlogged _ rfl rfl rfl rfl (List.suffix_refl _)
  | consolidated s2 h2 =>
    have hans := h2.answers.trans answers
    obtain ⟨hl1, hl2, hl3, -, hl5⟩ := lock_keeps s2
    dsimp only
    split_ifs with hls hre
    · exact .failed _ ((lock_refused hre).of_suffix hans)
    · refine .consolidated _ differs ?_ ?_ ?_ (hl5.trans hans)
      · rw [hl1, h2.cache, cache]
      · rw [hl3, hl1, h2.store, h2.cache]
      · rw [hl2, h2.write_address]
    · refine .consolidated _ differs ?_ ?_ h2.write_address hans
      · rw [h2.cache, cache]
      · rw [h2.store, h2.cache]
  | failed s2 hc hn =>
    have hn' : Refuses s := hn.of_suffix answers
    dsimp only
    split_ifs
    · exact .failed _ hn'
    · exact .failed _ hn'
    · exact .failed _ hn'

theorem write_outcome (c : Config) (a : Nat) (v : List UInt8) (hv : a + v.length ≤ c.logical_size)
    (s : State) (hs : s.write_address + 8 < 2 ^ 32) :
    WriteOutcome c a v (entriesOf c a v hv) s (wear_leveling_write c a v s) := by
  have hl := c.logical_addressable
  unfold wear_leveling_write
  rw [u32_of_lt (by omega), if_neg (by omega)]
  split_ifs with hsame
  · exact .skipped hsame
  obtain ⟨hu1, hu2, hu3, hu4, hu5⟩ := unlock_keeps (s.update a v)
  have hrefused := unlock_refused (s := s.update a v)
  have hrest := write_unlocked_outcome c a v s (wear_leveling_unlock (s.update a v)).2 hv hs hsame
    hu1 hu2 hu3 hu4 hu5
  generalize wear_leveling_unlock (s.update a v) = r at *
  obtain ⟨lock_status, s1⟩ := r
  cases lock_status with
  | Failure => exact .failed _ (hrefused rfl)
  | Success => exact hrest _
  | Unchanged => exact hrest _

theorem HoldsLog.no_wrap (h : HoldsLog c m E n) : n + 8 < 2 ^ 32 := by
  have hl := c.logical_addressable
  have hb := c.backing_addressable
  rcases h.room with hE | hn
  · have hstop := h.stop
    rw [hE] at hstop
    simp only [logBytes_nil, List.length_nil, Config.log_start] at hstop
    omega
  · omega

theorem holdsLog_logged {F : List (LogEntry c)} (h : HoldsLog c s.store E s.write_address)
    (hF : Covers a v F) (store : s'.store = patch s.store s.write_address (logBytes F))
    (write_address : s'.write_address = s.write_address + (logBytes F).length)
    (room : s'.write_address < c.backing_size) :
    HoldsLog c s'.store (E ++ F) s'.write_address ∧
      EqBelow c.logical_size (applyAll (E ++ F) (consolidatedImage c s'.store))
        (patch (applyAll E (consolidatedImage c s.store)) a v) := by
  have hstart : c.log_start ≤ s.write_address := by
    have := h.stop
    omega
  constructor
  · rw [store, write_address]
    exact h.append F (by rw [← write_address]; exact room)
  · rw [applyAll_append, hF.applyAll, store]
    exact (eqBelow_applyAll (consolidatedImage_patch c s.store _ hstart) E).patch a v

/-! ## The flat array -/

/-- The RAM and the store both hold the flat array `m`, and the driver works. -/
structure Refines (c : Config) (s : State) (m : Nat → UInt8) : Prop where
  works : Works s
  synced : Synced c s
  cache : EqBelow c.logical_size s.cache m

theorem refines_write (h : Refines c s m) (hv : a + v.length ≤ c.logical_size) :
    (wear_leveling_write c a v s).1 ≠ .Failed ∧
      Refines c (wear_leveling_write c a v s).2 (patch m a v) := by
  obtain ⟨hworks, ⟨E, hE, hcache⟩, hm⟩ := h
  have hout := write_outcome c a v hv s hE.no_wrap
  have hF := covers_entriesOf c a v hv
  generalize wear_leveling_write c a v s = r at hout ⊢
  generalize entriesOf c a v hv = F at hout hF
  cases hout with
  | skipped same =>
    refine ⟨by simp, hworks, ⟨E, hE, hcache⟩, ?_⟩
    have hp : patch s.cache a v = s.cache := by
      conv_lhs => rw [← same]
      exact patch_readBlock _ _ _
    rw [← hp]
    exact hm.patch a v
  | logged s' differs cache store write_address room answers trace =>
    obtain ⟨hlog, himage⟩ := holdsLog_logged hE hF store write_address room
    refine ⟨by simp, works_of_suffix answers hworks, ⟨E ++ F, hlog, ?_⟩, ?_⟩
    · rw [cache]
      exact (hcache.patch a v).trans himage.symm
    · rw [cache]
      exact hm.patch a v
  | consolidated s' differs cache store write_address answers =>
    refine ⟨by simp, works_of_suffix answers hworks, ⟨[], ?_, ?_⟩, ?_⟩
    · rw [store, write_address]
      exact holdsLog_consolidatedStore c s'.cache
    · rw [store]
      exact (consolidatedImage_consolidatedStore c s'.cache).symm
    · rw [cache]
      exact hm.patch a v
  | failed s' refused => exact absurd refused hworks.not_refuses

theorem refines_init (h : Refines c s m) (s1 : State) (hs1 : Works s1)
    (hstore : s1.store = s.store) :
    (wear_leveling_init c s1).1 ≠ .Failed ∧ Refines c (wear_leveling_init c s1).2 m := by
  obtain ⟨-, ⟨E, hE, hcache⟩, hm⟩ := h
  rw [← hstore] at hE hcache
  obtain ⟨st, s', heq, hst, hw, hsync, hc⟩ := init_holds hs1 hE
  rw [heq]
  exact ⟨hst, hw, hsync, hc.trans (hcache.symm.trans hm)⟩

theorem holdsLog_erased (c : Config) : HoldsLog c (fun _ => 0) [] c.log_start :=
  ⟨rfl, rfl, .inl rfl, fun _ _ => rfl⟩

theorem consolidatedImage_erased (c : Config) : consolidatedImage c (fun _ => 0) = fun _ => 0 := by
  unfold consolidatedImage
  split <;> rfl

theorem refines_erase (hs : Works s) :
    (wear_leveling_erase c s).1 ≠ .Failed ∧ Refines c (wear_leveling_erase c s).2 fun _ => 0 := by
  obtain ⟨cache, wa, ul, store, answers, trace⟩ := s
  have ha : answers = [] := hs
  subst ha
  have hlog := holdsLog_erased c
  have himage := consolidatedImage_erased c
  cases ul
  · refine ⟨nofun, rfl, ⟨[], hlog, ?_⟩, EqBelow.refl _ _⟩
    change EqBelow _ _ (consolidatedImage c fun _ => 0)
    rw [himage]
    exact EqBelow.refl _ _
  · refine ⟨nofun, rfl, ⟨[], hlog, ?_⟩, EqBelow.refl _ _⟩
    change EqBelow _ _ (consolidatedImage c fun _ => 0)
    rw [himage]
    exact EqBelow.refl _ _

def boot (c : Config) : State := (wear_leveling_init c .erased).2

theorem refines_boot (c : Config) : Refines c (boot c) fun _ => 0 := by
  obtain ⟨st, s', heq, -, hw, hsync, hc⟩ := init_holds (s := .erased) rfl (holdsLog_erased c)
  unfold boot
  rw [heq]
  refine ⟨hw, hsync, ?_⟩
  have himage : consolidatedImage c State.erased.store = fun _ => 0 := consolidatedImage_erased c
  rwa [himage] at hc

/-- What the firmware does with the wear leveling. -/
inductive Op where
  | write (address : Nat) (value : List UInt8)
  | read (address length : Nat)
  | erase
  | init
  | powerCycle
  deriving DecidableEq

def Op.InBounds (c : Config) : Op → Prop
  | write a v => a + v.length ≤ c.logical_size
  | read a n => a + n ≤ c.logical_size
  | _ => True

instance (c : Config) : DecidablePred (Op.InBounds c) := fun op => by
  cases op <;> unfold Op.InBounds <;> infer_instance

/-- What the caller sees of an operation: whether it succeeded, and the
bytes of a read, or the whole cache after a re-init. -/
structure Observation where
  ok : Bool
  bytes : List UInt8
  deriving DecidableEq

def step (c : Config) (s : State) : Op → Observation × State
  | .write a v =>
    let (st, s) := wear_leveling_write c a v s
    (⟨st ≠ .Failed, []⟩, s)
  | .read a n =>
    let (st, bytes) := wear_leveling_read c a n s
    (⟨st ≠ .Failed, bytes⟩, s)
  | .erase =>
    let (st, s) := wear_leveling_erase c s
    (⟨st ≠ .Failed, []⟩, s)
  | .init =>
    let (st, s) := wear_leveling_init c s
    (⟨st ≠ .Failed, readBlock s.cache 0 c.logical_size⟩, s)
  | .powerCycle =>
    let (st, s) := wear_leveling_init c s.powerCycle
    (⟨st ≠ .Failed, readBlock s.cache 0 c.logical_size⟩, s)

def flatStep (c : Config) (m : Nat → UInt8) : Op → Observation × (Nat → UInt8)
  | .write a v => (⟨true, []⟩, patch m a v)
  | .read a n => (⟨true, readBlock m a n⟩, m)
  | .erase => (⟨true, []⟩, fun _ => 0)
  | .init | .powerCycle => (⟨true, readBlock m 0 c.logical_size⟩, m)

def observe (c : Config) : State → List Op → List Observation
  | _, [] => []
  | s, op :: ops => (step c s op).1 :: observe c (step c s op).2 ops

def flatObserve (c : Config) : (Nat → UInt8) → List Op → List Observation
  | _, [] => []
  | m, op :: ops => (flatStep c m op).1 :: flatObserve c (flatStep c m op).2 ops

theorem refines_step (h : Refines c s m) (op : Op) (hop : op.InBounds c) :
    (step c s op).1 = (flatStep c m op).1 ∧ Refines c (step c s op).2 (flatStep c m op).2 := by
  cases op with
  | write a v =>
    obtain ⟨hst, hr⟩ := refines_write h hop
    exact ⟨by simp [step, flatStep, hst], hr⟩
  | read a n =>
    have hn : a + n ≤ c.logical_size := hop
    have hl := c.logical_addressable
    have hread : wear_leveling_read c a n s = (.Success, readBlock m a n) := by
      unfold wear_leveling_read
      rw [u32_of_lt (by omega), if_neg (by omega), h.cache.readBlock hn]
    exact ⟨by simp [step, flatStep, hread], h⟩
  | erase =>
    obtain ⟨hst, hr⟩ := refines_erase (c := c) h.works
    exact ⟨by simp [step, flatStep, hst], hr⟩
  | init =>
    obtain ⟨hst, hr⟩ := refines_init h s h.works rfl
    refine ⟨?_, hr⟩
    simp only [step, flatStep]
    rw [hr.cache.readBlock (by omega)]
    simp [hst]
  | powerCycle =>
    obtain ⟨hst, hr⟩ := refines_init h s.powerCycle rfl rfl
    refine ⟨?_, hr⟩
    simp only [step, flatStep]
    rw [hr.cache.readBlock (by omega)]
    simp [hst]

theorem observe_of_refines (h : Refines c s m) (ops : List Op) (hops : ∀ op ∈ ops, op.InBounds c) :
    observe c s ops = flatObserve c m ops := by
  induction ops generalizing s m with
  | nil => rfl
  | cons op ops ih =>
    obtain ⟨ho, hr⟩ := refines_step h op (hops op List.mem_cons_self)
    rw [observe, flatObserve, ho, ih hr fun op' h' => hops op' (List.mem_cons_of_mem _ h')]

/-- For every write size and every pair of sizes, every run inside the
bounds shows what a flat array of zeros shows: each write succeeds, each
read gives the bytes written last, and the cache after each re-init is the
whole array. -/
theorem the_wear_leveling_is_a_flat_array (c : Config) (ops : List Op)
    (hops : ∀ op ∈ ops, op.InBounds c) :
    observe c (boot c) ops = flatObserve c (fun _ => 0) ops :=
  observe_of_refines (refines_boot c) ops hops

/-- A store of 32 bytes for 8 bytes of data, written by half-words. -/
def smallConfig : Config where
  write_size := 2
  logical_size := 8
  backing_size := 32
  write_size_valid := by decide
  logical_pos := by decide
  logical_addressable := by decide
  backing_addressable := by decide
  backing_twice := by decide
  logical_aligned := by decide
  backing_multiple := by decide

/-- The third write fills the log of the small store in the middle of its
entries, and the re-init after it reads the consolidated data. -/
theorem the_wear_leveling_is_a_flat_array_small :
    observe smallConfig (boot smallConfig)
      [.write 0 [1, 2, 3, 4], .write 3 [0, 9], .write 0 [5, 6, 7, 8], .powerCycle, .read 2 4] =
    flatObserve smallConfig (fun _ => 0)
      [.write 0 [1, 2, 3, 4], .write 3 [0, 9], .write 0 [5, 6, 7, 8], .powerCycle, .read 2 4] :=
  the_wear_leveling_is_a_flat_array smallConfig _ (by decide)

end keychron_qmk.wear_leveling
