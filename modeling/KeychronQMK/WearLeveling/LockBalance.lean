-- The lock of the backing store, when the driver works: a write and an
-- erase leave it as they found it, and an init does when its playback ends
-- inside the store. A consolidation unlocks the store and leaves that to
-- its caller, and a playback is no caller that locks it again.
import KeychronQMK.WearLeveling.FlatArray
import KeychronQMK.WearLeveling.Bounds

namespace keychron_qmk.wear_leveling

open memory runs

/-! ## What keeps the lock -/

/-- The driver still works, and the flag `unlocked` is `u`. -/
structure LockIs (u : Bool) (s : State) : Prop where
  works : Works s
  unlocked : s.unlocked = u

variable {c : Config} {s : State} {u : Bool}

theorem LockIs.unlock (h : LockIs u s) :
    wear_leveling_unlock s = (if u then .Unchanged else .Success, { s with unlocked := true }) := by
  obtain ⟨hw, rfl⟩ := h
  unfold wear_leveling_unlock
  split
  · rename_i hu
    rw [← hu]
  · simp only [backing_store_unlock, call_works hw]

theorem LockIs.lock (h : LockIs u s) :
    wear_leveling_lock s = (if u then .Success else .Unchanged, { s with unlocked := false }) := by
  obtain ⟨hw, rfl⟩ := h
  unfold wear_leveling_lock
  split
  · rename_i hu
    rw [Bool.not_eq_true'] at hu
    simp only [hu, Bool.false_eq_true, if_false]
    rw [← hu]
  · rename_i hu
    rw [Bool.not_eq_true', Bool.not_eq_false] at hu
    simp only [backing_store_lock, call_works hw, if_pos hu]

theorem LockIs.write_bulk (h : LockIs u s) (a : Nat) (words : List (List UInt8)) :
    (backing_store_write_bulk c a words s).1 = true ∧
      LockIs u (backing_store_write_bulk c a words s).2 := by
  induction words generalizing a s with
  | nil => exact ⟨rfl, h⟩
  | cons w words ih =>
    rw [backing_store_write_bulk, write_works h.works]
    exact ih (s := { s.log (.write a w) with store := patch s.store a w })
      ⟨h.works, h.unlocked⟩ (a + c.write_size)

theorem LockIs.write_consolidated (h : LockIs u s) :
    LockIs u (wear_leveling_write_consolidated c s).2 := by
  have h1 : LockIs true { s with unlocked := true } := ⟨h.works, rfl⟩
  unfold wear_leveling_write_consolidated
  rw [h.unlock]
  dsimp only
  obtain ⟨hok2, h2⟩ := h1.write_bulk (c := c) 0 (wordsOf c (readBlock s.cache 0 c.logical_size))
  generalize backing_store_write_bulk c 0 _ _ = r2 at hok2 h2
  obtain ⟨ok2, s2⟩ := r2
  cases hok2
  obtain ⟨hok3, h3⟩ := h2.write_bulk (c := c) c.logical_size (wordsOf c (checksumOf c s2.cache))
  dsimp only at *
  generalize backing_store_write_bulk c c.logical_size _ _ = r3 at hok3 h3
  obtain ⟨ok3, s3⟩ := r3
  cases hok3
  cases u with
  | false =>
    simp only [if_true, h3.lock, Bool.false_eq_true, if_false]
    exact ⟨h3.works, rfl⟩
  | true => simpa using h3

/-- `wear_leveling_consolidate_force` leaves the store unlocked, whoever
called it. -/
theorem LockIs.consolidate_force (h : LockIs u s) :
    LockIs true (wear_leveling_consolidate_force c s).2 := by
  unfold wear_leveling_consolidate_force
  rw [h.unlock]
  dsimp only
  have hw : Works { s with unlocked := true } := h.works
  rw [erase_works hw]
  obtain ⟨h1, h2⟩ := LockIs.write_consolidated (c := c)
    (s := { State.log .erase { s with unlocked := true } with store := fun _ => 0 }) ⟨hw, rfl⟩
  exact ⟨h1, h2⟩

theorem LockIs.consolidate_if_needed (h : LockIs u s) :
    LockIs (u || c.backing_size ≤ s.write_address)
      (wear_leveling_consolidate_if_needed c s).2 := by
  unfold wear_leveling_consolidate_if_needed
  split
  · rename_i hfull
    simpa [hfull] using h.consolidate_force
  · rename_i hroom
    simpa [hroom] using h

/-! ## Writes and erases -/

theorem LockIs.append_raw (h : LockIs true s) (w : List UInt8) :
    LockIs true (wear_leveling_append_raw c w s).2 := by
  unfold wear_leveling_append_raw
  rw [write_works h.works]
  exact LockIs.consolidate_if_needed (u := true) ⟨h.works, h.unlocked⟩

theorem LockIs.ifSuccess {r : Status × State} {next : State → Status × State}
    (h : LockIs true r.2) (hnext : ∀ s', LockIs true s' → LockIs true (next s').2) :
    LockIs true (ifSuccess r next).2 := by
  obtain ⟨st, s'⟩ := r
  cases st with
  | Success => exact hnext s' h
  | Failed => exact h
  | Consolidated => exact h

theorem LockIs.append_if (h : LockIs true s) (p : Prop) [Decidable p] (w : List UInt8) :
    LockIs true (if p then wear_leveling_append_raw c w s else (.Success, s)).2 := by
  split
  · exact h.append_raw w
  · exact h

theorem LockIs.write_raw_multibyte (h : LockIs true s) (a : Nat) (v : List UInt8) :
    LockIs true (wear_leveling_write_raw_multibyte c a v s).2 := by
  unfold wear_leveling_write_raw_multibyte
  split
  · refine (h.append_raw _).ifSuccess fun s1 h1 => ?_
    refine (h1.append_raw _).ifSuccess fun s2 h2 => ?_
    exact (h2.append_if _ _).ifSuccess fun s3 h3 => h3.append_if _ _
  split
  · exact (h.append_raw _).ifSuccess fun s1 h1 => h1.append_if _ _
  · exact h.append_raw _

theorem LockIs.write_raw (h : LockIs true s) (a : Nat) (p : List UInt8) :
    LockIs true (wear_leveling_write_raw c a p s).2 := by
  fun_induction wear_leveling_write_raw c a p s with
  | case1 => exact h
  | case2 a p s hp hword ih => exact (h.append_raw _).ifSuccess ih
  | case3 a p s hp hword h64 ih => exact (h.append_raw _).ifSuccess ih
  | case4 a p s hp hword h64 n ih => exact (h.write_raw_multibyte a _).ifSuccess ih

theorem LockIs.erase (h : LockIs u s) : LockIs u (wear_leveling_erase c s).2 := by
  have hw : Works { s with unlocked := true } := h.works
  have hclear : LockIs true (wear_leveling_clear_cache c
      { State.log .erase { s with unlocked := true } with store := fun _ => 0 }) := ⟨hw, rfl⟩
  unfold wear_leveling_erase
  rw [h.unlock]
  cases u with
  | false =>
    simp only [Bool.false_eq_true, if_false, if_true, erase_works hw, hclear.lock]
    exact ⟨hw, rfl⟩
  | true =>
    simp only [if_true, erase_works hw, reduceCtorEq, if_false]
    exact hclear

theorem LockIs.write_unlocked (h : LockIs true s) (a : Nat) (v : List UInt8)
    (lock_status : LockStatus) :
    LockIs (lock_status ≠ .Success) (wear_leveling_write_unlocked c a v lock_status s).2 := by
  have hraw := h.write_raw (c := c) a v
  have hend : ∀ (status : Status) {s' : State}, LockIs true s' →
      LockIs (lock_status ≠ .Success) (if lock_status = .Success then
        (if (wear_leveling_lock s').1 = .Failure then .Failed else status, (wear_leveling_lock s').2)
        else (status, s')).2 := by
    intro status s' h'
    by_cases hls : lock_status = .Success
    · have hlocked : LockIs false { s' with unlocked := false } := ⟨h'.works, rfl⟩
      simpa [hls, h'.lock] using hlocked
    · simpa [hls] using h'
  unfold wear_leveling_write_unlocked
  generalize wear_leveling_write_raw c a v s = r at hraw
  obtain ⟨st, s1⟩ := r
  cases st with
  | Success => exact hend _ hraw.consolidate_if_needed
  | Failed => exact hend _ hraw
  | Consolidated => exact hend _ hraw

theorem LockIs.write (h : LockIs u s) (a : Nat) (v : List UInt8) :
    LockIs u (wear_leveling_write c a v s).2 := by
  unfold wear_leveling_write
  split_ifs
  · exact h
  · exact h
  have h0 : LockIs u (s.update a v) := ⟨h.works, h.unlocked⟩
  have h1 : LockIs true { s.update a v with unlocked := true } := ⟨h.works, rfl⟩
  rw [h0.unlock]
  cases u with
  | false => exact h1.write_unlocked a v .Success
  | true => exact h1.write_unlocked a v .Unchanged

/-! ## The playback -/

def Cached (s s' : State) : Prop := ∃ cache t, s' = { s with cache := cache, trace := t }

theorem Cached.trans {s s' s'' : State} (h : Cached s s') (h' : Cached s' s'') : Cached s s'' := by
  obtain ⟨_, _, rfl⟩ := h
  obtain ⟨cache, t, rfl⟩ := h'
  exact ⟨cache, t, rfl⟩

theorem Cached.update {s' : State} (h : Cached s s') (x : Access) (a : Nat) (v : List UInt8) :
    Cached s ((s'.log x).update a v) := by
  obtain ⟨cache, t, rfl⟩ := h
  exact ⟨_, _, rfl⟩

theorem Playback.At.cached {a n : Nat} {p : Playback} (h : p.At s a n) : Cached s p.state := by
  obtain ⟨t, ht⟩ := h.state
  exact ⟨s.cache, t, ht⟩

/-- The playback of the entry at `a` is over: it goes on after the entry,
or it failed because there is no entry. -/
inductive Ended (c : Config) (s : State) (a : Nat) (p : Playback) : Prop
  | after (n : Nat) (size : entrySize c s.store a = some n) (status : p.status = .Success)
    (address : p.address = a + n) (state : Cached s p.state)
  | failed (size : entrySize c s.store a = none) (status : p.status = .Failed)
    (state : Cached s p.state)

theorem playback_multibyte_ended {a : Nat} {p : Playback} (hs : Works s)
    (h : p.At s a c.write_size)
    (htype : LOG_ENTRY_GET_TYPE (readBlock s.store a c.write_size) = 0) :
    Ended c s a (playback_multibyte c p) := by
  have h1 : (p.word c (c.write_size = 2)).At s a (headerSize c) := by
    simpa [headerSize] using h.word hs c (c.write_size = 2)
  unfold playback_multibyte
  dsimp only
  rw [if_neg (by simp [h1.status]), h1.log]
  split
  · rename_i hlong
    refine .failed ?_ rfl h1.cached
    rw [entrySize, if_pos htype, if_pos hlong]
  · rename_i hfits
    have h2 := h1.rest hs c
      (LOG_ENTRY_MULTIBYTE_GET_LENGTH (readBlock s.store a (headerSize c))) rfl
    rw [if_neg (by simp [h2.status])]
    refine .after _ ?_ h2.status h2.address (h2.cached.update _ _ _)
    rw [entrySize, if_pos htype, if_neg hfits]

theorem playback_at_ended (c : Config) (hs : Works s) (a : Nat) :
    Ended c s a (playback_at c a (readBlock s.store a c.write_size) s) := by
  have hsame : Cached s s := ⟨s.cache, s.trace, rfl⟩
  unfold playback_at playback_entry
  split
  · rename_i htype
    exact playback_multibyte_ended hs ⟨rfl, rfl, rfl, s.trace, rfl⟩ htype
  rename_i h0
  split
  · rename_i h1
    unfold playback_optimized_64
    dsimp only
    split
    · rename_i hout
      exact .failed (by rw [entrySize, if_neg h0, if_pos h1, if_pos hout]) rfl hsame
    · rename_i hin
      refine .after c.write_size ?_ rfl rfl ⟨_, _, rfl⟩
      rw [entrySize, if_neg h0, if_pos h1, if_neg hin]
  rename_i h1
  split
  · rename_i h2
    unfold playback_word_01
    dsimp only
    split
    · rename_i hout
      exact .failed (by rw [entrySize, if_neg h0, if_neg h1, if_pos h2, if_pos hout]) rfl hsame
    · rename_i hin
      refine .after c.write_size ?_ rfl rfl ⟨_, _, rfl⟩
      rw [entrySize, if_neg h0, if_neg h1, if_pos h2, if_neg hin]
  · rename_i h2
    exact .failed (by rw [entrySize, if_neg h0, if_neg h1, if_neg h2]) rfl hsame

theorem playback_read_ended (c : Config) (hs : Works s) (a : Nat) :
    Ended c s a
      (playback_at c a (backing_store_read c a s).2.1 (backing_store_read c a s).2.2) := by
  have hread : Cached s (s.log (.read a)) := ⟨s.cache, _, rfl⟩
  rw [read_works hs]
  cases playback_at_ended c (hs.log (.read a)) a with
  | after n size status address state => exact .after n size status address (hread.trans state)
  | failed size status state => exact .failed size status (hread.trans state)

/-- The log from `a` on ends inside the store, at an erased word, and every
entry before it is one that the playback knows. -/
inductive Intact (c : Config) (m : Nat → UInt8) : Nat → Prop
  | stop {a : Nat} (room : a < c.backing_size)
    (erased : readBlock m a c.write_size = List.replicate c.write_size 0) : Intact c m a
  | entry {a n : Nat} (room : a < c.backing_size)
    (word : readBlock m a c.write_size ≠ List.replicate c.write_size 0)
    (size : entrySize c m a = some n) (rest : Intact c m (a + n)) : Intact c m a

/-- The playback ends with success inside the store exactly when the log is
intact. -/
theorem playback_loop_ended (c : Config) (a : Nat) (s : State) (hs : Works s) :
    Cached s (playback_loop c a s).2.2 ∧
      ((playback_loop c a s).1 ≠ .Failed ∧ (playback_loop c a s).2.1 < c.backing_size ↔
        Intact c s.store a) := by
  have hread := read_works hs c a
  have hended := playback_read_ended c hs a
  fun_induction playback_loop c a s with
  | case1 a s hlt r hr =>
    rw [show r = _ from hread] at hr
    cases hr
  | case2 a s hlt r hr hz =>
    rw [show r = _ from hread] at hz ⊢
    exact ⟨⟨s.cache, _, rfl⟩, fun _ => .stop hlt hz, fun _ => ⟨by simp, hlt⟩⟩
  | case3 a s hlt r hr hz p hp =>
    rw [show r = _ from hread] at hz
    cases hended with
    | after n size status => exact absurd (status.symm.trans hp) (by simp)
    | failed size status state =>
      refine ⟨state, fun h => absurd rfl h.1, fun h => ?_⟩
      cases h with
      | stop room erased => exact absurd erased hz
      | entry room word size' => exact absurd (size.symm.trans size') (by simp)
  | case4 a s hlt r hr hz p hp ih =>
    rw [show r = _ from hread] at hz
    cases hended with
    | failed size status => exact absurd status hp
    | after n size status address state =>
      have hstore : p.state.store = s.store := by
        obtain ⟨_, _, h⟩ := state
        rw [h]
      have hs' : Works p.state := by
        obtain ⟨_, _, h⟩ := state
        rw [h]
        exact hs
      obtain ⟨hcached, hiff⟩ := ih hs' (read_works hs' c p.address)
        (playback_read_ended c hs' p.address)
      refine ⟨state.trans hcached, hiff.trans ?_⟩
      rw [hstore, address]
      constructor
      · exact .entry hlt hz size
      · intro h
        cases h with
        | stop room erased => exact absurd erased hz
        | entry room word size' rest =>
          rwa [Option.some.inj (size.symm.trans size')]
  | case5 a s hlt =>
    refine ⟨⟨s.cache, s.trace, rfl⟩, fun h => absurd h.2 hlt, fun h => ?_⟩
    cases h <;> contradiction

/-! ## The interface -/

theorem LockIs.playback_log (h : LockIs u s) : Works (wear_leveling_playback_log c s).2 ∧
    ((wear_leveling_playback_log c s).2.unlocked = u ↔
      u = true ∨ Intact c s.store c.log_start) := by
  obtain ⟨hcached, hiff⟩ := playback_loop_ended c c.log_start s h.works
  unfold wear_leveling_playback_log
  generalize playback_loop c c.log_start s = r at hcached hiff
  obtain ⟨st, a, s1⟩ := r
  dsimp only at *
  have h1 : LockIs u { s1 with write_address := a } := by
    obtain ⟨_, _, rfl⟩ := hcached
    exact ⟨h.works, h.unlocked⟩
  rw [← hiff]
  split
  · rename_i hfailed
    refine ⟨h1.consolidate_force.works, ?_⟩
    rw [h1.consolidate_force.unlocked]
    simp [hfailed, eq_comm]
  · rename_i hok
    refine ⟨h1.consolidate_if_needed.works, ?_⟩
    rw [h1.consolidate_if_needed.unlocked]
    cases u <;> simp [hok]

theorem LockIs.init (h : LockIs u s) : Works (wear_leveling_init c s).2 ∧
    ((wear_leveling_init c s).2.unlocked = u ↔ u = true ∨ Intact c s.store c.log_start) := by
  have hclear : LockIs u (wear_leveling_clear_cache c s) := ⟨h.works, h.unlocked⟩
  obtain ⟨cache, t, hread, -⟩ := read_consolidated_works (c := c) hclear.works rfl
  have h1 : LockIs u { wear_leveling_clear_cache c s with cache := cache, trace := t } :=
    ⟨h.works, h.unlocked⟩
  obtain ⟨hworks, hlocked⟩ := h1.playback_log (c := c)
  unfold wear_leveling_init backing_store_init
  simp only [call_works hclear.works, hread]
  generalize wear_leveling_playback_log c _ = r at hworks hlocked
  obtain ⟨st, s2⟩ := r
  cases st with
  | Failed => exact ⟨hworks, hlocked⟩
  | Success => exact ⟨hworks, hlocked⟩
  | Consolidated => exact ⟨hworks, hlocked⟩

/-! ## Runs -/

inductive LockedCall where
  | init
  | write (address : Nat) (value : List UInt8)
  | erase

def lockedStep (c : Config) (s : State) : LockedCall → State
  | .init => (wear_leveling_init c s).2
  | .write a v => (wear_leveling_write c a v s).2
  | .erase => (wear_leveling_erase c s).2

/-- The call returns with the flag `unlocked` as it was. -/
def KeepsLock (c : Config) (s : State) (call : LockedCall) : Prop :=
  (lockedStep c s call).unlocked = s.unlocked

def FindsIntactLog (c : Config) (s : State) (call : LockedCall) : Prop :=
  call = .init → Intact c s.store c.log_start

theorem LockIs.lockedStep_works (h : LockIs u s) (call : LockedCall) :
    Works (lockedStep c s call) := by
  cases call with
  | init => exact h.init.1
  | write a v => exact (h.write a v).works
  | erase => exact h.erase.works

theorem LockIs.keepsLock_iff (h : LockIs false s) (call : LockedCall) :
    FindsIntactLog c s call ↔ KeepsLock c s call := by
  unfold FindsIntactLog KeepsLock
  rw [h.unlocked]
  cases call with
  | init => simpa [lockedStep] using (h.init (c := c)).2.symm
  | write a v => simpa [lockedStep] using (h.write (c := c) a v).unlocked
  | erase => simpa [lockedStep] using (h.erase (c := c)).unlocked

/-- On any content of the store, over a driver that works: every call of a
run returns with the store locked again exactly when every init of the run
finds an intact log. -/
theorem every_call_locks_the_store_again (c : Config) (m : Nat → UInt8)
    (calls : List LockedCall) :
    Along (lockedStep c) (KeepsLock c) (.over m) calls ↔
      Along (lockedStep c) (FindsIntactLog c) (.over m) calls := by
  refine Along.iff (I := LockIs false) ?_ ?_ ⟨rfl, rfl⟩
  · intro s call h
    exact h.keepsLock_iff call
  · intro s call h hkeeps
    exact ⟨h.lockedStep_works call, Eq.trans hkeeps h.unlocked⟩

/-- A store whose log starts with an entry of type 3, which no playback
knows. -/
def unknownEntryStore : Nat → UInt8 := patch (fun _ => 0) 16 [0xc0, 0]

/-- The init consolidates over the broken log, and returns with the store
unlocked. -/
theorem an_init_leaves_the_store_unlocked :
    ¬ ∀ (c : Config) (m : Nat → UInt8) (calls : List LockedCall),
      Along (lockedStep c) (KeepsLock c) (.over m) calls := by
  intro h
  have hkeeps : KeepsLock smallConfig (.over unknownEntryStore) .init :=
    (h smallConfig unknownEntryStore [.init]).1
  revert hkeeps
  unfold KeepsLock
  decide +kernel

end keychron_qmk.wear_leveling
