-- Driver calls that fail: when a write that reports success is in the
-- store, so that a re-init right after it reads it back.
import KeychronQMK.WearLeveling.FlatArray
import KeychronQMK.Lib.Runs

namespace keychron_qmk.wear_leveling

open memory runs

/-- A call of `wear_leveling_write` inside the bounds, with the answers that
the driver gives while it runs. -/
structure Call (c : Config) where
  address : Nat
  value : List UInt8
  answers : List Answer
  in_bounds : address + value.length ≤ c.logical_size

def Call.start {c : Config} (k : Call c) (s : State) : State := { s with answers := k.answers }

def Call.run {c : Config} (k : Call c) (s : State) : Status × State :=
  wear_leveling_write c k.address k.value (k.start s)

def Call.entries {c : Config} (k : Call c) : List (LogEntry c) :=
  entriesOf c k.address k.value k.in_bounds

def callStep (c : Config) (s : State) (k : Call c) : State := (k.run s).2

/-- A re-init with a driver that works makes the read give the bytes `v`. -/
def ReadsBack (c : Config) (s : State) (a : Nat) (v : List UInt8) : Prop :=
  wear_leveling_read c a v.length (wear_leveling_init c { s with answers := [] }).2 = (.Success, v)

def Durable (c : Config) (s : State) (k : Call c) : Prop :=
  (k.run s).1 ≠ .Failed → ReadsBack c (k.run s).2 k.address k.value

instance (c : Config) (s : State) (k : Call c) : Decidable (Durable c s k) := by
  unfold Durable ReadsBack
  infer_instance

/-! ## When a call is durable -/

def Stored (c : Config) (m : Nat → UInt8) (a : Nat) (v : List UInt8) : Prop :=
  ∃ E n, HoldsLog c m E n ∧ readBlock (applyAll E (consolidatedImage c m)) a v.length = v

/-- The write address is at the end of a log of whole entries, and nothing
is left in the store behind the next `len` bytes. -/
def Whole (c : Config) (s : State) (len : Nat) : Prop :=
  ∃ E : List (LogEntry c), readBlock s.store c.log_start (logBytes E).length = logBytes E ∧
    s.write_address = c.log_start + (logBytes E).length ∧
    ∀ i, s.write_address + len ≤ i → s.store i = 0

/-- A call that the cache answers needs its bytes in the store before. A
call that appends needs a log of whole entries, unless it fills the log
and so writes everything anew. -/
def Ready (c : Config) (s : State) (k : Call c) : Prop :=
  if readBlock s.cache k.address k.value.length = k.value then Stored c s.store k.address k.value
  else s.write_address + 8 < 2 ^ 32 ∧
    (Whole c s (logBytes k.entries).length ∨
      c.backing_size ≤ s.write_address + (logBytes k.entries).length)

variable {c : Config} {s : State}

theorem readsBack_of_stored {a : Nat} {v : List UInt8} (hv : a + v.length ≤ c.logical_size)
    (h : Stored c s.store a v) : ReadsBack c s a v := by
  obtain ⟨E, n, hE, hread⟩ := h
  have hl := c.logical_addressable
  obtain ⟨st, s', heq, -, -, -, hcache⟩ := init_holds (s := { s with answers := [] }) rfl hE
  unfold ReadsBack wear_leveling_read
  rw [heq, u32_of_lt (by omega), if_neg (by omega), hcache.readBlock hv, hread]

theorem stored_append {c : Config} {s : State} {a : Nat} {v : List UInt8} {F : List (LogEntry c)}
    (hs : Whole c s (logBytes F).length) (hF : Covers a v F)
    (hroom : s.write_address + (logBytes F).length < c.backing_size) :
    Stored c (patch s.store s.write_address (logBytes F)) a v := by
  obtain ⟨E, hlog, hstop, herased⟩ := hs
  refine ⟨E ++ F, s.write_address + (logBytes F).length, ⟨?_, ?_, .inr hroom, ?_⟩, ?_⟩
  · rw [logBytes_append, List.length_append, readBlock_add, ← hstop, readBlock_patch_self,
      readBlock_patch_below _ _ (by omega), hlog]
  · rw [logBytes_append, List.length_append]
    omega
  · intro i hi
    rw [patch_ge _ _ hi]
    exact herased i hi
  · rw [applyAll_append, hF.applyAll, readBlock_patch_self]

variable {m : Nat → UInt8}

theorem stored_consolidatedStore {a : Nat} {v : List UInt8} (hv : a + v.length ≤ c.logical_size)
    (h : readBlock m a v.length = v) : Stored c (consolidatedStore c m) a v := by
  refine ⟨[], c.log_start, holdsLog_consolidatedStore c m, ?_⟩
  rw [applyAll_nil, (consolidatedImage_consolidatedStore c m).readBlock hv, h]

variable {k : Call c}

theorem durable_of_ready (h : Ready c s k) : Durable c s k := by
  have hF := covers_entriesOf c k.address k.value k.in_bounds
  intro hok
  unfold Ready at h
  split_ifs at h with hsame
  · -- the call is skipped
    have hl := c.logical_addressable
    have hin := k.in_bounds
    have hrun : k.run s = (.Success, k.start s) := by
      unfold Call.run wear_leveling_write
      rw [u32_of_lt (by omega), if_neg (by omega)]
      exact if_pos hsame
    rw [hrun]
    exact readsBack_of_stored k.in_bounds h
  · obtain ⟨hwrap, h⟩ := h
    have hout : WriteOutcome c k.address k.value k.entries (k.start s) (k.run s) :=
      write_outcome c k.address k.value k.in_bounds (k.start s) hwrap
    apply readsBack_of_stored k.in_bounds
    generalize k.run s = r at hok hout
    cases hout with
    | skipped same => exact absurd same hsame
    | logged s' _ _ store write_address room =>
      rcases h with hwhole | hfull
      · rw [write_address] at room
        rw [store]
        exact stored_append (s := k.start s) hwhole hF room
      · rw [write_address] at room
        exact absurd hfull (Nat.not_le.mpr room)
    | consolidated s' _ cache store =>
      rw [store]
      apply stored_consolidatedStore k.in_bounds
      rw [cache, readBlock_patch_self]
    | failed => exact absurd rfl hok

/-! ## Runs -/

theorem ready_of_refines (h : Refines c s m) (k : Call c) : Ready c s k := by
  obtain ⟨-, ⟨E, hE, hcache⟩, -⟩ := h
  unfold Ready
  split_ifs with hsame
  · refine ⟨E, s.write_address, hE, ?_⟩
    rw [← hcache.readBlock k.in_bounds, hsame]
  · exact ⟨hE.no_wrap, .inl ⟨E, hE.log, hE.stop, fun i hi => hE.erased i (by omega)⟩⟩

theorem refines_callStep (h : Refines c s m) (hk : k.answers = []) :
    Refines c (callStep c s k) (patch m k.address k.value) :=
  (refines_write (s := k.start s) ⟨hk, h.synced, h.cache⟩ k.in_bounds).2

/-- In every run of writes over a driver that can refuse any of its calls,
the calls that are ready are durable. -/
theorem a_reported_success_is_durable (c : Config) (calls : List (Call c))
    (h : Along (callStep c) (Ready c) (boot c) calls) :
    Along (callStep c) (Durable c) (boot c) calls :=
  Along.imp (I := fun _ => True) (fun _ _ _ hk => ⟨durable_of_ready hk, trivial⟩) trivial h

/-- A store of 64 bytes for 16 bytes of data, written by words. -/
def wordConfig : Config where
  write_size := 4
  logical_size := 16
  backing_size := 64
  write_size_valid := by decide
  logical_pos := by decide
  logical_addressable := by decide
  backing_addressable := by decide
  backing_twice := by decide
  logical_aligned := by decide
  backing_multiple := by decide

/-- The unlock of the first call is refused, after the update of the cache.
The retry finds its byte in the cache and reports success, but the store
has never seen the byte. -/
theorem a_retry_reports_success_without_its_data :
    ¬ ∀ (c : Config) (calls : List (Call c)), Along (callStep c) (Durable c) (boot c) calls := by
  intro h
  have hrun := h wordConfig [⟨0, [7], [.refused fun _ => 0], by decide⟩, ⟨0, [7], [], by decide⟩]
  revert hrun
  decide +kernel

theorem callStep_refused_unlock {left : Nat → UInt8} (hs : s.unlocked = false)
    (hk : k.answers = [.refused left]) :
    (callStep c s k).store = s.store ∧ (callStep c s k).write_address = s.write_address := by
  unfold callStep Call.run Call.start wear_leveling_write
  split_ifs
  · exact ⟨rfl, rfl⟩
  · exact ⟨rfl, rfl⟩
  · simp [wear_leveling_unlock, wear_leveling_lock, backing_store_unlock, backing_store_call,
      State.update, State.log, hs, hk]

/-- After a refused unlock, a write of other bytes is ready again. -/
theorem a_reported_success_is_durable_small :
    Along (callStep wordConfig) (Durable wordConfig) (boot wordConfig)
      [⟨1, [1, 2, 3], [], by decide⟩, ⟨8, [7], [.refused fun _ => 0], by decide⟩,
        ⟨2, [5, 6], [], by decide⟩] := by
  have h0 := refines_boot wordConfig
  have h1 := refines_callStep h0 (k := ⟨1, [1, 2, 3], [], by decide⟩) rfl
  obtain ⟨hstore, haddress⟩ := callStep_refused_unlock (c := wordConfig)
    (s := callStep wordConfig (boot wordConfig) ⟨1, [1, 2, 3], [], by decide⟩)
    (k := ⟨8, [7], [.refused fun _ => 0], by decide⟩) (by decide +kernel) rfl
  apply a_reported_success_is_durable
  refine ⟨ready_of_refines h0 _, ready_of_refines h1 _, ?_, trivial⟩
  obtain ⟨E, hE, -⟩ := h1.synced
  rw [Ready, if_neg (by decide +kernel), Whole, hstore, haddress]
  exact ⟨hE.no_wrap, .inl ⟨E, hE.log, hE.stop, fun i hi => hE.erased i (by omega)⟩⟩

end keychron_qmk.wear_leveling
