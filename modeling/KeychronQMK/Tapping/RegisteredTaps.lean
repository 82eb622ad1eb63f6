-- The keys that Chordal Hold and Flow Tap settled as tapped ahead of their
-- release. The array of them is in step with the calls while the release of such
-- a key is handed over as soon as `process_tapping` sees it, and while no loop over
-- the buffer hands it over without looking at the array.
import KeychronQMK.Tapping.Conservation

namespace keychron_qmk.action_tapping

open runs swap_remove
open action_layer (keypos_t)

/-! ## What the calls say -/

/-- One call changes whether the key was settled as tapped early, and its release was not
handed over since. -/
def Call.awaits (key : keypos_t) (awaited : Bool) : Call → Bool
  | .process_record record _ early =>
    if record.event.key = key then early || (record.event.pressed && awaited) else awaited
  | .process_record_tap_hint _ | .clear_keyboard => awaited

/-- The key was settled as tapped by Chordal Hold or Flow Tap, and its release was not
handed over since. -/
def awaiting (calls : List Call) (key : keypos_t) : Bool := calls.foldl (Call.awaits key) false

def TapReleases (calls : List Call) : Prop :=
  ∀ pre post record tapping_key early,
    calls = pre ++ .process_record record tapping_key early :: post →
    record.event.pressed = false → awaiting pre record.event.key = true → record.tap.count = 1

theorem awaiting_concat (calls : List Call) (call : Call) (key : keypos_t) :
    awaiting (calls ++ [call]) key = call.awaits key (awaiting calls key) := by
  simp [awaiting]

theorem tapReleases_concat {calls : List Call} {call : Call} (h : TapReleases calls)
    (hc : ∀ record tapping_key early, call = .process_record record tapping_key early →
      record.event.pressed = false → awaiting calls record.event.key = true →
      record.tap.count = 1) : TapReleases (calls ++ [call]) := by
  intro pre post record tapping_key early hsplit hp hawait
  rcases List.eq_nil_or_concat post with rfl | ⟨post', last, rfl⟩
  · obtain ⟨rfl, hcall⟩ := List.append_inj' hsplit rfl
    exact hc record tapping_key early (by simpa using hcall) hp hawait
  · have hsplit : calls ++ [call] =
        (pre ++ .process_record record tapping_key early :: post') ++ [last] := by
      rw [hsplit]
      simp
    exact h pre post' record tapping_key early (List.append_inj' hsplit rfl).1 hp hawait

structure InStep (s : Tapping) : Prop where
  nodup : s.registered_taps.Nodup
  mem : ∀ key, key ∈ s.registered_taps ↔ awaiting s.calls key = true
  releases : TapReleases s.calls

def TappingKeyFree (s : Tapping) : Prop :=
  IS_EVENT s.tapping_key.event = true → s.tapping_key.event.pressed = true →
    s.tapping_key.tap.count ≠ 1 → s.tapping_key.event.key ∉ s.registered_taps

section

variable (cfg : Config)

/-! ## The condition -/

def registers_cleanly (key : keypos_t) (s : Tapping) : Bool :=
  key ∉ s.registered_taps && s.registered_taps.length < REGISTERED_TAPS_SIZE

def hands_cleanly (record : keyrecord_t) (s : Tapping) : Bool :=
  record.event.pressed || record.event.key ∉ s.registered_taps

def follows_cleanly : List keyrecord_t → UInt16 → Tapping → Bool
  | [], _, _ => true
  | record :: rest, prev_time, s =>
    if !record.event.pressed then true
    else if !is_tap_record cfg record s then
      follows_cleanly rest record.event.time (popTail (process_record cfg record s))
    else if flow_tap_key_within cfg record prev_time s then
      registers_cleanly record.event.key s &&
        follows_cleanly rest record.event.time (popTail (process_early_tap cfg record s))
    else true

def until_cleanly (key : keypos_t) : List keyrecord_t → Tapping → Bool
  | [], _ => true
  | record :: rest, s =>
    let early := record.event.pressed && is_tap_record cfg record s
    (if early then registers_cleanly record.event.key s else hands_cleanly record s) &&
      ((key = record.event.key && record.event.pressed) ||
        until_cleanly key rest (popTail
          (if early then process_early_tap cfg record s else process_record cfg record s)))

def held_cleanly : List keyrecord_t → Tapping → Bool
  | [], _ => true
  | record :: rest, s =>
    hands_cleanly record s && held_cleanly rest (popTail (process_record cfg record s))

def regular_cleanly : List keyrecord_t → Tapping → Bool
  | [], _ => true
  | record :: rest, s =>
    is_tap_record cfg record s ||
      (hands_cleanly record s && regular_cleanly rest (popTail (process_record cfg record s)))

def next_key_cleanly (s : Tapping) : Bool :=
  match s.waiting_buffer with
  | record :: _ => !is_tap_record cfg record s ||
      (record.event.pressed && record.event.key ∉ s.registered_taps)
  | [] => true

def interrupted_cleanly (record : keyrecord_t) (s : Tapping) : Bool :=
  if chord_is_tap cfg record s then
    is_tap_record cfg record s || registers_cleanly s.tapping_key.event.key s
  else if cfg.HOLD_ON_OTHER_KEY_PRESS && cfg.CHORDAL_HOLD then
    let s := process_tapping_key cfg s
    next_key_cleanly cfg s &&
      (let s := next_tapping_key cfg s
      regular_cleanly cfg s.waiting_buffer s)
  else true

def unsettled_cleanly (keyp : Slot) (s : Tapping) : Bool :=
  let record := s.read keyp
  let event := record.event
  if IS_TAPPING_RECORD record s && !event.pressed then
    let s := count_first_tap cfg keyp s
    !cfg.FLOW_TAP_TERM || follows_cleanly cfg s.waiting_buffer s.tapping_key.event.time s
  else if !event.pressed && waiting_buffer_typed event s && chord_is_tap cfg record s then
    registers_cleanly s.tapping_key.event.key s &&
      (let s := chord_considered_tap cfg s
      until_cleanly cfg event.key s.waiting_buffer s)
  else if !event.pressed && waiting_buffer_typed event s && cfg.PERMISSIVE_HOLD then
    let s := process_tapping_key cfg s
    !cfg.CHORDAL_HOLD || (held_cleanly cfg (chordal_holds cfg s) s &&
      (let s := process_held cfg (chordal_holds cfg s) s
      until_cleanly cfg event.key s.waiting_buffer s))
  else !event.pressed ||
    interrupted_cleanly cfg record { s with tapping_key := s.tapping_key.setInterrupted true }

def flow_cleanly (record : keyrecord_t) (s : Tapping) : Bool :=
  !(cfg.FLOW_TAP_TERM && record.event.pressed && is_tap_record cfg record s &&
    flow_tap_key_within cfg record s.flow_tap_prev_time s) || registers_cleanly record.event.key s

def hands_release (keyp : Slot) (s : Tapping) : Bool :=
  let record := s.read keyp
  let event := record.event
  IS_EVENT event && !event.pressed &&
    (IS_NOEVENT s.tapping_key.event ||
      (if s.tapping_key.event.pressed then
        s.tapping_key.tap.count ≠ 0 ||
          (WITHIN_TAPPING_TERM cfg event s && !IS_TAPPING_RECORD record s &&
            !waiting_buffer_typed event s &&
            !is_retained (cfg.layer_switch_get_action s.calls event.key) (record.setCount 1))
      else WITHIN_TAPPING_TERM cfg event s))

/-- The call of `process_tapping` is clean: the release of a registered key is handed over, a
registered key is not pressed again, and what is settled early is registered cleanly. -/
def turn_cleanly (keyp : Slot) (s : Tapping) : Bool :=
  let record := s.read keyp
  if record.event.key ∈ s.registered_taps then hands_release cfg keyp s
  else if IS_NOEVENT record.event then true
  else if IS_NOEVENT s.tapping_key.event then flow_cleanly cfg record s
  else if !WITHIN_TAPPING_TERM cfg record.event s then true
  else if s.tapping_key.event.pressed then
    s.tapping_key.tap.count ≠ 0 || unsettled_cleanly cfg keyp s
  else IS_TAPPING_RECORD record s || flow_cleanly cfg record s

/-- The calls of `process_tapping` that the loop over the buffer makes, with the states before. -/
def waiting_turns : Nat → Tapping → List (Slot × Tapping)
  | 0, _ => []
  | turns + 1, s =>
    if s.waiting_buffer = [] then []
    else (.tail, s) :: match process_tapping cfg .tail s with
      | (true, s) => waiting_turns turns (popTail s)
      | (false, _) => []

def turns (s : Tapping) (event : keyevent_t) : List (Slot × Tapping) :=
  let s' := process_arrival cfg (.ofEvent event) s
  (.record, s.given event) :: waiting_turns cfg s'.waiting_buffer.length s'

def Clean (s : Tapping) (event : keyevent_t) : Prop :=
  ∀ turn ∈ turns cfg s event, turn_cleanly cfg turn.1 turn.2 = true

instance (s : Tapping) (event : keyevent_t) : Decidable (Clean cfg s event) :=
  inferInstanceAs (Decidable (∀ turn ∈ turns cfg s event, _))

end

section

variable {cfg : Config} {s s' : Tapping} {record : keyrecord_t} {keyp : Slot}

/-! ## What a call leaves -/

@[simp] theorem flow_update_registered_taps :
    (flow_tap_update_last_event cfg record s).registered_taps = s.registered_taps := by
  unfold flow_tap_update_last_event
  dsimp only
  split
  · rfl
  · split <;> rfl

@[simp] theorem flow_update_tapping_key :
    (flow_tap_update_last_event cfg record s).tapping_key = s.tapping_key := by
  unfold flow_tap_update_last_event
  dsimp only
  split
  · rfl
  · split <;> rfl

@[simp] theorem flow_update_calls :
    (flow_tap_update_last_event cfg record s).calls = s.calls := by
  unfold flow_tap_update_last_event
  dsimp only
  split
  · rfl
  · split <;> rfl

@[simp] theorem process_record_as_registered_taps (early : Bool) :
    (process_record_as cfg early record s).registered_taps = s.registered_taps := by
  unfold process_record_as
  split
  · rfl
  · split <;> simp

@[simp] theorem process_record_as_tapping_key (early : Bool) :
    (process_record_as cfg early record s).tapping_key = s.tapping_key := by
  unfold process_record_as
  split
  · rfl
  · split <;> simp

theorem process_record_as_calls (early : Bool) (he : IS_EVENT record.event = true) :
    (process_record_as cfg early record s).calls =
      s.calls ++ [.process_record record s.tapping_key early] := by
  unfold process_record_as
  simp only [isEvent_iff.mp he, Bool.false_eq_true, if_false]
  split <;> simp

@[simp] theorem process_record_registered_taps :
    (process_record cfg record s).registered_taps = s.registered_taps :=
  process_record_as_registered_taps false

@[simp] theorem process_record_tapping_key :
    (process_record cfg record s).tapping_key = s.tapping_key :=
  process_record_as_tapping_key false

@[simp] theorem process_early_tap_tapping_key :
    (process_early_tap cfg record s).tapping_key = s.tapping_key := by
  unfold process_early_tap registered_taps_add
  rw [process_record_as_tapping_key]
  split <;> rfl

theorem InStep.of_eq (h : InStep s) (hr : s'.registered_taps = s.registered_taps)
    (hc : s'.calls = s.calls) : InStep s' :=
  ⟨hr ▸ h.nodup, by rw [hr, hc]; exact h.mem, hc ▸ h.releases⟩

theorem InStep.popTail (h : InStep s) : InStep (action_tapping.popTail s) := h.of_eq rfl rfl

theorem InStep.awaiting_false (h : InStep s) {key : keypos_t} (hk : key ∉ s.registered_taps) :
    awaiting s.calls key = false := by
  simpa [h.mem] using hk

theorem InStep.hand (h : InStep s) (hc : hands_cleanly record s = true) :
    InStep (process_record cfg record s) := by
  rcases he : IS_NOEVENT record.event with _ | _
  swap
  · simpa [process_record, process_record_as, he] using h
  have hcalls : (process_record cfg record s).calls = _ :=
    process_record_as_calls false (isEvent_iff.mpr he)
  simp only [hands_cleanly, Bool.or_eq_true, decide_eq_true_eq] at hc
  have hkept : ∀ key, awaiting (process_record cfg record s).calls key = awaiting s.calls key := by
    intro key
    rw [hcalls, awaiting_concat, Call.awaits]
    split
    · rename_i hkey
      subst hkey
      rcases hc with hp | hfree
      · simp [hp]
      · simp [h.awaiting_false hfree]
    · rfl
  refine ⟨by simpa using h.nodup, fun key => ?_, ?_⟩
  · rw [hkept key, process_record_registered_taps]
    exact h.mem key
  · rw [hcalls]
    refine tapReleases_concat h.releases ?_
    rintro r t early ⟨⟩ hp hawait
    rcases hc with hp' | hfree
    · simp [hp] at hp'
    · simp [h.awaiting_false hfree] at hawait

/-- A key that is settled as tapped early. -/
theorem InStep.early (h : InStep s) (he : IS_EVENT record.event = true)
    (hp : record.event.pressed = true) (hc : registers_cleanly record.event.key s = true) :
    InStep (process_early_tap cfg record s) := by
  simp only [registers_cleanly, Bool.and_eq_true, decide_eq_true_eq] at hc
  obtain ⟨hfree, hroom⟩ := hc
  have hadd : registered_taps_add record.event.key s =
      { s with registered_taps := s.registered_taps ++ [record.event.key] } := by
    simp [registered_taps_add, Nat.not_le.mpr hroom]
  have hcalls : (process_early_tap cfg record s).calls =
      s.calls ++ [.process_record (record.setCount 1) s.tapping_key true] := by
    unfold process_early_tap
    rw [process_record_as_calls true (by exact he), hadd]
  have hregistered : (process_early_tap cfg record s).registered_taps =
      s.registered_taps ++ [record.event.key] := by
    unfold process_early_tap
    rw [process_record_as_registered_taps, hadd]
  refine ⟨?_, fun key => ?_, ?_⟩
  · rw [hregistered, List.nodup_append]
    refine ⟨h.nodup, List.nodup_singleton _, fun a ha b hb hab => hfree ?_⟩
    rw [← List.mem_singleton.mp hb, ← hab]
    exact ha
  · rw [hregistered, hcalls, awaiting_concat, Call.awaits, List.mem_append, List.mem_singleton,
      h.mem]
    by_cases hkey : record.event.key = key
    · simp [keyrecord_t.setCount, hkey]
    · simp [keyrecord_t.setCount, hkey, Ne.symm hkey]
  · rw [hcalls]
    refine tapReleases_concat h.releases ?_
    rintro r t early ⟨⟩ hp' -
    rw [keyrecord_t.setCount] at hp'
    simp [hp] at hp'

/-! ## The loops over the buffer -/

theorem until_inStep {key : keypos_t} (buffer : List keyrecord_t) (h : InStep s)
    (hc : until_cleanly cfg key buffer s = true) :
    InStep (waiting_buffer_chordal_hold_taps_until cfg key buffer s) ∧
      (waiting_buffer_chordal_hold_taps_until cfg key buffer s).tapping_key = s.tapping_key := by
  induction buffer generalizing s with
  | nil => exact ⟨h, rfl⟩
  | cons record rest ih =>
    unfold waiting_buffer_chordal_hold_taps_until
    unfold until_cleanly at hc
    rcases hearly : record.event.pressed && is_tap_record cfg record s with _ | _
    · simp only [hearly, Bool.false_eq_true, if_false] at hc ⊢
      obtain ⟨hhand, hrest⟩ := (Bool.and_eq_true ..).mp hc
      have hrest := (Bool.or_eq_true ..).mp hrest
      have hnext : InStep (popTail (process_record cfg record s)) := (h.hand hhand).popTail
      split
      · exact ⟨hnext, process_record_tapping_key⟩
      · rename_i hstop
        obtain ⟨hin, hkey⟩ := ih hnext (hrest.resolve_left (by simpa using hstop))
        exact ⟨hin, hkey.trans process_record_tapping_key⟩
    · simp only [hearly, if_true] at hc ⊢
      obtain ⟨hhand, hrest⟩ := (Bool.and_eq_true ..).mp hc
      have hrest := (Bool.or_eq_true ..).mp hrest
      simp only [Bool.and_eq_true, is_tap_record, Bool.not_eq_true'] at hearly
      have hnext : InStep (popTail (process_early_tap cfg record s)) :=
        (h.early (isEvent_iff.mpr hearly.2.1) hearly.1 hhand).popTail
      split
      · exact ⟨hnext, process_early_tap_tapping_key⟩
      · rename_i hstop
        obtain ⟨hin, hkey⟩ := ih hnext (hrest.resolve_left (by simpa using hstop))
        exact ⟨hin, hkey.trans process_early_tap_tapping_key⟩

theorem following_inStep (buffer : List keyrecord_t) {prev_time : UInt16} (h : InStep s)
    (hc : follows_cleanly cfg buffer prev_time s = true) :
    InStep (flow_tap_following cfg buffer prev_time s) ∧
      (flow_tap_following cfg buffer prev_time s).tapping_key = s.tapping_key := by
  induction buffer generalizing s prev_time with
  | nil => exact ⟨h, rfl⟩
  | cons record rest ih =>
    unfold follows_cleanly at hc
    unfold flow_tap_following
    split
    · exact ⟨h, rfl⟩
    rename_i hp
    rw [if_neg hp] at hc
    have hp : record.event.pressed = true := by simpa using hp
    split
    · rename_i htap
      rw [if_pos htap] at hc
      obtain ⟨hin, hkey⟩ := ih (h.hand (by simp [hands_cleanly, hp])).popTail hc
      exact ⟨hin, hkey.trans process_record_tapping_key⟩
    rename_i htap
    rw [if_neg htap] at hc
    have he : IS_EVENT record.event = true := by
      simp only [is_tap_record, Bool.not_eq_true', Bool.not_eq_false, Bool.and_eq_true] at htap
      exact isEvent_iff.mpr htap.1
    unfold flow_tap_key_if_within_term
    by_cases hwithin : flow_tap_key_within cfg record prev_time s = true
    · simp only [hwithin, if_true, Bool.and_eq_true] at hc ⊢
      obtain ⟨hin, hkey⟩ := ih (h.early he hp hc.1).popTail hc.2
      exact ⟨hin, hkey.trans process_early_tap_tapping_key⟩
    · rw [if_neg hwithin]
      exact ⟨h, rfl⟩

theorem held_inStep (buffer : List keyrecord_t) (h : InStep s)
    (hc : held_cleanly cfg buffer s = true) :
    InStep (process_held cfg buffer s) ∧
      (process_held cfg buffer s).tapping_key = s.tapping_key := by
  induction buffer generalizing s with
  | nil => exact ⟨h, rfl⟩
  | cons record rest ih =>
    simp only [held_cleanly, Bool.and_eq_true] at hc
    obtain ⟨hin, hkey⟩ := ih (h.hand hc.1).popTail hc.2
    exact ⟨hin, hkey.trans process_record_tapping_key⟩

theorem regular_inStep (buffer : List keyrecord_t) (h : InStep s)
    (hc : regular_cleanly cfg buffer s = true) :
    let s' := waiting_buffer_process_regular cfg buffer s
    InStep s' ∧ s'.tapping_key = s.tapping_key ∧ s'.registered_taps = s.registered_taps := by
  induction buffer generalizing s with
  | nil => exact ⟨h, rfl, rfl⟩
  | cons record rest ih =>
    simp only [regular_cleanly, Bool.or_eq_true, Bool.and_eq_true] at hc
    unfold waiting_buffer_process_regular
    split
    · exact ⟨h, rfl, rfl⟩
    · rename_i htap
      obtain ⟨hhand, hrest⟩ := hc.resolve_left htap
      obtain ⟨hin, hkey, hregistered⟩ := ih (h.hand hhand).popTail hrest
      exact ⟨hin, hkey.trans process_record_tapping_key,
        hregistered.trans process_record_registered_taps⟩

/-! ## Steady states -/

/-- The array is in step with the calls, and does not have the tapping key. -/
structure Steady (s : Tapping) : Prop where
  inStep : InStep s
  free : TappingKeyFree s

theorem free_of_none (h : IS_NOEVENT s.tapping_key.event = true) : TappingKeyFree s := by
  intro he
  simp [isEvent_iff, h] at he

theorem free_of_released (h : s.tapping_key.event.pressed = false) : TappingKeyFree s := by
  intro _ hp
  simp [h] at hp

theorem free_of_tapped (h : s.tapping_key.tap.count = 1) : TappingKeyFree s :=
  fun _ _ hc => absurd h hc

theorem free_of_key (h : s.tapping_key.event.key ∉ s.registered_taps) : TappingKeyFree s :=
  fun _ _ _ => h

theorem TappingKeyFree.of_eq (h : TappingKeyFree s) (hk : s'.tapping_key = s.tapping_key)
    (hr : s'.registered_taps = s.registered_taps) : TappingKeyFree s' := by
  simpa [TappingKeyFree, hk, hr] using h

theorem Steady.hand (h : Steady s) (hc : hands_cleanly record s = true) :
    Steady (process_record cfg record s) :=
  ⟨h.inStep.hand hc, h.free.of_eq process_record_tapping_key process_record_registered_taps⟩

theorem hands_press (hp : record.event.pressed = true) : hands_cleanly record s = true := by
  simp [hands_cleanly, hp]

theorem InStep.call (h : InStep s) {call : Call} (hr : s'.registered_taps = s.registered_taps)
    (hc : s'.calls = s.calls ++ [call])
    (hn : ∀ record tapping_key early, call ≠ .process_record record tapping_key early) :
    InStep s' := by
  refine ⟨hr ▸ h.nodup, fun key => ?_, ?_⟩
  · rw [hr, hc, awaiting_concat, h.mem]
    cases call with
    | process_record record tapping_key early => exact absurd rfl (hn record tapping_key early)
    | process_record_tap_hint => rfl
    | clear_keyboard => rfl
  · rw [hc]
    exact tapReleases_concat h.releases fun record tapping_key early heq =>
      absurd heq (hn record tapping_key early)

theorem Steady.scan (h : Steady s) : Steady (waiting_buffer_scan_tap cfg s) := by
  unfold waiting_buffer_scan_tap
  split
  · exact h
  rename_i hguard
  have hp : s.tapping_key.event.pressed = true := by
    simp only [Bool.or_eq_true, Bool.not_eq_true', not_or, Bool.not_eq_false] at hguard
    exact hguard.2
  split
  · exact h
  · refine ⟨InStep.hand (h.inStep.of_eq rfl rfl) (hands_press hp), free_of_tapped ?_⟩
    rw [process_tapping_key, process_record_tapping_key]
    rfl

theorem Steady.start (h : InStep s) (hr : s'.registered_taps = s.registered_taps)
    (hc : s'.calls = s.calls) (hfree : s'.tapping_key.event.key ∉ s.registered_taps) :
    Steady (waiting_buffer_scan_tap cfg s') :=
  Steady.scan ⟨h.of_eq hr hc, free_of_key (hr ▸ hfree)⟩

theorem Steady.reset (h : InStep s) : Steady (action_tapping.reset s) :=
  ⟨h.of_eq rfl rfl, free_of_none rfl⟩

/-! ## The branches -/

theorem none_steady (h : Steady s) (hn : IS_NOEVENT s.tapping_key.event = true)
    (hfree : (s.read keyp).event.key ∉ s.registered_taps)
    (hc : IS_NOEVENT (s.read keyp).event = true ∨ flow_cleanly cfg (s.read keyp) s = true) :
    Steady (process_none cfg keyp s) := by
  unfold process_none
  dsimp only
  split
  · exact h
  rename_i he
  have hc := hc.resolve_left he
  split
  · rename_i hp
    simp only [Bool.and_eq_true] at hp
    split
    · rename_i hwithin
      simp only [Bool.and_eq_true] at hwithin
      have hroom : registers_cleanly (s.read keyp).event.key s = true := by
        simpa [flow_cleanly, hp.1, hp.2, hwithin.1, hwithin.2] using hc
      simp only [flow_tap_key_if_within_term, hwithin.2, if_true]
      refine ⟨h.inStep.early (isEvent_iff.mpr (Bool.eq_false_iff.mpr he)) hp.1 hroom,
        free_of_none ?_⟩
      rw [process_early_tap_tapping_key]
      exact hn
    · refine Steady.scan ⟨?_, ?_⟩ <;> unfold process_record_tap_hint
      · split
        · exact h.inStep.call rfl rfl (by simp)
        · exact h.inStep.of_eq rfl rfl
      · split <;> exact free_of_key hfree
  · exact h.hand (by simp [hands_cleanly, hfree])

theorem write_registered_taps (r : keyrecord_t) :
    (s.write r keyp).registered_taps = s.registered_taps := by
  cases keyp <;> rfl

theorem InStep.write (h : InStep s) (r : keyrecord_t) (keyp : Slot) : InStep (s.write r keyp) :=
  h.of_eq (write_registered_taps r) (write_calls r)

theorem count_first_tap_inStep (h : InStep s) (hp : s.tapping_key.event.pressed = true) :
    InStep (count_first_tap cfg keyp s) ∧
      (count_first_tap cfg keyp s).tapping_key.tap.count = 1 := by
  unfold count_first_tap process_tapping_key
  refine ⟨InStep.write ?_ _ keyp, ?_⟩
  · exact InStep.hand (h.of_eq rfl rfl) (hands_press hp)
  rw [write_tapping_key, process_record_tapping_key]
  rfl

theorem chord_tap_inStep (h : InStep s) (he : IS_EVENT s.tapping_key.event = true)
    (hp : s.tapping_key.event.pressed = true)
    (hc : registers_cleanly s.tapping_key.event.key s = true) :
    Steady (chord_considered_tap cfg s) :=
  Steady.reset (InStep.early (h.of_eq rfl rfl) he hp hc)

theorem first_tap_steady (h : InStep s) (hp : s.tapping_key.event.pressed = true)
    (hc : (!cfg.FLOW_TAP_TERM || follows_cleanly cfg (count_first_tap cfg keyp s).waiting_buffer
      (count_first_tap cfg keyp s).tapping_key.event.time (count_first_tap cfg keyp s)) = true) :
    Steady (first_tap cfg keyp s) := by
  obtain ⟨hin, hcount⟩ : InStep (count_first_tap cfg keyp s) ∧ _ := count_first_tap_inStep h hp
  unfold first_tap
  split
  · rename_i hflow
    obtain ⟨hin', hkey⟩ := following_inStep _ hin (by simpa [hflow] using hc)
    exact ⟨hin', free_of_tapped (by rw [hkey, hcount])⟩
  · exact ⟨hin, free_of_tapped hcount⟩

theorem typing_steady (key : keypos_t) (h : InStep s) (hp : s.tapping_key.event.pressed = true)
    (hc : (!cfg.CHORDAL_HOLD ||
      (held_cleanly cfg (chordal_holds cfg (process_tapping_key cfg s)) (process_tapping_key cfg s) &&
        (let s' := process_held cfg (chordal_holds cfg (process_tapping_key cfg s))
          (process_tapping_key cfg s)
        until_cleanly cfg key s'.waiting_buffer s'))) = true) :
    Steady (interfered_by_typing cfg key s) := by
  have hheld : InStep (process_tapping_key cfg s) := h.hand (hands_press hp)
  unfold interfered_by_typing
  split
  · rename_i hchordal
    simp only [hchordal, Bool.not_true, Bool.false_or, Bool.and_eq_true] at hc
    obtain ⟨hin, -⟩ := held_inStep _ hheld hc.1
    exact Steady.reset (until_inStep _ hin hc.2).1
  · exact Steady.reset hheld

theorem next_key_steady (h : InStep s) (hc : next_key_cleanly cfg s = true) :
    Steady (next_tapping_key cfg s) := by
  unfold next_tapping_key
  unfold next_key_cleanly at hc
  split
  · rename_i record rest hb
    rw [hb] at hc
    split
    · rename_i htap
      simp only [htap, Bool.not_true, Bool.false_or, Bool.and_eq_true, decide_eq_true_eq] at hc
      exact ⟨h.of_eq rfl rfl, free_of_key hc.2⟩
    · exact Steady.reset h
  · exact Steady.reset h

theorem press_steady (h : InStep s) (hp : s.tapping_key.event.pressed = true)
    (hc : cfg.CHORDAL_HOLD = true → next_key_cleanly cfg (process_tapping_key cfg s) = true ∧
      regular_cleanly cfg (next_tapping_key cfg (process_tapping_key cfg s)).waiting_buffer
        (next_tapping_key cfg (process_tapping_key cfg s)) = true) :
    Steady (interfered_by_press cfg s) := by
  have hheld : InStep (process_tapping_key cfg s) := h.hand (hands_press hp)
  unfold interfered_by_press
  split
  · rename_i hchordal
    obtain ⟨hnext, hregular⟩ := hc hchordal
    have hsteady := next_key_steady hheld hnext
    obtain ⟨hin, hkey, hregistered⟩ := regular_inStep _ hsteady.inStep hregular
    exact ⟨hin, hsteady.free.of_eq hkey hregistered⟩
  · exact Steady.reset hheld

theorem steady_ite {c : Prop} [Decidable c] {a b : Bool × Tapping} (ha : c → Steady a.2)
    (hb : ¬ c → Steady b.2) : Steady (if c then a else b).2 := by
  split
  · exact ha ‹_›
  · exact hb ‹_›

theorem settle_interrupted_steady (h : Steady s) (hu : s.unsettled = true)
    (hc : interrupted_cleanly cfg record s = true) : Steady (settle_interrupted cfg record s) := by
  obtain ⟨he, hp, -⟩ := of_unsettled hu
  unfold settle_interrupted
  unfold interrupted_cleanly at hc
  split
  · rename_i hchord
    rw [if_pos hchord] at hc
    dsimp only
    split
    · rename_i hplain
      have hplain : (!is_tap_record cfg record s) = true := hplain
      rw [Bool.not_eq_true'] at hplain
      rw [hplain, Bool.false_or] at hc
      have hroom : registers_cleanly s.tapping_key.event.key
          { s with tapping_key := s.tapping_key.setInterrupted false } = true := hc
      exact chord_tap_inStep (h.inStep.of_eq rfl rfl) he hp hroom
    · exact ⟨h.inStep.of_eq rfl rfl, h.free⟩
  rename_i hchord
  rw [if_neg hchord] at hc
  split
  · rename_i hhold
    refine press_steady h.inStep hp fun hchordal => ?_
    rw [if_pos (by simp [hhold, hchordal]), Bool.and_eq_true] at hc
    exact hc
  · exact h

theorem unsettled_steady (h : Steady s) (hu : s.unsettled = true)
    (hfree : (s.read keyp).event.key ∉ s.registered_taps)
    (hc : unsettled_cleanly cfg keyp s = true) : Steady (process_unsettled cfg keyp s).2 := by
  obtain ⟨he, hp, -⟩ := of_unsettled hu
  unfold unsettled_cleanly at hc
  refine steady_ite (fun htap => ?_) fun htap => steady_ite (fun hchord => ?_) fun hchord =>
    steady_ite (fun hperm => ?_) fun hperm => ?_
  · rw [if_pos htap] at hc
    exact first_tap_steady h.inStep hp hc
  · rw [if_neg htap, if_pos hchord, Bool.and_eq_true] at hc
    have htapped : Steady (chord_considered_tap cfg s) := chord_tap_inStep h.inStep he hp hc.1
    obtain ⟨hin, hkey⟩ := until_inStep _ htapped.inStep hc.2
    exact ⟨hin, free_of_none (by rw [hkey]; rfl)⟩
  · rw [if_neg htap, if_neg hchord, if_pos hperm] at hc
    exact typing_steady _ h.inStep hp hc
  · rw [if_neg htap, if_neg hchord, if_neg hperm] at hc
    refine steady_ite (fun _ => steady_ite (fun _ => h) fun _ => ?_) fun _ => ?_
    · exact h.hand (by simp [hands_cleanly, hfree])
    · dsimp only
      split
      · rename_i hpressed
        rw [hpressed, Bool.not_true, Bool.false_or] at hc
        have hwaits : Steady { s with tapping_key := s.tapping_key.setInterrupted true } :=
          ⟨h.inStep.of_eq rfl rfl, h.free⟩
        exact settle_interrupted_steady hwaits hu hc
      · exact h

theorem settled_steady (after_term : Bool) (h : Steady s)
    (he : IS_EVENT s.tapping_key.event = true) (hp : s.tapping_key.event.pressed = true)
    (hfree : (s.read keyp).event.key ∉ s.registered_taps) :
    Steady (process_settled cfg after_term keyp s) := by
  have hhand : ∀ record : keyrecord_t, record.event = (s.read keyp).event →
      hands_cleanly record s = true := by
    intro record hr
    simp [hands_cleanly, hr, hfree]
  unfold process_settled
  dsimp only
  split
  · rename_i htap
    simp only [Bool.and_eq_true, Bool.not_eq_true'] at htap
    have hin : InStep (process_record cfg { s.read keyp with tap := s.tapping_key.tap } s) :=
      h.inStep.hand (hhand _ rfl)
    split
    · exact Steady.reset hin
    · exact ⟨hin.of_eq rfl rfl, free_of_released htap.2⟩
  split
  · rename_i htap
    split
    · -- the tapping key was tapped more than once, so it is not registered
      have hkey : s.tapping_key.event.key ∉ s.registered_taps := h.free he hp (by omega)
      have hin : InStep (process_record cfg
          (multi_tap_release (s.read keyp).event.time s.tapping_key) s) :=
        h.inStep.hand (by simp [hands_cleanly, multi_tap_release, hkey])
      exact Steady.start hin rfl rfl (by simpa using hfree)
    · exact Steady.start h.inStep rfl rfl hfree
  · exact h.hand (hhand _ rfl)

theorem released_steady (h : Steady s) (he : IS_EVENT (s.read keyp).event = true)
    (hp : s.tapping_key.event.pressed = false)
    (hfree : (s.read keyp).event.key ∉ s.registered_taps)
    (hc : IS_TAPPING_RECORD (s.read keyp) s = true ∨ flow_cleanly cfg (s.read keyp) s = true) :
    Steady (process_released cfg keyp s) := by
  have hhand : ∀ (s' : Tapping) (record : keyrecord_t), s'.registered_taps = s.registered_taps →
      record.event = (s.read keyp).event → hands_cleanly record s' = true := by
    intro s' record hs hr
    simp [hands_cleanly, hs, hr, hfree]
  have hsequential : ∀ record : keyrecord_t, record.event = (s.read keyp).event →
      Steady { process_record cfg record s with tapping_key := record } := by
    intro record hr
    refine ⟨(h.inStep.hand (hhand s record rfl hr)).of_eq rfl rfl, free_of_key ?_⟩
    simpa [hr] using hfree
  unfold process_released
  dsimp only
  split
  swap
  · exact h.hand (hhand s _ rfl rfl)
  rename_i hpressed
  split
  · split
    · exact hsequential _ rfl
    · exact ⟨h.inStep.of_eq rfl rfl, free_of_key hfree⟩
  rename_i hother
  have hc := hc.resolve_left hother
  split
  · rename_i htap
    split
    · rename_i hflow
      simp only [Bool.and_eq_true] at hflow
      have hroom : registers_cleanly (s.read keyp).event.key s = true := by
        simpa [flow_cleanly, hpressed, htap, hflow.1, hflow.2] using hc
      simp only [flow_tap_key_if_within_term, hflow.2, if_true]
      exact Steady.reset (h.inStep.early he hpressed hroom)
    · exact Steady.start h.inStep rfl rfl hfree
  · refine Steady.hand ⟨h.inStep.of_eq rfl rfl, free_of_released hp⟩ (hhand _ _ rfl rfl)

/-! ## The release of a registered key -/

/-- The call hands over the release of a registered key as a tap, and takes that key, and no
other, from the array. -/
def HandsTap (keyp : Slot) (s : Tapping) (out : Bool × Tapping) : Prop :=
  out.1 = true ∧
    (∃ record, out.2.calls = s.calls ++ [.process_record record s.tapping_key false] ∧
      record.event = (s.read keyp).event ∧ record.tap.count = 1) ∧
    out.2.registered_taps.Nodup ∧
    ∀ key, key ∈ out.2.registered_taps ↔ key ∈ s.registered_taps ∧ key ≠ (s.read keyp).event.key

/-- The state after the key was taken from the array. -/
structure Taken (keyp : Slot) (s s' : Tapping) : Prop where
  tapping_key : s'.tapping_key = s.tapping_key
  calls : s'.calls = s.calls
  buffered : s'.buffered = s.buffered
  read : s'.read keyp = (s.read keyp).setCount 1
  nodup : s'.registered_taps.Nodup
  mem : ∀ key, key ∈ s'.registered_taps ↔ key ∈ s.registered_taps ∧ key ≠ (s.read keyp).event.key

theorem write_buffered {r : keyrecord_t} (hr : r.event = (s.read keyp).event) :
    (s.write r keyp).buffered = s.buffered := by
  cases keyp with
  | record => rfl
  | tail =>
    rcases hb : s.waiting_buffer with _ | ⟨first, rest⟩
    · simp [Tapping.buffered, Tapping.write, hb]
    · simp only [Tapping.read, hb, List.headD_cons] at hr
      simp [Tapping.buffered, Tapping.write, hb, hr]

theorem read_write (hk : keyp.Holds s) (r : keyrecord_t) : (s.write r keyp).read keyp = r := by
  cases keyp with
  | record => rfl
  | tail =>
    obtain ⟨first, rest, hb⟩ := List.exists_cons_of_ne_nil (hk rfl)
    simp [Tapping.read, Tapping.write, hb]

theorem taken (hf : (cfg.CHORDAL_HOLD || cfg.FLOW_TAP_TERM) = true) (h : InStep s)
    (hk : keyp.Holds s) (hp : (s.read keyp).event.pressed = false)
    (hmem : (s.read keyp).event.key ∈ s.registered_taps) :
    Taken keyp s (take_registered_tap cfg keyp s) := by
  obtain ⟨i, hi⟩ : ∃ i, registered_tap_find (s.read keyp).event.key s = some i := by
    rw [← Option.isSome_iff_exists, registered_tap_find, List.findIdx?_isSome, List.any_eq_true]
    exact ⟨_, hmem, by simp⟩
  obtain ⟨hlt, hget, -⟩ := List.findIdx?_eq_some_iff_getElem.mp hi
  have hget : s.registered_taps[i] = (s.read keyp).event.key := by simpa using hget
  have htake : take_registered_tap cfg keyp s =
      registered_taps_del_index i (s.write ((s.read keyp).setCount 1) keyp) := by
    simp [take_registered_tap, hf, hp, hi]
  have hregistered : (take_registered_tap cfg keyp s).registered_taps =
      swapRemove s.registered_taps i := by
    rw [htake, registered_taps_del_index, write_registered_taps]
  refine ⟨?_, ?_, ?_, ?_, ?_, fun key => ?_⟩
  · rw [htake]
    exact write_tapping_key _
  · rw [htake]
    exact write_calls _
  · rw [htake]
    exact write_buffered rfl
  · have hread := read_write hk ((s.read keyp).setCount 1)
    rw [htake]
    cases keyp <;> exact hread
  · rw [hregistered]
    exact nodup_swapRemove h.nodup
  · rw [hregistered, mem_swapRemove h.nodup hlt, hget]

theorem Taken.within (ht : Taken keyp s s') (e : keyevent_t) :
    WITHIN_TAPPING_TERM cfg e s' = WITHIN_TAPPING_TERM cfg e s := by
  simp [WITHIN_TAPPING_TERM, ht.tapping_key]

theorem typed_eq (e : keyevent_t) (s : Tapping) : waiting_buffer_typed e s =
    s.buffered.any fun d => e.key = d.key && e.pressed ≠ d.pressed := by
  simp [waiting_buffer_typed, Tapping.buffered, List.any_map, Function.comp_def]

def KeepsTappingKey (s s' : Tapping) : Prop :=
  s'.tapping_key = s.tapping_key ∨ s'.tapping_key.event.pressed = false

theorem Taken.hands {taken : Tapping} (ht : Taken keyp s taken) (record : keyrecord_t)
    (he : IS_EVENT record.event = true) (hr : record.event = (s.read keyp).event)
    (hc : record.tap.count = 1) {out : Tapping}
    (hcalls : out.calls = (process_record cfg record taken).calls)
    (hregistered : out.registered_taps = (process_record cfg record taken).registered_taps)
    (hkey : KeepsTappingKey taken out) :
    HandsTap keyp s (true, out) ∧ KeepsTappingKey s out := by
  refine ⟨⟨rfl, ⟨record, ?_, hr, hc⟩, ?_, fun key => ?_⟩, ?_⟩
  · have hrecord : (process_record cfg record taken).calls = _ := process_record_as_calls false he
    rw [hcalls, hrecord, ht.calls, ht.tapping_key]
  · simpa [hregistered] using ht.nodup
  · simpa [hregistered] using ht.mem key
  · simpa [KeepsTappingKey, ht.tapping_key] using hkey

theorem release_hands (hf : (cfg.CHORDAL_HOLD || cfg.FLOW_TAP_TERM) = true) (h : Steady s)
    (hk : keyp.Holds s) (hmem : (s.read keyp).event.key ∈ s.registered_taps)
    (hc : hands_release cfg keyp s = true) : HandsTap keyp s (process_tapping cfg keyp s) ∧
      KeepsTappingKey s (process_tapping cfg keyp s).2 := by
  simp only [hands_release, Bool.and_eq_true, Bool.not_eq_true'] at hc
  obtain ⟨⟨he, hp⟩, hc⟩ := hc
  have ht := taken hf h.inStep hk hp hmem
  unfold process_tapping
  dsimp only
  generalize take_registered_tap cfg keyp s = taken at ht ⊢
  have hn := isEvent_iff.mp he
  have hread : (taken.read keyp).event = (s.read keyp).event := by rw [ht.read]; rfl
  have hcount : (taken.read keyp).tap.count = 1 := by rw [ht.read]; rfl
  have hplain : HandsTap keyp s (true, process_record cfg (taken.read keyp) taken) ∧
      KeepsTappingKey s (process_record cfg (taken.read keyp) taken) :=
    ht.hands _ (hread ▸ he) hread hcount rfl rfl (.inl process_record_tapping_key)
  rw [ht.tapping_key, ht.within, hn]
  rcases hnone : IS_NOEVENT s.tapping_key.event with _ | _
  swap
  · simp only [if_true, process_none, hread, hn, hp, Bool.false_and, Bool.false_eq_true, if_false]
    exact hplain
  rcases hdown : s.tapping_key.event.pressed with _ | _
  · simp only [hnone, hdown, Bool.false_or, Bool.false_eq_true, if_false] at hc
    simp only [hc, if_true, if_false, Bool.false_eq_true, process_released, hread, hp]
    exact hplain
  by_cases hsettled : s.tapping_key.tap.count = 0
  · simp only [hnone, hdown, hsettled, Bool.false_or, if_true, Bool.and_eq_true,
      Bool.not_eq_true', ne_eq, not_true_eq_false, decide_false] at hc
    obtain ⟨⟨⟨hwithin, hother⟩, htyped⟩, hretained⟩ := hc
    have hother' : IS_TAPPING_RECORD (taken.read keyp) taken = false := by
      simpa [IS_TAPPING_RECORD, ht.tapping_key, hread] using hother
    have htyped' : waiting_buffer_typed (s.read keyp).event taken = false := by
      rw [typed_eq, ht.buffered, ← typed_eq]
      exact htyped
    have hretained' : is_retained (cfg.layer_switch_get_action taken.calls (s.read keyp).event.key)
        (taken.read keyp) = false := by
      rw [ht.calls, ht.read]
      exact hretained
    simp only [hwithin, hsettled, if_true, Bool.false_eq_true, if_false, process_unsettled, hread,
      hother', htyped', hretained', hp, Bool.false_and, Bool.and_false, Bool.not_false,
      Bool.and_self]
    exact hplain
  · have hprocess : ∀ after_term,
        HandsTap keyp s (true, process_settled cfg after_term keyp taken) ∧
          KeepsTappingKey s (process_settled cfg after_term keyp taken) := by
      intro after_term
      unfold process_settled
      by_cases htap : (IS_TAPPING_RECORD (taken.read keyp) taken && !(taken.read keyp).event.pressed) = true
      · -- the tapping key was tapped once: its key is registered
        have hkey : s.tapping_key.event.key = (s.read keyp).event.key := by
          simp only [IS_TAPPING_RECORD, Bool.and_eq_true, decide_eq_true_eq] at htap
          rw [← ht.tapping_key, htap.1, hread]
        have hone : s.tapping_key.tap.count = 1 := by
          by_contra hne
          exact h.free (isEvent_iff.mpr hnone) hdown hne (hkey ▸ hmem)
        have hcount' : taken.tapping_key.tap.count = 1 := by rw [ht.tapping_key, hone]
        rw [if_pos htap]
        cases after_term
        · exact ht.hands { taken.read keyp with tap := taken.tapping_key.tap } (hread ▸ he) hread
            hcount' rfl rfl (.inr (hread ▸ hp))
        · exact ht.hands { taken.read keyp with tap := taken.tapping_key.tap } (hread ▸ he) hread
            hcount' rfl rfl (.inr rfl)
      · rw [if_neg htap, if_neg (by simp [hread, hp])]
        exact hplain
    simp only [hsettled, if_true, if_false, Bool.false_eq_true]
    split
    · exact hprocess false
    · exact hprocess true

theorem HandsTap.steady {out : Bool × Tapping} (h : Steady s)
    (hp : (s.read keyp).event.pressed = false) (ho : HandsTap keyp s out)
    (hkeep : KeepsTappingKey s out.2) : Steady out.2 := by
  obtain ⟨-, ⟨record, hcalls, hr, hc⟩, hnodup, hregistered⟩ := ho
  refine ⟨⟨hnodup, fun key => ?_, ?_⟩, ?_⟩
  · rw [hregistered, hcalls, awaiting_concat, Call.awaits, hr]
    by_cases hkey : (s.read keyp).event.key = key
    · subst hkey
      simp [hp]
    · rw [if_neg hkey, h.inStep.mem]
      simp [Ne.symm hkey]
  · rw [hcalls]
    refine tapReleases_concat h.inStep.releases ?_
    rintro r t early ⟨⟩ - -
    exact hc
  · rcases hkeep with hkey | hreleased
    · intro he hdown hcount
      rw [hkey] at he hdown hcount ⊢
      rw [hregistered]
      exact fun hmem => h.free he hdown hcount hmem.1
    · exact free_of_released hreleased

/-! ## Runs -/

/-- The law of a clean call of `process_tapping`. -/
theorem turn_steady (hf : (cfg.CHORDAL_HOLD || cfg.FLOW_TAP_TERM) = true) (h : Steady s)
    (hk : keyp.Holds s) (hc : turn_cleanly cfg keyp s = true) :
    Steady (process_tapping cfg keyp s).2 := by
  unfold turn_cleanly at hc
  by_cases hmem : (s.read keyp).event.key ∈ s.registered_taps
  · rw [if_pos hmem] at hc
    obtain ⟨htap, hkeep⟩ := release_hands hf h hk hmem hc
    simp only [hands_release, Bool.and_eq_true, Bool.not_eq_true'] at hc
    exact htap.steady h hc.1.2 hkeep
  rw [if_neg hmem] at hc
  have htake : take_registered_tap cfg keyp s = s := by
    have hnone : registered_tap_find (s.read keyp).event.key s = none := by
      rw [registered_tap_find, List.findIdx?_eq_none_iff]
      intro key hkey
      have hne : key ≠ (s.read keyp).event.key := fun heq => hmem (heq ▸ hkey)
      simpa using hne
    simp [take_registered_tap, hnone]
  unfold process_tapping
  rw [htake]
  refine steady_ite (fun hnone => ?_) fun hnone => steady_ite (fun hdown => ?_) fun hdown => ?_
  · refine none_steady h hnone hmem ?_
    rcases hn : IS_NOEVENT (s.read keyp).event with _ | _
    · rw [hn, if_neg (by simp), if_pos hnone] at hc
      exact .inr hc
    · exact .inl rfl
  · have he := isEvent_iff.mpr (Bool.eq_false_iff.mpr hnone)
    refine steady_ite (fun hwithin => ?_) fun hwithin => ?_
    · refine steady_ite (fun _ => h) fun hn => steady_ite (fun hcount => ?_) fun _ => ?_
      · rw [if_neg hn, if_neg hnone, if_neg (by simp [hwithin]), if_pos hdown] at hc
        simp only [hcount, ne_eq, not_true_eq_false, decide_false, Bool.false_or] at hc
        exact unsettled_steady h (unsettled_of (Bool.eq_false_iff.mpr hnone) hdown hcount) hmem hc
      · exact settled_steady false h he hdown hmem
    · refine steady_ite (fun _ => ?_) fun _ => steady_ite (fun _ => h) fun _ => ?_
      · exact Steady.reset (h.inStep.hand (hands_press hdown))
      · exact settled_steady true h he hdown hmem
  · have hreleased := Bool.eq_false_iff.mpr hdown
    refine steady_ite (fun hwithin => ?_) fun _ => Steady.reset h.inStep
    refine steady_ite (fun _ => h) fun hn => ?_
    rw [if_neg hn, if_neg hnone, if_neg (by simp [hwithin]), if_neg hdown, Bool.or_eq_true] at hc
    exact released_steady h (isEvent_iff.mpr (Bool.eq_false_iff.mpr hn)) hreleased hmem hc

theorem Steady.popTail (h : Steady s) : Steady (action_tapping.popTail s) :=
  ⟨h.inStep.popTail, h.free⟩

theorem waiting_steady (hf : (cfg.CHORDAL_HOLD || cfg.FLOW_TAP_TERM) = true) (n : Nat)
    (h : Steady s) (hc : ∀ turn ∈ waiting_turns cfg n s, turn_cleanly cfg turn.1 turn.2 = true) :
    Steady (process_waiting_buffer cfg n s) := by
  induction n generalizing s with
  | zero => exact h
  | succ n ih =>
    unfold process_waiting_buffer
    unfold waiting_turns at hc
    split
    · exact h
    rename_i hne
    rw [if_neg hne, List.forall_mem_cons] at hc
    obtain ⟨hfirst, hrest⟩ := hc
    have hturn := turn_steady hf h (fun _ => hne) hfirst
    rcases hout : process_tapping cfg .tail s with ⟨_ | _, s'⟩ <;> rw [hout] at hturn hrest
    · exact hturn
    · exact ih hturn.popTail hrest

theorem arrival_steady (hf : (cfg.CHORDAL_HOLD || cfg.FLOW_TAP_TERM) = true) {e : keyevent_t}
    (h : Steady s) (hc : turn_cleanly cfg .record (s.given e) = true) :
    Steady (process_arrival cfg (.ofEvent e) s) := by
  have hgiven : Steady (s.given e) := ⟨h.inStep.of_eq rfl rfl, h.free⟩
  have hturn := turn_steady hf hgiven (fun h => by simp at h) hc
  rw [process_arrival_eq]
  rcases hout : process_tapping cfg .record (s.given e) with ⟨_ | _, s'⟩ <;> rw [hout] at hturn
  · dsimp only
    rcases henq : waiting_buffer_enq s'.record s' with _ | s''
    · have hclear : InStep (waiting_buffer_clear (clear_keyboard s')) :=
        hturn.inStep.call rfl rfl (by simp)
      exact Steady.reset hclear
    · simp only [waiting_buffer_enq] at henq
      split at henq
      · exact Option.some.inj henq ▸ hturn
      split at henq
      · cases henq
      · rw [Option.getD_some, ← Option.some.inj henq]
        exact ⟨hturn.inStep.of_eq rfl rfl, hturn.free⟩
  · exact hturn

theorem step_steady (hf : (cfg.CHORDAL_HOLD || cfg.FLOW_TAP_TERM) = true) {e : keyevent_t}
    (h : Steady s) (hc : Clean cfg s e) : Steady (step cfg s e) := by
  obtain ⟨hfirst, hrest⟩ := List.forall_mem_cons.mp hc
  have hwaits := waiting_steady hf _ (arrival_steady hf h hfirst) hrest
  unfold step action_tapping_process
  dsimp only
  split
  · exact ⟨hwaits.inStep.of_eq rfl rfl, hwaits.free⟩
  · exact hwaits

/-- The call of `process_tapping`, if it sees an event of a registered key, hands it over as a
tap release. -/
def TurnHandsTap (cfg : Config) (keyp : Slot) (s : Tapping) : Prop :=
  (s.read keyp).event.key ∈ s.registered_taps → HandsTap keyp s (process_tapping cfg keyp s)

theorem turn_hands (hf : (cfg.CHORDAL_HOLD || cfg.FLOW_TAP_TERM) = true) (h : Steady s)
    (hk : keyp.Holds s) (hc : turn_cleanly cfg keyp s = true) : TurnHandsTap cfg keyp s := by
  intro hmem
  unfold turn_cleanly at hc
  rw [if_pos hmem] at hc
  exact (release_hands hf h hk hmem hc).1

theorem waiting_turns_hand (hf : (cfg.CHORDAL_HOLD || cfg.FLOW_TAP_TERM) = true) (n : Nat)
    (h : Steady s) (hc : ∀ turn ∈ waiting_turns cfg n s, turn_cleanly cfg turn.1 turn.2 = true) :
    ∀ turn ∈ waiting_turns cfg n s, TurnHandsTap cfg turn.1 turn.2 := by
  induction n generalizing s with
  | zero => simp [waiting_turns]
  | succ n ih =>
    unfold waiting_turns at hc ⊢
    split
    · simp
    rename_i hne
    rw [if_neg hne, List.forall_mem_cons] at hc
    obtain ⟨hfirst, hrest⟩ := hc
    refine List.forall_mem_cons.mpr ⟨turn_hands hf h (fun _ => hne) hfirst, ?_⟩
    have hturn := turn_steady hf h (fun _ => hne) hfirst
    rcases hout : process_tapping cfg .tail s with ⟨_ | _, s'⟩ <;> rw [hout] at hturn hrest
    · simp
    · exact ih hturn.popTail hrest

theorem turns_hand (hf : (cfg.CHORDAL_HOLD || cfg.FLOW_TAP_TERM) = true) {e : keyevent_t}
    (h : Steady s) (hc : Clean cfg s e) :
    ∀ turn ∈ turns cfg s e, TurnHandsTap cfg turn.1 turn.2 := by
  obtain ⟨hfirst, hrest⟩ := List.forall_mem_cons.mp hc
  refine List.forall_mem_cons.mpr ⟨?_, ?_⟩
  · exact turn_hands hf (s := s.given e) ⟨h.inStep.of_eq rfl rfl, h.free⟩ (fun h => by simp at h) hfirst
  · exact waiting_turns_hand hf _ (arrival_steady hf h hfirst) hrest

theorem steady_zero : Steady .zero := by
  refine ⟨⟨by simp [Tapping.zero], fun key => by simp [Tapping.zero, awaiting], ?_⟩, free_of_none rfl⟩
  intro pre post record tapping_key early hsplit
  simp [Tapping.zero] at hsplit

end

/-- In a run of clean calls, the array has the keys that were settled as tapped early and whose
release was not handed over, each once. Every call that sees the release of such a key hands
it over as a tap, and takes that key and no other from the array. -/
theorem registered_taps_are_the_early_taps {cfg : Config}
    (hf : (cfg.CHORDAL_HOLD || cfg.FLOW_TAP_TERM) = true) (stream : List keyevent_t)
    (hclean : Along (step cfg) (Clean cfg) .zero stream) :
    InStep (stream.foldl (step cfg) .zero) ∧
      Along (step cfg) (fun s e => ∀ turn ∈ turns cfg s e, TurnHandsTap cfg turn.1 turn.2)
        .zero stream :=
  ⟨(hclean.invariant (fun _ _ h hc => step_steady hf h hc) steady_zero).inStep,
    Along.imp (I := Steady) (fun _ _ h hc => ⟨turns_hand hf h hc, step_steady hf h hc⟩) steady_zero
      hclean⟩

def flow_board : Config :=
  { board with
    FLOW_TAP_TERM := true
    get_flow_tap_term := fun _ _ _ _ => 100 }

/-- A mod-tap goes down behind a plain key, and comes up. -/
theorem a_flow_tap_is_registered :
    InStep ([down 1 0 0, down 0 1 10, up 0 1 50].foldl (step flow_board) .zero) ∧
      Along (step flow_board)
        (fun s e => ∀ turn ∈ turns flow_board s e, TurnHandsTap flow_board turn.1 turn.2) .zero
        [down 1 0 0, down 0 1 10, up 0 1 50] :=
  registered_taps_are_the_early_taps (by decide) _ (by decide)

/-- The mod-tap is that of row 0 and column 0, where ticks are. The next tick takes it from the
array, and its release is handed over with no tap. -/
theorem a_tick_takes_a_registered_tap :
    let s := [down 1 0 0, down 0 0 10, tick 11].foldl (step flow_board) .zero
    awaiting s.calls ⟨0, 0⟩ = true ∧ ⟨0, 0⟩ ∉ s.registered_taps ∧
      (step flow_board s (up 0 0 50)).calls.getLast? =
        some (.process_record ⟨up 0 0 50, ⟨false, 0⟩⟩ .zero false) := by
  decide

end keychron_qmk.action_tapping
