-- The keys that choose a host, after `keychron_wireless_common.c`: a key that is held
-- starts pairing, unless its release is missed under another transport.
import KeychronQMK.Lib.HeldSince
import KeychronQMK.Lib.Runs
import Mathlib.Data.Fintype.Basic

namespace keychron_qmk.pairing

open held runs

/-! ## Keys and transports -/

inductive transport_t
  | TRANSPORT_NONE
  | TRANSPORT_USB
  | TRANSPORT_BLUETOOTH
  | TRANSPORT_P2P4
  deriving DecidableEq

/-- The keys that choose a transport or a host. -/
inductive conn_key
  | BT_HST (n : Fin 3)
  | P2P4G
  | TP_USB
  deriving DecidableEq

instance : Fintype conn_key where
  elems := Finset.univ.image .BT_HST ∪ {.P2P4G, .TP_USB}
  complete key := by cases key <;> simp

def P24G_INDEX : UInt8 := 24

def conn_key.host_idx : conn_key → Option UInt8
  | BT_HST n => some (.ofNat (n + 1))
  | P2P4G => some P24G_INDEX
  | TP_USB => none

/-- What a keyboard defines. -/
structure Config where
  P24G_MODE_SELECT_PIN : Bool
  KEYCOMBO_CONN_SWITCH_ENABLE : Bool
  EECONFIG_KB_DATA : Bool

/-- The levels of the two pins of the switch. -/
structure Pins where
  bt : Bool
  p24g : Bool
  deriving DecidableEq

def Config.pins_state (cfg : Config) (pins : Pins) : UInt8 :=
  (if pins.bt then 2 else 0) ||| if cfg.P24G_MODE_SELECT_PIN ∧ pins.p24g then 1 else 0

/-- The static variables, the transport and the transport in the EEPROM. -/
structure Wireless where
  pairing_key_timer : UInt32
  host_idx : UInt8
  transport : transport_t
  eeprom_transport : transport_t
  dip_switch_state : UInt8
  time : UInt32

namespace Wireless

def boot : Wireless := ⟨0, 0, .TRANSPORT_NONE, .TRANSPORT_NONE, 0, 0⟩

variable (cfg : Config) (s : Wireless) (now : UInt32)

def set_transport (new_transport : transport_t) : Wireless := { s with transport := new_transport }

def choose_transport (new_transport : transport_t) : Wireless :=
  if s.eeprom_transport ≠ new_transport then
    { s.set_transport new_transport with eeprom_transport := new_transport }
  else s

def listens : conn_key → Bool
  | .BT_HST _ => cfg.KEYCOMBO_CONN_SWITCH_ENABLE || s.transport = .TRANSPORT_BLUETOOTH
  | .P2P4G =>
    if cfg.P24G_MODE_SELECT_PIN then s.transport = .TRANSPORT_P2P4
    else cfg.KEYCOMBO_CONN_SWITCH_ENABLE
  | .TP_USB => cfg.KEYCOMBO_CONN_SWITCH_ENABLE

def choose (key : conn_key) : Wireless :=
  if cfg.KEYCOMBO_CONN_SWITCH_ENABLE then
    match key with
    | .BT_HST _ => s.choose_transport .TRANSPORT_BLUETOOTH
    | .P2P4G =>
      if cfg.EECONFIG_KB_DATA then s.choose_transport .TRANSPORT_P2P4
      else s.set_transport .TRANSPORT_P2P4
    | .TP_USB =>
      if cfg.EECONFIG_KB_DATA then s.choose_transport .TRANSPORT_USB
      else s.set_transport .TRANSPORT_USB
  else s

def process_record_keychron_wireless (key : conn_key) (pressed : Bool) : Wireless :=
  if s.listens cfg key then
    match key.host_idx with
    | some host =>
      if pressed then { s.choose cfg key with host_idx := host, pairing_key_timer := now }
      else { s with host_idx := 0, pairing_key_timer := 0 }
    | none => if pressed then s.choose cfg key else s
  else s

def keychron_wireless_common_task : Wireless × Option UInt8 :=
  if s.pairing_key_timer ≠ 0 ∧ 2000 < now - s.pairing_key_timer then
    ({ s with pairing_key_timer := 0 }, some s.host_idx)
  else (s, none)

def selected (dip_switch_state : UInt8) : transport_t :=
  if cfg.P24G_MODE_SELECT_PIN then
    if dip_switch_state = 0x01 then .TRANSPORT_BLUETOOTH
    else if dip_switch_state = 0x02 then .TRANSPORT_P2P4
    else .TRANSPORT_USB
  else if dip_switch_state = 0x00 then .TRANSPORT_BLUETOOTH
  else .TRANSPORT_USB

/-- The switch has changed: wait until it is steady. -/
def watch_switch (pins : Pins) : Wireless :=
  if s.time = 0 ∧ cfg.pins_state pins ≠ s.dip_switch_state then
    { s with dip_switch_state := cfg.pins_state pins, time := now }
  else s

/-- The pins are read twice. -/
def wireless_pre_task (first second : Pins) : Wireless :=
  if cfg.KEYCOMBO_CONN_SWITCH_ENABLE then
    if s.transport = .TRANSPORT_NONE then
      if s.eeprom_transport = .TRANSPORT_NONE then
        { s with transport := .TRANSPORT_USB, eeprom_transport := .TRANSPORT_USB }
      else s.set_transport s.eeprom_transport
    else s
  else
    let s := s.watch_switch cfg now first
    if s.time ≠ 0 ∧ 100 < now - s.time ∨ s.transport = .TRANSPORT_NONE then
      if cfg.pins_state second = s.dip_switch_state then
        { s with time := 0, transport := selected cfg s.dip_switch_state }
      else { s with dip_switch_state := cfg.pins_state second, time := now }
    else s

end Wireless

/-! ## Runs -/

/-- The static variables with the milliseconds since the start, and since when each key has
been held. -/
structure Watched where
  state : Wireless
  now : Nat
  since : Since conn_key

/-- A key, a look at the switch or a call of the task, some milliseconds after the last. -/
inductive input
  | key (wait : Nat) (key : conn_key) (pressed : Bool)
  | pre_task (wait : Nat) (first second : Pins)
  | task (wait : Nat)

namespace Watched

def boot : Watched := ⟨.boot, 0, fun _ => none⟩

variable (cfg : Config) (w : Watched)

def step : input → Watched
  | .key wait key pressed =>
    let now := w.now + wait
    { state := w.state.process_record_keychron_wireless cfg (timer_read32 now) key pressed
      now
      since := w.since.see now key pressed }
  | .pre_task wait first second =>
    let now := w.now + wait
    { w with state := w.state.wireless_pre_task cfg (timer_read32 now) first second, now }
  | .task wait =>
    let now := w.now + wait
    { w with state := (w.state.keychron_wireless_common_task (timer_read32 now)).1, now }

def pairs : input → Option UInt8
  | .task wait => (w.state.keychron_wireless_common_task (timer_read32 (w.now + wait))).2
  | _ => none

def AfterHold : input → Prop
  | .task wait => ∀ host, w.pairs (.task wait) = some host → host ≠ 0 ∧
    ∃ key : conn_key, key.host_idx = some host ∧ w.since.HeldFor key 2000 (w.now + wait)
  | _ => True

/-- The release of a key that is being timed is listened to. -/
def Heard : input → Prop
  | .key _ key false => w.state.pairing_key_timer ≠ 0 → key.host_idx = some w.state.host_idx →
    w.state.listens cfg key
  | _ => True

instance : ∀ x, Decidable (w.Heard cfg x)
  | .key _ key false => inferInstanceAs (Decidable (w.state.pairing_key_timer ≠ 0 →
    key.host_idx = some w.state.host_idx → w.state.listens cfg key))
  | .key _ _ true | .pre_task .. | .task _ => .isTrue trivial

end Watched

/-! ## What holds of every state -/

theorem conn_key.host_ne_zero : ∀ key : conn_key, key.host_idx ≠ some 0 := by
  decide

theorem conn_key.eq_of_host : ∀ key other : conn_key, key.host_idx ≠ none →
    key.host_idx = other.host_idx → key = other := by
  decide

/-- The timer that runs was started for the host of a key that has been held since. -/
structure Linked (s : Wireless) (since : Since conn_key) (now : Nat) : Prop where
  past : since.Past now
  running : s.pairing_key_timer ≠ 0 → ∃ key : conn_key, key.host_idx = some s.host_idx ∧
    ∃ t ≤ now, s.pairing_key_timer = timer_read32 t ∧ ∃ u ≤ t, since key = some u

section Laws

variable {cfg : Config} {s s' : Wireless} {since : Since conn_key} {now : Nat} {key : conn_key}

theorem Linked.boot : Linked .boot (fun _ => none) 0 where
  past _ _ h := by cases h
  running h := absurd rfl h

theorem Linked.later {later : Nat} (h : Linked s since now) (hle : now ≤ later) :
    Linked s since later where
  past := h.past.later hle
  running hrun := by
    obtain ⟨key, hkey, t, ht, hsince⟩ := h.running hrun
    exact ⟨key, hkey, t, ht.trans hle, hsince⟩

theorem Linked.of_same (h : Linked s since now)
    (htimer : s'.pairing_key_timer = s.pairing_key_timer) (hhost : s'.host_idx = s.host_idx) :
    Linked s' since now where
  past := h.past
  running := by
    rw [htimer, hhost]
    exact h.running

theorem Linked.stopped (h : since.Past now) (htimer : s.pairing_key_timer = 0) :
    Linked s since now :=
  ⟨h, fun hrun => absurd htimer hrun⟩

theorem Linked.see_held (h : Linked s since now) (key : conn_key) :
    Linked s (since.see now key true) now where
  past := h.past.see key true
  running hrun := by
    obtain ⟨other, hother, t, ht, hstart, u, hu, hsince⟩ := h.running hrun
    exact ⟨other, hother, t, ht, hstart, u, hu, Since.see_of_some hsince⟩

theorem Linked.see_released (h : Linked s since now)
    (hkey : s.pairing_key_timer ≠ 0 → key.host_idx ≠ some s.host_idx) :
    Linked s (since.see now key false) now where
  past := h.past.see key false
  running hrun := by
    obtain ⟨other, hother, t, ht, hstart, u, hu, hsince⟩ := h.running hrun
    have hne : other ≠ key := by
      rintro rfl
      exact hkey hrun hother
    exact ⟨other, hother, t, ht, hstart, u, hu, by rwa [Since.see_of_ne false hne]⟩

theorem choose_same (cfg : Config) (s : Wireless) (key : conn_key) :
    (s.choose cfg key).pairing_key_timer = s.pairing_key_timer ∧
      (s.choose cfg key).host_idx = s.host_idx := by
  have hchosen : ∀ new_transport,
      (s.choose_transport new_transport).pairing_key_timer = s.pairing_key_timer ∧
        (s.choose_transport new_transport).host_idx = s.host_idx := by
    intro new_transport
    unfold Wireless.choose_transport
    split <;> exact ⟨rfl, rfl⟩
  unfold Wireless.choose
  split
  · cases key with
    | BT_HST n => exact hchosen _
    | P2P4G =>
      dsimp only
      split
      · exact hchosen _
      · exact ⟨rfl, rfl⟩
    | TP_USB =>
      dsimp only
      split
      · exact hchosen _
      · exact ⟨rfl, rfl⟩
  · exact ⟨rfl, rfl⟩

theorem Linked.press (h : Linked s since now) (key : conn_key) :
    Linked (s.process_record_keychron_wireless cfg (timer_read32 now) key true)
      (since.see now key true) now := by
  have hheld := h.see_held key
  unfold Wireless.process_record_keychron_wireless
  split
  · cases hhost : key.host_idx with
    | none =>
      obtain ⟨htimer, hidx⟩ := choose_same cfg s key
      exact hheld.of_same htimer hidx
    | some host =>
      obtain ⟨u, hu⟩ : ∃ u, since.see now key true key = some u := Since.see_held
      exact ⟨hheld.past, fun _ => ⟨key, hhost, now, le_rfl, rfl, u, hheld.past key u hu, hu⟩⟩
  · exact hheld

theorem Linked.release (h : Linked s since now) (key : conn_key)
    (hheard : s.pairing_key_timer ≠ 0 → key.host_idx = some s.host_idx → s.listens cfg key) :
    Linked (s.process_record_keychron_wireless cfg (timer_read32 now) key false)
      (since.see now key false) now := by
  unfold Wireless.process_record_keychron_wireless
  split
  · cases hhost : key.host_idx with
    | none => exact h.see_released fun _ => by simp [hhost]
    | some host => exact .stopped (h.past.see key false) rfl
  · rename_i hdeaf
    exact h.see_released fun hrun hhost => hdeaf (hheard hrun hhost)

theorem Linked.pre_task (h : Linked s since now) (first second : Pins) :
    Linked (s.wireless_pre_task cfg (timer_read32 now) first second) since now := by
  have hwatched : (s.watch_switch cfg (timer_read32 now) first).pairing_key_timer =
      s.pairing_key_timer ∧ (s.watch_switch cfg (timer_read32 now) first).host_idx =
        s.host_idx := by
    unfold Wireless.watch_switch
    split <;> exact ⟨rfl, rfl⟩
  unfold Wireless.wireless_pre_task
  dsimp only
  split_ifs
  · exact h.of_same rfl rfl
  · exact h.of_same rfl rfl
  · exact h
  · exact h.of_same hwatched.1 hwatched.2
  · exact h.of_same hwatched.1 hwatched.2
  · exact h.of_same hwatched.1 hwatched.2

theorem Linked.task (h : Linked s since now) :
    Linked (s.keychron_wireless_common_task (timer_read32 now)).1 since now ∧
      ∀ host, (s.keychron_wireless_common_task (timer_read32 now)).2 = some host → host ≠ 0 ∧
        ∃ key : conn_key, key.host_idx = some host ∧ since.HeldFor key 2000 now := by
  unfold Wireless.keychron_wireless_common_task
  split
  · rename_i hexpired
    refine ⟨.stopped h.past rfl, fun host hpaired => ?_⟩
    obtain rfl := Option.some.inj hpaired
    obtain ⟨key, hkey, t, ht, hstart, u, hu, hsince⟩ := h.running hexpired.1
    have hlong := UInt32.lt_iff_toNat_lt.mp (hstart ▸ hexpired.2)
    have hpassed := elapsed_le ht
    simp only [UInt32.reduceToNat] at hlong
    refine ⟨fun hzero => key.host_ne_zero (hzero ▸ hkey), key, hkey, u, hsince, by omega⟩
  · exact ⟨h, fun host hpaired => by cases hpaired⟩

end Laws

namespace Watched

variable {cfg : Config} {w : Watched} {x : input}

theorem linked_step (h : Linked w.state w.since w.now) (hx : w.Heard cfg x) :
    w.AfterHold x ∧
      Linked (w.step cfg x).state (w.step cfg x).since (w.step cfg x).now := by
  cases x with
  | key wait key pressed =>
    have hlater := h.later (Nat.le_add_right w.now wait)
    cases pressed with
    | true => exact ⟨trivial, hlater.press key⟩
    | false => exact ⟨trivial, hlater.release key hx⟩
  | pre_task wait first second =>
    exact ⟨trivial, (h.later (Nat.le_add_right w.now wait)).pre_task first second⟩
  | task wait =>
    obtain ⟨hlinked, hpaired⟩ := (h.later (Nat.le_add_right w.now wait)).task
    exact ⟨hpaired, hlinked⟩

/-- In a run that hears the releases of the keys that are timed, only the host of a key that
was held is paired with. -/
theorem pairing_follows_a_hold (cfg : Config) (xs : List input)
    (h : Along (step cfg) (Heard cfg) boot xs) : Along (step cfg) AfterHold boot xs :=
  Along.imp (I := fun w => Linked w.state w.since w.now)
    (fun _ _ hlinked hx => linked_step hlinked hx) Linked.boot h

/-- After a release that is not heard, a call pairs with the host of the released key. -/
theorem pairs_after_unheard (h : Linked w.state w.since w.now) (hx : ¬ w.Heard cfg x) :
    ∃ wait, ¬ (w.step cfg x).AfterHold (.task wait) := by
  cases x with
  | pre_task wait first second => exact absurd trivial hx
  | task wait => exact absurd trivial hx
  | key before key pressed =>
    cases pressed with
    | true => exact absurd trivial hx
    | false =>
      obtain ⟨hrun, hx⟩ := Classical.not_imp.mp hx
      obtain ⟨hhost, hdeaf⟩ := Classical.not_imp.mp hx
      have hstate : (w.step cfg (.key before key false)).state = w.state := by
        simp only [step, Wireless.process_record_keychron_wireless]
        rw [if_neg hdeaf]
      have hsince : (w.step cfg (.key before key false)).since key = none := Since.see_released
      obtain ⟨-, -, t, -, hstart, -⟩ := h.running hrun
      obtain ⟨wait, hwait⟩ := exists_wait t (w.step cfg (.key before key false)).now 2001
      refine ⟨wait, fun hheld => ?_⟩
      have hpaired : (w.step cfg (.key before key false)).pairs (.task wait) =
          some w.state.host_idx := by
        simp only [pairs, Wireless.keychron_wireless_common_task, hstate]
        rw [if_pos ⟨hrun, by rw [hstart, hwait]; decide⟩]
      obtain ⟨-, other, hother, u, hu, -⟩ := hheld _ hpaired
      obtain rfl := other.eq_of_host key (by simp [hother]) (hother.trans hhost.symm)
      exact absurd (hsince.symm.trans hu) (by simp)

/-- Every release is heard exactly when, wherever a run is cut off by a call of the task,
only the host of a key that was held is paired with. -/
theorem releases_are_heard_exactly_when_pairing_follows_a_hold (cfg : Config) (xs : List input) :
    Along (step cfg) (Heard cfg) boot xs ↔
      ∀ ys, ys <+: xs → ∀ wait, Along (step cfg) AfterHold boot (ys ++ [.task wait]) := by
  constructor
  · rintro h ys ⟨zs, rfl⟩ wait
    refine pairing_follows_a_hold cfg _ (Along.append.mpr ⟨(Along.append.mp h).1, ?_⟩)
    exact ⟨trivial, trivial⟩
  · have hcut : ∀ w : Watched, Linked w.state w.since w.now →
        (∀ ys, ys <+: xs → ∀ wait, Along (step cfg) AfterHold w (ys ++ [.task wait])) →
          Along (step cfg) (Heard cfg) w xs := by
      induction xs with
      | nil => exact fun _ _ _ => trivial
      | cons x xs ih =>
        intro w hlinked h
        have hx : w.Heard cfg x := by
          by_contra hx
          obtain ⟨wait, hpaired⟩ := pairs_after_unheard hlinked hx
          exact hpaired (h [x] ⟨xs, rfl⟩ wait).2.1
        refine ⟨hx, ih _ (linked_step hlinked hx).2 fun ys hys wait => ?_⟩
        exact (h (x :: ys) (List.prefix_cons_inj x |>.mpr hys) wait).2
    exact hcut boot Linked.boot

/-! ## A release that is missed -/

def switchBoard : Config := ⟨false, false, true⟩

theorem three_hosts : 0 < 3 := by decide

def BT_HST1 : conn_key := .BT_HST ⟨0, three_hosts⟩

/-- While the key is held, the switch is moved from Bluetooth to USB. -/
def missedRelease : List input :=
  [.pre_task 10 ⟨false, false⟩ ⟨false, false⟩, .key 10 BT_HST1 true,
    .pre_task 10 ⟨true, false⟩ ⟨true, false⟩, .pre_task 200 ⟨true, false⟩ ⟨true, false⟩,
    .key 100 BT_HST1 false]

/-- The released key pairs its host two seconds after its press. -/
theorem a_missed_release_pairs :
    (missedRelease.foldl (step switchBoard) boot).pairs (.task 2000) = some 1 ∧
      (∀ key, (missedRelease.foldl (step switchBoard) boot).since key = none) ∧
      ¬ Along (step switchBoard) AfterHold boot (missedRelease ++ [.task 2000]) := by
  have hpaired : (missedRelease.foldl (step switchBoard) boot).pairs (.task 2000) = some 1 := by
    decide
  have hnone : ∀ key, (missedRelease.foldl (step switchBoard) boot).since key = none := by decide
  refine ⟨hpaired, hnone, fun h => ?_⟩
  obtain ⟨-, key, -, u, hu, -⟩ := (Along.append.mp h).2.1 1 hpaired
  exact absurd ((hnone key).symm.trans hu) (by simp)

end Watched

end keychron_qmk.pairing
