-- The power management settings of `wireless.c`: two timeouts, in RAM and in
-- the EEPROM, that the host sets and that each start-up loads.
-- MOUSEKEY_ENABLE, LK_WIRELESS_ENABLE and EECONFIG_BASE_WIRELESS_CONFIG are
-- defined.
import KeychronQMK.Lib.Layout
import KeychronQMK.Wireless.Module

namespace keychron_qmk.wireless.power

open memory layout

/-- The constants that a keyboard may set for itself. -/
structure Config where
  EECONFIG_BASE_WIRELESS_CONFIG : Nat
  CONNECTED_BACKLIGHT_DISABLE_TIMEOUT : UInt16
  CONNECTED_IDLE_TIME : UInt16

/-- The calls that leave `wireless_lpm_set`. -/
inductive Call
  | indicator_set_backlit_timeout (time : UInt32)
  | indicator_reset_backlit_time
  | mousekey_on (code : UInt8)
  | mousekey_off (code : UInt8)
  | mousekey_send
  | wait_ms (ms : Nat)
  | lkbt51_param_init (connected_idle_timeout : UInt16)
  deriving DecidableEq

structure Power where
  eeprom : Bytes
  backlit_disable_time : UInt16
  connected_idle_time : UInt16
  transport : UInt8
  wireless_state : wt_state_t
  calls : List Call

def TRANSPORT_BLUETOOTH : UInt8 := (0x01 : UInt8) <<< 1

def TRANSPORT_P2P4 : UInt8 := (0x01 : UInt8) <<< 2

def TRANSPORT_WIRELESS : UInt8 := TRANSPORT_BLUETOOTH ||| TRANSPORT_P2P4

def MS_LEFT : UInt8 := 0xCF

def MS_RGHT : UInt8 := 0xD0

theorem time_lt (x : UInt16) : x.toNat < 256 ^ 2 := by
  have := x.toNat_lt
  omega

/-- The two bytes of a timeout, as `memcpy` takes them. -/
def timeCodec : Codec UInt16 :=
  .packed 2 UInt16.toNat UInt16.ofNat time_lt fun _ => UInt16.ofNat_toNat

def eeprom_update_block (m : Bytes) (buf : List UInt8) (addr : Nat) : Bytes :=
  if readBlock m addr buf.length ≠ buf then patch m addr buf else m

variable (cfg : Config)

def wireless_config_load (s : Power) : Power :=
  let offset := 0
  let backlit_disable_time :=
    timeCodec.read s.eeprom (cfg.EECONFIG_BASE_WIRELESS_CONFIG + offset)
  let offset := offset + timeCodec.size
  let connected_idle_time :=
    timeCodec.read s.eeprom (cfg.EECONFIG_BASE_WIRELESS_CONFIG + offset)
  let backlit_disable_time :=
    if backlit_disable_time = 0 then cfg.CONNECTED_BACKLIGHT_DISABLE_TIMEOUT
    else if backlit_disable_time < 5 then 5
    else backlit_disable_time
  let connected_idle_time :=
    if connected_idle_time = 0 then cfg.CONNECTED_IDLE_TIME
    else if connected_idle_time < 30 then 30
    else connected_idle_time
  { s with backlit_disable_time, connected_idle_time }

def wireless_config_save (s : Power) : Power :=
  let offset := 0
  let eeprom := eeprom_update_block s.eeprom (timeCodec.encode s.backlit_disable_time)
    (cfg.EECONFIG_BASE_WIRELESS_CONFIG + offset)
  let offset := offset + timeCodec.size
  let eeprom := eeprom_update_block eeprom (timeCodec.encode s.connected_idle_time)
    (cfg.EECONFIG_BASE_WIRELESS_CONFIG + offset)
  { s with eeprom }

/-- The backlight timer starts anew, and a wiggle of the mouse resets the
timer of the module. -/
def reset_timers (s : Power) : Power :=
  if s.transport &&& TRANSPORT_WIRELESS ≠ 0 ∧ s.wireless_state = .WT_CONNECTED then
    { s with
      calls := s.calls ++ [
        .indicator_set_backlit_timeout (s.backlit_disable_time.toUInt32 * 1000),
        .indicator_reset_backlit_time,
        .mousekey_on MS_LEFT, .mousekey_send, .wait_ms 10,
        .mousekey_on MS_RGHT, .mousekey_send, .wait_ms 10,
        .mousekey_off MS_RGHT, .mousekey_send, .wait_ms 10] }
  else s

def lkbt51_param_init (s : Power) : Power :=
  { s with calls := s.calls ++ [.lkbt51_param_init s.connected_idle_time] }

def wireless_lpm_set (s : Power) (data : Bytes) : Bool × Power :=
  let index := 0
  let s := { s with backlit_disable_time := timeCodec.read data index }
  let index := index + timeCodec.size
  let s := { s with connected_idle_time := timeCodec.read data index }
  if s.backlit_disable_time < 5 ∨ s.connected_idle_time < 60 then
    (false, wireless_config_load cfg s)
  else
    let s := wireless_config_save cfg s
    let s := reset_timers s
    (true, lkbt51_param_init s)

def wireless_config_reset (s : Power) : Power :=
  let data : Bytes := fun _ => 0
  let data := timeCodec.write data 0 cfg.CONNECTED_BACKLIGHT_DISABLE_TIMEOUT
  let data := timeCodec.write data 2 cfg.CONNECTED_IDLE_TIME
  (wireless_lpm_set cfg s data).2

def wireless_init (eeprom : Bytes) (transport : UInt8) : Power :=
  wireless_config_load cfg
    { eeprom, transport
      backlit_disable_time := cfg.CONNECTED_BACKLIGHT_DISABLE_TIMEOUT
      connected_idle_time := cfg.CONNECTED_IDLE_TIME
      wireless_state := .WT_INITIALIZED
      calls := [] }

/-- A request, a change of the connection, a factory reset or a reboot. -/
inductive Input
  | wireless_lpm_set (data : Bytes)
  | connection (transport : UInt8) (wireless_state : wt_state_t)
  | wireless_config_reset
  | reboot

def step (s : Power) : Input → Power
  | .wireless_lpm_set data => (wireless_lpm_set cfg s data).2
  | .connection transport wireless_state => { s with transport, wireless_state }
  | .wireless_config_reset => wireless_config_reset cfg s
  | .reboot => wireless_init cfg s.eeprom s.transport

/-! ## The two places of the settings -/

/-- The settings in RAM. -/
def Power.live (s : Power) : UInt16 × UInt16 := (s.backlit_disable_time, s.connected_idle_time)

/-- The settings as the bytes of the EEPROM state them. -/
def saved (m : Bytes) : UInt16 × UInt16 :=
  (timeCodec.read m cfg.EECONFIG_BASE_WIRELESS_CONFIG,
    timeCodec.read m (cfg.EECONFIG_BASE_WIRELESS_CONFIG + 2))

def requested (data : Bytes) : UInt16 × UInt16 := (timeCodec.read data 0, timeCodec.read data 2)

/-- What a request must keep to. -/
def Allowed (t : UInt16 × UInt16) : Prop := 5 ≤ t.1 ∧ 60 ≤ t.2

/-- The settings that a load makes of the saved ones. -/
def loaded (t : UInt16 × UInt16) : UInt16 × UInt16 :=
  (if t.1 = 0 then cfg.CONNECTED_BACKLIGHT_DISABLE_TIMEOUT else if t.1 < 5 then 5 else t.1,
    if t.2 = 0 then cfg.CONNECTED_IDLE_TIME else if t.2 < 30 then 30 else t.2)

variable {cfg}

theorem loaded_of_allowed {t : UInt16 × UInt16} (h : Allowed t) : loaded cfg t = t := by
  obtain ⟨hbacklit, hidle⟩ := h
  have h5 : (5 : UInt16).toNat ≤ t.1.toNat := hbacklit
  have h60 : (60 : UInt16).toNat ≤ t.2.toNat := hidle
  have hne1 : t.1 ≠ 0 := by rintro h0; simp [h0] at h5
  have hne2 : t.2 ≠ 0 := by rintro h0; simp [h0] at h60
  have hge1 : ¬ t.1 < 5 := UInt16.not_lt.mpr hbacklit
  have hge2 : ¬ t.2 < 30 := by
    rw [UInt16.lt_iff_toNat_lt]
    simp only [UInt16.reduceToNat] at h60 ⊢
    omega
  unfold loaded
  rw [if_neg hne1, if_neg hge1, if_neg hne2, if_neg hge2]

theorem eeprom_update_block_eq (m : Bytes) (buf : List UInt8) (addr : Nat) :
    eeprom_update_block m buf addr = patch m addr buf := by
  unfold eeprom_update_block
  split
  · rfl
  · rename_i h
    have hsame := not_not.mp h
    calc m = patch m addr (readBlock m addr buf.length) := (patch_readBlock m addr _).symm
      _ = patch m addr buf := by rw [hsame]

/-! ## Load and save -/

theorem load_live (s : Power) : (wireless_config_load cfg s).live = loaded cfg (saved cfg s.eeprom) :=
  rfl

@[simp] theorem load_eeprom (s : Power) : (wireless_config_load cfg s).eeprom = s.eeprom := rfl

@[simp] theorem save_live (s : Power) : (wireless_config_save cfg s).live = s.live := rfl

theorem save_eeprom (s : Power) : (wireless_config_save cfg s).eeprom =
    timeCodec.write (timeCodec.write s.eeprom cfg.EECONFIG_BASE_WIRELESS_CONFIG
      s.backlit_disable_time) (cfg.EECONFIG_BASE_WIRELESS_CONFIG + 2) s.connected_idle_time := by
  simp only [wireless_config_save, eeprom_update_block_eq]
  rfl

theorem saved_save (s : Power) : saved cfg (wireless_config_save cfg s).eeprom = s.live := by
  rw [save_eeprom]
  unfold saved Power.live
  rw [Codec.read_write, Codec.read_write_of_disjoint timeCodec timeCodec _ _
    (.inl (Nat.le_refl (cfg.EECONFIG_BASE_WIRELESS_CONFIG + 2))), Codec.read_write]

theorem save_eeprom_outside (s : Power) {a : Nat} (h : a < cfg.EECONFIG_BASE_WIRELESS_CONFIG ∨
    cfg.EECONFIG_BASE_WIRELESS_CONFIG + 4 ≤ a) :
    (wireless_config_save cfg s).eeprom a = s.eeprom a := by
  rw [save_eeprom]
  rcases h with h | h
  · rw [Codec.write_of_lt _ _ _ (by omega), Codec.write_of_lt _ _ _ h]
  · rw [Codec.write_of_ge _ _ _ h, Codec.write_of_ge _ _ _ (Nat.le_trans (Nat.le_add_right _ 2) h)]

@[simp] theorem reset_timers_live (s : Power) : (reset_timers s).live = s.live := by
  unfold reset_timers
  split <;> rfl

@[simp] theorem reset_timers_eeprom (s : Power) : (reset_timers s).eeprom = s.eeprom := by
  unfold reset_timers
  split <;> rfl

@[simp] theorem param_init_live (s : Power) : (lkbt51_param_init s).live = s.live := rfl

@[simp] theorem param_init_eeprom (s : Power) : (lkbt51_param_init s).eeprom = s.eeprom := rfl

/-! ## A request -/

theorem lpm_set_rejected (s : Power) {data : Bytes} (h : ¬ Allowed (requested data)) :
    (wireless_lpm_set cfg s data).1 = false ∧
      (wireless_lpm_set cfg s data).2 =
        { s with
          backlit_disable_time := (loaded cfg (saved cfg s.eeprom)).1
          connected_idle_time := (loaded cfg (saved cfg s.eeprom)).2 } := by
  have hlow : timeCodec.read data 0 < 5 ∨ timeCodec.read data (0 + timeCodec.size) < 60 := by
    rw [← UInt16.not_le, ← UInt16.not_le]
    exact not_and_or.mp h
  simp only [wireless_lpm_set, if_pos hlow]
  exact ⟨trivial, rfl⟩

theorem lpm_set_accepted (s : Power) {data : Bytes} (h : Allowed (requested data)) :
    (wireless_lpm_set cfg s data).1 = true ∧
      (wireless_lpm_set cfg s data).2 = lkbt51_param_init (reset_timers (wireless_config_save cfg
        { s with
          backlit_disable_time := (requested data).1
          connected_idle_time := (requested data).2 })) := by
  have hhigh : ¬ (timeCodec.read data 0 < 5 ∨ timeCodec.read data (0 + timeCodec.size) < 60) := by
    rw [not_or, UInt16.not_lt, UInt16.not_lt]
    exact h
  simp only [wireless_lpm_set, if_neg hhigh]
  exact ⟨trivial, rfl⟩

theorem lpm_set_accepts_iff (s : Power) (data : Bytes) :
    (wireless_lpm_set cfg s data).1 = true ↔ Allowed (requested data) := by
  constructor
  · intro haccepted
    by_contra h
    rw [(lpm_set_rejected s h).1] at haccepted
    exact Bool.false_ne_true haccepted
  · exact fun h => (lpm_set_accepted s h).1

section Accepted

variable {s : Power} {data : Bytes} (h : Allowed (requested data))
include h

theorem accepted_live : (wireless_lpm_set cfg s data).2.live = requested data := by
  rw [(lpm_set_accepted s h).2, param_init_live, reset_timers_live, save_live]
  rfl

theorem accepted_saved : saved cfg (wireless_lpm_set cfg s data).2.eeprom = requested data := by
  rw [(lpm_set_accepted s h).2, param_init_eeprom, reset_timers_eeprom, saved_save]
  rfl

theorem accepted_outside {a : Nat} (ha : a < cfg.EECONFIG_BASE_WIRELESS_CONFIG ∨
    cfg.EECONFIG_BASE_WIRELESS_CONFIG + 4 ≤ a) :
    (wireless_lpm_set cfg s data).2.eeprom a = s.eeprom a := by
  rw [(lpm_set_accepted s h).2, param_init_eeprom, reset_timers_eeprom,
    save_eeprom_outside _ ha]

end Accepted

/-! ## Runs -/

/-- What is in RAM is what the next load would make of the EEPROM. -/
def Synced (cfg : Config) (s : Power) : Prop := s.live = loaded cfg (saved cfg s.eeprom)

theorem synced_lpm_set (s : Power) (data : Bytes) :
    Synced cfg (wireless_lpm_set cfg s data).2 := by
  by_cases h : Allowed (requested data)
  · unfold Synced
    rw [accepted_live h, accepted_saved h, loaded_of_allowed h]
  · rw [(lpm_set_rejected s h).2]
    rfl

theorem synced_step {s : Power} (hs : Synced cfg s) (x : Input) : Synced cfg (step cfg s x) := by
  cases x with
  | wireless_lpm_set data => exact synced_lpm_set s data
  | connection transport wireless_state => exact hs
  | wireless_config_reset => exact synced_lpm_set s _
  | reboot => exact load_live _

theorem synced_run (eeprom : Bytes) (transport : UInt8) (xs : List Input) :
    Synced cfg (xs.foldl (step cfg) (wireless_init cfg eeprom transport)) :=
  List.foldlRecOn xs _ (load_live _) fun _ hs x _ => synced_step hs x

/-- A request that is refused changes nothing at all, and one that is accepted
stands in RAM, in the EEPROM and after the next start, whatever the EEPROM held
at the first one. -/
theorem lpm_requests_are_atomic (cfg : Config) (eeprom : Bytes) (transport : UInt8)
    (xs : List Input) (data : Bytes) :
    let s := xs.foldl (step cfg) (wireless_init cfg eeprom transport)
    let r := wireless_lpm_set cfg s data
    (r.1 = false → r.2 = s) ∧
      (r.1 = true → r.2.live = requested data ∧ saved cfg r.2.eeprom = requested data ∧
        (wireless_config_load cfg r.2).live = requested data ∧
        (wireless_init cfg r.2.eeprom r.2.transport).live = requested data) := by
  intro s r
  have hs : Synced cfg s := synced_run eeprom transport xs
  constructor
  · intro hrejected
    have h : ¬ Allowed (requested data) := by
      rw [← lpm_set_accepts_iff s data]
      exact ne_true_of_eq_false hrejected
    calc r.2 = { s with
          backlit_disable_time := (loaded cfg (saved cfg s.eeprom)).1
          connected_idle_time := (loaded cfg (saved cfg s.eeprom)).2 } := (lpm_set_rejected s h).2
      _ = s := by rw [← hs]; rfl
  · intro haccepted
    have h := (lpm_set_accepts_iff s data).mp haccepted
    have hload : loaded cfg (saved cfg r.2.eeprom) = requested data := by
      rw [accepted_saved h, loaded_of_allowed h]
    exact ⟨accepted_live h, accepted_saved h, hload, hload⟩

theorem lpm_set_outside (s : Power) (data : Bytes) {a : Nat}
    (ha : a < cfg.EECONFIG_BASE_WIRELESS_CONFIG ∨ cfg.EECONFIG_BASE_WIRELESS_CONFIG + 4 ≤ a) :
    (wireless_lpm_set cfg s data).2.eeprom a = s.eeprom a := by
  by_cases h : Allowed (requested data)
  · exact accepted_outside h ha
  · rw [(lpm_set_rejected s h).2]

theorem step_outside (s : Power) (x : Input) {a : Nat}
    (ha : a < cfg.EECONFIG_BASE_WIRELESS_CONFIG ∨ cfg.EECONFIG_BASE_WIRELESS_CONFIG + 4 ≤ a) :
    (step cfg s x).eeprom a = s.eeprom a := by
  cases x with
  | wireless_lpm_set data => exact lpm_set_outside s data ha
  | connection transport wireless_state => rfl
  | wireless_config_reset => exact lpm_set_outside s _ ha
  | reboot => rfl

/-- In every run a restart gives the settings that are in force, and no byte of the EEPROM but
the four of the settings is changed. -/
theorem restarts_keep_the_settings (cfg : Config) (eeprom : Bytes) (transport : UInt8)
    (xs : List Input) :
    let s := xs.foldl (step cfg) (wireless_init cfg eeprom transport)
    (wireless_init cfg s.eeprom s.transport).live = s.live ∧
      ∀ a, a < cfg.EECONFIG_BASE_WIRELESS_CONFIG ∨ cfg.EECONFIG_BASE_WIRELESS_CONFIG + 4 ≤ a →
        s.eeprom a = eeprom a := by
  intro s
  refine ⟨(synced_run eeprom transport xs).symm, fun a ha => ?_⟩
  have hstart : (wireless_init cfg eeprom transport).eeprom a = eeprom a := rfl
  exact List.foldlRecOn xs (motive := fun s => s.eeprom a = eeprom a) (step cfg) hstart
    fun s hs x _ => (step_outside s x ha).trans hs

end keychron_qmk.wireless.power
