-- The last keys hit, which the reactive effects draw: `rgb_matrix_handle_key_event` and
-- `rgb_task_timers` of `quantum/rgb_matrix/rgb_matrix.c`. A hit that is too old for its
-- timer takes the newest one away.
import KeychronQMK.Lib.Memory
import KeychronQMK.Lib.Recent
import KeychronQMK.Lib.Runs
import Mathlib.Logic.Function.Basic

namespace keychron_qmk.key_hits

open memory recent runs

/-! ## The buffer -/

structure led_point_t where
  x : UInt8
  y : UInt8

/-- What a keyboard defines. The hits are counted in a byte. -/
structure Config where
  RGB_MATRIX_SPLIT : Bool
  RGB_MATRIX_KEYRELEASES : Bool
  RGB_MATRIX_KEYPRESSES : Bool
  LED_HITS_TO_REMEMBER : Nat
  remembers : 0 < LED_HITS_TO_REMEMBER
  in_a_byte : LED_HITS_TO_REMEMBER < 256
  matrix_co : UInt8 → UInt8 → UInt8
  point : UInt8 → led_point_t
  rgb_matrix_map_row_column_to_led_kb : UInt8 → UInt8 → List UInt8

def NO_LED : UInt8 := 255
def UINT16_MAX : UInt32 := 65535

structure last_hit_t where
  count : UInt8
  x : Nat → UInt8
  y : Nat → UInt8
  index : Nat → UInt8
  tick : Nat → UInt16

/-- Some bytes within an array, as the elements that they are. -/
def memcpy {α : Type} (size : Nat) (array : Nat → α) (dst src bytes : Nat) : Nat → α :=
  patch array dst (readBlock array src (bytes / size))

/-- A hit in the buffer. -/
structure Entry where
  x : UInt8
  y : UInt8
  index : UInt8
  tick : UInt16
  deriving DecidableEq

/-- The time of a hit does not fit after some more milliseconds. -/
def expires (deltaTime : UInt32) (tick : UInt16) : Bool := UINT16_MAX - deltaTime < tick.toUInt32

def aged (deltaTime : UInt32) (tick : UInt16) : UInt16 := (tick.toUInt32 + deltaTime).toUInt16

namespace last_hit_t

variable (cfg : Config) (b : last_hit_t)

def entry (i : Nat) : Entry := ⟨b.x i, b.y i, b.index i, b.tick i⟩

def entries : List Entry := (List.range b.count.toNat).map b.entry

/-- The oldest hits make room. -/
def forget (led_count : Nat) : last_hit_t :=
  let kept := cfg.LED_HITS_TO_REMEMBER - led_count
  { count := .ofNat kept
    x := memcpy 1 b.x 0 led_count kept
    y := memcpy 1 b.y 0 led_count kept
    index := memcpy 1 b.index 0 led_count kept
    tick := memcpy 2 b.tick 0 led_count (kept * 2) }

def remember (led : UInt8) : last_hit_t :=
  let index := b.count.toNat
  { count := b.count + 1
    x := Function.update b.x index (cfg.point led).x
    y := Function.update b.y index (cfg.point led).y
    index := Function.update b.index index led
    tick := Function.update b.tick index 0 }

/-- One turn of the loop over the timers. -/
def age_hit (deltaTime : UInt32) (i : Nat) : last_hit_t :=
  if expires deltaTime (b.tick i) then { b with count := b.count - 1 }
  else { b with tick := Function.update b.tick i (aged deltaTime (b.tick i)) }

end last_hit_t

section

variable (cfg : Config)

def rgb_matrix_map_row_column_to_led (row column : UInt8) : List UInt8 :=
  let led := cfg.rgb_matrix_map_row_column_to_led_kb row column
  let led_index := cfg.matrix_co row column
  if led_index ≠ NO_LED then led ++ [led_index] else led

def hit_leds (is_keyboard_master : Bool) (row col : UInt8) (pressed : Bool) : List UInt8 :=
  if ¬ cfg.RGB_MATRIX_SPLIT ∧ ¬ is_keyboard_master then []
  else if cfg.RGB_MATRIX_KEYRELEASES then
    if ¬ pressed then rgb_matrix_map_row_column_to_led cfg row col else []
  else if cfg.RGB_MATRIX_KEYPRESSES then
    if pressed then rgb_matrix_map_row_column_to_led cfg row col else []
  else rgb_matrix_map_row_column_to_led cfg row col

def rgb_matrix_handle_key_event (is_keyboard_master : Bool) (row col : UInt8) (pressed : Bool)
    (b : last_hit_t) : last_hit_t :=
  let led := hit_leds cfg is_keyboard_master row col pressed
  let b := if cfg.LED_HITS_TO_REMEMBER < b.count.toNat + led.length then b.forget cfg led.length
    else b
  led.foldl (fun b led => b.remember cfg led) b

end

/-- The two static variables. -/
structure State where
  rgb_timer_buffer : UInt32
  last_hit_buffer : last_hit_t

namespace State

variable (s : State)

def deltaTime (elapsed_at : UInt32) : UInt32 := elapsed_at - s.rgb_timer_buffer

def rgb_task_timers (elapsed_at now : UInt32) : State :=
  let count := s.last_hit_buffer.count.toNat
  { rgb_timer_buffer := now
    last_hit_buffer := (List.range count).foldl (fun b i => b.age_hit (s.deltaTime elapsed_at) i)
      s.last_hit_buffer }

def rgb_matrix_init (cfg : Config) : State :=
  { s with
    last_hit_buffer.count := 0
    last_hit_buffer.tick := fun i =>
      if i < cfg.LED_HITS_TO_REMEMBER then UINT16_MAX.toUInt16 else s.last_hit_buffer.tick i }

end State

/-! ## The hits as they were -/

/-- A light that a key has hit, and the milliseconds that have been counted since. -/
structure Hit where
  led : UInt8
  age : Nat

def Hit.fits (h : Hit) : Bool := h.age ≤ 65535

def Hit.older (ms : Nat) (h : Hit) : Hit := { h with age := h.age + ms }

def Hit.entry (cfg : Config) (h : Hit) : Entry :=
  ⟨(cfg.point h.led).x, (cfg.point h.led).y, h.led, .ofNat h.age⟩

/-- The static variables, with all hits so far, the oldest first. -/
structure Watched where
  state : State
  hits : List Hit

inductive input where
  | key_event (is_keyboard_master : Bool) (row col : UInt8) (pressed : Bool)
  | task_timers (elapsed_at now : UInt32)

namespace Watched

variable (cfg : Config) (w : Watched)

def start (s : State) : Watched := ⟨s.rgb_matrix_init cfg, []⟩

def step : input → Watched
  | .key_event is_keyboard_master row col pressed =>
    { state.rgb_timer_buffer := w.state.rgb_timer_buffer
      state.last_hit_buffer := rgb_matrix_handle_key_event cfg is_keyboard_master row col pressed
        w.state.last_hit_buffer
      hits := w.hits ++ (hit_leds cfg is_keyboard_master row col pressed).map fun led => ⟨led, 0⟩ }
  | .task_timers elapsed_at now =>
    { state := w.state.rgb_task_timers elapsed_at now
      hits := w.hits.map (.older (w.state.deltaTime elapsed_at).toNat) }

/-- The newest hits whose time fits in 16 bits. -/
def recent : List Hit := (w.hits.filter (·.fits)).rtake cfg.LED_HITS_TO_REMEMBER

/-- The buffer holds these hits and no others, the oldest first, each with its age. -/
def Right : Prop := w.state.last_hit_buffer.entries = (w.recent cfg).map (·.entry cfg)

instance : Decidable (w.Right cfg) :=
  inferInstanceAs (Decidable (w.state.last_hit_buffer.entries = _))

/-- A key has one light, and less than 2^16 ms pass between two calls. -/
def Admits : input → Prop
  | .key_event _ row col _ => (rgb_matrix_map_row_column_to_led cfg row col).length = 1
  | .task_timers elapsed_at _ => (w.state.deltaTime elapsed_at).toNat < 65536

/-- Of the hits in the buffer, no call drops only some. -/
def SameFate : input → Prop
  | .key_event .. => True
  | .task_timers elapsed_at _ =>
    (∀ e ∈ w.state.last_hit_buffer.entries, expires (w.state.deltaTime elapsed_at) e.tick) ∨
      ∀ e ∈ w.state.last_hit_buffer.entries, ¬ expires (w.state.deltaTime elapsed_at) e.tick

instance : ∀ x, Decidable (w.Admits cfg x)
  | .key_event _ row col _ =>
    inferInstanceAs (Decidable ((rgb_matrix_map_row_column_to_led cfg row col).length = 1))
  | .task_timers elapsed_at _ =>
    inferInstanceAs (Decidable ((w.state.deltaTime elapsed_at).toNat < 65536))

instance : ∀ x, Decidable (w.SameFate x)
  | .key_event .. => .isTrue trivial
  | .task_timers elapsed_at _ => inferInstanceAs (Decidable
    ((∀ e ∈ w.state.last_hit_buffer.entries, expires (w.state.deltaTime elapsed_at) e.tick) ∨
      ∀ e ∈ w.state.last_hit_buffer.entries, ¬ expires (w.state.deltaTime elapsed_at) e.tick))

end Watched

/-! ## Hits are added at the end -/

section Laws

variable {cfg : Config} {b : last_hit_t} {deltaTime : UInt32} {n : Nat}

theorem entries_length : b.entries.length = b.count.toNat := by
  simp [last_hit_t.entries]

theorem memcpy_lt {α : Type} (size src : Nat) {kept i : Nat} (array : Nat → α) (hsize : 0 < size)
    (h : i < kept) : memcpy size array 0 src (kept * size) i = array (src + i) := by
  have hin : i - 0 < (readBlock array src kept).length := by simpa using h
  rw [memcpy, Nat.mul_div_cancel _ hsize, patch_in _ _ (Nat.zero_le i) hin]
  simp [readBlock]

theorem entries_forget (hfull : b.count.toNat = cfg.LED_HITS_TO_REMEMBER) :
    (b.forget cfg n).entries = b.entries.drop n := by
  have hbyte := cfg.in_a_byte
  have hcount : (b.forget cfg n).count.toNat = cfg.LED_HITS_TO_REMEMBER - n := by
    simp only [last_hit_t.forget, UInt8.toNat_ofNat']
    omega
  apply List.ext_getElem
  · simp [entries_length, hcount, hfull]
  · intro i hi _
    rw [entries_length, hcount] at hi
    have hbytes {α : Type} (array : Nat → α) :
        memcpy 1 array 0 n (cfg.LED_HITS_TO_REMEMBER - n) i = array (n + i) := by
      simpa using memcpy_lt 1 n array Nat.one_pos hi
    have hticks := memcpy_lt 2 n b.tick Nat.two_pos hi
    simp [last_hit_t.entries, last_hit_t.entry, last_hit_t.forget, hbytes, hticks]

theorem entries_remember (hroom : b.count.toNat < 255) (led : UInt8) :
    (b.remember cfg led).entries = b.entries ++ [(⟨led, 0⟩ : Hit).entry cfg] := by
  have hcount : (b.remember cfg led).count.toNat = b.count.toNat + 1 := by
    simp only [last_hit_t.remember, UInt8.toNat_add, UInt8.reduceToNat]
    omega
  have hlast : (b.remember cfg led).entry b.count.toNat = (⟨led, 0⟩ : Hit).entry cfg := by
    simp [last_hit_t.remember, last_hit_t.entry, Hit.entry]
  have hothers : ∀ i ∈ List.range b.count.toNat, (b.remember cfg led).entry i = b.entry i := by
    intro i hi
    have hne : i ≠ b.count.toNat := (List.mem_range.mp hi).ne
    simp [last_hit_t.remember, last_hit_t.entry, Function.update_of_ne hne]
  rw [last_hit_t.entries, hcount, List.range_succ, List.map_append, List.map_congr_left hothers,
    List.map_singleton, hlast, last_hit_t.entries]

theorem entries_hit (hfits : b.count.toNat ≤ cfg.LED_HITS_TO_REMEMBER) {led : UInt8}
    {is_keyboard_master : Bool} {row col : UInt8} {pressed : Bool}
    (hled : hit_leds cfg is_keyboard_master row col pressed = [led]) :
    (rgb_matrix_handle_key_event cfg is_keyboard_master row col pressed b).entries =
      (if cfg.LED_HITS_TO_REMEMBER < b.entries.length + 1 then b.entries.drop 1 else b.entries) ++
        [(⟨led, 0⟩ : Hit).entry cfg] := by
  have hbyte := cfg.in_a_byte
  simp only [rgb_matrix_handle_key_event, hled, List.length_singleton, List.foldl_cons,
    List.foldl_nil, entries_length]
  split
  · have hforget : (b.forget cfg 1).entries = b.entries.drop 1 := entries_forget (by omega)
    have hroom : (b.forget cfg 1).count.toNat < 255 := by
      rw [← entries_length, hforget, List.length_drop, entries_length]
      omega
    rw [entries_remember hroom, hforget]
  · rw [entries_remember (by omega)]

/-! ## Hits grow old -/

/-- After some turns, the hits that stay have their new times, and the others are counted. -/
theorem age_hits (b : last_hit_t) (deltaTime : UInt32) (hn : n ≤ b.count.toNat) :
    let r := (List.range n).foldl (fun b i => b.age_hit deltaTime i) b
    r.x = b.x ∧ r.y = b.y ∧ r.index = b.index ∧
      r.count.toNat + (List.range n).countP (fun i => expires deltaTime (b.tick i)) =
        b.count.toNat ∧
      ∀ i, r.tick i =
        if i < n ∧ ¬ expires deltaTime (b.tick i) then aged deltaTime (b.tick i) else b.tick i := by
  induction n with
  | zero => simp
  | succ n ih =>
    obtain ⟨hx, hy, hindex, hcount, htick⟩ := ih (Nat.le_of_succ_le hn)
    rw [List.range_succ, List.foldl_append, List.foldl_cons, List.foldl_nil]
    generalize (List.range n).foldl (fun b i => b.age_hit deltaTime i) b = r
      at hx hy hindex hcount htick ⊢
    have hsame : r.tick n = b.tick n := by simp [htick]
    have hle := List.countP_le_length (l := List.range n)
      (p := fun i => expires deltaTime (b.tick i))
    rw [List.length_range] at hle
    simp only [last_hit_t.age_hit, hsame, List.countP_append, List.countP_singleton]
    by_cases hexp : expires deltaTime (b.tick n) = true
    · simp only [hexp, if_true]
      refine ⟨hx, hy, hindex, ?_, fun i => ?_⟩
      · rw [UInt8.toNat_sub]
        simp only [UInt8.reduceToNat]
        have := r.count.toNat_lt
        omega
      · rw [htick]
        by_cases hi : i = n
        · simp [hi, hexp]
        · simp [show i < n + 1 ↔ i < n by omega]
    · simp only [hexp]
      refine ⟨hx, hy, hindex, by simpa using hcount, fun i => ?_⟩
      by_cases hi : i = n
      · simp [hi, hexp]
      · simp [Function.update_of_ne hi, htick, show i < n + 1 ↔ i < n by omega]

def Entry.aged (deltaTime : UInt32) (e : Entry) : Entry :=
  if expires deltaTime e.tick then e else { e with tick := key_hits.aged deltaTime e.tick }

/-- Whichever hits expire, it is the newest ones that leave the buffer. -/
theorem entries_task_timers (s : State) (elapsed_at now : UInt32) :
    (s.rgb_task_timers elapsed_at now).last_hit_buffer.entries =
      (s.last_hit_buffer.entries.map (.aged (s.deltaTime elapsed_at))).take
        (s.last_hit_buffer.entries.countP fun e => !expires (s.deltaTime elapsed_at) e.tick) := by
  obtain ⟨hx, hy, hindex, hcount, htick⟩ :=
    age_hits s.last_hit_buffer (s.deltaTime elapsed_at) le_rfl
  have hkept := List.length_eq_countP_add_countP (l := List.range s.last_hit_buffer.count.toNat)
    fun i => expires (s.deltaTime elapsed_at) (s.last_hit_buffer.tick i)
  simp only [List.length_range, Bool.not_eq_true, Bool.decide_eq_false] at hkept
  have hstays : (s.last_hit_buffer.entries.countP fun e =>
      !expires (s.deltaTime elapsed_at) e.tick) =
        (s.rgb_task_timers elapsed_at now).last_hit_buffer.count.toNat := by
    rw [last_hit_t.entries, List.countP_map]
    simp only [Function.comp_def, last_hit_t.entry, State.rgb_task_timers]
    omega
  have hle : (s.rgb_task_timers elapsed_at now).last_hit_buffer.count.toNat ≤
      s.last_hit_buffer.count.toNat := by
    simp only [State.rgb_task_timers]
    omega
  rw [hstays]
  apply List.ext_getElem
  · simp only [entries_length, List.length_take, List.length_map]
    omega
  · intro i hi _
    rw [entries_length] at hi
    have hentry : (s.rgb_task_timers elapsed_at now).last_hit_buffer.entry i =
        (s.last_hit_buffer.entry i).aged (s.deltaTime elapsed_at) := by
      simp only [last_hit_t.entry, Entry.aged]
      simp only [State.rgb_task_timers]
      rw [hx, hy, hindex, htick]
      by_cases hexp : expires (s.deltaTime elapsed_at) (s.last_hit_buffer.tick i) = true
      · simp [hexp]
      · simp [hexp, show i < s.last_hit_buffer.count.toNat by omega]
    simp only [last_hit_t.entries, List.getElem_take, List.getElem_map, List.getElem_range]
    exact hentry

variable {h : Hit}

theorem Hit.fits_iff : h.fits ↔ h.age ≤ 65535 := by
  simp [Hit.fits]

theorem Hit.older_fits_iff {ms : Nat} : (h.older ms).fits ↔ h.age + ms ≤ 65535 :=
  Hit.fits_iff

theorem expires_entry (hfits : h.fits) (hms : deltaTime.toNat < 65536) :
    expires deltaTime (h.entry cfg).tick ↔ ¬ (h.older deltaTime.toNat).fits := by
  have hage : h.age < 2 ^ 16 := by
    have := Hit.fits_iff.mp hfits
    omega
  have hbound : (UINT16_MAX - deltaTime).toNat = 65535 - deltaTime.toNat := by
    rw [UInt32.toNat_sub_of_le _ _ (UInt32.le_iff_toNat_le.mpr (by simp [UINT16_MAX]; omega))]
    rfl
  simp only [expires, Hit.entry, decide_eq_true_eq, UInt32.lt_iff_toNat_lt, hbound,
    UInt16.toNat_toUInt32, UInt16.toNat_ofNat', Nat.mod_eq_of_lt hage, Hit.older_fits_iff]
  omega

theorem aged_entry (hfits : (h.older deltaTime.toNat).fits) :
    (h.entry cfg).aged deltaTime = (h.older deltaTime.toNat).entry cfg := by
  have hage := Hit.older_fits_iff.mp hfits
  have hstays : ¬ expires deltaTime (h.entry cfg).tick := by
    rw [expires_entry (Hit.fits_iff.mpr (by omega)) (by omega)]
    exact not_not_intro hfits
  have hsum : aged deltaTime (.ofNat h.age) = .ofNat (h.age + deltaTime.toNat) := by
    simp [aged]
  rw [Entry.aged, if_neg hstays]
  simp only [Hit.entry, Hit.older, hsum]

end Laws

/-! ## Runs -/

namespace Watched

variable {cfg : Config} {w : Watched} {x : input}

def Ordered (hits : List Hit) : Prop := hits.Pairwise fun older newer => newer.age ≤ older.age

structure Tracked (cfg : Config) (w : Watched) : Prop where
  ordered : Ordered w.hits
  right : w.Right cfg

theorem tracked_start (cfg : Config) (s : State) : Tracked cfg (start cfg s) where
  ordered := List.Pairwise.nil
  right := by simp [Right, recent, start, State.rgb_matrix_init, last_hit_t.entries]

theorem Tracked.count_le (h : Tracked cfg w) :
    w.state.last_hit_buffer.count.toNat ≤ cfg.LED_HITS_TO_REMEMBER := by
  rw [← entries_length, h.right, List.length_map, recent, length_rtake]
  exact Nat.min_le_left _ _

theorem hit_leds_length (cfg : Config) (is_keyboard_master : Bool) (row col : UInt8) (pressed : Bool) :
    (hit_leds cfg is_keyboard_master row col pressed).length ≤
      (rgb_matrix_map_row_column_to_led cfg row col).length := by
  unfold hit_leds
  split_ifs <;> simp

theorem Tracked.key_event (h : Tracked cfg w) (is_keyboard_master : Bool) (row col : UInt8)
    (pressed : Bool) (hx : w.Admits cfg (.key_event is_keyboard_master row col pressed)) :
    Tracked cfg (w.step cfg (.key_event is_keyboard_master row col pressed)) := by
  have hcount := h.count_le
  have hone := hx ▸ hit_leds_length cfg is_keyboard_master row col pressed
  rcases hled : hit_leds cfg is_keyboard_master row col pressed with _ | ⟨led, _ | ⟨other, more⟩⟩
  · have hsame : w.step cfg (.key_event is_keyboard_master row col pressed) = w := by
      simp [step, rgb_matrix_handle_key_event, hled, Nat.not_lt.mpr hcount]
    exact hsame.symm ▸ h
  · have hright : w.state.last_hit_buffer.entries = (w.recent cfg).map (·.entry cfg) := h.right
    constructor
    · simp only [step, hled, List.map_singleton]
      exact List.pairwise_append.mpr ⟨h.ordered, List.pairwise_singleton _ _, by simp⟩
    · have hnew : (w.hits ++ [Hit.mk led 0]).filter (·.fits) =
          w.hits.filter (·.fits) ++ [Hit.mk led 0] := by
        simp [Hit.fits]
      simp only [Right, recent, step, hled, List.map_singleton, hnew]
      rw [entries_hit hcount hled, hright, ← List.map_drop, rtake_append_singleton cfg.remembers]
      simp only [List.length_map, List.map_append, List.map_singleton, recent]
      split <;> rfl
  · simp [hled] at hone

theorem recent_timers (h : Ordered w.hits) (elapsed_at now : UInt32) :
    (w.step cfg (.task_timers elapsed_at now)).recent cfg =
      ((w.recent cfg).filter fun hit =>
        (hit.older (w.state.deltaTime elapsed_at).toNat).fits).map
          (.older (w.state.deltaTime elapsed_at).toNat) := by
  generalize hms : (w.state.deltaTime elapsed_at).toNat = ms
  have hnewer : (w.hits.filter (·.fits)).Pairwise fun older newer =>
      (older.older ms).fits → (newer.older ms).fits := by
    refine (h.filter _).imp fun {older newer} hle hold => ?_
    rw [Hit.older_fits_iff] at hold ⊢
    omega
  have hstill : w.hits.filter (fun hit => (hit.older ms).fits) =
      (w.hits.filter (·.fits)).filter fun hit => (hit.older ms).fits := by
    rw [List.filter_filter]
    refine List.filter_congr fun hit _ => ?_
    simp only [Hit.fits, Hit.older]
    grind
  rw [recent, recent, filter_rtake hnewer, ← rtake_map, ← hstill, step, hms, List.filter_map]
  rfl

variable {elapsed_at now : UInt32}

theorem expires_recent (hx : w.Admits cfg (.task_timers elapsed_at now)) (hit : Hit)
    (hhit : hit ∈ w.recent cfg) :
    expires (w.state.deltaTime elapsed_at) (hit.entry cfg).tick ↔
      ¬ (hit.older (w.state.deltaTime elapsed_at).toNat).fits :=
  expires_entry (List.mem_filter.mp (List.mem_of_mem_drop hhit)).2 hx

theorem Tracked.task_timers (h : Tracked cfg w) (elapsed_at now : UInt32)
    (hx : w.Admits cfg (.task_timers elapsed_at now))
    (hsame : w.SameFate (.task_timers elapsed_at now)) :
    Tracked cfg (w.step cfg (.task_timers elapsed_at now)) where
  ordered := by
    rw [step, Ordered, List.pairwise_map]
    exact h.ordered.imp fun hle => Nat.add_le_add_right hle _
  right := by
    have hright : w.state.last_hit_buffer.entries = (w.recent cfg).map (·.entry cfg) := h.right
    have hexpires := expires_recent hx
    rw [Right, recent_timers h.ordered]
    simp only [SameFate, hright, List.forall_mem_map] at hsame
    rw [step, entries_task_timers, hright]
    rcases hsame with hall | hnone
    · have hgone : (w.recent cfg).filter (fun hit =>
          (hit.older (w.state.deltaTime elapsed_at).toNat).fits) = [] :=
        List.filter_eq_nil_iff.mpr fun hit hhit => (hexpires hit hhit).mp (hall hit hhit)
      have hnone : (((w.recent cfg).map (·.entry cfg)).countP fun e =>
          !expires (w.state.deltaTime elapsed_at) e.tick) = 0 :=
        List.countP_eq_zero.mpr (List.forall_mem_map.mpr fun hit hhit => by simp [hall hit hhit])
      rw [hgone, hnone, List.take_zero, List.map_nil, List.map_nil]
    · have hkept : (w.recent cfg).filter (fun hit =>
          (hit.older (w.state.deltaTime elapsed_at).toNat).fits) = w.recent cfg :=
        List.filter_eq_self.mpr fun hit hhit =>
          not_not.mp (mt (hexpires hit hhit).mpr (hnone hit hhit))
      have hall : (((w.recent cfg).map (·.entry cfg)).countP fun e =>
          !expires (w.state.deltaTime elapsed_at) e.tick) =
            ((w.recent cfg).map (·.entry cfg)).length :=
        List.countP_eq_length.mpr (List.forall_mem_map.mpr fun hit hhit => by
          simp [hnone hit hhit])
      rw [hkept, hall, List.take_of_length_le (by rw [List.length_map]), List.map_map,
        List.map_map]
      refine List.map_congr_left fun hit hhit => ?_
      have hfits := not_not.mp (mt (hexpires hit hhit).mpr (hnone hit hhit))
      rw [Function.comp_apply, Function.comp_apply, aged_entry hfits]

theorem Tracked.step (h : Tracked cfg w) (hx : w.Admits cfg x) (hsame : w.SameFate x) :
    Tracked cfg (w.step cfg x) := by
  cases x with
  | key_event is_keyboard_master row col pressed =>
    exact h.key_event is_keyboard_master row col pressed hx
  | task_timers elapsed_at now => exact h.task_timers elapsed_at now hx hsame

/-- In every run in which no call drops only some of the hits, the buffer holds the newest hits
whose age fits, each with its age. -/
theorem the_hits_are_right_while_they_share_their_fate (cfg : Config) (s : State)
    (xs : List input) (hxs : Along (step cfg) (Admits cfg) (start cfg s) xs)
    (hsame : Along (step cfg) SameFate (start cfg s) xs) :
    (xs.foldl (step cfg) (start cfg s)).Right cfg :=
  (Along.invariant (fun _ _ h hx => h.step hx.1 hx.2) (tracked_start cfg s)
    (Along.and.mpr ⟨hxs, hsame⟩)).right

/-! ## An old hit and a new one -/

theorem eight_hits : 0 < 8 := by decide

/-- Each column has the light of its number. -/
def oneRow : Config where
  RGB_MATRIX_SPLIT := false
  RGB_MATRIX_KEYRELEASES := false
  RGB_MATRIX_KEYPRESSES := true
  LED_HITS_TO_REMEMBER := 8
  remembers := eight_hits
  in_a_byte := by decide
  matrix_co _ col := col
  point led := ⟨led, 0⟩
  rgb_matrix_map_row_column_to_led_kb _ _ := []

def atRest : State := ⟨0, 0, fun _ => 0, fun _ => 0, fun _ => 0, fun _ => 0⟩

/-- Two hits age by the same time and go together. -/
def together : List input :=
  [.key_event true 0 1 true, .key_event true 0 2 true, .task_timers 60000 60000,
    .task_timers 66000 66000, .key_event true 0 3 true, .task_timers 66010 66011]

theorem hits_together_are_right :
    (together.foldl (step oneRow) (start oneRow atRest)).Right oneRow :=
  the_hits_are_right_while_they_share_their_fate oneRow atRest together (by decide) (by decide)

/-- A second hit comes a minute after the first, which expires six seconds later. -/
def oldAndNew : List input :=
  [.key_event true 0 1 true, .task_timers 60000 60000, .key_event true 0 2 true,
    .task_timers 66000 66000]

/-- The buffer keeps the first hit, with the age of a minute, and not the second. -/
theorem an_old_hit_removes_a_new_one :
    Along (step oneRow) (Admits oneRow) (start oneRow atRest) oldAndNew ∧
      (oldAndNew.foldl (step oneRow) (start oneRow atRest)).state.last_hit_buffer.entries =
        [⟨1, 0, 1, 60000⟩] ∧
      ((oldAndNew.foldl (step oneRow) (start oneRow atRest)).recent oneRow).map (·.entry oneRow) =
        [⟨2, 0, 2, 6000⟩] ∧
      ¬ (oldAndNew.foldl (step oneRow) (start oneRow atRest)).Right oneRow := by
  decide

end Watched

end keychron_qmk.key_hits
