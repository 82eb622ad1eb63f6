-- The strings that are typed, after `send_string.c`: characters, and codes
-- behind a prefix that tap, hold and release keys and wait. The string comes
-- from a getter, byte by byte.
import Mathlib.Algebra.Ring.Nat
import Mathlib.Order.Nat

namespace keychron_qmk.send_string

def SS_QMK_PREFIX : UInt8 := 1

def SS_TAP_CODE : UInt8 := 1

def SS_DOWN_CODE : UInt8 := 2

def SS_UP_CODE : UInt8 := 3

def SS_DELAY_CODE : UInt8 := 4

def KC_SPACE : UInt8 := 0x2C

def KC_LEFT_SHIFT : UInt8 := 0xE1

def KC_RIGHT_ALT : UInt8 := 0xE6

/-! ## What a string does -/

/-- `ascii_to_keycode_lut`, `ascii_to_shift_lut`, `ascii_to_altgr_lut` and
`ascii_to_dead_lut`. -/
inductive Lut
  | keycode
  | shift
  | altgr
  | dead
  deriving DecidableEq

/-- The bytes of a table. -/
def Lut.size : Lut → Nat
  | keycode => 128
  | _ => 16

/-- A call, a byte of a table that is read, or a signed result. -/
inductive Event
  | lookup (mem : Lut) (index : Nat)
  | signed (value : Int)
  | register_code (keycode : UInt8)
  | unregister_code (keycode : UInt8)
  | tap_code (keycode : UInt8)
  | tap_code_delay (keycode interval : UInt8)
  | send_string_task
  | wait_ms (ms : Int)
  deriving DecidableEq

/-- A turn of the loop: the character that it takes first, and what it does. -/
structure Turn where
  ascii_code : UInt8
  events : List Event
  deriving DecidableEq

/-- The tables, which a keymap may replace, with the memory behind them, and
whether a build is wireless. -/
structure Config where
  lut : Lut → Nat → UInt8
  LK_WIRELESS_ENABLE : Bool

section

variable (cfg : Config) (interval : UInt8)

def task : List Event := if cfg.LK_WIRELESS_ENABLE then [.send_string_task] else []

/-! ## Characters -/

def PGM_LOADBIT (mem : Lut) (pos : UInt8) : Bool :=
  cfg.lut mem (pos.toNat / 8) >>> (pos % 8) &&& 0x01 = 1

/-- A call, and the wait after it. -/
def paced (e : Event) : List Event :=
  [e] ++ (if interval = 0 then [] else task cfg) ++ [.wait_ms interval.toNat]

def send_char_with_delay (ascii_code : UInt8) : List Event :=
  let keycode := cfg.lut .keycode ascii_code.toNat
  let is_shifted := PGM_LOADBIT cfg .shift ascii_code
  let is_altgred := PGM_LOADBIT cfg .altgr ascii_code
  let is_dead := PGM_LOADBIT cfg .dead ascii_code
  [.lookup .keycode ascii_code.toNat, .lookup .shift (ascii_code.toNat / 8),
    .lookup .altgr (ascii_code.toNat / 8), .lookup .dead (ascii_code.toNat / 8)] ++
  (if is_shifted then paced cfg interval (.register_code KC_LEFT_SHIFT) else []) ++
  (if is_altgred then paced cfg interval (.register_code KC_RIGHT_ALT) else []) ++
  [.tap_code_delay keycode interval, .wait_ms interval.toNat] ++
  (if is_altgred then paced cfg interval (.unregister_code KC_RIGHT_ALT) else []) ++
  (if is_shifted then paced cfg interval (.unregister_code KC_LEFT_SHIFT) else []) ++
  (if is_dead then paced cfg interval (.tap_code KC_SPACE) else [])

/-! ## Codes -/

/-- The next byte, and the bytes behind it. Behind the last one there are
zeros, which `nvm_dynamic_keymap_macro_read_buffer` gives past its end. -/
def getter : List UInt8 → UInt8 × List UInt8
  | [] => (0, [])
  | b :: s => (b, s)

@[simp] theorem getter_cons (b : UInt8) (s : List UInt8) : getter (b :: s) = (b, s) := rfl

def isdigit (c : UInt8) : Bool := 48 ≤ c && c ≤ 57

def toInt (value : Int) : Int := value.bmod (2 ^ 32)

/-- The loop over the digits of a delay: the byte that ends it, the delay, and
the bytes behind. -/
def read_delay (ms : Int) : List UInt8 → UInt8 × Int × List Event × List UInt8
  | [] => (0, ms, [], [])
  | c :: s =>
    if isdigit c then
      let tens := ms * 10
      let sum := toInt tens + (c.toNat - 48)
      let (ascii_code, ms, events, s) := read_delay (toInt sum) s
      (ascii_code, ms, .signed tens :: .signed sum :: events, s)
    else (c, ms, [], s)

/-- What follows a prefix: the last character that is read as one, the calls,
and the bytes behind. -/
def send_code (s : List UInt8) : UInt8 × List Event × List UInt8 :=
  let (ascii_code, s) := getter s
  if ascii_code = SS_TAP_CODE then
    let (keycode, s) := getter s
    (ascii_code, [.tap_code keycode], s)
  else if ascii_code = SS_DOWN_CODE then
    let (keycode, s) := getter s
    (ascii_code, .register_code keycode :: task cfg, s)
  else if ascii_code = SS_UP_CODE then
    let (keycode, s) := getter s
    (ascii_code, .unregister_code keycode :: task cfg, s)
  else if ascii_code = SS_DELAY_CODE then
    let (ascii_code, ms, events, s) := read_delay 0 s
    (ascii_code, events ++ [.wait_ms ms], s)
  else (ascii_code, [], s)

/-! ## Strings -/

theorem getter_length (s : List UInt8) : (getter s).2.length ≤ s.length := by
  cases s with
  | nil => exact le_rfl
  | cons b s => exact Nat.le_succ _

theorem read_delay_length (ms : Int) (s : List UInt8) :
    (read_delay ms s).2.2.2.length ≤ s.length := by
  induction s generalizing ms with
  | nil => exact le_rfl
  | cons c s ih =>
    unfold read_delay
    split
    · exact (ih _).trans (Nat.le_succ _)
    · exact Nat.le_succ _

theorem send_code_length (s : List UInt8) : (send_code cfg s).2.2.length ≤ s.length := by
  have hfirst := getter_length s
  have hsecond := (getter_length (getter s).2).trans hfirst
  unfold send_code
  dsimp only
  split_ifs
  · exact hsecond
  · exact hsecond
  · exact hsecond
  · exact (read_delay_length 0 _).trans hfirst
  · exact hfirst

theorem getter_lt {s : List UInt8} (h : (getter s).1 ≠ 0) : (getter s).2.length < s.length := by
  cases s with
  | nil => exact absurd rfl h
  | cons b s => exact Nat.lt_succ_self _

/-- The turns of the loop, and the bytes that it leaves. -/
def send_string_with_delay_impl (s : List UInt8) : List Turn × List UInt8 :=
  if h : (getter s).1 = 0 then ([], (getter s).2)
  else if (getter s).1 = SS_QMK_PREFIX then
    let code := send_code cfg (getter s).2
    let turn : Turn := ⟨(getter s).1, code.2.1 ++ task cfg ++ [.wait_ms interval.toNat]⟩
    -- a delay that ends with a null, or a prefix that does, ends the string
    if code.1 = 0 then ([turn], code.2.2)
    else
      let rest := send_string_with_delay_impl code.2.2
      (turn :: rest.1, rest.2)
  else
    let rest := send_string_with_delay_impl (getter s).2
    (⟨(getter s).1, send_char_with_delay cfg interval (getter s).1⟩ :: rest.1, rest.2)
termination_by s.length
decreasing_by
  · exact (send_code_length cfg _).trans_lt (getter_lt h)
  · exact getter_lt h

end

end keychron_qmk.send_string
