-- The bytes of the CKBT51 module, as `ckbt51_task` of `ckbt51.c` takes them
-- from the queue of the UART, and the event handler it calls. RAW_ENABLE is
-- defined.
import KeychronQMK.Wireless.Module

namespace keychron_qmk.ckbt51

open wireless

def PACKECT_HEADER_LEN : Nat := 5

def BUF_SIZE : Nat := 32

/-! ## The event handler -/

def CKBT51_CMD_SEND_KB : UInt8 := 0x11
def CKBT51_CMD_SEND_KB_NKRO : UInt8 := 0x12
def CKBT51_CMD_SEND_CONSUMER : UInt8 := 0x13
def CKBT51_CMD_SEND_SYSTEM : UInt8 := 0x14
def CKBT51_CMD_SEND_MOUSE : UInt8 := 0x16
def CKBT51_CMD_READ_STATE_REG : UInt8 := 0x25

def CKBT51_EVT_ACK : UInt8 := 0xA1
def CKBT51_EVT_QUERY_RSP : UInt8 := 0xA2
def CKBT51_EVT_OTA_RSP : UInt8 := 0xA3
def CKBT51_EVT_RESET : UInt8 := 0xB0
def CKBT51_EVT_CONNECTION : UInt8 := 0xB3
def CKBT51_EVT_HID_EVENT : UInt8 := 0xB4
def CKBT51_EVT_BATTERY : UInt8 := 0xB5

def DEFAULT_REPORT_INVERVAL_MS : UInt8 := 3

inductive Call where
  | report_buffer_set_retry (times : UInt8)
  | report_buffer_set_inverval (interval : UInt8)
  | ckbt51_default_ack_handler (len : UInt8)
  | ckbt51_send_conn_evt_ack
  | battery_calculate_voltage (vol_adc : Nat)
  | ckbt51_dfu_tx (data : List UInt8) (sn : UInt8)
  | wireless_event_enqueue (event : wireless_event_t)
  deriving DecidableEq

/-- The calls of the handler, the offsets of `data` that it reads, and the two
static variables after it. -/
structure Handled where
  calls : List Call
  reads : List Nat
  reg_offset : UInt8
  factory_reset : Bool

section Handler

variable (data : Nat → UInt8) (len sn reg_offset : UInt8) (factory_reset : Bool)

def ack_handler : Handled :=
  if data 1 ∈ [CKBT51_CMD_SEND_KB, CKBT51_CMD_SEND_KB_NKRO, CKBT51_CMD_SEND_CONSUMER,
      CKBT51_CMD_SEND_SYSTEM, CKBT51_CMD_SEND_MOUSE] then
    let calls :=
      if data 2 = 0 then
        [.report_buffer_set_retry 0, .report_buffer_set_inverval DEFAULT_REPORT_INVERVAL_MS]
      else if data 2 = 2 then
        [.report_buffer_set_retry 0,
          .report_buffer_set_inverval (DEFAULT_REPORT_INVERVAL_MS + 5)]
      else if data 2 = 3 then [.report_buffer_set_retry 10]
      else []
    ⟨calls, [1, 2], reg_offset, factory_reset⟩
  else ⟨[.ckbt51_default_ack_handler len], [1], reg_offset, factory_reset⟩

/-- The 16-bit value whose low byte is `lo`. -/
def word (lo hi : UInt8) : Nat := lo.toNat ||| hi.toNat <<< 8

def query_rsp_handler : Handled :=
  if data 2 ≠ 0 then ⟨[], [2], reg_offset, factory_reset⟩
  else if data 1 = CKBT51_CMD_READ_STATE_REG then
    if reg_offset = 5 then
      ⟨[.battery_calculate_voltage (word (data 3) (data 4))], [2, 1, 3, 4], 0xFF, factory_reset⟩
    else ⟨[], [2, 1], 0xFF, factory_reset⟩
  else ⟨[], [2, 1], reg_offset, factory_reset⟩

def connectionStates : List (UInt8 × event_type_t) :=
  [(0x20, .EVT_CONNECTED), (0x21, .EVT_DISCOVERABLE), (0x22, .EVT_RECONNECTING),
    (0x23, .EVT_DISCONNECTED), (0x24, .EVT_BT_PINCODE_ENTRY), (0x25, .EVT_EXIT_BT_PINCODE_ENTRY)]

/-- A disconnection after a factory reset says so, once. -/
def connection_handler : Handled :=
  let after_reset : Bool := data 0 = 0x23 ∧ factory_reset
  let calls :=
    match connectionStates.lookup (data 0) with
    | some evt_type =>
      [.ckbt51_send_conn_evt_ack,
        .wireless_event_enqueue ⟨evt_type, .byte (data 2), if after_reset then 1 else 0⟩]
    | none => [.ckbt51_send_conn_evt_ack]
  ⟨calls, [0, 2], reg_offset, factory_reset && !after_reset⟩

def ckbt51_event_handler (evt_type : UInt8) : Handled :=
  if evt_type = CKBT51_EVT_ACK then ack_handler data len reg_offset factory_reset
  else if evt_type = CKBT51_EVT_RESET then
    ⟨[.wireless_event_enqueue ⟨.EVT_RESET, .byte (data 0), 0⟩], [0], reg_offset, factory_reset⟩
  else if evt_type = CKBT51_EVT_CONNECTION then connection_handler data reg_offset factory_reset
  else if evt_type = CKBT51_EVT_HID_EVENT then
    ⟨[.wireless_event_enqueue ⟨.EVT_HID_INDICATOR, .byte (data 0), 0⟩], [0], reg_offset,
      factory_reset⟩
  else if evt_type = CKBT51_EVT_QUERY_RSP then query_rsp_handler data reg_offset factory_reset
  else if evt_type = CKBT51_EVT_OTA_RSP then
    ⟨[.ckbt51_dfu_tx ((List.range len.toNat).map data) sn], List.range len.toNat, reg_offset,
      factory_reset⟩
  else if evt_type = CKBT51_EVT_BATTERY then
    if data 0 = 1 then
      ⟨[.battery_calculate_voltage (word (data 1) (data 2))], [0, 1, 2], reg_offset,
        factory_reset⟩
    else ⟨[], [0], reg_offset, factory_reset⟩
  -- the events of LE connection and host type only print, as unknown ones do
  else ⟨[], [], reg_offset, factory_reset⟩

end Handler

/-! ## The task -/

/-- A header with the bytes that it announces. `start` says how many bytes
were taken from the queue before it. -/
structure Message where
  start : Nat
  len : UInt8
  sn : UInt8
  body : List UInt8
  deriving DecidableEq

/-- A call of the event handler, for the message of this start and length. -/
structure Dispatch where
  start : Nat
  received : UInt8
  evt_type : UInt8
  data : List UInt8
  len : UInt8
  sn : UInt8
  deriving DecidableEq

/-- The static variables and the queue of the UART. How many bytes were
taken from it, the indices at which buffers were accessed, the dispatches
and the calls are kept for the record. -/
structure Ckbt51 where
  wait_for_new_pkt : Bool
  len : UInt8
  sn : UInt8
  reg_offset : UInt8
  factory_reset : Bool
  iqueue : List UInt8
  consumed : Nat
  accesses : List Int
  dispatches : List Dispatch
  calls : List Call

def Ckbt51.zero : Ckbt51 where
  wait_for_new_pkt := true
  len := 0xff
  sn := 0
  reg_offset := 0xFF
  factory_reset := false
  iqueue := []
  consumed := 0
  accesses := []
  dispatches := []
  calls := []

namespace Message

/-- The buffer with the message in it, and `outside` the memory around it. -/
def buf (outside : Int → UInt8) (m : Message) (i : Int) : UInt8 :=
  if 0 ≤ i ∧ i < m.len.toNat then m.body.getD i.toNat 0
  else if 0 ≤ i ∧ i < BUF_SIZE then 0
  else outside i

variable (outside : Int → UInt8) (m : Message)

def checksum : UInt16 :=
  (List.range (m.len.toNat - 2)).foldl (fun sum (i : Nat) => sum + (m.buf outside i).toUInt16) 0

def low_ok : Prop := (m.checksum outside).toUInt8 = m.buf outside ((m.len.toNat : Int) - 2)

def checksum_ok : Prop :=
  m.low_ok outside ∧ (m.checksum outside >>> 8).toUInt8 = m.buf outside ((m.len.toNat : Int) - 1)

instance : Decidable (m.low_ok outside) := inferInstanceAs (Decidable (_ = _))

instance : Decidable (m.checksum_ok outside) := inferInstanceAs (Decidable (_ ∧ _))

/-- The indices that are written, those that are summed, and the last two. -/
def accesses : List Int :=
  (List.range m.len.toNat).map (fun i : Nat => (i : Int)) ++
    (List.range (m.len.toNat - 2)).map (fun i : Nat => (i : Int)) ++
    ((m.len.toNat : Int) - 2) ::
      (if m.low_ok outside then [(m.len.toNat : Int) - 1] else [])

def dispatch : Dispatch where
  start := m.start
  received := m.len
  evt_type := m.buf outside 0
  data := (List.range (m.len - 3).toNat).map fun i : Nat => m.buf outside (1 + i)
  len := m.len - 3
  sn := m.sn

end Message

namespace Ckbt51

/-- The task calls it only when the queue holds a byte. -/
def sdGet (s : Ckbt51) : UInt8 × Ckbt51 :=
  (s.iqueue.headD 0, { s with iqueue := s.iqueue.tail, consumed := s.consumed + 1 })

/-- The accesses of a buffer. -/
def touch (indices : List Int) (s : Ckbt51) : Ckbt51 :=
  { s with accesses := s.accesses ++ indices }

def read_header (s : Ckbt51) : Ckbt51 :=
  let (c, s) := s.sdGet
  if c = 0xAA then
    let (c, s) := s.sdGet
    if c = 0x57 then
      let (len, s) := s.sdGet
      let (complement, s) := s.sdGet
      let (sn, s) := s.sdGet
      let s := s.touch [0, 1, 2, 0, 1]
      if ~~~len = complement then
        { s.touch [0, 2] with len := len, sn := sn, wait_for_new_pkt := false }
      else s
    else s
  else s

def dispatch_message (outside : Int → UInt8) (m : Message) (s : Ckbt51) : Ckbt51 :=
  if m.checksum_ok outside then
    let handled := ckbt51_event_handler (fun i => m.buf outside (1 + i)) (m.len - 3) m.sn
      s.reg_offset s.factory_reset (m.buf outside 0)
    { s.touch (0 :: handled.reads.map fun i : Nat => (1 + i : Int)) with
      dispatches := s.dispatches ++ [m.dispatch outside]
      calls := s.calls ++ handled.calls
      reg_offset := handled.reg_offset
      factory_reset := handled.factory_reset }
  else s

def read_body (outside : Int → UInt8) (s : Ckbt51) : Ckbt51 :=
  let m : Message := ⟨s.consumed - PACKECT_HEADER_LEN, s.len, s.sn, s.iqueue.take s.len.toNat⟩
  dispatch_message outside m
    { s.touch (m.accesses outside) with
      iqueue := s.iqueue.drop s.len.toNat
      consumed := s.consumed + s.len.toNat
      wait_for_new_pkt := true }

def ckbt51_task (outside : Int → UInt8) (s : Ckbt51) : Ckbt51 :=
  let s :=
    if s.wait_for_new_pkt ∧ PACKECT_HEADER_LEN ≤ s.iqueue.length then s.read_header else s
  if ¬ s.wait_for_new_pkt ∧ s.len.toNat ≤ s.iqueue.length then s.read_body outside else s

/-! ## Runs -/

/-- What happens between two instants: bytes arrive, the task is called, or
other code of the driver sets its static variables. -/
inductive Event where
  | rx (bytes : List UInt8)
  | task
  | read_state_reg (reg : UInt8)
  | factory_reset

/-- The memory around the buffers is `outside`. -/
def step (outside : Int → UInt8) (s : Ckbt51) : Event → Ckbt51
  | .rx bytes => { s with iqueue := s.iqueue ++ bytes }
  | .task => s.ckbt51_task outside
  | .read_state_reg reg => { s with reg_offset := reg }
  | .factory_reset => { s with factory_reset := true }

def run (outside : Int → UInt8) (events : List Event) : Ckbt51 :=
  events.foldl (step outside) .zero

def Event.bytes : Event → List UInt8
  | rx bytes => bytes
  | _ => []

def stream (events : List Event) : List UInt8 := events.flatMap Event.bytes

end Ckbt51

end keychron_qmk.ckbt51
