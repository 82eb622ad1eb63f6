-- The messages of the module, as `lkbt51_task` of `lkbt51.c` reads them, and
-- the event queue of `wireless.c` with the task that empties it. RAW_ENABLE
-- and WILRESS_RAW_ENABLE are defined.
import KeychronQMK.Wireless.Funs

namespace keychron_qmk.wireless

open ring

/-- The memory from an address on. -/
abbrev Bytes := Nat → UInt8

/-! ## The event queue -/

inductive event_type_t
  | EVT_NONE
  | EVT_RESET
  | EVT_DISCOVERABLE
  | EVT_RECONNECTING
  | EVT_CONNECTED
  | EVT_DISCONNECTED
  | EVT_BT_PINCODE_ENTRY
  | EVT_EXIT_BT_PINCODE_ENTRY
  | EVT_SLEEP
  | EVT_HID_SET_PROTOCOL
  | EVT_HID_INDICATOR
  | EVT_CONECTION_INTERVAL
  | EVT_RAW_HID
  deriving DecidableEq

/-- The union of the parameters: a byte, or the pointer to the one buffer of
the raw HID data. -/
inductive Params
  | byte (x : UInt8)
  | raw_hid_data
  deriving DecidableEq

structure wireless_event_t where
  evt_type : event_type_t
  params : Params
  data : UInt8
  deriving DecidableEq

def wireless_event_t.zero : wireless_event_t := ⟨.EVT_NONE, .byte 0, 0⟩

def WT_EVENT_QUEUE_SIZE : Nat := 16

/-- The static variables of `lkbt51.c` and the event queue, beside the radio. -/
structure Lkbt51 where
  wait_for_new_pkt : Bool
  len : UInt8
  sn : UInt8
  raw_hid_data : Fin 64 → UInt8
  factory_reset_timer : UInt32
  wireless_event_queue : Ring wireless_event_t WT_EVENT_QUEUE_SIZE
  radio : Wireless

/-- The variables at power-up. -/
def Lkbt51.zero : Lkbt51 where
  wait_for_new_pkt := true
  len := 0xff
  sn := 0
  raw_hid_data := fun _ => 0
  factory_reset_timer := 0
  wireless_event_queue := ⟨fun _ => .zero, ⟨0, by decide⟩, ⟨0, by decide⟩⟩
  radio := .zero

namespace Lkbt51

/-- Where the queue is full, the oldest event makes place. -/
def wireless_event_enqueue (s : Lkbt51) (event : wireless_event_t) : Lkbt51 :=
  { s with wireless_event_queue := s.wireless_event_queue.pushOver event }

def wireless_event_dequeue (s : Lkbt51) : Option (wireless_event_t × Lkbt51) :=
  if s.wireless_event_queue.isEmpty then none
  else some (s.wireless_event_queue.oldest,
    { s with wireless_event_queue := s.wireless_event_queue.drop })

end Lkbt51

/-! ## Status -/

def LK_EVT_MSK_CONNECTION : UInt8 := 1
def LK_EVT_MSK_LED : UInt8 := 2
def LK_EVT_MSK_RESET : UInt8 := 8
def LK_EVT_MSK_RPT_INTERVAL : UInt8 := 16

def LKBT51_CONNECTED : UInt8 := 0x20
def LKBT51_DISCOVERABLE : UInt8 := 0x21
def LKBT51_RECONNECTING : UInt8 := 0x22
def LKBT51_DISCONNECTED : UInt8 := 0x23
def LKBT51_PINCODE_ENTRY : UInt8 := 0x24
def LKBT51_EXIT_PINCODE_ENTRY : UInt8 := 0x25
def LKBT51_SLEEP : UInt8 := 0x26

def connectionTypes : List (UInt8 × event_type_t) :=
  [(LKBT51_CONNECTED, .EVT_CONNECTED), (LKBT51_DISCOVERABLE, .EVT_DISCOVERABLE),
    (LKBT51_RECONNECTING, .EVT_RECONNECTING), (LKBT51_DISCONNECTED, .EVT_DISCONNECTED),
    (LKBT51_PINCODE_ENTRY, .EVT_BT_PINCODE_ENTRY),
    (LKBT51_EXIT_PINCODE_ENTRY, .EVT_EXIT_BT_PINCODE_ENTRY), (LKBT51_SLEEP, .EVT_SLEEP)]

def connection_interval (x : UInt8) : UInt16 :=
  let interval : UInt32 := (x &&& 0x7F).toUInt32 * if x &&& 0x80 ≠ 0 then 1250 else 125
  let connection_interval := (interval / 1000).toUInt16
  if 7 < connection_interval then connection_interval / 3 else connection_interval

namespace Lkbt51

variable (s : Lkbt51) (clock : Nat) (pbuf : Bytes)

def factory_reset : Prop :=
  pbuf 2 = LKBT51_DISCONNECTED ∧ s.factory_reset_timer ≠ 0 ∧
    timer_read32 clock - s.factory_reset_timer < 3000

instance : Decidable (s.factory_reset clock pbuf) := inferInstanceAs (Decidable (_ ∧ _ ∧ _))

def reset_event : wireless_event_t := ⟨.EVT_RESET, .byte (pbuf 2), 0⟩

/-- The connection event. It is made of the event before it: the type stays
where the connection state is not known. -/
def connection_event : wireless_event_t where
  evt_type :=
    match connectionTypes.lookup (pbuf 2) with
    | some type => type
    | none => if pbuf 1 &&& LK_EVT_MSK_RESET ≠ 0 then .EVT_RESET else .EVT_NONE
  params := .byte (pbuf 3)
  data := if s.factory_reset clock pbuf then 1 else 0

def led_event : wireless_event_t := ⟨.EVT_HID_INDICATOR, .byte (pbuf 4), 0⟩

def interval_event : wireless_event_t :=
  ⟨.EVT_CONECTION_INTERVAL, .byte (connection_interval (pbuf 8)).toUInt8, 0⟩

/-- The buffer starts with a status, which is not the version of the protocol. -/
def is_status : Prop :=
  ¬ (pbuf 0 = 0xAA ∧ pbuf 1 = 0x54 ∧ pbuf 4 = ~~~0x54 ∧ pbuf 5 = ~~~0xAA) ∧ pbuf 0 = 0xAA

def masked (bit : UInt8) : Prop := is_status pbuf ∧ pbuf 1 &&& bit ≠ 0

instance (bit : UInt8) : Decidable (masked pbuf bit) :=
  inferInstanceAs (Decidable ((¬ _ ∧ _) ∧ _))

def status_events : List wireless_event_t :=
  (if masked pbuf LK_EVT_MSK_RESET then [reset_event pbuf] else []) ++
  (if masked pbuf LK_EVT_MSK_CONNECTION then [s.connection_event clock pbuf] else []) ++
  (if masked pbuf LK_EVT_MSK_LED then [led_event pbuf] else []) ++
  (if masked pbuf LK_EVT_MSK_RPT_INTERVAL then [interval_event pbuf] else [])

/-- A status puts its events into the queue, and may clear the factory reset
timer and set the interval of the connection. -/
def read_status : Lkbt51 :=
  { (s.status_events clock pbuf).foldl wireless_event_enqueue s with
    factory_reset_timer :=
      if masked pbuf LK_EVT_MSK_CONNECTION ∧ s.factory_reset clock pbuf then 0
      else s.factory_reset_timer
    radio :=
      { s.radio with
        connection_interval :=
          if masked pbuf LK_EVT_MSK_RPT_INTERVAL then connection_interval (pbuf 8)
          else s.radio.connection_interval } }

end Lkbt51

/-! ## Packets -/

def VALID_DATA_START_INDEX : Nat := 4
def BUFFER_SIZE : Nat := 64

/-- The variables of the search for a packet; `pbuf` is an index of the buffer. -/
structure Search where
  wait_for_new_pkt : Bool
  len : UInt8
  sn : UInt8
  pbuf : Nat

def is_head (buf : Bytes) (i : Nat) : Prop :=
  buf i = 0xAA ∧ buf (i + 1) = 0x57 ∧ ~~~buf (i + 2) = buf (i + 3)

instance (buf : Bytes) (i : Nat) : Decidable (is_head buf i) :=
  inferInstanceAs (Decidable (_ ∧ _ ∧ _))

def search_turn (buf : Bytes) (p : Search) (i : Nat) : Search :=
  if is_head buf i then ⟨false, buf (i + 2), buf (i + 4), i + 5⟩ else p

/-- The search from index 10 to the last place of a head. -/
def search (buf : Bytes) (p : Search) : Search :=
  if p.wait_for_new_pkt then
    (List.range' 10 (BUFFER_SIZE - 5 - 10)).foldl (search_turn buf) p
  else p

def checksum (buf : Bytes) (pbuf len : Nat) : UInt16 :=
  (List.range (len - 2)).foldl (fun sum i => sum + (buf (pbuf + i)).toUInt16) 0

def checksum_ok (buf : Bytes) (pbuf len : Nat) : Prop :=
  (checksum buf pbuf len).toUInt8 = buf (pbuf + len - 2) ∧
    (checksum buf pbuf len >>> 8).toUInt8 = buf (pbuf + len - 1)

instance (buf : Bytes) (pbuf len : Nat) : Decidable (checksum_ok buf pbuf len) :=
  inferInstanceAs (Decidable (_ ∧ _))

/-- A call of `lkbt51_event_handler`, with the index of the type of the event. -/
structure Dispatch where
  pbuf : Nat
  len : UInt8
  sn : UInt8
  deriving DecidableEq

namespace Lkbt51

/-- The search of a buffer, and the packet that is complete. -/
def parse (s : Lkbt51) (buf : Bytes) : Lkbt51 × Option Dispatch :=
  let p := search buf ⟨s.wait_for_new_pkt, s.len, s.sn, 0⟩
  let s := { s with wait_for_new_pkt := p.wait_for_new_pkt, len := p.len, sn := p.sn }
  if p.wait_for_new_pkt = false ∧ p.len.toNat ≤ BUFFER_SIZE - 5 then
    ({ s with wait_for_new_pkt := true },
      if checksum_ok buf p.pbuf p.len.toNat then some ⟨p.pbuf, p.len - 3, p.sn⟩ else none)
  else (s, none)

end Lkbt51

/-! ## Event packets -/

def LKBT51_CMD_RAW_HID_RX : UInt8 := 0x92
def LKBT51_EVT_ACK : UInt8 := 0xA1
def LKBT51_EVT_RESET : UInt8 := 0xB0
def LKBT51_EVT_HID_EVENT : UInt8 := 0xB4

namespace Lkbt51

def packet_event (evt_type : UInt8) (data : Bytes) : Option wireless_event_t :=
  if evt_type = LKBT51_EVT_RESET then some ⟨.EVT_RESET, .byte (data 0), 0⟩
  else if evt_type = LKBT51_EVT_HID_EVENT then some ⟨.EVT_HID_INDICATOR, .byte (data 0), 0⟩
  else if evt_type = LKBT51_CMD_RAW_HID_RX then some ⟨.EVT_RAW_HID, .raw_hid_data, 0⟩
  else none

def lkbt51_event_handler (s : Lkbt51) (evt_type : UInt8) (data : Bytes) (len : UInt8) : Lkbt51 :=
  let s :=
    if evt_type = LKBT51_EVT_ACK then { s with radio := s.radio.ack_handler data }
    else if evt_type = LKBT51_CMD_RAW_HID_RX then
      { s with raw_hid_data := fun i => if i < len.toNat then data i else s.raw_hid_data i }
    else s
  match packet_event evt_type data with
  | some event => s.wireless_event_enqueue event
  | none => s

/-- What `lkbt51_task` reads in a buffer, and the packet it dispatches. `buf` is
the buffer, and the memory after it. -/
def read_buffer (s : Lkbt51) (clock : Nat) (buf : Bytes) : Lkbt51 × Option Dispatch :=
  (s.read_status clock fun i => buf (VALID_DATA_START_INDEX + i)).parse buf

def lkbt51_task (s : Lkbt51) (clock : Nat) (buf : Bytes) : Lkbt51 :=
  match s.read_buffer clock buf with
  | (s, some d) => s.lkbt51_event_handler (buf d.pbuf) (fun i => buf (d.pbuf + 1 + i)) d.len
  | (s, none) => s

/-! ## wireless_event_task -/

structure Handled where
  event : wireless_event_t
  raw_hid_data : List UInt8

def handled (s : Lkbt51) (event : wireless_event_t) : Handled :=
  ⟨event, (List.finRange 64).take 32 |>.map s.raw_hid_data⟩

/-- What an event does to the radio. -/
def handle (w : Wireless) (clock : Nat) (event : wireless_event_t) : Wireless :=
  match event.evt_type, event.params with
  | .EVT_RESET, _ => { w with wireless_state := .WT_RESET }
  | .EVT_CONNECTED, _ => { w with wireless_state := .WT_CONNECTED }
  | .EVT_DISCOVERABLE, _ => { w with wireless_state := .WT_PARING }
  | .EVT_RECONNECTING, _ => { w with wireless_state := .WT_RECONNECTING }
  | .EVT_DISCONNECTED, _ => { w.report_buffer_init clock with wireless_state := .WT_DISCONNECTED }
  | .EVT_BT_PINCODE_ENTRY, _ => { w with pincodeEntry := true }
  | .EVT_EXIT_BT_PINCODE_ENTRY, _ => { w with pincodeEntry := false }
  | .EVT_SLEEP, _ => { w with wireless_state := .WT_SUSPEND }
  | .EVT_CONECTION_INTERVAL, .byte interval => { w with report_interval := interval }
  | _, _ => w

def event_loop (clock : Nat) : Nat → Lkbt51 → Lkbt51 × List Handled
  | 0, s => (s, [])
  | n + 1, s =>
    match s.wireless_event_dequeue with
    | none => (s, [])
    | some (event, s) =>
      let (s', rest) := event_loop clock n { s with radio := handle s.radio clock event }
      (s', s.handled event :: rest)

def wireless_event_task (s : Lkbt51) (clock : Nat) : Lkbt51 × List Handled :=
  event_loop clock WT_EVENT_QUEUE_SIZE s

end Lkbt51

end keychron_qmk.wireless
