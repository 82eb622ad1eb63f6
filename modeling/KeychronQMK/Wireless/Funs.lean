-- The report buffer of `common/wireless/report_buffer.c`, the send functions
-- of `wireless.c` that fill it, and the acknowledgements of `lkbt51.c` that
-- end its retransmissions. NKRO_ENABLE and WIRELESS_NKRO_ENABLE are defined.
import KeychronQMK.Lib.Ring
import KeychronQMK.Report.Keys

namespace keychron_qmk.wireless

open ring report

structure report_keyboard_t where
  mods : UInt8
  keys : Fin KEYBOARD_REPORT_KEYS → UInt8
  deriving DecidableEq

structure report_nkro_t where
  mods : UInt8
  bits : Fin NKRO_REPORT_BITS → UInt8
  deriving DecidableEq

inductive report_buffer_t
  | REPORT_TYPE_NONE
  | REPORT_TYPE_KB (keyboard : report_keyboard_t)
  | REPORT_TYPE_NKRO (nkro : report_nkro_t)
  | REPORT_TYPE_CONSUMER (consumer : UInt16)
  deriving DecidableEq

inductive wt_state_t
  | WT_RESET
  | WT_INITIALIZED
  | WT_DISCONNECTED
  | WT_CONNECTED
  | WT_PARING
  | WT_RECONNECTING
  | WT_SUSPEND
  deriving DecidableEq

def REPORT_BUFFER_QUEUE_SIZE : Nat := 256

def RETPORT_RETRY_COUNT : UInt8 := 30

def REPORT_BUFFER_RETRY_INTERVAL : UInt32 := 2

/-- The static variables of `report_buffer.c`, and what its callers read. -/
structure Wireless where
  wireless_state : wt_state_t
  pincodeEntry : Bool
  battery_is_critical_low : Bool
  report_timer_buffer : UInt32
  retry_time_buffer : UInt32
  report_buffer_queue : Ring report_buffer_t REPORT_BUFFER_QUEUE_SIZE
  kb_rpt : report_buffer_t
  retry : UInt8
  report_interval : UInt8
  connection_interval : UInt16

/-- The variables at power-up. -/
def Wireless.zero : Wireless where
  wireless_state := .WT_RESET
  pincodeEntry := false
  battery_is_critical_low := false
  report_timer_buffer := 0
  retry_time_buffer := 0
  report_buffer_queue := ⟨fun _ => .REPORT_TYPE_NONE, ⟨0, by decide⟩, ⟨0, by decide⟩⟩
  kb_rpt := .REPORT_TYPE_NONE
  retry := 0
  report_interval := 1
  connection_interval := 1

/-- What a call does with reports: it takes one from the queue, and hands one
to the transport, for the first time, again, or past the queue. -/
inductive LinkEvent
  | dequeued (report : report_buffer_t)
  | first (report : report_buffer_t)
  | again (report : report_buffer_t)
  | direct (consumer : UInt16)

def timer_read32 (clock : Nat) : UInt32 := .ofNat clock

namespace Wireless

variable (w : Wireless) (clock : Nat)

/-! ## report_buffer.c -/

def report_buffer_init : Wireless :=
  { w with
    report_buffer_queue :=
      { w.report_buffer_queue with head := ⟨0, by decide⟩, tail := ⟨0, by decide⟩ }
    retry := 0
    report_timer_buffer := timer_read32 clock }

def report_buffer_enqueue (report : report_buffer_t) : Wireless :=
  if w.report_buffer_queue.isFull then w
  else { w with report_buffer_queue := w.report_buffer_queue.push report }

def report_buffer_next_inverval : Prop :=
  w.report_interval.toUInt32 < timer_read32 clock - w.report_timer_buffer

instance : Decidable (w.report_buffer_next_inverval clock) := inferInstanceAs (Decidable (_ < _))

/-- Reports are sent in these states. -/
def sends : Prop :=
  w.wireless_state = .WT_CONNECTED ∨ w.wireless_state = .WT_PARING ∧ w.pincodeEntry = true

instance : Decidable w.sends := inferInstanceAs (Decidable (_ ∨ _))

def report_buffer_task : Wireless × List LinkEvent :=
  if w.sends ∧ (¬ w.report_buffer_queue.isEmpty ∨ w.retry ≠ 0) ∧
      w.report_buffer_next_inverval clock then
    if w.retry = 0 then
      let kb_rpt := w.report_buffer_queue.oldest
      let w := { w with report_buffer_queue := w.report_buffer_queue.drop, kb_rpt }
      if kb_rpt ≠ .REPORT_TYPE_NONE ∧ 2 < timer_read32 clock then
        ({ w with
            retry := RETPORT_RETRY_COUNT
            retry_time_buffer := timer_read32 clock
            report_timer_buffer := timer_read32 clock },
          [.dequeued kb_rpt, .first kb_rpt])
      else (w, [.dequeued kb_rpt])
    else if REPORT_BUFFER_RETRY_INTERVAL < timer_read32 clock - w.retry_time_buffer then
      ({ w with
          retry := w.retry - 1
          retry_time_buffer := timer_read32 clock
          report_timer_buffer := timer_read32 clock },
        [.again w.kb_rpt])
    else (w, [])
  else (w, [])

/-! ## wireless.c -/

def wireless_connect : Wireless :=
  if w.battery_is_critical_low ∨ timer_read32 clock = 0 then w
  else { w with wireless_state := .WT_RECONNECTING }

def send_buffered (report : report_buffer_t) : Wireless × List LinkEvent :=
  if w.battery_is_critical_low then (w, [])
  else if w.wireless_state = .WT_PARING ∧ w.pincodeEntry = false then (w, [])
  else if w.sends then
    let empty := w.report_buffer_queue.isEmpty
    let w' := w.report_buffer_enqueue report
    if empty then w'.report_buffer_task clock else (w', [])
  else if w.wireless_state ≠ .WT_RESET then (w.wireless_connect clock, [])
  else (w, [])

def wireless_send_keyboard (report : report_keyboard_t) : Wireless × List LinkEvent :=
  w.send_buffered clock (.REPORT_TYPE_KB report)

def wireless_send_nkro (report : report_nkro_t) : Wireless × List LinkEvent :=
  w.send_buffered clock (.REPORT_TYPE_NKRO report)

def wireless_send_consumer (data : UInt16) : Wireless × List LinkEvent :=
  if w.wireless_state = .WT_CONNECTED then
    if w.report_buffer_queue.isEmpty ∧ w.report_buffer_next_inverval clock then
      ({ w with report_timer_buffer := timer_read32 clock }, [.direct data])
    else (w.report_buffer_enqueue (.REPORT_TYPE_CONSUMER data), [])
  else if w.wireless_state ≠ .WT_RESET then (w.wireless_connect clock, [])
  else (w, [])

end Wireless

/-! ## lkbt51.c -/

def LKBT51_CMD_SEND_KB : UInt8 := 0x11
def LKBT51_CMD_SEND_KB_NKRO : UInt8 := 0x12
def LKBT51_CMD_SEND_CONSUMER : UInt8 := 0x13
def LKBT51_CMD_SEND_SYSTEM : UInt8 := 0x14
def LKBT51_CMD_SEND_MOUSE : UInt8 := 0x16

def ACK_SUCCESS : UInt8 := 0
def ACK_FIFO_HALF_WARNING : UInt8 := 2
def ACK_FIFO_FULL_ERROR : UInt8 := 3

def reportCommands : List UInt8 :=
  [LKBT51_CMD_SEND_KB, LKBT51_CMD_SEND_KB_NKRO, LKBT51_CMD_SEND_CONSUMER, LKBT51_CMD_SEND_SYSTEM,
    LKBT51_CMD_SEND_MOUSE]

/-- `data` is what follows the type of the event. -/
def Wireless.ack_handler (w : Wireless) (data : Nat → UInt8) : Wireless :=
  if data 1 ∈ reportCommands then
    if data 2 = ACK_SUCCESS then
      { w with retry := 0, report_interval := w.connection_interval.toUInt8 }
    else if data 2 = ACK_FIFO_HALF_WARNING then
      { w with retry := 0, report_interval := (w.connection_interval + 5).toUInt8 }
    else if data 2 = ACK_FIFO_FULL_ERROR then
      { w with report_interval := (w.connection_interval + 10).toUInt8 }
    else w
  else w

/-! ## Calls -/

inductive Call
  | wireless_send_keyboard (report : report_keyboard_t)
  | wireless_send_nkro (report : report_nkro_t)
  | wireless_send_consumer (data : UInt16)
  | report_buffer_task

def Call.run (w : Wireless) (clock : Nat) : Call → Wireless × List LinkEvent
  | .wireless_send_keyboard report => w.wireless_send_keyboard clock report
  | .wireless_send_nkro report => w.wireless_send_nkro clock report
  | .wireless_send_consumer data => w.wireless_send_consumer clock data
  | .report_buffer_task => w.report_buffer_task clock

end keychron_qmk.wireless
