-- The modifiers and the send functions of `quantum/action_util.c`, with
-- NKRO_ENABLE, APDAPTIVE_NKRO_ENABLE and KEY_OVERRIDE_ENABLE.
import KeychronQMK.Report.Keys

namespace keychron_qmk.action_util

open report

/-- The modifier bytes that a report is made of. -/
structure Mods where
  real_mods : UInt8
  weak_mods : UInt8
  oneshot_mods : UInt8
  suppressed_mods : UInt8
  weak_override_mods : UInt8
  deriving DecidableEq

/-- The keys, the modifiers, `keyboard_report->mods`, and the last report of
each kind that was handed to the host: the static `last_report` of
`send_6kro_report` and of `send_nkro_report`. -/
structure State where
  report : Report
  mods : Mods
  report_mods : UInt8
  last_std : UInt8 × (Fin KEYBOARD_REPORT_KEYS → UInt8)
  last_nkro : Fin NKRO_REPORT_BITS → UInt8

def State.start : State := ⟨.empty, ⟨0, 0, 0, 0, 0⟩, 0, (0, fun _ => 0), fun _ => 0⟩

/-! ## Modifiers with a dirty bit -/

/-- The dirty bit of the standard report, if `changed`. -/
def flagStd (changed : Bool) (r : Report) : Report :=
  if changed then { r with kb_report_changed := r.kb_report_changed ||| KB_RPT_STD } else r

structure ModByte where
  get : Mods → UInt8
  put : UInt8 → Mods → Mods
  put_get : ∀ m, put (get m) m = m

namespace ModByte

variable (b : ModByte)

def add (mods : UInt8) (s : State) : State :=
  { s with
    report := flagStd (b.get s.mods &&& mods ≠ mods) s.report
    mods := b.put (b.get s.mods ||| mods) s.mods }

def del (mods : UInt8) (s : State) : State :=
  { s with
    report := flagStd (b.get s.mods &&& mods ≠ 0) s.report
    mods := b.put (b.get s.mods &&& ~~~mods) s.mods }

def set (mods : UInt8) (s : State) : State :=
  { s with report := flagStd (b.get s.mods ≠ mods) s.report, mods := b.put mods s.mods }

def clear (s : State) : State :=
  { s with report := flagStd (b.get s.mods ≠ 0) s.report, mods := b.put 0 s.mods }

end ModByte

def realMods : ModByte := ⟨Mods.real_mods, fun x m => { m with real_mods := x }, fun _ => rfl⟩

def weakMods : ModByte := ⟨Mods.weak_mods, fun x m => { m with weak_mods := x }, fun _ => rfl⟩

def weakOverrideMods : ModByte :=
  ⟨Mods.weak_override_mods, fun x m => { m with weak_override_mods := x }, fun _ => rfl⟩

def suppressedMods : ModByte :=
  ⟨Mods.suppressed_mods, fun x m => { m with suppressed_mods := x }, fun _ => rfl⟩

def add_mods (mods : UInt8) : State → State := realMods.add mods

def del_mods (mods : UInt8) : State → State := realMods.del mods

def set_mods (mods : UInt8) : State → State := realMods.set mods

def clear_mods : State → State := realMods.clear

def add_weak_mods (mods : UInt8) : State → State := weakMods.add mods

def del_weak_mods (mods : UInt8) : State → State := weakMods.del mods

def set_weak_mods (mods : UInt8) : State → State := weakMods.set mods

def clear_weak_mods : State → State := weakMods.clear

def set_weak_override_mods (mods : UInt8) : State → State := weakOverrideMods.set mods

def clear_weak_override_mods : State → State := weakOverrideMods.clear

/-- The dirty bit goes into `suppressed_mods`, which is then overwritten. The
comparison is with `weak_override_mods`. -/
def set_suppressed_override_mods (mods : UInt8) (s : State) : State :=
  let m := s.mods
  let m := if m.weak_override_mods ≠ mods then
      { m with suppressed_mods := m.suppressed_mods ||| KB_RPT_STD }
    else m
  { s with mods := { m with suppressed_mods := mods } }

def clear_suppressed_override_mods : State → State := suppressedMods.clear

/-! ## One-shot modifiers -/

def put_oneshot_mods (mods : UInt8) (s : State) : State :=
  { s with mods := { s.mods with oneshot_mods := mods } }

def add_oneshot_mods (mods : UInt8) (s : State) : State :=
  if s.mods.oneshot_mods &&& mods ≠ mods then put_oneshot_mods (s.mods.oneshot_mods ||| mods) s
  else s

def del_oneshot_mods (mods : UInt8) (s : State) : State :=
  if s.mods.oneshot_mods &&& mods ≠ 0 then put_oneshot_mods (s.mods.oneshot_mods &&& ~~~mods) s
  else s

def set_oneshot_mods (enabled : Bool) (mods : UInt8) (s : State) : State :=
  if enabled then
    if s.mods.oneshot_mods ≠ mods then put_oneshot_mods mods s else s
  else s

def clear_oneshot_mods (s : State) : State :=
  if s.mods.oneshot_mods ≠ 0 then put_oneshot_mods 0 s else s

/-! ## Reports -/

/-- The modifiers of the report. `timed_out` is what
`has_oneshot_mods_timed_out` answers. -/
def get_mods_for_report (timed_out : Bool) (s : State) : UInt8 × State :=
  let mods := s.mods.real_mods ||| s.mods.weak_mods
  let (mods, s) :=
    if s.mods.oneshot_mods ≠ 0 then
      let s := if timed_out then clear_oneshot_mods s else s
      let mods := mods ||| s.mods.oneshot_mods
      if has_anykey s.report ≠ 0 then (mods, clear_oneshot_mods s) else (mods, s)
    else (mods, s)
  ((mods &&& ~~~s.mods.suppressed_mods) ||| s.mods.weak_override_mods, s)

def send_6kro_report (timed_out : Bool) (s : State) : State :=
  let (mods, s) := get_mods_for_report timed_out s
  let s := { s with report_mods := mods }
  let s := if (s.report_mods, s.report.keys) ≠ s.last_std then
      { s with last_std := (s.report_mods, s.report.keys) }
    else s
  { s with report.kb_report_changed := s.report.kb_report_changed &&& ~~~KB_RPT_STD }

def send_nkro_report (s : State) : State :=
  let s := if s.report.bits ≠ s.last_nkro then { s with last_nkro := s.report.bits } else s
  { s with report.kb_report_changed := s.report.kb_report_changed &&& ~~~KB_RPT_NKRO }

def send_keyboard_report (host_can_send_nkro timed_out : Bool) (s : State) : State :=
  let s := if s.report.kb_report_changed &&& KB_RPT_STD ≠ 0 then send_6kro_report timed_out s else s
  if host_can_send_nkro ∧ s.report.kb_report_changed &&& KB_RPT_NKRO ≠ 0 then send_nkro_report s
  else s

/-! ## Calls -/

/-- The calls that change what is reported, and the send to a host that
takes NKRO. -/
inductive Op where
  | keys (call : Call fun _ => True)
  | add_mods (mods : UInt8)
  | del_mods (mods : UInt8)
  | set_mods (mods : UInt8)
  | clear_mods
  | add_weak_mods (mods : UInt8)
  | del_weak_mods (mods : UInt8)
  | set_weak_mods (mods : UInt8)
  | clear_weak_mods
  | set_weak_override_mods (mods : UInt8)
  | clear_weak_override_mods
  | set_suppressed_override_mods (mods : UInt8)
  | clear_suppressed_override_mods
  | add_oneshot_mods (mods : UInt8)
  | del_oneshot_mods (mods : UInt8)
  | set_oneshot_mods (enabled : Bool) (mods : UInt8)
  | clear_oneshot_mods
  | send_keyboard_report (timed_out : Bool)

def step (s : State) : Op → State
  | .keys call => { s with report := report.step s.report call }
  | .add_mods mods => add_mods mods s
  | .del_mods mods => del_mods mods s
  | .set_mods mods => set_mods mods s
  | .clear_mods => clear_mods s
  | .add_weak_mods mods => add_weak_mods mods s
  | .del_weak_mods mods => del_weak_mods mods s
  | .set_weak_mods mods => set_weak_mods mods s
  | .clear_weak_mods => clear_weak_mods s
  | .set_weak_override_mods mods => set_weak_override_mods mods s
  | .clear_weak_override_mods => clear_weak_override_mods s
  | .set_suppressed_override_mods mods => set_suppressed_override_mods mods s
  | .clear_suppressed_override_mods => clear_suppressed_override_mods s
  | .add_oneshot_mods mods => add_oneshot_mods mods s
  | .del_oneshot_mods mods => del_oneshot_mods mods s
  | .set_oneshot_mods enabled mods => set_oneshot_mods enabled mods s
  | .clear_oneshot_mods => clear_oneshot_mods s
  | .send_keyboard_report timed_out => send_keyboard_report true timed_out s

end keychron_qmk.action_util
