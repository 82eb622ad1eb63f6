-- The emulated EEPROM through losses of power and programs that fail: what an
-- `EEPROM_Init` restores after any part of a write.
import KeychronQMK.Eeprom.FailingWrites

namespace keychron_qmk.emulated_flash.failing

open memory runs

/-! ## The device -/

/-- No program after the first `n` completes. -/
def power_lost (n : Nat) (fates : Nat → FLASH_Status) (i : Nat) : FLASH_Status :=
  if i < n then fates i else .FLASH_TIMEOUT

inductive Op
  | write (call : Call) (fates : Nat → FLASH_Status)
  /-- The power is lost after `n` programs of the write. -/
  | interrupted (call : Call) (fates : Nat → FLASH_Status) (n : Nat)
  | EEPROM_Erase
  | EEPROM_Init

/-- The chip, and the array that it stands for. -/
structure Device where
  chip : Chip
  flat : Nat → UInt8

namespace Device

variable (cfg : Config) (w : Device)

def boot : Device :=
  ⟨Chip.EEPROM_Init cfg ⟨⟨fun _ => FEE_EMPTY_WORD, fun _ => 0, 0, []⟩, fun _ => .FLASH_COMPLETE,
    fun _ => false, false, false, []⟩, fun _ => 0⟩

/-- What an `EEPROM_Init` makes of the cache. -/
def restored : Nat → UInt8 := (emulated_flash.EEPROM_Init cfg w.chip.eeprom).DataBuf

def written : Op → Option FLASH_Status × Chip
  | .write call fates => w.chip.run cfg call fates
  | .interrupted call fates n => w.chip.run cfg call (power_lost n fates)
  | _ => (none, w.chip)

/-- After an `EEPROM_Init` the array has what was read for the bytes of the
interrupted write and for those whose last write failed. -/
def step (op : Op) : Device :=
  let chip := (w.written cfg op).2
  match op with
  | .write call _ => ⟨chip, call.writes.foldl (flat_write cfg) w.flat⟩
  | .interrupted call _ _ =>
    let chip := chip.EEPROM_Init cfg
    ⟨chip, fun a => if Chip.covers call a || w.chip.ahead a then chip.eeprom.DataBuf a else w.flat a⟩
  | .EEPROM_Erase => ⟨chip.EEPROM_Erase cfg, fun _ => 0⟩
  | .EEPROM_Init =>
    let chip := chip.EEPROM_Init cfg
    ⟨chip, fun a => if w.chip.ahead a then chip.eeprom.DataBuf a else w.flat a⟩

/-! ## The property -/

/-- What is restored now is what was restored before, but for bytes of the written
word that are new. -/
def OldOrNew (call : Call) (now : Nat → UInt8) : Prop :=
  ∀ a < cfg.FEE_DENSITY_BYTES,
    (Chip.covers call a = false → now a = w.restored cfg a) ∧
      (now a = w.restored cfg a ∨ now a = call.writes.foldl (flat_write cfg) w.flat a)

def Present (call : Call) : Prop :=
  ∀ p ∈ call.writes, p.1 < cfg.FEE_DENSITY_BYTES → w.restored cfg p.1 = p.2

def Survives (op : Op) : Prop :=
  let w' := w.step cfg op
  Watched.Agrees cfg ⟨w'.chip.eeprom, w'.flat⟩ ∧
  (∀ a < cfg.FEE_DENSITY_BYTES, w'.chip.ahead a = false → w'.restored cfg a = w'.flat a) ∧
  match op with
  | .write call _ =>
    (w'.chip.compacted = false → w.OldOrNew cfg call (w'.restored cfg)) ∧
    (Chip.succeeded (w.written cfg op).1 = true → w'.Present cfg call)
  | .interrupted call _ _ => w.OldOrNew cfg call w'.flat
  | _ => True

/-! ## The condition -/

def Admitted (op : Op) : Prop :=
  match op with
  | .write _ fates =>
    (∀ i, fates i = .FLASH_COMPLETE) ∨ (w.written cfg op).2.compacted = false
  | .interrupted _ _ _ => (w.written cfg op).2.compacted = false
  | _ => True

def Clear (op : Op) : Prop :=
  match op with
  | .write call _ => (w.written cfg op).2.slips = [] ∧ w.chip.CallApart cfg call
  | .interrupted call _ _ =>
    .behind_gap ∉ (w.written cfg op).2.slips ∧ w.chip.CallApart cfg call
  | _ => True

/-! ## Every run -/

variable {cfg : Config} {w : Device}

/-- The flash keeps a buffer that the cache may be ahead of, and the cache is the array. -/
structure Sound (cfg : Config) (w : Device) : Prop where
  kept : ∃ d, w.chip.Kept cfg d
  cache : EqBelow cfg.FEE_DENSITY_BYTES w.chip.eeprom.DataBuf w.flat

theorem Sound.agrees (h : Sound cfg w) (hsize : cfg.FEE_DENSITY_BYTES ≤ FEE_ADDRESS_MAX_SIZE) :
    Watched.Agrees cfg ⟨w.chip.eeprom, w.flat⟩ := by
  obtain ⟨d, hkept⟩ := h.kept
  exact Watched.agrees_of_cache h.cache hkept.clean hsize

theorem Sound.restored (h : Sound cfg w) {a : Nat} (ha : a < cfg.FEE_DENSITY_BYTES)
    (hahead : w.chip.ahead a = false) : w.restored cfg a = w.flat a := by
  obtain ⟨d, hkept⟩ := h.kept
  exact (hkept.restored a ha).trans ((hkept.ahead a ha hahead).symm.trans (h.cache a ha))

variable {call : Call}

theorem writes_foldl (f : Nat → UInt8) {p : Nat × UInt8} (hp : p ∈ call.writes)
    (hlt : p.1 < cfg.FEE_DENSITY_BYTES) : call.writes.foldl (flat_write cfg) f p.1 = p.2 := by
  cases call with
  | byte Address v =>
    obtain rfl := List.mem_singleton.mp hp
    simp only [Call.writes, List.foldl_cons, List.foldl_nil, flat_write, if_pos hlt]
    exact Function.update_self _ _ _
  | word Address DataWord =>
    simp only [Call.writes, List.mem_cons, List.not_mem_nil, or_false] at hp
    simp only [Call.writes, List.foldl_cons, List.foldl_nil]
    obtain rfl | rfl := hp
    · rw [Chip.flat_write_of_ne (by simp), flat_write, if_pos hlt]
      exact Function.update_self _ _ _
    · rw [flat_write, if_pos hlt]
      exact Function.update_self _ _ _

variable {fates : Nat → FLASH_Status}

/-- A write that may fail. -/
theorem Sound.write (h : Sound cfg w) (hsize : cfg.FEE_DENSITY_BYTES ≤ FEE_ADDRESS_MAX_SIZE)
    (hadmitted : w.Admitted cfg (.write call fates)) (hclear : w.Clear cfg (.write call fates)) :
    w.Survives cfg (.write call fates) ∧ Sound cfg (w.step cfg (.write call fates)) := by
  obtain ⟨d, hkept⟩ := h.kept
  obtain ⟨hslips, hapart⟩ := hclear
  obtain ⟨hwrote, hpresent⟩ := Chip.run_spec hkept hsize hapart rfl hadmitted
    (by rw [show (w.chip.run cfg call fates).2.slips = [] from hslips]; exact List.not_mem_nil)
  obtain ⟨d', hkept', honly⟩ := hwrote.kept
  have hcache := flat_write_eqBelow h.cache call.writes
  have hnext : Sound cfg (w.step cfg (.write call fates)) :=
    ⟨⟨d', hkept'⟩, fun a ha => (congrFun hwrote.data a).trans (hcache a ha)⟩
  refine ⟨⟨hnext.agrees hsize, fun a ha => hnext.restored ha, fun hcompacted a ha => ?_,
    fun hsucceeded p hp hlt => ?_⟩, hnext⟩
  · have hold : w.restored cfg a = d a := hkept.restored a ha
    have hnew : (w.step cfg (.write call fates)).restored cfg a = d' a := hkept'.restored a ha
    rw [hold, hnew]
    obtain ⟨hout, heither⟩ := honly hcompacted a ha
    exact ⟨fun hcovers => hout (by simp [hcovers]), heither.imp_right fun h' => h'.trans (hcache a ha)⟩
  · rw [hnext.restored hlt (hpresent hsucceeded hslips p hp hlt)]
    exact writes_foldl w.flat hp hlt

theorem sound_init {c : Chip} {d flat : Nat → UInt8} (h : c.Kept cfg d)
    (hflat : EqBelow cfg.FEE_DENSITY_BYTES d flat) : Sound cfg ⟨c.EEPROM_Init cfg, flat⟩ :=
  ⟨⟨d, h.init⟩, (h.restored).trans hflat⟩

/-- A write that a loss of power interrupts. -/
theorem Sound.interrupted (h : Sound cfg w) (hsize : cfg.FEE_DENSITY_BYTES ≤ FEE_ADDRESS_MAX_SIZE)
    {n : Nat} (hadmitted : w.Admitted cfg (.interrupted call fates n))
    (hclear : w.Clear cfg (.interrupted call fates n)) :
    w.Survives cfg (.interrupted call fates n) ∧
      Sound cfg (w.step cfg (.interrupted call fates n)) := by
  obtain ⟨d, hkept⟩ := h.kept
  obtain ⟨hslips, hapart⟩ := hclear
  obtain ⟨hwrote, -⟩ := Chip.run_spec hkept hsize hapart rfl (.inr hadmitted) hslips
  obtain ⟨d', hkept', honly⟩ := hwrote.kept
  have hflat : ∀ a < cfg.FEE_DENSITY_BYTES,
      (w.step cfg (.interrupted call fates n)).flat a = d' a := by
    intro a ha
    have hread := hkept'.restored a ha
    simp only [Device.step]
    split
    · exact hread
    · rename_i hcovers
      simp only [Bool.or_eq_true, not_or, Bool.not_eq_true] at hcovers
      rw [((honly hadmitted a ha).1 (by simp [hcovers.1])), ← hkept.ahead a ha hcovers.2]
      exact (h.cache a ha).symm
  have hnext : Sound cfg (w.step cfg (.interrupted call fates n)) :=
    sound_init hkept' fun a ha => (hflat a ha).symm
  refine ⟨⟨hnext.agrees hsize, fun a ha => hnext.restored ha, fun a ha => ?_⟩, hnext⟩
  have hold : w.restored cfg a = d a := hkept.restored a ha
  rw [hold, hflat a ha]
  obtain ⟨hout, heither⟩ := honly hadmitted a ha
  exact ⟨fun hcovers => hout (by simp [hcovers]),
    heither.imp_right fun h' => h'.trans (flat_write_eqBelow h.cache call.writes a ha)⟩

theorem Sound.init (h : Sound cfg w) (hsize : cfg.FEE_DENSITY_BYTES ≤ FEE_ADDRESS_MAX_SIZE) :
    w.Survives cfg .EEPROM_Init ∧ Sound cfg (w.step cfg .EEPROM_Init) := by
  obtain ⟨d, hkept⟩ := h.kept
  have hnext : Sound cfg (w.step cfg .EEPROM_Init) := by
    refine sound_init hkept fun a ha => ?_
    split
    · exact (hkept.restored a ha).symm
    · rename_i hahead
      exact (hkept.ahead a ha (by simpa using hahead)).symm.trans (h.cache a ha)
  exact ⟨⟨hnext.agrees hsize, fun a ha => hnext.restored ha, trivial⟩, hnext⟩

theorem Sound.erase (h : Sound cfg w) (hsize : cfg.FEE_DENSITY_BYTES ≤ FEE_ADDRESS_MAX_SIZE) :
    w.Survives cfg .EEPROM_Erase ∧ Sound cfg (w.step cfg .EEPROM_Erase) := by
  obtain ⟨d, hkept⟩ := h.kept
  obtain ⟨⟨E, hE⟩, hclean⟩ := clear_synced hkept.clean
  have herased := Watched.kept_init hE hclean
  have hnext : Sound cfg (w.step cfg .EEPROM_Erase) :=
    ⟨⟨_, Chip.kept_of_synced herased.synced fun _ _ _ => rfl⟩, herased.cache⟩
  exact ⟨⟨hnext.agrees hsize, fun a ha => hnext.restored ha, trivial⟩, hnext⟩

theorem Sound.boot : Sound cfg (boot cfg) :=
  ⟨⟨_, Chip.kept_of_synced Watched.Kept.boot.synced fun _ _ _ => rfl⟩, Watched.Kept.boot.cache⟩

/-- In every run whose writes make no slip, every write survives a loss of power
after any of its programs, and one that reports no error is restored. -/
theorem writes_survive (cfg : Config) (ops : List Op)
    (hsize : cfg.FEE_DENSITY_BYTES ≤ FEE_ADDRESS_MAX_SIZE)
    (hadmitted : Along (step cfg) (Admitted cfg) (boot cfg) ops)
    (hclear : Along (step cfg) (Clear cfg) (boot cfg) ops) :
    Along (step cfg) (Survives cfg) (boot cfg) ops := by
  refine Along.imp (I := Sound cfg) (fun w op hsound hstep => ?_) Sound.boot
    (Along.and.mpr ⟨hadmitted, hclear⟩)
  cases op with
  | write call fates => exact hsound.write hsize hstep.1 hstep.2
  | interrupted call fates n => exact hsound.interrupted hsize hstep.1 hstep.2
  | EEPROM_Erase => exact hsound.erase hsize
  | EEPROM_Init => exact hsound.init hsize

theorem four_even : 4 % 2 = 0 := rfl

def two_slots : Config := ⟨1, 8, 4, 4, four_even, four_even, by decide⟩

def first_fails (i : Nat) : FLASH_Status := if i = 0 then .FLASH_ERROR_PG else .FLASH_COMPLETE

def all_complete (_ : Nat) : FLASH_Status := .FLASH_COMPLETE

theorem a_power_loss_is_survived : Along (step two_slots) (Survives two_slots) (boot two_slots)
    [.write (.word 0 0x1234) all_complete, .interrupted (.word 0 0x5678) all_complete 1,
      .write (.byte 0 0x9A) first_fails, .write (.byte 2 1) first_fails] :=
  writes_survive two_slots _ (by decide)
    ⟨.inl fun _ => rfl, by unfold Admitted; decide, .inr (by decide), .inr (by decide), trivial⟩
    ⟨⟨by decide, by decide⟩, ⟨by decide, by decide⟩, ⟨by decide, by decide⟩,
      ⟨by decide, by decide⟩, trivial⟩

/-- A byte whose program fails is left out when it is written again. -/
def retried : List Op :=
  [.write (.byte 0 0x12) first_fails, .write (.byte 0 0x12) all_complete]

def logged_behind : List Op :=
  [.write (.word 0 0x0101) all_complete, .write (.byte 0 2) first_fails,
    .write (.byte 1 3) all_complete]

/-- The retry returns 0 and the second byte `FLASH_COMPLETE`, and neither is restored. -/
theorem failures_are_not_survived :
    (Along (step two_slots) (Admitted two_slots) (boot two_slots) retried ∧
      ¬ Along (step two_slots) (Survives two_slots) (boot two_slots) retried) ∧
    Along (step two_slots) (Admitted two_slots) (boot two_slots) logged_behind ∧
      ¬ Along (step two_slots) (Survives two_slots) (boot two_slots) logged_behind := by
  refine ⟨⟨⟨.inr (by decide), .inl fun _ => rfl, trivial⟩, ?_⟩,
    ⟨.inl fun _ => rfl, .inr (by decide), .inl fun _ => rfl, trivial⟩, ?_⟩
  · rintro ⟨-, hretry, -⟩
    have hpresent := hretry.2.2.2 (by decide) (0, 0x12) (by decide) (by decide)
    exact absurd hpresent (by decide)
  · rintro ⟨-, -, hbyte, -⟩
    have hpresent := hbyte.2.2.2 (by decide) (1, 3) (by decide) (by decide)
    exact absurd hpresent (by decide)

end Device

end keychron_qmk.emulated_flash.failing
