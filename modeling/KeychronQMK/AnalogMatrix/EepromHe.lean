-- The external EEPROM of `eeprom_he.c`: what its reads and writes put on the
-- I2C bus, and a device that takes a page at a time from there. `uintptr_t`,
-- `size_t` and `int` have 32 bits.
import KeychronQMK.AnalogMatrix.Eeconfig

namespace keychron_qmk.eeprom_he

open memory analog_matrix

def EXTERNAL_EEPROM_PAGE_SIZE : UInt32 := 32
def EXTERNAL_EEPROM_ADDRESS_SIZE : Nat := 2
def EXTERNAL_EEPROM_WRITE_TIME : Nat := 5
def EXTERNAL_EEPROM_I2C_BASE_ADDRESS : UInt8 := 0b10100010

/-- What the driver does on its pins: those of the bus and the one that
protects the EEPROM. -/
inductive Bus
  | setPinOutput
  | setPinInputHigh
  | writePin (level : UInt8)
  | i2c_transmit (address : UInt8) (data : List UInt8) (timeout : UInt16)
  | wait_ms (ms : Nat)
  deriving DecidableEq

/-- One address byte after the other, the low one last. -/
def fill_target_address (buffer : List UInt8) (addr : UInt32) : List UInt8 :=
  ((List.range EXTERNAL_EEPROM_ADDRESS_SIZE).foldl
    (fun (buffer, p) i =>
      (buffer.set (EXTERNAL_EEPROM_ADDRESS_SIZE - 1 - i) (p &&& 0xFF).toUInt8, p >>> 8))
    (buffer, addr)).1

/-- The `length` bytes in front of the buffer; `none` where it has less. -/
def i2c_transmit (address : UInt8) (data : List UInt8) (length timeout : UInt16) : Option Bus :=
  if length.toNat ≤ data.length then
    some (.i2c_transmit address (data.take length.toNat) timeout)
  else none

/-- The bytes that go to the page of `target_addr`, at most `len` of them. -/
def write_length (target_addr len : UInt32) : Int32 :=
  let page_offset := target_addr % EXTERNAL_EEPROM_PAGE_SIZE
  let write_length := (EXTERNAL_EEPROM_PAGE_SIZE - page_offset).toInt32
  if write_length.toUInt32 > len then len.toInt32 else write_length

/-- The turns of the copy from `i` on. It is `none` where a turn is outside
of one of the buffers, and where the counter has taken all its values and
still is less than the length. -/
def copy_packet (read_buf : List UInt8) (write_length : Int32) :
    Nat → UInt8 → List UInt8 → Option (List UInt8)
  | 0, _, _ => none
  | turns + 1, i, complete_packet =>
    if (i.toNat : Int) < write_length.toInt then
      match read_buf[i.toNat]? with
      | none => none
      | some b =>
        if EXTERNAL_EEPROM_ADDRESS_SIZE + i.toNat < complete_packet.length then
          copy_packet read_buf write_length turns (i + 1)
            (complete_packet.set (EXTERNAL_EEPROM_ADDRESS_SIZE + i.toNat) b)
        else none
    else some complete_packet

theorem toInt_toInt32 {x : UInt32} (h : x.toNat < 2 ^ 31) : x.toInt32.toInt = x.toNat := by
  exact BitVec.toInt_eq_toNat_of_lt (by change 2 * x.toNat < 2 ^ 32; omega)

theorem page_offset_toNat (target_addr : UInt32) :
    (target_addr % EXTERNAL_EEPROM_PAGE_SIZE).toNat = target_addr.toNat % 32 :=
  UInt32.toNat_mod _ _

theorem page_rest_toNat (target_addr : UInt32) :
    (EXTERNAL_EEPROM_PAGE_SIZE - target_addr % EXTERNAL_EEPROM_PAGE_SIZE).toNat =
      32 - target_addr.toNat % 32 := by
  have hmod := page_offset_toNat target_addr
  rw [UInt32.toNat_sub_of_le]
  · rw [hmod]; rfl
  · rw [UInt32.le_iff_toNat_le, hmod]
    have : target_addr.toNat % 32 < 32 := Nat.mod_lt _ (by decide)
    exact this.le

theorem write_length_toUInt32 (target_addr len : UInt32) :
    (write_length target_addr len).toUInt32.toNat = min (32 - target_addr.toNat % 32) len.toNat := by
  have hrest := page_rest_toNat target_addr
  unfold write_length
  simp only [UInt32.toUInt32_toInt32, gt_iff_lt, UInt32.lt_iff_toNat_lt, hrest]
  split
  · rw [UInt32.toUInt32_toInt32]
    omega
  · rw [UInt32.toUInt32_toInt32, hrest]
    omega

theorem write_length_toInt (target_addr len : UInt32) :
    (write_length target_addr len).toInt = min (32 - target_addr.toNat % 32) len.toNat := by
  have h := write_length_toUInt32 target_addr len
  have hself : write_length target_addr len = (write_length target_addr len).toUInt32.toInt32 := by
    rw [Int32.toInt32_toUInt32]
  rw [hself, toInt_toInt32 (by omega), h]

variable {len target_addr : UInt32}

theorem write_length_decreases (target_addr : UInt32) (h : 0 < len) :
    (len - (write_length target_addr len).toUInt32).toNat < len.toNat := by
  have hw := write_length_toUInt32 target_addr len
  have hlen : 0 < len.toNat := h
  rw [UInt32.toNat_sub_of_le _ _ (UInt32.le_iff_toNat_le.mpr (by omega))]
  omega

def write_loop (addr : UInt32) (read_buf : List UInt8) (target_addr len : UInt32)
    (complete_packet : List UInt8) : Option (List Bus) :=
  if _h : 0 < len then
    let write_length := write_length target_addr len
    let complete_packet := fill_target_address complete_packet target_addr
    match copy_packet read_buf write_length 256 0 complete_packet with
    | none => none
    | some complete_packet =>
      match i2c_transmit EXTERNAL_EEPROM_I2C_BASE_ADDRESS complete_packet
          (.ofNat EXTERNAL_EEPROM_ADDRESS_SIZE + write_length.toUInt32.toUInt16) 100 with
      | none => none
      | some packet =>
        match write_loop addr (read_buf.drop write_length.toInt.toNat)
            (target_addr + write_length.toUInt32) (len - write_length.toUInt32)
            complete_packet with
        | none => none
        | some rest => some (packet :: .wait_ms EXTERNAL_EEPROM_WRITE_TIME :: rest)
  else some []
termination_by len.toNat
decreasing_by exact write_length_decreases target_addr _h

variable (wpPin : Bool)

/-- The packet buffer is as the stack has it. Where EXTERNAL_EEPROM_WP_PIN is
defined, it is low during the writes. -/
def he_eeprom_write_block (stack : Fin 34 → UInt8) (buf : List UInt8) (addr len : UInt32) :
    Option (List Bus) :=
  match write_loop addr buf addr len (List.ofFn stack) with
  | none => none
  | some packets =>
    if wpPin then
      some ([.setPinOutput, .writePin 0] ++ packets ++ [.writePin 1, .setPinInputHigh])
    else some packets

/-! ## The device -/

/-- An EEPROM on the bus: its cells, the address that it reads from next, the
level of its protection pin, and whether it still stores a page. -/
structure Eeprom where
  mem : Nat → UInt8
  pointer : Nat
  protect : Bool
  busy : Bool

/-- Both address bytes set the pointer, and the bytes behind them are a page
write. A device that stores a page does not answer. -/
def Eeprom.on (e : Eeprom) : Bus → Eeprom
  | .setPinOutput => e
  | .setPinInputHigh => { e with protect := true }
  | .writePin level => { e with protect := decide (level ≠ 0) }
  | .wait_ms ms => { e with busy := e.busy && decide (ms < EXTERNAL_EEPROM_WRITE_TIME) }
  | .i2c_transmit address data _ =>
    if address ≠ EXTERNAL_EEPROM_I2C_BASE_ADDRESS ∨ e.busy then e
    else
      match data with
      | hi :: lo :: [] =>
        { e with pointer := (hi.toNat * 256 + lo.toNat) % EXTERNAL_EEPROM_BYTE_COUNT }
      | hi :: lo :: bytes =>
        if e.protect then e
        else
          { e with
            mem := pageWrite EXTERNAL_EEPROM_PAGE_SIZE.toNat e.mem
              ((hi.toNat * 256 + lo.toNat) % EXTERNAL_EEPROM_BYTE_COUNT) bytes
            busy := true }
      | _ => e

/-- The bytes that the device sends, from its pointer on. -/
def Eeprom.i2c_receive (e : Eeprom) (length : UInt16) : List UInt8 :=
  (List.range length.toNat).map fun i => e.mem ((e.pointer + i) % EXTERNAL_EEPROM_BYTE_COUNT)

def he_eeprom_read_block (e : Eeprom) (stack : Fin 2 → UInt8) (addr len : UInt32) :
    Option (List UInt8 × Eeprom) :=
  let complete_packet := fill_target_address (List.ofFn stack) addr
  match i2c_transmit EXTERNAL_EEPROM_I2C_BASE_ADDRESS complete_packet
      (.ofNat EXTERNAL_EEPROM_ADDRESS_SIZE) 100 with
  | none => none
  | some packet =>
    let e := e.on packet
    some (e.i2c_receive len.toUInt16, e)

/-- A packet that fits into the buffer and whose bytes stay in one page. -/
def Bus.InPage : Bus → Prop
  | .i2c_transmit _ data _ =>
    match data with
    | hi :: lo :: bytes =>
      data.length ≤ EXTERNAL_EEPROM_ADDRESS_SIZE + EXTERNAL_EEPROM_PAGE_SIZE.toNat ∧
        (hi.toNat * 256 + lo.toNat) % EXTERNAL_EEPROM_PAGE_SIZE.toNat + bytes.length ≤
          EXTERNAL_EEPROM_PAGE_SIZE.toNat
    | _ => False
  | _ => True

/-! ## A packet -/

def addressBytes (addr : UInt32) : List UInt8 := [(addr >>> 8).toUInt8, addr.toUInt8]

theorem fill_target_address_eq (x y : UInt8) (buffer : List UInt8) (addr : UInt32) :
    fill_target_address (x :: y :: buffer) addr = addressBytes addr ++ buffer := by
  have hbyte (p : UInt32) : (p &&& 0xFF).toUInt8 = p.toUInt8 := by
    apply UInt8.toNat_inj.mp
    simp [UInt32.toNat_toUInt8, Nat.and_two_pow_sub_one_eq_mod _ 8]
  simp [fill_target_address, EXTERNAL_EEPROM_ADDRESS_SIZE, List.range_succ, addressBytes, hbyte]

theorem addressBytes_toNat (addr : UInt32) (h : addr.toNat < 65536) :
    (addr >>> 8).toUInt8.toNat * 256 + addr.toUInt8.toNat = addr.toNat := by
  rw [UInt32.toNat_toUInt8, UInt32.toNat_toUInt8, UInt32.toNat_shiftRight]
  simp only [UInt32.reduceToNat, Nat.reduceMod, Nat.shiftRight_eq_div_pow]
  omega

variable {read_buf complete_packet : List UInt8} {n R C : Nat}

/-- The copy puts the bytes from `i` up to the length behind the address. -/
theorem copy_packet_eq {write_length : Int32} (hw : write_length.toInt = n)
    (hn : n ≤ read_buf.length) (hbyte : n < 256) (turns : Nat) (i : UInt8)
    (complete_packet : List UInt8) (hi : i.toNat ≤ n) (hturns : n < turns + i.toNat)
    (hfit : EXTERNAL_EEPROM_ADDRESS_SIZE + n ≤ complete_packet.length) :
    copy_packet read_buf write_length turns i complete_packet =
      some (complete_packet.take (EXTERNAL_EEPROM_ADDRESS_SIZE + i.toNat) ++
        (read_buf.take n).drop i.toNat ++
        complete_packet.drop (EXTERNAL_EEPROM_ADDRESS_SIZE + n)) := by
  induction turns generalizing i complete_packet with
  | zero => omega
  | succ turns ih =>
    unfold copy_packet
    rw [hw]
    rcases Nat.lt_or_ge i.toNat n with h | h
    · have hnext : (i + 1).toNat = i.toNat + 1 := by
        exact Nat.mod_eq_of_lt (by simp; omega)
      have hb : read_buf[i.toNat]? = some read_buf[i.toNat] := List.getElem?_eq_getElem (by omega)
      rw [if_pos (by exact_mod_cast h), hb]
      simp only
      rw [if_pos (by omega), ih (i + 1) _ (by omega) (by omega) (by simpa using hfit), hnext]
      congr 1
      rw [List.drop_set_of_lt (by omega), ← Nat.add_assoc, List.take_add_one,
        List.take_set_of_le (Nat.le_refl _), List.getElem?_set_self (by omega),
        List.drop_eq_getElem_cons (l := read_buf.take n) (i := i.toNat) (by simp; omega)]
      simp
    · have heq : i.toNat = n := Nat.le_antisymm hi h
      rw [if_neg (by exact_mod_cast Nat.not_lt.mpr h), heq,
        List.drop_eq_nil_of_le (by simp), List.append_nil, List.take_append_drop]

/-- The packet of one turn is the address and the bytes for its page. -/
theorem packet_eq (hn : n = min (32 - target_addr.toNat % 32) len.toNat)
    (hlen : len.toNat ≤ read_buf.length) (hpacket : complete_packet.length = 34) :
    ∃ filled, copy_packet read_buf (write_length target_addr len) 256 0
        (fill_target_address complete_packet target_addr) = some filled ∧ filled.length = 34 ∧
      i2c_transmit EXTERNAL_EEPROM_I2C_BASE_ADDRESS filled
        (.ofNat EXTERNAL_EEPROM_ADDRESS_SIZE +
          (write_length target_addr len).toUInt32.toUInt16) 100 =
        some (.i2c_transmit EXTERNAL_EEPROM_I2C_BASE_ADDRESS
          (addressBytes target_addr ++ read_buf.take n) 100) := by
  obtain ⟨x, y, behind, rfl⟩ : ∃ x y behind, complete_packet = x :: y :: behind := by
    match complete_packet, hpacket with
    | x :: y :: behind, _ => exact ⟨x, y, behind, rfl⟩
  have hbehind : behind.length = 32 := by simpa using hpacket
  have hw : (write_length target_addr len).toInt = n := by rw [write_length_toInt, hn]
  have hwu : (write_length target_addr len).toUInt32.toNat = n := by
    rw [write_length_toUInt32, hn]
  have hfit : (addressBytes target_addr ++ behind).length = 34 := by simp [addressBytes, hbehind]
  have htake : (addressBytes target_addr ++ behind).take EXTERNAL_EEPROM_ADDRESS_SIZE =
      addressBytes target_addr := List.take_left' rfl
  refine ⟨addressBytes target_addr ++ read_buf.take n ++
    (addressBytes target_addr ++ behind).drop (EXTERNAL_EEPROM_ADDRESS_SIZE + n), ?_, ?_, ?_⟩
  · rw [fill_target_address_eq, copy_packet_eq hw (by omega) (by omega) 256 0 _ (Nat.zero_le _)
      (by simp; omega) (by rw [hfit]; unfold EXTERNAL_EEPROM_ADDRESS_SIZE; omega)]
    simp [htake]
  · simp only [List.length_append, List.length_take, List.length_drop, hbehind]
    simp only [addressBytes, EXTERNAL_EEPROM_ADDRESS_SIZE, List.length_cons, List.length_nil]
    omega
  · have hlength : (UInt16.ofNat EXTERNAL_EEPROM_ADDRESS_SIZE +
        (write_length target_addr len).toUInt32.toUInt16).toNat = 2 + n := by
      rw [UInt16.toNat_add, UInt32.toNat_toUInt16, hwu]
      simp only [EXTERNAL_EEPROM_ADDRESS_SIZE, UInt16.reduceOfNat, UInt16.reduceToNat]
      omega
    have hfront : (addressBytes target_addr ++ read_buf.take n).length = 2 + n := by
      simp only [List.length_append, List.length_take]
      simp only [addressBytes, List.length_cons, List.length_nil]
      omega
    unfold i2c_transmit
    rw [hlength, if_pos (by rw [List.length_append, hfront]; omega), ← hfront, List.take_left]

variable {e : Eeprom} {timeout : UInt16}

theorem on_packet (hprotect : e.protect = false) (hbusy : e.busy = false) {bytes : List UInt8}
    (hbytes : bytes ≠ []) (hin : target_addr.toNat + bytes.length ≤ EXTERNAL_EEPROM_BYTE_COUNT)
    (hpage : target_addr.toNat % 32 + bytes.length ≤ 32) :
    (e.on (.i2c_transmit EXTERNAL_EEPROM_I2C_BASE_ADDRESS
        (addressBytes target_addr ++ bytes) timeout)).on (.wait_ms EXTERNAL_EEPROM_WRITE_TIME) =
      { e with mem := patch e.mem target_addr.toNat bytes } := by
  obtain ⟨b, bytes, rfl⟩ := List.exists_cons_of_ne_nil hbytes
  have hlow : target_addr.toNat < EXTERNAL_EEPROM_BYTE_COUNT := by
    rw [List.length_cons] at hin
    omega
  have haddr := addressBytes_toNat target_addr (Nat.lt_trans hlow (by decide))
  have hmod := Nat.mod_eq_of_lt hlow
  simp only [Eeprom.on, addressBytes, List.cons_append, List.nil_append, hbusy, hprotect, haddr,
    hmod, ne_eq, not_true_eq_false, Bool.false_eq_true, or_self, if_false, Nat.lt_irrefl,
    decide_false, Bool.and_false]
  rw [pageWrite_eq_patch (p := EXTERNAL_EEPROM_PAGE_SIZE.toNat) _ hpage]

/-- What the packets of a block write are: each stays in its page, and all
together write the bytes to a device that is ready, which then is ready again. -/
structure Writes (packets : List Bus) (target : Nat) (bytes : List UInt8) : Prop where
  in_page : ∀ x ∈ packets, x.InPage
  effect : ∀ e : Eeprom, e.protect = false → e.busy = false →
    packets.foldl Eeprom.on e = { e with mem := patch e.mem target bytes }

theorem Writes.nil (target : Nat) : Writes [] target [] :=
  ⟨fun _ h => (List.not_mem_nil h).elim, fun e _ _ => by simp⟩

theorem Writes.cons {packets : List Bus} {page bytes : List UInt8} (hne : page ≠ [])
    (hin : target_addr.toNat + page.length ≤ EXTERNAL_EEPROM_BYTE_COUNT)
    (hpage : target_addr.toNat % 32 + page.length ≤ 32)
    (h : Writes packets (target_addr.toNat + page.length) bytes) :
    Writes (.i2c_transmit EXTERNAL_EEPROM_I2C_BASE_ADDRESS (addressBytes target_addr ++ page)
        timeout :: .wait_ms EXTERNAL_EEPROM_WRITE_TIME :: packets)
      target_addr.toNat (page ++ bytes) where
  in_page := by
    have hlow : target_addr.toNat < 65536 := by
      unfold EXTERNAL_EEPROM_BYTE_COUNT at hin
      omega
    intro x hx
    rcases List.mem_cons.mp hx with rfl | hx
    · refine ⟨?_, ?_⟩
      · change page.length + 1 + 1 ≤ 2 + 32
        omega
      · rw [addressBytes_toNat target_addr hlow]
        exact hpage
    · rcases List.mem_cons.mp hx with rfl | hx
      · trivial
      · exact h.in_page x hx
  effect e hprotect hbusy := by
    rw [List.foldl_cons, List.foldl_cons, on_packet hprotect hbusy hne hin hpage, patch_append]
    exact h.effect _ hprotect hbusy

theorem write_loop_writes (addr : UInt32) (hlen : len.toNat ≤ read_buf.length)
    (hin : target_addr.toNat + len.toNat ≤ EXTERNAL_EEPROM_BYTE_COUNT)
    (hpacket : complete_packet.length = 34) :
    ∃ packets, write_loop addr read_buf target_addr len complete_packet = some packets ∧
      Writes packets target_addr.toNat (read_buf.take len.toNat) := by
  induction hk : len.toNat using Nat.strong_induction_on
    generalizing read_buf target_addr len complete_packet with
  | _ k ih =>
    subst hk
    unfold write_loop
    rcases Nat.eq_zero_or_pos len.toNat with hzero | hpos
    · rw [dif_neg (by rw [UInt32.lt_iff_toNat_lt, hzero]; decide), hzero]
      exact ⟨[], rfl, Writes.nil _⟩
    · have hcount : EXTERNAL_EEPROM_BYTE_COUNT = 1024 := rfl
      generalize hn : min (32 - target_addr.toNat % 32) len.toNat = n
      obtain ⟨filled, hcopy, hfilled, hsent⟩ := packet_eq hn.symm hlen hpacket
      have hw := write_length_toUInt32 target_addr len
      rw [hn] at hw
      have hrest : (len - (write_length target_addr len).toUInt32).toNat = len.toNat - n := by
        rw [UInt32.toNat_sub_of_le _ _ (UInt32.le_iff_toNat_le.mpr (by omega)), hw]
      have htarget : (target_addr + (write_length target_addr len).toUInt32).toNat =
          target_addr.toNat + n := by
        rw [UInt32.toNat_add, hw]
        exact Nat.mod_eq_of_lt (by omega)
      have hint : (write_length target_addr len).toInt.toNat = n := by
        rw [write_length_toInt, hn]
        rfl
      have hlen' : (len - (write_length target_addr len).toUInt32).toNat ≤
          (read_buf.drop n).length := by
        rw [hrest, List.length_drop]
        omega
      have hin' : (target_addr + (write_length target_addr len).toUInt32).toNat +
          (len - (write_length target_addr len).toUInt32).toNat ≤ EXTERNAL_EEPROM_BYTE_COUNT := by
        omega
      obtain ⟨packets, hloop, hwrites⟩ :=
        ih _ (write_length_decreases target_addr hpos) hlen' hin' hfilled rfl
      have hpage : (read_buf.take n).length = n := List.length_take_of_le (by omega)
      have hsplit : read_buf.take len.toNat =
          read_buf.take n ++ (read_buf.drop n).take (len.toNat - n) := by
        rw [← List.take_add]
        congr 1
        omega
      rw [dif_pos (UInt32.lt_iff_toNat_lt.mpr (by simpa using hpos))]
      simp only [hcopy, hsent, hint, hloop, hsplit]
      refine ⟨_, rfl, Writes.cons ?_ ?_ ?_ ?_⟩
      · exact List.ne_nil_of_length_pos (by omega)
      · omega
      · omega
      · rw [hpage, ← htarget, ← hrest]
        exact hwrites

/-! ## Block writes and reads -/

/-- A call of `he_eeprom_write_block` for a block inside of the device. -/
structure Write where
  stack : Fin 34 → UInt8
  buf : List UInt8
  addr : UInt32
  len : UInt32
  has_bytes : len.toNat ≤ buf.length
  in_device : addr.toNat + len.toNat ≤ EXTERNAL_EEPROM_BYTE_COUNT

def Write.bytes (w : Write) : List UInt8 := w.buf.take w.len.toNat

/-- The device between two calls: it stores no page, and it is protected
exactly when there is a pin for it. -/
def Eeprom.Ready (wpPin : Bool) (e : Eeprom) : Prop := e.busy = false ∧ e.protect = wpPin

theorem write_block_writes (w : Write) :
    ∃ bus, he_eeprom_write_block wpPin w.stack w.buf w.addr w.len = some bus ∧
      (∀ x ∈ bus, x.InPage) ∧
      ∀ e : Eeprom, e.Ready wpPin →
        bus.foldl Eeprom.on e = { e with mem := patch e.mem w.addr.toNat w.bytes } := by
  obtain ⟨packets, hloop, hwrites⟩ := write_loop_writes w.addr w.has_bytes w.in_device
    (List.length_ofFn (f := w.stack))
  unfold he_eeprom_write_block
  rw [hloop]
  cases wpPin with
  | false =>
    refine ⟨packets, rfl, hwrites.in_page, fun e he => ?_⟩
    exact hwrites.effect e he.2 he.1
  | true =>
    refine ⟨_, rfl, fun x hx => ?_, fun e he => ?_⟩
    · simp only [List.mem_append, List.mem_cons, List.not_mem_nil, or_false] at hx
      rcases hx with ((rfl | rfl) | hx) | (rfl | rfl)
      · trivial
      · trivial
      · exact hwrites.in_page x hx
      · trivial
      · trivial
    · have heffect := hwrites.effect { e with protect := false } rfl he.1
      have hprotect : e.protect = true := he.2
      simp only [List.foldl_append, List.foldl_cons, List.foldl_nil, Eeprom.on]
      simp only [ne_eq, not_true_eq_false, decide_false, heffect, hprotect]
      rfl

/-- One call, and what the device makes of it. -/
def written (e : Eeprom) (w : Write) : Option Eeprom :=
  (he_eeprom_write_block wpPin w.stack w.buf w.addr w.len).map (·.foldl Eeprom.on e)

def patched (m : Nat → UInt8) (ws : List Write) : Nat → UInt8 :=
  (ws.map fun w => (w.addr.toNat, w.bytes)).foldl (fun m w => patch m w.1 w.2) m

theorem written_run (he : e.Ready wpPin) (ws : List Write) :
    ws.foldlM (written wpPin) e = some { e with mem := patched e.mem ws } := by
  induction ws generalizing e with
  | nil => rfl
  | cons w ws ih =>
    obtain ⟨bus, hbus, -, heffect⟩ := write_block_writes wpPin w
    have hw : written wpPin e w = some { e with mem := patch e.mem w.addr.toNat w.bytes } := by
      simp only [written, hbus, Option.map_some, heffect e he]
    rw [List.foldlM_cons, hw]
    exact ih he

/-- A read sends the two bytes of the address alone, and receives the block. -/
theorem read_block_eq (hbusy : e.busy = false) (stack : Fin 2 → UInt8) {addr : UInt32}
    (hin : addr.toNat + len.toNat ≤ EXTERNAL_EEPROM_BYTE_COUNT) :
    (he_eeprom_read_block e stack addr len).map Prod.fst =
      some (readBlock e.mem addr.toNat len.toNat) := by
  have hcount : EXTERNAL_EEPROM_BYTE_COUNT = 1024 := rfl
  have haddr := addressBytes_toNat addr (by omega)
  have hstack : List.ofFn stack = [stack 0, stack 1] := by simp
  have hlen : len.toUInt16.toNat = len.toNat := by
    exact Nat.mod_eq_of_lt (by omega)
  have hsent : i2c_transmit EXTERNAL_EEPROM_I2C_BASE_ADDRESS (addressBytes addr)
      (.ofNat EXTERNAL_EEPROM_ADDRESS_SIZE) 100 =
      some (.i2c_transmit EXTERNAL_EEPROM_I2C_BASE_ADDRESS (addressBytes addr) 100) := rfl
  have hon : e.on (.i2c_transmit EXTERNAL_EEPROM_I2C_BASE_ADDRESS (addressBytes addr) 100) =
      { e with pointer := addr.toNat % EXTERNAL_EEPROM_BYTE_COUNT } := by
    simp only [Eeprom.on, addressBytes, hbusy, ne_eq, not_true_eq_false, Bool.false_eq_true,
      or_self, if_false, haddr]
  unfold he_eeprom_read_block
  simp only [hstack, fill_target_address_eq, List.append_nil, hsent, hon, Option.map_some]
  congr 1
  unfold Eeprom.i2c_receive readBlock
  rw [hlen]
  apply List.map_congr_left
  intro i hi
  have := List.mem_range.mp hi
  simp only
  rw [Nat.mod_add_mod, Nat.mod_eq_of_lt (by omega)]

/-! ## Erasing -/

def he_eeprom_driver_erase (stack : Nat → Fin 34 → UInt8) : List Write :=
  (List.finRange 32).map fun k : Fin 32 =>
    { stack := stack k.val
      buf := List.replicate 32 0
      addr := .ofNat (k.val * 32)
      len := EXTERNAL_EEPROM_PAGE_SIZE
      has_bytes := Nat.le_refl 32
      in_device := by
        change k.val * 32 % 4294967296 + 32 ≤ 1024
        omega }

theorem erase_bytes {stack : Nat → Fin 34 → UInt8} {w : Nat × List UInt8}
    (h : w ∈ (he_eeprom_driver_erase stack).map fun w => (w.addr.toNat, w.bytes)) :
    ∃ k < 32, w = (k * 32, List.replicate 32 0) := by
  simp only [he_eeprom_driver_erase, List.map_map, List.mem_map, Function.comp_apply] at h
  obtain ⟨k, -, rfl⟩ := h
  have haddr : (UInt32.ofNat (k.val * 32)).toNat = k.val * 32 := by
    exact Nat.mod_eq_of_lt (by omega)
  exact ⟨k.val, k.isLt, Prod.ext haddr rfl⟩

theorem page_mem_erase (stack : Nat → Fin 34 → UInt8) {k : Nat} (hk : k < 32) :
    (k * 32, List.replicate 32 0) ∈
      (he_eeprom_driver_erase stack).map fun w => (w.addr.toNat, w.bytes) := by
  simp only [he_eeprom_driver_erase, List.map_map, List.mem_map, Function.comp_apply]
  refine ⟨⟨k, hk⟩, List.mem_finRange _, Prod.ext ?_ rfl⟩
  exact Nat.mod_eq_of_lt (by omega)

theorem patched_erase (stack : Nat → Fin 34 → UInt8) (m : Nat → UInt8) :
    patched m (he_eeprom_driver_erase stack) =
      fun a => if a < EXTERNAL_EEPROM_BYTE_COUNT then 0 else m a := by
  have hcount : EXTERNAL_EEPROM_BYTE_COUNT = 1024 := rfl
  funext a
  rw [patched, patches_apply]
  cases hlast : lastWritten ((he_eeprom_driver_erase stack).map
      fun w => (w.addr.toNat, w.bytes)) a with
  | none =>
    rw [lastWritten_eq_none] at hlast
    have hout : ¬ a < EXTERNAL_EEPROM_BYTE_COUNT := by
      intro h
      have hpage := hlast _ (page_mem_erase stack (k := a / 32) (by omega))
      simp only [List.length_replicate] at hpage
      omega
    rw [if_neg hout]
    rfl
  | some x =>
    obtain ⟨w, hw, hle, hx⟩ := exists_of_lastWritten hlast
    obtain ⟨k, hk, rfl⟩ := erase_bytes hw
    rw [List.getElem?_replicate] at hx
    split at hx
    · rename_i hlt
      rw [if_pos (by simp only at hle; omega)]
      exact (Option.some.inj hx).symm
    · cases hx

inductive BoardCall : Type 1 where
  | he_eeprom_write_block {α : Type} (codec : layout.Codec α) (x : α) (w : Write)
    (bytes : w.bytes = codec.encode x)
  | he_eeprom_driver_erase (stack : Nat → Fin 34 → UInt8)

def BoardCall.writes : BoardCall → List Write
  | he_eeprom_write_block _ _ w _ => [w]
  | he_eeprom_driver_erase stack => eeprom_he.he_eeprom_driver_erase stack

def BoardCall.on (b : Board R C) : BoardCall → Board R C
  | he_eeprom_write_block codec x w _ => b.he_eeprom_write_block codec x w.addr.toNat
  | he_eeprom_driver_erase _ => b.he_eeprom_driver_erase

theorem BoardCall.patched (b : Board R C) (call : BoardCall) :
    eeprom_he.patched b.he_eeprom call.writes = (call.on b).he_eeprom := by
  cases call with
  | he_eeprom_write_block codec x w bytes =>
    change patch b.he_eeprom w.addr.toNat w.bytes = _
    rw [bytes]
    rfl
  | he_eeprom_driver_erase stack => exact patched_erase stack b.he_eeprom

/-- Through every run of calls, the cells of the device are what the board takes the EEPROM
to hold: the packets of a write and the pages of an erase come to one call each. -/
theorem board_calls_are_written (wpPin : Bool) (b : Board R C) (pointer : Nat)
    (calls : List BoardCall) :
    ((calls.flatMap BoardCall.writes).foldlM (written wpPin)
        ⟨b.he_eeprom, pointer, wpPin, false⟩).map Eeprom.mem =
      some (calls.foldl BoardCall.on b).he_eeprom := by
  have he : Eeprom.Ready wpPin ⟨b.he_eeprom, pointer, wpPin, false⟩ := ⟨rfl, rfl⟩
  rw [written_run wpPin he, Option.map_some]
  refine congrArg some ?_
  change patched b.he_eeprom _ = _
  clear he
  induction calls generalizing b with
  | nil => rfl
  | cons call calls ih =>
    rw [List.foldl_cons, ← ih, ← call.patched, List.flatMap_cons, patched, List.map_append,
      List.foldl_append]
    rfl

/-- Block writes are exact: each ends, its packets fit into the buffer and stay
in their pages, and together they write its bytes and nothing else. After any
sequence of them, a read gives for each byte what was last written there. -/
theorem block_writes_are_exact (wpPin : Bool) {e : Eeprom} (he : e.Ready wpPin) :
    (∀ w : Write, ∃ bus, he_eeprom_write_block wpPin w.stack w.buf w.addr w.len = some bus ∧
      (∀ x ∈ bus, x.InPage) ∧
      bus.foldl Eeprom.on e = { e with mem := patch e.mem w.addr.toNat w.bytes }) ∧
    ∀ ws : List Write, ∃ e', ws.foldlM (written wpPin) e = some e' ∧
      ∀ (stack : Fin 2 → UInt8) (addr len : UInt32),
        addr.toNat + len.toNat ≤ EXTERNAL_EEPROM_BYTE_COUNT →
        (he_eeprom_read_block e' stack addr len).map Prod.fst =
          some ((List.range len.toNat).map fun i =>
            (lastWritten (ws.map fun w => (w.addr.toNat, w.bytes)) (addr.toNat + i)).getD
              (e.mem (addr.toNat + i))) := by
  refine ⟨fun w => ?_, fun ws => ⟨_, written_run wpPin he ws, fun stack addr len hin => ?_⟩⟩
  · obtain ⟨bus, hbus, hpages, heffect⟩ := write_block_writes wpPin w
    exact ⟨bus, hbus, hpages, heffect e he⟩
  · have hbusy : ({ e with mem := patched e.mem ws } : Eeprom).busy = false := he.1
    rw [read_block_eq hbusy stack hin]
    simp only [readBlock, patched, patches_apply]

/-- The same of a device whose cells are blank. -/
theorem blank_device_is_written :
    let e : Eeprom := ⟨fun _ => 0xFF, 0, true, false⟩
    e.Ready true ∧ ∀ w : Write, ∃ bus,
      he_eeprom_write_block true w.stack w.buf w.addr w.len = some bus ∧
      (∀ x ∈ bus, x.InPage) ∧
      bus.foldl Eeprom.on e = { e with mem := patch e.mem w.addr.toNat w.bytes } :=
  ⟨⟨rfl, rfl⟩, (block_writes_are_exact true ⟨rfl, rfl⟩).1⟩

end keychron_qmk.eeprom_he
