-- The slave's answer to the frames of the serial link, after
-- `serial_protocol.c`, and the remote procedure calls of `transactions.c`, which
-- set the lengths of two transactions from a received frame.
import KeychronQMK.Lib.Runs
import KeychronQMK.Split.Transactions

namespace keychron_qmk.split

open runs

/-! ## Transactions -/

/-- A field of the shared memory. -/
structure Region where
  offset : Nat
  size : Nat

/-- No field. -/
def Region.nowhere : Region := ⟨0, 0⟩

def Region.Holds (r : Region) (a : Nat) : Prop := r.offset ≤ a ∧ a < r.offset + r.size

instance (r : Region) (a : Nat) : Decidable (r.Holds a) := inferInstanceAs (Decidable (_ ∧ _))

inductive slave_callback_t
  | NULL
  | encoder_handlers_slave_drain
  | slave_rpc_info_callback
  | slave_rpc_exec_callback
  /-- A function of the keyboard or of the keymap. -/
  | user
  deriving DecidableEq

structure split_transaction_desc_t where
  initiator2target_buffer_size : UInt8
  initiator2target_offset : Nat
  target2initiator_buffer_size : UInt8
  target2initiator_offset : Nat
  slave_callback : slave_callback_t

structure Fields where
  initiator2target : Region
  target2initiator : Region
  slave_callback : slave_callback_t

def Fields.empty : Fields := ⟨.nowhere, .nowhere, .NULL⟩

def Fields.desc (f : Fields) : split_transaction_desc_t where
  initiator2target_buffer_size := .ofNat f.initiator2target.size
  initiator2target_offset := f.initiator2target.offset
  target2initiator_buffer_size := .ofNat f.target2initiator.size
  target2initiator_offset := f.target2initiator.offset
  slave_callback := f.slave_callback

/-- What the build selects: the transactions before and behind those of the
remote procedure calls, where the fields of the calls lie, and what the
functions of the user write to `rpc_s2m_buffer`. -/
structure Setup where
  core : List Fields
  user_ids : Nat
  registered : List (Fin user_ids)
  detected_os : List Fields
  rpc_info : Nat
  rpc_m2s_buffer : Nat
  rpc_s2m_buffer : Nat
  RPC_M2S_BUFFER_SIZE : Nat
  RPC_S2M_BUFFER_SIZE : Nat
  reply : Nat → (Nat → UInt8) → Nat → UInt8
  plain : ∀ f ∈ core ++ detected_os,
    f.slave_callback = .NULL ∨ f.slave_callback = .encoder_handlers_slave_drain

namespace Setup

variable (cfg : Setup)

def PUT_RPC_INFO : Nat := cfg.core.length

def PUT_RPC_REQ_DATA : Nat := cfg.core.length + 1

def EXECUTE_RPC : Nat := cfg.core.length + 2

def GET_RPC_RESP_DATA : Nat := cfg.core.length + 3

def m2s_region : Region := ⟨cfg.rpc_m2s_buffer, cfg.RPC_M2S_BUFFER_SIZE⟩

def s2m_region : Region := ⟨cfg.rpc_s2m_buffer, cfg.RPC_S2M_BUFFER_SIZE⟩

/-- The transactions of the remote procedure calls. `rpc_info` holds its
checksum and its payload: an id and two lengths. -/
def rpc_fields : List Fields :=
  [⟨⟨cfg.rpc_info, 4⟩, .nowhere, .slave_rpc_info_callback⟩,
    ⟨cfg.m2s_region, .nowhere, .NULL⟩,
    ⟨⟨cfg.rpc_info + 1, 1⟩, .nowhere, .slave_rpc_exec_callback⟩,
    ⟨.nowhere, cfg.s2m_region, .NULL⟩]

def fields : List Fields :=
  cfg.core ++ (cfg.rpc_fields ++ (List.replicate cfg.user_ids .empty ++ cfg.detected_os))

def NUM_TOTAL_TRANSACTIONS : Nat := cfg.fields.length

def field (id : Nat) : Fields := cfg.fields.getD id .empty

abbrev Table := Nat → split_transaction_desc_t

def transaction_register_rpc (table : Table) (transaction_id : Nat) : Table :=
  if transaction_id ≤ cfg.GET_RPC_RESP_DATA then table
  else
    let desc := table transaction_id
    Function.update table transaction_id
      { desc with
        slave_callback := .user
        initiator2target_offset := cfg.rpc_m2s_buffer
        target2initiator_offset := cfg.rpc_s2m_buffer }

def split_transaction_table : Table :=
  cfg.registered.foldl (fun table k =>
    cfg.transaction_register_rpc table (cfg.GET_RPC_RESP_DATA + 1 + k)) fun id => (cfg.field id).desc

end Setup

/-! ## The slave -/

/-- The slave. It is `lost` when it has left the table, or calls itself
without end; what it does then is not modelled. -/
structure Slave where
  table : Setup.Table
  shmem : Nat → UInt8
  lost : Bool

/-- An index into the table, a byte stored at an address of the shared memory
for a transaction, or a byte sent from there. -/
inductive Access
  | index (i : Int)
  | store (id address : Nat)
  | send (id address : Nat)
  deriving DecidableEq

/-- A frame: the first byte, whether the handshake is sent, and the bytes that
arrive behind it before the receiver gives up. -/
structure Frame where
  transaction_id : UInt8
  handshake : Bool
  received : List UInt8

def int8_t (b : UInt8) : Int := if b.toNat < 128 then b.toNat else b.toNat - 256

namespace Slave

variable (cfg : Setup) (s : Slave)

def boot : Slave := ⟨cfg.split_transaction_table, fun _ => 0, false⟩

def receive (id : Nat) (bytes : List UInt8) : Slave :=
  { s with shmem := fun a =>
      if (Region.mk (s.table id).initiator2target_offset bytes.length).Holds a then
        bytes.getD (a - (s.table id).initiator2target_offset) 0
      else s.shmem a }

def stores (id : Nat) (bytes : List UInt8) : List Access :=
  (List.range bytes.length).map fun k => .store id ((s.table id).initiator2target_offset + k)

def sends (id : Nat) : List Access :=
  (List.range (s.table id).target2initiator_buffer_size.toNat).map fun k =>
    .send id ((s.table id).target2initiator_offset + k)

def slave_rpc_info_callback : Slave × List Access :=
  let req := s.table cfg.PUT_RPC_REQ_DATA
  let table := Function.update s.table cfg.PUT_RPC_REQ_DATA
    { req with initiator2target_buffer_size := s.shmem (cfg.rpc_info + 2) }
  let resp := table cfg.GET_RPC_RESP_DATA
  let table := Function.update table cfg.GET_RPC_RESP_DATA
    { resp with target2initiator_buffer_size := s.shmem (cfg.rpc_info + 3) }
  ({ s with table }, [.index cfg.PUT_RPC_REQ_DATA, .index cfg.GET_RPC_RESP_DATA])

def user_callback (id : Nat) : Slave :=
  { s with shmem := fun a =>
      if cfg.s2m_region.Holds a then cfg.reply id s.shmem a else s.shmem a }

/-- The index that `slave_rpc_exec_callback` takes into the table: an id in
`rpc_info` that passes the checksum and the upper bound. -/
def rpc_target : Option Int :=
  let payload := [s.shmem (cfg.rpc_info + 1), s.shmem (cfg.rpc_info + 2),
    s.shmem (cfg.rpc_info + 3)]
  if crc8 payload ≠ s.shmem cfg.rpc_info then none
  else if int8_t (s.shmem (cfg.rpc_info + 1)) < cfg.NUM_TOTAL_TRANSACTIONS then
    some (int8_t (s.shmem (cfg.rpc_info + 1)))
  else none

def slave_rpc_exec_callback : Slave × List Access :=
  match rpc_target cfg s with
  | none => (s, [])
  | some transaction_id =>
    if transaction_id < 0 then ({ s with lost := true }, [.index transaction_id])
    else
      match (s.table transaction_id.toNat).slave_callback with
      | .NULL | .encoder_handlers_slave_drain => (s, [.index transaction_id])
      | .slave_rpc_info_callback =>
        ((slave_rpc_info_callback cfg s).1,
          .index transaction_id :: (slave_rpc_info_callback cfg s).2)
      -- the callback would find the same id again, without end
      | .slave_rpc_exec_callback => ({ s with lost := true }, [.index transaction_id])
      | .user => (user_callback cfg s transaction_id.toNat, [.index transaction_id])

def call (id : Nat) : slave_callback_t → Slave × List Access
  | .NULL | .encoder_handlers_slave_drain => (s, [])
  | .slave_rpc_info_callback => slave_rpc_info_callback cfg s
  | .slave_rpc_exec_callback => slave_rpc_exec_callback cfg s
  | .user => (user_callback cfg s id, [])

def taken (f : Frame) : List UInt8 :=
  f.received.take (s.table f.transaction_id.toNat).initiator2target_buffer_size.toNat

/-- The buffer of the transaction arrives as a whole. -/
def Complete (f : Frame) : Prop :=
  (s.table f.transaction_id.toNat).initiator2target_buffer_size.toNat ≤ f.received.length

instance (f : Frame) : Decidable (s.Complete f) := inferInstanceAs (Decidable (_ ≤ _))

def react_to_transaction (f : Frame) : Slave × List Access :=
  let id := f.transaction_id.toNat
  if id ≥ cfg.NUM_TOTAL_TRANSACTIONS then (s, [])
  else if f.handshake = false then (s, [.index id])
  else
    let received := s.receive id (s.taken f)
    let accesses := .index id :: s.stores id (s.taken f)
    if s.Complete f then
      let called := call cfg received id (s.table id).slave_callback
      (called.1, accesses ++ called.2 ++ if called.1.lost then [] else called.1.sends id)
    else (received, accesses)

def step (f : Frame) : Slave × List Access :=
  if s.lost then (s, []) else react_to_transaction cfg s f

/-! ## The property and the condition -/

def Right : Access → Prop
  | .index i => 0 ≤ i ∧ i < cfg.NUM_TOTAL_TRANSACTIONS
  | .store id a => (cfg.field id).initiator2target.Holds a
  | .send id a => (cfg.field id).target2initiator.Holds a

instance : DecidablePred (Right cfg)
  | .index _ => inferInstanceAs (Decidable (_ ∧ _))
  | .store _ _ => inferInstanceAs (Decidable (Region.Holds _ _))
  | .send _ _ => inferInstanceAs (Decidable (Region.Holds _ _))

def InFields (f : Frame) : Prop := ∀ access ∈ (step cfg s f).2, Right cfg access

/-- A request is not longer than its buffer, neither is a reply, and the id
to be executed is not negative. -/
def Bounded (f : Frame) : Prop :=
  s.lost = false → f.handshake = true →
    (f.transaction_id.toNat = cfg.PUT_RPC_REQ_DATA →
      (s.taken f).length ≤ cfg.RPC_M2S_BUFFER_SIZE) ∧
    (f.transaction_id.toNat = cfg.GET_RPC_RESP_DATA →
      (s.table cfg.GET_RPC_RESP_DATA).target2initiator_buffer_size.toNat ≤
        cfg.RPC_S2M_BUFFER_SIZE) ∧
    (f.transaction_id.toNat = cfg.EXECUTE_RPC → s.Complete f →
      ∀ i ∈ rpc_target cfg (s.receive cfg.EXECUTE_RPC (s.taken f)), 0 ≤ i)

/-! ## The table -/

/-- What the frames leave of the table: the length of a request and of a
reply may be any, every other buffer is in its field, and only `EXECUTE_RPC`
executes. -/
structure Sound (table : Setup.Table) : Prop where
  inward : ∀ id, id ≠ cfg.PUT_RPC_REQ_DATA →
    ∀ k < (table id).initiator2target_buffer_size.toNat,
      (cfg.field id).initiator2target.Holds ((table id).initiator2target_offset + k)
  outward : ∀ id, id ≠ cfg.GET_RPC_RESP_DATA →
    ∀ k < (table id).target2initiator_buffer_size.toNat,
      (cfg.field id).target2initiator.Holds ((table id).target2initiator_offset + k)
  request : (table cfg.PUT_RPC_REQ_DATA).initiator2target_offset = cfg.rpc_m2s_buffer
  reply : (table cfg.GET_RPC_RESP_DATA).target2initiator_offset = cfg.rpc_s2m_buffer
  executes : ∀ id, (table id).slave_callback = .slave_rpc_exec_callback ↔ id = cfg.EXECUTE_RPC
  silent : (table cfg.GET_RPC_RESP_DATA).slave_callback = .NULL

end Slave

namespace Setup

variable {cfg : Setup}

theorem field_core {id : Nat} (h : id < cfg.core.length) : cfg.field id ∈ cfg.core := by
  have : cfg.field id = cfg.core[id] := by
    simp [field, fields, List.getElem?_append_left h, h]
  rw [this]
  exact List.getElem_mem h

theorem field_rpc (cfg : Setup) (k : Nat) : cfg.field (cfg.core.length + k) =
    (cfg.rpc_fields ++ (List.replicate cfg.user_ids Fields.empty ++ cfg.detected_os)).getD k
      Fields.empty := by
  simp [field, fields, List.getElem?_append_right]

@[simp] theorem field_request : cfg.field cfg.PUT_RPC_REQ_DATA =
    ⟨cfg.m2s_region, .nowhere, .NULL⟩ :=
  cfg.field_rpc 1

@[simp] theorem field_execute : cfg.field cfg.EXECUTE_RPC =
    ⟨⟨cfg.rpc_info + 1, 1⟩, .nowhere, .slave_rpc_exec_callback⟩ :=
  cfg.field_rpc 2

@[simp] theorem field_reply : cfg.field cfg.GET_RPC_RESP_DATA =
    ⟨.nowhere, cfg.s2m_region, .NULL⟩ :=
  cfg.field_rpc 3

theorem field_user {k : Nat} (h : k < cfg.user_ids) :
    cfg.field (cfg.core.length + (4 + k)) = .empty := by
  have hlen : cfg.rpc_fields.length = 4 := rfl
  rw [cfg.field_rpc, List.getD_eq_getElem?_getD, List.getElem?_append_right (by omega), hlen,
    Nat.add_sub_cancel_left, List.getElem?_append_left (by simpa using h)]
  simp [h]

theorem field_behind (cfg : Setup) (k : Nat) :
    cfg.field (cfg.core.length + (4 + (cfg.user_ids + k))) = cfg.detected_os.getD k .empty := by
  have hlen : cfg.rpc_fields.length = 4 := rfl
  rw [cfg.field_rpc, List.getD_eq_getElem?_getD, List.getElem?_append_right (by omega), hlen,
    Nat.add_sub_cancel_left, List.getElem?_append_right (by simp)]
  simp

theorem field_inert {id : Nat} (h : ∀ k < 4, id ≠ cfg.core.length + k) :
    (cfg.field id).slave_callback = .NULL ∨
      (cfg.field id).slave_callback = .encoder_handlers_slave_drain := by
  rcases Nat.lt_or_ge id cfg.core.length with hcore | hcore
  · exact cfg.plain _ (List.mem_append_left _ (field_core hcore))
  · obtain ⟨k, rfl⟩ := Nat.exists_eq_add_of_le hcore
    rcases Nat.lt_or_ge k 4 with hk | hk
    · exact absurd rfl (h k hk)
    · obtain ⟨k, rfl⟩ := Nat.exists_eq_add_of_le hk
      rcases Nat.lt_or_ge k cfg.user_ids with huser | huser
      · rw [field_user huser]
        exact .inl rfl
      · obtain ⟨k, rfl⟩ := Nat.exists_eq_add_of_le huser
        rw [cfg.field_behind]
        rcases hget : cfg.detected_os[k]? with _ | f
        · exact .inl (by simp [hget, Fields.empty])
        · have := cfg.plain f (List.mem_append_right _ (List.mem_of_getElem? hget))
          simpa [hget] using this

theorem field_executes (id : Nat) :
    (cfg.field id).slave_callback = .slave_rpc_exec_callback ↔ id = cfg.EXECUTE_RPC := by
  constructor
  · intro h
    by_contra hid
    by_cases hrpc : ∀ k < 4, id ≠ cfg.core.length + k
    · rcases field_inert hrpc with hcb | hcb <;> simp [hcb] at h
    · push Not at hrpc
      obtain ⟨k, hk, rfl⟩ := hrpc
      rw [cfg.field_rpc] at h
      simp only [EXECUTE_RPC] at hid
      have : k = 0 ∨ k = 1 ∨ k = 3 := by omega
      rcases this with rfl | rfl | rfl <;> simp [rpc_fields] at h
  · rintro rfl
    simp

end Setup

namespace Slave

variable {cfg : Setup} {s : Slave}

theorem holds_of_lt {r : Region} {k : Nat} (h : k < (UInt8.ofNat r.size).toNat) :
    r.Holds (r.offset + k) := by
  have hle : (UInt8.ofNat r.size).toNat ≤ r.size := by
    exact Nat.mod_le _ _
  exact ⟨Nat.le_add_right _ _, Nat.add_lt_add_left (Nat.lt_of_lt_of_le h hle) _⟩

theorem Sound.initial : Sound cfg fun id => (cfg.field id).desc where
  inward _ _ _ hk := holds_of_lt hk
  outward _ _ _ hk := holds_of_lt hk
  request := by simp [Fields.desc, Setup.m2s_region]
  reply := by simp [Fields.desc, Setup.s2m_region]
  executes := Setup.field_executes
  silent := by simp [Fields.desc]

/-- What is kept of a descriptor whose transaction has no buffers. -/
structure Idle (table : Setup.Table) (id : Nat) : Prop where
  inward : (table id).initiator2target_buffer_size = 0
  outward : (table id).target2initiator_buffer_size = 0

variable {id : Nat} {table : Setup.Table}

theorem Sound.transaction_register_rpc (h : Sound cfg table) (hidle : Idle table id) :
    Sound cfg (cfg.transaction_register_rpc table id) := by
  unfold Setup.transaction_register_rpc
  split
  · exact h
  · rename_i hid
    simp only [Setup.GET_RPC_RESP_DATA] at hid
    constructor
    · intro id' hne k hk
      rcases eq_or_ne id' id with rfl | hid'
      · simp [hidle.inward] at hk
      · simp only [Function.update_of_ne hid'] at hk ⊢
        exact h.inward id' hne k hk
    · intro id' hne k hk
      rcases eq_or_ne id' id with rfl | hid'
      · simp [hidle.outward] at hk
      · simp only [Function.update_of_ne hid'] at hk ⊢
        exact h.outward id' hne k hk
    · rw [Function.update_of_ne (by simp only [Setup.PUT_RPC_REQ_DATA]; omega)]
      exact h.request
    · rw [Function.update_of_ne (by simp only [Setup.GET_RPC_RESP_DATA]; omega)]
      exact h.reply
    · intro id'
      rcases eq_or_ne id' id with rfl | hid'
      · simp only [Function.update_self, reduceCtorEq, Setup.EXECUTE_RPC, false_iff]
        omega
      · rw [Function.update_of_ne hid']
        exact h.executes id'
    · rw [Function.update_of_ne (by simp only [Setup.GET_RPC_RESP_DATA]; omega)]
      exact h.silent

theorem idle_transaction_register_rpc {id' : Nat} (h : Idle table id') :
    Idle (cfg.transaction_register_rpc table id) id' := by
  unfold Setup.transaction_register_rpc
  split
  · exact h
  · rcases eq_or_ne id' id with rfl | hid'
    · exact ⟨by simpa using h.inward, by simpa using h.outward⟩
    · exact ⟨by simpa [hid'] using h.inward, by simpa [hid'] using h.outward⟩

theorem Sound.split_transaction_table : Sound cfg cfg.split_transaction_table := by
  have hidle : ∀ k : Fin cfg.user_ids,
      Idle (fun id => (cfg.field id).desc) (cfg.GET_RPC_RESP_DATA + 1 + k) := by
    intro k
    have hid : cfg.GET_RPC_RESP_DATA + 1 + k = cfg.core.length + (4 + k) := by
      simp only [Setup.GET_RPC_RESP_DATA]
      omega
    rw [hid]
    constructor <;> simp [Setup.field_user k.isLt, Fields.desc, Fields.empty, Region.nowhere]
  unfold Setup.split_transaction_table
  generalize hinit : (fun id => (cfg.field id).desc) = table at hidle
  have hsound : Sound cfg table := hinit ▸ Sound.initial
  clear hinit
  induction cfg.registered generalizing table with
  | nil => exact hsound
  | cons k ks ih =>
    exact ih _ (fun k' => idle_transaction_register_rpc (hidle k'))
      (hsound.transaction_register_rpc (hidle k))

theorem Sound.slave_rpc_info_callback (h : Sound cfg s.table) :
    Sound cfg (slave_rpc_info_callback cfg s).1.table := by
  have hne : cfg.PUT_RPC_REQ_DATA ≠ cfg.GET_RPC_RESP_DATA := by
    simp [Setup.PUT_RPC_REQ_DATA, Setup.GET_RPC_RESP_DATA]
  simp only [Slave.slave_rpc_info_callback, Function.update_of_ne hne.symm]
  constructor
  · intro id hreq k hk
    rcases eq_or_ne id cfg.GET_RPC_RESP_DATA with rfl | hresp
    · simp only [Function.update_self] at hk ⊢
      exact h.inward _ hreq k hk
    · simp only [Function.update_of_ne hresp, Function.update_of_ne hreq] at hk ⊢
      exact h.inward id hreq k hk
  · intro id hresp k hk
    rcases eq_or_ne id cfg.PUT_RPC_REQ_DATA with rfl | hreq
    · simp only [Function.update_of_ne hresp, Function.update_self] at hk ⊢
      exact h.outward _ hresp k hk
    · simp only [Function.update_of_ne hresp, Function.update_of_ne hreq] at hk ⊢
      exact h.outward id hresp k hk
  · simpa [hne] using h.request
  · simpa using h.reply
  · intro id
    rw [← h.executes id]
    rcases eq_or_ne id cfg.GET_RPC_RESP_DATA with rfl | hresp
    · simp
    · rcases eq_or_ne id cfg.PUT_RPC_REQ_DATA with rfl | hreq
      · simp [hne]
      · simp [hresp, hreq]
  · simpa using h.silent

theorem Sound.slave_rpc_exec_callback (h : Sound cfg s.table) :
    Sound cfg (slave_rpc_exec_callback cfg s).1.table := by
  unfold Slave.slave_rpc_exec_callback
  split
  · exact h
  · split
    · exact h
    · split
      · exact h
      · exact h
      · exact h.slave_rpc_info_callback
      · exact h
      · exact h

theorem Sound.call (h : Sound cfg s.table) (id : Nat) (cb : slave_callback_t) :
    Sound cfg (call cfg s id cb).1.table := by
  cases cb with
  | NULL => exact h
  | encoder_handlers_slave_drain => exact h
  | slave_rpc_info_callback => exact h.slave_rpc_info_callback
  | slave_rpc_exec_callback => exact h.slave_rpc_exec_callback
  | user => exact h

theorem Sound.step (h : Sound cfg s.table) (f : Frame) : Sound cfg (step cfg s f).1.table := by
  unfold Slave.step
  split
  · exact h
  · unfold react_to_transaction
    dsimp only
    split
    · exact h
    · split
      · exact h
      · have hreceived : Sound cfg (s.receive f.transaction_id.toNat (s.taken f)).table := h
        split
        · exact hreceived.call _ _
        · exact hreceived

/-! ## The accesses of a frame -/

theorem field_of_index_lt (h : ¬ id ≥ cfg.NUM_TOTAL_TRANSACTIONS) : Right cfg (.index id) :=
  ⟨Int.natCast_nonneg _, by omega⟩

theorem four_le_total (cfg : Setup) : cfg.core.length + 4 ≤ cfg.NUM_TOTAL_TRANSACTIONS := by
  simp [Setup.NUM_TOTAL_TRANSACTIONS, Setup.fields, Setup.rpc_fields]

/-- A request is stored in its buffer when it is not longer, and every other
buffer is stored in its field. -/
theorem stores_right_iff (h : Sound cfg s.table) {bytes : List UInt8}
    (hlen : bytes.length ≤ (s.table id).initiator2target_buffer_size.toNat) :
    (∀ access ∈ s.stores id bytes, Right cfg access) ↔
      (id = cfg.PUT_RPC_REQ_DATA → bytes.length ≤ cfg.RPC_M2S_BUFFER_SIZE) := by
  simp only [stores, List.forall_mem_map, List.mem_range, Right]
  by_cases hid : id = cfg.PUT_RPC_REQ_DATA
  · subst hid
    simp only [Setup.field_request, h.request, Region.Holds, Setup.m2s_region, forall_const]
    constructor
    · intro hright
      by_contra hlong
      have := (hright cfg.RPC_M2S_BUFFER_SIZE (by omega)).2
      omega
    · intro hfits k hk
      omega
  · simp only [hid, false_implies, iff_true]
    intro k hk
    exact h.inward id hid k (by omega)

theorem sends_right_iff (h : Sound cfg s.table) :
    (∀ access ∈ s.sends id, Right cfg access) ↔
      (id = cfg.GET_RPC_RESP_DATA →
        (s.table id).target2initiator_buffer_size.toNat ≤ cfg.RPC_S2M_BUFFER_SIZE) := by
  simp only [sends, List.forall_mem_map, List.mem_range, Right]
  by_cases hid : id = cfg.GET_RPC_RESP_DATA
  · subst hid
    simp only [Setup.field_reply, h.reply, Region.Holds, Setup.s2m_region, forall_const]
    constructor
    · intro hright
      by_contra hlong
      have := (hright cfg.RPC_S2M_BUFFER_SIZE (by omega)).2
      omega
    · intro hfits k hk
      omega
  · simp only [hid, false_implies, iff_true]
    intro k hk
    exact h.outward id hid k hk

theorem slave_rpc_info_callback_right :
    ∀ access ∈ (slave_rpc_info_callback cfg s).2, Right cfg access := by
  have := four_le_total cfg
  simp only [slave_rpc_info_callback, List.mem_cons, List.not_mem_nil, or_false]
  rintro _ (rfl | rfl)
  · exact field_of_index_lt (by simp only [Setup.PUT_RPC_REQ_DATA]; omega)
  · exact field_of_index_lt (by simp only [Setup.GET_RPC_RESP_DATA]; omega)

theorem rpc_target_lt {i : Int} (h : rpc_target cfg s = some i) :
    i < cfg.NUM_TOTAL_TRANSACTIONS := by
  simp only [rpc_target] at h
  split_ifs at h with hcrc hlt
  simp only [Option.some.injEq] at h
  omega

theorem slave_rpc_exec_callback_right_iff :
    (∀ access ∈ (slave_rpc_exec_callback cfg s).2, Right cfg access) ↔
      ∀ i ∈ rpc_target cfg s, 0 ≤ i := by
  unfold slave_rpc_exec_callback
  rcases htarget : rpc_target cfg s with _ | i
  · simp
  · have hlt := rpc_target_lt htarget
    simp only [Option.mem_def, Option.some.injEq, forall_eq']
    by_cases hneg : i < 0
    · simp only [if_pos hneg, List.mem_singleton, forall_eq, Right]
      omega
    · have hindex : Right cfg (.index i) := ⟨by omega, hlt⟩
      simp only [if_neg hneg, Int.not_lt.mp hneg, iff_true]
      split
      · simpa using hindex
      · simpa using hindex
      · simpa [hindex] using slave_rpc_info_callback_right
      · simpa using hindex
      · simpa using hindex

theorem call_right_iff {cb : slave_callback_t}
    (hcb : cb = .slave_rpc_exec_callback ↔ id = cfg.EXECUTE_RPC) :
    (∀ access ∈ (call cfg s id cb).2, Right cfg access) ↔
      (id = cfg.EXECUTE_RPC → ∀ i ∈ rpc_target cfg s, 0 ≤ i) := by
  rw [← hcb]
  cases cb with
  | NULL => simp [call]
  | encoder_handlers_slave_drain => simp [call]
  | slave_rpc_info_callback => simpa [call] using slave_rpc_info_callback_right
  | slave_rpc_exec_callback => simpa [call] using slave_rpc_exec_callback_right_iff
  | user => simp [call]

theorem taken_length_le (s : Slave) (f : Frame) : (s.taken f).length ≤
    (s.table f.transaction_id.toNat).initiator2target_buffer_size.toNat :=
  List.length_take_le _ _

theorem complete_of_reply (h : Sound cfg s.table) {f : Frame}
    (hid : f.transaction_id.toNat = cfg.GET_RPC_RESP_DATA) : s.Complete f := by
  have hne : f.transaction_id.toNat ≠ cfg.PUT_RPC_REQ_DATA := by
    simp [hid, Setup.PUT_RPC_REQ_DATA, Setup.GET_RPC_RESP_DATA]
  have hsize := h.inward _ hne 0
  simp only [hid, Setup.field_reply, Region.nowhere, Region.Holds] at hsize
  simp only [Complete, hid]
  omega

/-- What is sent behind the call is in its field when the reply is not longer
than its buffer. -/
theorem received_right_iff (h : Sound cfg s.table) (hlost : s.lost = false) (f : Frame) :
    let id := f.transaction_id.toNat
    let called := call cfg (s.receive id (s.taken f)) id (s.table id).slave_callback
    (∀ access ∈ if called.1.lost then [] else called.1.sends id, Right cfg access) ↔
      (id = cfg.GET_RPC_RESP_DATA →
        (s.table cfg.GET_RPC_RESP_DATA).target2initiator_buffer_size.toNat ≤
          cfg.RPC_S2M_BUFFER_SIZE) := by
  intro id called
  have hsound : Sound cfg called.1.table := Sound.call (s := s.receive id (s.taken f)) h id _
  by_cases hid : id = cfg.GET_RPC_RESP_DATA
  · have hcalled : called.1 = s.receive id (s.taken f) := by
      simp only [called, hid, h.silent, call]
    have hreceived : (s.receive id (s.taken f)).lost = false := hlost
    simp only [hcalled, hreceived, Bool.false_eq_true, if_false] at hsound ⊢
    rw [sends_right_iff hsound, hid]
    rfl
  · simp only [hid, false_implies, iff_true]
    split
    · simp
    · exact (sends_right_iff hsound).mpr fun h' => absurd h' hid

/-- A frame stays in the fields of its transaction and in the table exactly
when it is bounded. -/
theorem inFields_iff (h : Sound cfg s.table) (f : Frame) :
    Bounded cfg s f ↔ InFields cfg s f := by
  have hfour := four_le_total cfg
  unfold InFields step Bounded
  by_cases hlost : s.lost = true
  · simp [hlost]
  · have hlost : s.lost = false := by simpa using hlost
    simp only [hlost, Bool.false_eq_true, if_false, forall_const]
    unfold react_to_transaction
    by_cases hid : f.transaction_id.toNat ≥ cfg.NUM_TOTAL_TRANSACTIONS
    · rw [if_pos hid]
      simp only [Setup.PUT_RPC_REQ_DATA, Setup.GET_RPC_RESP_DATA, Setup.EXECUTE_RPC]
      simp only [List.not_mem_nil, false_implies, implies_true, iff_true]
      intro _
      refine ⟨?_, ?_, ?_⟩ <;> intro heq <;> omega
    · have hindex := field_of_index_lt hid
      rw [if_neg hid]
      rcases hshake : f.handshake with _ | _
      · simpa using hindex
      · simp only [Bool.true_eq_false, if_false, forall_const]
        have hstores := stores_right_iff h (s.taken_length_le f)
        have hcall := call_right_iff (s := s.receive f.transaction_id.toNat (s.taken f))
          (h.executes f.transaction_id.toNat)
        by_cases hcomplete : s.Complete f
        · have hsends := received_right_iff h hlost f
          rw [if_pos hcomplete]
          simp only [List.mem_append, List.mem_cons, or_imp, forall_and, forall_eq, hindex,
            true_and, hstores, hcall, hsends, hcomplete, forall_const]
          constructor
          · rintro ⟨hreq, hresp, hexec⟩
            exact ⟨⟨hreq, fun he => he ▸ hexec he⟩, hresp⟩
          · rintro ⟨⟨hreq, hexec⟩, hresp⟩
            exact ⟨hreq, hresp, fun he => he ▸ hexec he⟩
        · rw [if_neg hcomplete]
          simp only [List.mem_cons, or_imp, forall_and, forall_eq, hindex, true_and, hstores,
            hcomplete, false_implies, implies_true, and_true]
          constructor
          · rintro ⟨hreq, -⟩
            exact hreq
          · intro hreq
            exact ⟨hreq, fun he => absurd (complete_of_reply h he) hcomplete⟩

/-- In every run from the boot, each frame stays in the fields of its
transaction and in the table exactly when each is bounded. -/
theorem frames_stay_in_their_fields_iff (cfg : Setup) (frames : List Frame) :
    Along (fun s f => (step cfg s f).1) (InFields cfg) (boot cfg) frames ↔
      Along (fun s f => (step cfg s f).1) (Bounded cfg) (boot cfg) frames :=
  Along.iff (I := fun s => Sound cfg s.table) (fun _ f h => inFields_iff h f)
    (fun _ f h _ => h.step f) Sound.split_transaction_table

def board : Setup where
  core := [⟨.nowhere, ⟨0, 1⟩, .NULL⟩, ⟨.nowhere, ⟨1, 4⟩, .NULL⟩]
  user_ids := 1
  registered := [0]
  detected_os := []
  rpc_info := 5
  rpc_m2s_buffer := 9
  rpc_s2m_buffer := 41
  RPC_M2S_BUFFER_SIZE := 32
  RPC_S2M_BUFFER_SIZE := 32
  reply _ _ _ := 0
  plain := by simp

/-- The length of a request is taken from `rpc_info` before its checksum is
compared, so 200 bytes overrun the 32 of `rpc_m2s_buffer`; and the id -1
passes both the checksum and the bound. -/
theorem a_corrupted_frame_leaves_its_field :
    ¬ Along (fun s f => (step board s f).1) (InFields board) (boot board)
      [⟨2, true, [0, 6, 200, 0]⟩, ⟨3, true, List.replicate 200 0⟩] ∧
    ¬ Along (fun s f => (step board s f).1) (InFields board) (boot board)
      [⟨2, true, [crc8 [255, 0, 0], 255, 0, 0]⟩, ⟨4, true, [255]⟩] := by
  constructor
  · rintro ⟨-, hreq, -⟩
    have hlong := hreq (.store 3 208) (by decide +kernel)
    exact absurd hlong (by decide)
  · rintro ⟨-, hexec, -⟩
    have hneg := hexec (.index (-1)) (by decide +kernel)
    exact absurd hneg (by decide)

end Slave

end keychron_qmk.split
