-- The functions of `common/snap_click/snap_click.c`: what a key of a pair
-- does to the report while the other key is down, and the table of pairs.
import KeychronQMK.Report.RegisterCode
import Mathlib.Data.Fin.VecNotation

namespace keychron_qmk.snap_click

open action action_util report

def SNAP_CLICK_COUNT : Nat := 20

inductive SnapClickType where
  | NONE
  | REGULAR
  | LAST_INPUT
  | FIRST_KEY
  | SECOND_KEY
  | NEUTRAL
  deriving DecidableEq

def SnapClickType.ofCode (code : UInt8) : Option SnapClickType :=
  [NONE, REGULAR, LAST_INPUT, FIRST_KEY, SECOND_KEY, NEUTRAL][code.toNat]?

structure SnapClickConfig where
  type : SnapClickType
  key : Fin 2 → UInt8
  deriving DecidableEq

/-- The two bit fields. The other bits of the byte are never written. -/
structure SnapClickState where
  state_keys : BitVec 2
  last_single_key : BitVec 2
  deriving DecidableEq

def SnapClickState.zero : SnapClickState := ⟨0, 0⟩

def SC_MASK_BOTH_KEYS_PRESSED : BitVec 2 := 3

def keyBit (index : Fin 2) : BitVec 2 := 1 <<< index.val

/-- A pair that is in use and has the keycode. -/
def SnapClickConfig.Matches (p : SnapClickConfig) (keycode : UInt8) : Prop :=
  p.type ≠ .NONE ∧ (keycode = p.key 0 ∨ keycode = p.key 1)

instance (p : SnapClickConfig) (keycode : UInt8) : Decidable (p.Matches keycode) :=
  inferInstanceAs (Decidable (_ ∧ _))

/-- The two keys of the pair differ. -/
def SnapClickConfig.Distinct (p : SnapClickConfig) : Prop := p.key 0 ≠ p.key 1

instance (p : SnapClickConfig) : Decidable p.Distinct := inferInstanceAs (Decidable (_ ≠ _))

def SnapClickConfig.index (p : SnapClickConfig) (keycode : UInt8) : Fin 2 :=
  if keycode = p.key 1 then 1 else 0

section

variable (host : Host) (p : SnapClickConfig) (index : Fin 2)

def both_keys_pressed (s : State) : State :=
  match p.type with
  | .REGULAR | .LAST_INPUT =>
    register_code host (p.key index) (unregister_code host (p.key (1 - index)) s)
  | .FIRST_KEY => register_code host (p.key 0) (unregister_code host (p.key 1) s)
  | .SECOND_KEY => register_code host (p.key 1) (unregister_code host (p.key 0) s)
  | .NEUTRAL => unregister_code host (p.key (1 - index)) s
  | .NONE => s

def one_key_released (s : State) : State :=
  match p.type with
  | .REGULAR => unregister_code host (p.key index) s
  | .LAST_INPUT | .FIRST_KEY | .SECOND_KEY =>
    let s := if is_key_pressed host.host_can_send_nkro (p.key index) s.report then
        unregister_code host (p.key index) s
      else s
    if ¬ is_key_pressed host.host_can_send_nkro (p.key (1 - index)) s.report then
      register_code host (p.key (1 - index)) s
    else s
  | .NEUTRAL => register_code host (p.key (1 - index)) s
  | .NONE => s

/-- One turn of the loop, for a pair with the keycode: whether the function
returns, and the state of the pair. -/
def process_pair (pressed : Bool) (pState : SnapClickState) (s : State) :
    Bool × SnapClickState × State :=
  if pressed then
    let state := keyBit index
    if pState = .zero then (false, ⟨state, state⟩, s)
    else if state &&& pState.state_keys = 0 then
      (true, { pState with state_keys := SC_MASK_BOTH_KEYS_PRESSED },
        both_keys_pressed host p index s)
    else (false, pState, s)
  else if pState.state_keys = SC_MASK_BOTH_KEYS_PRESSED then
    let state := keyBit (1 - index)
    (true, ⟨state, state⟩, one_key_released host p index s)
  else (false, .zero, s)

end

/-- The table, its states, and the keyboard report with the modifiers. -/
structure SnapClick where
  snap_click_pair : Fin SNAP_CLICK_COUNT → SnapClickConfig
  snap_click_state : Fin SNAP_CLICK_COUNT → SnapClickState
  keyboard : State

def process_pairs (host : Host) (keycode : UInt8) (pressed : Bool) :
    List (Fin SNAP_CLICK_COUNT) → SnapClick → Bool × SnapClick
  | [], s => (true, s)
  | i :: is, s =>
    let p := s.snap_click_pair i
    if p.Matches keycode then
      let (returns, pState, keyboard) :=
        process_pair host p (p.index keycode) pressed (s.snap_click_state i) s.keyboard
      let s := { s with
        snap_click_state := Function.update s.snap_click_state i pState
        keyboard := keyboard }
      if returns then (false, s) else process_pairs host keycode pressed is s
    else process_pairs host keycode pressed is s

def process_record_snap_click (host : Host) (keycode : UInt8) (pressed : Bool) (s : SnapClick) :
    Bool × SnapClick :=
  process_pairs host keycode pressed (List.finRange SNAP_CLICK_COUNT) s

def process_action (host : Host) (keycode : UInt8) (pressed : Bool) (s : State) : State :=
  if pressed then register_code host keycode s else unregister_code host keycode s

def process_record (host : Host) (keycode : UInt8) (pressed : Bool) (s : SnapClick) : SnapClick :=
  match process_record_snap_click host keycode pressed s with
  | (true, s) => { s with keyboard := process_action host keycode pressed s.keyboard }
  | (false, s) => s

/-! ## The table -/

/-- The pair at one place of the packet, when the loop of `snap_click_set`
accepts it. -/
def pairAt (data : Nat → UInt8) (i : Nat) : Option SnapClickConfig :=
  let offset := 2 + 3 * i
  match SnapClickType.ofCode (data offset) with
  | none => none
  | some type =>
    if type ≠ .NONE ∧ (data (offset + 1) = 0 ∨ data (offset + 2) = 0) then none
    else some ⟨type, ![data (offset + 1), data (offset + 2)]⟩

/-- The checks of `snap_click_set`. -/
def Accepted (data : Nat → UInt8) : Prop :=
  (data 1).toNat ≤ 9 ∧ (data 0).toNat + (data 1).toNat ≤ SNAP_CLICK_COUNT ∧
    ∀ i < (data 1).toNat, (pairAt data i).isSome

instance (data : Nat → UInt8) : Decidable (Accepted data) :=
  inferInstanceAs (Decidable (_ ∧ _ ∧ _))

def pairFor (data : Nat → UInt8) (i : Fin SNAP_CLICK_COUNT) : Option SnapClickConfig :=
  if (data 0).toNat ≤ i ∧ i < (data 0).toNat + (data 1).toNat then pairAt data (i - (data 0).toNat)
  else none

def snap_click_set (data : Nat → UInt8) (s : SnapClick) : Bool × SnapClick :=
  if Accepted data then
    (true, { s with snap_click_pair := fun i => (pairFor data i).getD (s.snap_click_pair i) })
  else (false, s)

def snap_click_config_reset (s : SnapClick) : SnapClick :=
  { s with snap_click_pair := fun _ => ⟨.NONE, fun _ => 0⟩ }

def snap_click_init (saved : Fin SNAP_CLICK_COUNT → SnapClickConfig) (s : SnapClick) : SnapClick :=
  { s with snap_click_pair := saved, snap_click_state := fun _ => .zero }

/-! ## What the loop does -/

def ends (pressed : Bool) (index : Fin 2) (pState : SnapClickState) : Bool :=
  if pressed then pState ≠ .zero ∧ keyBit index &&& pState.state_keys = 0
  else pState.state_keys = SC_MASK_BOTH_KEYS_PRESSED

def nextState (pressed : Bool) (index : Fin 2) (pState : SnapClickState) : SnapClickState :=
  if pressed then
    if pState = .zero then ⟨keyBit index, keyBit index⟩
    else if keyBit index &&& pState.state_keys = 0 then
      { pState with state_keys := SC_MASK_BOTH_KEYS_PRESSED }
    else pState
  else if pState.state_keys = SC_MASK_BOTH_KEYS_PRESSED then ⟨keyBit (1 - index), keyBit (1 - index)⟩
  else .zero

def switchKeys (host : Host) (p : SnapClickConfig) (index : Fin 2) (pressed : Bool) (s : State) :
    State :=
  if pressed then both_keys_pressed host p index s else one_key_released host p index s

theorem process_pair_eq (host : Host) (p : SnapClickConfig) (index : Fin 2) (pressed : Bool)
    (pState : SnapClickState) (s : State) : process_pair host p index pressed pState s =
      (ends pressed index pState, nextState pressed index pState,
        if ends pressed index pState then switchKeys host p index pressed s else s) := by
  unfold process_pair ends nextState switchKeys
  cases pressed
  · by_cases h : pState.state_keys = SC_MASK_BOTH_KEYS_PRESSED <;> simp [h]
  · by_cases h : pState = .zero
    · simp [h]
    · by_cases hbit : keyBit index &&& pState.state_keys = 0#2 <;> simp [h, hbit]

namespace SnapClick

variable (s : SnapClick) (keycode : UInt8) (pressed : Bool)

def EndsAt (i : Fin SNAP_CLICK_COUNT) : Prop :=
  (s.snap_click_pair i).Matches keycode ∧
    ends pressed ((s.snap_click_pair i).index keycode) (s.snap_click_state i) = true

/-- The state of the pair after its turn. -/
def next (i : Fin SNAP_CLICK_COUNT) : SnapClickState :=
  nextState pressed ((s.snap_click_pair i).index keycode) (s.snap_click_state i)

end SnapClick

/-- What the loop over some of the pairs does. A pair with the keycode takes
its turn unless the loop ends before it. -/
structure Looped (host : Host) (keycode : UInt8) (pressed : Bool) (is : List (Fin SNAP_CLICK_COUNT))
    (s : SnapClick) (r : Bool × SnapClick) : Prop where
  pair : r.2.snap_click_pair = s.snap_click_pair
  turn : ∀ j ∈ is, (s.snap_click_pair j).Matches keycode →
    (∀ i ∈ is, i < j → ¬ s.EndsAt keycode pressed i) →
    r.2.snap_click_state j = s.next keycode pressed j
  stay : ∀ j, r.2.snap_click_state j = s.snap_click_state j ∨
    (j ∈ is ∧ (s.snap_click_pair j).Matches keycode ∧
      ∀ i ∈ is, i < j → ¬ s.EndsAt keycode pressed i)
  keyboard : (r.1 = true ∧ (∀ i ∈ is, ¬ s.EndsAt keycode pressed i) ∧ r.2.keyboard = s.keyboard) ∨
    (r.1 = false ∧ ∃ i ∈ is, s.EndsAt keycode pressed i ∧
      r.2.keyboard = switchKeys host (s.snap_click_pair i) ((s.snap_click_pair i).index keycode)
        pressed s.keyboard)

theorem process_pairs_looped (host : Host) (keycode : UInt8) (pressed : Bool)
    {is : List (Fin SNAP_CLICK_COUNT)} (hsorted : is.Pairwise (· < ·)) (s : SnapClick) :
    Looped host keycode pressed is s (process_pairs host keycode pressed is s) := by
  induction is generalizing s with
  | nil => exact ⟨rfl, nofun, fun _ => .inl rfl, .inl ⟨rfl, nofun, rfl⟩⟩
  | cons i is ih =>
    obtain ⟨hlt, hsorted⟩ := List.pairwise_cons.mp hsorted
    unfold process_pairs
    dsimp only
    split
    · rename_i hm
      rw [process_pair_eq]
      split
      · -- the loop ends here, and the pairs after it stay
        rename_i hends
        have hfirst : ∀ k ∈ i :: is, k < i → ¬ s.EndsAt keycode pressed k := by
          intro k hk hki
          rcases List.mem_cons.mp hk with rfl | hk
          · exact absurd hki (lt_irrefl k)
          · exact absurd (hki.trans (hlt k hk)) (lt_irrefl k)
        refine ⟨rfl, fun j hj hmj hbefore => ?_, fun j => ?_,
          .inr ⟨rfl, i, List.mem_cons_self, ⟨hm, hends⟩, rfl⟩⟩
        · rcases List.mem_cons.mp hj with rfl | hj
          · exact Function.update_self j _ _
          · exact absurd ⟨hm, hends⟩ (hbefore i List.mem_cons_self (hlt j hj))
        · by_cases hji : j = i
          · rw [hji]
            exact .inr ⟨List.mem_cons_self, hm, hfirst⟩
          · exact .inl (Function.update_of_ne hji _ _)
      · rename_i hends
        have hskip : ¬ s.EndsAt keycode pressed i := fun h => hends h.2
        -- the turn leaves the state of the other pairs
        have hother : ∀ j ∈ is, Function.update s.snap_click_state i
            (s.next keycode pressed i) j = s.snap_click_state j :=
          fun j hj => Function.update_of_ne (hlt j hj).ne' _ _
        let turned : SnapClick := { s with
          snap_click_state := Function.update s.snap_click_state i (s.next keycode pressed i) }
        have hendsAt : ∀ j ∈ is, turned.EndsAt keycode pressed j ↔ s.EndsAt keycode pressed j := by
          intro j hj
          unfold SnapClick.EndsAt
          dsimp only [turned]
          rw [hother j hj]
        obtain ⟨hpair, hturn, hstay, hkeyboard⟩ := ih hsorted turned
        refine ⟨hpair, fun j hj hmj hbefore => ?_, fun j => ?_, ?_⟩
        · rcases List.mem_cons.mp hj with rfl | hj
          · -- its own turn: the loop goes on over other pairs
            rcases hstay j with hsame | ⟨hj, -⟩
            · exact hsame.trans (Function.update_self j _ _)
            · exact absurd (hlt j hj) (lt_irrefl j)
          · refine (hturn j hj hmj fun k hk hkj => ?_).trans ?_
            · rw [hendsAt k hk]
              exact hbefore k (List.mem_cons_of_mem i hk) hkj
            · exact congrArg (nextState pressed _) (hother j hj)
        · rcases hstay j with hsame | ⟨hj, hmj, hbefore⟩
          · by_cases hji : j = i
            · subst hji
              refine .inr ⟨List.mem_cons_self, hm, fun k hk hkj => ?_⟩
              rcases List.mem_cons.mp hk with rfl | hk
              · exact hskip
              · exact absurd (hkj.trans (hlt k hk)) (lt_irrefl k)
            · exact .inl (hsame.trans (Function.update_of_ne hji _ _))
          · refine .inr ⟨List.mem_cons_of_mem i hj, hmj, List.forall_mem_cons.mpr
              ⟨fun _ => hskip, fun k hk hkj => ?_⟩⟩
            rw [← hendsAt k hk]
            exact hbefore k hk hkj
        · rcases hkeyboard with ⟨h1, hnone, h2⟩ | ⟨h1, k, hk, hk', h2⟩
          · refine .inl ⟨h1, List.forall_mem_cons.mpr ⟨hskip, fun k hk => ?_⟩, h2⟩
            rw [← hendsAt k hk]
            exact hnone k hk
          · exact .inr ⟨h1, k, List.mem_cons_of_mem i hk, (hendsAt k hk).mp hk', h2⟩
    · rename_i hm
      have hskip : ¬ s.EndsAt keycode pressed i := fun h => hm h.1
      obtain ⟨hpair, hturn, hstay, hkeyboard⟩ := ih hsorted s
      refine ⟨hpair, fun j hj hmj hbefore => ?_, fun j => ?_, ?_⟩
      · rcases List.mem_cons.mp hj with rfl | hj
        · exact absurd hmj hm
        · exact hturn j hj hmj fun k hk => hbefore k (List.mem_cons_of_mem i hk)
      · rcases hstay j with hsame | ⟨hj, hmj, hbefore⟩
        · exact .inl hsame
        · exact .inr ⟨List.mem_cons_of_mem i hj, hmj,
            List.forall_mem_cons.mpr ⟨fun _ => hskip, hbefore⟩⟩
      · rcases hkeyboard with ⟨h1, hnone, h2⟩ | ⟨h1, k, hk, hends, h2⟩
        · exact .inl ⟨h1, List.forall_mem_cons.mpr ⟨hskip, hnone⟩, h2⟩
        · exact .inr ⟨h1, k, List.mem_cons_of_mem i hk, hends, h2⟩

end keychron_qmk.snap_click
