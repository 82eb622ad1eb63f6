-- The ring of the prepared combos. A combo that is fully pressed is in the ring
-- until it is applied, and the ring is empty then, as long as no combo is saved
-- to a full ring, and none that is applied is disabled or there twice.
import KeychronQMK.Combo.Funs
import KeychronQMK.Lib.Runs

namespace keychron_qmk.combos

open ring runs

variable {N : Nat} (cfg : Combos)

/-! ## What is prepared -/

/-- The combo is fully pressed, not disabled, and not applied. -/
def Prepared (s : State N) (c : Nat) : Prop :=
  ALL_COMBO_KEYS_ARE_DOWN (s.combo c).state (cfg.combo_get c).keys.length = true ∧
    (s.combo c).disabled = false ∧ (s.combo c).active = false

def HasPrepared (s : State N) : Prop :=
  ∀ c < cfg.combo_count, Prepared cfg s c → c ∈ s.combo_buffer.toList

instance (s : State N) (c : Nat) : Decidable (Prepared cfg s c) :=
  inferInstanceAs (Decidable (_ ∧ _ ∧ _))

instance (s : State N) : Decidable (HasPrepared cfg s) :=
  inferInstanceAs (Decidable (∀ c < _, _ → _))

def IsSwitch (keycode : UInt16) (record : keyrecord_t) : Prop :=
  (keycode = QK_COMBO_ON ∨ keycode = QK_COMBO_OFF ∨ keycode = QK_COMBO_TOGGLE) ∧
    record.event.pressed = true

instance (keycode : UInt16) (record : keyrecord_t) : Decidable (IsSwitch keycode record) :=
  inferInstanceAs (Decidable (_ ∧ _))

def appliesAt (s : State N) : Input → Option (State N)
  | .process_combo keycode record now =>
    let (is_combo_key, t) :=
      process_combos cfg keycode record.event.pressed now (List.range cfg.combo_count) s
    if IsSwitch keycode record ∨ (record.event.pressed && is_combo_key) ∨ t.combo_buffer.isEmpty then
      none
    else some t
  | .combo_task now =>
    if s.b_combo_enable ∧ s.timer ≠ 0 ∧ s.longest_term < now - s.timer ∧ ¬ s.combo_buffer.isEmpty then
      some s
    else none

/-- After the step the ring has every combo that is prepared, and after
`apply_combos` it is empty. -/
def Settles (s : State N) (x : Input) : Prop :=
  HasPrepared cfg (step cfg s x) ∧
    ∀ t ∈ appliesAt cfg s x, (apply_combos cfg t).combo_buffer.isEmpty

instance (s : State N) : DecidablePred (Settles cfg s) :=
  fun x => inferInstanceAs (Decidable (_ ∧ ∀ t ∈ appliesAt cfg s x, _))

/-! ## The condition -/

/-- `process_single_combo` saves no combo to a full ring. -/
def Fits (keycode : UInt16) (pressed : Bool) (now : UInt16) (s : State N) (combo_index : Nat) :
    Prop :=
  match _find_key_index_and_count (cfg.combo_get combo_index).keys keycode with
  | (none, _) => True
  | (some key_index, key_count) =>
    let t := key_down cfg combo_index key_index s
    pressed = true → (s.combo combo_index).disabled = false → s.b_combo_enable = true →
      ALL_COMBO_KEYS_ARE_DOWN (t.combo combo_index).state key_count = true →
      term_passed cfg now t = false →
      let (drop, t) := drop_overlapping cfg combo_index none t.combo_buffer.window t
      drop ≠ some combo_index → ¬ t.combo_buffer.isFull

/-- No combo in the ring is disabled, and none is there twice. -/
def Clean (s : State N) : Prop :=
  (∀ c ∈ s.combo_buffer.toList, (s.combo c).disabled = false) ∧ s.combo_buffer.toList.Nodup

/-- Each combo that a press prepares has a place in the ring, and
`apply_combos` finds the ring clean. -/
def Careful (s : State N) (x : Input) : Prop :=
  (match x with
  | .process_combo keycode record now => ¬ IsSwitch keycode record →
    Along (fun s i => (process_single_combo cfg keycode record.event.pressed now i s).2)
      (Fits cfg keycode record.event.pressed now) s (List.range cfg.combo_count)
  | .combo_task _ => True) ∧
  ∀ t ∈ appliesAt cfg s x, Clean t

/-! ## Combos that are dropped -/

theorem modify_self (s : State N) (i : Nat) (f : ComboState → ComboState) :
    (s.modify i f).combo i = f (s.combo i) :=
  Function.update_self i _ _

variable {c k : Nat}

theorem modify_other (s : State N) {i : Nat} (h : c ≠ i) (f : ComboState → ComboState) :
    (s.modify i f).combo c = s.combo c :=
  Function.update_of_ne h _ _

/-- Some combos are disabled, and the ring loses only such from its read end. -/
structure Dropped (D : Nat → Prop) (s s' : State N) : Prop where
  combo : ∀ c, s'.combo c = s.combo c ∨ (D c ∧ s'.combo c = { s.combo c with disabled := true })
  enable : s'.b_combo_enable = s.b_combo_enable
  slots : s'.combo_buffer.slots = s.combo_buffer.slots
  window : s'.combo_buffer.window <:+ s.combo_buffer.window
  lost : ∀ c ∈ s.combo_buffer.toList, c ∈ s'.combo_buffer.toList ∨ (s'.combo c).disabled = true

namespace Dropped

variable {D : Nat → Prop} {s s' s'' : State N}

theorem refl (s : State N) : Dropped D s s :=
  ⟨fun _ => .inl rfl, rfl, rfl, List.suffix_rfl, fun _ => .inl⟩

theorem disabled (h : Dropped D s s') {c : Nat} (hc : (s.combo c).disabled = true) :
    (s'.combo c).disabled = true := by
  rcases h.combo c with heq | ⟨-, heq⟩
  · rw [heq]
    exact hc
  · rw [heq]

theorem active (h : Dropped D s s') (c : Nat) : (s'.combo c).active = (s.combo c).active := by
  rcases h.combo c with heq | ⟨-, heq⟩ <;> rw [heq]

theorem state (h : Dropped D s s') (c : Nat) : (s'.combo c).state = (s.combo c).state := by
  rcases h.combo c with heq | ⟨-, heq⟩ <;> rw [heq]

theorem trans (h : Dropped D s s') (h' : Dropped D s' s'') : Dropped D s s'' := by
  refine ⟨fun c => ?_, h'.enable.trans h.enable, h'.slots.trans h.slots, h'.window.trans h.window,
    fun c hc => ?_⟩
  · rcases h'.combo c with heq' | ⟨hd', heq'⟩
    · rw [heq']
      exact h.combo c
    · refine .inr ⟨hd', ?_⟩
      rw [heq']
      rcases h.combo c with heq | ⟨-, heq⟩ <;> rw [heq]
  · rcases h.lost c hc with hc' | hc'
    · exact h'.lost c hc'
    · exact .inr (h'.disabled hc')

theorem mem (h : Dropped D s s') {c : Nat} (hc : c ∈ s'.combo_buffer.toList) :
    c ∈ s.combo_buffer.toList := by
  rw [Ring.toList_eq_map] at hc ⊢
  rw [h.slots] at hc
  obtain ⟨i, hi, rfl⟩ := List.mem_map.mp hc
  exact List.mem_map_of_mem (h.window.subset hi)

theorem disable (s : State N) {i : Nat} (hi : D i) : Dropped D s (s.DISABLE_COMBO i) := by
  refine ⟨fun c => ?_, rfl, rfl, List.suffix_rfl, fun _ => .inl⟩
  by_cases hc : c = i
  · subst hc
    exact .inr ⟨hi, modify_self s c _⟩
  · exact .inl (modify_other s hc _)

theorem drop (s : State N) (hne : ¬ s.combo_buffer.isEmpty)
    (hd : (s.combo s.combo_buffer.oldest).disabled = true) :
    Dropped D s { s with combo_buffer := s.combo_buffer.drop } := by
  refine ⟨fun _ => .inl rfl, rfl, rfl, ?_, fun c hc => ?_⟩
  · rw [Ring.window_drop _ hne]
    exact List.suffix_cons _ _
  · rw [Ring.toList_drop _ hne] at hc
    rcases List.mem_cons.mp hc with rfl | hc
    · exact .inr hd
    · exact .inl hc

end Dropped

theorem disable_self (s : State N) (i : Nat) : ((s.DISABLE_COMBO i).combo i).disabled = true := by
  unfold State.DISABLE_COMBO
  rw [modify_self]

theorem not_isEmpty_of_mem {r : Ring Nat N} {i : Fin N} (h : i ∈ r.window) : ¬ r.isEmpty := by
  rw [← Ring.window_eq_nil_iff]
  exact List.ne_nil_of_mem h

theorem drop_combo_dropped (c : Nat) (s : State N) :
    Dropped (· = c) s (drop_combo_from_buffer c s) ∧
      (c ∈ s.combo_buffer.toList → ((drop_combo_from_buffer c s).combo c).disabled = true) := by
  unfold drop_combo_from_buffer
  split
  · rename_i hnone
    refine ⟨.refl s, fun hc => ?_⟩
    rw [Ring.toList_eq_map] at hc
    obtain ⟨i, hi, heq⟩ := List.mem_map.mp hc
    have := List.find?_eq_none.mp hnone i hi
    simp [heq] at this
  · rename_i i hi
    have hslot : s.combo_buffer.slots i = c := by simpa using List.find?_some hi
    have hdisable : Dropped (· = c) s (s.DISABLE_COMBO c) := .disable s rfl
    dsimp only
    split
    · rename_i htail
      refine ⟨hdisable.trans (.drop _ (not_isEmpty_of_mem (List.mem_of_find?_eq_some hi)) ?_),
        fun _ => disable_self s c⟩
      have hold : (s.DISABLE_COMBO c).combo_buffer.oldest = c := by
        rw [← hslot, htail]
        rfl
      rw [hold]
      exact disable_self s c
    · exact ⟨hdisable, fun _ => disable_self s c⟩

theorem overlaps_cases {c1 c2 d : Nat} (h : overlaps cfg c1 c2 = some d) : d = c1 ∨ d = c2 := by
  unfold overlaps at h
  dsimp only at h
  split at h
  · split at h
    · exact .inr (Option.some.inj h).symm
    · exact .inl (Option.some.inj h).symm
  · cases h

/-- The combos that a new one drops are in the ring, unless it is dropped itself. -/
theorem drop_overlapping_dropped {D : Nat → Prop} (hc : D c) {drop : Option Nat}
    (hdrop : drop ≠ some c) (is : List (Fin N)) (s : State N)
    (hD : ∀ i ∈ is, D (s.combo_buffer.slots i)) (his : is <:+ s.combo_buffer.window) :
    Dropped D s (drop_overlapping cfg c drop is s).2 ∧
      ((drop_overlapping cfg c drop is s).1 = some c →
        ((drop_overlapping cfg c drop is s).2.combo c).disabled = true) ∧
      ((drop_overlapping cfg c drop is s).1 ≠ some c →
        (drop_overlapping cfg c drop is s).2.combo c = s.combo c) := by
  induction is generalizing drop s with
  | nil => exact ⟨.refl s, fun h => absurd h hdrop, fun _ => rfl⟩
  | cons i is ih =>
    obtain ⟨hi, hD⟩ := List.forall_mem_cons.mp hD
    have hne := not_isEmpty_of_mem (his.mem List.mem_cons_self)
    have hrest : is <:+ s.combo_buffer.window := (List.suffix_cons i is).trans his
    unfold drop_overlapping
    dsimp only
    split
    · exact ih (Option.some_ne_none c).symm s hD hrest
    · rename_i d hd
      have hDd : D d := by
        rcases overlaps_cases cfg hd with rfl | rfl
        · exact hi
        · exact hc
      have hdisable : Dropped D s (s.DISABLE_COMBO d) := .disable s hDd
      split
      · rename_i hdc
        rw [hdc] at hdisable ⊢
        exact ⟨hdisable, fun _ => disable_self s c, fun h => absurd rfl h⟩
      · rename_i hdc
        have hsame : (s.DISABLE_COMBO d).combo c = s.combo c := modify_other s (Ne.symm hdc) _
        have hsome : some d ≠ some c := fun h => hdc (Option.some.inj h)
        split
        · rename_i htail
          obtain ⟨htail, hbuffered⟩ := htail
          have hold : (s.DISABLE_COMBO d).combo_buffer.oldest = d := by
            rw [hbuffered, htail]
            rfl
          have hdropped : Dropped D (s.DISABLE_COMBO d)
              { s.DISABLE_COMBO d with combo_buffer := s.combo_buffer.drop } :=
            .drop _ hne (by rw [hold]; exact disable_self s d)
          have hwindow : is <:+ s.combo_buffer.drop.window := by
            obtain ⟨pre, hpre⟩ := his
            rw [Ring.window_drop _ hne] at hpre
            cases pre with
            | nil => exact ⟨[], (List.cons.inj hpre).2⟩
            | cons _ pre => exact ⟨pre ++ [i], by simpa using (List.cons.inj hpre).2⟩
          obtain ⟨h1, h2, h3⟩ := ih hsome
            { s.DISABLE_COMBO d with combo_buffer := s.combo_buffer.drop } hD hwindow
          exact ⟨(hdisable.trans hdropped).trans h1, h2, fun h => (h3 h).trans hsame⟩
        · obtain ⟨h1, h2, h3⟩ := ih hsome (s.DISABLE_COMBO d) hD hrest
          exact ⟨hdisable.trans h1, h2, fun h => (h3 h).trans hsame⟩

/-! ## One combo -/

theorem find_key_count (keycode : UInt16) (keys : List UInt16) (n : Nat) (index : Option Nat) :
    (find_key keycode keys n index).2 = n + keys.length := by
  induction keys generalizing n index with
  | nil => rfl
  | cons key keys ih =>
    unfold find_key
    rw [ih, List.length_cons]
    omega

theorem not_full_zero (combo : combo_t) :
    ALL_COMBO_KEYS_ARE_DOWN 0 combo.keys.length = false := by
  have hpos := List.length_pos_iff.mpr combo.keys_ne
  have hpow : 2 ^ 1 ≤ 2 ^ combo.keys.length := Nat.pow_le_pow_right Nat.two_pos hpos
  unfold ALL_COMBO_KEYS_ARE_DOWN
  rw [decide_eq_false_iff_not, UInt8.toNat_zero]
  omega

theorem keyMask_eq_zero (h : 8 ≤ k) : keyMask k = 0 := by
  obtain ⟨j, rfl⟩ := Nat.exists_eq_add_of_le h
  unfold keyMask
  rw [Nat.pow_add]
  exact UInt8.toNat_inj.mp (by simp)

theorem up_only_one_bit : ∀ k < 8, ∀ n < 256, ONLY_ONE_KEY_IS_DOWN (.ofNat n) = true →
    KEY_NOT_YET_RELEASED (.ofNat n) k = true → UInt8.ofNat n &&& ~~~(keyMask k) = 0 := by
  decide +kernel

theorem up_only_one {state : UInt8} (h1 : ONLY_ONE_KEY_IS_DOWN state = true)
    (h2 : KEY_NOT_YET_RELEASED state k = true) : state &&& ~~~(keyMask k) = 0 := by
  have hk : k < 8 := by
    by_contra hk
    unfold KEY_NOT_YET_RELEASED at h2
    rw [keyMask_eq_zero (not_lt.mp hk), UInt8.zero_and] at h2
    simp at h2
  have hbit := up_only_one_bit k hk state.toNat state.toNat_lt
  rw [UInt8.ofNat_toNat] at hbit
  exact hbit h1 h2

theorem key_down_other (s : State N) {i : Nat} (h : c ≠ i) (k : Nat) :
    (key_down cfg i k s).combo c = s.combo c := by
  unfold key_down
  split
  · rfl
  · exact modify_other s h _

theorem key_down_flags (s : State N) (i k c : Nat) :
    ((key_down cfg i k s).combo c).disabled = (s.combo c).disabled ∧
      ((key_down cfg i k s).combo c).active = (s.combo c).active := by
  by_cases h : c = i
  · subst h
    unfold key_down
    split
    · exact ⟨rfl, rfl⟩
    · dsimp only
      rw [modify_self]
      exact ⟨rfl, rfl⟩
  · rw [key_down_other cfg s h]
    exact ⟨rfl, rfl⟩

theorem key_down_rest (s : State N) (i k : Nat) :
    (key_down cfg i k s).combo_buffer = s.combo_buffer ∧
      (key_down cfg i k s).b_combo_enable = s.b_combo_enable := by
  unfold key_down
  split
  · exact ⟨rfl, rfl⟩
  · exact ⟨rfl, rfl⟩

/-- The combo itself, and those in the ring. -/
def Near (s : State N) (i c : Nat) : Prop := c = i ∨ c ∈ s.combo_buffer.toList

/-- What happens to one combo before its key is up. -/
structure Raised (i k : Nat) (s t : State N) : Prop where
  other : ∀ c, c ≠ i → t.combo c = s.combo c
  enable : t.b_combo_enable = s.b_combo_enable
  state : (t.combo i).state = (s.combo i).state
  disabled : (s.combo i).disabled = true → (t.combo i).disabled = true
  active : (t.combo i).active = true → (s.combo i).active = true
  released : (t.combo i).active = false →
    (s.combo i).active = false ∨ (s.combo i).state &&& ~~~(keyMask k) = 0
  mem : ∀ c, c ∈ t.combo_buffer.toList → c ∈ s.combo_buffer.toList
  lost : ∀ c, c ≠ i → c ∈ s.combo_buffer.toList → c ∈ t.combo_buffer.toList

theorem Raised.refl (i k : Nat) (s : State N) : Raised i k s s :=
  ⟨fun _ _ => rfl, rfl, rfl, id, id, .inl, fun _ => id, fun _ _ => id⟩

theorem raised_drop (i k : Nat) (s : State N) : Raised i k s (drop_combo_from_buffer i s) := by
  have h := (drop_combo_dropped i s).1
  have hother : ∀ c, c ≠ i → (drop_combo_from_buffer i s).combo c = s.combo c :=
    fun c hc => (h.combo c).resolve_right fun hd => hc hd.1
  refine ⟨hother, h.enable, h.state i, h.disabled, fun ha => h.active i ▸ ha,
    fun ha => .inl (h.active i ▸ ha), fun c => h.mem, fun c hc hin => ?_⟩
  -- the ring loses a combo that is disabled here, which is this one
  unfold drop_combo_from_buffer
  split
  · exact hin
  · rename_i j hj
    have hslot : s.combo_buffer.slots j = i := by simpa using List.find?_some hj
    dsimp only
    split
    · rename_i htail
      have hold : s.combo_buffer.oldest = i := by rw [← hslot, htail]; rfl
      rw [Ring.toList_drop _ (not_isEmpty_of_mem (List.mem_of_find?_eq_some hj)), hold] at hin
      exact (List.mem_cons.mp hin).resolve_left hc
    · exact hin

theorem raised_release {i : Nat} {s : State N} (now : UInt16)
    (h : (s.combo i).state &&& ~~~(keyMask k) = 0) : Raised i k s (release_combo cfg i now s) := by
  have hrest : ∀ x : Sent, Raised i k s ((s.send x).DEACTIVATE_COMBO i) := by
    intro x
    have hself : ((s.send x).DEACTIVATE_COMBO i).combo i = { s.combo i with active := false } :=
      modify_self (s.send x) i _
    refine ⟨fun c hc => modify_other (s.send x) hc _, rfl, by rw [hself], fun hd => ?_, fun ha => ?_,
      fun _ => .inr h, fun _ => id, fun _ _ => id⟩
    · rw [hself]
      exact hd
    · rw [hself] at ha
      cases ha
  unfold release_combo
  dsimp only
  split
  · exact hrest _
  · exact hrest _

/-- What a turn for one combo does, and whether it saves the combo to a full
ring. -/
inductive Turn (keycode : UInt16) (pressed : Bool) (now : UInt16) (i : Nat) (s : State N) :
    Bool × State N → Prop where
  | none (hfits : Fits cfg keycode pressed now s i) : Turn keycode pressed now i s (false, s)
  | wait (k : Nat) (hfits : Fits cfg keycode pressed now s i)
    (hon : s.b_combo_enable = true)
    (hwait : ALL_COMBO_KEYS_ARE_DOWN ((key_down cfg i k s).combo i).state
      (cfg.combo_get i).keys.length = false) :
    Turn keycode pressed now i s (true, key_down cfg i k s)
  | drop (k : Nat) (t : State N) (hfits : Fits cfg keycode pressed now s i)
    (hon : s.b_combo_enable = true) (hdropped : Dropped (Near s i) (key_down cfg i k s) t)
    (hi : (t.combo i).disabled = true) :
    Turn keycode pressed now i s (true, t)
  | save (k : Nat) (t : State N) (hfits : Fits cfg keycode pressed now s i ↔ ¬ t.combo_buffer.isFull)
    (hon : s.b_combo_enable = true) (hpart : (s.combo i).disabled = false)
    (hfull : ALL_COMBO_KEYS_ARE_DOWN (t.combo i).state (cfg.combo_get i).keys.length = true)
    (hdropped : Dropped (Near s i) (key_down cfg i k s) t)
    (hi : t.combo i = (key_down cfg i k s).combo i) :
    Turn keycode pressed now i s (true, { t with combo_buffer := t.combo_buffer.push i })
  | up (k : Nat) (b : Bool) (t : State N) (hfits : Fits cfg keycode pressed now s i)
    (hpart : pressed = true → (s.combo i).disabled = true ∨ s.b_combo_enable = false)
    (ht : Raised i k s t) :
    Turn keycode pressed now i s (b, t.modify i (KEY_STATE_UP k))

/-- A key of an enabled combo is pressed. -/
theorem turn_press {keycode : UInt16} {now : UInt16} {i : Nat} {s : State N}
    (hk : _find_key_index_and_count (cfg.combo_get i).keys keycode =
      (some k, (cfg.combo_get i).keys.length)) (hpart : (s.combo i).disabled = false)
    (hon : s.b_combo_enable = true) :
    Turn cfg keycode true now i s
      (true, key_pressed cfg i k (cfg.combo_get i).keys.length now s) := by
  have hring := (key_down_rest cfg s i k).1
  unfold key_pressed
  dsimp only
  split
  · rename_i hfull
    have hfits : term_passed cfg now (key_down cfg i k s) = true →
        Fits cfg keycode true now s i := by
      intro hlate
      unfold Fits
      rw [hk]
      exact fun _ _ _ _ h => absurd (hlate.symm.trans h) (by simp)
    split
    · rename_i hlate
      exact .drop k _ (hfits hlate) hon (.disable _ (.inl rfl)) (disable_self _ i)
    · rename_i hlate
      have hslots : ∀ j ∈ (key_down cfg i k s).combo_buffer.window,
          Near s i ((key_down cfg i k s).combo_buffer.slots j) := by
        intro j hj
        rw [hring] at hj ⊢
        exact .inr ((Ring.toList_eq_map _).symm ▸ List.mem_map_of_mem hj)
      obtain ⟨hdropped, hself, hsame⟩ := drop_overlapping_dropped cfg (D := Near s i) (.inl rfl)
        (Option.some_ne_none i).symm _ (key_down cfg i k s) hslots List.suffix_rfl
      have hfits : Fits cfg keycode true now s i ↔
          ((drop_overlapping cfg i none (key_down cfg i k s).combo_buffer.window
            (key_down cfg i k s)).1 ≠ some i →
          ¬ (drop_overlapping cfg i none (key_down cfg i k s).combo_buffer.window
            (key_down cfg i k s)).2.combo_buffer.isFull) := by
        unfold Fits
        rw [hk]
        exact ⟨fun h => h rfl hpart hon hfull (by simpa using hlate), fun h _ _ _ _ _ => h⟩
      unfold prepare
      dsimp only
      split
      · rename_i hsave
        exact .save k _ (hfits.trans ⟨fun h => h hsave, fun h _ => h⟩) hon hpart
          ((hsame hsave).symm ▸ hfull) hdropped (hsame hsave)
      · rename_i hsave
        exact .drop k _ (hfits.mpr fun h => absurd h hsave) hon hdropped (hself (not_not.mp hsave))
  · rename_i hwait
    refine .wait k ?_ hon (by simpa using hwait)
    unfold Fits
    rw [hk]
    exact fun _ _ _ h => absurd h hwait

theorem process_single_combo_turn (keycode : UInt16) (pressed : Bool) (now : UInt16) (i : Nat) (s : State N) :
    Turn cfg keycode pressed now i s (process_single_combo cfg keycode pressed now i s) := by
  have hcount := find_key_count keycode (cfg.combo_get i).keys 0 none
  unfold process_single_combo
  cases hfind : _find_key_index_and_count (cfg.combo_get i).keys keycode with
  | mk index count =>
    have hcount : count = (cfg.combo_get i).keys.length := by
      unfold _find_key_index_and_count at hfind
      rw [hfind] at hcount
      simpa using hcount
    rw [hcount] at hfind ⊢
    cases index with
    | none =>
      refine .none ?_
      unfold Fits
      rw [hfind]
      trivial
    | some k =>
      dsimp only
      split
      · rename_i hpart
        simp only [Bool.and_eq_true, Bool.not_eq_true'] at hpart
        obtain ⟨rfl, hpart, hon⟩ := hpart
        exact turn_press cfg hfind hpart hon
      · rename_i hpart
        have hpart : pressed = true → (s.combo i).disabled = true ∨ s.b_combo_enable = false := by
          rintro rfl
          cases hd : (s.combo i).disabled <;> cases he : s.b_combo_enable <;> simp_all
        have hfits : Fits cfg keycode pressed now s i := by
          unfold Fits
          rw [hfind]
          intro hp hd he
          rcases hpart hp with h | h
          · rw [hd] at h
            cases h
          · rw [he] at h
            cases h
        unfold key_released
        dsimp only
        split
        · split
          · exact .up k _ _ hfits hpart (raised_drop i k s)
          · exact .up k _ _ hfits hpart (.refl i k s)
        · split
          · rename_i hone
            exact .up k _ _ hfits hpart (raised_release cfg now (up_only_one hone.2.1 hone.2.2))
          · split
            · exact .up k _ _ hfits hpart (.refl i k s)
            · exact .up k _ _ hfits hpart (.refl i k s)

/-! ## Invariants -/

/-- An active combo is disabled, and no key of an inactive combo is down while
combos are off. -/
structure Settled (s : State N) : Prop where
  active : ∀ c, (s.combo c).active = true → (s.combo c).disabled = true
  off : s.b_combo_enable = false → ∀ c < cfg.combo_count, (s.combo c).active = false →
    (s.combo c).state = 0

section

variable {cfg} {keycode : UInt16} {pressed : Bool} {now : UInt16} {i : Nat} {s : State N}

variable {k c : Nat}

theorem Dropped.of_key_down {t : State N} (h : Dropped (Near s i) (key_down cfg i k s) t)
    (hc : c ≠ i) :
    t.combo c = s.combo c ∨
      (c ∈ s.combo_buffer.toList ∧ t.combo c = { s.combo c with disabled := true }) := by
  rw [← key_down_other cfg s hc k]
  exact (h.combo c).imp_right fun hd => ⟨hd.1.resolve_left hc, hd.2⟩

variable {r : Bool × State N}

theorem Settled.turn (h : Settled cfg s) (hi : i < cfg.combo_count)
    (hr : Turn cfg keycode pressed now i s r) : Settled cfg r.2 := by
  -- a key that goes down
  have hdown : ∀ {k : Nat} {t : State N}, s.b_combo_enable = true →
      Dropped (Near s i) (key_down cfg i k s) t → Settled cfg t := by
    intro k t hon hdropped
    refine ⟨fun c hc => ?_, fun hoff => ?_⟩
    · rw [hdropped.active c, (key_down_flags cfg s i k c).2] at hc
      exact hdropped.disabled ((key_down_flags cfg s i k c).1.trans (h.active c hc))
    · rw [hdropped.enable, (key_down_rest cfg s i k).2, hon] at hoff
      cases hoff
  cases hr with
  | none hfits => exact h
  | wait k hfits hon hwait => exact hdown hon (.refl _)
  | drop k t hfits hon hdropped hdis => exact hdown hon hdropped
  | save k t hfits hon hpart hfull hdropped hself =>
    obtain ⟨hactive, hoff⟩ := hdown hon hdropped
    exact ⟨hactive, hoff⟩
  | up k b t hfits hpart ht =>
    refine ⟨fun c hc => ?_, fun hoff c hlt hc => ?_⟩
    · by_cases hci : c = i
      · subst hci
        rw [modify_self] at hc ⊢
        exact ht.disabled (h.active c (ht.active hc))
      · rw [modify_other t hci, ht.other c hci] at hc ⊢
        exact h.active c hc
    · have hon : s.b_combo_enable = false := ht.enable.symm.trans hoff
      by_cases hci : c = i
      · subst hci
        rw [modify_self] at hc ⊢
        change (t.combo c).state &&& ~~~(keyMask k) = 0
        rw [ht.state]
        rcases ht.released hc with hup | hzero
        · rw [h.off hon c hlt hup, UInt8.zero_and]
        · exact hzero
      · rw [modify_other t hci, ht.other c hci] at hc ⊢
        exact h.off hon c hlt hc

theorem Prepared.of_dropped {t : State N} (h : Dropped (Near s i) (key_down cfg i k s) t)
    (hc : c ≠ i) (hp : Prepared cfg t c) : Prepared cfg s c := by
  unfold Prepared at hp ⊢
  rcases h.of_key_down hc with heq | ⟨-, heq⟩
  · rw [heq] at hp
    exact hp
  · rw [heq] at hp
    exact absurd hp.2.1 (by simp)

/-- A press for one combo, that fits, leaves every prepared combo in the ring. -/
theorem HasPrepared.turn (h : HasPrepared cfg s) (hset : Settled cfg s) (hi : i < cfg.combo_count)
    (hr : Turn cfg keycode true now i s r) (hfits : Fits cfg keycode true now s i) :
    HasPrepared cfg r.2 := by
  have hdown : ∀ {k : Nat} {t : State N}, Dropped (Near s i) (key_down cfg i k s) t →
      ∀ c < cfg.combo_count, c ≠ i → Prepared cfg t c → c ∈ t.combo_buffer.toList := by
    intro k t hdropped c hlt hci hp
    have hmem := h c hlt (hp.of_dropped hdropped hci)
    rw [← (key_down_rest cfg s i k).1] at hmem
    exact (hdropped.lost c hmem).resolve_right (by rw [hp.2.1]; exact Bool.false_ne_true)
  have hset' := hset.turn hi hr
  cases hr with
  | none => exact h
  | wait k _ hon hwait =>
    intro c hlt hp
    by_cases hci : c = i
    · subst hci
      exact absurd (hwait.symm.trans hp.1) Bool.false_ne_true
    · exact hdown (.refl _) c hlt hci hp
  | drop k t _ hon hdropped hdis =>
    intro c hlt hp
    by_cases hci : c = i
    · subst hci
      exact absurd (hdis.symm.trans hp.2.1) (by simp)
    · exact hdown hdropped c hlt hci hp
  | save k t hiff hon hpart hfull hdropped hself =>
    intro c hlt hp
    rw [Ring.toList_push _ (hiff.mp hfits)]
    by_cases hci : c = i
    · exact List.mem_append_right _ (List.mem_singleton.mpr hci)
    · exact List.mem_append_left _ (hdown hdropped c hlt hci hp)
  | up k b t _ hpart ht =>
    intro c hlt hp
    by_cases hci : c = i
    · subst hci
      rcases hpart rfl with hdis | hoff
      · have hdis := ht.disabled hdis
        have hp := hp.2.1
        rw [modify_self] at hp
        exact absurd (hdis.symm.trans hp) (by simp)
      · have hzero := hset'.off (ht.enable.trans hoff) c hlt hp.2.2
        have hp := hp.1
        rw [hzero, not_full_zero] at hp
        cases hp
    · unfold Prepared at hp
      rw [modify_other t hci, ht.other c hci] at hp
      exact ht.lost c hci (h c hlt hp)

def Lost (cfg : Combos) (s : State N) (c : Nat) : Prop :=
  Prepared cfg s c ∧ c ∉ s.combo_buffer.toList

theorem mem_push {r : Ring Nat N} {x : Nat} (h : c ∈ (r.push x).toList) : c = x ∨ c ∈ r.toList := by
  by_cases hfull : r.isFull
  · rw [(Ring.toList_eq_nil_iff _).mpr (Ring.isEmpty_push r hfull x)] at h
    cases h
  · rw [Ring.toList_push r hfull] at h
    exact (List.mem_append.mp h).symm.imp_left List.mem_singleton.mp

theorem Lost.turn (h : Lost cfg s c) (hc : c ≠ i) (hr : Turn cfg keycode pressed now i s r) :
    Lost cfg r.2 c := by
  have hdown : ∀ {k : Nat} {t : State N}, Dropped (Near s i) (key_down cfg i k s) t →
      t.combo c = s.combo c ∧ c ∉ t.combo_buffer.toList := by
    intro k t hdropped
    refine ⟨(hdropped.of_key_down hc).resolve_right fun hd => h.2 hd.1, fun hmem => h.2 ?_⟩
    rw [← (key_down_rest cfg s i k).1]
    exact hdropped.mem hmem
  unfold Lost Prepared at h ⊢
  cases hr with
  | none => exact h
  | wait k =>
    obtain ⟨heq, hout⟩ := hdown (.refl (key_down cfg i k s))
    exact ⟨by rw [heq]; exact h.1, hout⟩
  | drop k t _ _ hdropped =>
    obtain ⟨heq, hout⟩ := hdown hdropped
    exact ⟨by rw [heq]; exact h.1, hout⟩
  | save k t _ _ _ _ hdropped =>
    obtain ⟨heq, hout⟩ := hdown hdropped
    exact ⟨by rw [heq]; exact h.1, fun hmem => (mem_push hmem).elim hc hout⟩
  | up k b t _ _ ht =>
    rw [modify_other t hc, ht.other c hc]
    exact ⟨h.1, fun hmem => h.2 (ht.mem c hmem)⟩

theorem lost_of_not_fits (hset : Settled cfg s) (hr : Turn cfg keycode pressed now i s r)
    (h : ¬ Fits cfg keycode pressed now s i) : r.1 = true ∧ Lost cfg r.2 i := by
  cases hr with
  | none hfits => exact absurd hfits h
  | wait k hfits => exact absurd hfits h
  | drop k t hfits => exact absurd hfits h
  | up k b t hfits => exact absurd hfits h
  | save k t hiff hon hpart hfull hdropped hself =>
    have hring : t.combo_buffer.isFull := not_not.mp fun hf => h (hiff.mpr hf)
    have hflags := key_down_flags cfg s i k i
    have hactive : (s.combo i).active = false := by
      rw [← Bool.not_eq_true]
      exact fun ha => absurd ((hset.active i ha).symm.trans hpart) (by simp)
    refine ⟨rfl, ⟨hfull, ?_, ?_⟩, fun hmem => ?_⟩
    · exact (congrArg ComboState.disabled hself).trans (hflags.1.trans hpart)
    · exact (congrArg ComboState.active hself).trans (hflags.2.trans hactive)
    · dsimp only at hmem
      rw [(Ring.toList_eq_nil_iff _).mpr (Ring.isEmpty_push _ hring i)] at hmem
      cases hmem

/-! ## All combos -/

variable {is : List Nat}

theorem Settled.process_combos (h : Settled cfg s) (keycode : UInt16) (pressed : Bool)
    (now : UInt16) (his : ∀ i ∈ is, i < cfg.combo_count) :
    Settled cfg (process_combos cfg keycode pressed now is s).2 := by
  induction is generalizing s with
  | nil => exact h
  | cons i is ih =>
    obtain ⟨hi, his⟩ := List.forall_mem_cons.mp his
    exact ih (h.turn hi (process_single_combo_turn cfg keycode pressed now i s)) his

theorem HasPrepared.process_combos (h : HasPrepared cfg s) (hset : Settled cfg s)
    (his : ∀ i ∈ is, i < cfg.combo_count)
    (hfits : Along (fun s i => (process_single_combo cfg keycode true now i s).2)
      (Fits cfg keycode true now) s is) :
    HasPrepared cfg (process_combos cfg keycode true now is s).2 := by
  induction is generalizing s with
  | nil => exact h
  | cons i is ih =>
    obtain ⟨hi, his⟩ := List.forall_mem_cons.mp his
    have hturn := process_single_combo_turn cfg keycode true now i s
    exact ih (h.turn hset hi hturn hfits.1) (hset.turn hi hturn) his hfits.2

theorem Lost.process_combos (h : Lost cfg s c) (hc : c ∉ is) :
    Lost cfg (process_combos cfg keycode pressed now is s).2 c := by
  induction is generalizing s with
  | nil => exact h
  | cons i is ih =>
    obtain ⟨hne, hc⟩ := not_or.mp (mt List.mem_cons.mpr hc)
    exact ih (h.turn hne (process_single_combo_turn cfg keycode pressed now i s)) hc

theorem lost_of_overflow (hset : Settled cfg s) (his : ∀ i ∈ is, i < cfg.combo_count)
    (hnodup : is.Nodup)
    (h : ¬ Along (fun s i => (process_single_combo cfg keycode pressed now i s).2)
      (Fits cfg keycode pressed now) s is) :
    (process_combos cfg keycode pressed now is s).1 = true ∧
      ∃ c < cfg.combo_count, Lost cfg (process_combos cfg keycode pressed now is s).2 c := by
  induction is generalizing s with
  | nil => exact absurd trivial h
  | cons i is ih =>
    obtain ⟨hi, his⟩ := List.forall_mem_cons.mp his
    obtain ⟨hnot, hnodup⟩ := List.nodup_cons.mp hnodup
    have hturn := process_single_combo_turn cfg keycode pressed now i s
    unfold process_combos
    dsimp only
    by_cases hfits : Fits cfg keycode pressed now s i
    · obtain ⟨hkey, hlost⟩ := ih (hset.turn hi hturn) his hnodup fun hrest => h ⟨hfits, hrest⟩
      exact ⟨by rw [hkey, Bool.or_true], hlost⟩
    · obtain ⟨hkey, hlost⟩ := lost_of_not_fits hset hturn hfits
      exact ⟨by rw [hkey, Bool.true_or], i, hi, hlost.process_combos hnot⟩

/-! ## The combos of the ring are applied -/

theorem drop_combo_ring (c : Nat) (s : State N) :
    (drop_combo_from_buffer c s).combo_buffer = s.combo_buffer ∨
      (¬ s.combo_buffer.isEmpty ∧
        (drop_combo_from_buffer c s).combo_buffer = s.combo_buffer.drop) := by
  unfold drop_combo_from_buffer
  split
  · exact .inl rfl
  · rename_i i hi
    dsimp only
    split
    · exact .inr ⟨not_isEmpty_of_mem (List.mem_of_find?_eq_some hi), rfl⟩
    · exact .inl rfl

theorem apply_combo_enabled (cfg : Combos) (h : (s.combo c).disabled = false) :
    ∃ t : State N, t.combo_buffer = s.combo_buffer ∧ t.b_combo_enable = s.b_combo_enable ∧
      (∀ d, d ≠ c → t.combo d = s.combo d) ∧
      apply_combo cfg c s = drop_combo_from_buffer c t := by
  unfold apply_combo
  rw [if_neg (by simp [h])]
  dsimp only
  let t : State N := { s with key_buffer := (apply_keys cfg c 0 s.key_buffer).2 }
  split
  · exact ⟨t.ACTIVATE_COMBO c, rfl, rfl, fun d hd => modify_other t hd _, rfl⟩
  · exact ⟨t, rfl, rfl, fun _ _ => rfl, rfl⟩

theorem apply_combo_ring (cfg : Combos) (c : Nat) (s : State N) :
    (apply_combo cfg c s).combo_buffer = s.combo_buffer ∨
      (¬ s.combo_buffer.isEmpty ∧ (apply_combo cfg c s).combo_buffer = s.combo_buffer.drop) := by
  cases h : (s.combo c).disabled with
  | true =>
    unfold apply_combo
    rw [if_pos h]
    exact .inl rfl
  | false =>
    obtain ⟨t, hring, -, -, heq⟩ := apply_combo_enabled cfg h
    rw [heq, ← hring]
    exact drop_combo_ring c t

/-- One turn of the loop over the ring. -/
def applyAt (cfg : Combos) (s : State N) (i : Fin N) : State N :=
  apply_combo cfg (s.combo_buffer.slots i) s

variable {j : Fin N}

theorem applyAt_window (cfg : Combos) {is : List (Fin N)} (h : j :: is <:+ s.combo_buffer.window) :
    is <:+ (applyAt cfg s j).combo_buffer.window ∧
      (applyAt cfg s j).combo_buffer.slots = s.combo_buffer.slots := by
  unfold applyAt
  rcases apply_combo_ring cfg (s.combo_buffer.slots j) s with heq | ⟨hne, heq⟩
  · rw [heq]
    exact ⟨(List.suffix_cons j is).trans h, rfl⟩
  · rw [heq]
    refine ⟨?_, rfl⟩
    obtain ⟨pre, hpre⟩ := h
    rw [Ring.window_drop _ hne] at hpre
    cases pre with
    | nil => exact ⟨[], (List.cons.inj hpre).2⟩
    | cons _ pre => exact ⟨pre ++ [j], by simpa using (List.cons.inj hpre).2⟩

theorem applyAt_active (hj : j ∈ s.combo_buffer.window)
    (h : ∀ c, (s.combo c).active = true → (s.combo c).disabled = true) (c : Nat)
    (hc : ((applyAt cfg s j).combo c).active = true) :
    ((applyAt cfg s j).combo c).disabled = true := by
  unfold applyAt at hc ⊢
  cases hd : (s.combo (s.combo_buffer.slots j)).disabled with
  | true =>
    unfold apply_combo at hc ⊢
    rw [if_pos hd] at hc ⊢
    exact h c hc
  | false =>
    obtain ⟨t, hring, -, hother, heq⟩ := apply_combo_enabled cfg hd
    rw [heq] at hc ⊢
    obtain ⟨hdropped, hself⟩ := drop_combo_dropped (s.combo_buffer.slots j) t
    by_cases hcj : c = s.combo_buffer.slots j
    · rw [hcj]
      refine hself ?_
      rw [hring, Ring.toList_eq_map]
      exact List.mem_map_of_mem hj
    · rw [hdropped.active c, hother c hcj] at hc
      exact hdropped.disabled ((hother c hcj).symm ▸ h c hc)

theorem apply_rest_active {is : List (Fin N)} (his : is <:+ s.combo_buffer.window)
    (h : ∀ c, (s.combo c).active = true → (s.combo c).disabled = true) (c : Nat)
    (hc : ((is.foldl (applyAt cfg) s).combo c).active = true) :
    ((is.foldl (applyAt cfg) s).combo c).disabled = true := by
  induction is generalizing s with
  | nil => exact h c hc
  | cons j is ih =>
    exact ih (applyAt_window cfg his).1 (applyAt_active (his.mem List.mem_cons_self) h) hc

theorem apply_rest_length (cfg : Combos) (is : List (Fin N)) (s : State N) :
    s.combo_buffer.length ≤ (is.foldl (applyAt cfg) s).combo_buffer.length + is.length := by
  induction is generalizing s with
  | nil => exact le_rfl
  | cons j is ih =>
    have hturn : s.combo_buffer.length ≤ (applyAt cfg s j).combo_buffer.length + 1 := by
      unfold applyAt
      rcases apply_combo_ring cfg (s.combo_buffer.slots j) s with heq | ⟨hne, heq⟩
      · rw [heq]
        exact Nat.le_succ _
      · rw [heq, Ring.length_drop _ hne]
    have hrest := ih (applyAt cfg s j)
    rw [List.foldl_cons, List.length_cons]
    omega

/-- A combo at the read end that is enabled leaves the ring. -/
theorem applyAt_enabled (cfg : Combos) {is : List (Fin N)} (h : s.combo_buffer.window = j :: is)
    (hd : (s.combo (s.combo_buffer.slots j)).disabled = false) :
    (applyAt cfg s j).combo_buffer.window = is ∧
      ((applyAt cfg s j).combo (s.combo_buffer.slots j)).disabled = true ∧
      ∀ c, c ≠ s.combo_buffer.slots j → (applyAt cfg s j).combo c = s.combo c := by
  have hmem : j ∈ s.combo_buffer.window := by
    rw [h]
    exact List.mem_cons_self
  obtain ⟨t, hring, -, hother, heq⟩ := apply_combo_enabled cfg hd
  obtain ⟨hdropped, hself⟩ := drop_combo_dropped (s.combo_buffer.slots j) t
  have hne := not_isEmpty_of_mem hmem
  have hfirst := Ring.window_drop _ hne
  rw [h] at hfirst
  obtain ⟨htail, hrest⟩ := List.cons.inj hfirst
  unfold applyAt
  rw [heq]
  refine ⟨?_, hself ?_, fun c hc => ?_⟩
  · unfold drop_combo_from_buffer
    rw [hring, h, List.find?_cons_of_pos (by simp)]
    dsimp only
    have htail : j = (t.DISABLE_COMBO (s.combo_buffer.slots j)).combo_buffer.tail :=
      htail.trans (congrArg Ring.tail hring).symm
    have hdrop : (t.DISABLE_COMBO (s.combo_buffer.slots j)).combo_buffer.drop.window = is :=
      (congrArg (fun r => r.drop.window) hring).trans hrest.symm
    rw [if_pos htail]
    exact hdrop
  · rw [hring, Ring.toList_eq_map]
    exact List.mem_map_of_mem hmem
  · exact ((hdropped.combo c).resolve_right fun hh => hc hh.1).trans (hother c hc)

/-- The ring is empty after the loop where no combo in it is disabled, and none
is there twice. -/
theorem apply_rest_isEmpty {is : List (Fin N)} (h : s.combo_buffer.window = is) :
    (is.foldl (applyAt cfg) s).combo_buffer.isEmpty ↔
      (∀ c ∈ is.map s.combo_buffer.slots, (s.combo c).disabled = false) ∧
        (is.map s.combo_buffer.slots).Nodup := by
  induction is generalizing s with
  | nil => exact iff_of_true (Ring.window_eq_nil_iff _ |>.mp h) ⟨nofun, List.nodup_nil⟩
  | cons j is ih =>
    rw [List.foldl_cons, List.map_cons, List.forall_mem_cons, List.nodup_cons]
    cases hd : (s.combo (s.combo_buffer.slots j)).disabled with
    | true =>
      -- it stays, and so does the ring
      have hstay : applyAt cfg s j = s := by
        unfold applyAt apply_combo
        rw [if_pos hd]
      have hlength : s.combo_buffer.length = is.length + 1 := by
        have := congrArg List.length h
        simpa [Ring.window] using this
      have hrest := apply_rest_length cfg is s
      rw [hstay, Ring.isEmpty_iff]
      refine iff_of_false (by omega) fun hh => ?_
      exact absurd hh.1.1 (by simp)
    | false =>
      obtain ⟨hwindow, hself, hother⟩ := applyAt_enabled cfg h hd
      have hsuffix : j :: is <:+ s.combo_buffer.window := by rw [h]
      have hslots := (applyAt_window cfg hsuffix).2
      rw [ih hwindow, hslots]
      constructor
      · rintro ⟨hall, hnodup⟩
        have hnot : s.combo_buffer.slots j ∉ is.map s.combo_buffer.slots := by
          intro hmem
          have := hall _ hmem
          rw [hself] at this
          cases this
        refine ⟨⟨rfl, fun c hc => ?_⟩, hnot, hnodup⟩
        rw [← hother c fun heq => hnot (heq ▸ hc)]
        exact hall c hc
      · rintro ⟨⟨-, hall⟩, hnot, hnodup⟩
        refine ⟨fun c hc => ?_, hnodup⟩
        rw [hother c fun heq => hnot (heq ▸ hc)]
        exact hall c hc

theorem dump_key_buffer_same (s : State N) :
    (dump_key_buffer s).combo_buffer = s.combo_buffer ∧ (dump_key_buffer s).combo = s.combo ∧
      (dump_key_buffer s).b_combo_enable = s.b_combo_enable := by
  have hrecord : ∀ (t : State N) (q : queued_record_t), (dump_record t q).combo_buffer =
      t.combo_buffer ∧ (dump_record t q).combo = t.combo ∧
      (dump_record t q).b_combo_enable = t.b_combo_enable := by
    intro t q
    unfold dump_record
    split
    · exact ⟨rfl, rfl, rfl⟩
    · split
      · split
        · exact ⟨rfl, rfl, rfl⟩
        · exact ⟨rfl, rfl, rfl⟩
      · exact ⟨rfl, rfl, rfl⟩
  unfold dump_key_buffer
  generalize s.key_buffer = queue
  induction queue generalizing s with
  | nil => exact ⟨rfl, rfl, rfl⟩
  | cons q queue ih =>
    obtain ⟨h1, h2, h3⟩ := hrecord s q
    obtain ⟨h1', h2', h3'⟩ := ih (dump_record s q)
    exact ⟨h1'.trans h1, h2'.trans h2, h3'.trans h3⟩

theorem apply_combos_isEmpty (cfg : Combos) (s : State N) :
    (apply_combos cfg s).combo_buffer.isEmpty ↔ Clean s := by
  have hring : (apply_combos cfg s).combo_buffer = (apply_buffered cfg s).combo_buffer :=
    (dump_key_buffer_same _).1
  rw [hring]
  unfold Clean
  rw [Ring.toList_eq_map]
  exact apply_rest_isEmpty rfl

/-! ## Steps -/

theorem clear_combos_good (cfg : Combos) (h : ∀ c, (s.combo c).active = true → (s.combo c).disabled = true) :
    HasPrepared cfg (clear_combos cfg s) ∧ Settled cfg (clear_combos cfg s) := by
  have hzero : ∀ c < cfg.combo_count, ((clear_combos cfg s).combo c).active = false →
      ((clear_combos cfg s).combo c).state = 0 := by
    intro c hlt hc
    unfold clear_combos at hc ⊢
    dsimp only at hc ⊢
    split at hc
    · rename_i hreset
      rw [if_pos hreset]
    · rename_i hreset
      exact absurd ⟨hlt, hc⟩ hreset
  refine ⟨fun c hlt hp => ?_, fun c hc => ?_, fun _ => hzero⟩
  · have hfull := hp.1
    rw [hzero c hlt hp.2.2, not_full_zero] at hfull
    cases hfull
  · by_cases hreset : c < cfg.combo_count ∧ (s.combo c).active = false
    · unfold clear_combos at hc
      dsimp only at hc
      rw [if_pos hreset] at hc
      exact absurd (hreset.2.symm.trans hc) (by simp)
    · unfold clear_combos at hc ⊢
      dsimp only at hc ⊢
      rw [if_neg hreset] at hc ⊢
      exact h c hc

theorem apply_combos_good (h : Settled cfg s) :
    HasPrepared cfg (apply_combos cfg s) ∧ Settled cfg (apply_combos cfg s) := by
  refine clear_combos_good cfg fun c hc => ?_
  rw [(dump_key_buffer_same _).2.1] at hc ⊢
  exact apply_rest_active List.suffix_rfl h.active c hc

theorem dumped_good (h : Settled cfg s) :
    HasPrepared cfg (clear_combos cfg { dump_key_buffer s with timer := 0 }) ∧
      Settled cfg (clear_combos cfg { dump_key_buffer s with timer := 0 }) := by
  refine clear_combos_good cfg fun c hc => ?_
  rw [(dump_key_buffer_same _).2.1] at hc ⊢
  exact h.active c hc

theorem combo_disable_good (h : Settled cfg s) :
    HasPrepared cfg (combo_disable cfg s) ∧ Settled cfg (combo_disable cfg s) := by
  unfold combo_disable
  generalize hoff : ({ s with
    timer := 0, b_combo_enable := false,
    combo_buffer := { s.combo_buffer with tail := s.combo_buffer.head } } : State N) = t
  have hactive : ∀ c, (t.combo c).active = true → (t.combo c).disabled = true := by
    rw [← hoff]
    exact h.active
  obtain ⟨hhas, hset⟩ := clear_combos_good cfg hactive
  obtain ⟨h1, h2, h3⟩ := dump_key_buffer_same (clear_combos cfg t)
  refine ⟨fun c hlt hp => ?_, fun c hc => ?_, fun hb c hlt hc => ?_⟩
  · rw [h1]
    unfold Prepared at hp
    rw [h2] at hp
    exact hhas c hlt hp
  · rw [h2] at hc ⊢
    exact hset.active c hc
  · rw [h2] at hc ⊢
    exact hset.off (h3 ▸ hb) c hlt hc

variable {record : keyrecord_t}

theorem toggle_good (hhas : HasPrepared cfg s) (hset : Settled cfg s)
    (h : IsSwitch keycode record) :
    HasPrepared cfg (step cfg s (.process_combo keycode record now)) ∧
      Settled cfg (step cfg s (.process_combo keycode record now)) := by
  have henable : HasPrepared cfg (combo_enable s) ∧ Settled cfg (combo_enable s) :=
    ⟨hhas, hset.active, nofun⟩
  have hdisable := combo_disable_good hset
  obtain ⟨hkey, hpressed⟩ := h
  unfold step process_combo
  simp only [hpressed, and_true]
  split
  · exact henable
  · split
    · exact hdisable
    · rw [if_pos (by tauto)]
      unfold combo_toggle
      split
      · exact hdisable
      · exact henable

/-- An event that is no switch goes to all combos, and then it is held back or
what was held back is settled. -/
theorem step_event {record : keyrecord_t} (h : ¬ IsSwitch keycode record) :
    step cfg s (.process_combo keycode record now) =
      (let (is_combo_key, t) :=
        process_combos cfg keycode record.event.pressed now (List.range cfg.combo_count) s
      if record.event.pressed && is_combo_key then hold_back cfg keycode record now t
      else if ¬ t.combo_buffer.isEmpty then apply_combos cfg t
      else clear_combos cfg { dump_key_buffer t with timer := 0 }) := by
  unfold IsSwitch at h
  unfold step process_combo
  dsimp only
  rw [if_neg (by tauto), if_neg (by tauto), if_neg (by tauto)]

theorem Settled.step (hset : Settled cfg s) (hhas : HasPrepared cfg s) (x : Input) :
    Settled cfg (step cfg s x) := by
  cases x with
  | process_combo keycode record now =>
    by_cases hswitch : IsSwitch keycode record
    · exact (toggle_good hhas hset hswitch).2
    · rw [step_event hswitch]
      have hloop := hset.process_combos keycode record.event.pressed now
        fun i (hi : i ∈ List.range cfg.combo_count) => List.mem_range.mp hi
      dsimp only
      split
      · exact ⟨hloop.active, hloop.off⟩
      · split
        · exact (apply_combos_good hloop).2
        · exact (dumped_good hloop).2
  | combo_task now =>
    unfold combos.step combo_task
    dsimp only
    split
    · split
      · obtain ⟨hactive, hoff⟩ := (apply_combos_good hset).2
        exact ⟨hactive, hoff⟩
      · exact (dumped_good hset).2
    · exact hset

/-- A press that goes to all combos leaves every prepared combo in the ring
exactly where each has a place. -/
theorem press_has_prepared_iff (hhas : HasPrepared cfg s) (hset : Settled cfg s)
    (hswitch : ¬ IsSwitch keycode record) (hpressed : record.event.pressed = true) :
    Along (fun s i => (process_single_combo cfg keycode true now i s).2)
        (Fits cfg keycode true now) s (List.range cfg.combo_count) ↔
      HasPrepared cfg (step cfg s (.process_combo keycode record now)) := by
  have hrange : ∀ i ∈ List.range cfg.combo_count, i < cfg.combo_count :=
    fun i => List.mem_range.mp
  have hloop := hset.process_combos keycode true now hrange
  rw [step_event hswitch, hpressed]
  dsimp only
  rw [Bool.true_and]
  constructor
  · intro hfits
    split
    · exact hhas.process_combos hset hrange hfits
    · split
      · exact (apply_combos_good hloop).1
      · exact (dumped_good hloop).1
  · intro hafter
    by_contra hfits
    obtain ⟨hkey, c, hlt, hprepared, hout⟩ :=
      lost_of_overflow hset hrange List.nodup_range hfits
    rw [if_pos hkey] at hafter
    exact hout (hafter c hlt hprepared)

theorem careful_iff_settles (hhas : HasPrepared cfg s) (hset : Settled cfg s) (x : Input) :
    Careful cfg s x ↔ Settles cfg s x := by
  refine and_congr ?_ (forall₂_congr fun t _ => (apply_combos_isEmpty cfg t).symm)
  cases x with
  | process_combo keycode record now =>
    dsimp only
    by_cases hswitch : IsSwitch keycode record
    · exact iff_of_true (absurd hswitch) (toggle_good hhas hset hswitch).1
    · rw [imp_iff_right hswitch]
      cases hpressed : record.event.pressed with
      | true => exact press_has_prepared_iff hhas hset hswitch hpressed
      | false =>
        have hloop := hset.process_combos keycode false now
          fun i (hi : i ∈ List.range cfg.combo_count) => List.mem_range.mp hi
        refine iff_of_true (Along.of_forall (fun t i => ?_) s _) ?_
        · -- no combo is saved by a release
          unfold Fits
          split
          · trivial
          · exact nofun
        · rw [step_event hswitch, hpressed]
          dsimp only
          rw [Bool.false_and, if_neg Bool.false_ne_true]
          split
          · exact (apply_combos_good hloop).1
          · exact (dumped_good hloop).1
  | combo_task now =>
    refine iff_of_true trivial ?_
    unfold combos.step combo_task
    dsimp only
    split
    · split
      · exact (apply_combos_good hset).1
      · exact (dumped_good hset).1
    · exact hhas

theorem boot_good (cfg : Combos) (n : Nat) :
    HasPrepared cfg (State.boot n) ∧ Settled cfg (State.boot n) := by
  refine ⟨fun c _ hp => ?_, nofun, fun _ _ _ _ => rfl⟩
  have hfull : ALL_COMBO_KEYS_ARE_DOWN 0 (cfg.combo_get c).keys.length = true := hp.1
  rw [not_full_zero] at hfull
  cases hfull

end

/-- In every run, the ring has every prepared combo after each step, and is
empty after each `apply_combos`, exactly where no combo is saved to a full
ring and `apply_combos` finds the ring clean. -/
theorem prepared_combos_are_kept_where_the_ring_has_room (n : Nat) (inputs : List Input) :
    Along (step cfg) (Settles cfg) (State.boot n) inputs ↔
      Along (step cfg) (Careful cfg) (State.boot n) inputs :=
  Along.iff (I := fun s => HasPrepared cfg s ∧ Settled cfg s)
    (fun _ x h => careful_iff_settles h.1 h.2 x)
    (fun _ x h hp => ⟨hp.1, h.2.step h.1 x⟩) (boot_good cfg n)

def chord (key1 key2 : UInt16) (h : COMBO_END ∉ [key1, key2]) : combo_t :=
  ⟨[key1, key2], 0x29, List.cons_ne_nil _ _, by simp [MAX_COMBO_LENGTH], h⟩

def fourChords : Combos where
  combo_count := 4
  combo_get i :=
    if i = 0 then chord 0x04 0x05 (by decide)
    else if i = 1 then chord 0x06 0x07 (by decide)
    else if i = 2 then chord 0x08 0x09 (by decide)
    else chord 0x0A 0x0B (by decide)
  COMBO_TERM := 50
  COMBO_KEY_BUFFER_LENGTH := 8
  COMBO_STRICT_TIMER := false

def pressAt (keycode : UInt16) : Input :=
  .process_combo keycode ⟨⟨⟨0, keycode.toUInt8⟩, 10, .KEY_EVENT, true, 0⟩, 0⟩ 10

/-- The keys of four chords are pressed within the term. The fourth chord fills
the ring of four slots, and the ring is empty. -/
theorem four_prepared_combos_are_lost :
    ¬ ∀ (cfg : Combos) (inputs : List Input),
      Along (step cfg) (Settles cfg) (State.boot 3) inputs := by
  intro h
  have hrun := h fourChords [pressAt 0x04, pressAt 0x05, pressAt 0x06, pressAt 0x07, pressAt 0x08,
    pressAt 0x09, pressAt 0x0A, pressAt 0x0B]
  revert hrun
  decide +kernel

end keychron_qmk.combos
