-- The tokens of the deferred executors. Each names the entry that it was made
-- for, as long as no callback cancels its own and is given it again for its slot
-- before it returns: the loop compares the token only.
import KeychronQMK.Deferred.Funs
import KeychronQMK.Lib.Runs
import Mathlib.Data.List.Perm.Subperm

namespace keychron_qmk.deferred_exec

open runs

/-! ## Entries -/

/-- A slot with an entry. -/
def Occupied (s : State) (i : Nat) (x : deferred_executor_t) : Prop :=
  s.basic_executors[i]? = some x ∧ x.token ≠ INVALID_DEFERRED_TOKEN

def entries (s : State) (serial : Nat) : Option deferred_executor_t :=
  s.basic_executors.find? fun x => x.token ≠ INVALID_DEFERRED_TOKEN && x.serial = serial

def Distinct (s : State) : Prop :=
  ∀ i j x y, Occupied s i x → Occupied s j y → x.token = y.token → i = j

/-- What becomes of each entry: a call with its token changes it or ends it, and
so does the return of its own callback. A call that gives a token out makes one. -/
def expected (s : State) (e : Event) (serial : Nat) : Option deferred_executor_t :=
  match e.action with
  | .defer_exec delay_ms callback cb_arg =>
    let token := (defer_exec e.now s delay_ms callback cb_arg).1
    if token ≠ INVALID_DEFERRED_TOKEN ∧ serial = s.created then
      some ⟨token, timer_read32 e.now + delay_ms, callback, cb_arg, serial, e.now + delay_ms.toNat⟩
    else entries s serial
  | .extend_deferred_exec token delay_ms =>
    (entries s serial).map fun x =>
      if delay_ms ≠ 0 ∧ x.token = token then
        { x with trigger_time := timer_read32 e.now + delay_ms, due := e.now + delay_ms.toNat }
      else x
  | .cancel_deferred_exec token => (entries s serial).filter fun x => x.token ≠ token
  | .deferred_exec_task => entries s serial
  | .callback_returns delay_ms =>
    if ∃ l ∈ s.loop, l.serial = serial then
      if delay_ms = 0 then none
      else (entries s serial).map fun x =>
        { x with trigger_time := x.trigger_time + delay_ms, due := x.due + delay_ms.toNat }
    else entries s serial

/-- The tokens are distinct, each entry becomes what it should, and the callback
that is invoked is the one of an entry that has not ended. -/
def Kept (s : State) (e : Event) : Prop :=
  Distinct (step s e) ∧ (∀ serial, entries (step s e) serial = expected s e serial) ∧
    ∀ l ∈ (step s e).loop, s.loop ≠ some l →
      ∃ x ∈ entries (step s e) l.serial, x.token = l.curr_token

/-- A callback that returns finds no other entry in its slot under its token. -/
def NotReused (s : State) (e : Event) : Prop :=
  match e.action with
  | .callback_returns _ => ∀ l ∈ s.loop, ∀ x, Occupied s l.i x → x.token = l.curr_token →
    x.serial = l.serial
  | _ => True

/-- The entries have distinct tokens and numbers, and the entry of the callback
that runs is in its slot, if it has not ended. -/
structure Good (s : State) : Prop where
  tokens : Distinct s
  serials : ∀ i j x y, Occupied s i x → Occupied s j y → x.serial = y.serial → i = j
  fresh : ∀ i x, Occupied s i x → x.serial < s.created
  started : ∀ l ∈ s.loop, l.serial < s.created ∧ l.curr_token ≠ INVALID_DEFERRED_TOKEN
  running : ∀ l ∈ s.loop, ∀ i x, Occupied s i x → x.serial = l.serial →
    i = l.i ∧ x.token = l.curr_token

/-! ## Slots -/

section

variable {s : State} {i : Nat} {x y : deferred_executor_t}

theorem findIdx?_spec {α : Type} {p : α → Bool} {table : List α} (h : table.findIdx? p = some i) :
    ∃ x, table[i]? = some x ∧ p x = true ∧ ∀ j < i, ∀ y, table[j]? = some y → p y = false := by
  obtain ⟨hlt, hp, hbefore⟩ := List.findIdx?_eq_some_iff_getElem.mp h
  refine ⟨table[i], List.getElem?_eq_getElem hlt, hp, fun j hj y hy => ?_⟩
  obtain ⟨hj', rfl⟩ := List.getElem?_eq_some_iff.mp hy
  simpa using hbefore j hj

theorem getD_eq (h : s.basic_executors[i]? = some x) : s.basic_executors.getD i unused = x := by
  rw [List.getD_eq_getElem?_getD, h]
  rfl

theorem occupied_put (h : s.basic_executors[i]? = some x) {j : Nat} {z : deferred_executor_t} :
    Occupied (s.put i y) j z ↔
      if j = i then z = y ∧ y.token ≠ INVALID_DEFERRED_TOKEN else Occupied s j z := by
  have hlt : i < s.basic_executors.length := (List.getElem?_eq_some_iff.mp h).1
  unfold Occupied State.put
  rw [List.getElem?_set]
  by_cases hj : j = i
  · subst hj
    rw [if_pos rfl, if_pos hlt, if_pos rfl]
    constructor
    · rintro ⟨hz, hne⟩
      exact ⟨(Option.some.inj hz).symm, Option.some.inj hz ▸ hne⟩
    · rintro ⟨rfl, hne⟩
      exact ⟨rfl, hne⟩
  · rw [if_neg (Ne.symm hj), if_neg hj]

variable {serial : Nat}

theorem entries_eq_some_iff (h : Good s) :
    entries s serial = some x ↔ ∃ i, Occupied s i x ∧ x.serial = serial := by
  unfold entries
  constructor
  · intro hx
    obtain ⟨i, hi⟩ := List.mem_iff_getElem?.mp (List.mem_of_find?_eq_some hx)
    have hp := List.find?_some hx
    simp only [decide_not, Bool.and_eq_true, Bool.not_eq_true', decide_eq_false_iff_not,
      decide_eq_true_eq] at hp
    exact ⟨i, ⟨hi, hp.1⟩, hp.2⟩
  · rintro ⟨i, ⟨hi, hne⟩, rfl⟩
    obtain ⟨y, hy⟩ := Option.isSome_iff_exists.mp (List.find?_isSome.mpr
      ⟨x, List.mem_iff_getElem?.mpr ⟨i, hi⟩, by simp [hne]⟩ :
        (s.basic_executors.find? fun y => y.token ≠ INVALID_DEFERRED_TOKEN &&
          y.serial = x.serial).isSome)
    obtain ⟨j, hj⟩ := List.mem_iff_getElem?.mp (List.mem_of_find?_eq_some hy)
    have hp := List.find?_some hy
    simp only [decide_not, Bool.and_eq_true, Bool.not_eq_true', decide_eq_false_iff_not,
      decide_eq_true_eq] at hp
    have hij := h.serials i j x y ⟨hi, hne⟩ ⟨hj, hp.1⟩ hp.2.symm
    rw [hy, ← hj, ← hij, hi]

theorem entries_eq_none_iff (h : Good s) :
    entries s serial = none ↔ ∀ i x, Occupied s i x → x.serial ≠ serial := by
  rw [Option.eq_none_iff_forall_ne_some]
  constructor
  · exact fun hnone i x hx heq => hnone x ((entries_eq_some_iff h).mpr ⟨i, hx, heq⟩)
  · intro hnone x hx
    obtain ⟨i, hi, heq⟩ := (entries_eq_some_iff h).mp hx
    exact hnone i x hi heq

theorem Occupied.length_ne (hx : Occupied s i x) : s.basic_executors.length ≠ 0 :=
  (Nat.zero_lt_of_lt (List.getElem?_eq_some_iff.mp hx.1).1).ne'

theorem Occupied.entries (hx : Occupied s i x) (h : Good s) :
    entries s x.serial = some x :=
  (entries_eq_some_iff h).mpr ⟨i, hx, rfl⟩

theorem Good.serial_of_token (h : Good s) (hx : Occupied s i x) (hy : entries s serial = some y)
    (htoken : y.token = x.token) : serial = x.serial := by
  obtain ⟨j, hj, rfl⟩ := (entries_eq_some_iff h).mp hy
  have hij := h.tokens j i y x hj hx htoken
  rw [hij] at hj
  rw [Option.some.inj (hj.1.symm.trans hx.1)]

/-! ## Writes of a slot -/

/-- A slot is given to a new entry. -/
theorem good_fill (h : Good s) (hi : s.basic_executors[i]? = some x)
    (hx : x.token = INVALID_DEFERRED_TOKEN) (hy : y.token ≠ INVALID_DEFERRED_TOKEN)
    (hnew : ∀ z ∈ s.basic_executors, z.token ≠ y.token) (hserial : y.serial = s.created)
    (token : UInt8) :
    let t := { s.put i y with created := s.created + 1, current_token := token }
    Good t ∧ ∀ serial, entries t serial =
      if serial = s.created then some y else entries s serial := by
  intro t
  have hput : ∀ {j z}, Occupied t j z ↔
      if j = i then z = y ∧ y.token ≠ INVALID_DEFERRED_TOKEN else Occupied s j z :=
    occupied_put hi
  have htoken : ∀ {j z}, Occupied s j z → z.token ≠ y.token :=
    fun hz => hnew _ (List.mem_iff_getElem?.mpr ⟨_, hz.1⟩)
  have hold : ∀ {j z}, Occupied s j z → z.serial ≠ y.serial :=
    fun hz => hserial ▸ (h.fresh _ _ hz).ne
  have hgood : Good t := by
    constructor
    · intro j k a b ha hb hab
      rw [hput] at ha hb
      split_ifs at ha hb with hj hk hk
      · rw [hj, hk]
      · exact absurd (ha.1 ▸ hab.symm) (htoken hb)
      · exact absurd (hb.1 ▸ hab) (htoken ha)
      · exact h.tokens j k a b ha hb hab
    · intro j k a b ha hb hab
      rw [hput] at ha hb
      split_ifs at ha hb with hj hk hk
      · rw [hj, hk]
      · exact absurd (ha.1 ▸ hab.symm) (hold hb)
      · exact absurd (hb.1 ▸ hab) (hold ha)
      · exact h.serials j k a b ha hb hab
    · intro j a ha
      rw [hput] at ha
      split_ifs at ha
      · rw [ha.1, hserial]
        exact Nat.lt_succ_self _
      · exact (h.fresh j a ha).trans (Nat.lt_succ_self _)
    · intro l hl
      obtain ⟨hlt, htoken⟩ := h.started l hl
      exact ⟨hlt.trans (Nat.lt_succ_self _), htoken⟩
    · intro l hl j a ha hal
      rw [hput] at ha
      split_ifs at ha
      · rw [ha.1, hserial] at hal
        exact absurd hal (h.started l hl).1.ne'
      · exact h.running l hl j a ha hal
  refine ⟨hgood, fun serial => ?_⟩
  ext z
  rw [entries_eq_some_iff hgood]
  split
  · rename_i hs
    constructor
    · rintro ⟨j, hz, rfl⟩
      rw [hput] at hz
      split_ifs at hz
      · rw [hz.1]
      · exact absurd (hs.trans hserial.symm) (hold hz)
    · intro hz
      refine ⟨i, hput.mpr ?_, ?_⟩
      · rw [if_pos rfl]
        exact ⟨(Option.some.inj hz).symm, hy⟩
      · rw [← Option.some.inj hz, hserial, hs]
  · rename_i hs
    rw [entries_eq_some_iff h]
    refine exists_congr fun j => and_congr_left fun hz => ?_
    rw [hput]
    split
    · rename_i hj
      refine iff_of_false (fun hzy => hs ?_) fun hocc => ?_
      · rw [← hz, hzy.1, hserial]
      · rw [hj] at hocc
        have hxz := Option.some.inj (hi.symm.trans hocc.1)
        exact hocc.2 (hxz ▸ hx)
    · exact Iff.rfl

/-- An entry is changed, and keeps its token and number. -/
theorem good_change (h : Good s) (hx : Occupied s i x) (htoken : y.token = x.token)
    (hserial : y.serial = x.serial) : Good (s.put i y) ∧ ∀ serial, entries (s.put i y) serial =
      if serial = x.serial then some y else entries s serial := by
  have hput : ∀ {j z}, Occupied (s.put i y) j z ↔
      if j = i then z = y ∧ y.token ≠ INVALID_DEFERRED_TOKEN else Occupied s j z :=
    occupied_put hx.1
  -- a slot has an entry with the token and the number that it had
  have hback : ∀ {j z}, Occupied (s.put i y) j z →
      ∃ w, Occupied s j w ∧ w.token = z.token ∧ w.serial = z.serial := by
    intro j z hz
    rw [hput] at hz
    split_ifs at hz with hj
    · rw [hz.1, hj]
      exact ⟨x, hx, htoken.symm, hserial.symm⟩
    · exact ⟨z, hz, rfl, rfl⟩
  have hgood : Good (s.put i y) := by
    constructor
    · intro j k a b ha hb hab
      obtain ⟨a', ha', hat, -⟩ := hback ha
      obtain ⟨b', hb', hbt, -⟩ := hback hb
      exact h.tokens j k a' b' ha' hb' (hat.trans (hab.trans hbt.symm))
    · intro j k a b ha hb hab
      obtain ⟨a', ha', -, has⟩ := hback ha
      obtain ⟨b', hb', -, hbs⟩ := hback hb
      exact h.serials j k a' b' ha' hb' (has.trans (hab.trans hbs.symm))
    · intro j a ha
      obtain ⟨a', ha', -, has⟩ := hback ha
      rw [← has]
      exact h.fresh j a' ha'
    · exact h.started
    · intro l hl j a ha hal
      obtain ⟨a', ha', hat, has⟩ := hback ha
      rw [← hat]
      exact h.running l hl j a' ha' (has.trans hal)
  refine ⟨hgood, fun serial => ?_⟩
  ext z
  rw [entries_eq_some_iff hgood]
  split
  · rename_i hs
    constructor
    · rintro ⟨j, hz, rfl⟩
      obtain ⟨w, hw, -, hws⟩ := hback hz
      have hj := h.serials j i w x hw hx (hws.trans hs)
      rw [hput, if_pos hj] at hz
      rw [hz.1]
    · intro hz
      refine ⟨i, hput.mpr ?_, ?_⟩
      · rw [if_pos rfl, htoken]
        exact ⟨(Option.some.inj hz).symm, hx.2⟩
      · rw [← Option.some.inj hz, hserial, hs]
  · rename_i hs
    rw [entries_eq_some_iff h]
    refine exists_congr fun j => and_congr_left fun hz => ?_
    rw [hput]
    split
    · rename_i hj
      refine iff_of_false (fun hzy => hs ?_) fun hocc => hs ?_
      · rw [← hz, hzy.1, hserial]
      · rw [hj] at hocc
        rw [← hz, Option.some.inj (hocc.1.symm.trans hx.1)]
    · exact Iff.rfl

/-- An entry ends. -/
theorem good_clear (h : Good s) (hx : Occupied s i x) : Good (s.put i unused) ∧
    ∀ serial, entries (s.put i unused) serial =
      if serial = x.serial then none else entries s serial := by
  have hput : ∀ {j z}, Occupied (s.put i unused) j z ↔ j ≠ i ∧ Occupied s j z := by
    intro j z
    rw [occupied_put hx.1]
    split
    · rename_i hj
      exact iff_of_false (fun hz => hz.2 rfl) fun hz => hz.1 hj
    · rename_i hj
      exact (and_iff_right hj).symm
  have hgood : Good (s.put i unused) := by
    constructor
    · exact fun j k a b ha hb => h.tokens j k a b (hput.mp ha).2 (hput.mp hb).2
    · exact fun j k a b ha hb => h.serials j k a b (hput.mp ha).2 (hput.mp hb).2
    · exact fun j a ha => h.fresh j a (hput.mp ha).2
    · exact h.started
    · exact fun l hl j a ha => h.running l hl j a (hput.mp ha).2
  refine ⟨hgood, fun serial => ?_⟩
  ext z
  rw [entries_eq_some_iff hgood]
  split
  · rename_i hs
    refine iff_of_false ?_ (Option.some_ne_none z).symm
    rintro ⟨j, hz, rfl⟩
    exact (hput.mp hz).1 (h.serials j i z x (hput.mp hz).2 hx hs)
  · rename_i hs
    rw [entries_eq_some_iff h]
    refine exists_congr fun j => and_congr_left fun hz => ?_
    rw [hput]
    refine and_iff_right_of_imp ?_
    rintro hocc rfl
    exact hs (by rw [← hz, Option.some.inj (hocc.1.symm.trans hx.1)])

/-! ## Calls -/

theorem allocate_from_spec (table : List deferred_executor_t) (first : UInt8) (turns : Nat)
    (current_token : UInt8)
    (h : (allocate_from table first turns current_token).1 ≠ INVALID_DEFERRED_TOKEN) :
    (allocate_from table first turns current_token).2 =
        (allocate_from table first turns current_token).1 ∧
      ∀ x ∈ table, x.token ≠ (allocate_from table first turns current_token).1 := by
  induction turns generalizing current_token with
  | zero => exact absurd rfl h
  | succ turns ih =>
    unfold allocate_from at h ⊢
    split
    · rename_i hcan
      refine ⟨rfl, ?_⟩
      simp only [token_can_be_used, Bool.and_eq_true, List.all_eq_true, decide_eq_true_eq] at hcan
      exact hcan.2
    · rename_i hcan
      rw [if_neg hcan] at h
      split
      · rename_i hfirst
        rw [if_pos hfirst] at h
        exact absurd rfl h
      · rename_i hfirst
        rw [if_neg hfirst] at h
        exact ih _ h

variable {table : List deferred_executor_t}

theorem allocate_from_ne {first : UInt8} {m : Nat} (hm : m < 256)
    (hcan : token_can_be_used table (first + .ofNat m)) {turns k : Nat} (hturns : k + turns = 256)
    (hk : k ≤ m) :
    (allocate_from table first turns (first + .ofNat k)).1 ≠ INVALID_DEFERRED_TOKEN := by
  induction turns generalizing k with
  | zero => omega
  | succ turns ih =>
    unfold allocate_from
    split
    · rename_i hnow
      simp only [token_can_be_used, Bool.and_eq_true, decide_eq_true_eq] at hnow
      exact hnow.1
    · rename_i hnow
      have hne : k ≠ m := fun heq => hnow (heq ▸ hcan)
      have hnext : first + .ofNat k + 1 = first + .ofNat (k + 1) := by
        rw [UInt8.add_assoc, UInt8.ofNat_add]
        rfl
      rw [hnext, if_neg]
      · exact ih (by omega) (by omega)
      · intro hfirst
        have hzero : UInt8.ofNat (k + 1) = 0 := by simpa using hfirst
        have := congrArg UInt8.toNat hzero
        rw [UInt8.toNat_ofNat_of_lt' (Nat.lt_of_le_of_lt (Nat.succ_le_of_lt (by omega)) hm)] at this
        cases this

/-- A table of at most 255 entries, one of which is free, leaves a token. -/
theorem allocate_token_ne (hlen : table.length ≤ 255)
    (hfree : ∃ x ∈ table, x.token = INVALID_DEFERRED_TOKEN) (current_token : UInt8) :
    (allocate_token table current_token).1 ≠ INVALID_DEFERRED_TOKEN := by
  obtain ⟨token, hnew⟩ : ∃ token : UInt8, token ∉ table.map (·.token) := by
    by_contra hall
    push Not at hall
    have hsub : (List.range 256).map UInt8.ofNat ⊆ table.map (·.token) := fun t _ => hall t
    have hnodup : ((List.range 256).map UInt8.ofNat).Nodup := by decide +kernel
    have hle := (hnodup.subperm hsub).length_le
    simp only [List.length_map, List.length_range] at hle
    omega
  have hne : token ≠ INVALID_DEFERRED_TOKEN := by
    obtain ⟨x, hx, hzero⟩ := hfree
    rintro rfl
    exact hnew (List.mem_map.mpr ⟨x, hx, hzero⟩)
  have hoffset : current_token + 1 + .ofNat (token - (current_token + 1)).toNat = token := by
    rw [UInt8.ofNat_toNat, UInt8.add_comm, UInt8.sub_add_cancel]
  have hcan : token_can_be_used table token := by
    simp only [token_can_be_used, Bool.and_eq_true, List.all_eq_true, decide_eq_true_eq]
    exact ⟨hne, fun x hx heq => hnew (List.mem_map.mpr ⟨x, hx, heq⟩)⟩
  have hfound := allocate_from_ne (token - (current_token + 1)).toNat_lt (hoffset.symm ▸ hcan)
    (rfl : 0 + 256 = 256) (Nat.zero_le _)
  have hzero : UInt8.ofNat 0 = 0 := rfl
  rwa [hzero, UInt8.add_zero] at hfound

/-- A call that gives a token out fills a free slot, under a token that no entry
has. Any other call changes no slot. -/
theorem defer_exec_cases (now : Nat) (s : State) (delay_ms : UInt32) (callback cb_arg : Pointer) :
    ((defer_exec now s delay_ms callback cb_arg).1 = INVALID_DEFERRED_TOKEN ∧
      ∃ token, (defer_exec now s delay_ms callback cb_arg).2 = { s with current_token := token }) ∨
    ∃ i x y, s.basic_executors[i]? = some x ∧ x.token = INVALID_DEFERRED_TOKEN ∧
      y = ⟨(defer_exec now s delay_ms callback cb_arg).1, timer_read32 now + delay_ms, callback,
        cb_arg, s.created, now + delay_ms.toNat⟩ ∧
      y.token ≠ INVALID_DEFERRED_TOKEN ∧ (∀ z ∈ s.basic_executors, z.token ≠ y.token) ∧
      (defer_exec now s delay_ms callback cb_arg).2 =
        { s.put i y with created := s.created + 1, current_token := y.token } := by
  unfold defer_exec
  split
  · exact .inl ⟨rfl, s.current_token, rfl⟩
  · split
    · exact .inl ⟨rfl, s.current_token, rfl⟩
    · rename_i i hfind
      obtain ⟨x, hx, hfree, -⟩ := findIdx?_spec hfind
      dsimp only
      split
      · exact .inl ⟨rfl, _, rfl⟩
      · rename_i htoken
        obtain ⟨heq, hnew⟩ := allocate_from_spec _ _ _ _ htoken
        unfold allocate_token at htoken ⊢
        refine .inr ⟨i, x, _, hx, by simpa using hfree, rfl, ?_, ?_, rfl⟩
        · rw [heq]
          exact htoken
        · rw [heq]
          exact hnew

theorem defer_exec_ne (now : Nat) (s : State) {delay_ms : UInt32} {callback : Pointer}
    (cb_arg : Pointer) (hdelay : delay_ms ≠ 0) (hcallback : callback ≠ NULL)
    (hlen : s.basic_executors.length ≤ 255)
    (hfree : ∃ x ∈ s.basic_executors, x.token = INVALID_DEFERRED_TOKEN) :
    (defer_exec now s delay_ms callback cb_arg).1 ≠ INVALID_DEFERRED_TOKEN := by
  have htoken := allocate_token_ne hlen hfree s.current_token
  obtain ⟨x, hx, hzero⟩ := hfree
  obtain ⟨heq, -⟩ := allocate_from_spec _ _ _ _ htoken
  unfold defer_exec
  rw [if_neg]
  · cases hfind : s.basic_executors.findIdx? (fun e => e.token = INVALID_DEFERRED_TOKEN) with
    | none =>
      have hnone := List.findIdx?_eq_none_iff.mp hfind x hx
      simp [hzero] at hnone
    | some i =>
      dsimp only
      rw [if_neg htoken]
      exact fun hbad => htoken (heq ▸ hbad)
  · rintro (hempty | hnone | hnone)
    · rw [List.length_eq_zero_iff.mp hempty] at hx
      cases hx
    · exact hdelay hnone
    · exact hcallback hnone

theorem slot_of_token (s : State) {token : UInt8} (htoken : token ≠ INVALID_DEFERRED_TOKEN) :
    (s.basic_executors.findIdx? (fun x => x.token = token) = none ∧
      ∀ i x, Occupied s i x → x.token ≠ token) ∨
    ∃ i x, s.basic_executors.findIdx? (fun x => x.token = token) = some i ∧ Occupied s i x ∧
      x.token = token := by
  cases hfind : s.basic_executors.findIdx? (fun x => x.token = token) with
  | none =>
    refine .inl ⟨rfl, fun i x hx => ?_⟩
    have hnone := List.findIdx?_eq_none_iff.mp hfind x (List.mem_iff_getElem?.mpr ⟨i, hx.1⟩)
    simpa using hnone
  | some i =>
    obtain ⟨x, hx, heq, -⟩ := findIdx?_spec hfind
    have heq : x.token = token := by simpa using heq
    exact .inr ⟨i, x, rfl, ⟨hx, heq ▸ htoken⟩, heq⟩

theorem extend_cases (now : Nat) (s : State) (token : UInt8) (delay_ms : UInt32) :
    ((extend_deferred_exec now s token delay_ms).2 = s ∧
      ∀ i x, Occupied s i x → ¬ (delay_ms ≠ 0 ∧ x.token = token)) ∨
    ∃ i x, Occupied s i x ∧ x.token = token ∧ delay_ms ≠ 0 ∧
      (extend_deferred_exec now s token delay_ms).2 = s.put i { x with
        trigger_time := timer_read32 now + delay_ms, due := now + delay_ms.toNat } := by
  unfold extend_deferred_exec
  split
  · rename_i hcheck
    refine .inl ⟨rfl, fun i x hx hmatch => ?_⟩
    rcases hcheck with hempty | hdelay | htoken
    · exact hx.length_ne hempty
    · exact hmatch.1 hdelay
    · exact hx.2 (hmatch.2.trans htoken)
  · rename_i hcheck
    obtain ⟨-, hdelay, htoken⟩ : _ ∧ delay_ms ≠ 0 ∧ token ≠ INVALID_DEFERRED_TOKEN := by tauto
    rcases slot_of_token s htoken with ⟨hfind, hnone⟩ | ⟨i, x, hfind, hx, heq⟩
    · rw [hfind]
      exact .inl ⟨rfl, fun i x hx hmatch => hnone i x hx hmatch.2⟩
    · rw [hfind]
      refine .inr ⟨i, x, hx, heq, hdelay, ?_⟩
      dsimp only
      rw [getD_eq hx.1]

theorem cancel_cases (s : State) (token : UInt8) :
    ((cancel_deferred_exec s token).2 = s ∧ ∀ i x, Occupied s i x → x.token ≠ token) ∨
    ∃ i x, Occupied s i x ∧ x.token = token ∧
      (cancel_deferred_exec s token).2 = s.put i unused := by
  unfold cancel_deferred_exec
  split
  · rename_i hcheck
    refine .inl ⟨rfl, fun i x hx heq => ?_⟩
    rcases hcheck with hempty | htoken
    · exact hx.length_ne hempty
    · exact hx.2 (heq.trans htoken)
  · rename_i hcheck
    rcases slot_of_token s (not_or.mp hcheck).2 with ⟨hfind, hnone⟩ | ⟨i, x, hfind, hx, heq⟩
    · rw [hfind]
      exact .inl ⟨rfl, hnone⟩
    · rw [hfind]
      exact .inr ⟨i, x, hx, heq, rfl⟩

theorem run_from_spec (i : Nat) (now : UInt32) (time : Nat) (s : State) :
    ∃ o, run_from i now time s = { s with loop := o } ∧
      ∀ l ∈ o, i ≤ l.i ∧ ∃ x, Occupied s l.i x ∧ x.token = l.curr_token ∧ x.serial = l.serial := by
  unfold run_from
  split
  · exact ⟨none, rfl, fun l hl => absurd hl (Option.not_mem_none l)⟩
  · rename_i k hfind
    obtain ⟨x, hx, hexecutes, -⟩ := findIdx?_spec hfind
    rw [List.getElem?_drop] at hx
    refine ⟨_, rfl, fun l hl => ?_⟩
    obtain rfl := Option.some.inj hl
    rw [getD_eq hx]
    simp only [deferred_executor_t.executes, Bool.and_eq_true, decide_eq_true_eq] at hexecutes
    exact ⟨Nat.le_add_right _ _, x, ⟨hx, hexecutes.1⟩, rfl, rfl⟩

theorem Good.run_from (h : Good s) (i : Nat) (now : UInt32) (time : Nat) :
    Good (run_from i now time s) ∧
      (∀ serial, entries (run_from i now time s) serial = entries s serial) ∧
      ∀ l ∈ (run_from i now time s).loop, i ≤ l.i ∧
        ∃ x ∈ entries (run_from i now time s) l.serial, x.token = l.curr_token := by
  obtain ⟨o, heq, ho⟩ := run_from_spec i now time s
  rw [heq]
  refine ⟨⟨h.tokens, h.serials, h.fresh, fun l hl => ?_, fun l hl j y hy hserial => ?_⟩,
    fun _ => rfl, fun l hl => ?_⟩
  · obtain ⟨-, x, hx, htoken, hserial⟩ := ho l hl
    exact ⟨hserial ▸ h.fresh _ x hx, htoken ▸ hx.2⟩
  · obtain ⟨-, x, hx, htoken, hserial'⟩ := ho l hl
    have hj := h.serials j l.i y x hy hx (hserial.trans hserial'.symm)
    refine ⟨hj, ?_⟩
    rw [hj] at hy
    rw [Option.some.inj (hy.1.symm.trans hx.1), htoken]
  · obtain ⟨hle, x, hx, htoken, hserial⟩ := ho l hl
    exact ⟨hle, x, hserial ▸ hx.entries h, htoken⟩

/-! ## Steps -/

/-- A call, or a turn of the task, keeps the entries. -/
theorem kept_call (h : Good s) (now : Nat) {action : Action}
    (hcall : ∀ delay_ms, action ≠ .callback_returns delay_ms) :
    Good (step s ⟨now, action⟩) ∧ Kept s ⟨now, action⟩ := by
  -- a step that keeps the loop invokes no callback
  have hsame : (step s ⟨now, action⟩).loop = s.loop → ∀ l ∈ (step s ⟨now, action⟩).loop,
      s.loop ≠ some l → ∃ x ∈ entries (step s ⟨now, action⟩) l.serial, x.token = l.curr_token :=
    fun heq l hl hne => absurd (heq.symm.trans hl) hne
  cases action with
  | defer_exec delay_ms callback cb_arg =>
    unfold Kept expected
    unfold step at hsame ⊢
    dsimp only at hsame ⊢
    rcases defer_exec_cases now s delay_ms callback cb_arg with
      ⟨htoken, token, heq⟩ | ⟨i, x, y, hi, hx, hy, hne, hnew, heq⟩
    · rw [heq] at hsame ⊢
      rw [htoken]
      have hgood : Good { s with current_token := token } :=
        ⟨h.tokens, h.serials, h.fresh, h.started, h.running⟩
      refine ⟨hgood, hgood.tokens, fun serial => ?_, hsame rfl⟩
      rfl
    · obtain ⟨hgood, hentries⟩ := good_fill h hi hx hne hnew (by rw [hy]) y.token
      rw [heq] at hsame ⊢
      refine ⟨hgood, hgood.tokens, fun serial => ?_, hsame rfl⟩
      rw [hentries]
      have htoken : (defer_exec now s delay_ms callback cb_arg).1 = y.token := by rw [hy]
      rw [htoken]
      by_cases hserial : serial = s.created
      · rw [if_pos hserial, if_pos ⟨hne, hserial⟩, hserial, ← htoken]
        exact congrArg some hy
      · rw [if_neg hserial, if_neg fun hh => hserial hh.2]
  | extend_deferred_exec token delay_ms =>
    unfold Kept expected
    unfold step at hsame ⊢
    dsimp only at hsame ⊢
    rcases extend_cases now s token delay_ms with ⟨heq, hnone⟩ | ⟨i, x, hx, htoken, hdelay, heq⟩
    · rw [heq] at hsame ⊢
      refine ⟨h, h.tokens, fun serial => ?_, hsame rfl⟩
      cases hentry : entries s serial with
      | none => rfl
      | some x =>
        obtain ⟨i, hx, -⟩ := (entries_eq_some_iff h).mp hentry
        rw [Option.map_some, if_neg (hnone i x hx)]
    · obtain ⟨hgood, hentries⟩ := good_change h hx (y := { x with
        trigger_time := timer_read32 now + delay_ms, due := now + delay_ms.toNat }) rfl rfl
      rw [heq] at hsame ⊢
      refine ⟨hgood, hgood.tokens, fun serial => ?_, hsame rfl⟩
      rw [hentries]
      split
      · rename_i hserial
        rw [hserial, hx.entries h, Option.map_some, if_pos ⟨hdelay, htoken⟩]
      · rename_i hserial
        cases hentry : entries s serial with
        | none => rfl
        | some z =>
          rw [Option.map_some, if_neg]
          rintro ⟨-, hzt⟩
          exact hserial (h.serial_of_token hx hentry (hzt.trans htoken.symm))
  | cancel_deferred_exec token =>
    unfold Kept expected
    unfold step at hsame ⊢
    dsimp only at hsame ⊢
    rcases cancel_cases s token with ⟨heq, hnone⟩ | ⟨i, x, hx, htoken, heq⟩
    · rw [heq] at hsame ⊢
      refine ⟨h, h.tokens, fun serial => ?_, hsame rfl⟩
      cases hentry : entries s serial with
      | none => rfl
      | some x =>
        obtain ⟨i, hx, -⟩ := (entries_eq_some_iff h).mp hentry
        rw [Option.filter_some, if_pos (by simpa using hnone i x hx)]
    · obtain ⟨hgood, hentries⟩ := good_clear h hx
      rw [heq] at hsame ⊢
      refine ⟨hgood, hgood.tokens, fun serial => ?_, hsame rfl⟩
      rw [hentries]
      split
      · rename_i hserial
        rw [hserial, hx.entries h, Option.filter_some, if_neg (by simp [htoken])]
      · rename_i hserial
        cases hentry : entries s serial with
        | none => rfl
        | some z =>
          rw [Option.filter_some, if_pos]
          rw [decide_eq_true_eq]
          exact fun hzt => hserial (h.serial_of_token hx hentry (hzt.trans htoken.symm))
  | deferred_exec_task =>
    unfold Kept expected
    unfold step at hsame ⊢
    dsimp only at hsame ⊢
    unfold deferred_exec_task at hsame ⊢
    split
    · rename_i l hl
      refine ⟨h, h.tokens, fun _ => rfl, fun l' hl' hne => absurd (hl.trans (hl.symm.trans hl')) hne⟩
    · rename_i hl
      dsimp only
      split
      · have hturn : Good { s with
            last_run := now, last_deferred_exec_check := timer_read32 now } :=
          ⟨h.tokens, h.serials, h.fresh, h.started, h.running⟩
        obtain ⟨hgood, hentries, hloop⟩ := hturn.run_from 0 (timer_read32 now) now
        exact ⟨hgood, hgood.tokens, hentries, fun l' hl' _ => (hloop l' hl').2⟩
      · have hgood : Good { s with last_run := now } :=
          ⟨h.tokens, h.serials, h.fresh, h.started, h.running⟩
        exact ⟨hgood, hgood.tokens, fun _ => rfl,
          fun l' hl' _ => absurd (hl.symm.trans hl') (Option.some_ne_none l').symm⟩
  | callback_returns delay_ms => exact absurd rfl (hcall delay_ms)

/-- A callback returns with no entry in its slot under its token: the loop goes
on. -/
theorem returns_of_ended {l : Loop} (h : Good s) (hl : s.loop = some l)
    (hended : ∀ x, Occupied s l.i x → x.token ≠ l.curr_token) (delay_ms : UInt32) :
    callback_returns s delay_ms = run_from (l.i + 1) l.now l.time s ∧
      entries s l.serial = none := by
  constructor
  · unfold callback_returns
    rw [hl]
    dsimp only
    rw [if_pos]
    cases hslot : s.basic_executors[l.i]? with
    | none =>
      rw [List.getD_eq_getElem?_getD, hslot]
      exact (h.started l hl).2.symm
    | some x =>
      rw [getD_eq hslot]
      intro htoken
      exact hended x ⟨hslot, htoken ▸ (h.started l hl).2⟩ htoken
  · rw [entries_eq_none_iff h]
    intro i x hx hserial
    obtain ⟨hi, htoken⟩ := h.running l hl i x hx hserial
    exact hended x (hi ▸ hx) htoken

/-- A callback returns with an entry in its slot under its token: the delay is
for that one. -/
theorem returns_of_occupied {l : Loop} (h : Good s) (hl : s.loop = some l)
    (hx : Occupied s l.i x) (htoken : x.token = l.curr_token) (delay_ms : UInt32) :
    ∃ t, callback_returns s delay_ms = run_from (l.i + 1) l.now l.time t ∧ Good t ∧
      ∀ serial, entries t serial = if serial = x.serial then
        if delay_ms = 0 then none
        else some { x with
          trigger_time := x.trigger_time + delay_ms, due := x.due + delay_ms.toNat }
      else entries s serial := by
  unfold callback_returns
  rw [hl]
  dsimp only
  rw [getD_eq hx.1, if_neg (not_not.mpr htoken)]
  by_cases hdelay : delay_ms = 0
  · obtain ⟨hgood, hentries⟩ := good_clear h hx
    refine ⟨_, rfl, ?_⟩
    rw [if_neg (by simp [hdelay])]
    simp only [if_pos hdelay]
    exact ⟨hgood, hentries⟩
  · obtain ⟨hgood, hentries⟩ := good_change h hx (y := { x with
      trigger_time := x.trigger_time + delay_ms, due := x.due + delay_ms.toNat }) rfl rfl
    refine ⟨_, rfl, ?_⟩
    rw [if_pos (UInt32.pos_iff_ne_zero.mpr hdelay)]
    simp only [if_neg hdelay]
    exact ⟨hgood, hentries⟩

/-- A callback that returns keeps the entries exactly when the one that it finds
is its own. -/
theorem kept_return (h : Good s) (now : Nat) (delay_ms : UInt32) :
    Good (step s ⟨now, .callback_returns delay_ms⟩) ∧
      (NotReused s ⟨now, .callback_returns delay_ms⟩ ↔
        Kept s ⟨now, .callback_returns delay_ms⟩) := by
  unfold NotReused Kept expected step
  dsimp only
  cases hl : s.loop with
  | none =>
    have heq : callback_returns s delay_ms = s := by
      unfold callback_returns
      rw [hl]
    rw [heq]
    refine ⟨h, iff_of_true (fun l hl' => absurd hl' (Option.not_mem_none l))
      ⟨h.tokens, fun _ => (if_neg ?_).symm, fun l hl' => absurd (hl.symm.trans hl') (Option.some_ne_none l).symm⟩⟩
    rintro ⟨l, hl', -⟩
    exact Option.not_mem_none l hl'
  | some l =>
    have hmine : ∀ serial, (∃ l' ∈ some l, l'.serial = serial) ↔ l.serial = serial := by
      intro serial
      simp
    have hown : ∀ P : Loop → Prop, (∀ l' ∈ some l, P l') ↔ P l := by
      intro P
      simp
    simp only [hmine]
    rw [hown]
    by_cases hslot : ∃ x, Occupied s l.i x ∧ x.token = l.curr_token
    · obtain ⟨x, hx, htoken⟩ := hslot
      obtain ⟨t, heq, ht, hentries⟩ := returns_of_occupied h hl hx htoken delay_ms
      obtain ⟨hgood, hrest, hloop⟩ := ht.run_from (l.i + 1) l.now l.time
      rw [heq]
      refine ⟨hgood, ?_⟩
      have hnot : (∀ y, Occupied s l.i y → y.token = l.curr_token → y.serial = l.serial) ↔
          x.serial = l.serial := by
        constructor
        · exact fun hh => hh x hx htoken
        · intro hserial y hy _
          rwa [Option.some.inj (hy.1.symm.trans hx.1)]
      rw [hnot]
      simp only [hrest, hentries]
      constructor
      · intro hserial
        refine ⟨hgood.tokens, fun serial => ?_, fun l' hl' _ => ?_⟩
        · rw [hserial]
          split
          · rename_i heq
            rw [if_pos heq.symm, heq, ← hserial, hx.entries h]
            rfl
          · rename_i hne
            rw [if_neg fun hh => hne hh.symm]
        · simpa only [hrest, hentries] using (hloop l' hl').2
      · rintro ⟨-, hkept, -⟩
        by_contra hserial
        -- the entry that was found is another one, and it changes
        have hother := hkept x.serial
        have hne : ¬ l.serial = x.serial := fun hh => hserial hh.symm
        rw [if_pos rfl, if_neg hne, hx.entries h] at hother
        split at hother
        · cases hother
        · rename_i hdelay
          have htime := congrArg deferred_executor_t.trigger_time (Option.some.inj hother)
          exact hdelay (by simpa using htime)
    · have hended : ∀ x, Occupied s l.i x → x.token ≠ l.curr_token :=
        fun x hx heq => hslot ⟨x, hx, heq⟩
      obtain ⟨heq, hnone⟩ := returns_of_ended h hl hended delay_ms
      obtain ⟨hgood, hrest, hloop⟩ := h.run_from (l.i + 1) l.now l.time
      rw [heq]
      refine ⟨hgood, iff_of_true (fun x hx htoken => absurd htoken (hended x hx))
        ⟨hgood.tokens, fun serial => ?_, fun l' hl' _ => (hloop l' hl').2⟩⟩
      rw [hrest]
      split
      · rename_i hserial
        rw [← hserial, hnone]
        split <;> rfl
      · rfl

theorem Good.step (h : Good s) (e : Event) : Good (step s e) := by
  obtain ⟨now, action⟩ := e
  cases action with
  | callback_returns delay_ms => exact (kept_return h now delay_ms).1
  | _ => exact (kept_call h now (by simp)).1

theorem kept_iff (h : Good s) (e : Event) : NotReused s e ↔ Kept s e := by
  obtain ⟨now, action⟩ := e
  cases action with
  | callback_returns delay_ms => exact (kept_return h now delay_ms).2
  | _ => exact iff_of_true trivial (kept_call h now (by simp)).2

theorem boot_free (n : Nat) (i : Nat) (x : deferred_executor_t) :
    ¬ Occupied (State.boot n) i x := by
  rintro ⟨hx, hne⟩
  have hmem := List.eq_of_mem_replicate (List.mem_iff_getElem?.mpr ⟨i, hx⟩)
  exact hne (by rw [hmem]; rfl)

theorem Good.boot (n : Nat) : Good (State.boot n) :=
  ⟨fun i _ x _ hx => absurd hx (boot_free n i x), fun i _ x _ hx => absurd hx (boot_free n i x),
    fun i x hx => absurd hx (boot_free n i x), fun l hl => absurd hl (Option.not_mem_none l),
    fun l hl => absurd hl (Option.not_mem_none l)⟩

end

/-- In every run, each token names its entry exactly as long as every callback
that returns finds no other entry in its slot under its token. -/
theorem tokens_name_their_entries_iff (MAX_DEFERRED_EXECUTORS : Nat) (events : List Event) :
    Along step Kept (State.boot MAX_DEFERRED_EXECUTORS) events ↔
      Along step NotReused (State.boot MAX_DEFERRED_EXECUTORS) events :=
  Along.iff (I := Good) (fun _ e h => kept_iff h e) (fun _ e h _ => h.step e) (.boot _)

def madeAndCanceled : Nat → List Event
  | 0 => []
  | n + 1 => madeAndCanceled n ++
    [⟨5, .defer_exec 10 1 NULL⟩, ⟨5, .cancel_deferred_exec (.ofNat (n + 2))⟩]

/-- The callback of the first entry cancels it and queues another one, which is
given the same token. When it returns 0, the new one is gone. -/
def requeued : List Event :=
  ⟨0, .defer_exec 10 1 NULL⟩ :: madeAndCanceled 254 ++
    [⟨10, .deferred_exec_task⟩, ⟨10, .cancel_deferred_exec 1⟩, ⟨10, .defer_exec 100 2 NULL⟩]

set_option maxRecDepth 100000 in
theorem a_requeued_entry_is_lost :
    ¬ ∀ events, Along step Kept (State.boot 8) events := by
  intro h
  have hrun := h (requeued ++ [⟨10, .callback_returns 0⟩])
  obtain ⟨-, hlast, -⟩ := Along.append.mp hrun
  have hkept := hlast.2.1 255
  revert hkept
  decide +kernel

end keychron_qmk.deferred_exec
