-- The scan of a matrix without diodes, after `keyboard.c` with `MATRIX_HAS_GHOST`: a
-- row is skipped when it shares two columns with another one, and what blank
-- positions conduct can hide that it does.
import KeychronQMK.Lib.Runs
import KeychronQMK.Lib.BitSlice
import KeychronQMK.Lib.Bipartite
import Mathlib.Data.List.FinRange
import Mathlib.Data.Fintype.Basic
import Mathlib.Algebra.Group.Nat.Defs

namespace keychron_qmk.matrix

open runs bitslice bipartite

/-! ## The matrix -/

def KC_NO : UInt16 := 0

/-- `matrix_row_t` has `width` bits, and `keymap` is the layer 0. -/
structure Config where
  MATRIX_ROWS : Nat
  MATRIX_COLS : Nat
  width : Nat
  fits : MATRIX_COLS ≤ width
  keymap : Fin MATRIX_ROWS → Fin MATRIX_COLS → UInt16

namespace Config

variable (cfg : Config)

abbrev Rows := Fin cfg.MATRIX_ROWS → BitVec cfg.width

abbrev Keys := Fin cfg.MATRIX_ROWS → Fin cfg.MATRIX_COLS → Bool

end Config

/-- The arguments of `MAKE_KEYEVENT` and of `switch_events`. -/
structure Event (cfg : Config) where
  row : Fin cfg.MATRIX_ROWS
  col : Fin cfg.MATRIX_COLS
  pressed : Bool
  deriving DecidableEq

/-- What a call of `matrix_task` finds: the rows that `matrix_scan` leaves, and the keys
that are physically pressed. -/
structure Scan (cfg : Config) where
  can_read : Bool
  process_keypress : Bool
  rows : cfg.Rows
  pressed : cfg.Keys

/-- What a call leaves: the rows to compare with, and the events that went to `action_exec`
and to `switch_events`. -/
structure Task (cfg : Config) where
  matrix_previous : cfg.Rows
  executed : List (Event cfg)
  switched : List (Event cfg)

variable {cfg : Config}

def keycode_at_keymap_location (row : Fin cfg.MATRIX_ROWS) (col : Fin cfg.MATRIX_COLS) : UInt16 :=
  cfg.keymap row col

def get_real_keys (row : Fin cfg.MATRIX_ROWS) (rowdata : BitVec cfg.width) : BitVec cfg.width :=
  (List.finRange cfg.MATRIX_COLS).foldl (fun out col =>
    if keycode_at_keymap_location row col ≠ 0 ∧ rowdata &&& mask col ≠ 0 then out ||| mask col
    else out) 0

def popcount_more_than_one {w : Nat} (rowdata : BitVec w) : Bool := rowdata &&& (rowdata - 1) ≠ 0

def has_ghost_in_row (rows : cfg.Rows) (row : Fin cfg.MATRIX_ROWS) (rowdata : BitVec cfg.width) :
    Bool :=
  let rowdata := get_real_keys row rowdata
  if !popcount_more_than_one rowdata then false
  else (List.finRange cfg.MATRIX_ROWS).any fun i =>
    i ≠ row && popcount_more_than_one (get_real_keys i (rows i) &&& rowdata)

def row_events (row : Fin cfg.MATRIX_ROWS) (current_row row_changes : BitVec cfg.width) :
    List (Event cfg) :=
  (List.finRange cfg.MATRIX_COLS).filterMap fun (col : Fin cfg.MATRIX_COLS) =>
    if row_changes &&& mask col ≠ 0 then some ⟨row, col, current_row &&& mask col ≠ 0⟩ else none

def task_row (x : Scan cfg) (t : Task cfg) (row : Fin cfg.MATRIX_ROWS) : Task cfg :=
  let current_row := x.rows row
  let row_changes := current_row ^^^ t.matrix_previous row
  if row_changes = 0 || has_ghost_in_row x.rows row current_row then t
  else
    { matrix_previous := Function.update t.matrix_previous row current_row
      executed :=
        if x.process_keypress then t.executed ++ row_events row current_row row_changes
        else t.executed
      switched := t.switched ++ row_events row current_row row_changes }

def matrix_changed (matrix_previous : cfg.Rows) (x : Scan cfg) : Bool :=
  (List.finRange cfg.MATRIX_ROWS).any fun row => matrix_previous row ^^^ x.rows row ≠ 0

/-- A call that cannot read the matrix, or finds it unchanged, makes a tick. -/
def matrix_task (matrix_previous : cfg.Rows) (x : Scan cfg) : Task cfg :=
  if !x.can_read then ⟨matrix_previous, [], []⟩
  else if !matrix_changed matrix_previous x then ⟨matrix_previous, [], []⟩
  else (List.finRange cfg.MATRIX_ROWS).foldl (task_row x) ⟨matrix_previous, [], []⟩

def step (matrix_previous : cfg.Rows) (x : Scan cfg) : cfg.Rows :=
  (matrix_task matrix_previous x).matrix_previous

def boot : cfg.Rows := fun _ => 0

/-! ## Ghosts -/

def Blank (row : Fin cfg.MATRIX_ROWS) (col : Fin cfg.MATRIX_COLS) : Prop :=
  cfg.keymap row col = KC_NO

instance (row : Fin cfg.MATRIX_ROWS) (col : Fin cfg.MATRIX_COLS) : Decidable (Blank row col) :=
  inferInstanceAs (Decidable (cfg.keymap row col = KC_NO))

def Closed (pressed : cfg.Keys) : Fin cfg.MATRIX_ROWS → Fin cfg.MATRIX_COLS → Prop :=
  Joined fun row col => pressed row col

structure Reads (x : Scan cfg) : Prop where
  keys : ∀ row col, x.pressed row col → ¬ Blank row col
  closed : ∀ row (col : Fin cfg.MATRIX_COLS),
    (x.rows row).getLsbD col = true ↔ Closed x.pressed row col

/-- Two columns that a row shares with another one, with a key at each of the four
crossings. -/
def Shares (pressed : cfg.Keys) (row : Fin cfg.MATRIX_ROWS) : Prop :=
  ∃ i, i ≠ row ∧ ∃ c d, c ≠ d ∧ ∀ r, r = row ∨ r = i → ∀ col, col = c ∨ col = d →
    ¬ Blank r col ∧ Closed pressed r col

/-- Every key that is reported as pressed is pressed. -/
def Honest (matrix_previous : cfg.Rows) (x : Scan cfg) : Prop :=
  ∀ e ∈ (matrix_task matrix_previous x).switched ++ (matrix_task matrix_previous x).executed,
    e.pressed → ¬ Blank e.row e.col → x.pressed e.row e.col

/-- A ghost that is new to its row is in a row that shares two columns. -/
def Covered (matrix_previous : cfg.Rows) (x : Scan cfg) : Prop :=
  x.can_read → ∀ row (col : Fin cfg.MATRIX_COLS), ¬ Blank row col → Closed x.pressed row col →
    ¬ x.pressed row col → (matrix_previous row).getLsbD col = false → Shares x.pressed row

/-! ## What is read -/

section Rows

variable {row : Fin cfg.MATRIX_ROWS} {rowdata : BitVec cfg.width} {x : Scan cfg}

theorem popcount_more_than_one_iff {w : Nat} (rowdata : BitVec w) :
    popcount_more_than_one rowdata ↔
      ∃ i j, i ≠ j ∧ rowdata.getLsbD i ∧ rowdata.getLsbD j := by
  simp only [popcount_more_than_one, decide_eq_true_eq]
  exact and_sub_one_ne_zero rowdata

theorem getLsbD_fold_keys (cols : List (Fin cfg.MATRIX_COLS)) (out : BitVec cfg.width) (j : Nat) :
    (cols.foldl (fun out col =>
      if keycode_at_keymap_location row col ≠ 0 ∧ rowdata &&& mask col ≠ 0 then out ||| mask col
      else out) out).getLsbD j ↔
    out.getLsbD j ∨ ∃ col ∈ cols, col.val = j ∧ ¬ Blank row col ∧ rowdata.getLsbD j := by
  induction cols generalizing out with
  | nil => simp
  | cons col cols ih =>
    rw [List.foldl_cons, ih]
    have hturn : (if keycode_at_keymap_location row col ≠ 0 ∧ rowdata &&& mask col ≠ 0 then
          out ||| mask col else out).getLsbD j ↔
        out.getLsbD j ∨ col.val = j ∧ ¬ Blank row col ∧ rowdata.getLsbD j := by
      have hfits : col.val < cfg.width := col.isLt.trans_le cfg.fits
      have hbit := and_mask_ne_zero rowdata col
      by_cases hkey : keycode_at_keymap_location row col ≠ 0 ∧ rowdata &&& mask col ≠ 0
      · rw [if_pos hkey, BitVec.getLsbD_or, getLsbD_mask, Bool.or_eq_true, decide_eq_true_eq]
        refine or_congr_right ⟨?_, ?_⟩
        · rintro ⟨rfl, -⟩
          exact ⟨rfl, hkey.1, hbit.mp hkey.2⟩
        · rintro ⟨rfl, -⟩
          exact ⟨rfl, hfits⟩
      · rw [if_neg hkey, iff_self_or]
        rintro ⟨rfl, hblank, hset⟩
        exact absurd ⟨hblank, hbit.mpr hset⟩ hkey
    rw [hturn, List.exists_mem_cons_iff, or_assoc]

theorem getLsbD_get_real_keys (j : Nat) : (get_real_keys row rowdata).getLsbD j ↔
    ∃ col : Fin cfg.MATRIX_COLS, col.val = j ∧ ¬ Blank row col ∧ rowdata.getLsbD j := by
  unfold get_real_keys
  rw [getLsbD_fold_keys]
  simp

theorem Reads.key (h : Reads x) (j : Nat) :
    (get_real_keys row (x.rows row)).getLsbD j ↔
      ∃ col : Fin cfg.MATRIX_COLS, col.val = j ∧ ¬ Blank row col ∧ Closed x.pressed row col := by
  rw [getLsbD_get_real_keys]
  refine exists_congr fun col => and_congr_right ?_
  rintro rfl
  rw [h.closed]

theorem has_ghost_in_row_iff : has_ghost_in_row x.rows row rowdata ↔
    popcount_more_than_one (get_real_keys row rowdata) ∧ ∃ i, i ≠ row ∧
      popcount_more_than_one (get_real_keys i (x.rows i) &&& get_real_keys row rowdata) := by
  unfold has_ghost_in_row
  cases hmore : popcount_more_than_one (get_real_keys row rowdata) <;> simp [hmore]

/-- A row is skipped when it shares two columns with another one. -/
theorem Reads.has_ghost_in_row (h : Reads x) :
    has_ghost_in_row x.rows row (x.rows row) ↔ Shares x.pressed row := by
  rw [has_ghost_in_row_iff]
  constructor
  · rintro ⟨-, i, hne, hmore⟩
    obtain ⟨c, d, hcd, hc, hd⟩ := (popcount_more_than_one_iff _).mp hmore
    simp only [BitVec.getLsbD_and, Bool.and_eq_true, h.key] at hc hd
    obtain ⟨⟨c, rfl, hic⟩, c', hc', hrc⟩ := hc
    obtain ⟨⟨d, rfl, hid⟩, d', hd', hrd⟩ := hd
    obtain rfl := Fin.ext hc'
    obtain rfl := Fin.ext hd'
    refine ⟨i, hne, c', d', fun hsame => hcd (by rw [hsame]), ?_⟩
    rintro r (rfl | rfl) col (rfl | rfl)
    · exact hrc
    · exact hrd
    · exact hic
    · exact hid
  · rintro ⟨i, hne, c, d, hcd, hkeys⟩
    have hc : ∀ r, r = row ∨ r = i → (get_real_keys r (x.rows r)).getLsbD c :=
      fun r hr => h.key c |>.mpr ⟨c, rfl, hkeys r hr c (.inl rfl)⟩
    have hd : ∀ r, r = row ∨ r = i → (get_real_keys r (x.rows r)).getLsbD d :=
      fun r hr => h.key d |>.mpr ⟨d, rfl, hkeys r hr d (.inr rfl)⟩
    have hcd' : c.val ≠ d.val := fun hsame => hcd (Fin.ext hsame)
    refine ⟨(popcount_more_than_one_iff _).mpr ?_, i, hne, (popcount_more_than_one_iff _).mpr ?_⟩
    · exact ⟨c, d, hcd', hc row (.inl rfl), hd row (.inl rfl)⟩
    · refine ⟨c, d, hcd', ?_, ?_⟩
      · rw [BitVec.getLsbD_and, hc row (.inl rfl), hc i (.inr rfl)]
        rfl
      · rw [BitVec.getLsbD_and, hd row (.inl rfl), hd i (.inr rfl)]
        rfl

end Rows

/-! ## The events of a call -/

section Tasks

variable {row : Fin cfg.MATRIX_ROWS} {matrix_previous : cfg.Rows} {x : Scan cfg} {e : Event cfg}

/-- What a call makes an event of: a position that changed, in a row that is not skipped. -/
def Emits (matrix_previous : cfg.Rows) (x : Scan cfg) (e : Event cfg) : Prop :=
  has_ghost_in_row x.rows e.row (x.rows e.row) = false ∧
    (matrix_previous e.row).getLsbD e.col ≠ (x.rows e.row).getLsbD e.col ∧
    e.pressed = (x.rows e.row).getLsbD e.col

theorem mem_row_events {current_row : BitVec cfg.width} {previous : BitVec cfg.width} :
    e ∈ row_events row current_row (current_row ^^^ previous) ↔
      e.row = row ∧ previous.getLsbD e.col ≠ current_row.getLsbD e.col ∧
        e.pressed = current_row.getLsbD e.col := by
  have hpressed : ∀ col : Fin cfg.MATRIX_COLS,
      decide (current_row &&& mask col ≠ 0) = current_row.getLsbD col := by
    intro col
    rw [Bool.eq_iff_iff, decide_eq_true_eq, and_mask_ne_zero]
  have hchanged : ∀ col : Fin cfg.MATRIX_COLS, (current_row ^^^ previous) &&& mask col ≠ 0 ↔
      previous.getLsbD col ≠ current_row.getLsbD col := by
    intro col
    rw [and_mask_ne_zero, BitVec.getLsbD_xor, bne_iff_ne, ne_comm]
  simp only [row_events, List.mem_filterMap, List.mem_finRange, true_and, hpressed]
  constructor
  · rintro ⟨col, hcol⟩
    split at hcol
    · obtain rfl := Option.some.inj hcol
      exact ⟨rfl, (hchanged col).mp ‹_›, rfl⟩
    · cases hcol
  · rintro ⟨rfl, hne, heq⟩
    exact ⟨e.col, by rw [if_pos ((hchanged e.col).mpr hne), ← heq]⟩

variable {t : Task cfg}

theorem mem_task_row : e ∈ (task_row x t row).switched ↔
    e ∈ t.switched ∨ e.row = row ∧ Emits t.matrix_previous x e := by
  unfold task_row
  dsimp only
  split
  · rename_i hskip
    rw [iff_self_or]
    rintro ⟨rfl, hghost, hne, -⟩
    simp only [hghost, Bool.or_false, decide_eq_true_eq] at hskip
    exact absurd (congrArg (fun y => y.getLsbD e.col) (BitVec.xor_eq_zero_iff.mp hskip)) hne.symm
  · rename_i hrun
    rw [List.mem_append, mem_row_events]
    refine or_congr_right (and_congr_right ?_)
    rintro rfl
    simp only [Bool.or_eq_true, not_or, Bool.not_eq_true] at hrun
    exact ⟨fun h => ⟨hrun.2, h⟩, fun h => h.2⟩

theorem matrix_previous_task_row {other : Fin cfg.MATRIX_ROWS} (h : other ≠ row) :
    (task_row x t row).matrix_previous other = t.matrix_previous other := by
  unfold task_row
  dsimp only
  split
  · rfl
  · exact Function.update_of_ne h _ _

theorem executed_task_row (h : t.executed ⊆ t.switched) :
    (task_row x t row).executed ⊆ (task_row x t row).switched := by
  unfold task_row
  dsimp only
  split
  · exact h
  · split
    · exact List.append_subset.mpr
        ⟨List.subset_append_of_subset_left _ h, List.subset_append_right _ _⟩
    · exact List.subset_append_of_subset_left _ h

variable {rows : List (Fin cfg.MATRIX_ROWS)}

theorem mem_foldl_task_row (hrows : rows.Nodup)
    (h : ∀ row ∈ rows, t.matrix_previous row = matrix_previous row) :
    e ∈ (rows.foldl (task_row x) t).switched ↔
      e ∈ t.switched ∨ e.row ∈ rows ∧ Emits matrix_previous x e := by
  induction rows generalizing t with
  | nil => simp
  | cons row rows ih =>
    obtain ⟨hrow, hrows⟩ := List.nodup_cons.mp hrows
    have hprevious : ∀ other ∈ rows,
        (task_row x t row).matrix_previous other = matrix_previous other := by
      intro other hother
      have hne : other ≠ row := by
        rintro rfl
        exact hrow hother
      rw [matrix_previous_task_row hne]
      exact h other (List.mem_cons_of_mem row hother)
    have hemits : e.row = row → (Emits t.matrix_previous x e ↔ Emits matrix_previous x e) := by
      rintro rfl
      simp only [Emits, h e.row List.mem_cons_self]
    rw [List.foldl_cons, ih hrows hprevious, mem_task_row, List.mem_cons, or_assoc,
      and_congr_right hemits, or_and_right]

theorem executed_foldl_task_row (h : t.executed ⊆ t.switched) :
    (rows.foldl (task_row x) t).executed ⊆ (rows.foldl (task_row x) t).switched := by
  induction rows generalizing t with
  | nil => exact h
  | cons row rows ih => exact ih (executed_task_row h)

theorem mem_switched : e ∈ (matrix_task matrix_previous x).switched ↔
    x.can_read ∧ Emits matrix_previous x e := by
  unfold matrix_task
  cases hread : x.can_read with
  | false => simp
  | true =>
    cases hchanged : matrix_changed matrix_previous x with
    | false =>
      simp only [Bool.not_true, Bool.false_eq_true, ↓reduceIte, Bool.not_false, List.not_mem_nil,
        true_and, false_iff]
      rintro ⟨-, hne, -⟩
      simp only [matrix_changed, List.any_eq_false, List.mem_finRange, decide_eq_true_eq,
        Decidable.not_not, forall_true_left] at hchanged
      exact hne (congrArg (fun y => y.getLsbD e.col) (BitVec.xor_eq_zero_iff.mp (hchanged e.row)))
    | true =>
      simp only [Bool.not_true, Bool.false_eq_true, ↓reduceIte, true_and]
      rw [mem_foldl_task_row (List.nodup_finRange _) fun _ _ => rfl]
      simp

theorem executed_subset_switched :
    (matrix_task matrix_previous x).executed ⊆ (matrix_task matrix_previous x).switched := by
  unfold matrix_task
  split
  · exact List.Subset.refl _
  · split
    · exact List.Subset.refl _
    · exact executed_foldl_task_row (List.Subset.refl _)

/-! ## Ghosts that are not suppressed -/

theorem Reads.covered_iff (h : Reads x) : Covered matrix_previous x ↔ Honest matrix_previous x := by
  constructor
  · intro hcovered e he hpressed hblank
    have hswitched : e ∈ (matrix_task matrix_previous x).switched :=
      (List.mem_append.mp he).elim id fun he => executed_subset_switched he
    obtain ⟨hread, hghost, hne, hbit⟩ := mem_switched.mp hswitched
    rw [hpressed] at hbit
    have hprevious : (matrix_previous e.row).getLsbD e.col = false := by
      simpa [← hbit] using hne
    by_contra hup
    have hshares := hcovered hread e.row e.col hblank ((h.closed _ _).mp hbit.symm) hup hprevious
    exact absurd (hghost.symm.trans (h.has_ghost_in_row.mpr hshares)) (by decide)
  · intro hhonest hread row col hblank hclosed hup hprevious
    by_contra hshares
    have hbit := (h.closed row col).mpr hclosed
    have hghost : matrix.has_ghost_in_row x.rows row (x.rows row) = false := by
      rw [← Bool.not_eq_true, h.has_ghost_in_row]
      exact hshares
    have hemits : Emits matrix_previous x ⟨row, col, true⟩ :=
      ⟨hghost, by simp [hbit, hprevious], hbit.symm⟩
    have he := List.mem_append_left (matrix_task matrix_previous x).executed
      (mem_switched.mpr ⟨hread, hemits⟩)
    exact hup (hhonest _ he rfl hblank)

/-- The presses of a run are those of keys that are pressed in exactly the runs in which
every new ghost is in a row that shares two columns. -/
theorem presses_are_real_exactly_when_covered {matrix_previous : cfg.Rows} {xs : List (Scan cfg)}
    (h : ∀ x ∈ xs, Reads x) :
    Along step Honest matrix_previous xs ↔ Along step Covered matrix_previous xs :=
  Along.iff_of_along (I := fun _ => True) (fun _ _ _ hreads => hreads.covered_iff)
    (fun _ _ _ _ _ => trivial) trivial (Along.of_mem h matrix_previous)

theorem shares_of_no_blank {col : Fin cfg.MATRIX_COLS}
    (h : ∀ row (col : Fin cfg.MATRIX_COLS), Closed x.pressed row col → ¬ Blank row col)
    (hclosed : Closed x.pressed row col) (hup : ¬ x.pressed row col) : Shares x.pressed row := by
  obtain ⟨i, d, hi, hd, hjoined, hback, hforth⟩ := hclosed.last_edges hup
  refine ⟨i, hi, col, d, hd.symm, ?_⟩
  rintro r (rfl | rfl) c (rfl | rfl)
  · exact ⟨h _ _ hclosed, hclosed⟩
  · exact ⟨h _ _ hjoined, hjoined⟩
  · exact ⟨h _ _ (.edge hforth), .edge hforth⟩
  · exact ⟨h _ _ (.edge hback), .edge hback⟩

end Tasks

/-! ## Two matrices -/

def square (n : Nat) (blanks : List (Nat × Nat)) : Config where
  MATRIX_ROWS := n
  MATRIX_COLS := n
  width := 8 + n
  fits := by omega
  keymap row col := if (row.val, col.val) ∈ blanks then KC_NO else 0x04

def all_closed {n : Nat} {blanks : List (Nat × Nat)} (keys : List (Nat × Nat)) :
    Scan (square n blanks) where
  can_read := true
  process_keypress := true
  rows _ := .ofNat (8 + n) (2 ^ n - 1)
  pressed row col := (row.val, col.val) ∈ keys

def three : Scan (square 2 []) := all_closed [(0, 0), (0, 1), (1, 0)]

/-- Around three blank positions a key for each other position but one. -/
def around : Scan (square 3 [(0, 1), (1, 2), (2, 0)]) :=
  all_closed [(0, 0), (1, 0), (1, 1), (2, 1), (2, 2)]

theorem reads_three : Reads three where
  keys := by decide
  closed row col := by
    refine iff_of_true (by revert row col; decide) (joined_of_within (n := 1) ?_)
    revert row col
    decide

theorem reads_around : Reads around where
  keys := by decide
  closed row col := by
    refine iff_of_true (by revert row col; decide) (joined_of_within (n := 2) ?_)
    revert row col
    decide

/-- The fourth corner is not reported. -/
theorem three_corners_are_reported : Along step Honest boot [three] := by
  have hkeys : ∀ row col, ¬ @Blank (square 2 []) row col := by decide
  refine (presses_are_real_exactly_when_covered ?_).mpr
    ⟨fun _ row col _ hclosed hup _ => ?_, trivial⟩
  · simpa using reads_three
  · exact shares_of_no_blank (fun row col _ => hkeys row col) hclosed hup

/-- The position that no key closes by itself. -/
def corner : Event (square 3 [(0, 1), (1, 2), (2, 0)]) :=
  ⟨⟨0, by decide⟩, ⟨2, by decide⟩, true⟩

/-- The row of the ghost shares one column with each other row, and the ghost is reported. -/
theorem a_ghost_around_blanks_is_reported :
    Reads around ∧ ¬ around.pressed corner.row corner.col ∧
      corner ∈ (matrix_task boot around).executed ∧ ¬ Along step Honest boot [around] := by
  have hevent : corner ∈ (matrix_task boot around).executed := by decide
  refine ⟨reads_around, by decide, hevent, fun h => ?_⟩
  have hpressed := h.1 corner (List.mem_append_right _ hevent) rfl (by decide)
  exact absurd hpressed (by decide)

end keychron_qmk.matrix
