-- The eager algorithms lock a cell out after each change that they cook: for
-- the debounce time it keeps its state, and then it takes what is read.
import KeychronQMK.Debounce.Scans

namespace keychron_qmk.keychron_debounce

/-! ## One cell -/

section Cells

variable {ν : Type} [DecidableEq ν] {D elapsed : UInt8} {gap now : Nat} {transfers : Bool}
  {c : debounce_counter_t} {raw raw' cooked : ν} {last : Option Nat} {timely : Prop}

/-- What the counter of a cell says of the time since its last change. That a
lock is not too long holds of timely scans alone. -/
structure Locked (timely : Prop) (D : UInt8) (now : Nat) (last : Option Nat)
    (c : debounce_counter_t) (raw cooked : ν) : Prop where
  idle : c.time = 0 → raw = cooked ∧ ∀ t ∈ last, t + D.toNat ≤ now
  running : c.time ≠ 0 → ∃ t ∈ last, t ≤ now ∧ D.toNat ≤ c.time.toNat + (now - t) ∧
    (timely → c.time.toNat + (now - t) ≤ D.toNat)

/-- A call cooks a cell that differs, finds one that does not, or leaves it
locked. -/
theorem eager_call_cases (hraw : c.time = 0 → raw = cooked)
    (ht : raw' ≠ raw → transfers = true)
    (hu : (updated (eagerRules ν) elapsed c raw' cooked).flag = true → transfers = true) :
    (c.time ≤ elapsed ∧ raw' ≠ cooked ∧
      called (eagerRules ν) D elapsed transfers c raw' cooked = ⟨{ c with time := D }, raw', true⟩) ∨
    (c.time ≤ elapsed ∧ raw' = cooked ∧
      (called (eagerRules ν) D elapsed transfers c raw' cooked).counter.time = 0 ∧
      (called (eagerRules ν) D elapsed transfers c raw' cooked).cooked = cooked) ∨
    (elapsed.toNat < c.time.toNat ∧
      (called (eagerRules ν) D elapsed transfers c raw' cooked).counter.time.toNat =
        c.time.toNat - elapsed.toNat ∧
      (called (eagerRules ν) D elapsed transfers c raw' cooked).cooked = cooked) := by
  rcases updated_cases (eagerRules ν) elapsed c raw' cooked with
    ⟨-, hle, heq⟩ | ⟨hrun, time, hval, hzero, heq⟩
  · have hexpired : called (eagerRules ν) D elapsed transfers c raw' cooked =
        (eagerRules ν).transfer D { c with time := 0 } raw' cooked := by
      rw [called_eq heq, hu (by rw [heq]; rfl)]
      rfl
    rw [hexpired]
    by_cases hne : raw' = cooked
    · rw [eager_transfer_keep fun hc => hc.1 hne]
      exact .inr (.inl ⟨hle, hne, rfl, rfl⟩)
    · rw [eager_transfer_start hne (by rfl)]
      exact .inl ⟨hle, hne, rfl⟩
  · rw [called_eq heq]
    by_cases hz : c.time = 0
    · have hle : c.time ≤ elapsed := by
        rw [hz]
        exact UInt8.zero_le
      by_cases hne : raw' = cooked
      · refine .inr (.inl ⟨hle, hne, ?_⟩)
        cases transfers with
        | false => exact ⟨hzero.mpr hz, rfl⟩
        | true =>
          rw [if_pos rfl, eager_transfer_keep fun hc => hc.1 hne]
          exact ⟨hzero.mpr hz, rfl⟩
      · have htransfers := ht fun h => hne (h.trans (hraw hz))
        rw [htransfers, if_pos rfl, eager_transfer_start hne (hzero.mpr hz)]
        exact .inl ⟨hle, hne, rfl⟩
    · rw [if_neg hz] at hval
      refine .inr (.inr ⟨hrun.resolve_left hz, ?_⟩)
      cases transfers with
      | false => exact ⟨hval, rfl⟩
      | true =>
        rw [if_pos rfl, eager_transfer_keep fun hc => hz (hzero.mp hc.2)]
        exact ⟨hval, rfl⟩

omit [DecidableEq ν] in
theorem Locked.over (h : Locked timely D now last c raw cooked)
    (he : c.time ≠ 0 → elapsed.toNat ≤ gap) (hle : c.time ≤ elapsed) :
    ∀ t ∈ last, t + D.toNat ≤ now + gap := by
  intro t ht
  by_cases hz : c.time = 0
  · have := (h.idle hz).2 t ht
    omega
  · obtain ⟨t', ht', htn, hD, -⟩ := h.running hz
    obtain rfl : t = t' := Option.mem_unique ht ht'
    have hle := UInt8.le_iff_toNat_le.mp hle
    have hgap := he hz
    omega

theorem locked_scan (hD : D ≠ 0) (h : Locked timely D now last c raw cooked)
    (he : c.time ≠ 0 → elapsed.toNat ≤ gap ∧ (gap < 2 ^ 32 → elapsed.toNat = min gap 255))
    (hgap : timely → gap < 2 ^ 32) (ht : raw' ≠ raw → transfers = true)
    (hu : (updated (eagerRules ν) elapsed c raw' cooked).flag = true → transfers = true) :
    Locked timely D (now + gap)
        (if (called (eagerRules ν) D elapsed transfers c raw' cooked).cooked ≠ cooked
          then some (now + gap) else last)
        (called (eagerRules ν) D elapsed transfers c raw' cooked).counter raw'
        (called (eagerRules ν) D elapsed transfers c raw' cooked).cooked ∧
      ((called (eagerRules ν) D elapsed transfers c raw' cooked).cooked ≠ cooked →
        ∀ t ∈ last, t + D.toNat ≤ now + gap) ∧
      (timely → (∀ t ∈ last, t + D.toNat ≤ now + gap) →
        (called (eagerRules ν) D elapsed transfers c raw' cooked).cooked = raw') := by
  have hbyte := c.time.toNat_lt
  rcases eager_call_cases (D := D) (fun hz => (h.idle hz).1) ht hu with
    ⟨hle, hne, hcall⟩ | ⟨hle, heq, hz, hcooked⟩ | ⟨hlt, htime, hcooked⟩
  · have hover := h.over (fun hz => (he hz).1) hle
    rw [hcall, if_pos hne]
    refine ⟨⟨fun hz => absurd hz hD, fun _ => ⟨now + gap, rfl, le_refl _, ?_, fun _ => ?_⟩⟩,
      fun _ => hover, fun _ _ => rfl⟩
    · simp only
      omega
    · simp only
      omega
  · have hover := h.over (fun hz => (he hz).1) hle
    rw [hcooked, if_neg (not_not.mpr rfl)]
    exact ⟨⟨fun _ => ⟨heq, hover⟩, fun hne => absurd hz hne⟩, fun _ => hover, fun _ _ => heq.symm⟩
  · have hne : c.time ≠ 0 := by
      intro hz
      rw [hz] at hlt
      exact Nat.not_lt_zero _ hlt
    obtain ⟨t, hmem, htn, hlow, hhigh⟩ := h.running hne
    obtain ⟨hgap', hexact⟩ := he hne
    rw [hcooked, if_neg (not_not.mpr rfl)]
    refine ⟨⟨fun hz => ?_, fun _ => ⟨t, hmem, by omega, by omega, fun htimely => ?_⟩⟩,
      fun h => absurd rfl h, fun htimely hover => ?_⟩
    · rw [hz] at htime
      change 0 = _ at htime
      omega
    · have := hhigh htimely
      have := hexact (hgap htimely)
      omega
    · -- A timely lock that is over would have ended.
      have := hhigh htimely
      have := hexact (hgap htimely)
      have := hover t hmem
      omega

end Cells

/-! ## Runs -/

variable {R C : Nat}

/-- The invariant of the eager algorithms. -/
def Scanning.Locks (timely : Prop) (s : Scanning R C) : Prop :=
  let d := s.debouncer
  match d.debounce_func with
  | .DEBOUNCE_SYM_EAGER_PER_ROW => Clocked d.sym_eager_pr s.clock ∧
      ∀ r, Locked timely d.debounce_time s.clock (s.row_cooked r)
        (d.sym_eager_pr.debounce_counters r) (d.raw_matrix r) (d.matrix r)
  | .DEBOUNCE_SYM_EAGER_PER_KEY => Clocked d.sym_eager_pk s.clock ∧
      ∀ k, Locked timely d.debounce_time s.clock (s.key_cooked k.1 k.2)
        (d.sym_eager_pk.debounce_counters k) (flat d.raw_matrix k) (flat d.matrix k)
  | _ => True

/-- The scan cooks a key (a row) only when the last change of it is the
debounce time ago. -/
def Scanning.LocksOut (s : Scanning R C) (x : Nat × Matrix R C) : Prop :=
  let s' := s.step x
  let T := s.debouncer.debounce_time.toNat
  let cooked := s.debouncer.matrix
  let cooked' := s'.debouncer.matrix
  match s.debouncer.debounce_func with
  | .DEBOUNCE_SYM_EAGER_PER_ROW =>
    ∀ r, cooked' r ≠ cooked r → ∀ t ∈ s.row_cooked r, t + T ≤ s'.clock
  | .DEBOUNCE_SYM_EAGER_PER_KEY =>
    ∀ r c, cooked' r c ≠ cooked r c → ∀ t ∈ s.key_cooked r c, t + T ≤ s'.clock
  | _ => True

/-- When the last change of a key (a row) is the debounce time ago, the scan
cooks what it reads. -/
def Scanning.CooksAtOnce (s : Scanning R C) (x : Nat × Matrix R C) : Prop :=
  let s' := s.step x
  let T := s.debouncer.debounce_time.toNat
  let cooked' := s'.debouncer.matrix
  match s.debouncer.debounce_func with
  | .DEBOUNCE_SYM_EAGER_PER_ROW =>
    ∀ r, (∀ t ∈ s.row_cooked r, t + T ≤ s'.clock) → cooked' r = x.2 r
  | .DEBOUNCE_SYM_EAGER_PER_KEY =>
    ∀ r c, (∀ t ∈ s.key_cooked r c, t + T ≤ s'.clock) → cooked' r c = x.2 r c
  | _ => True

theorem locks_start (timely : Prop) (R C : Nat) (type time : UInt8) :
    (Scanning.start R C type time).Locks timely := by
  obtain ⟨-, -, -, her, hek, -, hsame⟩ := idle_start R C type time
  unfold Scanning.Locks Scanning.start
  simp only
  split
  · exact ⟨clocked_of_idle her 0, fun r => ⟨fun _ => ⟨by rw [hsame], fun t ht => by cases ht⟩,
      fun hne => absurd (her r) hne⟩⟩
  · exact ⟨clocked_of_idle hek 0, fun k => ⟨fun _ => ⟨by rw [hsame], fun t ht => by cases ht⟩,
      fun hne => absurd (hek k) hne⟩⟩
  · trivial

theorem locks_step {timely : Prop} {s : Scanning R C} (h : s.Locks timely)
    (ht : Timed s.debouncer) {x : Nat × Matrix R C} (hx : timely → x.1 < 2 ^ 32) :
    (s.step x).Locks timely ∧ s.LocksOut x ∧ (timely → s.CooksAtOnce x) := by
  have hD (hf : s.debouncer.debounce_func ≠ .DEBOUNCE_NONE) : s.debouncer.debounce_time ≠ 0 :=
    fun hz => hf (ht.zero hz)
  unfold Scanning.Locks at h
  unfold Scanning.Locks Scanning.LocksOut Scanning.CooksAtOnce
  rcases hf : s.debouncer.debounce_func with _ | _ | _ | _ | _ | _ | _
  all_goals
    simp only [hf] at h
    simp only [Scanning.step, Debouncer.matrix_scan, Debouncer.debounce, hf]
  · exact ⟨trivial, trivial, fun _ => trivial⟩
  · exact ⟨trivial, trivial, fun _ => trivial⟩
  · exact ⟨trivial, trivial, fun _ => trivial⟩
  · obtain ⟨hclocked, hrows⟩ := h
    have hchanged (r : Fin R) (hne : x.2 r ≠ s.debouncer.raw_matrix r) :
        decide (s.debouncer.raw_matrix ≠ x.2) = true :=
      decide_eq_true fun heq => hne (congrFun heq r).symm
    have hscan := counters_scan (eagerRules (Row C)) s.debouncer.debounce_time hclocked x.1
      (P := fun r c cooked =>
        Locked timely s.debouncer.debounce_time (s.clock + x.1)
            (if cooked ≠ s.debouncer.matrix r then some (s.clock + x.1) else s.row_cooked r) c
            (x.2 r) cooked ∧
          (cooked ≠ s.debouncer.matrix r → ∀ t ∈ s.row_cooked r,
            t + s.debouncer.debounce_time.toNat ≤ s.clock + x.1) ∧
          (timely → (∀ t ∈ s.row_cooked r,
            t + s.debouncer.debounce_time.toNat ≤ s.clock + x.1) → cooked = x.2 r))
      hchanged fun r _ _ he hne hflag =>
        locked_scan (hD (by rw [hf]; decide)) (hrows r) he hx hne hflag
    exact ⟨⟨debounce_clocked (eagerBounded (Row C)) hclocked _ _ _ _ _, fun r => (hscan r).1⟩,
      fun r => (hscan r).2.1, fun htimely r => (hscan r).2.2 htimely⟩
  · obtain ⟨hclocked, hkeys⟩ := h
    have hscan := counters_scan (eagerRules Bool) s.debouncer.debounce_time hclocked x.1
      (P := fun k c cooked =>
        Locked timely s.debouncer.debounce_time (s.clock + x.1)
            (if cooked ≠ flat s.debouncer.matrix k then some (s.clock + x.1)
              else s.key_cooked k.1 k.2) c (flat x.2 k) cooked ∧
          (cooked ≠ flat s.debouncer.matrix k → ∀ t ∈ s.key_cooked k.1 k.2,
            t + s.debouncer.debounce_time.toNat ≤ s.clock + x.1) ∧
          (timely → (∀ t ∈ s.key_cooked k.1 k.2,
            t + s.debouncer.debounce_time.toNat ≤ s.clock + x.1) → cooked = flat x.2 k))
      (fun k hne => decide_eq_true (flat_ne hne.symm))
      fun k _ _ he hne hflag =>
        locked_scan (hD (by rw [hf]; decide)) (hkeys k) he hx hne hflag
    exact ⟨⟨debounce_clocked (eagerBounded Bool) hclocked _ _ _ _ _, fun k => (hscan k).1⟩,
      fun r c => (hscan (r, c)).2.1, fun htimely r c => (hscan (r, c)).2.2 htimely⟩
  · exact ⟨trivial, trivial, fun _ => trivial⟩
  · exact ⟨trivial, trivial, fun _ => trivial⟩

theorem locks_run (timely : Prop) (R C : Nat) (type time : UInt8) (xs : List (Nat × Matrix R C))
    (h : timely → ∀ x ∈ xs, x.1 < 2 ^ 32) :
    (xs.foldl Scanning.step (.start R C type time)).Locks timely ∧
      Timed (xs.foldl Scanning.step (.start R C type time)).debouncer := by
  refine List.foldlRecOn (motive := fun s : Scanning R C => s.Locks timely ∧ Timed s.debouncer) xs
    _ ⟨locks_start timely R C type time, timed_start R C type time⟩ ?_
  rintro s ⟨hs, ht⟩ x hx
  exact ⟨(locks_step hs ht fun htimely => h htimely x hx).1,
    (debounce_same _ _ _).timed (ht.of_raw x.2)⟩

/-- In every run two changes of a key (a row) are the debounce time apart. When
no two scans are 2^32 ms apart, what a scan reads is cooked at once, unless the
key (the row) was cooked within the debounce time. -/
theorem eager_changes_lock_their_cell (R C : Nat) (type time : UInt8)
    (xs : List (Nat × Matrix R C)) (x : Nat × Matrix R C) :
    let s := xs.foldl Scanning.step (.start R C type time)
    s.LocksOut x ∧ ((∀ y ∈ xs ++ [x], y.1 < 2 ^ 32) → s.CooksAtOnce x) := by
  intro s
  constructor
  · obtain ⟨hs, ht⟩ := locks_run False R C type time xs fun h => h.elim
    exact (locks_step hs ht fun h => h.elim).2.1
  · intro hgaps
    obtain ⟨hs, ht⟩ := locks_run True R C type time xs fun _ y hy =>
      hgaps y (List.mem_append_left _ hy)
    exact (locks_step hs ht fun _ => hgaps x (List.mem_append_right _ (List.mem_singleton_self x))).2.2
      trivial

/-- The timer wraps around: a release that is read 2^32 ms after its press
comes too late for the lock of the press, and is not cooked. -/
theorem a_late_release_meets_the_lock : ¬ ∀ (R C : Nat) (type time : UInt8)
    (xs : List (Nat × Matrix R C)) (x : Nat × Matrix R C),
    (xs.foldl Scanning.step (.start R C type time)).LocksOut x ∧
      (xs.foldl Scanning.step (.start R C type time)).CooksAtOnce x := by
  intro h
  have hcooked : ([(0, fun _ _ => true)].foldl Scanning.step (.start 1 1 4 5)).CooksAtOnce
    (2 ^ 32, fun _ _ => false) := (h 1 1 4 5 _ _).2
  have hrelease := hcooked 0 0 (by decide)
  exact absurd hrelease (by decide)

end keychron_qmk.keychron_debounce
