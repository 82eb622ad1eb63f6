-- Closed curves of points of the grid that are mirrored at two axes: what makes a set of
-- points one, what it encloses, and that a staircase from one axis to the other gives one.
import Mathlib.Data.List.Nodup
import Mathlib.Logic.Relation

namespace keychron_qmk.digital_curve

abbrev Point := Int × Int

/-! ## Paths -/

section

variable {α β : Type*} {R : α → α → Prop} {p q r : α} {l m : List α}

/-- The points of the list lead from one point to another, each related to the next. -/
def Path (R : α → α → Prop) : α → List α → α → Prop
  | p, [], q => p = q
  | p, r :: l, q => R p r ∧ Path R r l q

theorem Path.append (h : Path R p l q) (h' : Path R q m r) : Path R p (l ++ m) r := by
  induction l generalizing p with
  | nil => exact h ▸ h'
  | cons s l ih => exact ⟨h.1, ih h.2⟩

theorem Path.map {S : β → β → Prop} {f : α → β} (hf : ∀ x y, R x y → S (f x) (f y))
    (h : Path R p l q) : Path S (f p) (l.map f) (f q) := by
  induction l generalizing p with
  | nil => exact congrArg f h
  | cons s l ih => exact ⟨hf _ _ h.1, ih h.2⟩

theorem Path.last_mem (h : Path R p l q) : q ∈ p :: l := by
  induction l generalizing p with
  | nil => exact List.mem_singleton.mpr h.symm
  | cons s l ih => exact List.mem_cons_of_mem p (ih h.2)

theorem Path.mem_append (h : Path R p l q) :
    r ∈ p :: (l ++ m) ↔ r ∈ p :: l ∨ r ∈ q :: m := by
  have hlast := h.last_mem
  rw [List.mem_cons, List.mem_append, List.mem_cons, List.mem_cons, ← or_assoc]
  refine or_congr_right' fun hnot => (or_iff_right ?_).symm
  rintro rfl
  exact hnot (List.mem_cons.mp hlast)

theorem Path.reverse (hR : ∀ x y, R x y → R y x) (h : Path R p l q) :
    ∃ l', q :: l' = (p :: l).reverse ∧ Path R q l' p := by
  induction l generalizing p with
  | nil => exact ⟨[], congrArg (fun x => [x]) h.symm, h.symm⟩
  | cons s l ih =>
    obtain ⟨l', hpoints, hpath⟩ := ih h.2
    refine ⟨l' ++ [p], ?_, hpath.append ⟨hR _ _ h.1, rfl⟩⟩
    rw [← List.cons_append, hpoints, List.reverse_cons (a := p)]

/-- On the way from a point of one set to a point of another, through points of the two sets
alone, there are two points next to each other, one of each. -/
theorem Path.crosses {A B : α → Prop} (h : Path R p l q) (hboth : ∀ x ∈ p :: l, A x ∨ B x)
    (hA : A p) (hB : ∃ y ∈ p :: l, B y) : ∃ x y, A x ∧ B y ∧ (x = y ∨ R x y) := by
  induction l generalizing p with
  | nil =>
    obtain ⟨y, hy, hBy⟩ := hB
    obtain rfl := List.mem_singleton.mp hy
    exact ⟨y, y, hA, hBy, .inl rfl⟩
  | cons s l ih =>
    by_cases hp : B p
    · exact ⟨p, p, hA, hp, .inl rfl⟩
    by_cases hs : A s
    · refine ih h.2 (fun x hx => hboth x (List.mem_cons_of_mem p hx)) hs ?_
      obtain ⟨y, hy, hBy⟩ := hB
      rcases List.mem_cons.mp hy with rfl | hy
      · exact absurd hBy hp
      · exact ⟨y, hy, hBy⟩
    · have hmem : s ∈ p :: s :: l := List.mem_cons_of_mem p List.mem_cons_self
      exact ⟨p, s, hA, (hboth s hmem).resolve_left hs, .inr h.1⟩

end

/-! ## Closed curves -/

/-- The same point, or one that touches it at a side or a corner. -/
def Near (p q : Point) : Prop := (q.1 - p.1).natAbs ≤ 1 ∧ (q.2 - p.2).natAbs ≤ 1

/-- A walk through exactly these points that ends where it begins. -/
def Walk (O : Point → Prop) (p : Point) (l : List Point) : Prop :=
  Path Near p l p ∧ ∀ q, q ∈ p :: l ↔ O q

/-- A closed curve around a centre, with the half-axes `a` and `b`: it comes to no point
twice, unless it is flat. -/
structure ClosedCurve (a b : Nat) (O : Point → Prop) : Prop where
  walk : ∃ p l, Walk O p l ∧ (0 < a → 0 < b → l.Nodup)
  symmetric : ∀ x y, O (x, y) → O (-x, y) ∧ O (x, -y)
  extremes : O (a, 0) ∧ O (-a, 0) ∧ O (0, b) ∧ O (0, -b)

/-- From a point to one at its side, away from a set. -/
def Avoids (O : Point → Prop) (p q : Point) : Prop :=
  (q.1 - p.1).natAbs + (q.2 - p.2).natAbs = 1 ∧ ¬ O q

/-- There is no way to points that are far away. -/
def Encloses (O : Point → Prop) (p : Point) : Prop :=
  ¬ O p ∧ ∃ n : Nat, ∀ q, Relation.ReflTransGen (Avoids O) p q → q.1.natAbs ≤ n ∧ q.2.natAbs ≤ n

/-! ## Staircases -/

def Step (p q : Nat × Nat) : Prop :=
  (q.1 = p.1 ∨ q.1 + 1 = p.1) ∧ (q.2 = p.2 ∨ q.2 = p.2 + 1) ∧ p ≠ q

def Quarter (a b : Nat) (K : Nat × Nat → Prop) : Prop :=
  ∃ l, Path Step (a, 0) l (0, b) ∧ ∀ q, q ∈ (a, 0) :: l ↔ K q

/-- The points of a quarter, in all four of them. -/
def outline (K : Nat × Nat → Prop) (p : Point) : Prop := K (p.1.natAbs, p.2.natAbs)

/-- The points between those of a quarter in their rows, in all four of them. -/
def filling (K : Nat × Nat → Prop) (p : Point) : Prop :=
  ∃ x, K (x, p.2.natAbs) ∧ p.1.natAbs ≤ x

variable {a b : Nat} {p q r : Nat × Nat} {l : List (Nat × Nat)} {K : Nat × Nat → Prop}

theorem Step.lt (h : Step p q) : p.2 + q.1 < q.2 + p.1 := by
  obtain ⟨h₁, h₂, hne⟩ := h
  by_contra hnot
  exact hne (Prod.ext (by omega) (by omega))

theorem Path.lt (h : Path Step p l q) : ∀ r ∈ l, p.2 + r.1 < r.2 + p.1 := by
  induction l generalizing p with
  | nil => exact fun r hr => absurd hr List.not_mem_nil
  | cons s l ih =>
    have hfirst := h.1.lt
    intro r hr
    rcases List.mem_cons.mp hr with rfl | hr
    · exact hfirst
    · have hrest := ih h.2 r hr
      omega

theorem Path.nodup (h : Path Step p l q) : (p :: l).Nodup := by
  induction l generalizing p with
  | nil => exact List.nodup_singleton p
  | cons s l ih => exact List.nodup_cons.mpr ⟨fun hp => Nat.lt_irrefl _ (h.lt p hp), ih h.2⟩

theorem Path.mono (h : Path Step p l q) : ∀ r ∈ p :: l, r.1 ≤ p.1 ∧ p.2 ≤ r.2 := by
  induction l generalizing p with
  | nil =>
    intro r hr
    obtain rfl := List.mem_singleton.mp hr
    exact ⟨Nat.le_refl _, Nat.le_refl _⟩
  | cons s l ih =>
    intro r hr
    rcases List.mem_cons.mp hr with rfl | hr
    · exact ⟨Nat.le_refl _, Nat.le_refl _⟩
    · have hrest := ih h.2 r hr
      obtain ⟨h₁, h₂, -⟩ := h.1
      omega

theorem Path.le_last (h : Path Step p l q) : ∀ r ∈ p :: l, q.1 ≤ r.1 ∧ r.2 ≤ q.2 := by
  induction l generalizing p with
  | nil =>
    intro r hr
    obtain rfl := List.mem_singleton.mp hr
    obtain rfl : r = q := h
    exact ⟨Nat.le_refl _, Nat.le_refl _⟩
  | cons s l ih =>
    intro r hr
    rcases List.mem_cons.mp hr with rfl | hr
    · exact h.mono q h.last_mem
    · exact ih h.2 r hr

theorem Path.row_before (h : Path Step p l q) (hr : r ∈ p :: l) (hrow : p.2 < r.2) :
    ∃ x, (x, r.2 - 1) ∈ p :: l ∧ r.1 ≤ x := by
  induction l generalizing p with
  | nil =>
    obtain rfl := List.mem_singleton.mp hr
    exact absurd hrow (Nat.lt_irrefl _)
  | cons s l ih =>
    rcases List.mem_cons.mp hr with rfl | hr
    · exact absurd hrow (Nat.lt_irrefl _)
    by_cases hlater : s.2 < r.2
    · obtain ⟨x, hx, hle⟩ := ih h.2 hr hlater
      exact ⟨x, List.mem_cons_of_mem p hx, hle⟩
    · obtain ⟨h₁, h₂, -⟩ := h.1
      have hmono := h.2.mono r hr
      have hsame : r.2 - 1 = p.2 := by omega
      exact ⟨p.1, hsame ▸ List.mem_cons_self, by omega⟩

/-- A row goes on until the next one begins: there is a point of the next row at least as
far out as one that the row does not have. -/
theorem Path.row_behind (h : Path Step p l (0, b)) (hr : r ∈ p :: l) {x : Nat} (hx : x < r.1)
    (hnot : (x, r.2) ∉ p :: l) : ∃ x', (x', r.2 + 1) ∈ p :: l ∧ x ≤ x' := by
  induction l generalizing p r with
  | nil =>
    obtain rfl := List.mem_singleton.mp hr
    rw [show r = (0, b) from h] at hx
    exact absurd hx (Nat.not_lt_zero x)
  | cons s l ih =>
    have hrest : ∀ {r}, r ∈ s :: l → x < r.1 → (x, r.2) ∉ p :: s :: l →
        ∃ x', (x', r.2 + 1) ∈ p :: s :: l ∧ x ≤ x' := by
      intro r hr hx hnot
      obtain ⟨x', hx', hle⟩ := ih h.2 hr hx fun hmem => hnot (List.mem_cons_of_mem p hmem)
      exact ⟨x', List.mem_cons_of_mem p hx', hle⟩
    rcases List.mem_cons.mp hr with rfl | hr
    · obtain ⟨h₁, h₂, -⟩ := h.1
      have hs : s ∈ r :: s :: l := List.mem_cons_of_mem r List.mem_cons_self
      rcases h₂ with hsame | hnext
      · -- The next point is in the row too, and is further out.
        rw [← hsame] at hnot ⊢
        refine hrest List.mem_cons_self ?_ hnot
        by_contra hout
        have hx' : s = (x, s.2) := Prod.ext (by dsimp only; omega) rfl
        exact hnot (hx' ▸ hs)
      · rw [← hnext]
        exact ⟨s.1, hs, by omega⟩
    · exact hrest hr hx hnot

/-! ## The curve of a staircase -/

/-- A point of a quarter in one of the quarters. -/
def mirror (s t : Int) (q : Nat × Nat) : Point := (s * q.1, t * q.2)

theorem Near.symm {p q : Point} (h : Near p q) : Near q p := by
  unfold Near at h ⊢
  omega

section Mirror

variable {s t : Int} (hs : s = 1 ∨ s = -1) (ht : t = 1 ∨ t = -1)

include hs ht

theorem Step.near (h : Step p q) : Near (mirror s t p) (mirror s t q) := by
  obtain ⟨h₁, h₂, -⟩ := h
  unfold Near mirror
  rcases hs with rfl | rfl <;> rcases ht with rfl | rfl <;> dsimp only <;> omega

theorem outline_mirror : outline K (mirror s t q) ↔ K q := by
  have habs : ∀ {s : Int}, s = 1 ∨ s = -1 → ∀ n : Nat, (s * n).natAbs = n := by
    intro s hs n
    rcases hs with rfl | rfl <;> omega
  unfold outline mirror
  rw [habs hs, habs ht]

end Mirror

namespace Quarter

theorem congr {K' : Nat × Nat → Prop} (h : Quarter a b K) (hK : ∀ q, K q ↔ K' q) :
    Quarter a b K' := by
  obtain ⟨l, hpath, hmem⟩ := h
  exact ⟨l, hpath, fun q => (hmem q).trans (hK q)⟩

theorem first (h : Quarter a b K) : K (a, 0) := by
  obtain ⟨l, -, hK⟩ := h
  exact (hK _).mp List.mem_cons_self

theorem last (h : Quarter a b K) : K (0, b) := by
  obtain ⟨l, hpath, hK⟩ := h
  exact (hK _).mp hpath.last_mem

theorem mirror_injective {s t : Int} (hs : s = 1 ∨ s = -1) (ht : t = 1 ∨ t = -1) :
    Function.Injective (mirror s t) := by
  rintro ⟨x, y⟩ ⟨x', y'⟩ h
  unfold mirror at h
  rw [Prod.mk.injEq] at h ⊢
  rcases hs with rfl | rfl <;> rcases ht with rfl | rfl <;> omega

/-- A path through the points of one of the quarters. -/
structure Arc (K : Nat × Nat → Prop) (s t : Int) (p : Point) (l : List Point) (q : Point) :
    Prop where
  path : Path Near p l q
  mem : ∀ x, x ∈ p :: l ↔ ∃ r, K r ∧ mirror s t r = x
  nodup : (p :: l).Nodup

theorem Arc.mem_tail {s t : Int} {l : List Point} {x y : Point} (h : Arc K s t (mirror s t p) l y)
    (hx : x ∈ l) : ∃ r, K r ∧ r ≠ p ∧ mirror s t r = x := by
  obtain ⟨r, hr, rfl⟩ := (h.mem x).mp (List.mem_cons_of_mem _ hx)
  refine ⟨r, hr, ?_, rfl⟩
  rintro rfl
  exact (List.nodup_cons.mp h.nodup).1 hx

section Arcs

variable {s t : Int} (hs : s = 1 ∨ s = -1) (ht : t = 1 ∨ t = -1)

include hs ht

theorem arc_to_column (h : Quarter a b K) :
    ∃ l, Arc K s t (mirror s t (a, 0)) l (mirror s t (0, b)) := by
  obtain ⟨l, hpath, hK⟩ := h
  refine ⟨l.map (mirror s t), hpath.map fun p q => Step.near hs ht, fun x => ?_, ?_⟩
  · rw [← List.map_cons, List.mem_map]
    exact exists_congr fun r => and_congr_left' (hK r)
  · rw [← List.map_cons]
    exact hpath.nodup.map (mirror_injective hs ht)

theorem arc_to_row (h : Quarter a b K) :
    ∃ l, Arc K s t (mirror s t (0, b)) l (mirror s t (a, 0)) := by
  obtain ⟨l, harc⟩ := h.arc_to_column hs ht
  obtain ⟨l', hl', hpath⟩ := harc.path.reverse fun p q => Near.symm
  refine ⟨l', hpath, fun x => ?_, ?_⟩
  · rw [hl', List.mem_reverse]
    exact harc.mem x
  · rw [hl', List.nodup_reverse]
    exact harc.nodup

end Arcs

/-- The walk from the right to the top, the left, the bottom and back to the right. -/
theorem walk (h : Quarter a b K) : ∃ p l, Walk (outline K) p l ∧
    ((∀ x, K (x, 0) → x = a) → (∀ y, K (0, y) → y = b) → l.Nodup) := by
  have hpos : (1 : Int) = 1 ∨ (1 : Int) = -1 := .inl rfl
  have hneg : (-1 : Int) = 1 ∨ (-1 : Int) = -1 := .inr rfl
  obtain ⟨l₁, h₁⟩ := h.arc_to_column hpos hpos
  obtain ⟨l₂, h₂⟩ := h.arc_to_row hneg hpos
  obtain ⟨l₃, h₃⟩ := h.arc_to_column hneg hneg
  obtain ⟨l₄, h₄⟩ := h.arc_to_row hpos hneg
  have htail₁ := fun x => h₁.mem_tail (x := x)
  have htail₂ := fun x => h₂.mem_tail (x := x)
  have htail₃ := fun x => h₃.mem_tail (x := x)
  have htail₄ := fun x => h₄.mem_tail (x := x)
  have hright : mirror 1 (-1) (a, 0) = mirror 1 1 (a, 0) := by simp [mirror]
  have htop : mirror (-1) 1 (0, b) = mirror 1 1 (0, b) := by simp [mirror]
  have hleft : mirror (-1) (-1) (a, 0) = mirror (-1) 1 (a, 0) := by simp [mirror]
  have hbottom : mirror 1 (-1) (0, b) = mirror (-1) (-1) (0, b) := by simp [mirror]
  rw [htop] at h₂
  rw [hleft] at h₃
  rw [hbottom, hright] at h₄
  refine ⟨_, _, ⟨h₁.path.append (h₂.path.append (h₃.path.append h₄.path)), fun q => ?_⟩,
    fun hrow hcolumn => ?_⟩
  · rw [h₁.path.mem_append, h₂.path.mem_append, h₃.path.mem_append, h₁.mem, h₂.mem, h₃.mem, h₄.mem]
    constructor
    · rintro (⟨r, hr, rfl⟩ | ⟨r, hr, rfl⟩ | ⟨r, hr, rfl⟩ | ⟨r, hr, rfl⟩)
      · exact (outline_mirror hpos hpos).mpr hr
      · exact (outline_mirror hneg hpos).mpr hr
      · exact (outline_mirror hneg hneg).mpr hr
      · exact (outline_mirror hpos hneg).mpr hr
    · intro hq
      have hsign : ∀ x : Int, 1 * (x.natAbs : Int) = x ∨ -1 * (x.natAbs : Int) = x := by
        intro x
        omega
      rcases hsign q.1 with hx | hx <;> rcases hsign q.2 with hy | hy
      · exact .inl ⟨_, hq, Prod.ext hx hy⟩
      · exact .inr (.inr (.inr ⟨_, hq, Prod.ext hx hy⟩))
      · exact .inr (.inl ⟨_, hq, Prod.ext hx hy⟩)
      · exact .inr (.inr (.inl ⟨_, hq, Prod.ext hx hy⟩))
  · have hup : ∀ r, K r → r ≠ (a, 0) → 0 < r.2 := by
      intro r hr hne
      by_contra hnot
      have hzero : r.2 = 0 := by omega
      exact hne (Prod.ext (hrow r.1 (hzero ▸ hr)) hzero)
    have hout : ∀ r, K r → r ≠ (0, b) → 0 < r.1 := by
      intro r hr hne
      by_contra hnot
      have hzero : r.1 = 0 := by omega
      exact hne (Prod.ext hzero (hcolumn r.2 (hzero ▸ hr)))
    -- Behind its first point each arc has a side of its own.
    have hside₁ : ∀ x ∈ l₁, 0 ≤ x.1 ∧ 0 < x.2 := by
      intro x hx
      obtain ⟨r, hr, hne, rfl⟩ := htail₁ x hx
      have hpositive := hup r hr hne
      unfold mirror
      omega
    have hside₂ : ∀ x ∈ l₂, x.1 < 0 ∧ 0 ≤ x.2 := by
      intro x hx
      obtain ⟨r, hr, hne, rfl⟩ := htail₂ x hx
      have hpositive := hout r hr hne
      unfold mirror
      omega
    have hside₃ : ∀ x ∈ l₃, x.1 ≤ 0 ∧ x.2 < 0 := by
      intro x hx
      obtain ⟨r, hr, hne, rfl⟩ := htail₃ x hx
      have hpositive := hup r hr hne
      unfold mirror
      omega
    have hside₄ : ∀ x ∈ l₄, 0 < x.1 ∧ x.2 ≤ 0 := by
      intro x hx
      obtain ⟨r, hr, hne, rfl⟩ := htail₄ x hx
      have hpositive := hout r hr hne
      unfold mirror
      omega
    have hapart : ∀ {l m : List Point}, l.Nodup → m.Nodup → (∀ x ∈ l, ∀ y ∈ m, x ≠ y) →
        (l ++ m).Nodup := fun hl hm hlm => List.nodup_append.mpr ⟨hl, hm, hlm⟩
    refine hapart h₁.nodup.of_cons (hapart h₂.nodup.of_cons (hapart h₃.nodup.of_cons
      h₄.nodup.of_cons ?_) ?_) ?_
    · rintro x hx y hy rfl
      have hx := hside₃ x hx
      have hy := hside₄ x hy
      omega
    · rintro x hx y hy rfl
      have hx := hside₂ x hx
      rcases List.mem_append.mp hy with hy | hy
      · have hy := hside₃ x hy
        omega
      · have hy := hside₄ x hy
        omega
    · rintro x hx y hy rfl
      have hx := hside₁ x hx
      rcases List.mem_append.mp hy with hy | hy
      · have hy := hside₂ x hy
        omega
      rcases List.mem_append.mp hy with hy | hy
      · have hy := hside₃ x hy
        omega
      · have hy := hside₄ x hy
        omega

theorem closed (h : Quarter a b K)
    (honce : 0 < a → 0 < b → (∀ x, K (x, 0) → x = a) ∧ ∀ y, K (0, y) → y = b) :
    ClosedCurve a b (outline K) where
  walk := by
    obtain ⟨p, l, hwalk, hnodup⟩ := h.walk
    exact ⟨p, l, hwalk, fun ha hb => hnodup (honce ha hb).1 (honce ha hb).2⟩
  symmetric := by
    intro x y hxy
    unfold outline at hxy ⊢
    rw [Int.natAbs_neg, Int.natAbs_neg]
    exact ⟨hxy, hxy⟩
  extremes := by
    unfold outline
    rw [Int.natAbs_neg, Int.natAbs_neg, Int.natAbs_natCast, Int.natAbs_natCast]
    exact ⟨h.first, h.first, h.last, h.last⟩

/-! ## What the curve encloses -/

theorem le_of_mem (h : Quarter a b K) (hr : K r) : r.1 ≤ a ∧ r.2 ≤ b := by
  obtain ⟨l, hpath, hK⟩ := h
  rw [← hK] at hr
  exact ⟨(hpath.mono r hr).1, (hpath.le_last r hr).2⟩

theorem filling_of_outline {p : Point} (h : outline K p) : filling K p :=
  ⟨_, h, Nat.le_refl _⟩

theorem filling_step (h : Quarter a b K) {p q : Point} (hp : filling K p) (hnot : ¬ outline K p)
    (hstep : Avoids (outline K) p q) : filling K q := by
  obtain ⟨l, hpath, hK⟩ := h
  obtain ⟨x, hx, hle⟩ := hp
  have hlt : p.1.natAbs < x := by
    refine Nat.lt_of_le_of_ne hle ?_
    rintro rfl
    exact hnot hx
  have hone := hstep.1
  by_cases hrow : q.2 = p.2
  · refine ⟨x, hrow ▸ hx, ?_⟩
    omega
  have hcolumn : q.1.natAbs = p.1.natAbs := by omega
  rw [← hK] at hx
  rcases (by omega : q.2.natAbs = p.2.natAbs + 1 ∨ q.2.natAbs = p.2.natAbs - 1 ∧ 0 < p.2.natAbs)
    with hnext | ⟨hbefore, hpos⟩
  · obtain ⟨x', hx', hle'⟩ := hpath.row_behind hx hlt fun hmem => hnot ((hK _).mp hmem)
    exact ⟨x', hnext ▸ (hK _).mp hx', hcolumn ▸ hle'⟩
  · obtain ⟨x', hx', hle'⟩ := hpath.row_before hx hpos
    refine ⟨x', hbefore ▸ (hK _).mp hx', ?_⟩
    omega

theorem escapes {p : Point} (h : ¬ filling K p) (n : Nat) :
    ∃ q, Relation.ReflTransGen (Avoids (outline K)) p q ∧ n ≤ q.1.natAbs := by
  obtain ⟨s, hs, hout⟩ : ∃ s : Int, (s = 1 ∨ s = -1) ∧
      ∀ k : Nat, (p.1 + s * k).natAbs = p.1.natAbs + k := by
    by_cases hp : 0 ≤ p.1
    · exact ⟨1, .inl rfl, fun k => by omega⟩
    · exact ⟨-1, .inr rfl, fun k => by omega⟩
  have hfree : ∀ k : Nat, ¬ outline K (p.1 + s * k, p.2) := by
    intro k hk
    refine h ⟨_, hk, ?_⟩
    rw [hout]
    exact Nat.le_add_right _ _
  refine ⟨(p.1 + s * n, p.2), ?_, (hout n).symm ▸ Nat.le_add_left _ _⟩
  induction n with
  | zero =>
    rw [Int.natCast_zero, Int.mul_zero, Int.add_zero]
  | succ n ih =>
    refine ih.tail ⟨?_, hfree (n + 1)⟩
    rcases hs with rfl | rfl <;> omega

theorem fills (h : Quarter a b K) (p : Point) :
    filling K p ↔ outline K p ∨ Encloses (outline K) p := by
  constructor
  · intro hp
    by_cases hcurve : outline K p
    · exact .inl hcurve
    refine .inr ⟨hcurve, a + b, fun q hq => ?_⟩
    have hinside : filling K q ∧ ¬ outline K q := by
      induction hq with
      | refl => exact ⟨hp, hcurve⟩
      | tail _ hstep ih => exact ⟨h.filling_step ih.1 ih.2 hstep, hstep.2⟩
    obtain ⟨x, hx, hle⟩ := hinside.1
    have hbound := h.le_of_mem hx
    omega
  · rintro (hcurve | ⟨-, n, hbound⟩)
    · exact filling_of_outline hcurve
    · by_contra hnot
      obtain ⟨q, hq, hfar⟩ := escapes hnot (n + 1)
      have hnear := (hbound q hq).1
      omega

end Quarter

/-- When the points of a closed curve are those of two sets, one of each are the same or
touch. -/
theorem ClosedCurve.touch {K' : Nat × Nat → Prop}
    (h : ClosedCurve a b (outline fun q => K q ∨ K' q)) (hK : ∃ q, K q) (hK' : ∃ q, K' q) :
    ∃ p q, K p ∧ K' q ∧ p.1 ≤ q.1 + 1 ∧ q.1 ≤ p.1 + 1 ∧ p.2 ≤ q.2 + 1 ∧ q.2 ≤ p.2 + 1 := by
  obtain ⟨p, l, ⟨hpath, hmem⟩, -⟩ := h.walk
  have hboth : ∀ x ∈ p :: l, outline K x ∨ outline K' x := fun x hx => (hmem x).mp hx
  have hon : ∀ {q : Nat × Nat}, K q ∨ K' q → ((q.1 : Int), (q.2 : Int)) ∈ p :: l :=
    fun hq => (hmem _).mpr hq
  have hswap : ∀ x ∈ p :: l, outline K' x ∨ outline K x := fun x hx => (hboth x hx).symm
  obtain ⟨q, hq⟩ := hK
  obtain ⟨q', hq'⟩ := hK'
  rcases hboth p List.mem_cons_self with hp | hp
  · obtain ⟨x, y, hx, hy, hnear⟩ := hpath.crosses hboth hp ⟨_, hon (.inr hq'), hq'⟩
    refine ⟨_, _, hx, hy, ?_⟩
    rcases hnear with rfl | hnear
    · omega
    · unfold Near at hnear
      omega
  · obtain ⟨x, y, hx, hy, hnear⟩ := hpath.crosses hswap hp ⟨_, hon (.inl hq), hq⟩
    refine ⟨_, _, hy, hx, ?_⟩
    rcases hnear with rfl | hnear
    · omega
    · unfold Near at hnear
      omega

/-! ## Two arcs -/

section Arcs

variable {f g : Nat → Nat} {m n : Nat}

/-- Each value is the one before it or one less. -/
def Falls (f : Nat → Nat) (n : Nat) : Prop := ∀ i < n, f (i + 1) = f i ∨ f (i + 1) + 1 = f i

/-- The points of the first columns, the first one on the vertical axis. -/
def columns (f : Nat → Nat) (n : Nat) (q : Nat × Nat) : Prop := ∃ i ≤ n, q = (i, f i)

/-- The points of the first rows, the first one on the horizontal axis. -/
def rows (g : Nat → Nat) (m : Nat) (q : Nat × Nat) : Prop := ∃ j ≤ m, q = (g j, j)

theorem columns_swap {q : Nat × Nat} : columns g m q.swap ↔ rows g m q :=
  exists_congr fun _ =>
    and_congr_right' ⟨fun h => congrArg Prod.swap h, fun h => congrArg Prod.swap h⟩

theorem Falls.le (h : Falls f n) {i : Nat} (hi : i ≤ n) : f n ≤ f i := by
  induction n with
  | zero => exact Nat.le_of_eq (congrArg f (Nat.le_zero.mp hi).symm)
  | succ n ih =>
    rcases Nat.le_succ_iff.mp hi with hi | rfl
    · have hbefore := ih (fun j hj => h j (Nat.lt_succ_of_lt hj)) hi
      have hfall := h n (Nat.lt_succ_self n)
      omega
    · exact Nat.le_refl _

theorem columns_path (h : Falls f n) : ∃ l, Path Step (n, f n) l (0, f 0) ∧
    ∀ q, q ∈ (n, f n) :: l ↔ columns f n q := by
  induction n with
  | zero =>
    refine ⟨[], rfl, fun q => ?_⟩
    rw [List.mem_singleton]
    constructor
    · exact fun hq => ⟨0, Nat.le_refl 0, hq⟩
    · rintro ⟨i, hi, rfl⟩
      rw [Nat.le_zero.mp hi]
  | succ n ih =>
    obtain ⟨l, hpath, hmem⟩ := ih fun i hi => h i (Nat.lt_succ_of_lt hi)
    have hfall := h n (Nat.lt_succ_self n)
    refine ⟨(n, f n) :: l, ⟨⟨.inr rfl, ?_, ?_⟩, hpath⟩, fun q => ?_⟩
    · dsimp only
      omega
    · exact fun heq => Nat.succ_ne_self n (congrArg Prod.fst heq)
    · rw [List.mem_cons, hmem]
      constructor
      · rintro (rfl | ⟨i, hi, rfl⟩)
        · exact ⟨n + 1, Nat.le_refl _, rfl⟩
        · exact ⟨i, Nat.le_succ_of_le hi, rfl⟩
      · rintro ⟨i, hi, rfl⟩
        rcases Nat.le_succ_iff.mp hi with hi | rfl
        · exact .inr ⟨i, hi, rfl⟩
        · exact .inl rfl

theorem rows_path (h : Falls g m) : ∃ l, Path Step (g 0, 0) l (g m, m) ∧
    ∀ q, q ∈ (g 0, 0) :: l ↔ rows g m q := by
  induction m with
  | zero =>
    refine ⟨[], rfl, fun q => ?_⟩
    rw [List.mem_singleton]
    constructor
    · exact fun hq => ⟨0, Nat.le_refl 0, hq⟩
    · rintro ⟨j, hj, rfl⟩
      rw [Nat.le_zero.mp hj]
  | succ m ih =>
    obtain ⟨l, hpath, hmem⟩ := ih fun j hj => h j (Nat.lt_succ_of_lt hj)
    have hfall := h m (Nat.lt_succ_self m)
    refine ⟨l ++ [(g (m + 1), m + 1)], hpath.append ⟨⟨?_, .inr rfl, ?_⟩, rfl⟩, fun q => ?_⟩
    · exact hfall
    · exact fun heq => Nat.succ_ne_self m (congrArg Prod.snd heq).symm
    · rw [← List.cons_append, List.mem_append, hmem, List.mem_singleton]
      constructor
      · rintro (⟨j, hj, rfl⟩ | rfl)
        · exact ⟨j, Nat.le_succ_of_le hj, rfl⟩
        · exact ⟨m + 1, Nat.le_refl _, rfl⟩
      · rintro ⟨j, hj, rfl⟩
        rcases Nat.le_succ_iff.mp hj with hj | rfl
        · exact .inl ⟨j, hj, rfl⟩
        · exact .inr rfl

theorem quarter_of_arcs (hf : Falls f n) (hg : Falls g m)
    (hmeet : (g m, m) = (n, f n) ∨ Step (g m, m) (n, f n)) :
    Quarter (g 0) (f 0) fun q => columns f n q ∨ rows g m q := by
  obtain ⟨l, hcolumns, hl⟩ := columns_path hf
  obtain ⟨l', hrows, hl'⟩ := rows_path hg
  rcases hmeet with hsame | hnext
  · rw [← hsame] at hcolumns hl
    refine ⟨l' ++ l, hrows.append hcolumns, fun q => ?_⟩
    rw [hrows.mem_append, hl, hl', or_comm]
  · refine ⟨l' ++ (n, f n) :: l, hrows.append ⟨hnext, hcolumns⟩, fun q => ?_⟩
    rw [← List.cons_append, List.mem_append, hl, hl', or_comm]

end Arcs

end keychron_qmk.digital_curve
