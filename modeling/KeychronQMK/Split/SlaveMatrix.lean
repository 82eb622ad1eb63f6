-- The slave's key matrix as the master sees it: what the master copies out is
-- a matrix that the slave published, never an older one than before, and
-- changes only under a checksum that fits.
import KeychronQMK.Split.Transactions
import Mathlib.Data.List.Forall2
import Mathlib.Data.List.Chain

namespace keychron_qmk.split

/-- The bytes of the rows of one half. -/
abbrev Rows := List UInt8

/-- What one call of `slave_matrix_handlers_master` copied out, with the
checksum byte it read. `seen` counts the matrices published until then. -/
structure Copy where
  rows : Rows
  checksum : Option UInt8
  seen : Nat

/-- Both halves: the field of the slave, that of the master, and the static
variables of the handlers. `published` is what the slave published, the
oldest first, and `copies` what the master copied out, the newest first. -/
structure MatrixLink where
  smatrix : Checked Rows
  shmem : Checked Rows
  last_update : UInt32
  last_matrix : Rows
  published : List Rows
  copies : List Copy

/-- The slave scans and publishes, or the master calls its handler, the
slave publishing some more between the two transactions. -/
inductive MatrixStep
  | publish (slave_matrix : Rows)
  | read (now later : UInt32) (checksum_arrives : Bool) (between : List Rows) (data_arrives : Bool)

namespace MatrixLink

def initial (size : Nat) : MatrixLink :=
  { smatrix := ⟨0, List.replicate size 0⟩
    shmem := ⟨0, List.replicate size 0⟩
    last_update := 0
    last_matrix := List.replicate size 0
    published := [List.replicate size 0]
    copies := [] }

def slave_matrix_handlers_slave (s : MatrixLink) (slave_matrix : Rows) : MatrixLink :=
  { s with
    smatrix := ⟨crc8 slave_matrix, slave_matrix⟩
    published := s.published ++ [slave_matrix] }

def slave_matrix_handlers_master (s : MatrixLink) (now later : UInt32) (checksum : Option UInt8)
    (data : Option Rows) : MatrixLink :=
  let r := read_if_checksum_mismatch id now later checksum data s.last_update s.shmem
  let last_matrix := if r.okay then r.destination.getD s.last_matrix else s.last_matrix
  { s with
    shmem := r.shmem
    last_update := r.last_update
    last_matrix := last_matrix
    copies := ⟨last_matrix, checksum, s.published.length⟩ :: s.copies }

def step (s : MatrixLink) : MatrixStep → MatrixLink
  | .publish slave_matrix => s.slave_matrix_handlers_slave slave_matrix
  | .read now later checksum_arrives between data_arrives =>
    let checksum := if checksum_arrives then some s.smatrix.checksum else none
    let s := between.foldl slave_matrix_handlers_slave s
    let data := if data_arrives then some s.smatrix.data else none
    s.slave_matrix_handlers_master now later checksum data

/-! ## The invariant -/

/-- The rows that copies show: those copied last before, or rows under the
checksum of their own call. -/
def Fits (newer older : Copy) : Prop :=
  newer.rows = older.rows ∨ newer.checksum = some (crc8 newer.rows)

def before_boot (size : Nat) : Copy := ⟨List.replicate size 0, none, 0⟩

/-- The master's copy of the field is publication `m`, the rows it hands out
are publication `l`, and the copies are the publications `idx`. -/
structure Tracks (size : Nat) (s : MatrixLink) (m l : Nat) (idx : List Nat) : Prop where
  newest : s.published[s.published.length - 1]? = some s.smatrix.data
  mirror : s.published[m]? = some s.shmem.data
  handed : s.published[l]? = some s.last_matrix
  behind : l ≤ m
  ordered : (l :: idx).Pairwise (· ≥ ·)
  copied : List.Forall₂ (fun i c => i < c.seen ∧ s.published[i]? = some c.rows) idx s.copies
  last : (s.copies ++ [before_boot size]).head?.map Copy.rows = some s.last_matrix
  fitting : List.IsChain Fits (s.copies ++ [before_boot size])

theorem tracks_initial (size : Nat) : (initial size).Tracks size 0 0 [] where
  newest := rfl
  mirror := rfl
  handed := rfl
  behind := Nat.le_refl 0
  ordered := List.pairwise_singleton ..
  copied := .nil
  last := rfl
  fitting := List.isChain_singleton ..

variable {size m l : Nat} {idx : List Nat} {s : MatrixLink}

theorem published_earlier {xs : List Rows} {i : Nat} {rows : Rows} (h : xs[i]? = some rows)
    (rows' : Rows) : (xs ++ [rows'])[i]? = some rows := by
  obtain ⟨hi, -⟩ := List.getElem?_eq_some_iff.mp h
  rw [List.getElem?_append_left hi, h]

theorem Tracks.publish (h : s.Tracks size m l idx) (rows : Rows) :
    (s.slave_matrix_handlers_slave rows).Tracks size m l idx where
  newest := by simp [slave_matrix_handlers_slave]
  mirror := published_earlier h.mirror rows
  handed := published_earlier h.handed rows
  behind := h.behind
  ordered := h.ordered
  copied := h.copied.imp fun _ _ ⟨hseen, hrows⟩ => ⟨hseen, published_earlier hrows rows⟩
  last := h.last
  fitting := h.fitting

theorem Tracks.publish_all (h : s.Tracks size m l idx) (xs : List Rows) :
    (xs.foldl slave_matrix_handlers_slave s).Tracks size m l idx := by
  induction xs generalizing s with
  | nil => exact h
  | cons rows xs ih => exact ih (h.publish rows)

theorem Tracks.mirror_after_read (h : s.Tracks size m l idx) (now later : UInt32)
    (checksum : Option UInt8) (data : Option Rows) (hdata : ∀ d ∈ data, d = s.smatrix.data) :
    ∃ m', m ≤ m' ∧ s.published[m']? = some
      (read_if_checksum_mismatch id now later checksum data s.last_update s.shmem).shmem.data := by
  obtain ⟨hm, -⟩ := List.getElem?_eq_some_iff.mp h.mirror
  rcases read_keeps_or_reads id now later s.last_update checksum data s.shmem with hkeep | hread
  · exact ⟨m, Nat.le_refl m, by rw [hkeep, h.mirror]⟩
  · refine ⟨s.published.length - 1, by omega, ?_⟩
    rw [h.newest, ← hdata _ hread]

theorem Tracks.read (h : s.Tracks size m l idx) (now later : UInt32) (checksum : Option UInt8)
    (data : Option Rows) (hdata : ∀ d ∈ data, d = s.smatrix.data) :
    ∃ m' l', (s.slave_matrix_handlers_master now later checksum data).Tracks size m' l'
      (l' :: idx) := by
  obtain ⟨m', hm, hmirror⟩ := h.mirror_after_read now later checksum data hdata
  obtain ⟨hl, -⟩ := List.getElem?_eq_some_iff.mp h.handed
  obtain ⟨hm', -⟩ := List.getElem?_eq_some_iff.mp hmirror
  have hbehind := h.behind
  cases hokay : (read_if_checksum_mismatch id now later checksum data s.last_update s.shmem).okay with
  | true =>
    -- the master's copy becomes the rows that are handed out
    obtain ⟨hdest, hcrc⟩ := read_okay hokay
    have hrows : (s.slave_matrix_handlers_master now later checksum data).last_matrix =
        (read_if_checksum_mismatch id now later checksum data s.last_update s.shmem).shmem.data := by
      simp [slave_matrix_handlers_master, hokay, hdest]
    have hhead : ∀ i ∈ l :: idx, m' ≥ i := by
      intro i hi
      rcases List.mem_cons.mp hi with rfl | hi
      · omega
      · exact le_trans (List.rel_of_pairwise_cons h.ordered hi) (by omega)
    refine ⟨m', m', ⟨h.newest, hmirror, ?_, Nat.le_refl m', ?_, ?_, rfl, ?_⟩⟩
    · rw [hrows]
      exact hmirror
    · refine List.pairwise_cons.mpr ⟨?_, List.pairwise_cons.mpr ⟨?_, (List.pairwise_cons.mp
        h.ordered).2⟩⟩
      · intro i hi
        rcases List.mem_cons.mp hi with rfl | hi
        · exact Nat.le_refl _
        · exact hhead i (List.mem_cons_of_mem l hi)
      · exact fun i hi => hhead i (List.mem_cons_of_mem l hi)
    · refine .cons ⟨hm', ?_⟩ h.copied
      have hcopy := hmirror
      rw [← hrows] at hcopy
      exact hcopy
    · have hfit : checksum = some (crc8
          (s.slave_matrix_handlers_master now later checksum data).last_matrix) := by
        rw [hrows]
        exact hcrc
      exact h.fitting.cons fun _ _ => .inr hfit
  | false =>
    have hrows : (s.slave_matrix_handlers_master now later checksum data).last_matrix =
        s.last_matrix := by
      simp [slave_matrix_handlers_master, hokay]
    refine ⟨m', l, ⟨h.newest, hmirror, ?_, by omega, ?_, ?_, rfl, ?_⟩⟩
    · rw [hrows]
      exact h.handed
    · refine List.pairwise_cons.mpr ⟨?_, h.ordered⟩
      intro i hi
      rcases List.mem_cons.mp hi with rfl | hi
      · exact Nat.le_refl _
      · exact List.rel_of_pairwise_cons h.ordered hi
    · refine .cons ⟨hl, ?_⟩ h.copied
      have hcopy := h.handed
      rw [← hrows] at hcopy
      exact hcopy
    · refine h.fitting.cons fun older holder => .inl ?_
      have hlast := h.last
      rw [holder] at hlast
      exact hrows.trans (Option.some.inj hlast).symm

theorem Tracks.step (h : s.Tracks size m l idx) (x : MatrixStep) :
    ∃ m' l' idx', (s.step x).Tracks size m' l' idx' := by
  cases x with
  | publish slave_matrix => exact ⟨m, l, idx, h.publish slave_matrix⟩
  | read now later checksum_arrives between data_arrives =>
    have hall := h.publish_all between
    obtain ⟨m', l', hread⟩ := hall.read now later
      (if checksum_arrives then some s.smatrix.checksum else none)
      (if data_arrives then some (between.foldl slave_matrix_handlers_slave s).smatrix.data
        else none) (by
        intro d hd
        split at hd
        · exact (Option.some.inj hd).symm
        · cases hd)
    exact ⟨m', l', l' :: idx, hread⟩

theorem tracks_of_run (size : Nat) (xs : List MatrixStep) :
    ∃ m l idx, (xs.foldl MatrixLink.step (initial size)).Tracks size m l idx := by
  induction xs using List.reverseRecOn with
  | nil => exact ⟨0, 0, [], tracks_initial size⟩
  | append_singleton xs x ih =>
    obtain ⟨m, l, idx, h⟩ := ih
    rw [List.foldl_append]
    exact h.step x

/-- In every run the rows that are copied out, the newest first, are rows
that the slave had published until then, in the order of their publication,
and they change only in a call whose checksum byte is that of the rows. -/
theorem slave_matrix_follows_the_publications (size : Nat) (xs : List MatrixStep) :
    (∃ idx : List Nat, idx.Pairwise (· ≥ ·) ∧
      List.Forall₂ (fun i c => i < c.seen ∧
        (xs.foldl MatrixLink.step (initial size)).published[i]? = some c.rows) idx
        (xs.foldl MatrixLink.step (initial size)).copies) ∧
    List.IsChain Fits
      ((xs.foldl MatrixLink.step (initial size)).copies ++ [before_boot size]) := by
  obtain ⟨m, l, idx, h⟩ := tracks_of_run size xs
  exact ⟨⟨idx, (List.pairwise_cons.mp h.ordered).2, h.copied⟩, h.fitting⟩

end MatrixLink

end keychron_qmk.split
