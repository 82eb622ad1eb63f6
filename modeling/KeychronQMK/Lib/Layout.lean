-- Values of a fixed size in a byte memory: a codec turns a value into its
-- bytes and back, and a value is read from and written to an address.
import KeychronQMK.Lib.Memory
import Mathlib.Data.List.OfFn
import Mathlib.Logic.Function.Basic
import Mathlib.Algebra.Group.Nat.Defs

namespace keychron_qmk.layout

open memory

variable {α β : Type*}

/-! ## Little-endian numbers -/

def leBytes : Nat → Nat → List UInt8
  | 0, _ => []
  | n + 1, w => UInt8.ofNat w :: leBytes n (w / 256)

def leNat : List UInt8 → Nat
  | [] => 0
  | b :: bs => b.toNat + 256 * leNat bs

@[simp] theorem leBytes_length (n w : Nat) : (leBytes n w).length = n := by
  induction n generalizing w with
  | zero => rfl
  | succ n ih => simp [leBytes, ih]

theorem leNat_leBytes {n w : Nat} (h : w < 256 ^ n) : leNat (leBytes n w) = w := by
  induction n generalizing w with
  | zero => simp [leBytes, leNat] at *; omega
  | succ n ih =>
    have hdiv : w / 256 < 256 ^ n := by
      rw [Nat.div_lt_iff_lt_mul (by decide), ← Nat.pow_succ]
      exact h
    simp only [leBytes, leNat, ih hdiv, UInt8.toNat_ofNat']
    omega

/-! ## Codecs -/

/-- A way to store an `α` in `size` bytes. -/
structure Codec (α : Type*) where
  size : Nat
  encode : α → List UInt8
  decode : List UInt8 → α
  encode_length : ∀ x, (encode x).length = size
  decode_encode : ∀ x, decode (encode x) = x

attribute [simp] Codec.encode_length Codec.decode_encode

namespace Codec

def byte : Codec UInt8 where
  size := 1
  encode b := [b]
  decode l := l.headD 0
  encode_length _ := rfl
  decode_encode _ := rfl

/-- A value packed into the bits of one little-endian number. -/
def packed (n : Nat) (toNat : α → Nat) (ofNat : Nat → α) (hlt : ∀ x, toNat x < 256 ^ n)
    (hof : ∀ x, ofNat (toNat x) = x) : Codec α where
  size := n
  encode x := leBytes n (toNat x)
  decode l := ofNat (leNat l)
  encode_length _ := leBytes_length _ _
  decode_encode x := by rw [leNat_leBytes (hlt x), hof]

def pair (a : Codec α) (b : Codec β) : Codec (α × β) where
  size := a.size + b.size
  encode x := a.encode x.1 ++ b.encode x.2
  decode l := (a.decode (l.take a.size), b.decode (l.drop a.size))
  encode_length x := by simp
  decode_encode x := by
    rw [List.take_left' (a.encode_length _), List.drop_left' (a.encode_length _)]
    simp

/-- A value stored as another one that determines it. -/
def via (c : Codec β) (f : α → β) (g : β → α) (h : ∀ x, g (f x) = x) : Codec α where
  size := c.size
  encode x := c.encode (f x)
  decode l := g (c.decode l)
  encode_length _ := c.encode_length _
  decode_encode x := by rw [c.decode_encode, h]

def cells (c : Codec α) : (n : Nat) → (Fin n → α) → List UInt8
  | 0, _ => []
  | n + 1, f => c.encode (f 0) ++ cells c n fun i => f i.succ

theorem cells_length (c : Codec α) (n : Nat) (f : Fin n → α) :
    (cells c n f).length = n * c.size := by
  induction n with
  | zero => simp [cells]
  | succ n ih => simp [cells, ih, Nat.succ_mul, Nat.add_comm]

theorem cells_take (c : Codec α) (n : Nat) (f : Fin n → α) (i : Fin n) :
    ((cells c n f).drop (i * c.size)).take c.size = c.encode (f i) := by
  induction n with
  | zero => exact i.elim0
  | succ n ih =>
    induction i using Fin.cases with
    | zero => simp [cells, List.take_left' (c.encode_length _)]
    | succ i =>
      have hdrop : (i.succ : Nat) * c.size = (c.encode (f 0)).length + i * c.size := by
        simp [Nat.succ_mul, Nat.add_comm]
      rw [cells, hdrop, ← List.drop_drop, List.drop_left]
      exact ih (fun i => f i.succ) i

theorem cells_getElem? (c : Codec α) (n : Nat) (f : Fin n → α) (i : Fin n) {j : Nat}
    (h : j < c.size) : (cells c n f)[i * c.size + j]? = (c.encode (f i))[j]? := by
  rw [← cells_take c n f i, List.getElem?_take_of_lt h, List.getElem?_drop]

def array (c : Codec α) (n : Nat) : Codec (Fin n → α) where
  size := n * c.size
  encode f := cells c n f
  decode l := fun i => c.decode ((l.drop (i * c.size)).take c.size)
  encode_length f := cells_length c n f
  decode_encode f := by
    funext i
    rw [cells_take, c.decode_encode]

@[simp] theorem byte_size : byte.size = 1 := rfl

@[simp] theorem pair_size (a : Codec α) (b : Codec β) : (a.pair b).size = a.size + b.size := rfl

@[simp] theorem array_size (c : Codec α) (n : Nat) : (c.array n).size = n * c.size := rfl

/-! ## Reads and writes -/

/-- The value at address `a`. -/
def read (c : Codec α) (m : Nat → UInt8) (a : Nat) : α := c.decode (readBlock m a c.size)

/-- The memory with `x` stored at address `a`. -/
def write (c : Codec α) (m : Nat → UInt8) (a : Nat) (x : α) : Nat → UInt8 :=
  patch m a (c.encode x)

@[simp] theorem read_write (c : Codec α) (m : Nat → UInt8) (a : Nat) (x : α) :
    c.read (c.write m a x) a = x := by
  unfold read write
  rw [← c.encode_length x, readBlock_patch_self, c.decode_encode]

theorem write_of_lt (c : Codec α) (m : Nat → UInt8) {a i : Nat} (x : α) (h : i < a) :
    c.write m a x i = m i := patch_lt _ _ h

theorem write_of_ge (c : Codec α) (m : Nat → UInt8) {a i : Nat} (x : α) (h : a + c.size ≤ i) :
    c.write m a x i = m i := patch_ge _ _ (by rw [c.encode_length]; exact h)

theorem read_write_of_disjoint (c : Codec α) (d : Codec β) (m : Nat → UInt8) {a b : Nat} (x : β)
    (h : a + c.size ≤ b ∨ b + d.size ≤ a) : c.read (d.write m b x) a = c.read m a := by
  unfold read write
  rcases h with h | h
  · rw [readBlock_patch_below _ _ h]
  · rw [readBlock_patch_above _ _ (by rw [d.encode_length]; exact h)]

@[simp] theorem byte_read (m : Nat → UInt8) (a : Nat) : byte.read m a = m a := by
  simp [read, byte, readBlock]

theorem byte_write (m : Nat → UInt8) (a : Nat) (b : UInt8) :
    byte.write m a b = Function.update m a b := by
  funext i
  rcases Nat.lt_trichotomy i a with h | h | h
  · rw [Function.update_of_ne (by omega)]
    exact patch_lt _ _ h
  · subst h
    simp [write, byte, patch]
  · rw [Function.update_of_ne (by omega)]
    exact patch_ge _ _ h

theorem array_read (c : Codec α) {n : Nat} (m : Nat → UInt8) (a : Nat) (i : Fin n) :
    (c.array n).read m a i = c.read m (a + i * c.size) := by
  have hsplit : n * c.size = i * c.size + (c.size + (n - i - 1) * c.size) := by
    rw [← Nat.add_assoc, ← Nat.succ_mul, ← Nat.add_mul]
    congr 1
    omega
  change c.decode (((readBlock m a (n * c.size)).drop (i * c.size)).take c.size) = _
  rw [hsplit, readBlock_add, List.drop_left' (readBlock_length _ _ _), readBlock_add,
    List.take_left' (readBlock_length _ _ _)]
  rfl

end Codec

end keychron_qmk.layout
