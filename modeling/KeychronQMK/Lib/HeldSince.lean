-- Since when keys have been held, as it is seen, and the timers of 32 bits that
-- measure how long.
import Mathlib.Logic.Function.Basic

namespace keychron_qmk.held

variable {κ : Type*} [DecidableEq κ]

/-- For each key, since when it has been seen held and not released. -/
abbrev Since (κ : Type*) := κ → Option Nat

namespace Since

variable {since : Since κ} {now : Nat} {key other : κ} {t : Nat}

/-- A key is seen, held or released. -/
def see (since : Since κ) (now : Nat) (key : κ) (held : Bool) : Since κ :=
  Function.update since key (if held then some ((since key).getD now) else none)

/-- For more than so many milliseconds. -/
def HeldFor (since : Since κ) (key : κ) (ms now : Nat) : Prop :=
  ∃ t, since key = some t ∧ t + ms < now

def Past (since : Since κ) (now : Nat) : Prop := ∀ key t, since key = some t → t ≤ now

theorem see_of_ne (held : Bool) (h : other ≠ key) : see since now key held other = since other :=
  Function.update_of_ne h _ _

theorem see_released : see since now key false key = none := by
  simp [see]

theorem see_held : ∃ t, see since now key true key = some t := by
  simp [see]

theorem see_of_some (h : since other = some t) : see since now key true other = some t := by
  by_cases hsame : other = key
  · subst hsame
    simp [see, h]
  · rw [see_of_ne true hsame, h]

omit [DecidableEq κ] in
theorem Past.later {later : Nat} (h : Past since now) (hle : now ≤ later) : Past since later :=
  fun key t ht => Nat.le_trans (h key t ht) hle

theorem Past.see (h : Past since now) (key : κ) (held : Bool) :
    Past (since.see now key held) now := by
  intro other t ht
  by_cases hsame : other = key
  · subst hsame
    cases held with
    | false => simp [Since.see] at ht
    | true =>
      cases hother : since other with
      | none => simp_all [Since.see]
      | some u =>
        rw [see_of_some hother] at ht
        exact Option.some.inj ht ▸ h other u hother
  · rw [see_of_ne held hsame] at ht
    exact h other t ht

end Since

/-! ## Timers -/

def timer_read32 (now : Nat) : UInt32 := .ofNat now

theorem elapsed_le {t now : Nat} (h : t ≤ now) :
    (timer_read32 now - timer_read32 t).toNat ≤ now - t := by
  unfold timer_read32
  rw [← UInt32.ofNat_sub h, UInt32.toNat_ofNat']
  exact Nat.mod_le _ _

theorem exists_wait (t now : Nat) (ms : UInt32) :
    ∃ wait, timer_read32 (now + wait) - timer_read32 t = ms := by
  refine ⟨t + ms.toNat + 4294967296 * now - now, ?_⟩
  have hlater : now + (t + ms.toNat + 4294967296 * now - now) =
      t + (ms.toNat + 4294967296 * now) := by omega
  have hms := ms.toNat_lt
  unfold timer_read32
  rw [hlater, ← UInt32.ofNat_sub (Nat.le_add_right t _), Nat.add_sub_cancel_left,
    ← UInt32.toNat_inj, UInt32.toNat_ofNat', Nat.add_mul_mod_self_left]
  exact Nat.mod_eq_of_lt hms

end keychron_qmk.held
