-- Tries with a value at the end of each word: insertion, the value of a word,
-- and the first value on the way along a word.
import Mathlib.Data.List.Infix
import Mathlib.Data.List.Pairwise
import Mathlib.Order.Defs.LinearOrder
import Mathlib.Tactic.Common

namespace keychron_qmk.trie

mutual

inductive Trie (κ α : Type) where
  | node (leaf : Option α) (children : Children κ α)

inductive Children (κ α : Type) where
  | nil
  | cons (letter : κ) (child : Trie κ α) (rest : Children κ α)

end

variable {κ α : Type} [DecidableEq κ]

namespace Children

def get? (k : κ) : Children κ α → Option (Trie κ α)
  | nil => none
  | cons letter child rest => if letter = k then some child else rest.get? k

def modify (k : κ) (f : Trie κ α → Trie κ α) : Children κ α → Children κ α
  | nil => nil
  | cons letter child rest =>
    if letter = k then cons letter (f child) rest else cons letter child (rest.modify k f)

/-- A new child, in front of the greater letters. -/
def place (lt : κ → κ → Bool) (k : κ) (t : Trie κ α) : Children κ α → Children κ α
  | nil => cons k t nil
  | cons letter child rest =>
    if lt k letter then cons k t (cons letter child rest)
    else cons letter child (rest.place lt k t)

theorem get?_modify (k k' : κ) (f : Trie κ α → Trie κ α) (cs : Children κ α) :
    (cs.modify k f).get? k' = if k' = k then (cs.get? k).map f else cs.get? k' := by
  match cs with
  | nil => simp [modify, get?]
  | cons letter child rest =>
    have ih := get?_modify k k' f rest
    by_cases hk : letter = k
    · by_cases hk' : k' = k
      · simp [modify, get?, hk, hk']
      · simp [modify, get?, hk, hk', Ne.symm hk']
    · by_cases hk' : k' = k
      · simp [modify, get?, hk, hk'] at ih ⊢
        exact ih
      · simp [modify, get?, hk, hk', ih]

theorem get?_place (lt : κ → κ → Bool) {k : κ} (k' : κ) (t : Trie κ α) {cs : Children κ α}
    (h : cs.get? k = none) :
    (cs.place lt k t).get? k' = if k' = k then some t else cs.get? k' := by
  match cs with
  | nil => simp [place, get?, eq_comm]
  | cons letter child rest =>
    have hk : letter ≠ k := by
      rintro rfl
      simp [get?] at h
    have hrest : rest.get? k = none := by simpa [get?, hk] using h
    have ih := get?_place lt k' t hrest
    unfold place
    split
    · simp [get?, eq_comm]
    · by_cases hk' : letter = k'
      · have hne : k' ≠ k := hk' ▸ hk
        simp [get?, hk', hne]
      · simp [get?, hk', ih]

end Children

namespace Trie

def empty : Trie κ α := node none .nil

/-- The child of a letter with a change, a new one when there is none. -/
def setdefault (lt : κ → κ → Bool) (k : κ) (f : Trie κ α → Trie κ α) (cs : Children κ α) :
    Children κ α :=
  if (cs.get? k).isSome then cs.modify k f else cs.place lt k (f empty)

/-- Puts a value at the end of a word. -/
def insert (lt : κ → κ → Bool) (a : α) : List κ → Trie κ α → Trie κ α
  | [], node _ cs => node (some a) cs
  | k :: w, node leaf cs => node leaf (setdefault lt k (insert lt a w) cs)

/-- The value at the end of a word. -/
def get : List κ → Trie κ α → Option α
  | [], node leaf _ => leaf
  | k :: w, node _ cs => (cs.get? k).bind (get w)

/-- The first value on the way along a word. -/
def find : List κ → Trie κ α → Option α
  | _, node (some a) _ => some a
  | [], node none _ => none
  | k :: w, node none cs => (cs.get? k).bind (find w)

section

variable (lt : κ → κ → Bool)

theorem get?_setdefault (k k' : κ) (f : Trie κ α → Trie κ α) (cs : Children κ α) :
    (setdefault lt k f cs).get? k' =
      if k' = k then some (f ((cs.get? k).getD empty)) else cs.get? k' := by
  unfold setdefault
  cases h : cs.get? k with
  | none =>
    rw [if_neg (by simp), Children.get?_place lt k' _ h]
    rfl
  | some t =>
    rw [if_pos (by simp), Children.get?_modify, h]
    rfl

@[simp] theorem get_empty (w : List κ) : get w (empty : Trie κ α) = none := by
  cases w <;> rfl

theorem get_insert (w v : List κ) (a : α) (t : Trie κ α) :
    get v (insert lt a w t) = if v = w then some a else get v t := by
  induction w generalizing v t with
  | nil =>
    obtain ⟨leaf, cs⟩ := t
    cases v with
    | nil => rfl
    | cons k v => simp [insert, get]
  | cons k w ih =>
    obtain ⟨leaf, cs⟩ := t
    cases v with
    | nil => simp [insert, get]
    | cons k' v =>
      rw [insert, get, get?_setdefault, get]
      by_cases hk : k' = k
      · rw [if_pos hk, Option.bind_some, ih, hk]
        cases hchild : cs.get? k with
        | none => simp
        | some child => simp
      · rw [if_neg hk, if_neg (by simp [hk])]

end

/-- A word finds the value of its shortest part in front that has one. -/
theorem find_eq_some_iff {ks : List κ} {a : α} {t : Trie κ α} :
    find ks t = some a ↔ ∃ w, w <+: ks ∧ get w t = some a ∧
      ∀ v, v <+: w → v ≠ w → get v t = none := by
  induction ks generalizing t with
  | nil =>
    obtain ⟨leaf, cs⟩ := t
    constructor
    · intro h
      cases leaf with
      | none => cases h
      | some b => exact ⟨[], List.prefix_rfl, h, fun v hv hne => absurd (List.prefix_nil.mp hv) hne⟩
    · rintro ⟨w, hw, hget, -⟩
      rw [List.prefix_nil.mp hw] at hget
      cases leaf with
      | none => cases hget
      | some b => exact hget
  | cons k ks ih =>
    obtain ⟨leaf, cs⟩ := t
    cases leaf with
    | some b =>
      constructor
      · intro h
        exact ⟨[], List.nil_prefix, h, fun v hv hne => absurd (List.prefix_nil.mp hv) hne⟩
      · rintro ⟨w, -, hget, hshort⟩
        cases w with
        | nil => exact hget
        | cons k' w => cases hshort [] List.nil_prefix (by simp)
    | none =>
      have hfind : find (k :: ks) (node none cs) = (cs.get? k).bind (find ks) := rfl
      rw [hfind]
      constructor
      · intro h
        obtain ⟨child, hchild, h⟩ := Option.bind_eq_some_iff.mp h
        obtain ⟨w, hw, hget, hshort⟩ := ih.mp h
        refine ⟨k :: w, List.cons_prefix_cons.mpr ⟨rfl, hw⟩, by simp [get, hchild, hget], ?_⟩
        intro v hv hne
        cases v with
        | nil => rfl
        | cons k' v =>
          obtain ⟨rfl, hv'⟩ := List.cons_prefix_cons.mp hv
          rw [get, hchild]
          exact hshort v hv' fun hsame => hne (by rw [hsame])
      · rintro ⟨w, hw, hget, hshort⟩
        cases w with
        | nil => cases hget
        | cons k' w =>
          obtain ⟨rfl, hw'⟩ := List.cons_prefix_cons.mp hw
          obtain ⟨child, hchild, hget⟩ := Option.bind_eq_some_iff.mp hget
          rw [hchild, Option.bind_some]
          refine ih.mpr ⟨w, hw', hget, fun v hv hne => ?_⟩
          have hv' := hshort (k' :: v) (List.cons_prefix_cons.mpr ⟨rfl, hv⟩) (by simpa using hne)
          rwa [get, hchild] at hv'

/-! ## Tries of lists -/

/-- The trie of words with their values. -/
def ofList (lt : κ → κ → Bool) (entries : List (List κ × α)) : Trie κ α :=
  entries.foldl (fun t entry => insert lt entry.2 entry.1 t) empty

/-- With different words each word has its value. -/
theorem get_ofList_iff (lt : κ → κ → Bool) {entries : List (List κ × α)}
    (h : entries.Pairwise fun e e' => e.1 ≠ e'.1) {w : List κ} {a : α} :
    get w (ofList lt entries) = some a ↔ (w, a) ∈ entries := by
  unfold ofList
  have hgeneral : ∀ t : Trie κ α, (∀ entry ∈ entries, get entry.1 t = none) →
      (get w (entries.foldl (fun t entry => insert lt entry.2 entry.1 t) t) = some a ↔
        (w, a) ∈ entries ∨ get w t = some a) := by
    induction entries with
    | nil => simp
    | cons entry entries ih =>
      intro t hnone
      obtain ⟨hentry, hentries⟩ := List.pairwise_cons.mp h
      obtain ⟨hfirst, hrest⟩ := List.forall_mem_cons.mp hnone
      rw [List.foldl_cons, ih hentries]
      · rw [get_insert]
        by_cases hw : w = entry.1
        · have hno : (w, a) ∉ entries := fun hmem => hentry _ hmem hw.symm
          rw [if_pos hw, hw, hfirst]
          have hw' : (entry.1, a) ∉ entries := hw ▸ hno
          constructor
          · rintro (hmem | hvalue)
            · exact absurd hmem hw'
            · left
              rw [← Option.some.inj hvalue]
              exact List.mem_cons_self
          · rintro (hmem | hvalue)
            · right
              rcases List.mem_cons.mp hmem with hmem | hmem
              · rw [← hmem]
              · exact absurd hmem hw'
            · cases hvalue
        · have hne : (w, a) ≠ entry := fun heq => hw (by rw [← heq])
          rw [if_neg hw, List.mem_cons]
          simp [hne]
      · intro entry' hmem
        rw [get_insert, if_neg (Ne.symm (hentry entry' hmem))]
        exact hrest entry' hmem
  rw [hgeneral empty fun entry _ => get_empty entry.1]
  simp

/-- When no word stands at the front of another, a word is found exactly by
what it stands in front of. -/
theorem find_ofList_iff (lt : κ → κ → Bool) {entries : List (List κ × α)}
    (h : entries.Pairwise fun e e' => ¬ e.1 <+: e'.1 ∧ ¬ e'.1 <+: e.1) {ks : List κ} {a : α} :
    find ks (ofList lt entries) = some a ↔ ∃ w, (w, a) ∈ entries ∧ w <+: ks := by
  have hdistinct : entries.Pairwise fun e e' => e.1 ≠ e'.1 :=
    h.imp fun hno heq => hno.1 (by rw [heq])
  have hfree : ∀ e ∈ entries, ∀ e' ∈ entries, e.1 <+: e'.1 → e.1 = e'.1 := by
    intro e he e' he' hprefix
    by_contra hne
    have : Std.Symm fun e e' : List κ × α => ¬ e.1 <+: e'.1 ∧ ¬ e'.1 <+: e.1 :=
      ⟨fun _ _ hno => ⟨hno.2, hno.1⟩⟩
    exact (h.forall he he' fun heq => hne (by rw [heq])).1 hprefix
  rw [find_eq_some_iff]
  constructor
  · rintro ⟨w, hw, hget, -⟩
    exact ⟨w, (get_ofList_iff lt hdistinct).mp hget, hw⟩
  · rintro ⟨w, hmem, hw⟩
    refine ⟨w, hw, (get_ofList_iff lt hdistinct).mpr hmem, fun v hv hne => ?_⟩
    by_contra hsome
    obtain ⟨b, hb⟩ := Option.ne_none_iff_exists'.mp hsome
    exact hne (hfree _ ((get_ofList_iff lt hdistinct).mp hb) _ hmem hv)

end Trie

/-! ## Letters -/

mutual

def Trie.Letters (P : κ → Prop) : Trie κ α → Prop
  | .node _ cs => cs.Letters P

def Children.Letters (P : κ → Prop) : Children κ α → Prop
  | .nil => True
  | .cons k t rest => P k ∧ t.Letters P ∧ rest.Letters P

end

section

variable {P : κ → Prop}

theorem Children.Letters.modify {k : κ} {cs : Children κ α} (h : cs.Letters P)
    {f : Trie κ α → Trie κ α} (hf : ∀ t, t.Letters P → (f t).Letters P) :
    (cs.modify k f).Letters P := by
  match cs with
  | .nil => trivial
  | .cons letter child rest =>
    obtain ⟨hletter, hchild, hrest⟩ := h
    unfold Children.modify
    split
    · exact ⟨hletter, hf child hchild, hrest⟩
    · exact ⟨hletter, hchild, hrest.modify hf⟩

omit [DecidableEq κ] in
theorem Children.Letters.place (lt : κ → κ → Bool) {k : κ} (hk : P k) {t : Trie κ α}
    (ht : t.Letters P) {cs : Children κ α} (h : cs.Letters P) : (cs.place lt k t).Letters P := by
  match cs with
  | .nil => exact ⟨hk, ht, trivial⟩
  | .cons letter child rest =>
    obtain ⟨hletter, hchild, hrest⟩ := h
    unfold Children.place
    split
    · exact ⟨hk, ht, hletter, hchild, hrest⟩
    · exact ⟨hletter, hchild, Children.Letters.place lt hk ht hrest⟩

theorem Trie.Letters.insert (lt : κ → κ → Bool) (a : α) {w : List κ} (hw : ∀ k ∈ w, P k)
    {t : Trie κ α} (h : t.Letters P) : (t.insert lt a w).Letters P := by
  induction w generalizing t with
  | nil =>
    obtain ⟨leaf, cs⟩ := t
    exact h
  | cons k w ih =>
    obtain ⟨leaf, cs⟩ := t
    obtain ⟨hk, hw⟩ := List.forall_mem_cons.mp hw
    change (Trie.setdefault lt k (Trie.insert lt a w) cs).Letters P
    unfold Trie.setdefault
    split
    · exact Children.Letters.modify h fun t ht => ih hw ht
    · have hempty : (Trie.empty : Trie κ α).Letters P := trivial
      exact Children.Letters.place lt hk (ih hw hempty) h

theorem Trie.letters_ofList (lt : κ → κ → Bool) {entries : List (List κ × α)}
    (h : ∀ entry ∈ entries, ∀ k ∈ entry.1, P k) : (Trie.ofList lt entries).Letters P := by
  have hgeneral : ∀ t : Trie κ α, t.Letters P →
      (entries.foldl (fun t entry => Trie.insert lt entry.2 entry.1 t) t).Letters P := by
    induction entries with
    | nil => exact fun t ht => ht
    | cons entry entries ih =>
      obtain ⟨hentry, hentries⟩ := List.forall_mem_cons.mp h
      exact fun t ht => ih hentries _ (ht.insert lt entry.2 hentry)
  have hempty : (Trie.empty : Trie κ α).Letters P := trivial
  exact hgeneral Trie.empty hempty

end

end keychron_qmk.trie
