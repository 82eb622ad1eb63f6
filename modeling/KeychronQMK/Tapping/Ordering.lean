-- The order in which the events of a run are handed over. While key events come
-- only to an empty buffer or to a tapping key that waits, the line is served in
-- its order, and only releases of keys that were pressed before the tapping key pass it.
import KeychronQMK.Tapping.Conservation

namespace keychron_qmk.action_tapping

open runs
open action_layer (keypos_t)

/-! ## Well-formed streams -/

/-- `b`, not `b`, `b`, and so on. -/
def Alternates : Bool → List Bool → Prop
  | _, [] => True
  | b, x :: xs => x = b ∧ Alternates (!b) xs

instance Alternates.decidable : ∀ b xs, Decidable (Alternates b xs)
  | _, [] => .isTrue trivial
  | b, x :: xs =>
    have := Alternates.decidable (!b) xs
    inferInstanceAs (Decidable (x = b ∧ _))

variable {xs ys : List Bool}

theorem Alternates.left {b : Bool} (h : Alternates b (xs ++ ys)) : Alternates b xs := by
  induction xs generalizing b with
  | nil => trivial
  | cons x xs ih => exact ⟨h.1, ih h.2⟩

theorem Alternates.before {b x : Bool} (h : Alternates b (xs ++ x :: ys)) :
    (xs = [] ∧ x = b) ∨ ∃ zs, xs = zs ++ [!x] := by
  induction xs generalizing b with
  | nil => exact .inl ⟨rfl, h.1⟩
  | cons y xs ih =>
    obtain ⟨hy, hrest⟩ := h
    rcases ih hrest with ⟨rfl, hx⟩ | ⟨zs, rfl⟩
    · refine .inr ⟨[], ?_⟩
      rw [hx, hy]
      simp
    · exact .inr ⟨y :: zs, rfl⟩

def ofKey (key : keypos_t) (es : List keyevent_t) : List keyevent_t := es.filter (·.key = key)

def presses (es : List keyevent_t) : List keyevent_t := es.filter (·.pressed)

/-- Each key is pressed and released in turn. -/
def WellFormed (es : List keyevent_t) : Prop :=
  ∀ key, Alternates true ((ofKey key es).map keyevent_t.pressed)

@[simp] theorem ofKey_append (key : keypos_t) (xs ys : List keyevent_t) :
    ofKey key (xs ++ ys) = ofKey key xs ++ ofKey key ys := List.filter_append ..

@[simp] theorem presses_append (xs ys : List keyevent_t) :
    presses (xs ++ ys) = presses xs ++ presses ys := List.filter_append ..

variable {e : keyevent_t}

theorem mem_ofKey {key : keypos_t} {es : List keyevent_t} :
    e ∈ ofKey key es ↔ e ∈ es ∧ e.key = key := by
  simp [ofKey]

theorem mem_presses {es : List keyevent_t} : e ∈ presses es ↔ e ∈ es ∧ e.pressed = true := by
  simp [presses]

theorem wellFormed_iff {es : List keyevent_t} : WellFormed es ↔
    ∀ e ∈ es, Alternates true ((ofKey e.key es).map keyevent_t.pressed) := by
  refine ⟨fun h e _ => h e.key, fun h key => ?_⟩
  rcases hkey : ofKey key es with _ | ⟨e, rest⟩
  · trivial
  · obtain ⟨he, rfl⟩ := mem_ofKey.mp (hkey ▸ List.mem_cons_self : e ∈ ofKey key es)
    exact hkey ▸ h e he

instance (es : List keyevent_t) : Decidable (WellFormed es) := decidable_of_iff' _ wellFormed_iff

theorem WellFormed.left {xs ys : List keyevent_t} (h : WellFormed (xs ++ ys)) : WellFormed xs := by
  intro key
  have := h key
  rw [ofKey_append, List.map_append] at this
  exact this.left

/-- The events come in the order of their numbers. -/
def InSequence (es : List keyevent_t) : Prop := es.Pairwise fun d e => d.serial < e.serial

theorem press_before_release {key : keypos_t} {before after es : List keyevent_t}
    (hw : WellFormed es) (hsplit : ofKey key es = before ++ e :: after) (hp : e.pressed = false) :
    ∃ rest p, before = rest ++ [p] ∧ p.pressed = true := by
  have halt := hw key
  rw [hsplit, List.map_append, List.map_cons, hp] at halt
  rcases halt.before with ⟨-, h⟩ | ⟨zs, hzs⟩
  · cases h
  · obtain ⟨rest, last, rfl, -, hlast⟩ := List.map_eq_append_iff.mp hzs
    obtain ⟨p, rfl, hpressed⟩ := List.map_eq_singleton_iff.mp hlast
    exact ⟨rest, p, rfl, hpressed⟩

/-! ## The order of the line -/

def PressedBefore (es : List keyevent_t) (release tapping_key : keyevent_t) : Prop :=
  ∃ p ∈ es, p.key = release.key ∧ p.pressed = true ∧ p.serial < tapping_key.serial ∧
    ∀ q ∈ es, q.key = release.key → p.serial < q.serial → release.serial ≤ q.serial

/-- What is handed over ahead of an earlier event is a release of a key that was
pressed before the tapping key of that moment, which waits to be settled. -/
def PassesOnly (es : List keyevent_t) (calls : List Call) (line : List keyevent_t) : Prop :=
  ∀ pre post record tapping_key early,
    calls = pre ++ .process_record record tapping_key early :: post →
    record.event.serial ≠ 0 → ∀ d ∈ events post ++ line, d.serial < record.event.serial →
      record.event.pressed = false ∧ tapping_key.event.pressed = true ∧
        tapping_key.tap.count = 0 ∧ PressedBefore es record.event tapping_key.event

/-- After the events `es` came, these calls were made, and `line` waits. -/
structure Ordered (es : List keyevent_t) (calls : List Call) (line : List keyevent_t) : Prop where
  keys : ∀ key, ofKey key (events calls ++ line) = ofKey key es
  pressed : presses (events calls ++ line) = presses es
  passes : PassesOnly es calls line
  line : InSequence line

section

variable {es line : List keyevent_t} {s s' : Tapping}

variable {e : keyevent_t} {calls : List Call}

theorem mem_of_ordered (h : Ordered es calls line) : e ∈ events calls ++ line ↔ e ∈ es := by
  have := congrArg (e ∈ ·) (h.keys e.key)
  simpa [mem_ofKey] using this

/-- A call that serves the first of the line passes nobody. -/
theorem Ordered.serve {served : List keyevent_t} (h : Ordered es s.calls line)
    (hs : Hands s s' served) (hl : served ++ s'.held = line) : Ordered es s'.calls s'.held := by
  obtain ⟨new, hcalls, -, rfl⟩ := hs
  have hall : events s'.calls ++ s'.held = events s.calls ++ line := by
    rw [hcalls, events_append, List.append_assoc, hl]
  refine ⟨by rw [hall]; exact h.keys, by rw [hall]; exact h.pressed, ?_, ?_⟩
  · intro pre post record tapping_key early hsplit hserial d hd hlt
    rw [hcalls] at hsplit
    rcases List.append_eq_append_iff.mp hsplit with ⟨mid, rfl, hnew⟩ | ⟨mid, hold, hmid⟩
    · -- a call of this move: the rest of the line comes after it
      have hline : line = events mid ++ record.event :: (events post ++ s'.held) := by
        rw [← hl, hnew]
        simp [events, Call.event?, hserial]
      have hseq := h.line
      rw [InSequence, hline, List.pairwise_append, List.pairwise_cons] at hseq
      have := hseq.2.1.1 d hd
      omega
    · -- an earlier call
      rcases mid with _ | ⟨call, mid⟩
      · have hnew : new = .process_record record tapping_key early :: post := by simpa using hmid.symm
        have hline : line = record.event :: (events post ++ s'.held) := by
          rw [← hl, hnew]
          simp [events, Call.event?, hserial]
        have hseq := h.line
        rw [InSequence, hline, List.pairwise_cons] at hseq
        have := hseq.1 d hd
        omega
      · obtain ⟨rfl, hpost⟩ := List.cons.inj (show call :: (mid ++ new) = _ :: post from hmid.symm)
        refine h.passes pre mid record tapping_key early hold hserial d ?_ hlt
        rw [← hpost, events_append, List.append_assoc, hl] at hd
        exact hd
  · have hseq := h.line
    rw [InSequence, ← hl, List.pairwise_append] at hseq
    exact hseq.2.1

/-- The release that passes: the press of its key was handed over, and is older than the
tapping key. -/
theorem passing_release {before after : List keyevent_t} {t : keyevent_t}
    (h : Ordered es calls (before ++ e :: after)) (hw : WellFormed es) (hseq : InSequence es)
    (hp : e.pressed = false) (hpress : ∀ q ∈ before, q.key = e.key → q.pressed = false)
    (hfirst : before.head? = some t) (ht : t.pressed = true) :
    ofKey e.key before = [] ∧ PressedBefore es e t := by
  have hkeys := h.keys e.key
  have hsplit : ofKey e.key es =
      (ofKey e.key (events calls) ++ ofKey e.key before) ++ e :: ofKey e.key after := by
    rw [← hkeys, ofKey_append, ofKey_append, List.append_assoc]
    simp [ofKey]
  obtain ⟨rest, p, hrest, hpressed⟩ := press_before_release hw hsplit hp
  have hnone : ofKey e.key before = [] := by
    rcases List.eq_nil_or_concat (ofKey e.key before) with hnil | ⟨init, q, hq⟩
    · exact hnil
    · rw [hq, List.concat_eq_append, ← List.append_assoc] at hrest
      obtain rfl : q = p := by simpa using (List.append_inj' hrest rfl).2
      have hmem : q ∈ ofKey e.key before := by simp [hq]
      obtain ⟨hbefore, hkey⟩ := mem_ofKey.mp hmem
      rw [hpress q hbefore hkey] at hpressed
      cases hpressed
  refine ⟨hnone, p, ?_⟩
  rw [hnone, List.append_nil] at hrest
  have hhanded : p ∈ events calls ∧ p.key = e.key := mem_ofKey.mp (by simp [hrest])
  have hpmem : p ∈ es := (mem_of_ordered h).mp (List.mem_append_left _ hhanded.1)
  refine ⟨hpmem, hhanded.2, hpressed, ?_, ?_⟩
  · -- presses are handed over in their order, and the tapping key is not handed over yet
    obtain ⟨tail, rfl⟩ : ∃ tail, before = t :: tail := by
      cases before with
      | nil => simp at hfirst
      | cons x tail => exact ⟨tail, by simp at hfirst; rw [hfirst]⟩
    have hordered : InSequence (presses es) := hseq.filter _
    rw [← h.pressed, presses_append, InSequence, List.pairwise_append] at hordered
    exact hordered.2.2 p (mem_presses.mpr ⟨hhanded.1, hpressed⟩) t
      (mem_presses.mpr ⟨by simp, ht⟩)
  · intro q hq hkey hlt
    have hordered : InSequence (ofKey e.key es) := hseq.filter _
    have hmem : q ∈ ofKey e.key es := mem_ofKey.mpr ⟨hq, hkey⟩
    rw [hsplit, hnone, List.append_nil, hrest, InSequence, List.pairwise_append,
      List.pairwise_append] at hordered
    rw [hsplit, hnone, List.append_nil, hrest, List.append_assoc] at hmem
    obtain ⟨⟨-, -, hlast⟩, hafter, -⟩ := hordered
    rcases List.mem_append.mp hmem with hmem | hmem
    · have := hlast q hmem p (by simp)
      omega
    rcases List.mem_cons.mp hmem with rfl | hmem
    · omega
    rcases List.mem_cons.mp hmem with rfl | hmem
    · exact le_rfl
    · exact (List.rel_of_pairwise_cons hafter hmem).le

theorem Ordered.moves (h : Ordered es s.calls line) (hw : WellFormed es) (hseq : InSequence es)
    (hm : Moves s s' line) : Ordered es s'.calls s'.held := by
  cases hm with
  | serve served hs hl => exact h.serve hs hl
  | pass record before after hcalls hu hserial hp hline hheld hfirst hpress =>
    subst hline
    obtain ⟨-, ht, hc⟩ := of_unsettled hu
    obtain ⟨hnone, hbefore⟩ := passing_release h hw hseq hp hpress hfirst ht
    have hnew : events [.process_record record s.tapping_key false] = [record.event] := by
      simp [events, Call.event?, hserial]
    refine ⟨fun key => ?_, ?_, ?_, ?_⟩
    · rw [← h.keys key, hcalls, events_append, hnew, hheld, ← List.singleton_append (l := after)]
      by_cases hkey : record.event.key = key
      · subst hkey
        simp only [ofKey_append, hnone, List.nil_append, List.append_assoc]
      · simp [ofKey, hkey]
    · rw [← h.pressed, hcalls, events_append, hnew, hheld]
      simp [presses, hp]
    · intro pre post r tapping_key early hsplit hserial' d hd hlt
      rw [hcalls] at hsplit
      rcases List.eq_nil_or_concat post with rfl | ⟨post', last, rfl⟩
      · obtain ⟨rfl, hlast⟩ := List.append_inj' hsplit rfl
        obtain ⟨rfl, rfl, rfl⟩ : record = r ∧ s.tapping_key = tapping_key ∧ false = early := by
          simpa using hlast
        exact ⟨hp, ht, hc, hbefore⟩
      · have hold : s.calls = pre ++ .process_record r tapping_key early :: post' ∧
            [.process_record record s.tapping_key false] = [last] := by
          refine List.append_inj' ?_ rfl
          rw [hsplit]
          simp
        obtain rfl : .process_record record s.tapping_key false = last := by simpa using hold.2
        refine h.passes pre post' r tapping_key early hold.1 hserial' d ?_ hlt
        rw [List.concat_eq_append, events_append, hnew, hheld] at hd
        simp only [List.mem_append, List.mem_cons] at hd ⊢
        tauto
    · rw [hheld]
      exact h.line.sublist (by simp)

theorem Ordered.advances (h : Ordered es s.calls s.held) (hw : WellFormed es)
    (hseq : InSequence es) (ha : Advances s s') : Ordered es s'.calls s'.held := by
  induction ha with
  | refl => exact h
  | move hm rest ih => exact ih (h.moves hw hseq hm)

/-- A new event comes behind the line. -/
theorem Ordered.join (h : Ordered es calls line) (hseq : InSequence (es ++ [e])) :
    Ordered (es ++ [e]) calls (line ++ [e]) := by
  have hlast : ∀ d ∈ es, d.serial < e.serial := by
    intro d hd
    rw [InSequence, List.pairwise_append] at hseq
    exact hseq.2.2 d hd e (by simp)
  refine ⟨fun key => ?_, ?_, ?_, ?_⟩
  · rw [← List.append_assoc, ofKey_append, h.keys key, ofKey_append]
  · rw [← List.append_assoc, presses_append, h.pressed, presses_append]
  · intro pre post record tapping_key early hsplit hserial d hd hlt
    have hrecord : record.event ∈ es := by
      refine (mem_of_ordered h).mp (List.mem_append_left _ ?_)
      rw [hsplit]
      simp [events, Call.event?, hserial]
    rw [← List.append_assoc] at hd
    rcases List.mem_append.mp hd with hd | hd
    · obtain ⟨hp, ht, hc, p, hpmem, hpkey, hpressed, hold, hnext⟩ :=
        h.passes pre post record tapping_key early hsplit hserial d hd hlt
      refine ⟨hp, ht, hc, p, List.mem_append_left _ hpmem, hpkey, hpressed, hold, ?_⟩
      intro q hq hkey hlt'
      rcases List.mem_append.mp hq with hq | hq
      · exact hnext q hq hkey hlt'
      · rw [List.mem_singleton.mp hq]
        exact (hlast _ hrecord).le
    · rw [List.mem_singleton.mp hd] at hlt
      have := hlast _ hrecord
      omega
  · rw [InSequence, List.pairwise_append]
    refine ⟨h.line, List.pairwise_singleton .., fun d hd x hx => ?_⟩
    rw [List.mem_singleton.mp hx]
    exact hlast d ((mem_of_ordered h).mp (List.mem_append_right _ hd))

theorem Ordered.arrive (h : Ordered es calls line) (hseq : InSequence (es ++ arrival e)) :
    Ordered (es ++ arrival e) calls (line ++ arrival e) := by
  rcases he : IS_NOEVENT e with _ | _
  · simp only [arrival, he, Bool.false_eq_true, if_false] at hseq ⊢
    exact h.join hseq
  · simpa [arrival, he] using h

variable {cfg : Config} (hd : cfg.Default)

include hd in
theorem Ordered.step (h : Ordered es s.calls s.held) (hg : s.Good)
    (hw : WellFormed (es ++ arrival e)) (hseq : InSequence (es ++ arrival e))
    (hs : IS_EVENT e = true → e.serial ≠ 0) (hno : ¬ Overflows cfg s e) (hready : Ready s e) :
    Ordered (es ++ arrival e) (step cfg s e).calls (step cfg s e).held := by
  obtain ⟨-, s', line, ⟨-, hline⟩, hmoves, hadvances⟩ := step_moves hd hg hs hno
  rw [hline hready] at hmoves
  exact ((h.arrive hseq).moves hw hseq hmoves).advances hw hseq hadvances

include hd in
theorem Ordered.run (stream : List keyevent_t) (h : Ordered es s.calls s.held) (hg : s.Good)
    (hw : WellFormed (es ++ arrivals stream)) (hseq : InSequence (es ++ arrivals stream))
    (hn : Numbered stream)
    (hno : Along (action_tapping.step cfg) (fun s event => ¬ Overflows cfg s event) s stream)
    (hready : Along (action_tapping.step cfg) Ready s stream) :
    Ordered (es ++ arrivals stream) (stream.foldl (action_tapping.step cfg) s).calls
      (stream.foldl (action_tapping.step cfg) s).held := by
  induction stream generalizing es s with
  | nil => simpa [arrivals] using h
  | cons e stream ih =>
    rw [arrivals_cons, ← List.append_assoc] at hw hseq ⊢
    have hserial := hn e List.mem_cons_self
    have hseq' : InSequence (es ++ arrival e) := (List.pairwise_append.mp hseq).1
    exact ih (h.step hd hg hw.left hseq' hserial hno.1 hready.1)
      (step_moves hd hg hserial hno.1).1 hw hseq
      (fun e he => hn e (List.mem_cons_of_mem _ he)) hno.2 hready.2

end

theorem inSequence_numbers (stream : List keyevent_t) : InSequence (number stream) := by
  rw [InSequence, List.pairwise_iff_getElem]
  intro i j hi hj hij
  simp only [number, List.getElem_mapIdx]
  omega

theorem inSequence_number (stream : List keyevent_t) : InSequence (arrivals (number stream)) :=
  (inSequence_numbers stream).filter _

theorem ordered_zero : Ordered [] Tapping.zero.calls Tapping.zero.held := by
  refine ⟨fun key => rfl, rfl, ?_, .nil⟩
  intro pre post record tapping_key early hsplit
  simp [Tapping.zero] at hsplit

/-- In a run in which key events come only to an empty buffer or to a tapping key that waits,
the events of each key and the presses are handed over in their order, and only the release
of a key that was pressed before the tapping key goes ahead of an earlier event. -/
theorem a_ready_run_is_ordered {cfg : Config} (hd : cfg.Default) (stream : List keyevent_t)
    (hw : WellFormed (arrivals (number stream))) (hno : NoOverflow cfg (number stream))
    (hready : Along (step cfg) Ready .zero (number stream)) :
    Ordered (arrivals (number stream)) (run cfg stream).calls (run cfg stream).held := by
  have hseq := inSequence_number stream
  exact ordered_zero.run hd (number stream) good_zero hw hseq (numbered_number stream) hno hready

/-- A plain key is released while a mod-tap waits. -/
theorem a_release_passes_a_mod_tap :
    Ordered (arrivals (number [down 1 0 0, down 0 1 10, up 1 0 20, up 0 1 30]))
      (run board [down 1 0 0, down 0 1 10, up 1 0 20, up 0 1 30]).calls
      (run board [down 1 0 0, down 0 1 10, up 1 0 20, up 0 1 30]).held :=
  a_ready_run_is_ordered board_default _ (by decide) (by decide) (by decide)

/-- Two mod-taps go down at once. When the terms of both end, two plain keys go down
before the next tick, and the second is handed over first. -/
theorem a_press_overtakes_a_press :
    WellFormed (arrivals (number [down 0 1 0, down 0 2 0, down 1 0 200, down 1 1 200])) ∧
      NoOverflow board (number [down 0 1 0, down 0 2 0, down 1 0 200, down 1 1 200]) ∧
      (presses (run board [down 0 1 0, down 0 2 0, down 1 0 200, down 1 1 200]).handed).map
        keyevent_t.serial = [1, 2, 4, 3] := by
  decide

end keychron_qmk.action_tapping
