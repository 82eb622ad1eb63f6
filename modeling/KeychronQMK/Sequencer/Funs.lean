-- The step sequencer (`quantum/sequencer/sequencer.c`): the commands, and the task
-- that goes through the phases of a step and sends the notes of its tracks.
import Mathlib.Tactic.Common

namespace keychron_qmk.sequencer

/-! ## The data -/

structure build where
  SEQUENCER_STEPS : Nat
  SEQUENCER_TRACKS : Nat
  SEQUENCER_TRACK_THROTTLE : Nat
  SEQUENCER_PHASE_RELEASE_TIMEOUT : Nat
  midi_compute_note : UInt16 → UInt8
  tracks_pos : 0 < SEQUENCER_TRACKS

structure sequencer_config_t where
  enabled : Bool
  steps : Nat → UInt8
  track_notes : Nat → UInt16
  tempo : UInt8
  resolution : Int

inductive sequencer_phase_t where
  | ATTACK
  | RELEASE
  | PAUSE
  deriving DecidableEq

structure sequencer_state_t where
  active_tracks : UInt8
  current_track : Nat
  current_step : Nat
  timer : UInt16
  phase : sequencer_phase_t

/-- What is sent to the MIDI device, and the switch-off. A step that the sequencer begins
is a turn. -/
inductive event where
  | noteon (turn : Nat) (note : UInt8)
  | noteoff (note : UInt8)
  | stopped
  deriving DecidableEq

/-- The sequencer. `turn`, `started` (the notes of the tracks that have been started in this
turn, and not yet gone through the release) and `log` are history. -/
structure sequencer_t where
  config : sequencer_config_t
  state : sequencer_state_t
  turn : Nat
  started : Nat → Option UInt8
  log : List event

def init : sequencer_t where
  config := ⟨false, fun _ => 0, fun _ => 0, 60, 2⟩
  state := ⟨0, 0, 0, 0, .ATTACK⟩
  turn := 0
  started := fun _ => none
  log := []

/-! ## Commands -/

section

variable (b : build) (s : sequencer_t)

def sequencer_on (now : UInt16) : sequencer_t :=
  { s with
    config := { s.config with enabled := true }
    state := { s.state with current_track := 0, current_step := 0, timer := now, phase := .ATTACK }
    turn := s.turn + 1 }

def sequencer_off : sequencer_t :=
  { s with
    config := { s.config with enabled := false }
    state := { s.state with current_step := 0 }
    log := s.log ++ [.stopped] }

def sequencer_toggle (now : UInt16) : sequencer_t :=
  if s.config.enabled then sequencer_off s else sequencer_on s now

def sequencer_set_track_notes (track_notes : Nat → UInt16) : sequencer_t :=
  { s with config := { s.config with
      track_notes := fun i => if i < b.SEQUENCER_TRACKS then track_notes i else
        s.config.track_notes i } }

def is_sequencer_track_active (track : Nat) : Bool := s.state.active_tracks.toNat.testBit track

def sequencer_set_track_activation (track : Nat) (value : Bool) : sequencer_t :=
  let bit := UInt8.ofNat (1 <<< track)
  { s with state := { s.state with
      active_tracks :=
        if value then s.state.active_tracks ||| bit else s.state.active_tracks &&& ~~~bit } }

def sequencer_toggle_track_activation (track : Nat) : sequencer_t :=
  sequencer_set_track_activation s track (!is_sequencer_track_active s track)

def sequencer_toggle_single_active_track (track : Nat) : sequencer_t :=
  { s with state := { s.state with
      active_tracks := if is_sequencer_track_active s track then 0 else UInt8.ofNat (1 <<< track) } }

def is_sequencer_step_on (step : Nat) : Bool :=
  step < b.SEQUENCER_STEPS && s.config.steps step &&& s.state.active_tracks > 0

def is_sequencer_step_on_for_track (step track : Nat) : Bool :=
  step < b.SEQUENCER_STEPS && (s.config.steps step).toNat.testBit track

def set_tracks (value : Bool) (tracks : UInt8) : UInt8 :=
  if value then tracks ||| s.state.active_tracks else tracks &&& ~~~s.state.active_tracks

def sequencer_set_step (step : Nat) (value : Bool) : sequencer_t :=
  if step < b.SEQUENCER_STEPS then
    { s with config := { s.config with
        steps := fun i => if i = step then set_tracks s value (s.config.steps i) else
          s.config.steps i } }
  else s

def sequencer_toggle_step (step : Nat) : sequencer_t :=
  sequencer_set_step b s step (!is_sequencer_step_on b s step)

def sequencer_set_all_steps (value : Bool) : sequencer_t :=
  { s with config := { s.config with
      steps := fun i => if i < b.SEQUENCER_STEPS then set_tracks s value (s.config.steps i) else
        s.config.steps i } }

def sequencer_set_tempo (tempo : UInt8) : sequencer_t :=
  if tempo > 0 then { s with config := { s.config with tempo } } else s

def sequencer_increase_tempo : sequencer_t :=
  if s.config.tempo < 255 then sequencer_set_tempo s (s.config.tempo + 1) else s

def sequencer_decrease_tempo : sequencer_t := sequencer_set_tempo s (s.config.tempo - 1)

def SEQUENCER_RESOLUTIONS : Int := 9

def sequencer_set_resolution (resolution : Int) : sequencer_t :=
  if 0 ≤ resolution ∧ resolution < SEQUENCER_RESOLUTIONS then
    { s with config := { s.config with resolution } }
  else s

def sequencer_increase_resolution : sequencer_t :=
  sequencer_set_resolution s (s.config.resolution + 1)

def sequencer_decrease_resolution : sequencer_t :=
  sequencer_set_resolution s (s.config.resolution - 1)

end

/-! ## Durations -/

def get_beat_duration (tempo : UInt8) : UInt16 :=
  if tempo = 0 then 1000 else UInt16.ofNat (60000 / tempo.toNat)

def get_step_duration (tempo : UInt8) (resolution : Int) : UInt16 :=
  let binary_steps := 2 <<< (resolution / 2).toNat
  let binary_step_duration := UInt16.ofNat ((get_beat_duration tempo).toNat * 4 / binary_steps)
  if resolution % 2 = 0 then binary_step_duration
  else UInt16.ofNat (2 * binary_step_duration.toNat / 3)

def timer_elapsed (now last : UInt16) : Nat := (now - last).toNat

/-! ## The task -/

section

variable (b : build) (now : UInt16) (s : sequencer_t)

def note_of (track : Nat) : Option UInt8 :=
  if is_sequencer_step_on_for_track b s s.state.current_step track then
    some (b.midi_compute_note (s.config.track_notes track))
  else none

def set_started (track : Nat) (note : Option UInt8) : Nat → Option UInt8 :=
  fun i => if i = track then note else s.started i

def sequencer_phase_attack : sequencer_t :=
  let timer := if s.state.current_track = 0 then now else s.state.timer
  let s := { s with state := { s.state with timer } }
  if timer_elapsed now timer < s.state.current_track * b.SEQUENCER_TRACK_THROTTLE then s
  else
    let note := note_of b s s.state.current_track
    let s := { s with
      started := set_started s s.state.current_track note
      log := s.log ++ (note.map (event.noteon s.turn)).toList }
    if s.state.current_track < b.SEQUENCER_TRACKS - 1 then
      { s with state := { s.state with current_track := s.state.current_track + 1 } }
    else { s with state := { s.state with phase := .RELEASE } }

def sequencer_phase_release : sequencer_t :=
  if timer_elapsed now s.state.timer <
      b.SEQUENCER_PHASE_RELEASE_TIMEOUT + s.state.current_track * b.SEQUENCER_TRACK_THROTTLE then s
  else
    let s := { s with
      started := set_started s s.state.current_track none
      log := s.log ++ ((note_of b s s.state.current_track).map event.noteoff).toList }
    if s.state.current_track > 0 then
      { s with state := { s.state with current_track := s.state.current_track - 1 } }
    else { s with state := { s.state with phase := .PAUSE } }

def sequencer_phase_pause : sequencer_t :=
  if timer_elapsed now s.state.timer <
      (get_step_duration s.config.tempo s.config.resolution).toNat then s
  else
    { s with
      state := { s.state with
        current_step := (s.state.current_step + 1) % b.SEQUENCER_STEPS
        phase := .ATTACK }
      turn := s.turn + 1 }

def sequencer_task : sequencer_t :=
  if !s.config.enabled then s
  else
    let s := if s.state.phase = .PAUSE then sequencer_phase_pause b now s else s
    let s := if s.state.phase = .RELEASE then sequencer_phase_release b now s else s
    if s.state.phase = .ATTACK then sequencer_phase_attack b now s else s

end

/-! ## Runs -/

inductive input where
  | on (now : UInt16)
  | off
  | toggle (now : UInt16)
  | set_track_notes (track_notes : Nat → UInt16)
  | set_track_activation (track : Nat) (value : Bool)
  | toggle_track_activation (track : Nat)
  | toggle_single_active_track (track : Nat)
  | set_step (step : Nat) (value : Bool)
  | toggle_step (step : Nat)
  | set_all_steps (value : Bool)
  | set_tempo (tempo : UInt8)
  | increase_tempo
  | decrease_tempo
  | set_resolution (resolution : Int)
  | increase_resolution
  | decrease_resolution
  | task (now : UInt16)

def step (b : build) (s : sequencer_t) : input → sequencer_t
  | .on now => sequencer_on s now
  | .off => sequencer_off s
  | .toggle now => sequencer_toggle s now
  | .set_track_notes track_notes => sequencer_set_track_notes b s track_notes
  | .set_track_activation track value => sequencer_set_track_activation s track value
  | .toggle_track_activation track => sequencer_toggle_track_activation s track
  | .toggle_single_active_track track => sequencer_toggle_single_active_track s track
  | .set_step step value => sequencer_set_step b s step value
  | .toggle_step step => sequencer_toggle_step b s step
  | .set_all_steps value => sequencer_set_all_steps b s value
  | .set_tempo tempo => sequencer_set_tempo s tempo
  | .increase_tempo => sequencer_increase_tempo s
  | .decrease_tempo => sequencer_decrease_tempo s
  | .set_resolution resolution => sequencer_set_resolution s resolution
  | .increase_resolution => sequencer_increase_resolution s
  | .decrease_resolution => sequencer_decrease_resolution s
  | .task now => sequencer_task b now s

/-! ## Ranges -/

/-- The settings and the position are those that the durations and the tables are made for. -/
structure InRange (b : build) (s : sequencer_t) : Prop where
  tempo : 0 < s.config.tempo
  resolution : 0 ≤ s.config.resolution ∧ s.config.resolution < SEQUENCER_RESOLUTIONS
  current_track : s.state.current_track < b.SEQUENCER_TRACKS
  current_step : s.state.current_step < b.SEQUENCER_STEPS

section

variable {b : build} {s : sequencer_t} (h : InRange b s)

include h

theorem InRange.set_tempo (tempo : UInt8) : InRange b (sequencer_set_tempo s tempo) := by
  unfold sequencer_set_tempo
  split
  · rename_i hpos
    exact ⟨hpos, h.resolution, h.current_track, h.current_step⟩
  · exact h

theorem InRange.set_resolution (resolution : Int) :
    InRange b (sequencer_set_resolution s resolution) := by
  unfold sequencer_set_resolution
  split
  · rename_i hin
    exact ⟨h.tempo, hin, h.current_track, h.current_step⟩
  · exact h

theorem InRange.off : InRange b (sequencer_off s) :=
  ⟨h.tempo, h.resolution, h.current_track, Nat.zero_lt_of_lt h.current_step⟩

theorem InRange.on (now : UInt16) : InRange b (sequencer_on s now) :=
  ⟨h.tempo, h.resolution, b.tracks_pos, Nat.zero_lt_of_lt h.current_step⟩

theorem InRange.pause (now : UInt16) : InRange b (sequencer_phase_pause b now s) := by
  unfold sequencer_phase_pause
  split
  · exact h
  · exact ⟨h.tempo, h.resolution, h.current_track,
      Nat.mod_lt _ (Nat.zero_lt_of_lt h.current_step)⟩

theorem InRange.release (now : UInt16) : InRange b (sequencer_phase_release b now s) := by
  have htrack := h.current_track
  unfold sequencer_phase_release
  split
  · exact h
  dsimp only
  split
  · exact ⟨h.tempo, h.resolution, Nat.lt_of_le_of_lt (Nat.sub_le _ 1) htrack, h.current_step⟩
  · exact ⟨h.tempo, h.resolution, htrack, h.current_step⟩

theorem InRange.attack (now : UInt16) : InRange b (sequencer_phase_attack b now s) := by
  have htrack := h.current_track
  unfold sequencer_phase_attack
  dsimp only
  generalize (if s.state.current_track = 0 then now else s.state.timer) = timer
  split
  · exact ⟨h.tempo, h.resolution, htrack, h.current_step⟩
  split
  · rename_i hless
    exact ⟨h.tempo, h.resolution, Nat.add_lt_of_lt_sub hless, h.current_step⟩
  · exact ⟨h.tempo, h.resolution, htrack, h.current_step⟩

theorem InRange.task (now : UInt16) : InRange b (sequencer_task b now s) := by
  unfold sequencer_task
  split
  · exact h
  dsimp only
  have hpause : InRange b (if s.state.phase = .PAUSE then sequencer_phase_pause b now s else s) := by
    split
    · exact h.pause now
    · exact h
  generalize (if s.state.phase = .PAUSE then sequencer_phase_pause b now s else s) = t at hpause ⊢
  have hrelease : InRange b
      (if t.state.phase = .RELEASE then sequencer_phase_release b now t else t) := by
    split
    · exact hpause.release now
    · exact hpause
  generalize (if t.state.phase = .RELEASE then sequencer_phase_release b now t else t) = u
    at hrelease ⊢
  split
  · exact hrelease.attack now
  · exact hrelease

theorem InRange.step (x : input) : InRange b (step b s x) := by
  have hsame {t : sequencer_t} (htempo : t.config.tempo = s.config.tempo)
      (hresolution : t.config.resolution = s.config.resolution)
      (htrack : t.state.current_track = s.state.current_track)
      (hstep : t.state.current_step = s.state.current_step) : InRange b t :=
    ⟨htempo ▸ h.tempo, hresolution ▸ h.resolution, htrack ▸ h.current_track,
      hstep ▸ h.current_step⟩
  have hset (step : Nat) (value : Bool) : InRange b (sequencer_set_step b s step value) := by
    unfold sequencer_set_step
    split
    · exact hsame rfl rfl rfl rfl
    · exact h
  cases x with
  | on now => exact h.on now
  | off => exact h.off
  | toggle now =>
    change InRange b (if s.config.enabled then sequencer_off s else sequencer_on s now)
    split
    · exact h.off
    · exact h.on now
  | set_step step value => exact hset step value
  | toggle_step step => exact hset step _
  | set_tempo tempo => exact h.set_tempo tempo
  | increase_tempo =>
    change InRange b (if s.config.tempo < 255 then sequencer_set_tempo s (s.config.tempo + 1) else s)
    split
    · exact h.set_tempo _
    · exact h
  | decrease_tempo => exact h.set_tempo _
  | set_resolution resolution => exact h.set_resolution resolution
  | increase_resolution => exact h.set_resolution _
  | decrease_resolution => exact h.set_resolution _
  | task now => exact h.task now
  | _ => exact hsame rfl rfl rfl rfl

end

end keychron_qmk.sequencer
