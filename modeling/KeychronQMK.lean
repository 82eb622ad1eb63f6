import KeychronQMK.Lib.Memory
import KeychronQMK.Lib.Ring
import KeychronQMK.Lib.Runs
import KeychronQMK.WearLeveling.Driver
import KeychronQMK.WearLeveling.Funs
import KeychronQMK.WearLeveling.LogEntries
import KeychronQMK.WearLeveling.Playback
import KeychronQMK.WearLeveling.Appends
import KeychronQMK.WearLeveling.FlatArray
import KeychronQMK.WearLeveling.Durability
import KeychronQMK.WearLeveling.TornEntries
import KeychronQMK.WearLeveling.Bounds
import KeychronQMK.Lib.Bitmap
import KeychronQMK.Debounce.Convergence
import KeychronQMK.Debounce.ChangeFlag
import KeychronQMK.Debounce.Scans
import KeychronQMK.Debounce.Lockout
import KeychronQMK.Report.Keys
import KeychronQMK.Report.Counters
import KeychronQMK.Report.Presence
import KeychronQMK.Report.ActionUtil
import KeychronQMK.Report.ChangeTracking
import KeychronQMK.Lib.Layout
import KeychronQMK.AnalogMatrix.Types
import KeychronQMK.AnalogMatrix.Profile
import KeychronQMK.AnalogMatrix.Eeconfig
import KeychronQMK.AnalogMatrix.Regions
import KeychronQMK.AnalogMatrix.Persistence
import KeychronQMK.AnalogMatrix.Actions
import KeychronQMK.AnalogMatrix.Coherence
import KeychronQMK.AnalogMatrix.Strokes
import KeychronQMK.AnalogMatrix.Indices
import KeychronQMK.AnalogMatrix.KeyStates
import KeychronQMK.AnalogMatrix.Socd
import KeychronQMK.AnalogMatrix.Packets
import KeychronQMK.AnalogMatrix.Calibrated
import KeychronQMK.Wireless.Acks
import KeychronQMK.Wireless.Events
import KeychronQMK.SnapClick.StuckKeys
import KeychronQMK.Keymap.SourceLayers
import KeychronQMK.Keymap.KeymapViews
import KeychronQMK.Via.PacketBounds
import KeychronQMK.Rgb.HostPackets
import KeychronQMK.Via.LightingSave
import KeychronQMK.Rgb.Task
import KeychronQMK.Rgb.Saved
import KeychronQMK.Lib.SwapRemove
import KeychronQMK.Tapping.Funs
import KeychronQMK.Tapping.Conservation
import KeychronQMK.Tapping.Ordering
import KeychronQMK.Tapping.Balance
import KeychronQMK.Tapping.PermissiveHold
import KeychronQMK.Tapping.RegisteredTaps
import KeychronQMK.Split.SlaveMatrix
import KeychronQMK.Split.Sends
import KeychronQMK.Encoder.Quadrature
import KeychronQMK.Split.Encoders
import KeychronQMK.Split.Rpc
import KeychronQMK.Process.Secure
import KeychronQMK.Process.RepeatKey
import KeychronQMK.Eeprom.Funs
import KeychronQMK.Eeprom.WriteLog
import KeychronQMK.Eeprom.FlatArray
import KeychronQMK.Process.Keyboard
import KeychronQMK.Process.AutoShift
import KeychronQMK.Process.ShiftsReturned
import KeychronQMK.Process.KeyOverride
import KeychronQMK.Process.OverridesCleared
import KeychronQMK.WearLeveling.LockBalance
import KeychronQMK.Painter.Codec
import KeychronQMK.Painter.Rle
import KeychronQMK.Painter.ImageBytes
import KeychronQMK.Wireless.Ckbt51
import KeychronQMK.Wireless.Ckbt51Stream
import KeychronQMK.Keymap.LayerState
import KeychronQMK.Process.OneShotLayer
import KeychronQMK.Process.LayerLock
import KeychronQMK.Lib.Replace
import KeychronQMK.KeymapC.Generate
import KeychronQMK.KeymapC.GetLayers
import KeychronQMK.Lib.Trie
import KeychronQMK.Autocorrect.Serialize
import KeychronQMK.Autocorrect.Walk
import KeychronQMK.Autocorrect.Firmware
import KeychronQMK.Autocorrect.Corrections
import KeychronQMK.Autocorrect.Agreement
import KeychronQMK.Painter.Qgf
import KeychronQMK.Painter.DrawImage
import KeychronQMK.Painter.DecodeLoops
import KeychronQMK.Painter.SafeDrawing
import KeychronQMK.AnalogMatrix.RapidTrigger
import KeychronQMK.AnalogMatrix.TravelCommands
import KeychronQMK.AnalogMatrix.Curve
import KeychronQMK.AnalogMatrix.Sqrt
import KeychronQMK.AnalogMatrix.Joystick
import KeychronQMK.AnalogMatrix.CalibrationSamples
import KeychronQMK.AnalogMatrix.Okmc
import KeychronQMK.AnalogMatrix.EepromHe
import KeychronQMK.Wireless.PowerSettings
import KeychronQMK.Wireless.Framing
import KeychronQMK.SnapClick.Resolution
import KeychronQMK.Combo.Prepared
import KeychronQMK.WearLeveling.Recovery
import KeychronQMK.SendString.Lookups
import KeychronQMK.Keymap.MacroPlayback
import KeychronQMK.Deferred.Timing
import KeychronQMK.Process.MacroPlays
import KeychronQMK.Process.DanceLives
import KeychronQMK.Unicode.Typing
import KeychronQMK.Process.SecureKeys
import KeychronQMK.Eeprom.PowerLoss
import KeychronQMK.Autocorrect.Words
import KeychronQMK.Painter.Truncated
import KeychronQMK.Sequencer.NotesEnd
import KeychronQMK.Process.CapsWord
import KeychronQMK.Matrix.Ghosts
import KeychronQMK.Wireless.DfuBridge
import KeychronQMK.Factory.Reset
import KeychronQMK.Wireless.Pairing
import KeychronQMK.Rgb.Hits
import KeychronQMK.Lib.Recent
import KeychronQMK.Rgb.Nested
import KeychronQMK.Rgb.EffectLists
import KeychronQMK.Oled.Frame
import KeychronQMK.Painter.Animations
import KeychronQMK.Painter.Rects
import KeychronQMK.Lib.DigitalLine
import KeychronQMK.Painter.Lines
import KeychronQMK.Mouse.Kinetic
import KeychronQMK.KeymapC.Macros
import KeychronQMK.Process.Steno
import KeychronQMK.Lib.DigitalCurve
import KeychronQMK.Lib.EllipseArc
import KeychronQMK.Painter.Rounds
import KeychronQMK.Painter.Arcs
