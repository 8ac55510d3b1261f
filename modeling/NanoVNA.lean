import NanoVNA.GuardedRun
import NanoVNA.Word32
import NanoVNA.DeviceState
import NanoVNA.SweepGrid
import NanoVNA.SweepFrequency
import NanoVNA.Convergents
import NanoVNA.Si5351Registers
import NanoVNA.BandStrategy
import NanoVNA.BandSelection
import NanoVNA.Si5351
import NanoVNA.Si5351Chip
import NanoVNA.Si5351Groups
import NanoVNA.Si5351Ratios
import NanoVNA.Si5351Range
import NanoVNA.Si5351Format
import NanoVNA.Si5351Encoding
import NanoVNA.Si5351Planned
import NanoVNA.Si5351Requests
import NanoVNA.Si5351Cache
import NanoVNA.Si5351ClkCache
import NanoVNA.Si5351History
import NanoVNA.Si5351Independence
import NanoVNA.Si5351Configuration
import NanoVNA.Calibration
import NanoVNA.CalibrationTerms
import NanoVNA.CalibrationCollect
import NanoVNA.CalibrationComplex
import NanoVNA.ErrorModel
import NanoVNA.CalibrationInversion
import NanoVNA.CalibrationLedger
import NanoVNA.CalibrationSessions
import NanoVNA.CalibrationPoints
import NanoVNA.InterpolationFlag
import NanoVNA.EventBus
import NanoVNA.FrequencyTable
import NanoVNA.EventBusPublish
import NanoVNA.EventBusCalls
import NanoVNA.EventBusHistory
import NanoVNA.EventBusService
import NanoVNA.SweepMachine
import NanoVNA.SweepInvariant
import NanoVNA.SweepSteps
import NanoVNA.SweepUninterrupted
import NanoVNA.ChannelIsolation
import NanoVNA.SweepSlices
import NanoVNA.Capture
import NanoVNA.SweepSnapshot
import NanoVNA.SnapshotConsistency
import NanoVNA.ShellDeferred
import NanoVNA.TaskScheduler
import NanoVNA.TaskOccupancy
import NanoVNA.ShellExactlyOnce
import NanoVNA.Markers
import NanoVNA.MarkerPlacement
import NanoVNA.MarkerReferences
import NanoVNA.ScanCommand
import NanoVNA.CheckedArithmetic
import NanoVNA.SweepDivisions
import NanoVNA.DivisionSafety
import NanoVNA.ConfigService
import NanoVNA.InjectiveFold
import NanoVNA.Autosave
import NanoVNA.ConfigIntegrity
import NanoVNA.BackupRegisters
import NanoVNA.SettingsRestored
import NanoVNA.StoredSweep
import NanoVNA.BandModes
import NanoVNA.ScanText
import NanoVNA.ScanLines
import NanoVNA.RecallRefinement
import NanoVNA.CommandFiles
import NanoVNA.PrintedIntegers
import NanoVNA.PackBits
import NanoVNA.ScreenColors
import NanoVNA.SpiBuffer
import NanoVNA.TiffFiles
import NanoVNA.TiffOffsets
import NanoVNA.FloatText
import NanoVNA.KeywordCommands
import NanoVNA.LineParser
import NanoVNA.SnpFiles
import NanoVNA.Bresenham
import NanoVNA.TraceCells
import NanoVNA.DirtyCells
import NanoVNA.DrawAll
import NanoVNA.RedrawRequests
import NanoVNA.ArgumentBuffer
import NanoVNA.ShellCommands
import NanoVNA.ShellIsolation
import NanoVNA.ApproximateFraction
import NanoVNA.CalibrationSegments
import NanoVNA.HarmonicLevels
import NanoVNA.HarmonicSegments
import NanoVNA.SweepTimeouts
import NanoVNA.CollectAtomicity
import NanoVNA.SinCosTable
import NanoVNA.Readouts
import NanoVNA.ReflectionReadouts
import NanoVNA.FixtureReadouts
import NanoVNA.ComponentReadouts
import NanoVNA.GroupDelay
import NanoVNA.ChartPositions
import NanoVNA.FastFourier
import NanoVNA.DspBackend
import NanoVNA.DspOverflow
import NanoVNA.CaptureTimes
import NanoVNA.MarkerUpdates
import NanoVNA.TaskHandles
import NanoVNA.TaskRecycling
import NanoVNA.LineWrites
import NanoVNA.SnpLoading
import NanoVNA.CalFiles
import NanoVNA.PackInPlace
import NanoVNA.LinePointers
import NanoVNA.LineRuns
import NanoVNA.CommandNames
import NanoVNA.LineEditor
import NanoVNA.FloatNumerals
import NanoVNA.KeypadInput
import NanoVNA.KeypadUnits
import NanoVNA.LeverFrequency
import NanoVNA.FrequencyText
import NanoVNA.FrequencyCopy
import NanoVNA.FrequencyDigits
import NanoVNA.PrintBuffer
import NanoVNA.PrintFloats
import NanoVNA.PrintFormat
import NanoVNA.PrintRuns
import NanoVNA.PlotPrintf
import NanoVNA.LeastSquares
import NanoVNA.Regression
import NanoVNA.StepDecades
import NanoVNA.LcMatch
import NanoVNA.SampleSearch
import NanoVNA.CrossingFrequency
import NanoVNA.PeakSearch
import NanoVNA.FileBrowser
import NanoVNA.AutoScale
import NanoVNA.BinaryFormat
import NanoVNA.VnaSqrt
import NanoVNA.RedrawMarking
import NanoVNA.AutosaveTiming
import NanoVNA.MeasurementPipeline
import NanoVNA.ReferenceImpedance
import NanoVNA.Smoothing
import NanoVNA.WordLists
import NanoVNA.Renormalization
import NanoVNA.ByteBus
import NanoVNA.CellTransfer
import NanoVNA.KaiserWindow
import NanoVNA.SdBlockStore
import NanoVNA.TimeDomain
import NanoVNA.BmpFiles
import NanoVNA.GridLayers
import NanoVNA.CellPictures
import NanoVNA.LcdLine
import NanoVNA.UiRequests
import NanoVNA.DspAccuracy
import NanoVNA.FlashDurability
import NanoVNA.MenuButtons
import NanoVNA.TouchAccuracy
