import NanoVNA.KeypadInput
import NanoVNA.PlotLayout

namespace NanoVNA.MenuTree

open NanoVNA.DeviceState NanoVNA.KeypadInput

inductive TraceType
  | logmag | phase | delay | smith | polar | linear | swr | real | imag
  | r | x | z | zphase
  | g | b | y | rp | xp
  | cs | ls | cp | lp
  | q
  | rser | xser | zser
  | rsh | xsh | zsh
  | qs21
  deriving DecidableEq

inductive Channel
  | s11
  | s21
  deriving DecidableEq

/-- `config` of `menu_config_cb` -/
inductive MenuConfig
  | touchCal
  | touchTest
  | version
  | save
  | reset
  deriving DecidableEq

inductive Measure
  | none
  | lcMath
  | shuntLc
  | seriesLc
  | seriesXtal
  | filter
  | s11Cable
  | s11Resonance
  deriving DecidableEq

inductive CalType
  | load
  | open
  | short
  | thru
  | isoln
  deriving DecidableEq

inductive SweepType
  | start
  | stop
  | center
  | span
  | edelay
  deriving DecidableEq

/-- The functions that menu items refer to, with the data that decides what they do to the menu. -/
inductive Callback
  | menuPauseAcb
  | menuBackCb
  | menuKeyboardAcb (mode : KeypadMode)
  | menuPointsSelAcb
  | menuPointsAcb
  | menuMarkerOpCb (data : SweepType)
  | menuMarkerSearchDirCb
  | menuMarkerTrackingAcb
  | menuMarkerSelAcb
  | menuMarkerDisableAllCb
  | menuMarkerDeltaAcb
  | menuMarkerSelectCb
  | menuVnaModeAcb
  | menuTraceAcb
  | menuStoredTraceAcb
  | menuTracesAcb
  | menuMarkerSmithAcb
  | menuFormatAcb (channel : Channel) (format : TraceType)
  | menuChannelAcb
  | menuScaleKeyboardAcb (mode : KeypadMode)
  | menuAutoScaleCb
  | menuTransformWindowAcb
  | menuTransformAcb
  | menuTransformFilterAcb
  | menuBandwidthAcb
  | menuBandwidthSelAcb
  | menuSmoothAcb
  | menuSmoothSelAcb
  | menuMeasureAcb (data : Measure)
  | menuMeasureCb
  | menuCalopAcb (data : CalType)
  | menuCalEnhAcb
  | menuCaldoneCb (data : Bool)
  | menuCalResetCb
  | menuCalRangeAcb
  | menuCalApplyAcb
  | menuPowerAcb
  | menuPowerSelAcb
  | menuRecallAcb
  | menuRecallSubmenuCb
  | menuSaveAcb
  | menuSaveSubmenuCb
  | menuConfigCb (data : MenuConfig)
  | menuDfuCb
  | menuOffsetAcb
  | menuOffsetSelAcb
  | menuBrightnessAcb
  | menuBandSelAcb
  | menuRtcOutAcb
  | menuSdcardFormatCb
  | menuSdcardBrowseCb
  | menuSdcardCb
  deriving DecidableEq

/-- The arrays of menu items; `menuDynamicBuffer` is the one that callbacks fill. -/
inductive Menu
  | menuTop
  | menuBack
  | menuCalMenu
  | menuCalWizard
  | menuCalOptions
  | menuCalManagement
  | menuStateIo
  | menuStimulus
  | menuDisplay
  | menuTrace
  | menuFormatS11
  | menuFormat2
  | menuFormat3
  | menuFormatS21
  | menuFormat4
  | menuScale
  | menuMarker
  | menuSearch
  | menuOperations
  | menuMeasureTools
  | menuTransform
  | menuMeasure
  | menuMeasureLc
  | menuMeasureCable
  | menuMeasureResonance
  | menuMeasureS21
  | menuMeasureFilter
  | menuSdcard
  | menuSdcardBrowse
  | menuSystem
  | menuRtc
  | menuDevice
  | menuDfu
  | menuDevice1
  | menuClear
  | menuOffset
  | menuDynamicBuffer
  deriving DecidableEq

/-- `menuitem_t`; the labels are left out. -/
inductive MenuItem
  | next (reference : Option Menu)
  | submenu (reference : Menu)
  | callback (reference : Callback)
  | advCallback (reference : Callback)
  deriving DecidableEq

open Menu MenuItem Callback

def formatItems (channel : Channel) (formats : List TraceType) : List MenuItem :=
  formats.map fun format => advCallback (menuFormatAcb channel format)

def measureItems (modes : List Measure) : List MenuItem :=
  modes.map fun mode => advCallback (menuMeasureAcb mode)

def menuArray (board : Board) : Menu → List MenuItem
  | menuTop => [submenu menuCalMenu, submenu menuStimulus, submenu menuDisplay,
      submenu menuMeasureTools, submenu menuSdcard, submenu menuSystem, advCallback menuPauseAcb,
      next none]
  | menuBack => [callback menuBackCb, next none]
  | menuCalMenu => [submenu menuCalWizard, submenu menuCalOptions, submenu menuCalManagement,
      callback menuSaveSubmenuCb, callback menuRecallSubmenuCb, next menuBack]
  | menuCalWizard => [advCallback (menuCalopAcb .open), advCallback (menuCalopAcb .short),
      advCallback (menuCalopAcb .load), advCallback (menuCalopAcb .isoln),
      advCallback (menuCalopAcb .thru), callback (menuCaldoneCb false),
      callback (menuCaldoneCb true), next menuBack]
  | menuCalOptions => [advCallback menuCalRangeAcb, advCallback menuPowerSelAcb,
      advCallback menuCalEnhAcb, advCallback (menuKeyboardAcb .calLoadR), next menuBack]
  | menuCalManagement => [advCallback menuCalApplyAcb, callback menuCalResetCb, next menuBack]
  | menuStateIo => [callback menuSaveSubmenuCb, callback menuRecallSubmenuCb, next menuBack]
  | menuStimulus => [advCallback (menuKeyboardAcb .start), advCallback (menuKeyboardAcb .stop),
      advCallback (menuKeyboardAcb .center), advCallback (menuKeyboardAcb .span),
      advCallback (menuKeyboardAcb .cw), advCallback (menuKeyboardAcb .step),
      advCallback (menuKeyboardAcb .var), advCallback menuPointsSelAcb, next menuBack]
  | menuDisplay => [advCallback menuTracesAcb, submenu menuFormatS11, submenu menuFormatS21,
      advCallback menuChannelAcb, submenu menuScale, submenu menuMarker, next menuBack]
  | menuTrace => [advCallback menuTraceAcb, advCallback menuTraceAcb, advCallback menuTraceAcb,
      advCallback menuTraceAcb, advCallback menuStoredTraceAcb, advCallback menuVnaModeAcb,
      advCallback menuVnaModeAcb, next menuBack]
  | menuFormatS11 => formatItems .s11 [.logmag, .phase, .delay, .smith, .swr, .r, .x, .z] ++
      [submenu menuFormat2, next menuBack]
  | menuFormat2 => formatItems .s11 [.polar, .linear, .real, .imag, .q, .g, .b, .y] ++
      [submenu menuFormat3, next menuBack]
  | menuFormat3 => formatItems .s11 [.zphase, .cs, .ls, .rp, .xp, .cp, .lp] ++ [next menuBack]
  | menuFormatS21 =>
      formatItems .s21 [.logmag, .phase, .delay, .smith, .polar, .linear, .real, .imag] ++
        [submenu menuFormat4, next menuBack]
  | menuFormat4 => formatItems .s21 [.rser, .xser, .zser, .rsh, .xsh, .zsh, .qs21] ++
      [next menuBack]
  | menuScale => [callback menuAutoScaleCb, advCallback (menuScaleKeyboardAcb .top),
      advCallback (menuScaleKeyboardAcb .bottom), advCallback (menuScaleKeyboardAcb .scale),
      advCallback (menuScaleKeyboardAcb .refpos), advCallback (menuKeyboardAcb .edelay),
      advCallback (menuKeyboardAcb .s21Offset), next menuBack]
  | menuMarker => [callback menuMarkerSelectCb, submenu menuSearch, submenu menuOperations,
      advCallback menuMarkerDeltaAcb, next menuBack]
  | menuSearch => [advCallback menuVnaModeAcb, advCallback menuMarkerTrackingAcb,
      callback menuMarkerSearchDirCb, callback menuMarkerSearchDirCb, next menuBack]
  | menuOperations => [callback (menuMarkerOpCb .start), callback (menuMarkerOpCb .stop),
      callback (menuMarkerOpCb .center), callback (menuMarkerOpCb .span),
      callback (menuMarkerOpCb .edelay), next menuBack]
  | menuMeasureTools => [submenu menuTransform, advCallback menuSmoothSelAcb,
      callback menuMeasureCb, advCallback menuBandwidthSelAcb, advCallback (menuKeyboardAcb .zPort),
      next menuBack]
  | menuTransform => [advCallback menuTransformAcb, advCallback menuTransformFilterAcb,
      advCallback menuTransformFilterAcb, advCallback menuTransformFilterAcb,
      advCallback menuTransformWindowAcb, advCallback (menuKeyboardAcb .velocityFactor),
      next menuBack]
  | menuMeasure => measureItems [.none, .lcMath, .s11Cable, .s11Resonance, .shuntLc, .seriesLc,
      .seriesXtal, .filter] ++ [next menuBack]
  | menuMeasureLc => measureItems [.none, .lcMath] ++ [next menuBack]
  | menuMeasureCable => measureItems [.none, .s11Cable] ++
      [advCallback (menuKeyboardAcb .velocityFactor), advCallback (menuKeyboardAcb .actualCableLen),
        next menuBack]
  | menuMeasureResonance => measureItems [.none, .s11Resonance] ++ [next menuBack]
  | menuMeasureS21 => measureItems [.none, .shuntLc, .seriesLc, .seriesXtal] ++
      [advCallback (menuKeyboardAcb .measureR), next menuBack]
  | menuMeasureFilter => measureItems [.none, .filter] ++ [next menuBack]
  | menuSdcard => [submenu menuSdcardBrowse, callback menuSdcardCb, callback menuSdcardCb,
      callback menuSdcardCb, callback menuSdcardCb, callback menuSdcardFormatCb,
      advCallback menuVnaModeAcb, advCallback menuVnaModeAcb, next menuBack]
  | menuSdcardBrowse => [callback menuSdcardBrowseCb, callback menuSdcardBrowseCb,
      callback menuSdcardBrowseCb, callback menuSdcardBrowseCb, next menuBack]
  | menuSystem => [callback (menuConfigCb .touchCal), callback (menuConfigCb .touchTest)] ++
      (if board = .f303 then [advCallback menuBrightnessAcb] else []) ++
      [callback (menuConfigCb .save), callback (menuConfigCb .version), submenu menuRtc,
        submenu menuDevice, next menuBack]
  | menuRtc => [advCallback (menuKeyboardAcb .rtcDate), advCallback (menuKeyboardAcb .rtcTime),
      advCallback (menuKeyboardAcb .rtcCal), advCallback menuRtcOutAcb, next menuBack]
  | menuDevice => [advCallback (menuKeyboardAcb .threshold), advCallback (menuKeyboardAcb .xtal),
      advCallback (menuKeyboardAcb .vbat), advCallback menuOffsetSelAcb,
      advCallback menuVnaModeAcb, submenu menuDfu, submenu menuDevice1, next menuBack]
  | menuDfu => [callback menuDfuCb, next menuBack]
  | menuDevice1 => [advCallback menuBandSelAcb, advCallback menuVnaModeAcb,
      advCallback menuVnaModeAcb, submenu menuClear, next menuBack]
  | menuClear => [callback (menuConfigCb .reset), next menuBack]
  | menuOffset => List.replicate 8 (advCallback menuOffsetAcb) ++ [next menuBack]
  | menuDynamicBuffer => []

inductive Builder
  | menuBuildPointsMenu
  | menuBuildMarkerSelectMenu
  | menuBuildMarkerSmithMenu (channel : Channel)
  | menuBuildBandwidthMenu
  | menuBuildSmoothMenu
  | menuBuildPowerMenu
  | menuBuildRecallMenu
  | menuBuildSaveMenu
  deriving DecidableEq

def stateSlots : Board → Nat
  | .f072 => 4
  | .f303 => 7

open Builder

def built (board : Board) : Builder → List MenuItem
  | menuBuildPointsMenu => advCallback (menuKeyboardAcb .points) ::
      List.replicate (if board = .f303 then 5 else 4) (advCallback menuPointsAcb) ++ [next menuBack]
  | menuBuildMarkerSelectMenu => List.replicate 8 (advCallback menuMarkerSelAcb) ++
      [callback menuMarkerDisableAllCb, advCallback menuMarkerDeltaAcb, next menuBack]
  | menuBuildMarkerSmithMenu channel =>
      List.replicate (if channel = .s11 then 9 else 7) (advCallback menuMarkerSmithAcb) ++
        [next menuBack]
  | menuBuildBandwidthMenu => List.replicate 6 (advCallback menuBandwidthAcb) ++ [next menuBack]
  | menuBuildSmoothMenu => [advCallback menuVnaModeAcb, advCallback menuSmoothAcb] ++
      List.replicate 5 (advCallback menuSmoothAcb) ++ [next menuBack]
  | menuBuildPowerMenu => advCallback menuPowerAcb ::
      List.replicate 4 (advCallback menuPowerAcb) ++ [next menuBack]
  | menuBuildRecallMenu => List.replicate (stateSlots board) (advCallback menuRecallAcb) ++
      [next menuBack]
  | menuBuildSaveMenu => callback menuSdcardCb ::
      List.replicate (stateSlots board) (advCallback menuSaveAcb) ++ [next menuBack]

def menuMeasureList : Measure → Menu
  | .none => menuMeasure
  | .lcMath => menuMeasureLc
  | .shuntLc => menuMeasureS21
  | .seriesLc => menuMeasureS21
  | .seriesXtal => menuMeasureS21
  | .filter => menuMeasureFilter
  | .s11Cable => menuMeasureCable
  | .s11Resonance => menuMeasureResonance

/-! ### Walking through the items -/

section Walk

variable (board : Board) (buffer : List MenuItem)

def itemsOf : Menu → List MenuItem
  | menuDynamicBuffer => buffer
  | m => menuArray board m

def itemAt (p : Menu × Nat) : Option MenuItem := (itemsOf board buffer p.1)[p.2]?

def menuNextItem : Option (Menu × Nat) → Option (Menu × Nat)
  | none => none
  | some (m, i) =>
    match itemAt board buffer (m, i + 1) with
    | some (next reference) => reference.map fun m => (m, 0)
    | some _ => some (m, i + 1)
    | none => none

def currentMenuItem (m : Menu) : Nat → Option (Menu × Nat)
  | 0 => some (m, 0)
  | i + 1 => menuNextItem board buffer (currentMenuItem m i)

/-- `fuel` bounds the walk. -/
def countFrom : Nat → Option (Menu × Nat) → Nat
  | 0, _ => 0
  | _ + 1, none => 0
  | fuel + 1, some p => countFrom fuel (menuNextItem board buffer (some p)) + 1

def currentMenuGetCount (m : Menu) : Nat := countFrom board buffer 64 (some (m, 0))

end Walk

end NanoVNA.MenuTree
