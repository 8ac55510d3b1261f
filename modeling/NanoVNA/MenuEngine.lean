import Mathlib.Logic.Function.Basic
import NanoVNA.MenuTree

namespace NanoVNA.MenuEngine

open NanoVNA.DeviceState NanoVNA.PlotLayout NanoVNA.KeypadInput NanoVNA.MenuTree

inductive UiMode
  | normal
  | menu
  | keypad
  | browser
  deriving DecidableEq

/-- The menu with the mode of the screen; `lit` are the buttons that are drawn as selected. -/
structure State where
  uiMode : UiMode
  menuStack : Nat → Option Menu
  menuCurrentLevel : Nat
  selection : Int8
  menuButtonHeight : Nat
  menuDynamicBuffer : List MenuItem
  measure : Measure
  lit : Nat → Bool

/-- What the callbacks decide by: the current trace, the frequencies of the active marker and of
the previous one (zero where there is none), whether a save worked, and how files are named. -/
structure Env where
  trace : Option (TraceType × Channel)
  markerFrequency : Nat
  previousFrequency : Option Nat
  saved : Bool
  autoName : Bool

structure Status where
  click : Bool
  up : Bool
  down : Bool
  long : Bool
  deriving DecidableEq

def Status.isZero (status : Status) : Bool := status = ⟨false, false, false, false⟩

def menuStackDepthMax : Nat := 5

def menuButtonMax : Nat := 16

def menuButtonMin : Nat := 8

def menuButtonYOffset : Nat := 1

section Engine

variable (board : Board)

def menuButtonHeightOf (n : Nat) : Nat := (layoutOf board).areaHeightNormal / n

def State.top (s : State) : Option Menu := s.menuStack s.menuCurrentLevel

def State.count (s : State) : Nat :=
  match s.top with
  | none => 0
  | some m => currentMenuGetCount board s.menuDynamicBuffer m

def State.itemPointer (s : State) (i : Nat) : Option (Menu × Nat) :=
  s.top.bind fun m => currentMenuItem board s.menuDynamicBuffer m i

def State.item (s : State) (i : Nat) : Option MenuItem :=
  (s.itemPointer board i).bind (itemAt board s.menuDynamicBuffer)

def menuStackReset (s : State) : State :=
  { s with
    menuStack := fun i => if i = 0 then some .menuTop else none
    menuCurrentLevel := 0
    selection := -1
    menuButtonHeight := menuButtonHeightOf board menuButtonMin }

def ensureSelection (s : State) : State :=
  let i := s.count board
  let selection : Int8 :=
    if s.selection < 0 then -1
    else if (i : Int) ≤ s.selection.toInt then Int8.ofInt (i - 1)
    else s.selection
  let buttons :=
    if i < menuButtonMin then menuButtonMin
    else if menuButtonMax ≤ i then menuButtonMax
    else i
  { s with selection := selection, menuButtonHeight := menuButtonHeightOf board buttons }

def uiModeNormal (s : State) : State :=
  if s.uiMode = .normal then s else { s with uiMode := .normal }

def uiModeKeypad (s : State) : State :=
  if s.uiMode = .keypad then s else { s with uiMode := .keypad, selection := -1 }

def uiModeBrowser (s : State) : State :=
  if s.uiMode = .browser then s else { s with uiMode := .browser, selection := -1 }

def menuMoveBack (leaveUi : Bool) (s : State) : State :=
  if s.menuCurrentLevel = 0 then s
  else
    let s := ensureSelection board { s with menuCurrentLevel := s.menuCurrentLevel - 1 }
    if leaveUi then uiModeNormal s else s

def menuSetSubmenu (submenu : Menu) (s : State) : State :=
  ensureSelection board
    { s with menuStack := Function.update s.menuStack s.menuCurrentLevel (some submenu) }

def menuPushSubmenu (submenu : Menu) (s : State) : State :=
  menuSetSubmenu board submenu
    (if s.menuCurrentLevel < menuStackDepthMax - 1 then
      { s with menuCurrentLevel := s.menuCurrentLevel + 1 }
    else s)

def pushBuilt (builder : Builder) (s : State) : State :=
  menuPushSubmenu board .menuDynamicBuffer { s with menuDynamicBuffer := built board builder }

def menuDraw (mask : BitVec 32) (s : State) : State :=
  { s with
    lit := fun i =>
      if i < menuButtonMax ∧ i < s.count board then
        if mask.getLsbD i then s.uiMode = .menu ∧ (i : Int) = s.selection.toInt else s.lit i
      else false }

def uiModeMenu (s : State) : State :=
  if s.uiMode = .menu then s else menuDraw board (BitVec.allOnes 32) { s with uiMode := .menu }

def apply (env : Env) (s : State) : Callback → State
  | .menuBackCb => menuMoveBack board false s
  | .menuKeyboardAcb _ => uiModeKeypad s
  | .menuPointsSelAcb => pushBuilt board .menuBuildPointsMenu s
  | .menuMarkerOpCb data =>
    if env.markerFrequency = 0 then s
    else if data = .span ∧ env.previousFrequency = some 0 then s
    else uiModeNormal s
  | .menuMarkerSelectCb => pushBuilt board .menuBuildMarkerSelectMenu s
  | .menuTracesAcb => menuPushSubmenu board .menuTrace s
  | .menuFormatAcb channel format =>
    if format = .smith ∧ env.trace = some (.smith, channel) then
      pushBuilt board (.menuBuildMarkerSmithMenu channel) s
    else s
  | .menuScaleKeyboardAcb mode =>
    match env.trace with
    | none => s
    | some (type, _) =>
      if (type = .smith ∨ type = .polar) ∧ mode ≠ .scale then s else uiModeKeypad s
  | .menuBandwidthSelAcb => pushBuilt board .menuBuildBandwidthMenu s
  | .menuSmoothSelAcb => pushBuilt board .menuBuildSmoothMenu s
  | .menuMeasureAcb data => menuSetSubmenu board (menuMeasureList data) { s with measure := data }
  | .menuMeasureCb => menuPushSubmenu board (menuMeasureList s.measure) s
  | .menuCalopAcb data =>
    { s with
      selection :=
        match data with
        | .load => 3
        | .open => 1
        | .short => 2
        | .thru => 6
        | .isoln => 4 }
  | .menuCaldoneCb data =>
    let s := menuMoveBack board false s
    if data then uiModeNormal s else s
  | .menuPowerSelAcb => pushBuilt board .menuBuildPowerMenu s
  | .menuRecallSubmenuCb => pushBuilt board .menuBuildRecallMenu s
  | .menuSaveAcb => if env.saved then menuMoveBack board true s else s
  | .menuSaveSubmenuCb => pushBuilt board .menuBuildSaveMenu s
  | .menuConfigCb .save => menuMoveBack board true s
  -- the processor is reset and starts with `ui_init`
  | .menuConfigCb .reset =>
    menuStackReset board { s with uiMode := .normal, menuDynamicBuffer := [] }
  | .menuConfigCb _ => uiModeNormal s
  | .menuOffsetSelAcb => menuPushSubmenu board .menuOffset s
  | .menuBrightnessAcb => uiModeNormal s
  | .menuSdcardFormatCb => uiModeNormal s
  | .menuSdcardBrowseCb => uiModeBrowser s
  | .menuSdcardCb => if env.autoName then uiModeNormal s else uiModeKeypad s
  | _ => s

def invokeItem (env : Env) (s : State) : MenuItem → State
  | .next _ => s
  | .submenu reference => menuPushSubmenu board reference s
  | .callback reference => apply board env s reference
  | .advCallback reference => apply board env s reference

def menuInvoke (env : Env) (item : Nat) (s : State) : State :=
  match s.item board item with
  | none => s
  | some m =>
    let s := invokeItem board env s m
    if s.uiMode = .menu then menuDraw board (BitVec.allOnes 32) s else s

/-- `(uint16_t)selection >= count` -/
def outside (s : State) : Bool := (s.count board : Int) ≤ s.selection.toInt % 65536

/-- `1 << selection`, where a shift by less than zero or by 32 and more may give anything. -/
def selectionBit (unspecified : BitVec 32) (selection : Int8) : BitVec 32 :=
  if 0 ≤ selection.toInt ∧ selection.toInt < 32 then 1#32 <<< selection.toInt.toNat else unspecified

def movedSelection (status : Status) (selection : Int8) : Int8 :=
  let raised := if status.up then selection + 1 else selection
  if status.down then raised - 1 else raised

variable (unspecified : BitVec 32)

/-- The statuses are those that `ui_input_wait_release` returns one after the other. -/
def leverLoop (status : Status) : List Status → State → State
  | more, s =>
    let mask := selectionBit unspecified s.selection
    let moved := { s with selection := movedSelection status s.selection }
    if outside board moved then uiModeNormal moved
    else
      let drawn := menuDraw board (mask ||| selectionBit unspecified moved.selection) moved
      match more with
      | [] => drawn
      | status :: more => if status.isZero then drawn else leverLoop status more drawn

def uiMenuLever (env : Env) (status : Status) (more : List Status) (s : State) : State :=
  if status.click then
    if outside board s then uiModeNormal s
    else menuInvoke board env s.selection.toInt.toNat s
  else leverLoop board unspecified status more s

/-- A touched button is drawn as selected until the touch ends. -/
def pressButton (i : Int16) (s : State) : State :=
  let mask := selectionBit unspecified i.toInt8 ||| selectionBit unspecified s.selection
  { menuDraw board mask { s with selection := i.toInt8 } with selection := -1 }

def uiMenuTouch (env : Env) (touchX touchY : Int) (s : State) : State :=
  let l := layoutOf board
  let i := Int16.ofInt ((touchY - menuButtonYOffset).tdiv s.menuButtonHeight)
  if (l.lcdWidth : Int) - l.menuButtonWidth < touchX ∧ i.toInt % 65536 < s.count board then
    menuInvoke board env i.toInt.toNat (pressButton board unspecified i s)
  else uiModeNormal s

end Engine

/-- What reaches the menu: the lever and the touch panel, the other screens, and a change of the
measure mode from outside. -/
inductive Event
  | openMenu
  | openKeypad
  | lever (env : Env) (status : Status) (more : List Status)
  | touch (env : Env) (touchX touchY : Int)
  | other (selection : Int8) (leave : Bool)
  | measure (mode : Measure)

section Run

variable (board : Board) (unspecified : BitVec 32)

/-- The keypad and the browser use the selection as their own and end in the normal mode. -/
def step (s : State) : Event → State
  | .openMenu => if s.uiMode = .normal then uiModeMenu board s else s
  | .openKeypad => if s.uiMode = .normal then uiModeKeypad s else s
  | .lever env status more =>
    if s.uiMode = .menu then uiMenuLever board unspecified env status more s else s
  | .touch env touchX touchY =>
    if s.uiMode = .menu then uiMenuTouch board unspecified env touchX touchY s else s
  | .other selection leave =>
    if s.uiMode = .keypad ∨ s.uiMode = .browser then
      let s := { s with selection := selection }
      if leave then uiModeNormal s else s
    else s
  | .measure mode => { s with measure := mode }

def run (s : State) (events : List Event) : State := events.foldl (step board unspecified) s

/-- After `ui_init`. -/
def initial : State :=
  menuStackReset board
    { uiMode := .normal
      menuStack := fun _ => none
      menuCurrentLevel := 0
      selection := -1
      menuButtonHeight := 0
      menuDynamicBuffer := []
      measure := .none
      lit := fun _ => false }

end Run

end NanoVNA.MenuEngine
