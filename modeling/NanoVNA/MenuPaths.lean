import NanoVNA.MenuEngine

namespace NanoVNA.MenuPaths

open NanoVNA.DeviceState NanoVNA.MenuTree NanoVNA.MenuEngine

def measureMenus : List Menu :=
  [.menuMeasure, .menuMeasureLc, .menuMeasureCable, .menuMeasureResonance, .menuMeasureS21,
    .menuMeasureFilter]

def callbackOpens : Callback → List Menu
  | .menuPointsSelAcb | .menuMarkerSelectCb | .menuFormatAcb _ .smith | .menuBandwidthSelAcb
  | .menuSmoothSelAcb | .menuPowerSelAcb | .menuRecallSubmenuCb | .menuSaveSubmenuCb =>
    [.menuDynamicBuffer]
  | .menuTracesAcb => [.menuTrace]
  | .menuMeasureCb => measureMenus
  | .menuOffsetSelAcb => [.menuOffset]
  | _ => []

def opens : MenuItem → List Menu
  | .next _ => []
  | .submenu reference => [reference]
  | .callback reference => callbackOpens reference
  | .advCallback reference => callbackOpens reference

def leadsTo : MenuItem → List Menu
  | .next reference => reference.toList
  | _ => []

def setsMeasure : MenuItem → List Measure
  | .callback (.menuMeasureAcb data) => [data]
  | .advCallback (.menuMeasureAcb data) => [data]
  | _ => []

def depth : Menu → Nat
  | .menuTop | .menuBack | .menuDynamicBuffer => 0
  | .menuCalMenu | .menuStateIo | .menuStimulus | .menuDisplay | .menuMeasureTools | .menuSdcard
  | .menuSystem => 1
  | .menuCalWizard | .menuCalOptions | .menuCalManagement | .menuTrace | .menuFormatS11
  | .menuFormatS21 | .menuScale | .menuMarker | .menuTransform | .menuMeasure | .menuMeasureLc
  | .menuMeasureCable | .menuMeasureResonance | .menuMeasureS21 | .menuMeasureFilter
  | .menuSdcardBrowse | .menuRtc | .menuDevice => 2
  | .menuFormat2 | .menuFormat4 | .menuSearch | .menuOperations | .menuDfu | .menuDevice1
  | .menuOffset => 3
  | .menuFormat3 | .menuClear => 4

section Tables

variable (board : Board)

/-- A menu is opened from one level only, and no path is longer than the stack. -/
theorem depth_opens (m : Menu) : ∀ item ∈ menuArray board m, ∀ m' ∈ opens item,
    m ≠ .menuDynamicBuffer ∧ m' ≠ .menuTop ∧ depth m + 1 ≤ 4 ∧
      (m' ≠ .menuDynamicBuffer → depth m' = depth m + 1) := by
  cases board <;> cases m <;> decide

theorem built_opens (builder : Builder) : ∀ item ∈ built board builder, opens item = [] := by
  cases board <;> rcases builder with _ | _ | (_ | _) | _ | _ | _ | _ | _ <;> decide

theorem leadsTo_menuArray (m : Menu) : ∀ item ∈ menuArray board m, ∀ m' ∈ leadsTo item,
    m' = .menuBack := by
  cases board <;> cases m <;> decide

theorem leadsTo_built (builder : Builder) : ∀ item ∈ built board builder, ∀ m' ∈ leadsTo item,
    m' = .menuBack := by
  cases board <;> rcases builder with _ | _ | (_ | _) | _ | _ | _ | _ | _ <;> decide

theorem submenu_menuArray (m : Menu) : MenuItem.submenu .menuDynamicBuffer ∉ menuArray board m := by
  cases board <;> cases m <;> decide

theorem measure_menuArray (m : Menu) : ∀ item ∈ menuArray board m, ∀ data ∈ setsMeasure item,
    m ∈ measureMenus ∧ menuMeasureList data ∈ measureMenus := by
  cases board <;> cases m <;> decide

theorem measure_built (builder : Builder) : ∀ item ∈ built board builder,
    setsMeasure item = [] := by
  cases board <;> rcases builder with _ | _ | (_ | _) | _ | _ | _ | _ | _ <;> decide

theorem opens_measure (m : Menu) : ∀ item ∈ menuArray board m, ∀ m' ∈ opens item,
    m' ∈ measureMenus → opens item = measureMenus := by
  cases board <;> cases m <;> decide

def itemOf (board : Board) (buffer : List MenuItem) (m : Menu) (i : Nat) : Option MenuItem :=
  (currentMenuItem board buffer m i).bind (itemAt board buffer)

/-- A menu has at most as many items as there are buttons, and all but the top one end with
the way back. -/
structure Fits (board : Board) (buffer : List MenuItem) (m : Menu) : Prop where
  count_le : currentMenuGetCount board buffer m ≤ menuButtonMax
  items : ∀ i < currentMenuGetCount board buffer m, (itemOf board buffer m i).isSome = true
  back : m ≠ .menuTop →
    itemOf board buffer m (currentMenuGetCount board buffer m - 1) = some (.callback .menuBackCb)

theorem fits_menuArray {m : Menu} (hm : m ≠ .menuDynamicBuffer) : Fits board [] m := by
  constructor <;> revert hm <;> cases board <;> cases m <;> decide

theorem fits_built (builder : Builder) :
    Fits board (built board builder) .menuDynamicBuffer := by
  constructor <;> cases board <;> rcases builder with _ | _ | (_ | _) | _ | _ | _ | _ | _ <;> decide

end Tables

section Walk

variable {board : Board} {buffer : List MenuItem}

theorem itemsOf_static {m : Menu} (hm : m ≠ .menuDynamicBuffer) :
    itemsOf board buffer m = menuArray board m := by
  cases m <;> first | rfl | exact absurd rfl hm

theorem menuNextItem_cases {p q : Menu × Nat} (h : menuNextItem board buffer (some p) = some q) :
    q = (p.1, p.2 + 1) ∨ ∃ m', q = (m', 0) ∧
      ∃ item ∈ itemsOf board buffer p.1, m' ∈ leadsTo item := by
  obtain ⟨m, i⟩ := p
  simp only [menuNextItem] at h
  split at h
  · rename_i reference hitem
    obtain ⟨m', hm', rfl⟩ := Option.map_eq_some_iff.mp h
    exact Or.inr ⟨m', rfl, .next reference, List.mem_of_getElem? hitem, by simp [leadsTo, hm']⟩
  · exact Or.inl (Option.some.inj h).symm
  · exact absurd h.symm (by simp)

theorem currentMenuItem_menu (hnext : ∀ m, ∀ item ∈ itemsOf board buffer m, ∀ m' ∈ leadsTo item,
    m' = .menuBack) {m : Menu} {i : Nat} {p : Menu × Nat}
    (h : currentMenuItem board buffer m i = some p) : p.1 = m ∨ p.1 = .menuBack := by
  induction i generalizing p with
  | zero =>
    obtain rfl := Option.some.inj h
    exact Or.inl rfl
  | succ i ih =>
    rw [currentMenuItem] at h
    cases hprev : currentMenuItem board buffer m i with
    | none =>
      rw [hprev] at h
      exact absurd h.symm (by simp [menuNextItem])
    | some q =>
      rw [hprev] at h
      obtain rfl | ⟨m', rfl, item, hitem, hm'⟩ := menuNextItem_cases h
      · have hq := ih hprev
        exact hq
      · exact Or.inr (hnext _ item hitem m' hm')

theorem menuNextItem_static {p : Menu × Nat} (hp : p.1 ≠ .menuDynamicBuffer) :
    menuNextItem board buffer (some p) = menuNextItem board [] (some p) := by
  obtain ⟨m, i⟩ := p
  simp only [menuNextItem, itemAt, itemsOf_static hp]

theorem menuNextItem_stays {p q : Menu × Nat} (hp : p.1 ≠ .menuDynamicBuffer)
    (h : menuNextItem board buffer (some p) = some q) : q.1 ≠ .menuDynamicBuffer := by
  obtain rfl | ⟨m', rfl, item, hitem, hm'⟩ := menuNextItem_cases h
  · exact hp
  · rw [itemsOf_static hp] at hitem
    rw [leadsTo_menuArray board p.1 item hitem m' hm']
    decide

theorem currentMenuItem_static (board : Board) (buffer : List MenuItem) {m : Menu}
    (hm : m ≠ .menuDynamicBuffer) (i : Nat) :
    currentMenuItem board buffer m i = currentMenuItem board [] m i ∧
      ∀ p, currentMenuItem board buffer m i = some p → p.1 ≠ .menuDynamicBuffer := by
  induction i with
  | zero =>
    refine ⟨rfl, fun p hp => ?_⟩
    obtain rfl := Option.some.inj hp
    exact hm
  | succ i ih =>
    obtain ⟨hsame, hstatic⟩ := ih
    simp only [currentMenuItem, ← hsame]
    cases hprev : currentMenuItem board buffer m i with
    | none => exact ⟨rfl, fun p hp => absurd hp.symm (by simp [menuNextItem])⟩
    | some p => exact ⟨menuNextItem_static (hstatic p hprev),
        fun q hq => menuNextItem_stays (hstatic p hprev) hq⟩

theorem countFrom_static (fuel : Nat) {p : Option (Menu × Nat)}
    (hp : ∀ q, p = some q → q.1 ≠ .menuDynamicBuffer) :
    countFrom board buffer fuel p = countFrom board [] fuel p := by
  induction fuel generalizing p with
  | zero => rfl
  | succ fuel ih =>
    cases p with
    | none => rfl
    | some q =>
      have hq := hp q rfl
      rw [countFrom, countFrom, menuNextItem_static hq, ih]
      intro r hr
      exact menuNextItem_stays hq hr

theorem count_static {m : Menu} (hm : m ≠ .menuDynamicBuffer) :
    currentMenuGetCount board buffer m = currentMenuGetCount board [] m := by
  refine countFrom_static 64 fun q hq => ?_
  obtain rfl := Option.some.inj hq
  exact hm

theorem itemOf_static {m : Menu} (hm : m ≠ .menuDynamicBuffer) (i : Nat) :
    itemOf board buffer m i = itemOf board [] m i := by
  obtain ⟨hsame, hstatic⟩ := currentMenuItem_static board buffer hm i
  rw [itemOf, itemOf, ← hsame]
  cases hp : currentMenuItem board buffer m i with
  | none => rfl
  | some p => simp only [Option.bind_some, itemAt, itemsOf_static (hstatic p hp)]

theorem fits_static {m : Menu} (hm : m ≠ .menuDynamicBuffer) : Fits board buffer m := by
  have h := fits_menuArray board hm
  refine ⟨?_, fun i hi => ?_, fun htop => ?_⟩
  · rw [count_static hm]
    exact h.count_le
  · rw [count_static hm] at hi
    rw [itemOf_static hm]
    exact h.items i hi
  · rw [count_static hm, itemOf_static hm]
    exact h.back htop

theorem itemOf_mem (hbuffer : ∀ item ∈ buffer, ∀ m' ∈ leadsTo item, m' = .menuBack) {m : Menu}
    {i : Nat} {item : MenuItem} (h : itemOf board buffer m i = some item) :
    item ∈ itemsOf board buffer m ∨ item ∈ menuArray board .menuBack := by
  have hnext : ∀ m, ∀ item ∈ itemsOf board buffer m, ∀ m' ∈ leadsTo item, m' = .menuBack := by
    intro m item hitem
    by_cases hm : m = .menuDynamicBuffer
    · subst hm
      exact hbuffer item hitem
    · rw [itemsOf_static hm] at hitem
      exact leadsTo_menuArray board m item hitem
  obtain ⟨p, hp, hitem⟩ := Option.bind_eq_some_iff.mp h
  have hmem : item ∈ itemsOf board buffer p.1 := List.mem_of_getElem? hitem
  obtain hm | hm := currentMenuItem_menu hnext hp
  · exact Or.inl (hm ▸ hmem)
  · rw [hm] at hmem
    exact Or.inr hmem

end Walk

end NanoVNA.MenuPaths
