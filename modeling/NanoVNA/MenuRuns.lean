import NanoVNA.MenuPaths

namespace NanoVNA.MenuRuns

open NanoVNA.DeviceState NanoVNA.MenuTree NanoVNA.MenuEngine NanoVNA.MenuPaths

/-- `m'` is opened by an item of `m`. -/
def Opens (board : Board) (m m' : Menu) : Prop := ∃ item ∈ menuArray board m, m' ∈ opens item

structure Path (board : Board) (s : State) : Prop where
  bottom : s.menuStack 0 = some .menuTop
  opened : ∀ i < s.menuCurrentLevel, ∃ m m', s.menuStack i = some m ∧
    s.menuStack (i + 1) = some m' ∧ Opens board m m'
  shared : s.menuStack s.menuCurrentLevel = some .menuDynamicBuffer →
    ∃ builder, s.menuDynamicBuffer = built board builder

def buttonsOf (n : Nat) : Nat :=
  if n < menuButtonMin then menuButtonMin else if menuButtonMax ≤ n then menuButtonMax else n

structure Placed (board : Board) (s : State) : Prop extends Path board s where
  height : s.menuButtonHeight = menuButtonHeightOf board (buttonsOf (s.count board))

/-- While the menu is shown, exactly the selected button is drawn as selected. -/
def Drawn (board : Board) (s : State) : Prop :=
  s.uiMode = .menu → ∀ i, s.lit i = decide (i < s.count board ∧ (i : Int) = s.selection.toInt)

section Path

variable {board : Board} {s t : State}

theorem Path.congr (h : Path board s) (hstack : t.menuStack = s.menuStack)
    (hlevel : t.menuCurrentLevel = s.menuCurrentLevel)
    (hbuffer : t.menuDynamicBuffer = s.menuDynamicBuffer) : Path board t := by
  obtain ⟨hbottom, hopened, hshared⟩ := h
  refine ⟨?_, ?_, ?_⟩
  · rw [hstack]
    exact hbottom
  · rw [hstack, hlevel]
    exact hopened
  · rw [hstack, hlevel, hbuffer]
    exact hshared

theorem Placed.congr (h : Placed board s) (hstack : t.menuStack = s.menuStack)
    (hlevel : t.menuCurrentLevel = s.menuCurrentLevel)
    (hbuffer : t.menuDynamicBuffer = s.menuDynamicBuffer)
    (hheight : t.menuButtonHeight = s.menuButtonHeight) : Placed board t := by
  refine ⟨h.toPath.congr hstack hlevel hbuffer, ?_⟩
  rw [hheight, h.height, State.count, State.count, State.top, State.top, hstack, hlevel, hbuffer]

theorem Path.level (h : Path board s) {i : Nat} (hi : i ≤ s.menuCurrentLevel) :
    ∃ m, s.menuStack i = some m ∧ (m ≠ .menuDynamicBuffer → depth m = i) ∧
      (i < s.menuCurrentLevel → m ≠ .menuDynamicBuffer) ∧ (0 < i → m ≠ .menuTop) ∧ i ≤ 4 := by
  induction i with
  | zero =>
    exact ⟨.menuTop, h.bottom, fun _ => rfl, fun _ => by decide, fun h => absurd h (by decide),
      Nat.zero_le 4⟩
  | succ i ih =>
    obtain ⟨m, hm, hdepth, -⟩ := ih (Nat.le_of_succ_le hi)
    obtain ⟨n, m', hn, hm', item, hitem, hopens⟩ := h.opened i hi
    obtain rfl : m = n := Option.some.inj (hm.symm.trans hn)
    obtain ⟨hstatic, htop, hlevels, hnext⟩ := depth_opens board m item hitem m' hopens
    refine ⟨m', hm', fun hne => ?_, fun hlt => ?_, fun _ => htop, ?_⟩
    · rw [hnext hne, hdepth hstatic]
    · obtain ⟨n, m'', hn, -, item', hitem', hopens'⟩ := h.opened (i + 1) hlt
      obtain rfl : m' = n := Option.some.inj (hm'.symm.trans hn)
      exact (depth_opens board m' item' hitem' m'' hopens').1
    · rw [← hdepth hstatic]
      exact hlevels

theorem Path.top (h : Path board s) : ∃ m, s.top = some m ∧
    (m ≠ .menuDynamicBuffer → depth m = s.menuCurrentLevel) ∧
      (0 < s.menuCurrentLevel → m ≠ .menuTop) ∧ Fits board s.menuDynamicBuffer m := by
  obtain ⟨m, hm, hdepth, -, htop, -⟩ := h.level (Nat.le_refl s.menuCurrentLevel)
  refine ⟨m, hm, hdepth, htop, ?_⟩
  by_cases hdynamic : m = .menuDynamicBuffer
  · subst hdynamic
    obtain ⟨builder, hbuilder⟩ := h.shared hm
    rw [hbuilder]
    exact fits_built board builder
  · exact fits_static hdynamic

theorem item_eq {m : Menu} (hm : s.top = some m) (i : Nat) :
    s.item board i = itemOf board s.menuDynamicBuffer m i := by
  rw [State.item, State.itemPointer, hm, Option.bind_some, itemOf]

theorem count_eq {m : Menu} (hm : s.top = some m) :
    s.count board = currentMenuGetCount board s.menuDynamicBuffer m := by
  rw [State.count, hm]

theorem Path.item_mem (h : Path board s) {i : Nat} {item : MenuItem}
    (hitem : s.item board i = some item) :
    (∃ m, s.top = some m ∧ m ≠ .menuDynamicBuffer ∧ item ∈ menuArray board m) ∨
      (∃ builder, item ∈ built board builder) ∨ item ∈ menuArray board .menuBack := by
  obtain ⟨m, hm, -, -, -⟩ := h.top
  rw [item_eq hm] at hitem
  by_cases hdynamic : m = .menuDynamicBuffer
  · subst hdynamic
    obtain ⟨builder, hbuilder⟩ := h.shared hm
    rw [hbuilder] at hitem
    obtain hmem | hmem := itemOf_mem (leadsTo_built board builder) hitem
    · exact Or.inr (Or.inl ⟨builder, hmem⟩)
    · exact Or.inr (Or.inr hmem)
  · rw [itemOf_static hdynamic] at hitem
    obtain hmem | hmem := itemOf_mem (fun _ hmem => absurd hmem List.not_mem_nil) hitem
    · rw [itemsOf_static hdynamic] at hmem
      exact Or.inl ⟨m, hm, hdynamic, hmem⟩
    · exact Or.inr (Or.inr hmem)

theorem Path.item_opens (h : Path board s) {i : Nat} {item : MenuItem}
    (hitem : s.item board i = some item) {m' : Menu} (hm' : m' ∈ opens item) :
    ∃ m, s.top = some m ∧ m ≠ .menuDynamicBuffer ∧ item ∈ menuArray board m := by
  obtain ⟨m, hm, hstatic, hmem⟩ | ⟨builder, hmem⟩ | hmem := h.item_mem hitem
  · exact ⟨m, hm, hstatic, hmem⟩
  · rw [built_opens board builder item hmem] at hm'
    exact absurd hm' List.not_mem_nil
  · have hempty : ∀ item ∈ menuArray board .menuBack, opens item = [] := by
      cases board <;> decide
    rw [hempty item hmem] at hm'
    exact absurd hm' List.not_mem_nil

theorem Path.item_measure (h : Path board s) {i : Nat} {item : MenuItem}
    (hitem : s.item board i = some item) {data : Measure} (hdata : data ∈ setsMeasure item) :
    ∃ m, s.top = some m ∧ m ∈ measureMenus ∧ menuMeasureList data ∈ measureMenus := by
  obtain ⟨m, hm, hstatic, hmem⟩ | ⟨builder, hmem⟩ | hmem := h.item_mem hitem
  · exact ⟨m, hm, measure_menuArray board m item hmem data hdata⟩
  · rw [measure_built board builder item hmem] at hdata
    exact absurd hdata List.not_mem_nil
  · have hempty : ∀ item ∈ menuArray board .menuBack, setsMeasure item = [] := by
      cases board <;> decide
    rw [hempty item hmem] at hdata
    exact absurd hdata List.not_mem_nil

end Path

structure SameMenu (s t : State) : Prop where
  stack : t.menuStack = s.menuStack
  level : t.menuCurrentLevel = s.menuCurrentLevel
  buffer : t.menuDynamicBuffer = s.menuDynamicBuffer
  height : t.menuButtonHeight = s.menuButtonHeight

theorem Placed.same {board : Board} {s t : State} (h : Placed board s) (hsame : SameMenu s t) :
    Placed board t := h.congr hsame.stack hsame.level hsame.buffer hsame.height

inductive Effect (board : Board) (s : State) : State → Prop
  | kept {t : State} (same : SameMenu s t) : Effect board s t
  | closed {t : State} (same : SameMenu (menuMoveBack board false s) t) : Effect board s t
  | opened {m m' : Menu} (buffer : List MenuItem) (top : s.top = some m)
      (static : m ≠ .menuDynamicBuffer) (opens : Opens board m m')
      (filled : m' = .menuDynamicBuffer → ∃ builder, buffer = built board builder) :
      Effect board s (menuPushSubmenu board m' { s with menuDynamicBuffer := buffer })
  | replaced {m : Menu} {data : Measure} (top : s.top = some m) (old : m ∈ measureMenus)
      (new : menuMeasureList data ∈ measureMenus) :
      Effect board s (menuSetSubmenu board (menuMeasureList data) { s with measure := data })
  | restarted {t : State}
      (same : SameMenu (menuStackReset board { s with menuDynamicBuffer := [] }) t) :
      Effect board s t

section Effects

variable {board : Board} {s t u : State}

theorem sameMenu_refl (s : State) : SameMenu s s := ⟨rfl, rfl, rfl, rfl⟩

theorem sameMenu_normal (s : State) : SameMenu s (uiModeNormal s) := by
  unfold uiModeNormal
  split <;> exact ⟨rfl, rfl, rfl, rfl⟩

theorem sameMenu_keypad (s : State) : SameMenu s (uiModeKeypad s) := by
  unfold uiModeKeypad
  split <;> exact ⟨rfl, rfl, rfl, rfl⟩

theorem sameMenu_browser (s : State) : SameMenu s (uiModeBrowser s) := by
  unfold uiModeBrowser
  split <;> exact ⟨rfl, rfl, rfl, rfl⟩

theorem sameMenu_leave (s : State) :
    SameMenu (menuMoveBack board false s) (menuMoveBack board true s) := by
  unfold menuMoveBack
  split
  · exact sameMenu_refl s
  · exact sameMenu_normal _

theorem effect_built {builder : Builder} {m' : Menu} (hm' : m' = .menuDynamicBuffer)
    (hopens : ∃ m, s.top = some m ∧ m ≠ .menuDynamicBuffer ∧ Opens board m m') :
    Effect board s (pushBuilt board builder s) := by
  subst hm'
  obtain ⟨m, hm, hstatic, hopens⟩ := hopens
  exact .opened (built board builder) hm hstatic hopens fun _ => ⟨builder, rfl⟩

theorem effect_push {m' : Menu} (hm' : m' ≠ .menuDynamicBuffer)
    (hopens : ∃ m, s.top = some m ∧ m ≠ .menuDynamicBuffer ∧ Opens board m m') :
    Effect board s (menuPushSubmenu board m' s) := by
  obtain ⟨m, hm, hstatic, hopens⟩ := hopens
  exact .opened s.menuDynamicBuffer hm hstatic hopens fun h => absurd h hm'

theorem effect_apply (env : Env) {f : Callback}
    (hopens : ∀ m' ∈ callbackOpens f, ∃ m, s.top = some m ∧ m ≠ .menuDynamicBuffer ∧
      Opens board m m')
    (hmeasure : ∀ data, f = .menuMeasureAcb data → ∃ m, s.top = some m ∧ m ∈ measureMenus ∧
      menuMeasureList data ∈ measureMenus) :
    Effect board s (apply board env s f) := by
  cases f
  case menuBackCb => exact .closed (sameMenu_refl _)
  case menuKeyboardAcb => exact .kept (sameMenu_keypad s)
  case menuPointsSelAcb => exact effect_built rfl (hopens _ List.mem_cons_self)
  case menuMarkerOpCb data =>
    rw [apply]
    split
    · exact .kept (sameMenu_refl s)
    · split
      · exact .kept (sameMenu_refl s)
      · exact .kept (sameMenu_normal s)
  case menuMarkerSelectCb => exact effect_built rfl (hopens _ List.mem_cons_self)
  case menuTracesAcb => exact effect_push (by decide) (hopens _ List.mem_cons_self)
  case menuFormatAcb channel format =>
    rw [apply]
    split
    · rename_i hsmith
      obtain ⟨rfl, -⟩ := hsmith
      exact effect_built rfl (hopens _ List.mem_cons_self)
    · exact .kept (sameMenu_refl s)
  case menuScaleKeyboardAcb mode =>
    rw [apply]
    split
    · exact .kept (sameMenu_refl s)
    · split
      · exact .kept (sameMenu_refl s)
      · exact .kept (sameMenu_keypad s)
  case menuBandwidthSelAcb => exact effect_built rfl (hopens _ List.mem_cons_self)
  case menuSmoothSelAcb => exact effect_built rfl (hopens _ List.mem_cons_self)
  case menuMeasureAcb data =>
    obtain ⟨m, hm, hold, hnew⟩ := hmeasure data rfl
    exact .replaced hm hold hnew
  case menuMeasureCb =>
    have hlist : menuMeasureList s.measure ∈ measureMenus := by
      cases s.measure <;> decide
    have hstatic : menuMeasureList s.measure ≠ .menuDynamicBuffer := by
      cases s.measure <;> decide
    exact effect_push hstatic (hopens _ hlist)
  case menuCalopAcb data => exact .kept ⟨rfl, rfl, rfl, rfl⟩
  case menuCaldoneCb data =>
    rw [apply]
    split
    · exact .closed (sameMenu_normal _)
    · exact .closed (sameMenu_refl _)
  case menuPowerSelAcb => exact effect_built rfl (hopens _ List.mem_cons_self)
  case menuRecallSubmenuCb => exact effect_built rfl (hopens _ List.mem_cons_self)
  case menuSaveAcb =>
    rw [apply]
    split
    · exact .closed (sameMenu_leave s)
    · exact .kept (sameMenu_refl s)
  case menuSaveSubmenuCb => exact effect_built rfl (hopens _ List.mem_cons_self)
  case menuConfigCb data =>
    cases data with
    | save => exact .closed (sameMenu_leave s)
    | reset => exact .restarted ⟨rfl, rfl, rfl, rfl⟩
    | touchCal => exact .kept (sameMenu_normal s)
    | touchTest => exact .kept (sameMenu_normal s)
    | version => exact .kept (sameMenu_normal s)
  case menuOffsetSelAcb => exact effect_push (by decide) (hopens _ List.mem_cons_self)
  case menuBrightnessAcb => exact .kept (sameMenu_normal s)
  case menuSdcardFormatCb => exact .kept (sameMenu_normal s)
  case menuSdcardBrowseCb => exact .kept (sameMenu_browser s)
  case menuSdcardCb =>
    rw [apply]
    split
    · exact .kept (sameMenu_normal s)
    · exact .kept (sameMenu_keypad s)
  all_goals exact .kept (sameMenu_refl s)

theorem effect_invokeItem (env : Env) (h : Path board s) {i : Nat} {item : MenuItem}
    (hitem : s.item board i = some item) : Effect board s (invokeItem board env s item) := by
  cases item with
  | next reference => exact .kept (sameMenu_refl s)
  | submenu reference =>
    obtain ⟨m, hm, hstatic, hmem⟩ := h.item_opens hitem List.mem_cons_self
    have hreference : reference ≠ .menuDynamicBuffer := by
      rintro rfl
      exact submenu_menuArray board m hmem
    exact effect_push hreference ⟨m, hm, hstatic, _, hmem, List.mem_cons_self⟩
  | callback f =>
    refine effect_apply env (fun m' hm' => ?_) fun data hdata =>
      h.item_measure hitem (by simp [hdata, setsMeasure])
    obtain ⟨m, hm, hstatic, hmem⟩ := h.item_opens hitem hm'
    exact ⟨m, hm, hstatic, _, hmem, hm'⟩
  | advCallback f =>
    refine effect_apply env (fun m' hm' => ?_) fun data hdata =>
      h.item_measure hitem (by simp [hdata, setsMeasure])
    obtain ⟨m, hm, hstatic, hmem⟩ := h.item_opens hitem hm'
    exact ⟨m, hm, hstatic, _, hmem, hm'⟩

/-! ### The effects keep the stack a path -/

theorem placed_ensureSelection (h : Path board s) : Placed board (ensureSelection board s) :=
  ⟨h.congr rfl rfl rfl, rfl⟩

theorem placed_menuMoveBack (h : Placed board s) (leaveUi : Bool) :
    Placed board (menuMoveBack board leaveUi s) := by
  unfold menuMoveBack
  split
  · exact h
  · have hpath : Path board { s with menuCurrentLevel := s.menuCurrentLevel - 1 } := by
      refine ⟨h.bottom, fun i hi => h.opened i (Nat.lt_of_lt_of_le hi (Nat.sub_le _ 1)),
        fun hdynamic => ?_⟩
      obtain ⟨m, hm, -, hstatic, -⟩ := h.level (Nat.sub_le s.menuCurrentLevel 1)
      obtain rfl : m = .menuDynamicBuffer := Option.some.inj (hm.symm.trans hdynamic)
      exact absurd rfl (hstatic (by omega))
    split
    · obtain ⟨hstack, hlevel, hbuffer, hheight⟩ := sameMenu_normal
        (ensureSelection board { s with menuCurrentLevel := s.menuCurrentLevel - 1 })
      exact (placed_ensureSelection hpath).congr hstack hlevel hbuffer hheight
    · exact placed_ensureSelection hpath

theorem level_lt (h : Path board s) {m m' : Menu} (hm : s.top = some m)
    (hopens : Opens board m m') : s.menuCurrentLevel < menuStackDepthMax - 1 := by
  obtain ⟨n, hn, hdepth, -⟩ := h.top
  obtain rfl : m = n := Option.some.inj (hm.symm.trans hn)
  obtain ⟨item, hitem, hm'⟩ := hopens
  obtain ⟨hstatic, -, hroom, -⟩ := depth_opens board m item hitem m' hm'
  rw [hdepth hstatic] at hroom
  exact Nat.lt_of_succ_le hroom

theorem path_push (h : Path board s) {m m' : Menu} {buffer : List MenuItem} (hm : s.top = some m)
    (hopens : Opens board m m')
    (hfilled : m' = .menuDynamicBuffer → ∃ builder, buffer = built board builder) :
    Path board { s with
      menuDynamicBuffer := buffer
      menuCurrentLevel := s.menuCurrentLevel + 1
      menuStack := Function.update s.menuStack (s.menuCurrentLevel + 1) (some m') } := by
  have hbelow : ∀ i ≤ s.menuCurrentLevel,
      Function.update s.menuStack (s.menuCurrentLevel + 1) (some m') i = s.menuStack i :=
    fun i hi => Function.update_of_ne (by omega) ..
  have htop : Function.update s.menuStack (s.menuCurrentLevel + 1) (some m')
      (s.menuCurrentLevel + 1) = some m' := Function.update_self ..
  refine ⟨(hbelow 0 (Nat.zero_le _)).trans h.bottom, fun i hi => ?_, fun hdynamic => ?_⟩
  · obtain hlt | heq := Nat.lt_or_eq_of_le (Nat.le_of_lt_succ hi)
    · obtain ⟨n, n', hn, hn', hopen⟩ := h.opened i hlt
      exact ⟨n, n', (hbelow i (Nat.le_of_lt hlt)).trans hn, (hbelow (i + 1) hlt).trans hn', hopen⟩
    · subst heq
      exact ⟨m, m', (hbelow _ (Nat.le_refl _)).trans hm, htop, hopens⟩
  · exact hfilled (Option.some.inj (htop.symm.trans hdynamic))

theorem placed_push (h : Path board s) {m m' : Menu} {buffer : List MenuItem} (hm : s.top = some m)
    (hopens : Opens board m m')
    (hfilled : m' = .menuDynamicBuffer → ∃ builder, buffer = built board builder) :
    Placed board (menuPushSubmenu board m' { s with menuDynamicBuffer := buffer }) := by
  have hlevel := level_lt h hm hopens
  rw [menuPushSubmenu, if_pos hlevel, menuSetSubmenu]
  exact placed_ensureSelection (path_push h hm hopens hfilled)

theorem path_replace (h : Path board s) {m m' : Menu} (hm : s.top = some m)
    (hold : m ∈ measureMenus) (hnew : m' ∈ measureMenus) :
    Path board { s with
      menuStack := Function.update s.menuStack s.menuCurrentLevel (some m') } := by
  have hbelow : ∀ i < s.menuCurrentLevel,
      Function.update s.menuStack s.menuCurrentLevel (some m') i = s.menuStack i :=
    fun i hi => Function.update_of_ne (Nat.ne_of_lt hi) ..
  have htop : Function.update s.menuStack s.menuCurrentLevel (some m') s.menuCurrentLevel =
      some m' := Function.update_self ..
  have hpos : 0 < s.menuCurrentLevel := by
    refine Nat.pos_of_ne_zero fun hzero => ?_
    have hbottom := h.bottom
    rw [← hzero] at hbottom
    obtain rfl : m = .menuTop := Option.some.inj (hm.symm.trans hbottom)
    exact absurd hold (by decide)
  refine ⟨(hbelow 0 hpos).trans h.bottom, fun i hi => ?_, fun hdynamic => ?_⟩
  · obtain ⟨n, n', hn, hn', item, hitem, hopen⟩ := h.opened i hi
    by_cases hlast : i + 1 = s.menuCurrentLevel
    · rw [hlast] at hn'
      obtain rfl : m = n' := Option.some.inj (hm.symm.trans hn')
      refine ⟨n, m', (hbelow i hi).trans hn, (congrArg _ hlast).trans htop, item, hitem, ?_⟩
      rw [opens_measure board n item hitem m hopen hold]
      exact hnew
    · have hlt := Nat.lt_of_le_of_ne hi hlast
      exact ⟨n, n', (hbelow i hi).trans hn, (hbelow (i + 1) hlt).trans hn', item, hitem, hopen⟩
  · obtain rfl : m' = .menuDynamicBuffer := Option.some.inj (htop.symm.trans hdynamic)
    exact absurd hnew (by decide)

theorem placed_reset (s : State) : Placed board (menuStackReset board s) := by
  refine ⟨⟨rfl, fun i hi => absurd hi (Nat.not_lt_zero i), fun hdynamic => ?_⟩, ?_⟩
  · exact absurd (Option.some.inj hdynamic) (by decide)
  · cases board <;> rfl

theorem placed_effect (h : Placed board s) (heffect : Effect board s t) : Placed board t := by
  cases heffect with
  | kept same => exact h.same same
  | closed same =>
    exact (placed_menuMoveBack h false).same same
  | opened buffer top static opens filled => exact placed_push h.toPath top opens filled
  | replaced top old new =>
    exact placed_ensureSelection ((path_replace h.toPath top old new).congr rfl rfl rfl)
  | restarted same => exact (placed_reset _).same same

end Effects

end NanoVNA.MenuRuns
