import NanoVNA.MenuRuns

namespace NanoVNA.MenuButtons

open NanoVNA.DeviceState NanoVNA.PlotLayout NanoVNA.MenuTree NanoVNA.MenuEngine NanoVNA.MenuPaths
open NanoVNA.MenuRuns

variable {board : Board} {s t : State}

theorem count_le (h : Path board s) : s.count board ≤ menuButtonMax := by
  obtain ⟨m, hm, -, -, hfits⟩ := h.top
  rw [count_eq hm]
  exact hfits.count_le

theorem item_isSome (h : Path board s) {i : Nat} (hi : i < s.count board) :
    (s.item board i).isSome = true := by
  obtain ⟨m, hm, -, -, hfits⟩ := h.top
  rw [count_eq hm] at hi
  rw [item_eq hm]
  exact hfits.items i hi

theorem same_menuDraw (board : Board) (mask : BitVec 32) (s : State) :
    SameMenu s (menuDraw board mask s) := ⟨rfl, rfl, rfl, rfl⟩

theorem count_same (hsame : SameMenu s t) : t.count board = s.count board := by
  rw [State.count, State.count, State.top, State.top, hsame.stack, hsame.level, hsame.buffer]

theorem drawn_of_mode (h : s.uiMode ≠ .menu) : Drawn board s := fun hmenu => absurd hmenu h

theorem uiMode_normal (s : State) : (uiModeNormal s).uiMode = .normal := by
  unfold uiModeNormal
  split
  · assumption
  · rfl

theorem drawn_normal (s : State) : Drawn board (uiModeNormal s) :=
  drawn_of_mode (by rw [uiMode_normal]; decide)

theorem drawn_mask (h : Path board s) {mask : BitVec 32}
    (hmask : ∀ i < s.count board, mask.getLsbD i = true ∨
      s.lit i = decide ((i : Int) = s.selection.toInt)) :
    Drawn board (menuDraw board mask s) := by
  intro hmenu i
  have hmode : s.uiMode = .menu := hmenu
  have hsame : (menuDraw board mask s).count board = s.count board :=
    count_same (same_menuDraw board mask s)
  rw [hsame]
  by_cases hi : i < s.count board
  · have hshown : i < menuButtonMax ∧ i < s.count board :=
      ⟨Nat.lt_of_lt_of_le hi (count_le h), hi⟩
    obtain hbit | hlit := hmask i hi
    · simp [menuDraw, hshown, hbit, hmode]
    · cases hbit : mask.getLsbD i with
      | false => simp [menuDraw, hshown, hbit, hlit]
      | true => simp [menuDraw, hshown, hbit, hmode]
  · simp [menuDraw, hi]

theorem bit_lt (h : Path board s) {i : Nat} (hi : i < s.count board) : i < 32 :=
  Nat.lt_of_lt_of_le hi (Nat.le_trans (count_le h) (by decide))

theorem drawn_all (h : Path board s) : Drawn board (menuDraw board (BitVec.allOnes 32) s) :=
  drawn_mask h fun i hi => Or.inl (by rw [BitVec.getLsbD_allOnes, decide_eq_true (bit_lt h hi)])

theorem selectionBit_self {unspecified : BitVec 32} {selection : Int8} {i : Nat} (hi : i < 32)
    (h : (i : Int) = selection.toInt) :
    (selectionBit unspecified selection).getLsbD i = true := by
  have hrange : 0 ≤ selection.toInt ∧ selection.toInt < 32 := by omega
  have hnat : selection.toInt.toNat = i := by omega
  rw [selectionBit, if_pos hrange, hnat]
  simp [hi]

/-- Drawing the button that was selected and the one that is selected now is enough. -/
theorem drawn_moved (h : Path board s) (hdrawn : Drawn board s) (unspecified : BitVec 32)
    (selection : Int8) :
    Drawn board (menuDraw board
      (selectionBit unspecified s.selection ||| selectionBit unspecified selection)
      { s with selection := selection }) := by
  by_cases hmode : s.uiMode = .menu
  · have hpath : Path board { s with selection := selection } := h.congr rfl rfl rfl
    refine drawn_mask hpath fun i hi => ?_
    have hi : i < s.count board := hi
    by_cases hold : (i : Int) = s.selection.toInt
    · left
      rw [BitVec.getLsbD_or, selectionBit_self (bit_lt h hi) hold, Bool.true_or]
    · by_cases hnew : (i : Int) = selection.toInt
      · left
        rw [BitVec.getLsbD_or, selectionBit_self (bit_lt h hi) hnew, Bool.or_true]
      · right
        rw [hdrawn hmode i]
        simp [hold, hnew]
  · exact drawn_of_mode hmode

/-! ### One event -/

theorem placed_normal (h : Placed board s) : Placed board (uiModeNormal s) :=
  h.same (sameMenu_normal s)

theorem placed_menuInvoke (h : Placed board s) (env : Env) (item : Nat) :
    Placed board (menuInvoke board env item s) := by
  unfold menuInvoke
  split
  · exact h
  · rename_i m hitem
    have hplaced := placed_effect h (effect_invokeItem env h.toPath hitem)
    dsimp only
    split
    · exact hplaced.same (same_menuDraw board _ _)
    · exact hplaced

theorem drawn_menuInvoke (h : Placed board s) (env : Env) {item : Nat}
    (hitem : item < s.count board) : Drawn board (menuInvoke board env item s) := by
  obtain ⟨m, hm⟩ := Option.isSome_iff_exists.mp (item_isSome h.toPath hitem)
  have hplaced := placed_effect h (effect_invokeItem env h.toPath hm)
  rw [menuInvoke, hm]
  dsimp only
  split
  · exact drawn_all hplaced.toPath
  · exact drawn_of_mode ‹_›

theorem placed_selection (h : Placed board s) (selection : Int8) :
    Placed board { s with selection := selection } := h.congr rfl rfl rfl rfl

theorem sound_leverLoop (h : Placed board s) (hdrawn : Drawn board s) (unspecified : BitVec 32)
    (status : Status) (more : List Status) :
    Placed board (leverLoop board unspecified status more s) ∧
      Drawn board (leverLoop board unspecified status more s) := by
  induction more generalizing s status with
  | nil =>
    have hmoved := placed_selection h (movedSelection status s.selection)
    unfold leverLoop
    dsimp only
    split
    · exact ⟨placed_normal hmoved, drawn_normal _⟩
    · exact ⟨hmoved.same (same_menuDraw board _ _), drawn_moved h.toPath hdrawn unspecified _⟩
  | cons next more ih =>
    have hmoved := placed_selection h (movedSelection status s.selection)
    have hplaced := hmoved.same (same_menuDraw board
      (selectionBit unspecified s.selection |||
        selectionBit unspecified (movedSelection status s.selection)) _)
    have hshown := drawn_moved h.toPath hdrawn unspecified (movedSelection status s.selection)
    unfold leverLoop
    dsimp only
    split
    · exact ⟨placed_normal hmoved, drawn_normal _⟩
    · split
      · exact ⟨hplaced, hshown⟩
      · exact ih hplaced hshown next

theorem selection_inside (h : Path board s) (hinside : ¬ outside board s = true) :
    s.selection.toInt.toNat < s.count board := by
  have hcount := count_le h
  rw [outside, decide_eq_true_eq] at hinside
  have hlow := s.selection.le_toInt
  have hhigh := s.selection.toInt_lt
  simp only [menuButtonMax] at hcount
  omega

theorem sound_lever (h : Placed board s) (hdrawn : Drawn board s) (unspecified : BitVec 32)
    (env : Env) (status : Status) (more : List Status) :
    Placed board (uiMenuLever board unspecified env status more s) ∧
      Drawn board (uiMenuLever board unspecified env status more s) := by
  unfold uiMenuLever
  split
  · split
    · exact ⟨placed_normal h, drawn_normal s⟩
    · rename_i hinside
      exact ⟨placed_menuInvoke h env _,
        drawn_menuInvoke h env (selection_inside h.toPath hinside)⟩
  · exact sound_leverLoop h hdrawn unspecified status more

theorem same_pressButton (board : Board) (unspecified : BitVec 32) (i : Int16) (s : State) :
    SameMenu s (pressButton board unspecified i s) := ⟨rfl, rfl, rfl, rfl⟩

theorem button_inside (h : Path board s) {i : Int16} (hi : i.toInt % 65536 < s.count board) :
    0 ≤ i.toInt ∧ i.toInt.toNat < s.count board := by
  have hcount := count_le h
  have hlow := i.le_toInt
  have hhigh := i.toInt_lt
  simp only [menuButtonMax] at hcount
  omega

theorem sound_touch (h : Placed board s) (unspecified : BitVec 32) (env : Env)
    (touchX touchY : Int) :
    Placed board (uiMenuTouch board unspecified env touchX touchY s) ∧
      Drawn board (uiMenuTouch board unspecified env touchX touchY s) := by
  unfold uiMenuTouch
  dsimp only
  split
  · rename_i hhit
    have hsame := same_pressButton board unspecified
      (Int16.ofInt ((touchY - menuButtonYOffset).tdiv s.menuButtonHeight)) s
    have hinside := (button_inside h.toPath hhit.2).2
    rw [← count_same hsame] at hinside
    exact ⟨placed_menuInvoke (h.same hsame) env _, drawn_menuInvoke (h.same hsame) env hinside⟩
  · exact ⟨placed_normal h, drawn_normal s⟩

theorem sound_step (h : Placed board s) (hdrawn : Drawn board s) (unspecified : BitVec 32)
    (event : Event) :
    Placed board (step board unspecified s event) ∧
      Drawn board (step board unspecified s event) := by
  cases event with
  | openMenu =>
    rw [step]
    split
    · rename_i hnormal
      have hmode : s.uiMode ≠ .menu := by rw [hnormal]; decide
      have hshown : Placed board { s with uiMode := .menu } := h.congr rfl rfl rfl rfl
      rw [uiModeMenu, if_neg hmode]
      exact ⟨hshown.same (same_menuDraw board _ _), drawn_all hshown.toPath⟩
    · exact ⟨h, hdrawn⟩
  | openKeypad =>
    rw [step]
    split
    · rename_i hnormal
      have hmode : s.uiMode ≠ .keypad := by rw [hnormal]; decide
      refine ⟨h.same (sameMenu_keypad s), drawn_of_mode ?_⟩
      rw [uiModeKeypad, if_neg hmode]
      exact UiMode.noConfusion
    · exact ⟨h, hdrawn⟩
  | lever env status more =>
    rw [step]
    split
    · exact sound_lever h hdrawn unspecified env status more
    · exact ⟨h, hdrawn⟩
  | touch env touchX touchY =>
    rw [step]
    split
    · exact sound_touch h unspecified env touchX touchY
    · exact ⟨h, hdrawn⟩
  | other selection leave =>
    rw [step]
    split
    · rename_i hother
      have hmode : s.uiMode ≠ .menu := by
        obtain hmode | hmode := hother <;> rw [hmode] <;> decide
      have hplaced := placed_selection h selection
      dsimp only
      split
      · exact ⟨placed_normal hplaced, drawn_normal _⟩
      · exact ⟨hplaced, drawn_of_mode hmode⟩
    · exact ⟨h, hdrawn⟩
  | measure mode => exact ⟨h.congr rfl rfl rfl rfl, hdrawn⟩

theorem sound_run (board : Board) (unspecified : BitVec 32) (events : List Event) :
    Placed board (run board unspecified (initial board) events) ∧
      Drawn board (run board unspecified (initial board) events) := by
  have hinitial : Placed board (initial board) ∧ Drawn board (initial board) :=
    ⟨placed_reset _, drawn_of_mode UiMode.noConfusion⟩
  revert hinitial
  generalize initial board = s
  rintro ⟨hplaced, hdrawn⟩
  induction events generalizing s with
  | nil => exact ⟨hplaced, hdrawn⟩
  | cons event events ih =>
    obtain ⟨hplaced', hdrawn'⟩ := sound_step hplaced hdrawn unspecified event
    exact ih _ hplaced' hdrawn'

/-! ### Results -/

theorem le_buttonsOf {n : Nat} (h : n ≤ menuButtonMax) : n ≤ buttonsOf n := by
  unfold buttonsOf
  split
  · exact Nat.le_of_lt ‹_›
  · split
    · exact h
    · exact Nat.le_refl n

theorem buttons_fit (h : Placed board s) :
    s.count board * s.menuButtonHeight ≤ (layoutOf board).areaHeightNormal := by
  rw [h.height, menuButtonHeightOf]
  exact Nat.le_trans (Nat.mul_le_mul_right _ (le_buttonsOf (count_le h.toPath)))
    (Nat.mul_div_le _ _)

structure Sound (board : Board) (s : State) : Prop where
  level : s.menuCurrentLevel < menuStackDepthMax
  bottom : s.menuStack 0 = some .menuTop
  opened : ∀ i < s.menuCurrentLevel, ∃ m m', s.menuStack i = some m ∧
    s.menuStack (i + 1) = some m' ∧ Opens board m m'
  shared : ∀ i ≤ s.menuCurrentLevel, s.menuStack i = some .menuDynamicBuffer →
    i = s.menuCurrentLevel ∧ ∃ builder, s.menuDynamicBuffer = built board builder
  buttons : s.count board ≤ menuButtonMax
  items : ∀ i < s.count board, (s.item board i).isSome = true
  area : s.count board * s.menuButtonHeight ≤ (layoutOf board).areaHeightNormal
  drawn : s.uiMode = .menu →
    ∀ i, s.lit i = decide (i < s.count board ∧ (i : Int) = s.selection.toInt)

/-- Every run keeps the stack a path of the menu tree, the shared buffer on top of it, and the
screen the picture of the menu. -/
theorem menus_sound (board : Board) (unspecified : BitVec 32) (events : List Event) :
    Sound board (run board unspecified (initial board) events) := by
  obtain ⟨hplaced, hdrawn⟩ := sound_run board unspecified events
  generalize run board unspecified (initial board) events = s at *
  have hpath := hplaced.toPath
  refine ⟨?_, hpath.bottom, hpath.opened, fun i hi hdynamic => ?_, count_le hpath,
    fun i hi => item_isSome hpath hi, buttons_fit hplaced, hdrawn⟩
  · obtain ⟨m, -, -, -, -, hlevel⟩ := hpath.level (Nat.le_refl s.menuCurrentLevel)
    exact Nat.lt_succ_of_le hlevel
  · obtain ⟨m, hm, -, hstatic, -⟩ := hpath.level hi
    obtain rfl : m = .menuDynamicBuffer := Option.some.inj (hm.symm.trans hdynamic)
    have hlast : i = s.menuCurrentLevel := by
      refine Nat.le_antisymm hi (Nat.le_of_not_lt fun hlt => hstatic hlt rfl)
    exact ⟨hlast, hpath.shared (hlast ▸ hdynamic)⟩

theorem effect_level (h : Path board s) (heffect : Effect board s t) :
    t.menuCurrentLevel ≤ s.menuCurrentLevel ∨
      t.menuCurrentLevel = s.menuCurrentLevel + 1 ∧ t.uiMode = s.uiMode ∧
        (∀ j ≤ s.menuCurrentLevel, t.menuStack j = s.menuStack j) ∧
        ∃ m, s.top = some m ∧ m ≠ .menuDynamicBuffer := by
  cases heffect with
  | kept same => exact Or.inl (Nat.le_of_eq same.level)
  | closed same =>
    left
    rw [same.level, menuMoveBack]
    split
    · exact Nat.le_refl _
    · exact Nat.sub_le _ 1
  | opened buffer top static opens filled =>
    right
    have hlevel := level_lt h top opens
    rw [menuPushSubmenu, if_pos hlevel]
    exact ⟨rfl, rfl, fun j hj => Function.update_of_ne (Nat.ne_of_lt (Nat.lt_succ_of_le hj)) .., _,
      top, static⟩
  | replaced top old new => exact Or.inl (Nat.le_refl _)
  | restarted same =>
    left
    rw [same.level]
    exact Nat.zero_le _

theorem menuInvoke_of_item (env : Env) {i : Nat} {item : MenuItem}
    (hitem : s.item board i = some item) (hmode : (invokeItem board env s item).uiMode = .menu) :
    menuInvoke board env i s =
      menuDraw board (BitVec.allOnes 32) (invokeItem board env s item) := by
  rw [menuInvoke, hitem]
  exact if_pos hmode

theorem back_item (h : Path board s) (hlevel : 0 < s.menuCurrentLevel) :
    s.item board (s.count board - 1) = some (.callback .menuBackCb) := by
  obtain ⟨m, hm, -, htop, hfits⟩ := h.top
  rw [count_eq hm, item_eq hm]
  exact hfits.back (htop hlevel)

/-- The last button of a menu goes back to the menu it was opened from. -/
theorem back_after_open (board : Board) (unspecified : BitVec 32) (events : List Event)
    (env env' : Env) (i : Nat) :
    let s := run board unspecified (initial board) events
    let t := menuInvoke board env i s
    let u := menuInvoke board env' (t.count board - 1) t
    s.uiMode = .menu → s.menuCurrentLevel < t.menuCurrentLevel →
      u.uiMode = .menu ∧ u.menuCurrentLevel = s.menuCurrentLevel ∧
        (∀ j ≤ s.menuCurrentLevel, u.menuStack j = s.menuStack j) ∧
        u.menuButtonHeight = s.menuButtonHeight ∧ ∀ k, u.item board k = s.item board k := by
  intro s t u hmode hdeeper
  obtain ⟨hplaced, -⟩ := sound_run board unspecified events
  have hs : Placed board s := hplaced
  cases hitem : s.item board i with
  | none =>
    have hsame : t = s := by
      simp only [t, menuInvoke, hitem]
    rw [hsame] at hdeeper
    exact absurd hdeeper (Nat.lt_irrefl _)
  | some item =>
    have heffect := effect_invokeItem env hs.toPath hitem
    have ht : Placed board t := placed_menuInvoke hs env i
    have hlevels : SameMenu (invokeItem board env s item) t := by
      simp only [t, menuInvoke, hitem]
      split
      · exact same_menuDraw board _ _
      · exact sameMenu_refl _
    obtain hle | ⟨hlevel, hkept, hbelow, m, hm, hstatic⟩ := effect_level hs.toPath heffect
    · rw [hlevels.level] at hdeeper
      exact absurd hdeeper (Nat.not_lt.mpr hle)
    · have htmode : t.uiMode = .menu := by
        have hopen : (invokeItem board env s item).uiMode = .menu := hkept.trans hmode
        simp only [t]
        rw [menuInvoke_of_item env hitem hopen]
        exact hopen
      have htlevel : t.menuCurrentLevel = s.menuCurrentLevel + 1 := hlevels.level.trans hlevel
      have hback := back_item ht.toPath (htlevel ▸ Nat.succ_pos _)
      have hmoved : invokeItem board env' t (.callback .menuBackCb) =
          ensureSelection board { t with menuCurrentLevel := t.menuCurrentLevel - 1 } := by
        rw [invokeItem, apply, menuMoveBack, if_neg (by omega)]
        rfl
      have hu : u = menuDraw board (BitVec.allOnes 32)
          (ensureSelection board { t with menuCurrentLevel := t.menuCurrentLevel - 1 }) := by
        rw [← hmoved]
        exact menuInvoke_of_item env' hback (by rw [hmoved]; exact htmode)
      have hulevel : u.menuCurrentLevel = s.menuCurrentLevel := by
        rw [hu]
        exact (congrArg (· - 1) htlevel).trans (Nat.add_sub_cancel ..)
      have hustack : ∀ j ≤ s.menuCurrentLevel, u.menuStack j = s.menuStack j := by
        intro j hj
        rw [hu]
        exact (congrFun hlevels.stack j).trans (hbelow j hj)
      have hutop : u.top = some m := by
        rw [State.top, hulevel, hustack _ (Nat.le_refl _)]
        exact hm
      have huplaced : Placed board u := placed_menuInvoke ht env' _
      refine ⟨?_, hulevel, hustack, ?_, fun k => ?_⟩
      · rw [hu]
        exact htmode
      · have hcount : u.count board = s.count board := by
          rw [count_eq hutop, count_eq hm]
          exact (count_static hstatic).trans (count_static hstatic).symm
        rw [huplaced.height, hs.height, hcount]
      · rw [item_eq hutop, item_eq hm]
        exact (itemOf_static hstatic k).trans (itemOf_static hstatic k).symm

/-- From the top menu to the calibration menu and back. -/
theorem back_after_open_cal :
    let s := run .f303 0 (initial .f303) [.openMenu]
    let t := menuInvoke .f303 ⟨none, 0, none, false, false⟩ 0 s
    let u := menuInvoke .f303 ⟨none, 0, none, false, false⟩ (t.count .f303 - 1) t
    u.uiMode = .menu ∧ u.menuCurrentLevel = s.menuCurrentLevel ∧
      (∀ j ≤ s.menuCurrentLevel, u.menuStack j = s.menuStack j) ∧
      u.menuButtonHeight = s.menuButtonHeight ∧ ∀ k, u.item .f303 k = s.item .f303 k :=
  back_after_open .f303 0 [.openMenu] ⟨none, 0, none, false, false⟩ ⟨none, 0, none, false, false⟩ 0
    rfl (by decide)

section Touch

theorem buttonsOf_pos (n : Nat) : 0 < buttonsOf n := by
  unfold buttonsOf
  split
  · decide
  · rename_i hmin
    have hpos : 0 < menuButtonMin := by decide
    split
    · decide
    · exact Nat.lt_of_lt_of_le hpos (Nat.le_of_not_lt hmin)

theorem buttonsOf_le (n : Nat) : buttonsOf n ≤ menuButtonMax := by
  unfold buttonsOf
  split
  · decide
  · split
    · exact Nat.le_refl _
    · exact Nat.le_of_not_le ‹_›

theorem one_lt_height (h : Placed board s) : 1 < s.menuButtonHeight := by
  rw [h.height, menuButtonHeightOf]
  refine Nat.lt_of_succ_le ((Nat.le_div_iff_mul_le (buttonsOf_pos _)).mpr ?_)
  refine Nat.le_trans (Nat.mul_le_mul_left 2 (buttonsOf_le _)) ?_
  cases board <;> decide

/-- The row of a touch as the number of a button; the row above the first button is its too. -/
theorem tdiv_row {y : Int} {i h : Nat} (hh : 1 < h) (hlow : 1 + (i : Int) * h ≤ y ∨ i = 0 ∧ y = 0)
    (hhigh : y < 1 + ((i : Int) + 1) * h) : (y - 1).tdiv h = i := by
  obtain hlow | ⟨rfl, rfl⟩ := hlow
  · have hnonneg : (0 : Int) ≤ i * h := by positivity
    rw [Int.tdiv_eq_ediv_of_nonneg (by omega), Int.ediv_eq_iff_of_pos (by omega)]
    rw [Int.add_mul, Int.one_mul] at hhigh
    omega
  · have hzero : (1 : Int).tdiv h = 0 := Int.tdiv_eq_zero_of_lt (by decide) (by omega)
    rw [Int.zero_sub, Int.neg_tdiv, hzero]
    rfl

/-- A touch on a button calls its item and nothing else does; a touch anywhere else leaves the
menu. -/
theorem touch_on_button (board : Board) (unspecified : BitVec 32) (events : List Event)
    (env : Env) :
    let s := run board unspecified (initial board) events
    let l := layoutOf board
    s.uiMode = .menu →
      (∀ (i : Nat) (x y : Int), i < s.count board → (l.lcdWidth : Int) - l.menuButtonWidth < x →
        (1 + (i : Int) * s.menuButtonHeight ≤ y ∨ i = 0 ∧ y = 0) →
        y < 1 + ((i : Int) + 1) * s.menuButtonHeight →
        ∃ lit, uiMenuTouch board unspecified env x y s =
          menuInvoke board env i { s with selection := -1, lit := lit }) ∧
      ∀ x y : Int, 0 ≤ y → y < l.lcdHeight →
        (x ≤ (l.lcdWidth : Int) - l.menuButtonWidth ∨
          1 + (s.count board : Int) * s.menuButtonHeight ≤ y) →
        uiMenuTouch board unspecified env x y s = uiModeNormal s := by
  intro s l hmode
  obtain ⟨hplaced, -⟩ := sound_run board unspecified events
  have hs : Placed board s := hplaced
  have hheight := one_lt_height hs
  have hcount := count_le hs.toPath
  simp only [menuButtonMax] at hcount
  refine ⟨fun i x y hi hx hlow hhigh => ?_, fun x y hy0 hy hout => ?_⟩
  · have hrow : (y - (menuButtonYOffset : Nat)).tdiv s.menuButtonHeight = i :=
      tdiv_row hheight hlow hhigh
    have hint : (Int16.ofInt i).toInt = i := Int16.toInt_ofInt_of_le (by omega) (by omega)
    have hhit : (l.lcdWidth : Int) - l.menuButtonWidth < x ∧
        (Int16.ofInt i).toInt % 65536 < s.count board := by
      rw [hint]
      exact ⟨hx, by omega⟩
    refine ⟨(pressButton board unspecified (Int16.ofInt i) s).lit, ?_⟩
    rw [uiMenuTouch, hrow]
    refine (if_pos hhit).trans ?_
    rw [hint, Int.toNat_natCast]
    rfl
  · refine if_neg fun hhit => ?_
    obtain ⟨hright, hrow⟩ := hhit
    obtain hleft | hbelow := hout
    · exact absurd hright (Int.not_lt.mpr hleft)
    · have hheight0 : (0 : Int) < s.menuButtonHeight := by omega
      have hscreen : (l.lcdHeight : Int) < 2 ^ 15 := by
        simp only [l]
        cases board <;> decide
      have hcount0 : (0 : Int) ≤ s.count board * s.menuButtonHeight := by positivity
      have hdiv : (y - (menuButtonYOffset : Nat)).tdiv s.menuButtonHeight =
          (y - (menuButtonYOffset : Nat)) / s.menuButtonHeight :=
        Int.tdiv_eq_ediv_of_nonneg (by simp only [menuButtonYOffset]; omega)
      have hlow : (s.count board : Int) ≤ (y - (menuButtonYOffset : Nat)) / s.menuButtonHeight :=
        (Int.le_ediv_iff_mul_le hheight0).mpr (by simp only [menuButtonYOffset]; omega)
      have hhigh : (y - (menuButtonYOffset : Nat)) / (s.menuButtonHeight : Int) < 2 ^ 15 := by
        refine (Int.ediv_lt_iff_lt_mul hheight0).mpr ?_
        simp only [menuButtonYOffset]
        omega
      rw [hdiv, Int16.toInt_ofInt_of_le (by omega) hhigh] at hrow
      omega

/-- A touch on the first button of the top menu, and one left of the menu. -/
theorem touch_on_button_cal :
    let env : Env := ⟨none, 0, none, false, false⟩
    let s := run .f303 0 (initial .f303) [.openMenu]
    (∃ lit, uiMenuTouch .f303 0 env 400 10 s =
      menuInvoke .f303 env 0 { s with selection := -1, lit := lit }) ∧
      uiMenuTouch .f303 0 env 100 100 s = uiModeNormal s := by
  intro env s
  obtain ⟨hbutton, hother⟩ := touch_on_button .f303 0 [.openMenu] env rfl
  exact ⟨hbutton 0 400 10 (by decide) (by decide) (Or.inl (by decide)) (by decide),
    hother 100 100 (by decide) (by decide) (Or.inl (by decide))⟩

end Touch

end NanoVNA.MenuButtons
