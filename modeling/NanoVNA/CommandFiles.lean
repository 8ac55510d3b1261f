import Mathlib.Algebra.Order.BigOperators.Group.List
import Mathlib.Algebra.Order.Group.Nat

namespace NanoVNA.CommandFiles

abbrev Line := List UInt8

def cr : UInt8 := 13

def lf : UInt8 := 10

/-- `line_size` of the menu's loader. -/
def lineSize : Nat := 128

def shellMaxLength : Nat := 64

/-- `c < 0x20` does not hold. -/
def printable (c : UInt8) : Bool := 32 ≤ c

/-- `line[j++] = c` while there is room. -/
def collect (size : Nat) (line : Line) (c : UInt8) : Line :=
  if line.length < size then line ++ [c] else line

/-- `load_cmd`: the lines given to `vna_shell_execute_cmd_line`, from the byte on where `line` is
what the line buffer holds. The blocks of 256 bytes the file is read in do not matter, as the
line lives across them. -/
def loadCmdFrom (line : Line) : List UInt8 → List Line
  | [] => if line ≠ [] then [line] else []
  | c :: rest =>
    if c = cr then line :: loadCmdFrom [] rest
    else if c < 32 then loadCmdFrom line rest
    else loadCmdFrom (collect lineSize line c) rest

def loadCmd (content : List UInt8) : List Line := loadCmdFrom [] content

/-- `sd_card_load_config`, the same way. -/
def sdCardLoadConfigFrom (line : Line) (lastWasCr : Bool) : List UInt8 → List Line
  | [] => if line ≠ [] then [line] else []
  | c :: rest =>
    if c = cr ∨ c = lf then
      if c = lf ∧ lastWasCr then sdCardLoadConfigFrom line false rest
      else (if line ≠ [] then [line] else []) ++ sdCardLoadConfigFrom [] (c = cr) rest
    else if c < 32 then sdCardLoadConfigFrom line false rest
    else sdCardLoadConfigFrom (collect (shellMaxLength - 1) line c) false rest

def sdCardLoadConfig (content : List UInt8) : List Line := sdCardLoadConfigFrom [] false content

/-- The command lines among the lines executed: an empty one has no argument and runs nothing. -/
def commandLines (lines : List Line) : List Line := lines.filter (· ≠ [])

def kept (size : Nat) (piece : List UInt8) : Line := (piece.filter printable).take size

def isCr (c : UInt8) : Bool := c == cr

def isLf (c : UInt8) : Bool := c == lf

def crParts (content : List UInt8) : List (List UInt8) := content.splitOnP isCr

def lfParts (part : List UInt8) : List (List UInt8) := part.splitOnP isLf

/-- Between two carriage returns, line feeds set at most one command line off from empty ones, and
no line is longer than the shell takes. -/
def OneLineEach (content : List UInt8) : Prop :=
  ∀ part ∈ crParts content,
    ((lfParts part).filter (·.any printable)).length ≤ 1 ∧
      ∀ piece ∈ lfParts part, (piece.filter printable).length ≤ shellMaxLength - 1

instance (content : List UInt8) : Decidable (OneLineEach content) :=
  inferInstanceAs (Decidable (∀ part ∈ _, _ ∧ ∀ piece ∈ _, _))

section Splitting

variable {α : Type}

theorem splitOnP_or (p q : α → Bool) (xs : List α) :
    xs.splitOnP (fun x => p x || q x) = (xs.splitOnP p).flatMap (List.splitOnP q) := by
  induction xs with
  | nil => rfl
  | cons x xs ih =>
    obtain ⟨part, parts, hparts⟩ := List.exists_cons_of_ne_nil (List.splitOnP_ne_nil p xs)
    rw [hparts, List.flatMap_cons] at ih
    rw [List.splitOnP_cons_eq_if_modifyHead, List.splitOnP_cons_eq_if_modifyHead, ih, hparts]
    cases hp : p x with
    | true => rfl
    | false =>
      obtain ⟨piece, pieces, hpieces⟩ := List.exists_cons_of_ne_nil (List.splitOnP_ne_nil q part)
      simp only [Bool.false_or, Bool.false_eq_true, if_false, List.modifyHead_cons,
        List.flatMap_cons, List.splitOnP_cons_eq_if_modifyHead x part, hpieces]
      cases q x <;> rfl

theorem flatMap_filter_splitOnP {p r : α → Bool} (h : ∀ x, p x = true → r x = false) (xs : List α) :
    (xs.splitOnP p).flatMap (List.filter r) = xs.filter r := by
  induction xs with
  | nil => rfl
  | cons x xs ih =>
    obtain ⟨part, parts, hparts⟩ := List.exists_cons_of_ne_nil (List.splitOnP_ne_nil p xs)
    rw [hparts, List.flatMap_cons] at ih
    rw [List.splitOnP_cons_eq_if_modifyHead, hparts, List.filter_cons, ← ih]
    cases hp : p x with
    | true => simp only [if_true, List.flatMap_cons, List.filter_nil, List.nil_append, h x hp,
        Bool.false_eq_true, if_false]
    | false =>
      simp only [Bool.false_eq_true, if_false, List.modifyHead_cons, List.flatMap_cons,
        List.filter_cons]
      cases r x <;> rfl

theorem flatMap_eq_iff {β : Type} {f g : α → List β} {l : List α}
    (h : ∀ a ∈ l, (f a).length ≤ (g a).length) : l.flatMap f = l.flatMap g ↔ ∀ a ∈ l, f a = g a := by
  constructor
  · intro heq
    induction l with
    | nil => exact fun _ ha => nomatch ha
    | cons a l ih =>
      rw [List.forall_mem_cons] at h
      have hrest : (l.flatMap f).length ≤ (l.flatMap g).length := by
        rw [List.length_flatMap, List.length_flatMap]
        exact List.sum_le_sum h.2
      have hlen := congrArg List.length heq
      simp only [List.flatMap_cons, List.length_append] at heq hlen
      obtain ⟨ha, hl⟩ := List.append_inj heq (by omega)
      exact List.forall_mem_cons.mpr ⟨ha, ih h.2 hl⟩
  · exact fun heq => List.flatMap_congr heq

end Splitting

theorem not_printable {c : UInt8} (h : c < 32) : printable c = false :=
  decide_eq_false (UInt8.not_le.mpr h)

theorem printable_of_not_lt {c : UInt8} (h : ¬ c < 32) : printable c = true :=
  decide_eq_true (UInt8.not_lt.mp h)

theorem kept_append (size : Nat) (pre : List UInt8) {c : UInt8} (hc : printable c = true) :
    kept size (pre ++ [c]) = collect size (kept size pre) c := by
  unfold kept collect
  rw [List.filter_append, List.filter_cons_of_pos hc, List.filter_nil, List.take_append,
    List.length_take]
  split
  · rename_i hlt
    rw [List.take_of_length_le (l := [c])]
    rw [List.length_singleton]
    omega
  · rename_i hge
    have hroom : size - (pre.filter printable).length = 0 := by omega
    rw [hroom, List.take_zero, List.append_nil]

theorem kept_append_control (size : Nat) (pre : List UInt8) {c : UInt8} (hc : printable c = false) :
    kept size (pre ++ [c]) = kept size pre := by
  rw [kept, List.filter_append, List.filter_cons_of_neg (by rw [hc]; decide), List.filter_nil,
    List.append_nil, kept]

theorem commandLines_last (line : Line) :
    commandLines (if line ≠ [] then [line] else []) = commandLines [line] := by
  by_cases h : line = []
  · rw [h]
    rfl
  · rw [if_pos h]

theorem commandLines_cons (line : Line) (lines : List Line) :
    commandLines (line :: lines) = commandLines [line] ++ commandLines lines :=
  List.filter_append (p := (· ≠ [])) [line] lines

theorem commandLines_append (lines more : List Line) :
    commandLines (lines ++ more) = commandLines lines ++ commandLines more :=
  List.filter_append ..

/-- The menu's loader ends a line at every carriage return and nowhere else. -/
theorem commandLines_loadCmdFrom (pre content : List UInt8) :
    commandLines (loadCmdFrom (kept lineSize pre) content) =
      commandLines ((content.splitOnPPrepend isCr pre.reverse).map (kept lineSize)) := by
  induction content generalizing pre with
  | nil =>
    rw [loadCmdFrom, commandLines_last, List.splitOnPPrepend_nil, List.reverse_reverse]
    rfl
  | cons c rest ih =>
    rw [loadCmdFrom]
    split
    · rename_i hcr
      have hend : isCr c = true := beq_iff_eq.mpr hcr
      rw [List.splitOnPPrepend_cons_pos hend, List.reverse_reverse, List.map_cons,
        commandLines_cons _ (loadCmdFrom [] rest), commandLines_cons _ (List.map _ _),
        List.splitOnP_eq_splitOnPPrepend]
      exact congrArg _ (ih [])
    · rename_i hcr
      have hend : isCr c = false := beq_eq_false_iff_ne.mpr hcr
      rw [List.splitOnPPrepend_cons_neg hend]
      have hrev : c :: pre.reverse = (pre ++ [c]).reverse := by rw [List.reverse_append]; rfl
      rw [hrev, ← ih]
      split
      · rename_i hctl
        rw [kept_append_control _ _ (not_printable hctl)]
      · rename_i hctl
        rw [kept_append _ _ (printable_of_not_lt hctl)]

/-- The loader at the start ends a line at every carriage return and line feed; a line feed after
a carriage return would only end an empty line. -/
theorem commandLines_sdCardLoadConfigFrom (pre content : List UInt8) {lastWasCr : Bool}
    (hlast : lastWasCr = true → pre = []) :
    commandLines (sdCardLoadConfigFrom (kept (shellMaxLength - 1) pre) lastWasCr content) =
      commandLines ((content.splitOnPPrepend (fun c => isCr c || isLf c) pre.reverse).map
        (kept (shellMaxLength - 1))) := by
  induction content generalizing pre lastWasCr with
  | nil =>
    rw [sdCardLoadConfigFrom, commandLines_last, List.splitOnPPrepend_nil, List.reverse_reverse]
    rfl
  | cons c rest ih =>
    rw [sdCardLoadConfigFrom]
    split
    · rename_i hend
      have hend' : (isCr c || isLf c) = true := by simpa [isCr, isLf] using hend
      have hrest := @ih [] (c = cr) fun _ => rfl
      rw [List.splitOnPPrepend_cons_pos (p := fun c => isCr c || isLf c) hend', List.reverse_reverse, List.map_cons,
        commandLines_cons, List.splitOnP_eq_splitOnPPrepend]
      split
      · rename_i hskip
        rw [hlast hskip.2]
        exact ih [] nofun
      · rw [commandLines_append, commandLines_last]
        exact congrArg _ hrest
    · rename_i hend
      have hend' : (isCr c || isLf c) = false := by simpa [isCr, isLf] using hend
      rw [List.splitOnPPrepend_cons_neg (p := fun c => isCr c || isLf c) hend']
      have hrev : c :: pre.reverse = (pre ++ [c]).reverse := by rw [List.reverse_append]; rfl
      rw [hrev, ← @ih (pre ++ [c]) false nofun]
      split
      · rename_i hctl
        rw [kept_append_control _ _ (not_printable hctl)]
      · rename_i hctl
        rw [kept_append _ _ (printable_of_not_lt hctl)]

def texts (part : List UInt8) : List Line :=
  commandLines ((lfParts part).map (List.filter printable))

theorem commandLines_map {α : Type} (f : α → Line) (l : List α) :
    commandLines (l.map f) = l.flatMap fun a => commandLines [f a] := by
  induction l with
  | nil => rfl
  | cons a l ih => rw [List.map_cons, commandLines_cons, ih, List.flatMap_cons]

theorem commandLines_map_take {size : Nat} (hsize : 0 < size) (lines : List Line) :
    commandLines (lines.map (List.take size)) = (commandLines lines).map (List.take size) := by
  unfold commandLines
  rw [List.filter_map]
  congr 1
  apply List.filter_congr
  intro line _
  have hne : List.take size line ≠ [] ↔ line ≠ [] := by
    rw [Ne, Ne, List.take_eq_nil_iff]
    exact not_congr (or_iff_right hsize.ne')
  exact decide_eq_decide.mpr hne

theorem flatten_texts (part : List UInt8) : (texts part).flatten = part.filter printable := by
  have hcontrol (c : UInt8) (hc : isLf c = true) : printable c = false := by
    rw [beq_iff_eq.mp hc]
    rfl
  unfold texts commandLines lfParts
  rw [List.flatten_filter_ne_nil, ← List.flatMap_def, flatMap_filter_splitOnP hcontrol]

theorem commandLines_loadCmd (content : List UInt8) :
    commandLines (loadCmd content) =
      (crParts content).flatMap fun part => commandLines [(texts part).flatten.take lineSize] := by
  have h := commandLines_loadCmdFrom [] content
  rw [List.reverse_nil, ← List.splitOnP_eq_splitOnPPrepend, commandLines_map] at h
  simp only [flatten_texts]
  exact h

theorem commandLines_sdCardLoadConfig (content : List UInt8) :
    commandLines (sdCardLoadConfig content) =
      (crParts content).flatMap fun part => (texts part).map (List.take (shellMaxLength - 1)) := by
  have h := @commandLines_sdCardLoadConfigFrom [] content false nofun
  rw [List.reverse_nil, ← List.splitOnP_eq_splitOnPPrepend, splitOnP_or, List.map_flatMap] at h
  refine h.trans (List.filter_flatMap.trans (List.flatMap_congr fun part _ => ?_))
  have htake := @commandLines_map_take (shellMaxLength - 1) (by decide)
    ((lfParts part).map (List.filter printable))
  rw [List.map_map] at htake
  exact htake

theorem texts_iff (part : List UInt8) :
    (texts part).length ≤ 1 ∧ (∀ text ∈ texts part, text.length ≤ shellMaxLength - 1) ↔
      ((lfParts part).filter (·.any printable)).length ≤ 1 ∧
        ∀ piece ∈ lfParts part, (piece.filter printable).length ≤ shellMaxLength - 1 := by
  have hany (piece : List UInt8) : decide (piece.filter printable ≠ []) = piece.any printable := by
    rw [Bool.eq_iff_iff, decide_eq_true_iff, Ne, List.filter_eq_nil_iff, List.any_eq_true]
    push Not
    exact Iff.rfl
  have hlen : (texts part).length = ((lfParts part).filter (·.any printable)).length := by
    rw [texts, commandLines, List.filter_map, List.length_map]
    exact congrArg List.length (List.filter_congr fun piece _ => hany piece)
  rw [hlen]
  refine and_congr_right fun _ => ⟨fun h piece hpiece => ?_, fun h text htext => ?_⟩
  · by_cases hempty : piece.filter printable = []
    · rw [hempty]
      exact Nat.zero_le _
    · have hmem := List.mem_map_of_mem (f := List.filter printable) hpiece
      exact h _ (List.mem_filter.mpr ⟨hmem, decide_eq_true hempty⟩)
  · obtain ⟨piece, hpiece, rfl⟩ := List.mem_map.mp (List.mem_filter.mp htext).1
    exact h piece hpiece

theorem commandLines_singleton {line : Line} (h : line ≠ []) : commandLines [line] = [line] :=
  List.filter_cons_of_pos (decide_eq_true h)

theorem take_ne_nil {size : Nat} (hsize : 0 < size) {line : Line} (h : line ≠ []) :
    line.take size ≠ [] := by
  rw [Ne, List.take_eq_nil_iff]
  exact not_or.mpr ⟨hsize.ne', h⟩

theorem part_length_le {lines : List Line} (h : ∀ line ∈ lines, line ≠ []) :
    (commandLines [lines.flatten.take lineSize]).length ≤
      (lines.map (List.take (shellMaxLength - 1))).length := by
  cases lines with
  | nil => exact Nat.zero_le _
  | cons line lines =>
    have hle : (commandLines [(line :: lines).flatten.take lineSize]).length ≤ 1 :=
      List.length_filter_le _ [(line :: lines).flatten.take lineSize]
    rw [List.map_cons, List.length_cons]
    omega

theorem part_iff {lines : List Line} (h : ∀ line ∈ lines, line ≠ []) :
    commandLines [lines.flatten.take lineSize] = lines.map (List.take (shellMaxLength - 1)) ↔
      lines.length ≤ 1 ∧ ∀ line ∈ lines, line.length ≤ shellMaxLength - 1 := by
  match lines with
  | [] => exact iff_of_true rfl ⟨Nat.zero_le 1, nofun⟩
  | [line] =>
    have hne : line.take lineSize ≠ [] := take_ne_nil (by decide) (h line List.mem_cons_self)
    rw [List.flatten_singleton, commandLines_singleton hne, List.map_singleton, List.cons.injEq,
      and_iff_left rfl]
    constructor
    · intro heq
      have hlen := congrArg List.length heq
      rw [List.length_take, List.length_take] at hlen
      refine ⟨Nat.le_refl 1, fun text htext => ?_⟩
      rw [List.mem_singleton.mp htext]
      simp only [lineSize, shellMaxLength] at hlen ⊢
      omega
    · intro hshort
      have hlen := hshort.2 line List.mem_cons_self
      rw [List.take_of_length_le hlen,
        List.take_of_length_le (Nat.le_trans hlen (show shellMaxLength - 1 ≤ lineSize by decide))]
  | first :: second :: rest =>
    refine iff_of_false (fun heq => ?_) fun hshort => absurd hshort.1 (by simp)
    have hlen := congrArg List.length heq
    have hle : (commandLines [(first :: second :: rest).flatten.take lineSize]).length ≤ 1 :=
      List.length_filter_le _ [(first :: second :: rest).flatten.take lineSize]
    rw [List.length_map, List.length_cons, List.length_cons] at hlen
    omega

def bytes (s : String) : List UInt8 := s.toList.map fun c => UInt8.ofNat c.toNat

end NanoVNA.CommandFiles
