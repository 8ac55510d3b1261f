import Mathlib.Data.List.Induction
import Mathlib.Data.List.Nodup
import Mathlib.Logic.Function.Basic
import Mathlib.Order.Lattice
import NanoVNA.Numerals
import NanoVNA.PlotLayout

namespace NanoVNA.FileBrowser

open NanoVNA.DeviceState NanoVNA.PlotLayout

/-! ### The files of a format -/

/-- `FILINFO`, as far as the browser and `f_unlink` read it. -/
structure FileInfo where
  fname : List Char
  isDir : Bool
  readOnly : Bool

/-- A directory in the order of `f_readdir`. -/
structure Directory where
  entries : List FileInfo
  nodup : (entries.map FileInfo.fname).Nodup

def strcmpi : List Char → List Char → Bool
  | [], [] => true
  | c1 :: t1, c2 :: t2 => c1.toLower == c2.toLower && strcmpi t1 t2
  | _, _ => false

def afterDot (found : Option (List Char)) : List Char → Option (List Char)
  | [] => found
  | c :: rest => afterDot (if c = '.' then some rest else found) rest

def compareExt (name ext : List Char) : Bool :=
  match afterDot none name with
  | none => false
  | some text => strcmpi text ext

variable (ext : List Char)

def sdFindnext : List FileInfo → Option (FileInfo × List FileInfo)
  | [] => none
  | fno :: rest =>
    if fno.isDir then sdFindnext rest
    else if compareExt fno.fname ext then some (fno, rest)
    else sdFindnext rest

/-- What the calls of `sd_findnext` return one after another. -/
def sdFiles (entries : List FileInfo) : List FileInfo :=
  entries.filter fun fno => !fno.isDir && compareExt fno.fname ext

theorem sdFindnext_eq (entries : List FileInfo) :
    match sdFindnext ext entries with
    | none => sdFiles ext entries = []
    | some (fno, rest) => sdFiles ext entries = fno :: sdFiles ext rest := by
  induction entries with
  | nil => rfl
  | cons fno rest ih =>
    rw [sdFindnext]
    by_cases hdir : fno.isDir
    · simpa [hdir, sdFiles] using ih
    · by_cases hext : compareExt fno.fname ext
      · simp [hdir, hext, sdFiles]
      · simpa [hdir, hext, sdFiles] using ih

/-- `f_unlink` on the name of a file; a file that is read-only stays. -/
def Directory.unlink (d : Directory) (name : List Char) : Directory where
  entries := d.entries.filter fun fno => fno.readOnly || fno.fname != name
  nodup := d.nodup.sublist (List.filter_sublist.map _)

/-! ### The browser -/

structure FileOpt where
  ext : List Char
  hasLoad : Bool
  isContinued : Bool

/-- The browser and its card; `drawn` is the name on each of the file buttons. -/
structure Browser where
  dir : Directory
  fileCount : ℕ
  pageCount : ℕ
  currentPage : ℕ
  deleteMode : Bool
  drawn : ℕ → Option (List Char)
  active : Bool

inductive Act
  | opened (name : List Char)
  | deleted (name : List Char)

def Act.name : Act → List Char
  | .opened name => name
  | .deleted name => name

inductive ViewKey
  | previous
  | next
  | exit

def filesPerPage (b : Board) : ℕ := (layoutOf b).lcdWidth / 160 * 10

def fileButtonLeft : ℕ := 0
def fileButtonRight : ℕ := 1
def fileButtonExit : ℕ := 2
def fileButtonDel : ℕ := 3
def fileButtonFile : ℕ := 4

/-- The loop of `browser_open_file`, over the files that are found. Behind the last one
`f_readdir` leaves an empty name. -/
def openLoop : List FileInfo → ℕ → Option (List Char)
  | [], 0 => some []
  | [], _ + 1 => none
  | fno :: _, 0 => some fno.fname
  | _ :: rest, cnt + 1 => openLoop rest cnt

section Code

variable (b : Board) (o : FileOpt) (s : Browser)

def Browser.files : List FileInfo := sdFiles o.ext s.dir.entries

def turn (sel : ℕ) : ViewKey → ℕ
  | .previous => if sel = 0 then s.fileCount - 1 else sel - 1
  | .next => if s.fileCount - 1 < sel + 1 then 0 else sel + 1
  | .exit => sel

def viewFiles (sel : ℕ) : List ViewKey → List Act
  | [] => []
  | .exit :: _ => []
  | key :: rest =>
    let next := turn s sel key
    if next = sel then viewFiles sel rest
    else
      match openLoop (s.files o) next with
      | none => []
      | some name => .opened name :: viewFiles next rest

def browserOpenFile (sel : ℕ) (views : List ViewKey) : List Act × Directory :=
  if s.fileCount ≤ sel % 2 ^ 16 then ([], s.dir)
  else
    match openLoop (s.files o) sel with
    | none => ([], s.dir)
    | some name =>
      if s.deleteMode then ([.deleted name], s.dir.unlink name)
      else if !o.hasLoad then ([], s.dir)
      else if o.isContinued then (.opened name :: viewFiles o s sel views, s.dir)
      else ([.opened name], s.dir)

/-- The loop of `browser_draw_page`, over the files that are found. -/
def drawLoop (start : ℕ) : List FileInfo → ℕ → (ℕ → Option (List Char)) →
    ℕ × (ℕ → Option (List Char))
  | [], cnt, drawn => (cnt, drawn)
  | fno :: rest, cnt, drawn =>
    let drawn := if start ≤ cnt ∧ cnt < start + filesPerPage b then
        Function.update drawn (cnt - start) (some fno.fname)
      else drawn
    if s.fileCount ≠ 0 ∧ start + filesPerPage b = cnt + 1 then (cnt + 1, drawn)
    else drawLoop start rest (cnt + 1) drawn

def browserDrawPage : Browser :=
  let start := (s.currentPage - 1) * filesPerPage b % 2 ^ 16
  let (cnt, drawn) := drawLoop b s start (s.files o) 0 s.drawn
  let s := if s.fileCount = 0 then
      { s with
        fileCount := cnt % 2 ^ 16
        pageCount := if cnt = 0 then 1
          else (cnt % 2 ^ 16 + filesPerPage b - 1) / filesPerPage b }
    else s
  { s with drawn := fun i => if cnt - start ≤ i ∧ i < filesPerPage b then none else drawn i }

def turnPage (page : ℕ) : Browser :=
  if s.currentPage ≠ page then browserDrawPage b o { s with currentPage := page } else s

def browserKeyPress (key : ℕ) (views : List ViewKey) : List Act × Browser :=
  if key = fileButtonLeft then
    let page := (s.currentPage + 2 ^ 16 - 1) % 2 ^ 16
    ([], turnPage b o s (if page < 1 then s.pageCount else page))
  else if key = fileButtonRight then
    let page := (s.currentPage + 1) % 2 ^ 16
    ([], turnPage b o s (if s.pageCount < page then 1 else page))
  else if key = fileButtonExit then ([], { s with active := false })
  else if key = fileButtonDel then ([], { s with deleteMode := !s.deleteMode })
  else
    let sel := key - fileButtonFile + (s.currentPage - 1) * filesPerPage b
    let (acts, dir) := browserOpenFile o s sel views
    if s.deleteMode then
      (acts, browserDrawPage b o { s with dir, fileCount := 0, deleteMode := false })
    else (acts, { s with dir, active := false })

def browserGetMax : ℕ :=
  let max := if s.currentPage = s.pageCount then s.fileCount % filesPerPage b else filesPerPage b
  let max := if 0 < s.fileCount ∧ max = 0 then filesPerPage b else max
  max + fileButtonFile - 1

/-- `ui_mode_browser`, on what is on the buttons before. -/
def uiModeBrowser (dir : Directory) (drawn : ℕ → Option (List Char)) : Browser :=
  browserDrawPage b o
    { dir, fileCount := 0, pageCount := 0, currentPage := 1, deleteMode := false, drawn,
      active := true }

structure Press where
  key : ℕ
  views : List ViewKey

/-- A press while the browser is shown, of one of the buttons that can be selected. -/
def press (p : Press) : List Act × Browser :=
  if s.active ∧ p.key ≤ browserGetMax b s then browserKeyPress b o s p.key p.views else ([], s)

def run (ps : List Press) : Browser :=
  ps.foldl (fun s p => (press b o s p).2) s

end Code

/-! ### The walks over the directory -/

theorem filesPerPage_pos (b : Board) : 0 < filesPerPage b := by
  cases b <;> decide

theorem openLoop_eq (fs : List FileInfo) (cnt : ℕ) (h : cnt < fs.length) :
    openLoop fs cnt = some fs[cnt].fname := by
  induction fs generalizing cnt with
  | nil => exact absurd h (Nat.not_lt_zero cnt)
  | cons fno rest ih =>
    cases cnt with
    | zero => rfl
    | succ cnt => exact ih cnt (Nat.lt_of_succ_lt_succ h)

section Drawing

variable {b : Board} {o : FileOpt} {s : Browser}

theorem drawLoop_count (start : ℕ) (fs : List FileInfo) (cnt : ℕ)
    (drawn : ℕ → Option (List Char)) (h : s.fileCount ≠ 0 → cnt < start + filesPerPage b) :
    (drawLoop b s start fs cnt drawn).1 =
      if s.fileCount = 0 then cnt + fs.length
      else min (cnt + fs.length) (start + filesPerPage b) := by
  induction fs generalizing cnt drawn with
  | nil =>
    simp only [drawLoop, List.length_nil, Nat.add_zero]
    split
    next => rfl
    next hne => exact (min_eq_left (h hne).le).symm
  | cons fno rest ih =>
    simp only [drawLoop, List.length_cons]
    split
    next hstop =>
      rw [if_neg hstop.1]
      omega
    next hgo =>
      rw [ih (cnt + 1) _ ?_, Nat.add_assoc, Nat.add_comm 1]
      intro hne
      have hlt := h hne
      have hlast : start + filesPerPage b ≠ cnt + 1 := fun heq => hgo ⟨hne, heq⟩
      omega

theorem drawLoop_drawn (start : ℕ) (fs : List FileInfo) (cnt : ℕ)
    (drawn : ℕ → Option (List Char)) {i : ℕ} (hi : i < filesPerPage b) :
    (drawLoop b s start fs cnt drawn).2 i =
      if cnt ≤ start + i then ((fs[start + i - cnt]?).map FileInfo.fname).or (drawn i)
      else drawn i := by
  induction fs generalizing cnt drawn with
  | nil => simp [drawLoop]
  | cons fno rest ih =>
    have hupdate : (if start ≤ cnt ∧ cnt < start + filesPerPage b then
          Function.update drawn (cnt - start) (some fno.fname) else drawn) i =
        if start + i = cnt then some fno.fname else drawn i := by
      split
      next hpage =>
        by_cases heq : start + i = cnt
        · have hcell : i = cnt - start := by omega
          rw [if_pos heq, hcell, Function.update_self]
        · have hcell : i ≠ cnt - start := by omega
          rw [if_neg heq, Function.update_of_ne hcell]
      next hpage =>
        rw [if_neg (by omega)]
    simp only [drawLoop]
    split
    next hstop =>
      dsimp only
      obtain heq | hlt : start + i = cnt ∨ start + i < cnt := by omega
      · simp [hupdate, heq]
      · rw [hupdate, if_neg hlt.ne, if_neg (by omega)]
    next =>
      rw [ih, hupdate]
      obtain hlt | heq | hgt := lt_trichotomy (start + i) cnt
      · rw [if_neg (by omega), if_neg hlt.ne, if_neg (by omega)]
      · rw [if_neg (by omega), if_pos heq, if_pos heq.ge, heq, Nat.sub_self]
        rfl
      · obtain ⟨d, hd⟩ := Nat.exists_eq_add_of_lt hgt
        have hrest : cnt + d + 1 - (cnt + 1) = d := by omega
        have hfirst : cnt + d + 1 - cnt = d + 1 := by omega
        rw [if_pos (by omega), if_neg hgt.ne', if_pos hgt.le, hd, hrest, hfirst,
          List.getElem?_cons_succ]

def pagesOf (b : Board) (n : ℕ) : ℕ :=
  if n = 0 then 1 else (n + filesPerPage b - 1) / filesPerPage b

theorem pagesOf_pos (b : Board) (n : ℕ) : 1 ≤ pagesOf b n := by
  unfold pagesOf
  split
  next => exact le_refl 1
  next hn =>
    rw [Nat.le_div_iff_mul_le (filesPerPage_pos b)]
    omega

theorem le_pagesOf_iff {n page : ℕ} (hn : n ≠ 0) (hpage : 1 ≤ page) :
    page ≤ pagesOf b n ↔ (page - 1) * filesPerPage b < n := by
  obtain ⟨k, rfl⟩ := Nat.exists_eq_add_of_le' hpage
  have hpos := filesPerPage_pos b
  rw [pagesOf, if_neg hn, Nat.le_div_iff_mul_le hpos, Nat.add_sub_cancel, Nat.succ_mul]
  omega

theorem pagesOf_start (b : Board) (n : ℕ) : (pagesOf b n - 1) * filesPerPage b ≤ n := by
  by_cases hn : n = 0
  · simp [pagesOf, hn]
  · exact ((le_pagesOf_iff hn (pagesOf_pos b n)).mp (le_refl _)).le

def pageStart (b : Board) (s : Browser) : ℕ := (s.currentPage - 1) * filesPerPage b

structure Paged (b : Board) (o : FileOpt) (s : Browser) : Prop where
  fits : (s.files o).length < 2 ^ 16
  count : s.fileCount = (s.files o).length
  pages : s.pageCount = pagesOf b (s.files o).length
  page_pos : 1 ≤ s.currentPage
  page : pageStart b s ≤ (s.files o).length
  drawn : ∀ i < filesPerPage b, s.drawn i = ((s.files o)[pageStart b s + i]?).map FileInfo.fname

@[simp] theorem browserDrawPage_dir : (browserDrawPage b o s).dir = s.dir := by
  unfold browserDrawPage
  dsimp only
  split <;> rfl

@[simp] theorem browserDrawPage_currentPage :
    (browserDrawPage b o s).currentPage = s.currentPage := by
  unfold browserDrawPage
  dsimp only
  split <;> rfl

theorem browserDrawPage_files : (browserDrawPage b o s).files o = s.files o := by
  simp only [Browser.files, browserDrawPage_dir]

theorem browserDrawPage_drawn (hfits : (s.files o).length < 2 ^ 16)
    (hpage : pageStart b s ≤ (s.files o).length) {i : ℕ} (hi : i < filesPerPage b) :
    (browserDrawPage b o s).drawn i = ((s.files o)[pageStart b s + i]?).map FileInfo.fname := by
  have hstart : (s.currentPage - 1) * filesPerPage b % 2 ^ 16 = pageStart b s :=
    Nat.mod_eq_of_lt (hpage.trans_lt hfits)
  have herase : (browserDrawPage b o s).drawn i =
      let r := drawLoop b s (pageStart b s) (s.files o) 0 s.drawn
      if r.1 - pageStart b s ≤ i ∧ i < filesPerPage b then none else r.2 i := by
    unfold browserDrawPage
    rw [hstart]
  have hcount := drawLoop_count (b := b) (s := s) (pageStart b s) (s.files o) 0 s.drawn
    fun _ => by omega
  rw [herase]
  dsimp only
  rw [drawLoop_drawn _ _ _ _ hi, hcount, if_pos (Nat.zero_le _), Nat.sub_zero, Nat.zero_add]
  by_cases hend : pageStart b s + i < (s.files o).length
  · have hkeep : ¬ ((if s.fileCount = 0 then (s.files o).length
        else min (s.files o).length (pageStart b s + filesPerPage b)) - pageStart b s ≤ i ∧
          i < filesPerPage b) := by
      split <;> omega
    rw [if_neg hkeep, List.getElem?_eq_getElem hend]
    rfl
  · rw [if_pos, List.getElem?_eq_none (not_lt.mp hend)]
    · rfl
    · split <;> omega

theorem browserDrawPage_paged (hfits : (s.files o).length < 2 ^ 16)
    (hcount : s.fileCount ≠ 0 → s.fileCount = (s.files o).length ∧
      s.pageCount = pagesOf b (s.files o).length)
    (hpos : 1 ≤ s.currentPage) (hpage : pageStart b s ≤ (s.files o).length) :
    Paged b o (browserDrawPage b o s) := by
  have hstart : pageStart b (browserDrawPage b o s) = pageStart b s := by
    simp only [pageStart, browserDrawPage_currentPage]
  have hcounts : (browserDrawPage b o s).fileCount = (s.files o).length ∧
      (browserDrawPage b o s).pageCount = pagesOf b (s.files o).length := by
    by_cases hzero : s.fileCount = 0
    · have hall := drawLoop_count (b := b) (s := s)
        ((s.currentPage - 1) * filesPerPage b % 2 ^ 16) (s.files o) 0 s.drawn
        fun h => absurd hzero h
      rw [if_pos hzero, Nat.zero_add] at hall
      unfold browserDrawPage
      dsimp only
      rw [if_pos hzero, hall, Nat.mod_eq_of_lt hfits]
      exact ⟨rfl, rfl⟩
    · unfold browserDrawPage
      dsimp only
      rw [if_neg hzero]
      exact hcount hzero
  refine ⟨?_, ?_, ?_, ?_, ?_, fun i hi => ?_⟩
  · rwa [browserDrawPage_files]
  · rw [browserDrawPage_files, hcounts.1]
  · rw [browserDrawPage_files, hcounts.2]
  · rwa [browserDrawPage_currentPage]
  · rwa [browserDrawPage_files, hstart]
  · rw [browserDrawPage_files, hstart, browserDrawPage_drawn hfits hpage hi]

end Drawing

/-! ### What the keys do -/

section Keys

variable {b : Board} {o : FileOpt} {s : Browser}

def InRange (o : FileOpt) (s : Browser) : Prop :=
  s.files o ≠ [] → 1 ≤ s.currentPage ∧ s.currentPage ≤ s.pageCount

theorem Paged.inRange_iff (h : Paged b o s) :
    InRange o s ↔ ((s.files o).length ≠ 0 → pageStart b s < (s.files o).length) := by
  rw [InRange, ← List.length_pos_iff, Nat.pos_iff_ne_zero, h.pages]
  refine forall_congr' fun hne => ?_
  rw [le_pagesOf_iff hne h.page_pos]
  exact and_iff_right h.page_pos

theorem turnPage_paged (h : Paged b o s) {page : ℕ} (hpos : 1 ≤ page) (hle : page ≤ s.pageCount) :
    Paged b o (turnPage b o s page) ∧ InRange o (turnPage b o s page) := by
  have hpages := h.pages
  have hstart : (page - 1) * filesPerPage b ≤ (s.files o).length := by
    have hlast := pagesOf_start b (s.files o).length
    rw [← hpages] at hlast
    exact (Nat.mul_le_mul_right _ (Nat.sub_le_sub_right hle 1)).trans hlast
  have hpaged : Paged b o (turnPage b o s page) := by
    unfold turnPage
    split
    next => exact browserDrawPage_paged h.fits (fun _ => ⟨h.count, h.pages⟩) hpos hstart
    next => exact h
  have hpage : (turnPage b o s page).currentPage = page := by
    unfold turnPage
    split
    next => exact browserDrawPage_currentPage
    next heq => exact not_not.mp heq
  have hfiles : (turnPage b o s page).files o = s.files o := by
    unfold turnPage
    split
    next => exact browserDrawPage_files
    next => rfl
  refine ⟨hpaged, hpaged.inRange_iff.mpr fun hne => ?_⟩
  rw [hfiles] at hne ⊢
  rw [pageStart, hpage]
  exact (le_pagesOf_iff hne hpos).mp (hpages ▸ hle)

theorem Paged.drawn_eq (h : Paged b o s) {i : ℕ} (hi : i < filesPerPage b) {name : List Char}
    (hname : s.drawn i = some name) :
    ∃ hlt : pageStart b s + i < (s.files o).length,
      ((s.files o)[pageStart b s + i]).fname = name := by
  rw [h.drawn i hi] at hname
  obtain ⟨fno, hfno, hfname⟩ := Option.map_eq_some_iff.mp hname
  obtain ⟨hlt, hget⟩ := List.getElem?_eq_some_iff.mp hfno
  exact ⟨hlt, by rw [hget, hfname]⟩

theorem openLoop_none (fs : List FileInfo) (cnt : ℕ) (h : fs.length < cnt) :
    openLoop fs cnt = none := by
  induction fs generalizing cnt with
  | nil =>
    cases cnt with
    | zero => exact absurd h (Nat.lt_irrefl 0)
    | succ cnt => rfl
  | cons fno rest ih =>
    cases cnt with
    | zero => exact absurd h (Nat.not_lt_zero _)
    | succ cnt => exact ih cnt (Nat.lt_of_succ_lt_succ h)

theorem Paged.openFile_none (h : Paged b o s) {i : ℕ} (hi : i < filesPerPage b)
    (hname : s.drawn i = none) (views : List ViewKey) :
    browserOpenFile o s (i + pageStart b s) views = ([], s.dir) := by
  rw [h.drawn i hi, Option.map_eq_none_iff, List.getElem?_eq_none_iff, Nat.add_comm] at hname
  have hfits := h.fits
  unfold browserOpenFile
  rw [h.count]
  split
  next => rfl
  next hwrap =>
    -- the index has passed the check as its upper bits were cut off
    have hbehind : (s.files o).length < i + pageStart b s := by
      by_contra hle
      rw [Nat.mod_eq_of_lt (by omega)] at hwrap
      exact hwrap hname
    rw [openLoop_none _ _ hbehind]

theorem Paged.openFile_some (h : Paged b o s) {i : ℕ} (hi : i < filesPerPage b)
    {name : List Char} (hname : s.drawn i = some name) (views : List ViewKey) :
    browserOpenFile o s (i + pageStart b s) views =
      if s.deleteMode then ([.deleted name], s.dir.unlink name)
      else if !o.hasLoad then ([], s.dir)
      else if o.isContinued then
        (.opened name :: viewFiles o s (i + pageStart b s) views, s.dir)
      else ([.opened name], s.dir) := by
  obtain ⟨hlt, hfname⟩ := h.drawn_eq hi hname
  have hfits := h.fits
  have hsel : pageStart b s + i = i + pageStart b s := Nat.add_comm _ _
  simp only [hsel] at hlt hfname
  unfold browserOpenFile
  rw [h.count, Nat.mod_eq_of_lt (hlt.trans hfits), if_neg hlt.not_ge, openLoop_eq _ _ hlt, hfname]

theorem unlink_length (ext : List Char) (d : Directory) {k : ℕ}
    (hk : k < (sdFiles ext d.entries).length) :
    (sdFiles ext (d.unlink ((sdFiles ext d.entries)[k]).fname).entries).length =
      (sdFiles ext d.entries).length - if ((sdFiles ext d.entries)[k]).readOnly then 0 else 1 := by
  have hcomm (name : List Char) : sdFiles ext (d.unlink name).entries =
      (sdFiles ext d.entries).filter fun fno => fno.readOnly || fno.fname != name := by
    simp only [sdFiles, Directory.unlink, List.filter_filter, Bool.and_comm]
  have hnodup : ((sdFiles ext d.entries).map FileInfo.fname).Nodup :=
    d.nodup.sublist (List.filter_sublist.map _)
  rw [hcomm]
  generalize sdFiles ext d.entries = fs at *
  have hsame : ∀ fno ∈ fs, fno.fname = fs[k].fname → fno = fs[k] := fun fno hfno heq =>
    List.inj_on_of_nodup_map hnodup hfno (List.getElem_mem hk) heq
  by_cases hro : fs[k].readOnly
  · rw [if_pos hro, Nat.sub_zero, List.filter_eq_self.mpr]
    intro fno hfno
    by_cases heq : fno.fname = fs[k].fname
    · rw [hsame fno hfno heq, hro, Bool.true_or]
    · simp [heq]
  · rw [if_neg hro]
    have hfilter : (fs.filter fun fno => fno.readOnly || fno.fname != fs[k].fname) =
        fs.filter fun fno => fno.fname != fs[k].fname := by
      refine List.filter_congr fun fno hfno => ?_
      by_cases heq : fno.fname = fs[k].fname
      · have hread := hsame fno hfno heq
        subst hread
        simp [hro]
      · simp [heq]
    have hnames : (fs.filter fun fno => fno.fname != fs[k].fname).map FileInfo.fname =
        (fs.map FileInfo.fname).erase fs[k].fname := by
      rw [hnodup.erase_eq_filter, List.filter_map]
      rfl
    rw [hfilter, ← List.length_map (f := FileInfo.fname), hnames, List.length_erase_of_mem,
      List.length_map]
    exact List.mem_map_of_mem (List.getElem_mem hk)

theorem redrawn (h : Paged b o s) (dir : Directory) {n : ℕ}
    (hn : (sdFiles o.ext dir.entries).length = n) (hle : n ≤ (s.files o).length)
    (hstart : pageStart b s ≤ n) :
    Paged b o (browserDrawPage b o { s with dir, fileCount := 0, deleteMode := false }) ∧
      (InRange o (browserDrawPage b o { s with dir, fileCount := 0, deleteMode := false }) ↔
        (n ≠ 0 → pageStart b s < n)) := by
  subst hn
  have hpaged := browserDrawPage_paged (b := b) (o := o)
    (s := { s with dir, fileCount := 0, deleteMode := false }) (hle.trans_lt h.fits)
    (fun hne => absurd rfl hne) h.page_pos hstart
  refine ⟨hpaged, ?_⟩
  rw [hpaged.inRange_iff, browserDrawPage_files, pageStart, browserDrawPage_currentPage]
  rfl

theorem browserGetMax_eq (h : Paged b o s) (hrange : InRange o s) :
    browserGetMax b s + 1 =
      fileButtonFile + min (filesPerPage b) ((s.files o).length - pageStart b s) := by
  have hper := filesPerPage_pos b
  have hrange' := h.inRange_iff.mp hrange
  have hstart := h.page
  unfold browserGetMax fileButtonFile
  dsimp only
  rw [h.count, h.pages]
  generalize hn : (s.files o).length = n at *
  by_cases hzero : n = 0
  · subst hzero
    have hpage : s.currentPage = pagesOf b 0 := by
      have hpos := h.page_pos
      have hone : s.currentPage - 1 = 0 :=
        (Nat.mul_eq_zero.mp (Nat.le_zero.mp hstart)).resolve_right hper.ne'
      rw [pagesOf, if_pos rfl]
      omega
    rw [if_pos hpage]
    simp
  · have hlt := hrange' hzero
    have hnext := le_pagesOf_iff (b := b) hzero (Nat.le_add_left 1 s.currentPage)
    have hthis := (le_pagesOf_iff (b := b) hzero h.page_pos).mpr hlt
    have hstep : (s.currentPage + 1 - 1) * filesPerPage b = pageStart b s + filesPerPage b := by
      rw [Nat.add_sub_cancel, pageStart, ← Nat.succ_mul, Nat.succ_eq_add_one,
        Nat.sub_add_cancel h.page_pos]
    rw [hstep] at hnext
    split
    next hlast =>
      obtain ⟨r, rfl⟩ := Nat.exists_eq_add_of_lt hlt
      have hmod : (pageStart b s + r + 1) % filesPerPage b = (r + 1) % filesPerPage b := by
        rw [Nat.add_assoc, pageStart, Nat.mul_add_mod_self_right]
      have hle : r + 1 ≤ filesPerPage b := by omega
      rw [hmod]
      obtain heq | hless := hle.eq_or_lt
      · rw [heq, Nat.mod_self, if_pos ⟨by omega, rfl⟩]
        omega
      · rw [Nat.mod_eq_of_lt hless, if_neg (by omega)]
        omega
    next hnot =>
      rw [if_neg (by omega)]
      omega

theorem Paged.pressable_iff (h : Paged b o s) (hrange : InRange o s) (i : ℕ) :
    fileButtonFile + i ≤ browserGetMax b s ↔ i < filesPerPage b ∧ s.drawn i ≠ none := by
  have hmax := browserGetMax_eq h hrange
  have hdrawn (hi : i < filesPerPage b) :
      s.drawn i ≠ none ↔ pageStart b s + i < (s.files o).length := by
    rw [h.drawn i hi, Ne, Option.map_eq_none_iff, List.getElem?_eq_none_iff, not_le]
  rw [and_congr_right hdrawn]
  omega

structure Strands (b : Board) (o : FileOpt) (s : Browser) (p : Press) : Prop where
  active : s.active
  deleteMode : s.deleteMode
  key : p.key = fileButtonFile
  page : 1 < s.currentPage
  last : (s.files o).length = pageStart b s + 1
  removable : ∀ fno, (s.files o)[pageStart b s]? = some fno → ¬ fno.readOnly

/-- The file that is opened first, or deleted, is the one whose name is on the button. -/
def ActsOnDrawn (s : Browser) (p : Press) (acts : List Act) : Prop :=
  ∀ act, acts.head? = some act →
    fileButtonFile ≤ p.key ∧ s.drawn (p.key - fileButtonFile) = some act.name

theorem actsOnDrawn_nil {p : Press} : ActsOnDrawn s p [] := fun _ hact => nomatch hact

theorem actsOnDrawn_cons {p : Press} {act : Act} (hkey : fileButtonFile ≤ p.key)
    (hname : s.drawn (p.key - fileButtonFile) = some act.name) (rest : List Act) :
    ActsOnDrawn s p (act :: rest) := by
  intro first hfirst
  obtain rfl := Option.some.inj hfirst
  exact ⟨hkey, hname⟩

theorem Paged.with_flags (h : Paged b o s) (deleteMode active : Bool) :
    Paged b o { s with deleteMode, active } :=
  ⟨h.fits, h.count, h.pages, h.page_pos, h.page, h.drawn⟩

def Step (b : Board) (o : FileOpt) (s : Browser) (p : Press) (r : List Act × Browser) : Prop :=
  Paged b o r.2 ∧ ActsOnDrawn s p r.1 ∧ (InRange o r.2 ↔ ¬ Strands b o s p)

theorem stranded_iff {p : Press} (hactive : s.active) (hdelete : s.deleteMode)
    (hkey : fileButtonFile ≤ p.key)
    (hlt : pageStart b s + (p.key - fileButtonFile) < (s.files o).length) :
    let n := (s.files o).length -
      if ((s.files o)[pageStart b s + (p.key - fileButtonFile)]).readOnly then 0 else 1
    (n ≠ 0 → pageStart b s < n) ↔ ¬ Strands b o s p := by
  intro n
  constructor
  · intro hin hs
    have hfirst : pageStart b s + (p.key - fileButtonFile) = pageStart b s := by
      rw [hs.key, Nat.sub_self, Nat.add_zero]
    have hgone : n = pageStart b s := by
      have hread := hs.removable _ (List.getElem?_eq_getElem (hfirst ▸ hlt))
      simp only [n, hfirst, if_neg hread, hs.last, Nat.add_sub_cancel]
    have hpos : pageStart b s ≠ 0 :=
      Nat.mul_ne_zero (Nat.sub_ne_zero_of_lt hs.page) (filesPerPage_pos b).ne'
    rw [hgone] at hin
    exact lt_irrefl _ (hin hpos)
  · intro hnot hne
    by_contra hle
    have hread : ¬ ((s.files o)[pageStart b s + (p.key - fileButtonFile)]).readOnly := by
      intro hread
      simp only [n, if_pos hread] at hle
      omega
    have hn : n = (s.files o).length - 1 := by simp only [n, if_neg hread]
    have hfirst : pageStart b s + (p.key - fileButtonFile) = pageStart b s := by omega
    refine hnot ⟨hactive, hdelete, by omega, ?_, by omega, fun fno hfno => ?_⟩
    · by_contra hpage
      have hzero : pageStart b s = 0 := by
        rw [pageStart, Nat.sub_eq_zero_of_le (not_lt.mp hpage), Nat.zero_mul]
      omega
    · simp only [hfirst] at hread hlt
      rw [List.getElem?_eq_getElem hlt] at hfno
      rwa [← Option.some.inj hfno]

theorem browserKeyPress_file {key : ℕ} (hkey : fileButtonFile ≤ key) (views : List ViewKey) :
    browserKeyPress b o s key views =
      let r := browserOpenFile o s (key - fileButtonFile + pageStart b s) views
      if s.deleteMode then
        (r.1, browserDrawPage b o { s with dir := r.2, fileCount := 0, deleteMode := false })
      else (r.1, { s with dir := r.2, active := false }) := by
  have hne (k : ℕ) (hk : k < fileButtonFile) : key ≠ k := (hk.trans_le hkey).ne'
  unfold browserKeyPress
  rw [if_neg (hne _ (by decide)), if_neg (hne _ (by decide)), if_neg (hne _ (by decide)),
    if_neg (hne _ (by decide))]
  rfl

theorem fileKey_none (h : Paged b o s) (hrange : InRange o s) {p : Press}
    (hkey : fileButtonFile ≤ p.key) (hi : p.key - fileButtonFile < filesPerPage b)
    (hname : s.drawn (p.key - fileButtonFile) = none) :
    Step b o s p (browserKeyPress b o s p.key p.views) := by
  have hnot : ¬ Strands b o s p := by
    intro hs
    rw [h.drawn _ hi, Option.map_eq_none_iff, List.getElem?_eq_none_iff, hs.key, hs.last] at hname
    omega
  rw [browserKeyPress_file hkey, h.openFile_none hi hname]
  dsimp only
  split
  next hdelete =>
    obtain ⟨hpaged, hin⟩ := redrawn h s.dir rfl (le_refl _) h.page
    exact ⟨hpaged, actsOnDrawn_nil, iff_of_true (hin.mpr (h.inRange_iff.mp hrange)) hnot⟩
  next hopen => exact ⟨h.with_flags _ _, actsOnDrawn_nil, iff_of_true hrange hnot⟩

theorem fileKey_some (h : Paged b o s) (hrange : InRange o s) {p : Press} (hactive : s.active)
    (hkey : fileButtonFile ≤ p.key) (hi : p.key - fileButtonFile < filesPerPage b)
    {name : List Char} (hname : s.drawn (p.key - fileButtonFile) = some name) :
    Step b o s p (browserKeyPress b o s p.key p.views) := by
  rw [browserKeyPress_file hkey, h.openFile_some hi hname]
  dsimp only
  split
  next hdelete =>
    obtain ⟨hlt, hfname⟩ := h.drawn_eq hi hname
    have hlen := unlink_length o.ext s.dir hlt
    obtain ⟨hpaged, hin⟩ := redrawn h (s.dir.unlink name) (hfname ▸ hlen) (Nat.sub_le _ _)
      (by split <;> omega)
    exact ⟨hpaged, actsOnDrawn_cons hkey hname _,
      hin.trans (stranded_iff hactive hdelete hkey hlt)⟩
  next hopen =>
    have hnot : ¬ Strands b o s p := fun hs => hopen hs.deleteMode
    have hpaged := h.with_flags s.deleteMode false
    split
    next => exact ⟨hpaged, actsOnDrawn_nil, iff_of_true hrange hnot⟩
    next =>
      split
      next => exact ⟨hpaged, actsOnDrawn_cons hkey hname _, iff_of_true hrange hnot⟩
      next => exact ⟨hpaged, actsOnDrawn_cons hkey hname _, iff_of_true hrange hnot⟩

theorem fileKey_step (h : Paged b o s) (hrange : InRange o s) {p : Press} (hactive : s.active)
    (hkey : fileButtonFile ≤ p.key) (hmax : p.key ≤ browserGetMax b s) :
    Step b o s p (browserKeyPress b o s p.key p.views) := by
  have hi : p.key - fileButtonFile < filesPerPage b := by
    have heq := browserGetMax_eq h hrange
    omega
  cases hname : s.drawn (p.key - fileButtonFile) with
  | none => exact fileKey_none h hrange hkey hi hname
  | some name => exact fileKey_some h hrange hactive hkey hi hname

theorem Paged.currentPage_lt (h : Paged b o s) : s.currentPage < 2 ^ 15 := by
  have hper : 10 ≤ filesPerPage b := by cases b <;> decide
  have hfits := h.fits
  have hpage := (Nat.mul_le_mul_left (s.currentPage - 1) hper).trans h.page
  omega

theorem Paged.pageCount_pos (h : Paged b o s) : 1 ≤ s.pageCount := by
  rw [h.pages]
  exact pagesOf_pos b _

theorem leftPage_mem (h : Paged b o s) (hrange : InRange o s) :
    let page := (s.currentPage + 2 ^ 16 - 1) % 2 ^ 16
    let page := if page < 1 then s.pageCount else page
    1 ≤ page ∧ page ≤ s.pageCount := by
  have hlt := h.currentPage_lt
  have hpos := h.page_pos
  have hcount := h.pageCount_pos
  have hpage : (s.currentPage + 2 ^ 16 - 1) % 2 ^ 16 = s.currentPage - 1 := by omega
  rw [hpage]
  dsimp only
  split
  next => exact ⟨hcount, le_refl _⟩
  next hnext =>
    refine ⟨not_lt.mp hnext, ?_⟩
    by_cases hfiles : s.files o = []
    · have hstart := h.page
      rw [pageStart, hfiles, List.length_nil, Nat.le_zero, Nat.mul_eq_zero] at hstart
      have hper := filesPerPage_pos b
      omega
    · exact (Nat.sub_le _ _).trans (hrange hfiles).2

theorem rightPage_mem (h : Paged b o s) :
    let page := (s.currentPage + 1) % 2 ^ 16
    let page := if s.pageCount < page then 1 else page
    1 ≤ page ∧ page ≤ s.pageCount := by
  have hlt := h.currentPage_lt
  have hpage : (s.currentPage + 1) % 2 ^ 16 = s.currentPage + 1 := Nat.mod_eq_of_lt (by omega)
  rw [hpage]
  dsimp only
  split
  next => exact ⟨le_refl 1, h.pageCount_pos⟩
  next hnext => exact ⟨Nat.le_add_left 1 _, not_lt.mp hnext⟩

theorem press_step (h : Paged b o s) (hrange : InRange o s) (p : Press) :
    Step b o s p (press b o s p) := by
  unfold press
  split
  next hpress =>
    by_cases hkey : fileButtonFile ≤ p.key
    · exact fileKey_step h hrange hpress.1 hkey hpress.2
    · have hnot : ¬ Strands b o s p := fun hs => hkey hs.key.ge
      have hcases : p.key = 0 ∨ p.key = 1 ∨ p.key = 2 ∨ p.key = 3 := by
        rw [fileButtonFile] at hkey
        omega
      obtain hleft | hright | hexit | hdel := hcases
      · rw [hleft]
        obtain ⟨hpos, hle⟩ := leftPage_mem h hrange
        obtain ⟨hpaged, hin⟩ := turnPage_paged h hpos hle
        exact ⟨hpaged, actsOnDrawn_nil, iff_of_true hin hnot⟩
      · rw [hright]
        obtain ⟨hpos, hle⟩ := rightPage_mem h
        obtain ⟨hpaged, hin⟩ := turnPage_paged h hpos hle
        exact ⟨hpaged, actsOnDrawn_nil, iff_of_true hin hnot⟩
      · rw [hexit]
        exact ⟨h.with_flags _ _, actsOnDrawn_nil, iff_of_true hrange hnot⟩
      · rw [hdel]
        exact ⟨h.with_flags _ _, actsOnDrawn_nil, iff_of_true hrange hnot⟩
  next hidle =>
    refine ⟨h, actsOnDrawn_nil, iff_of_true hrange fun hs => hidle ⟨hs.active, ?_⟩⟩
    have hmax := browserGetMax_eq h hrange
    have hper := filesPerPage_pos b
    rw [hs.last] at hmax
    rw [hs.key]
    omega

end Keys

/-! ### The runs of the browser -/

section Runs

variable (b : Board) (o : FileOpt) (s : Browser)

/-- After a press the page is in range, and the press has acted on what was drawn. -/
def Meets (p : Press) : Prop :=
  InRange o (press b o s p).2 ∧ ActsOnDrawn s p (press b o s p).1

variable {b o s}

theorem uiModeBrowser_paged {dir : Directory} (hfits : (sdFiles o.ext dir.entries).length < 2 ^ 16)
    (drawn : ℕ → Option (List Char)) :
    Paged b o (uiModeBrowser b o dir drawn) ∧ InRange o (uiModeBrowser b o dir drawn) := by
  have hpaged : Paged b o (uiModeBrowser b o dir drawn) := by
    refine browserDrawPage_paged hfits (fun hne => absurd rfl hne) (le_refl 1) ?_
    rw [pageStart, Nat.sub_self, Nat.zero_mul]
    exact Nat.zero_le _
  refine ⟨hpaged, hpaged.inRange_iff.mpr fun hne => ?_⟩
  rw [pageStart, uiModeBrowser, browserDrawPage_currentPage, Nat.sub_self, Nat.zero_mul]
  exact Nat.pos_of_ne_zero hne

@[simp] theorem run_append (before : List Press) (p : Press) :
    run b o s (before ++ [p]) = (press b o (run b o s before) p).2 :=
  List.foldl_concat _ _ _ _

/-- While no press strands the page, every state is paged and in range. -/
theorem run_paged (h : Paged b o s) (hrange : InRange o s) {ps : List Press}
    (hps : ∀ before p, before ++ [p] <+: ps →
      InRange o (press b o (run b o s before) p).2 ∨ ¬ Strands b o (run b o s before) p) :
    Paged b o (run b o s ps) ∧ InRange o (run b o s ps) := by
  induction ps using List.reverseRecOn with
  | nil => exact ⟨h, hrange⟩
  | append_singleton before p ih =>
    obtain ⟨hpaged, hin⟩ := ih fun before' p' hpre =>
      hps before' p' (hpre.trans (List.prefix_append _ _))
    obtain ⟨hnext, -, hiff⟩ := press_step hpaged hin p
    rw [run_append]
    exact ⟨hnext, (hps before p List.prefix_rfl).elim id hiff.mpr⟩

/-- A card with a number of files of the format, `.s1p`, `A.s1p`, `AA.s1p` and so on. -/
def measurements (n : ℕ) : List FileInfo :=
  (List.range n).map fun i => ⟨List.replicate i 'A' ++ ['.', 's', '1', 'p'], false, false⟩

def s1pFiles : FileOpt where
  ext := ['s', '1', 'p']
  hasLoad := true
  isContinued := false

def fullPages : Directory where
  entries := measurements 21
  nodup := by decide

end Runs

end NanoVNA.FileBrowser
