import NanoVNA.FloatText
import NanoVNA.FrequencyTable
import NanoVNA.LineParser
import NanoVNA.PrintedIntegers
import NanoVNA.SweepRequests

namespace NanoVNA.SnpFiles

open NanoVNA.Word32 NanoVNA.DeviceState NanoVNA.SweepGrid NanoVNA.SweepFrequency NanoVNA.SweepRequests
open NanoVNA.ShellArguments NanoVNA.ShellPrintf NanoVNA.PrintedIntegers NanoVNA.FloatText
open NanoVNA.LineParser

variable {R F : Type}

inductive SnpFormat
  | s1p
  | s2p
  deriving DecidableEq

def fileHeader : SnpFormat → List Char
  | .s1p => "!File created by NanoVNA\r\n# Hz S RI R 50\r\n".toList
  | .s2p => "!File created by NanoVNA\r\n# Hz S RI R 50\r\n".toList

def fileParam : SnpFormat → List Char
  | .s1p => "%u % f % f\r\n".toList
  | .s2p => "%u % f % f % f % f 0 0 0 0\r\n".toList

section Save

variable (ops : FloatOps F) (comma : Bool)

/-- `% f` -/
def printSpaced (x : F) : List Char :=
  if ops.negative x then '-' :: magnitude ops comma (ops.neg x) else ' ' :: magnitude ops comma x

/-- The text of a format of plain characters, `%u` and `% f`; arguments may be left over. -/
def chvprintfSpaced : List Char → List (Value F) → List Char
  | '%' :: 'u' :: fmt, .u n :: args => longToString n 0 ++ chvprintfSpaced fmt args
  | '%' :: ' ' :: 'f' :: fmt, .f x :: args => printSpaced ops comma x ++ chvprintfSpaced fmt args
  | c :: fmt, args => c :: chvprintfSpaced fmt args
  | [], _ => []

def bufferSize : Nat := 128

def pointText (format : SnpFormat) (g : Grid) (measured : Fin 2 → Nat → Sample F) (i : Nat) :
    List Char :=
  chvprintfSpaced ops comma (fileParam format)
    [.u (UInt32.ofNat (getFrequency g i)), .f (measured 0 i).re, .f (measured 0 i).im,
      .f (measured 1 i).re, .f (measured 1 i).im]

def saveSnp (format : SnpFormat) (g : Grid) (points : Nat) (measured : Fin 2 → Nat → Sample F) :
    List Char :=
  fileHeader format ++ (List.range points).flatMap fun i =>
    plotPrintf bufferSize (pointText ops comma format g measured i)

end Save

def lineSize : Nat := 128

/-- The lines of `load_snp`; the blocks of 256 characters the file is read in do not matter, as the
line lives across them. What follows the last carriage return is not looked at. -/
def snpLines (line : Arg) : List Char → List Arg
  | [] => []
  | c :: rest =>
    if c = '\r' then line :: snpLines [] rest
    else if c.toNat < 32 then snpLines line rest
    else snpLines (if line.length < lineSize then line ++ [c] else line) rest

structure SnpRow (F : Type) where
  frequency : Nat
  s11 : Sample F
  s21 : Sample F

section Load

variable (a : FloatArith F)

/-- The data of a line, or none for a line that is passed over. The whole is none where `load_snp`
reads a place of `args` that `parse_line` has not set. -/
def snpRow (format : SnpFormat) : List Arg → Option (Option (SnpRow F))
  | freq :: re :: args =>
    if freq.head? = some '#' ∨ freq.head? = some '!' then some none
    else
      match args with
      | [] => none
      | im :: args =>
        let s11 := ⟨myAtof a re, myAtof a im⟩
        if format = .s2p ∧ 1 ≤ args.length then
          match args with
          | re :: im :: _ => some (some ⟨myAtoui freq, s11, ⟨myAtof a re, myAtof a im⟩⟩)
          | _ => none
        else some (some ⟨myAtoui freq, s11, ⟨a.ofInt 0, a.ofInt 0⟩⟩)
  | _ => some none

/-- `stale k` is what the line buffer holds after the end of the line `k`. -/
def snpRows (format : SnpFormat) (stale : Nat → List Char) : Nat → List Arg →
    Option (List (SnpRow F))
  | _, [] => some []
  | k, line :: lines => do
    let row ← snpRow a format (parseLine 16 (line ++ nul :: stale k))
    let rows ← snpRows format stale (k + 1) lines
    some (row.toList ++ rows)

/-- `load_snp` up to the rows it stores in `measured`, which no setting of the sweep depends on. -/
def loadSnpFile (board : Board) (format : SnpFormat) (stale : Nat → List Char) (file : List Char)
    (s : Vna R) : Option (Vna R) :=
  (snpRows a format stale 0 (snpLines [] file)).map fun rows =>
    loadSnp board (rows.map SnpRow.frequency) s

end Load

def kept (text : List Char) : List Char := text.filter fun c => 32 ≤ c.toNat

theorem kept_append (text text' : List Char) : kept (text ++ text') = kept text ++ kept text' :=
  List.filter_append ..

theorem kept_cons (c : Char) (text : List Char) :
    kept (c :: text) = if c.toNat < 32 then kept text else c :: kept text := by
  simp only [kept, List.filter_cons, decide_eq_true_eq, ← Nat.not_lt, ite_not]

theorem kept_space (text : List Char) : kept (' ' :: text) = ' ' :: kept text := rfl

theorem snpLines_text {text : List Char} (hcr : '\r' ∉ text) {line : Arg}
    (hlen : line.length + text.length ≤ lineSize) (rest : List Char) :
    snpLines line (text ++ '\r' :: rest) = (line ++ kept text) :: snpLines [] rest := by
  induction text generalizing line with
  | nil =>
    rw [List.nil_append, snpLines, if_pos rfl]
    exact congrArg (· :: _) (List.append_nil line).symm
  | cons c text ih =>
    rw [List.mem_cons, not_or] at hcr
    rw [List.length_cons] at hlen
    rw [List.cons_append, snpLines, if_neg (Ne.symm hcr.1)]
    rw [kept_cons]
    split
    · exact ih hcr.2 (by omega)
    · have hnext : (line ++ [c]).length + text.length ≤ lineSize := by
        rw [List.length_append, List.length_singleton]
        omega
      rw [if_pos (by omega), ih hcr.2 hnext, List.append_assoc]
      rfl

def Visible (c : Char) : Prop := Plain c ∧ 32 ≤ c.toNat

instance (c : Char) : Decidable (Visible c) := inferInstanceAs (Decidable (_ ∧ _))

theorem visible_of_isDigit {c : Char} (h : c.isDigit = true) : Visible c := by
  refine ⟨plain_of_isDigit h, ?_⟩
  rw [Char.isDigit, Bool.and_eq_true, decide_eq_true_eq] at h
  exact Nat.le_trans (by decide) h.1

theorem kept_visible {text : List Char} (h : ∀ c ∈ text, Visible c) : kept text = text :=
  List.filter_eq_self.mpr fun c hc => decide_eq_true (h c hc).2

theorem Visible.ne_cr {c : Char} (h : Visible c) : c ≠ '\r' := by
  rintro rfl
  exact absurd h (by decide)

theorem visible_longToString (n : UInt32) (precision : Nat) :
    ∀ c ∈ longToString n precision, Visible c := fun _ h => visible_of_isDigit (isDigit_longDigits h)

section Fields

variable (ops : FloatOps F) (comma : Bool)

theorem visible_ftoa (x : F) : ∀ c ∈ ftoa ops comma x floatPrecision, Visible c := by
  intro c hc
  simp only [ftoa, Nat.min_self] at hc
  rw [if_neg (by decide), List.mem_append, List.mem_cons] at hc
  obtain h | rfl | h := hc
  · exact visible_longToString _ _ c h
  · cases comma <;> decide
  · exact visible_longToString _ _ c h

theorem longToString_ne_nil (n : UInt32) : longToString n 0 ≠ [] := by
  apply List.ne_nil_of_length_pos
  rw [length_longToString n (by decide), decimals]
  exact Nat.lt_of_lt_of_le (Nat.succ_pos _) (Nat.le_max_right ..)

theorem ftoa_ne_nil (x : F) : ftoa ops comma x floatPrecision ≠ [] :=
  List.append_ne_nil_of_left_ne_nil (longToString_ne_nil _) _

theorem kept_magnitude (x : F) : kept (magnitude ops comma x) =
    if ops.infinite x then [' '] else ftoa ops comma x floatPrecision := by
  rw [magnitude]
  split
  · rfl
  · exact kept_visible (visible_ftoa ops comma x)

def fieldWords (x : F) : List Arg :=
  if ops.negative x then
    [if ops.infinite (ops.neg x) then ['-'] else '-' :: ftoa ops comma (ops.neg x) floatPrecision]
  else if ops.infinite x then [] else [ftoa ops comma x floatPrecision]

theorem words_field (x : F) : Words (kept (printSpaced ops comma x)) (fieldWords ops comma x) := by
  have hminus : ∀ c ∈ ['-'], Plain c := plain_of_all (by decide)
  rw [printSpaced, fieldWords]
  split
  · have hsign : kept ('-' :: magnitude ops comma (ops.neg x)) =
        '-' :: kept (magnitude ops comma (ops.neg x)) := rfl
    rw [hsign, kept_magnitude]
    split
    · exact (Words.word (List.cons_ne_nil _ _) hminus).space Words.nil
    · refine Words.word (List.cons_ne_nil _ _) (List.forall_mem_cons.mpr ⟨by decide, ?_⟩)
      exact fun c hc => (visible_ftoa ops comma _ c hc).1
  · rw [kept_space, kept_magnitude]
    split
    · exact Words.nil.space (Words.nil.space Words.nil)
    · refine Words.nil.space (Words.word (ftoa_ne_nil ops comma x) ?_)
      exact fun c hc => (visible_ftoa ops comma x c hc).1

theorem length_printSpaced (x : F) : (printSpaced ops comma x).length ≤ 22 := by
  rw [printSpaced]
  split
  · rw [List.length_cons, length_magnitude]
    exact Nat.succ_le_succ (magnitudeWidth_le ops _)
  · rw [List.length_cons, length_magnitude]
    exact Nat.succ_le_succ (magnitudeWidth_le ops x)

theorem cr_not_mem_printSpaced (x : F) : '\r' ∉ printSpaced ops comma x := by
  have hmagnitude (x : F) : '\r' ∉ magnitude ops comma x := by
    rw [magnitude]
    split
    · decide
    · exact fun h => (visible_ftoa ops comma x _ h).ne_cr rfl
  rw [printSpaced]
  split
  · exact List.not_mem_cons_of_ne_of_not_mem (by decide) (hmagnitude _)
  · exact List.not_mem_cons_of_ne_of_not_mem (by decide) (hmagnitude x)

end Fields

section Lines

variable (ops : FloatOps F) (comma : Bool) (a : FloatArith F) (g : Grid)
  (measured : Fin 2 → Nat → Sample F)

/-- The four numbers after the frequency, with the spaces between them, and the end of the line. -/
def pointFields (i : Nat) : SnpFormat → List Char
  | .s1p =>
    printSpaced ops comma (measured 0 i).re ++ ' ' :: printSpaced ops comma (measured 0 i).im
  | .s2p =>
    printSpaced ops comma (measured 0 i).re ++ ' ' :: (printSpaced ops comma (measured 0 i).im ++
      ' ' :: (printSpaced ops comma (measured 1 i).re ++
        ' ' :: (printSpaced ops comma (measured 1 i).im ++ ' ' :: "0 0 0 0".toList)))

def pointLine (i : Nat) (format : SnpFormat) : List Char :=
  longToString (UInt32.ofNat (getFrequency g i)) 0 ++ ' ' :: pointFields ops comma measured i format

theorem pointText_eq (format : SnpFormat) (i : Nat) :
    pointText ops comma format g measured i =
      pointLine ops comma g measured i format ++ ['\r', '\n'] := by
  cases format with
  | s1p =>
    simp only [pointLine, pointFields, List.append_assoc, List.cons_append]
    rfl
  | s2p =>
    simp only [pointLine, pointFields, List.append_assoc, List.cons_append]
    rfl

theorem length_pointLine (i : Nat) (format : SnpFormat) :
    (pointLine ops comma g measured i format).length ≤ 110 := by
  have hwidth (x : F) := length_printSpaced ops comma x
  have hnumber : (longToString (UInt32.ofNat (getFrequency g i)) 0).length ≤ 10 := by
    rw [length_longToString _ (by decide), Nat.max_eq_right (Nat.zero_le _)]
    exact decimals_uint32 _
  have h0 := hwidth (measured 0 i).re
  have h1 := hwidth (measured 0 i).im
  have h2 := hwidth (measured 1 i).re
  have h3 := hwidth (measured 1 i).im
  have hzeros : "0 0 0 0".toList.length = 7 := rfl
  cases format <;>
    simp only [pointLine, pointFields, List.length_append, List.length_cons, hzeros] <;> omega

theorem cr_not_mem_pointLine (i : Nat) (format : SnpFormat) :
    '\r' ∉ pointLine ops comma g measured i format := by
  have hnumber : '\r' ∉ longToString (UInt32.ofNat (getFrequency g i)) 0 :=
    fun h => (visible_longToString _ _ _ h).ne_cr rfl
  have hfield (x : F) := cr_not_mem_printSpaced ops comma x
  have hspace : '\r' ≠ ' ' := by decide
  have hzeros : '\r' ∉ "0 0 0 0".toList := by decide
  cases format <;>
    simp only [pointLine, pointFields, List.mem_append, List.mem_cons, hnumber, hfield, hspace,
      hzeros, or_self, not_false_eq_true]

theorem plotPrintf_pointText (format : SnpFormat) (i : Nat) :
    plotPrintf bufferSize (pointText ops comma format g measured i) =
      pointLine ops comma g measured i format ++ '\r' :: ['\n'] := by
  have hlen := length_pointLine ops comma g measured i format
  rw [pointText_eq]
  apply plotPrintf_of_fits
  rw [List.length_append, bufferSize]
  exact Nat.lt_of_le_of_lt (Nat.add_le_add_right hlen 2) (by decide)

theorem snpLines_points (format : SnpFormat) (idxs : List Nat) :
    snpLines [] (idxs.flatMap fun i =>
        plotPrintf bufferSize (pointText ops comma format g measured i)) =
      idxs.map fun i => kept (pointLine ops comma g measured i format) := by
  induction idxs with
  | nil => rfl
  | cons i idxs ih =>
    have hlen := length_pointLine ops comma g measured i format
    have hroom : ([] : Arg).length + (pointLine ops comma g measured i format).length ≤ lineSize := by
      rw [List.length_nil, lineSize]
      omega
    rw [List.flatMap_cons, plotPrintf_pointText, List.append_assoc, List.cons_append,
      snpLines_text (cr_not_mem_pointLine ops comma g measured i format) hroom, List.map_cons, ← ih]
    rfl

def headerLines : List Arg := ["!File created by NanoVNA".toList, "# Hz S RI R 50".toList]

theorem snpLines_header (format : SnpFormat) (rest : List Char) :
    snpLines [] (fileHeader format ++ rest) = headerLines ++ snpLines [] rest := by
  have htext : fileHeader format = "!File created by NanoVNA".toList ++
      '\r' :: '\n' :: ("# Hz S RI R 50".toList ++ '\r' :: ['\n']) := by
    cases format <;> decide
  have hfirst : kept "!File created by NanoVNA".toList = "!File created by NanoVNA".toList := by
    decide
  have hsecond : kept "# Hz S RI R 50".toList = "# Hz S RI R 50".toList := by
    decide
  have hfeed (rest : List Char) : snpLines [] ('\n' :: rest) = snpLines [] rest := rfl
  rw [htext, List.append_assoc, List.cons_append, List.cons_append, List.append_assoc,
    snpLines_text (by decide) (by decide), hfeed, List.cons_append,
    snpLines_text (by decide) (by decide), hfirst, hsecond]
  rfl

theorem words_pointLine_s1p (i : Nat) :
    Words (kept (pointLine ops comma g measured i .s1p))
      ([longToString (UInt32.ofNat (getFrequency g i)) 0] ++
        (fieldWords ops comma (measured 0 i).re ++ fieldWords ops comma (measured 0 i).im)) := by
  have hnumber := visible_longToString (UInt32.ofNat (getFrequency g i)) 0
  rw [pointLine, pointFields, kept_append, kept_space, kept_append, kept_space, kept_visible hnumber]
  have hword := Words.word (longToString_ne_nil _) fun c hc => (hnumber c hc).1
  exact hword.space ((words_field ops comma _).space (words_field ops comma _))

theorem words_pointLine_s2p (i : Nat) :
    Words (kept (pointLine ops comma g measured i .s2p))
      ([longToString (UInt32.ofNat (getFrequency g i)) 0] ++
        (fieldWords ops comma (measured 0 i).re ++ (fieldWords ops comma (measured 0 i).im ++
          (fieldWords ops comma (measured 1 i).re ++ (fieldWords ops comma (measured 1 i).im ++
            [['0'], ['0'], ['0'], ['0']]))))) := by
  have hnumber := visible_longToString (UInt32.ofNat (getFrequency g i)) 0
  have hzero : Words ['0'] [['0']] := Words.word (List.cons_ne_nil _ _) (plain_of_all (by decide))
  simp only [pointLine, pointFields, kept_append, kept_space, kept_visible hnumber]
  have hword := Words.word (longToString_ne_nil _) fun c hc => (hnumber c hc).1
  exact hword.space ((words_field ops comma _).space ((words_field ops comma _).space
    ((words_field ops comma _).space ((words_field ops comma _).space
      (hzero.space (hzero.space (hzero.space hzero)))))))

theorem longToString_head (n : UInt32) :
    ¬ ((longToString n 0).head? = some '#' ∨ (longToString n 0).head? = some '!') := by
  rintro (h | h)
  · have hdigit := isDigit_longDigits (List.mem_of_head? h)
    exact absurd hdigit (by decide)
  · have hdigit := isDigit_longDigits (List.mem_of_head? h)
    exact absurd hdigit (by decide)

theorem myAtoui_longToString {n : Nat} (h : n < 2 ^ 32) :
    myAtoui (longToString (UInt32.ofNat n) 0) = n := by
  rw [longToString_eq, myAtoui_decimal]
  exact UInt32.toNat_ofNat_of_lt' h

def PlusInfinity (x : F) : Prop := ops.negative x = false ∧ ops.infinite x = true

theorem fieldWords_of_not {x : F} (h : ¬ PlusInfinity ops x) :
    ∃ word, fieldWords ops comma x = [word] := by
  rw [fieldWords]
  split
  · exact ⟨_, rfl⟩
  · rename_i hneg
    exact ⟨_, if_neg fun hinf => h ⟨Bool.eq_false_of_not_eq_true hneg, hinf⟩⟩

theorem length_fieldWords (x : F) : (fieldWords ops comma x).length ≤ 1 := by
  rw [fieldWords]
  split
  · exact Nat.le_refl 1
  · split
    · exact Nat.zero_le 1
    · exact Nat.le_refl 1

/-- The rows a one-port file can be read back from: no value of the reflection is infinite. -/
def Readable (format : SnpFormat) (points : Nat) : Prop :=
  format = .s1p → ∀ i < points,
    ¬ PlusInfinity ops (measured 0 i).re ∧ ¬ PlusInfinity ops (measured 0 i).im

def RowAt (i : Nat) (args : List Arg) (format : SnpFormat) : Prop :=
  ∃ row, snpRow a format args = some (some row) ∧ row.frequency = getFrequency g i

theorem rowAt_s1p (i : Nat) (re im : Arg) :
    RowAt a g i [longToString (UInt32.ofNat (getFrequency g i)) 0, re, im] .s1p := by
  refine ⟨⟨getFrequency g i, ⟨myAtof a re, myAtof a im⟩, ⟨a.ofInt 0, a.ofInt 0⟩⟩, ?_, rfl⟩
  have hfrequency := myAtoui_longToString (show getFrequency g i < 2 ^ 32 from u32_lt _)
  rw [snpRow, if_neg (longToString_head _), hfrequency]
  exact if_neg fun h => nomatch h.1

theorem rowAt_s2p (i : Nat) {args : List Arg} (h : 4 ≤ args.length) :
    RowAt a g i (longToString (UInt32.ofNat (getFrequency g i)) 0 :: args) .s2p := by
  match args, h with
  | re :: im :: re' :: im' :: args, _ =>
    refine ⟨⟨getFrequency g i, ⟨myAtof a re, myAtof a im⟩, ⟨myAtof a re', myAtof a im'⟩⟩, ?_, rfl⟩
    have hfrequency := myAtoui_longToString (show getFrequency g i < 2 ^ 32 from u32_lt _)
    rw [snpRow, if_neg (longToString_head _), hfrequency]
    exact if_pos ⟨rfl, Nat.succ_le_succ (Nat.zero_le _)⟩

theorem rowAt_pointLine {format : SnpFormat} {points : Nat}
    (h : Readable ops measured format points) {i : Nat} (hi : i < points) (stale : List Char) :
    RowAt a g i (parseLine 16 (kept (pointLine ops comma g measured i format) ++ nul :: stale))
      format := by
  have hlength (x : F) := length_fieldWords ops comma x
  cases format with
  | s1p =>
    obtain ⟨hre, him⟩ := h rfl i hi
    obtain ⟨re, hre⟩ := fieldWords_of_not ops comma hre
    obtain ⟨im, him⟩ := fieldWords_of_not ops comma him
    have hwords := words_pointLine_s1p ops comma g measured i
    rw [hre, him] at hwords
    rw [hwords.parse (show 3 ≤ 16 by decide) stale]
    exact rowAt_s1p a g i re im
  | s2p =>
    have h0 := hlength (measured 0 i).re
    have h1 := hlength (measured 0 i).im
    have h2 := hlength (measured 1 i).re
    have h3 := hlength (measured 1 i).im
    have hwords := words_pointLine_s2p ops comma g measured i
    rw [hwords.parse (by simp only [List.length_append, List.length_cons, List.length_nil]; omega)]
    rw [List.singleton_append]
    apply rowAt_s2p
    simp only [List.length_append, List.length_cons, List.length_nil]
    omega

theorem snpRows_points {format : SnpFormat} {points : Nat} (h : Readable ops measured format points)
    (stale : Nat → List Char) (k : Nat) {idxs : List Nat} (hidxs : ∀ i ∈ idxs, i < points) :
    ∃ rows, snpRows a format stale k
        (idxs.map fun i => kept (pointLine ops comma g measured i format)) = some rows ∧
      rows.map SnpRow.frequency = idxs.map (getFrequency g) := by
  induction idxs generalizing k with
  | nil => exact ⟨[], rfl, rfl⟩
  | cons i idxs ih =>
    rw [List.forall_mem_cons] at hidxs
    obtain ⟨row, hrow, hfrequency⟩ := rowAt_pointLine ops comma a g measured h hidxs.1 (stale k)
    obtain ⟨rows, hrows, hfrequencies⟩ := ih (k + 1) hidxs.2
    refine ⟨row :: rows, ?_, ?_⟩
    · rw [List.map_cons, snpRows, hrow, hrows]
      rfl
    · rw [List.map_cons, List.map_cons, hfrequency, hfrequencies]

theorem snpRow_header (format : SnpFormat) (stale : List Char) {line : Arg}
    (h : line ∈ headerLines) : snpRow a format (parseLine 16 (line ++ nul :: stale)) = some none := by
  have hspace {text text' : List Char} {ws ws' : List Arg} (h : Words text ws) (h' : Words text' ws') :=
    h.space h'
  have hword (word : List Char) (hne : word ≠ []) (hplain : word.all fun c => decide (Plain c)) :=
    Words.word hne (plain_of_all hplain)
  rw [headerLines, List.mem_cons, List.mem_singleton] at h
  obtain rfl | rfl := h
  · have hwords := hspace (hword "!File".toList (by decide) (by decide))
      (hspace (hword "created".toList (by decide) (by decide))
        (hspace (hword "by".toList (by decide) (by decide))
          (hword "NanoVNA".toList (by decide) (by decide))))
    exact congrArg (snpRow a format) (hwords.parse (by decide) stale)
  · have hwords := hspace (hword "#".toList (by decide) (by decide))
      (hspace (hword "Hz".toList (by decide) (by decide))
        (hspace (hword "S".toList (by decide) (by decide))
          (hspace (hword "RI".toList (by decide) (by decide))
            (hspace (hword "R".toList (by decide) (by decide))
              (hword "50".toList (by decide) (by decide))))))
    exact congrArg (snpRow a format) (hwords.parse (by decide) stale)

theorem snpRows_saved {format : SnpFormat} {points : Nat} (h : Readable ops measured format points)
    (stale : Nat → List Char) :
    ∃ rows, snpRows a format stale 0 (snpLines [] (saveSnp ops comma format g points measured)) =
        some rows ∧
      rows.map SnpRow.frequency = (List.range points).map (getFrequency g) := by
  obtain ⟨rows, hrows, hfrequencies⟩ := snpRows_points ops comma a g measured h stale 2
    fun i hi => List.mem_range.mp hi
  refine ⟨rows, ?_, hfrequencies⟩
  have hfirst := snpRow_header a format (stale 0) List.mem_cons_self
  have hsecond := snpRow_header a format (stale 1) (List.mem_cons_of_mem _ List.mem_cons_self)
  rw [saveSnp, snpLines_header, snpLines_points, headerLines, List.cons_append, List.cons_append,
    List.nil_append, snpRows, hfirst, snpRows, hsecond, hrows]
  rfl

end Lines

section Restored

variable {board : Board}

theorem setStart_props {start : Nat} (hlo : frequencyMin ≤ start) (hhi : start ≤ frequencyMax)
    (s : Vna R) :
    (setSweepFrequency .start start s).props.frequency0 = start ∧
      (setSweepFrequency .start start s).props.sweepPoints = s.props.sweepPoints := by
  obtain ⟨hlow, hstep, hhigh⟩ := @request_inside _ .start start nofun (fun _ => hlo) hhi s.props
  simp only [setSweepFrequency, setSweepFrequencyInternal, hlow, hstep, hhigh]
  exact ⟨rfl, rfl⟩

theorem setStop_props {start stop : Nat} (hle : start ≤ stop) (hlo : frequencyMin ≤ stop)
    (hhi : stop ≤ frequencyMax) {s : Vna R} (hs : s.props.frequency0 = start) :
    let s' := setSweepFrequency .stop stop s
    s'.props.frequency0 = start ∧ s'.props.frequency1 = stop ∧
      s'.props.sweepPoints = s.props.sweepPoints ∧
      s'.grid = appMeasurementSetFrequencies start stop s.props.sweepPoints := by
  obtain ⟨hlow, hstep, hhigh⟩ := @request_inside _ .stop stop nofun (fun _ => hlo) hhi s.props
  have hset : setStop true stop s.props = s.props.withRange false start stop := by
    rw [setStop, hs, if_neg fun h => Nat.not_lt_of_le hle h.2]
  have hordered : sweepGetOrdered (s.props.withRange false start stop) = (start, stop) := if_pos hle
  simp only [setSweepFrequency, setSweepFrequencyInternal, hlow, hstep, hhigh, hset]
  refine ⟨rfl, rfl, rfl, ?_⟩
  simp only [appMeasurementUpdateFrequencies, hordered, withRange_sweepPoints]

theorem getLastD_map_range (f : Nat → Nat) (points start : Nat) :
    ((List.range (points + 1)).map fun i => f (i + 1)).getLastD start = f (points + 1) := by
  rw [List.range_succ, List.map_append]
  exact List.getLastD_concat ..

/-- The settings and the grid are those of the sweep the file was saved from. -/
def Restored (start stop points : Nat) (loaded : Option (Vna R)) : Prop :=
  ∃ s, loaded = some s ∧ getSweepFrequency s.props .start = start ∧
    getSweepFrequency s.props .stop = stop ∧ s.props.sweepPoints = points ∧
    ∀ idx, getFrequency s.grid idx =
      getFrequency (appMeasurementSetFrequencies start stop points) idx

theorem loadSnp_grid {start stop points : Nat} (hlo : frequencyMin ≤ start) (hle : start ≤ stop)
    (hhi : stop ≤ frequencyMax) (hmin : 2 ≤ points) (hmax : points ≤ sweepPointsMax board)
    (s : Vna R) :
    Restored start stop points (some (loadSnp board
      ((List.range points).map (getFrequency (appMeasurementSetFrequencies start stop points)))
      s)) := by
  obtain ⟨hfirst, hlast, hmono, -⟩ := @FrequencyTable.frequencies_exact board start stop points
    hle hhi hmin hmax fun _ => 0
  generalize hgrid : appMeasurementSetFrequencies start stop points = g at *
  have hpass : ¬ (sweepPointsMax board < ((List.range points).map (getFrequency g)).length ∨
      ((List.range points).map (getFrequency g)).any (frequencyMax < ·) = true) := by
    rw [List.length_map, List.length_range, List.any_eq_true]
    rintro (h | ⟨f, hf, h⟩)
    · omega
    · obtain ⟨i, hi, rfl⟩ := List.mem_map.mp hf
      rw [List.mem_range] at hi
      have hstop := hmono i (points - 1) (by omega) (by omega)
      rw [decide_eq_true_eq] at h
      omega
  obtain ⟨points, rfl⟩ := Nat.exists_eq_add_of_le hmin
  rw [Nat.add_comm 2 points] at *
  have hcount : ((List.range (points + 1)).map fun i => getFrequency g (i + 1)).length + 1 =
      points + 2 := by
    rw [List.length_map, List.length_range]
  unfold loadSnp
  rw [if_neg hpass, List.range_succ_eq_map, List.map_cons, List.map_map, hfirst]
  have hlist : getFrequency g ∘ Nat.succ = fun i => getFrequency g (i + 1) := rfl
  rw [hlist]
  dsimp only
  rw [getLastD_map_range, hcount, show points + 1 = points + 2 - 1 from rfl, hlast]
  obtain ⟨hstart, hpoints⟩ := setStart_props hlo (Nat.le_trans hle hhi)
    { s with props := { s.props with sweepPoints := points + 2 } }
  obtain ⟨h0, h1, h2, h3⟩ := setStop_props hle (Nat.le_trans hlo hle) hhi hstart
  refine ⟨_, rfl, ?_, ?_, h2.trans hpoints, fun idx => ?_⟩
  · rw [getSweepFrequency, sweepGetOrdered, h0, h1, if_pos hle]
  · rw [getSweepFrequency, sweepGetOrdered, h0, h1, if_pos hle]
  · rw [h3, hpoints]

/-- A sweep inside the limits comes back from its file, unless a one-port file holds an infinite
reflection. -/
theorem snp_round_trip (ops : FloatOps F) (comma : Bool) (a : FloatArith F) (format : SnpFormat)
    (measured : Fin 2 → Nat → Sample F) (stale : Nat → List Char) {start stop points : Nat}
    (hlo : frequencyMin ≤ start) (hle : start ≤ stop) (hhi : stop ≤ frequencyMax)
    (hmin : 2 ≤ points) (hmax : points ≤ sweepPointsMax board)
    (hread : Readable ops measured format points) (s : Vna R) :
    Restored start stop points (loadSnpFile a board format stale (saveSnp ops comma format
      (appMeasurementSetFrequencies start stop points) points measured) s) := by
  obtain ⟨rows, hrows, hfrequencies⟩ := snpRows_saved ops comma a
    (appMeasurementSetFrequencies start stop points) measured hread stale
  rw [loadSnpFile, hrows, Option.map_some, hfrequencies]
  exact loadSnp_grid hlo hle hhi hmin hmax s

end Restored

def natOps : FloatOps (Option Nat) where
  negative _ := false
  neg x := x
  infinite x := x.isNone
  trunc x := UInt32.ofNat (x.getD 0)
  scaled _ _ _ := 0

def natArith : FloatArith (Option Nat) where
  ofInt n := some n.toNat
  add x y := Option.map₂ (· + ·) x y
  mul x y := Option.map₂ (· * ·) x y
  neg x := x
  tenth := some 0
  ten := some 10
  eq x y := x = y
  eq_symm h := by
    rw [decide_eq_true_eq] at h ⊢
    exact h.symm
  eq_trans h h' := by
    rw [decide_eq_true_eq] at h h' ⊢
    exact h.trans h'

theorem snp_round_trip_one_port :
    Restored 1000000 2000000 21 (loadSnpFile natArith .f072 .s1p (fun _ => []) (saveSnp natOps false
      .s1p (appMeasurementSetFrequencies 1000000 2000000 21) 21 fun _ _ => ⟨some 0, some 0⟩)
      oneToTwoMHz) :=
  snp_round_trip natOps false natArith .s1p (fun _ _ => ⟨some 0, some 0⟩) (fun _ => [])
    (by decide) (by decide) (by decide) (by decide) (by decide)
    (fun _ _ _ => ⟨fun h => Bool.false_ne_true h.2, fun h => Bool.false_ne_true h.2⟩) oneToTwoMHz

/-- A sweep from 0 Hz, which a wide span leaves, starts at 600 Hz after the load; an infinite
reflection takes its point out of a one-port file. -/
theorem snp_not_restored :
    ¬ Restored 0 2700000000 2 (loadSnpFile natArith .f072 .s2p (fun _ => []) (saveSnp natOps false
      .s2p (appMeasurementSetFrequencies 0 2700000000 2) 2 fun _ _ => ⟨some 0, some 0⟩)
      oneToTwoMHz) ∧
    ¬ Restored 1000000 2000000 2 (loadSnpFile natArith .f072 .s1p (fun _ => []) (saveSnp natOps false
      .s1p (appMeasurementSetFrequencies 1000000 2000000 2) 2 fun _ _ => ⟨none, none⟩)
      oneToTwoMHz) := by
  have hstart : (loadSnpFile natArith .f072 .s2p (fun _ => []) (saveSnp natOps false
      .s2p (appMeasurementSetFrequencies 0 2700000000 2) 2 fun _ _ => ⟨some 0, some 0⟩)
      oneToTwoMHz).map (fun s => getSweepFrequency s.props .start) = some 600 := by
    decide +kernel
  have hpoints : (loadSnpFile natArith .f072 .s1p (fun _ => []) (saveSnp natOps false
      .s1p (appMeasurementSetFrequencies 1000000 2000000 2) 2 fun _ _ => ⟨none, none⟩)
      oneToTwoMHz).map (fun s => s.props.sweepPoints) = some 21 := by
    decide +kernel
  constructor
  · rintro ⟨s, hs, hzero, -⟩
    rw [hs, Option.map_some, hzero] at hstart
    exact absurd hstart (by decide)
  · rintro ⟨s, hs, -, -, htwo, -⟩
    rw [hs, Option.map_some, htwo] at hpoints
    exact absurd hpoints (by decide)

end NanoVNA.SnpFiles
