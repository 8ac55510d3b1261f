import NanoVNA.ScanCommand
import NanoVNA.ShellPrintf

namespace NanoVNA.ScanText

open NanoVNA.DeviceState NanoVNA.SweepGrid NanoVNA.ScanCommand NanoVNA.ShellPrintf

variable {F : Type}

/-- `sizeof(line)` -/
def lineSize : Nat := 64

/-- `sizeof(buffer)` -/
def bufferSize : Nat := 256

structure ScanPoint (F : Type) where
  freq : UInt32
  ch0 : Sample F
  ch1 : Sample F

section Output

variable (ops : FloatOps F) (comma : Bool)

def formatLine (fmt : String) (args : List (Value F)) : Nat × List Char :=
  chsnprintf lineSize (chvprintf ops comma fmt.toList args)

/-- Another text behind the `n` bytes that are in the line. -/
def appendFormat (fmt : String) (args : List (Value F)) (line : Nat × List Char) :
    Nat × List Char :=
  let r := chsnprintf (lineSize - line.1) (chvprintf ops comma fmt.toList args)
  (line.1 + r.1, line.2.take line.1 ++ r.2)

/-- The line of one point and its length; the bits of the mask are `SCAN_MASK_OUT_FREQ`,
`SCAN_MASK_OUT_DATA0` and `SCAN_MASK_OUT_DATA1`. -/
def scanLine (mask : Nat) (p : ScanPoint F) : Nat × List Char :=
  match mask.testBit 0, mask.testBit 1, mask.testBit 2 with
  | true, true, true =>
    formatLine ops comma "%u %f %f %f %f\r\n"
      [.u p.freq, .f p.ch0.re, .f p.ch0.im, .f p.ch1.re, .f p.ch1.im]
  | true, true, false =>
    formatLine ops comma "%u %f %f\r\n" [.u p.freq, .f p.ch0.re, .f p.ch0.im]
  | false, true, true =>
    formatLine ops comma "%f %f %f %f\r\n" [.f p.ch0.re, .f p.ch0.im, .f p.ch1.re, .f p.ch1.im]
  | true, false, false => formatLine ops comma "%u\r\n" [.u p.freq]
  | false, true, false => formatLine ops comma "%f %f\r\n" [.f p.ch0.re, .f p.ch0.im]
  | false, false, true => formatLine ops comma "%f %f\r\n" [.f p.ch1.re, .f p.ch1.im]
  | freq, data0, data1 =>
    let line := (0, [])
    let line := if freq then appendFormat ops comma "%u " [.u p.freq] line else line
    let line :=
      if data0 then appendFormat ops comma "%f %f " [.f p.ch0.re, .f p.ch0.im] line else line
    let line :=
      if data1 then appendFormat ops comma "%f %f " [.f p.ch1.re, .f p.ch1.im] line else line
    appendFormat ops comma "\r\n" [] line

structure Writer where
  sent : List Char
  buffer : List Char

/-- The buffer is sent when the line might not fit; a line as long as its own array is left out. -/
def writeLine (w : Writer) (line : Nat × List Char) : Writer :=
  let w := if bufferSize ≤ w.buffer.length + line.1 then ⟨w.sent ++ w.buffer, []⟩ else w
  if 0 < line.1 ∧ line.1 < lineSize then { w with buffer := w.buffer ++ line.2.take line.1 } else w

def scanText (mask points : Nat) (point : Nat → ScanPoint F) : List Char :=
  let w := (List.range points).foldl (fun w i => writeLine w (scanLine ops comma mask (point i)))
    ⟨[], []⟩
  w.sent ++ w.buffer

def scanPoint (r : ScanRequest) (measured : Fin 2 → Nat → Sample F) (i : Nat) : ScanPoint F where
  freq := UInt32.ofNat (getFrequency (appMeasurementSetFrequencies r.start r.stop r.points) i)
  ch0 := measured 0 i
  ch1 := measured 1 i

/-- The text that a scan sends; `none` when the mask asks for no output, or for the binary one. -/
def scanOutput (r : ScanRequest) (measured : Fin 2 → Nat → Sample F) : Option (List Char) :=
  if r.mask = 0 then none
  else if r.mask.testBit 7 then none
  else some (scanText ops comma r.mask r.points (scanPoint r measured))

def columns (mask : Nat) (p : ScanPoint F) : List (Value F) :=
  (if mask.testBit 0 then [.u p.freq] else []) ++
    (if mask.testBit 1 then [.f p.ch0.re, .f p.ch0.im] else []) ++
    if mask.testBit 2 then [.f p.ch1.re, .f p.ch1.im] else []

def spaced : List (List Char) → List Char
  | [] => []
  | [c] => c
  | c :: cs => c ++ ' ' :: spaced cs

def newline : List Char := ['\r', '\n']

/-- A complete line has all the columns, with or without a space at the end. -/
def IsLine (vs : List (Value F)) (text : List Char) : Prop :=
  ∃ pad, (pad = [] ∨ pad = [' ']) ∧
    text = spaced (vs.map (printValue ops comma)) ++ (pad ++ newline)

def EveryLine (mask points : Nat) (point : Nat → ScanPoint F) (text : List Char) : Prop :=
  ∃ lines : List (List Char), text = lines.flatten ∧ lines.length = points ∧
    ∀ i line, lines[i]? = some line → IsLine ops comma (columns mask (point i)) line

end Output

def directive : Value F → List Char
  | .u _ => ['%', 'u']
  | .f _ => ['%', 'f']

/-- A line is too long when all the columns are selected, or both channels, and the values take
too many digits. -/
def LineFits (ops : FloatOps F) (mask : Nat) (p : ScanPoint F) : Prop :=
  mask.testBit 1 = true → mask.testBit 2 = true →
    (if mask.testBit 0 then decimals p.freq.toNat else 0) + floatWidth ops p.ch0.re +
        floatWidth ops p.ch0.im + floatWidth ops p.ch1.re + floatWidth ops p.ch1.im ≤
      if mask.testBit 0 then 57 else 58

section Lines

variable (ops : FloatOps F) (comma : Bool)

theorem chvprintf_spaced (vs args : List (Value F)) (rest : List Char) :
    chvprintf ops comma (spaced (vs.map directive) ++ rest) (vs ++ args) =
      spaced (vs.map (printValue ops comma)) ++ chvprintf ops comma rest args := by
  induction vs with
  | nil => rfl
  | cons v vs ih =>
    cases vs with
    | nil => cases v <;> rfl
    | cons w vs =>
      have hnext := congrArg (fun text => printValue ops comma v ++ ' ' :: text) ih
      simp only [List.map_cons, spaced, List.cons_append, List.append_assoc] at hnext ⊢
      rw [← hnext]
      cases v <;> rfl

theorem formatLine_columns {fmt : String} {vs : List (Value F)}
    (h : fmt.toList = spaced (vs.map directive) ++ newline) :
    formatLine ops comma fmt vs =
      chsnprintf lineSize (spaced (vs.map (printValue ops comma)) ++ newline) := by
  have htext := chvprintf_spaced ops comma vs [] newline
  rw [List.append_nil, ← h] at htext
  rw [formatLine, htext]
  rfl

theorem chsnprintf_fits {size : Nat} {text : List Char} (h : text.length < size) :
    chsnprintf size text = (text.length, text) := by
  rw [chsnprintf, List.take_of_length_le (by omega)]

theorem appendFormat_fits {fmt : String} {args : List (Value F)} {text added : List Char}
    (hadded : chvprintf ops comma fmt.toList args = added)
    (h : (text ++ added).length < lineSize) :
    appendFormat ops comma fmt args (text.length, text) =
      ((text ++ added).length, text ++ added) := by
  rw [List.length_append] at h
  rw [appendFormat, hadded, chsnprintf_fits (by omega), List.take_length, List.length_append]

variable (mask : Nat) (p : ScanPoint F)

def lineText : List Char :=
  spaced ((columns mask p).map (printValue ops comma)) ++
    ((if mask.testBit 0 && !mask.testBit 1 && mask.testBit 2 then [' '] else []) ++ newline)

theorem isLine_lineText : IsLine ops comma (columns mask p) (lineText ops comma mask p) := by
  refine ⟨_, ?_, rfl⟩
  split
  · exact .inr rfl
  · exact .inl rfl

theorem lineText_fits_iff :
    (lineText ops comma mask p).length < lineSize ↔ LineFits ops mask p := by
  have hfreq := decimals_uint32 p.freq
  have hre0 := floatWidth_le ops p.ch0.re
  have him0 := floatWidth_le ops p.ch0.im
  have hre1 := floatWidth_le ops p.ch1.re
  have him1 := floatWidth_le ops p.ch1.im
  cases h0 : mask.testBit 0 <;> cases h1 : mask.testBit 1 <;> cases h2 : mask.testBit 2 <;>
    simp [lineText, columns, LineFits, lineSize, h0, h1, h2, spaced, newline, length_printValue,
      valueWidth] <;> omega

theorem defaultLine_eq
    (h : (spaced ([.u p.freq, .f p.ch1.re, .f p.ch1.im].map (printValue ops comma)) ++
      ([' '] ++ newline)).length < lineSize) :
    appendFormat ops comma "\r\n" []
        (appendFormat ops comma "%f %f " [.f p.ch1.re, .f p.ch1.im]
          (appendFormat ops comma "%u " [.u p.freq] (0, []))) =
      chsnprintf lineSize
        (spaced ([.u p.freq, .f p.ch1.re, .f p.ch1.im].map (printValue ops comma)) ++
          ([' '] ++ newline)) := by
  have hparts : spaced ([.u p.freq, .f p.ch1.re, .f p.ch1.im].map (printValue ops comma)) ++
      ([' '] ++ newline) =
      [] ++ (longToString p.freq 0 ++ [' ']) ++
        (printFloat ops comma p.ch1.re ++ ' ' :: (printFloat ops comma p.ch1.im ++ [' '])) ++
        newline := by
    simp [spaced, printValue, newline]
  rw [hparts] at h ⊢
  have hdata := Nat.lt_of_le_of_lt (List.prefix_append ..).length_le h
  have hfreq := Nat.lt_of_le_of_lt (List.prefix_append ..).length_le hdata
  have hline : appendFormat ops comma "%u " [.u p.freq] (0, []) =
      (([] ++ (longToString p.freq 0 ++ [' '])).length,
        [] ++ (longToString p.freq 0 ++ [' '])) := @appendFormat_fits F ops comma _ _ [] _ rfl hfreq
  rw [hline, appendFormat_fits ops comma rfl hdata, appendFormat_fits ops comma rfl h,
    chsnprintf_fits h]
  rfl

theorem scanLine_eq :
    scanLine ops comma mask p = chsnprintf lineSize (lineText ops comma mask p) := by
  have hfits := (lineText_fits_iff ops comma mask p).mpr
  revert hfits
  unfold scanLine lineText columns LineFits
  cases mask.testBit 0 with
  | false =>
    cases mask.testBit 1 with
    | false =>
      cases mask.testBit 2 with
      | false => exact fun _ => rfl
      | true => exact fun _ => formatLine_columns ops comma rfl
    | true =>
      cases mask.testBit 2 with
      | false => exact fun _ => formatLine_columns ops comma rfl
      | true => exact fun _ => formatLine_columns ops comma rfl
  | true =>
    cases mask.testBit 1 with
    | false =>
      cases mask.testBit 2 with
      | false => exact fun _ => formatLine_columns ops comma rfl
      | true =>
        exact fun hfits => defaultLine_eq ops comma p (hfits nofun)
    | true =>
      cases mask.testBit 2 with
      | false => exact fun _ => formatLine_columns ops comma rfl
      | true => exact fun _ => formatLine_columns ops comma rfl

theorem scanLine_fits (h : LineFits ops mask p) :
    scanLine ops comma mask p =
      ((lineText ops comma mask p).length, lineText ops comma mask p) :=
  (scanLine_eq ops comma mask p).trans
    (chsnprintf_fits ((lineText_fits_iff ops comma mask p).mpr h))

theorem newline_not_mem_spaced (vs : List (Value F)) :
    '\n' ∉ spaced (vs.map (printValue ops comma)) := by
  induction vs with
  | nil => exact nofun
  | cons v vs ih =>
    have hv := newline_not_mem_printValue ops comma v
    cases vs with
    | nil => exact hv
    | cons w vs =>
      simp only [List.map_cons, spaced, List.mem_append, List.mem_cons, not_or] at ih ⊢
      exact ⟨hv, by decide, ih⟩

theorem count_isLine {vs : List (Value F)} {text : List Char} (h : IsLine ops comma vs text) :
    text.count '\n' = 1 := by
  obtain ⟨pad, hpad, rfl⟩ := h
  have hspaced := List.count_eq_zero.mpr (newline_not_mem_spaced ops comma vs)
  rw [List.count_append, List.count_append, hspaced]
  obtain rfl | rfl := hpad <;> rfl

end Lines

end NanoVNA.ScanText
