import NanoVNA.ScanText

namespace NanoVNA.ScanLines

open NanoVNA.DeviceState NanoVNA.SweepGrid NanoVNA.ScanCommand NanoVNA.ShellPrintf
open NanoVNA.ScanText

variable {F : Type}

section Writing

def written (line : Nat × List Char) : List Char :=
  if 0 < line.1 ∧ line.1 < lineSize then line.2.take line.1 else []

theorem writeLine_output (w : Writer) (line : Nat × List Char) :
    (writeLine w line).sent ++ (writeLine w line).buffer = w.sent ++ w.buffer ++ written line := by
  unfold writeLine written
  dsimp only
  by_cases hfull : bufferSize ≤ w.buffer.length + line.1
  · rw [if_pos hfull]
    split
    · rw [List.nil_append]
    · rfl
  · rw [if_neg hfull]
    split
    · rw [List.append_assoc]
    · rw [List.append_nil]

theorem writeLines_output (lines : List (Nat × List Char)) (w : Writer) :
    (lines.foldl writeLine w).sent ++ (lines.foldl writeLine w).buffer =
      w.sent ++ w.buffer ++ lines.flatMap written := by
  induction lines generalizing w with
  | nil => exact (List.append_nil _).symm
  | cons line lines ih =>
    rw [List.foldl_cons, ih, writeLine_output, List.append_assoc, List.flatMap_cons]

variable (ops : FloatOps F) (comma : Bool) (mask points : Nat) (point : Nat → ScanPoint F)

theorem scanText_eq : scanText ops comma mask points point =
    (List.range points).flatMap fun i => written (scanLine ops comma mask (point i)) := by
  have hlines := writeLines_output
    ((List.range points).map fun i => scanLine ops comma mask (point i)) ⟨[], []⟩
  rw [List.foldl_map, List.flatMap_map] at hlines
  exact hlines

theorem written_fits {p : ScanPoint F} (h : LineFits ops mask p) :
    written (scanLine ops comma mask p) = lineText ops comma mask p := by
  have hlen := (lineText_fits_iff ops comma mask p).mpr h
  have hpos : 0 < (lineText ops comma mask p).length := by
    simp [lineText, newline]
  rw [scanLine_fits ops comma mask p h, written, if_pos ⟨hpos, hlen⟩, List.take_length]

theorem written_long {p : ScanPoint F} (h : ¬ LineFits ops mask p) :
    written (scanLine ops comma mask p) = [] := by
  have hlen := mt (lineText_fits_iff ops comma mask p).mp h
  rw [scanLine_eq, written, if_neg fun hsize => hlen hsize.2]

theorem count_scanText [∀ p, Decidable (LineFits ops mask p)] :
    (scanText ops comma mask points point).count '\n' =
      (List.range points).countP fun i => decide (LineFits ops mask (point i)) := by
  rw [scanText_eq]
  induction points with
  | zero => rfl
  | succ n ih =>
    rw [List.range_succ, List.flatMap_append, List.count_append, ih, List.countP_append]
    congr 1
    by_cases h : LineFits ops mask (point n)
    · have hline := count_isLine ops comma (isLine_lineText ops comma mask (point n))
      simpa [h, written_fits ops comma mask h] using hline
    · simp [h, written_long ops comma mask h]

theorem everyLine_iff : EveryLine ops comma mask points point
      (scanText ops comma mask points point) ↔ ∀ i < points, LineFits ops mask (point i) := by
  classical
  constructor
  · rintro ⟨lines, htext, hlength, hline⟩
    have hone : lines.map (List.count '\n') = List.replicate points 1 := by
      refine List.eq_replicate_iff.mpr ⟨(List.length_map ..).trans hlength, fun n hn => ?_⟩
      obtain ⟨line, hmem, rfl⟩ := List.mem_map.mp hn
      obtain ⟨i, hi⟩ := List.mem_iff_getElem?.mp hmem
      exact count_isLine ops comma (hline i line hi)
    have hcount := count_scanText ops comma mask points point
    rw [htext, List.count_flatten, hone, List.sum_replicate_nat, Nat.mul_one] at hcount
    have hall := List.countP_eq_length.mp (hcount.symm.trans List.length_range.symm)
    exact fun i hi => of_decide_eq_true (hall i (List.mem_range.mpr hi))
  · intro h
    refine ⟨(List.range points).map fun i => lineText ops comma mask (point i), ?_, ?_, ?_⟩
    · rw [scanText_eq, List.flatMap_def]
      refine congrArg List.flatten (List.map_congr_left fun i hi => ?_)
      exact written_fits ops comma mask (h i (List.mem_range.mp hi))
    · rw [List.length_map, List.length_range]
    · intro i line hi
      obtain ⟨k, hk, rfl⟩ := List.getElem?_eq_some_iff.mp hi
      rw [List.getElem_map, List.getElem_range]
      exact isLine_lineText ops comma mask (point i)

end Writing

/-- A scan sends one complete line for each point exactly when every line is shorter than its
array: with both channels selected the values must not take too many digits. -/
theorem scan_lines_iff (ops : FloatOps F) (comma : Bool) (r : ScanRequest)
    (measured : Fin 2 → Nat → Sample F) {text : List Char}
    (h : scanOutput ops comma r measured = some text) :
    EveryLine ops comma r.mask r.points (scanPoint r measured) text ↔
      ∀ i < r.points, LineFits ops r.mask (scanPoint r measured i) := by
  unfold scanOutput at h
  split at h
  · cases h
  · split at h
    · cases h
    · obtain rfl := Option.some.inj h
      exact everyLine_iff ops comma r.mask r.points (scanPoint r measured)

def exactOps : FloatOps ℚ where
  negative x := x < 0
  neg x := -x
  infinite _ := false
  trunc x := UInt32.ofNat (min x.floor.toNat (2 ^ 32 - 1))
  scaled x l multi :=
    UInt32.ofNat (min ((x - l.toNat) * multi.toNat + 1 / 2).floor.toNat (2 ^ 32 - 1))

def minusHalves (_ : Fin 2) (_ : Nat) : Sample ℚ := ⟨-1 / 2, -1 / 2⟩

theorem scan_lines_one_channel :
    let r : ScanRequest := ⟨1000000000, 2000000000, 2, 3⟩
    ∃ text, scanOutput exactOps false r minusHalves = some text ∧
      EveryLine exactOps false r.mask r.points (scanPoint r minusHalves) text := by
  intro r
  have houtput : scanOutput exactOps false r minusHalves =
      some (scanText exactOps false 3 2 (scanPoint r minusHalves)) :=
    (if_neg (by decide)).trans (if_neg (by decide))
  refine ⟨_, houtput, (scan_lines_iff exactOps false r minusHalves houtput).mpr fun i _ => ?_⟩
  exact fun _ hdata1 => absurd hdata1 (by decide)

/-- From 1 GHz on, four negative values make a line of 64 bytes, and the scan sends nothing. -/
theorem scan_lines_dropped :
    let r : ScanRequest := ⟨1000000000, 2000000000, 2, 7⟩
    scanOutput exactOps false r minusHalves = some [] ∧
      ¬ EveryLine exactOps false r.mask r.points (scanPoint r minusHalves) [] := by
  intro r
  refine ⟨by decide +kernel, ?_⟩
  rintro ⟨lines, htext, hlength, hline⟩
  have hfirst : 0 < lines.length := hlength ▸ Nat.zero_lt_succ 1
  have hempty := List.flatten_eq_nil_iff.mp htext.symm _ (List.getElem_mem hfirst)
  have hcount := count_isLine exactOps false (hline 0 _ (List.getElem?_eq_getElem hfirst))
  rw [hempty] at hcount
  exact absurd hcount (by decide)

end NanoVNA.ScanLines
