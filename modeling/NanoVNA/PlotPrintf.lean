import NanoVNA.PrintRuns

namespace NanoVNA.PlotPrintf

open NanoVNA.PrintBuffer NanoVNA.PrintFloats NanoVNA.PrintFormat NanoVNA.PrintRuns
open NanoVNA.DeviceState (Board)

/-! ### A text in a buffer of limited size -/

/-- `printStream`: the bytes from the start of the buffer on, the place of the next one and the
room that is left, which has a byte for the terminator. -/
structure PrintStream where
  mem : Nat → Char
  buffer : Nat
  size : Nat

def put (ps : PrintStream) (b : Char) : PrintStream :=
  if 1 < ps.size then ⟨Function.update ps.mem ps.buffer b, ps.buffer + 1, ps.size - 1⟩ else ps

section Printf

variable {fl : FloatFormat} (board : Board) (comma : Bool) (stack : Stack) (tmpbuf : Nat → Char)

/-- What the loop puts on a stream; the buffer of the conversions has what the stack left there. -/
def printOn {σ : Type} (put : σ → Char → σ) (s : σ) (fmt : List Char) (args : List (Arg fl)) :
    Option (σ × Int) :=
  chvprintf board comma stack put fmt args (fun i => some (tmpbuf i)) (s, 0)

def printText (fmt : List Char) (args : List (Arg fl)) : Option (List Char × Int) :=
  printOn board comma stack tmpbuf (fun text c => text ++ [c]) [] fmt args

def plotPrintf (mem : Nat → Char) (size : Int) (fmt : List Char) (args : List (Arg fl)) :
    Option ((Nat → Char) × Int) :=
  if size ≤ 0 then some (mem, 0)
  else do
    let (ps, retval) ←
      printOn board comma stack tmpbuf put ⟨mem, 0, size.toNat % 2 ^ 16⟩ fmt args
    some (Function.update ps.mem ps.buffer '\x00', if size - 1 < retval then size - 1 else retval)

end Printf

/-- The text stands in the buffer as far as it fits, with its terminator, and is counted. -/
structure Stores (size : Nat) (text : List Char) (mem mem' : Nat → Char) (retval : Int) :
    Prop where
  stored : ∀ i (h : i < (text.take (size - 1)).length), mem' i = (text.take (size - 1))[i]
  terminator : mem' (text.take (size - 1)).length = '\x00'
  room : (text.take (size - 1)).length < size
  kept : ∀ i, size ≤ i → mem' i = mem i
  count : retval = (text.take (size - 1)).length

section Streams

theorem wrap32_add (n k : Int) : wrap32 (wrap32 n + k) = wrap32 (n + k) := by
  rw [wrap32, wrap32, wrap32, Int.bmod_add_bmod]

theorem foldl_streamPut {σ : Type} (put : σ → Char → σ) (text : List Char) (s : σ) (n : Int) :
    text.foldl (streamPut put) (s, wrap32 n) = (text.foldl put s, wrap32 (n + text.length)) := by
  induction text generalizing s n with
  | nil => rw [List.foldl_nil, List.foldl_nil, List.length_nil, Int.natCast_zero, Int.add_zero]
  | cons c text ih =>
    rw [List.foldl_cons, List.foldl_cons, streamPut, wrap32_add, ih, List.length_cons,
      Int.natCast_succ, Int.add_assoc, Int.add_comm 1]

theorem foldl_snoc (text start : List Char) :
    text.foldl (fun text c => text ++ [c]) start = start ++ text := by
  induction text generalizing start with
  | nil => rw [List.foldl_nil, List.append_nil]
  | cons c text ih =>
    rw [List.foldl_cons, ih, List.append_assoc, List.singleton_append]

structure Puts (ps : PrintStream) (text : List Char) (ps' : PrintStream) : Prop where
  buffer : ps'.buffer = ps.buffer + (text.take (ps.size - 1)).length
  stored : ∀ j (h : j < (text.take (ps.size - 1)).length),
    ps'.mem (ps.buffer + j) = (text.take (ps.size - 1))[j]
  front : ∀ i < ps.buffer, ps'.mem i = ps.mem i
  behind : ∀ i, ps'.buffer ≤ i → ps'.mem i = ps.mem i

theorem puts_text (ps : PrintStream) (text : List Char) : Puts ps text (text.foldl put ps) := by
  induction text generalizing ps with
  | nil =>
    refine ⟨?_, fun j hj => ?_, fun _ _ => rfl, fun _ _ => rfl⟩
    · rw [List.take_nil, List.length_nil]
      rfl
    · rw [List.take_nil] at hj
      exact absurd hj (Nat.not_lt_zero j)
  | cons c text ih =>
    rw [List.foldl_cons]
    by_cases hroom : 1 < ps.size
    · have hput : put ps c =
          ⟨Function.update ps.mem ps.buffer c, ps.buffer + 1, ps.size - 1⟩ := if_pos hroom
      have htake : (c :: text).take (ps.size - 1) = c :: text.take (ps.size - 1 - 1) := by
        rw [← List.take_succ_cons]
        congr 1
        omega
      obtain ⟨hbuffer, hstored, hfront, hbehind⟩ := ih (put ps c)
      rw [hput] at hbuffer hstored hfront hbehind ⊢
      dsimp only at hbuffer hstored hfront hbehind
      refine ⟨?_, fun j hj => ?_, fun i hi => ?_, fun i hi => ?_⟩
      · rw [htake, hbuffer, List.length_cons]
        omega
      · simp only [htake] at hj ⊢
        cases j with
        | zero =>
          have hfirst := hfront ps.buffer (Nat.lt_succ_self _)
          rw [Function.update_self] at hfirst
          exact hfirst
        | succ j =>
          have hnext := hstored j (Nat.lt_of_succ_lt_succ hj)
          rw [Nat.add_assoc, Nat.add_comm 1] at hnext
          exact hnext
      · rw [hfront i (Nat.lt_succ_of_lt hi), Function.update_of_ne (Nat.ne_of_lt hi)]
      · rw [hbehind i hi, Function.update_of_ne (by omega)]
    · have hput : put ps c = ps := if_neg hroom
      have htake : ∀ text : List Char, text.take (ps.size - 1) = [] := by
        intro text
        rw [show ps.size - 1 = 0 by omega, List.take_zero]
      obtain ⟨hbuffer, -, hfront, hbehind⟩ := ih ps
      rw [htake] at hbuffer
      rw [hput]
      refine ⟨?_, fun j hj => ?_, hfront, hbehind⟩
      · rw [htake, hbuffer]
      · rw [htake] at hj
        exact absurd hj (Nat.not_lt_zero j)

end Streams

section Meets

variable {fl : FloatFormat} (board : Board) (comma : Bool) (stack : Stack)
  (tmpbuf mem : Nat → Char) (fmt : List Char) (args : List (Arg fl)) {size : Nat}

/-- The run stays in the buffer of the conversions, and the buffer of the caller has what fits of
the text that is put on an unlimited stream. -/
def Meets (size : Nat) : Prop :=
  ∃ text n mem' retval, printText board comma stack tmpbuf fmt args = some (text, n) ∧
    plotPrintf board comma stack tmpbuf mem size fmt args = some (mem', retval) ∧
    Stores size text mem mem' retval

def Counted (size : Nat) (text : List Char) : Prop :=
  text.length < 2 ^ 31 ∨ (size : Int) - 1 ≤ wrap32 text.length

variable {fmt args} in
theorem plotPrintf_fine (hfine : Fine fmt args) (hpos : 1 ≤ size) (hsize : size ≤ 65535) :
    ∃ text ps, Puts ⟨mem, 0, size⟩ text ps ∧
      printText board comma stack tmpbuf fmt args = some (text, wrap32 text.length) ∧
      plotPrintf board comma stack tmpbuf mem size fmt args =
        some (Function.update ps.mem ps.buffer '\x00',
          if (size : Int) - 1 < wrap32 text.length then (size : Int) - 1
          else wrap32 text.length) := by
  obtain ⟨text, htext⟩ := @chvprintf_fine fl board comma stack fmt args hfine
    (fun i => some (tmpbuf i)) fun _ => rfl
  have hon {σ : Type} (put : σ → Char → σ) (s : σ) :
      printOn board comma stack tmpbuf put s fmt args =
        some (text.foldl put s, wrap32 text.length) := by
    have hcount := foldl_streamPut put text s 0
    rw [Int.zero_add] at hcount
    exact (htext put (s, 0)).trans (congrArg some hcount)
  have hword : (size : Int).toNat % 2 ^ 16 = size := by
    rw [Int.toNat_natCast]
    exact Nat.mod_eq_of_lt (by omega)
  refine ⟨text, text.foldl put ⟨mem, 0, size⟩, puts_text _ text, ?_, ?_⟩
  · rw [printText, hon, foldl_snoc, List.nil_append]
  · rw [plotPrintf, if_neg (by omega), hword, hon]
    rfl

theorem stores_iff {text : List Char} {ps : PrintStream} (hputs : Puts ⟨mem, 0, size⟩ text ps)
    (hpos : 1 ≤ size) (hsize : size ≤ 65535) :
    Stores size text mem (Function.update ps.mem ps.buffer '\x00')
        (if (size : Int) - 1 < wrap32 text.length then (size : Int) - 1
          else wrap32 text.length) ↔
      Counted size text := by
  have hlength : (text.take (size - 1)).length = min (size - 1) text.length := List.length_take
  obtain ⟨hbuffer, hstored, -, hbehind⟩ := hputs
  dsimp only at hbuffer hstored hbehind
  rw [Nat.zero_add] at hbuffer
  have hcount : (if (size : Int) - 1 < wrap32 text.length then (size : Int) - 1
      else wrap32 text.length) = (text.take (size - 1)).length ↔ Counted size text := by
    rw [hlength, Counted, wrap32, Int.bmod_def]
    omega
  constructor
  · intro h
    exact hcount.mp h.count
  · intro h
    refine ⟨fun i hi => ?_, ?_, by omega, fun i hi => ?_, hcount.mpr h⟩
    · have hchar := hstored i hi
      rw [Nat.zero_add] at hchar
      rw [Function.update_of_ne (by omega), hchar]
    · rw [← hbuffer, Function.update_self]
    · rw [Function.update_of_ne (by omega), hbehind i (by omega)]

variable {board comma stack tmpbuf mem fmt args} in
theorem Meets.fine (h : Meets board comma stack tmpbuf mem fmt args size) : Fine fmt args := by
  obtain ⟨text, n, -, -, htext, -⟩ := h
  by_contra hnot
  have hnone := @chvprintf_misfit fl board comma stack fmt args hnot
    (fun i => some (tmpbuf i)) (fun _ => rfl) _ (fun text c => text ++ [c]) ([], 0)
  rw [printText, printOn, hnone] at htext
  cases htext

theorem plot_meets_iff (hpos : 1 ≤ size) (hsize : size ≤ 65535) :
    Meets board comma stack tmpbuf mem fmt args size ↔
      Fine fmt args ∧ ∀ text n, printText board comma stack tmpbuf fmt args = some (text, n) →
        Counted size text := by
  constructor
  · intro h
    have hfine := h.fine
    obtain ⟨text, n, mem', retval, htext, hplot, hstores⟩ := h
    obtain ⟨text', ps, hputs, htext', hplot'⟩ :=
      plotPrintf_fine board comma stack tmpbuf mem hfine hpos hsize
    rw [hplot'] at hplot
    cases hplot
    rw [htext'] at htext
    cases htext
    refine ⟨hfine, fun text n h => ?_⟩
    rw [htext'] at h
    cases h
    exact (stores_iff mem hputs hpos hsize).mp hstores
  · rintro ⟨hfine, hcounted⟩
    obtain ⟨text, ps, hputs, htext, hplot⟩ :=
      plotPrintf_fine board comma stack tmpbuf mem hfine hpos hsize
    exact ⟨text, _, _, _, htext, hplot,
      (stores_iff mem hputs hpos hsize).mpr (hcounted text _ htext)⟩

end Meets

/-- The fractions end at 2 ^ 24. -/
def wholeRound (x : ℚ) : ℚ := if x < 2 ^ 24 then x else ⌊x⌋

theorem wholeRound_natural (n : ℕ) : wholeRound n = n := by
  unfold wholeRound
  split
  · rfl
  · rw [Int.floor_natCast]
    exact Int.cast_natCast n

theorem wholeRound_mono : Monotone wholeRound := by
  intro x y hle
  unfold wholeRound
  split
  next hx =>
    split
    next hy => exact hle
    next hy =>
      have hfloor : (2 ^ 24 : ℤ) ≤ ⌊y⌋ := Int.le_floor.mpr (by exact_mod_cast not_lt.mp hy)
      have hcast : (2 ^ 24 : ℚ) ≤ ⌊y⌋ := by exact_mod_cast hfloor
      exact hx.le.trans hcast
  next hx =>
    rw [if_neg (not_lt.mpr ((not_lt.mp hx).trans hle))]
    exact_mod_cast Int.floor_le_floor hle

theorem wholeRound_integral {x : ℚ} (hx : 2 ^ 24 ≤ x) (hround : wholeRound x = x) :
    ∃ n : ℕ, x = n := by
  rw [wholeRound, if_neg (not_lt.mpr hx)] at hround
  have hpos : 0 ≤ ⌊x⌋ := Int.floor_nonneg.mpr (le_trans (by norm_num) hx)
  refine ⟨⌊x⌋.toNat, ?_⟩
  rw [← Int.cast_natCast, Int.toNat_of_nonneg hpos, hround]

def wholeFormat : FloatFormat where
  round := wholeRound
  mono := wholeRound_mono
  natural n _ := wholeRound_natural n
  half := if_pos (by norm_num)
  integral _ hx hround := wholeRound_integral hx hround
  fused := false

def billion : Finite wholeFormat where
  value := (10 ^ 9 : ℕ)
  float := by
    rw [Nat.abs_cast]
    exact wholeRound_natural (10 ^ 9)
  integer := by
    rw [Nat.abs_cast]
    norm_num

def zeroStack : Stack := ⟨['\x00'], '\x00', List.mem_singleton_self _, by decide⟩

theorem plot_meets_iff_seven : 1 ≤ 3 ∧ 3 ≤ 65535 ∧
    Meets .f303 false zeroStack (fun _ => '\x00') (fun _ => '\x00') "%d".toList
      [(.word 7 : Arg wholeFormat)] 3 := by
  refine ⟨by decide, by decide, (plot_meets_iff _ _ _ _ _ _ _ (by decide) (by decide)).mpr ?_⟩
  have hparse : parseDirective "d".toList [(.word 7 : Arg wholeFormat)] =
      some (⟨{}, 0, none, .signed 7⟩, [], []) := rfl
  refine ⟨(fine_some hparse).mpr ⟨trivial, [], ?_, ?_⟩, fun text n htext => ?_⟩
  · rw [directives]
  · exact fun d hd => absurd hd List.not_mem_nil
  · have hconvert : ∃ buf', convert .f303 false zeroStack
        (⟨{}, 0, none, .signed 7⟩ : Directive wholeFormat) (fun _ => some '\x00') =
          some (⟨['7'], 1, false, false⟩, buf') := ⟨_, rfl⟩
    obtain ⟨buf', hconvert⟩ := hconvert
    have hrun : printText .f303 false zeroStack (fun _ => '\x00') "%d".toList
        [(.word 7 : Arg wholeFormat)] = some (['7'], 1) := by
      rw [printText, printOn, show "%d".toList = '%' :: "d".toList from rfl,
        chvprintf_some .f303 false zeroStack _ _ _ hparse, hconvert, Option.bind_some, chvprintf]
      rfl
    rw [hrun] at htext
    cases htext
    exact Or.inl (by decide)

theorem not_plot_meets :
    (directives "%+jf".toList [.double billion]).isSome = true ∧
      ¬ Meets .f303 false zeroStack (fun _ => '\x00') (fun _ => '\x00') "%+jf".toList
        [.double billion] 64 := by
  have hparse : parseDirective "+jf".toList [.double billion] =
      some (⟨{ positive := true, complex := true }, 0, none, .float false billion⟩, [], []) := rfl
  constructor
  · rw [show "%+jf".toList = '%' :: "+jf".toList from rfl, directives_some hparse, directives]
    rfl
  · intro h
    have hfits := ((fine_some hparse).mp h.fine).1
    have hlt : |((10 ^ 9 : ℕ) : ℚ)| < 10 ^ 9 := hfits.room (by decide) rfl rfl
    rw [Nat.abs_cast] at hlt
    norm_num at hlt

end NanoVNA.PlotPrintf
