import NanoVNA.GuardedRun
import NanoVNA.LineWrites
import NanoVNA.SnpFiles

namespace NanoVNA.SnpLoading

open NanoVNA.DeviceState NanoVNA.SweepRequests NanoVNA.SweepFrequency NanoVNA.ShellArguments
open NanoVNA.FloatText NanoVNA.LineParser NanoVNA.ArgumentBuffer NanoVNA.LineWrites NanoVNA.SnpFiles
open NanoVNA.GuardedRun

variable {R F : Type}

abbrev Measured (F : Type) := Fin 2 → Nat → Sample F

/-- `load_snp` between two characters of the file; the memory is that from the line buffer on. -/
structure Loading (F : Type) where
  memory : List Char
  j : Nat
  count : Nat
  start : Nat
  stop : Nat
  measured : Measured F

/-- What a character brings: whether the load ends with an error, the fields of `args` that are used
beside the count of those that are set, and the place in `measured` that is stored to with what is
stored. -/
structure Progress (F : Type) where
  failed : Bool
  fields : List (Nat × Nat)
  stored : Option (Nat × Sample F × Sample F)
  loading : Loading F

def storePoint (measured : Measured F) (count : Nat) (s11 s21 : Sample F) : Measured F :=
  fun channel i =>
    if i = count then if channel = 0 then s11 else s21 else measured channel i

/-- The size of `args`. -/
def lineArguments : Nat := 16

section Load

variable (a : FloatArith F) (board : Board) (format : SnpFormat)

/-- A line is done. An entry of `args` that `parse_line` has not set leads anywhere. -/
def endLine (unset : Loading F → Nat → Arg) (s : Loading F) : Progress F :=
  let memory := s.memory.set s.j nul
  let args := parseLine lineArguments memory
  let nargs := args.length
  let arg := fun k => args.getD k (unset s k)
  let s := { s with memory := (parseFrom lineArguments 0 memory).2, j := 0 }
  if nargs < 2 then ⟨false, [], none, s⟩
  else if (arg 0).head? = some '#' ∨ (arg 0).head? = some '!' then ⟨false, [(0, nargs)], none, s⟩
  else
    let freq := myAtoui (arg 0)
    if sweepPointsMax board ≤ s.count ∨ frequencyMax < freq then ⟨true, [(0, nargs)], none, s⟩
    else
      let s11 := ⟨myAtof a (arg 1), myAtof a (arg 2)⟩
      let twoPorts : Bool := format = .s2p ∧ 4 ≤ nargs
      let s21 :=
        if twoPorts then ⟨myAtof a (arg 3), myAtof a (arg 4)⟩ else ⟨a.ofInt 0, a.ofInt 0⟩
      { failed := false
        fields := [(0, nargs), (1, nargs), (2, nargs)] ++
          if twoPorts then [(3, nargs), (4, nargs)] else []
        stored := some (s.count, s11, s21)
        loading :=
          { s with
            count := s.count + 1
            start := if s.count = 0 then freq else s.start
            stop := freq
            measured := storePoint s.measured s.count s11 s21 } }

def readChar (unset : Loading F → Nat → Arg) (s : Loading F) (c : Char) : Progress F :=
  if c = '\r' then endLine a board format unset s
  else if c.toNat < 32 then ⟨false, [], none, s⟩
  else if s.j < lineSize then
    ⟨false, [], none, { s with memory := s.memory.set s.j c, j := s.j + 1 }⟩
  else ⟨false, [], none, s⟩

variable (unset : Loading F → Nat → Arg)

def readFile : Loading F → List Char → Bool × Loading F
  | s, [] => (false, s)
  | s, c :: file =>
    let p := readChar a board format unset s c
    if p.failed then (true, p.loading) else readFile p.loading file

def fresh (memory : List Char) (measured : Measured F) : Loading F := ⟨memory, 0, 0, 0, 0, measured⟩

/-- `load_snp`, with the error it reports. -/
def loadSnpData (memory : List Char) (file : List Char) (vna : Vna R) (measured : Measured F) :
    Bool × Vna R × Measured F :=
  let r := readFile a board format unset (fresh memory measured) file
  if r.1 then (true, vna, r.2.measured)
  else if r.2.count = 0 then (false, vna, r.2.measured)
  else
    let vna := { vna with props := { vna.props with sweepPoints := r.2.count } }
    (false, setSweepFrequency .stop r.2.stop (setSweepFrequency .start r.2.start vna), r.2.measured)

def feed (s : Loading F) (c : Char) : Option (Loading F) :=
  let p := readChar a board format unset s c
  if p.failed then none else some p.loading

def dataRows : Loading F → List Char → List (Sample F × Sample F)
  | _, [] => []
  | s, c :: file =>
    let p := readChar a board format unset s c
    (p.stored.map Prod.snd).toList ++ if p.failed then [] else dataRows p.loading file

/-- A character has only fields used that are set, and points stored that are in the array; what is
written to the line buffer is at the place of its terminator or in front of it. -/
structure StepSafe (s : Loading F) (p : Progress F) : Prop where
  fields : ∀ use ∈ p.fields, use.1 < use.2
  stored : ∀ point ∈ p.stored, point.1 < sweepPointsMax board
  terminator : s.j ≤ lineSize
  behind : p.loading.memory.drop (s.j + 1) = s.memory.drop (s.j + 1)

/-- Every character is safe, and an error leaves the settings and the data as they were. -/
structure LoadsSafely (memory : List Char) (file : List Char) (vna : Vna R) (measured : Measured F) :
    Prop where
  steps : Along (feed a board format unset)
    (fun s c => StepSafe board s (readChar a board format unset s c)) (fresh memory measured) file
  error : let loaded := loadSnpData a board format unset memory file vna measured
    loaded.1 = true → loaded.2.1 = vna ∧ loaded.2.2 = measured

/-- A line that the load has room for has three fields or more, and in a two-port file not just
four. -/
def Complete (count : Nat) : List Arg → Prop
  | freq :: _ :: args =>
    freq.head? ≠ some '#' → freq.head? ≠ some '!' → count < sweepPointsMax board →
      myAtoui freq ≤ frequencyMax → 1 ≤ args.length ∧ (format = .s2p → args.length ≠ 2)
  | _ => True

instance decidableComplete (count : Nat) : ∀ args, Decidable (Complete board format count args)
  | [] => isTrue trivial
  | [_] => isTrue trivial
  | _ :: _ :: _ => inferInstanceAs (Decidable (_ → _))

def LineSound (s : Loading F) : Prop :=
  let line := s.memory.take s.j
  let behind := s.memory.drop (s.j + 1)
  confined lineArguments line behind = true ∧
    Complete board format s.count (parseLine lineArguments (line ++ nul :: behind))

instance (s : Loading F) : Decidable (LineSound board format s) :=
  inferInstanceAs (Decidable (_ ∧ _))

/-- Every line is sound when it is done, and before an error the data lines hold the data that were
measured. -/
structure FileSound (memory : List Char) (file : List Char) (measured : Measured F) : Prop where
  lines : Along (feed a board format unset) (fun s c => c = '\r' → LineSound board format s)
    (fresh memory measured) file
  error : (readFile a board format unset (fresh memory measured) file).1 = true →
    ∀ k s11 s21, (dataRows a board format unset (fresh memory measured) file)[k]? = some (s11, s21) →
      s11 = measured 0 k ∧ s21 = measured 1 k

section Lines

variable {a : FloatArith F} {board : Board} {format : SnpFormat} {unset : Loading F → Nat → Arg}
  {s : Loading F} {c : Char}

structure Fits (s : Loading F) : Prop where
  line : s.j ≤ lineSize
  memory : lineSize < s.memory.length
  text : ∀ x ∈ s.memory.take s.j, x ≠ nul

theorem Fits.length_take (h : Fits s) : (s.memory.take s.j).length = s.j :=
  List.length_take_of_le (Nat.le_of_lt (Nat.lt_of_le_of_lt h.line h.memory))

theorem Fits.set_line (h : Fits s) (c : Char) :
    s.memory.set s.j c = s.memory.take s.j ++ c :: s.memory.drop (s.j + 1) := by
  rw [List.set_eq_take_append_cons_drop, if_pos (Nat.lt_of_le_of_lt h.line h.memory)]

theorem endLine_j (s : Loading F) : (endLine a board format unset s).loading.j = 0 := by
  simp only [endLine]
  split
  · rfl
  · split
    · rfl
    · split <;> rfl

theorem endLine_memory (s : Loading F) :
    (endLine a board format unset s).loading.memory =
      (parseFrom lineArguments 0 (s.memory.set s.j nul)).2 := by
  simp only [endLine]
  split
  · rfl
  · split
    · rfl
    · split <;> rfl

theorem ne_nul_of_le {c : Char} (h : ¬ c.toNat < 32) : c ≠ nul := by
  rintro rfl
  exact h (by decide)

theorem readChar_fits (h : Fits s) (c : Char) : Fits (readChar a board format unset s c).loading := by
  unfold readChar
  split
  next =>
    refine ⟨?_, ?_, ?_⟩
    · rw [endLine_j]
      exact Nat.zero_le _
    · rw [endLine_memory, length_parseFrom, List.length_set]
      exact h.memory
    · rw [endLine_j, List.take_zero]
      exact fun _ hx => nomatch hx
  next =>
    split
    next => exact h
    next hc =>
      split
      next hj =>
        refine ⟨hj, ?_, fun x hx => ?_⟩
        · rw [List.length_set]
          exact h.memory
        · dsimp only at hx
          rw [h.set_line, List.take_append, h.length_take, List.take_of_length_le
            (Nat.le_succ_of_le (Nat.le_of_eq h.length_take)), Nat.add_sub_cancel_left,
            List.take_succ_cons, List.take_zero, List.mem_append, List.mem_singleton] at hx
          obtain hx | rfl := hx
          · exact h.text x hx
          · exact ne_nul_of_le hc
      next => exact h

theorem feed_fits (h : Fits s) {t : Loading F} (ht : feed a board format unset s c = some t) :
    Fits t := by
  simp only [feed] at ht
  split at ht
  · cases ht
  · cases ht
    exact readChar_fits h c

theorem endLine_behind_iff (h : Fits s) :
    (endLine a board format unset s).loading.memory.drop (s.j + 1) = s.memory.drop (s.j + 1) ↔
      confined lineArguments (s.memory.take s.j) (s.memory.drop (s.j + 1)) = true := by
  have hiff := parseFrom_drop_iff h.text lineArguments 0 (s.memory.drop (s.j + 1))
  rw [h.length_take, ← h.set_line] at hiff
  rw [endLine_memory, hiff]

theorem endLine_uses_iff (s : Loading F) :
    ((∀ use ∈ (endLine a board format unset s).fields, use.1 < use.2) ∧
        ∀ point ∈ (endLine a board format unset s).stored, point.1 < sweepPointsMax board) ↔
      Complete board format s.count (parseLine lineArguments (s.memory.set s.j nul)) := by
  simp only [endLine]
  generalize parseLine lineArguments (s.memory.set s.j nul) = args
  match args with
  | [] => simp [Complete]
  | [_] => simp [Complete]
  | freq :: re :: args =>
    simp only [Complete, List.length_cons, List.getD_cons_zero]
    rw [if_neg (by omega)]
    by_cases hcomment : freq.head? = some '#' ∨ freq.head? = some '!'
    · rw [if_pos hcomment]
      refine iff_of_true ⟨fun use hu => ?_, fun _ hp => nomatch hp⟩
        fun hhash hbang => absurd hcomment (not_or.mpr ⟨hhash, hbang⟩)
      obtain rfl := List.mem_singleton.mp hu
      exact Nat.succ_pos _
    · rw [if_neg hcomment]
      by_cases hrefused : sweepPointsMax board ≤ s.count ∨ frequencyMax < myAtoui freq
      · rw [if_pos hrefused]
        refine iff_of_true ⟨fun use hu => ?_, fun _ hp => nomatch hp⟩
          fun _ _ hcount hfreq => absurd hrefused (by omega)
        obtain rfl := List.mem_singleton.mp hu
        exact Nat.succ_pos _
      · rw [if_neg hrefused]
        obtain ⟨hhash, hbang⟩ := not_or.mp hcomment
        have hcount : s.count < sweepPointsMax board := by omega
        have hfreq : myAtoui freq ≤ frequencyMax := by omega
        have hstored : ∀ (row : Sample F × Sample F), ∀ point ∈ some (s.count, row),
            point.1 < sweepPointsMax board := by
          intro row point hp
          rw [← Option.some.inj hp]
          exact hcount
        rw [and_iff_left (hstored _)]
        simp only [ne_eq, hhash, hbang, not_false_eq_true, hcount, hfreq, forall_const]
        by_cases htwo : format = .s2p ∧ 4 ≤ args.length + 1 + 1
        · rw [if_pos (decide_eq_true htwo)]
          simp only [List.forall_mem_append, List.forall_mem_cons, htwo.1, forall_const]
          simp only [List.not_mem_nil, false_implies, forall_const, and_true]
          omega
        · rw [if_neg (mt of_decide_eq_true htwo)]
          simp only [List.append_nil, List.forall_mem_cons]
          simp only [List.not_mem_nil, false_implies, forall_const, and_true]
          constructor
          · intro hfields
            exact ⟨by omega, fun hformat hlen => htwo ⟨hformat, by omega⟩⟩
          · omega

theorem stepSafe_iff (h : Fits s) (c : Char) :
    StepSafe board s (readChar a board format unset s c) ↔
      (c = '\r' → LineSound board format s) := by
  unfold readChar
  split
  next hc =>
    have huses := @endLine_uses_iff F a board format unset s
    have hbehind := @endLine_behind_iff F a board format unset s h
    rw [h.set_line] at huses
    rw [LineSound, forall_prop_of_true hc, ← hbehind, ← huses]
    exact ⟨fun hs => ⟨hs.behind, hs.fields, hs.stored⟩,
      fun ⟨hb, hf, hp⟩ => ⟨hf, hp, h.line, hb⟩⟩
  next hc =>
    have hnone : ∀ use ∈ ([] : List (Nat × Nat)), use.1 < use.2 := fun _ hu => nomatch hu
    have hstored : ∀ point ∈ (none : Option (Nat × Sample F × Sample F)),
        point.1 < sweepPointsMax board := fun _ hp => nomatch hp
    refine iff_of_true ?_ fun heq => absurd heq hc
    split
    next => exact ⟨hnone, hstored, h.line, rfl⟩
    next =>
      split
      next => exact ⟨hnone, hstored, h.line, List.drop_set_of_lt (Nat.lt_succ_self _)⟩
      next => exact ⟨hnone, hstored, h.line, rfl⟩

end Lines

end Load

section Data

variable {a : FloatArith F} {board : Board} {format : SnpFormat} {unset : Loading F → Nat → Arg}

def storeRows : Measured F → Nat → List (Sample F × Sample F) → Measured F
  | measured, _, [] => measured
  | measured, count, (s11, s21) :: rows =>
    storeRows (storePoint measured count s11 s21) (count + 1) rows

theorem readChar_stored (s : Loading F) (c : Char) :
    let p := readChar a board format unset s c
    (p.stored = none ∧ p.loading.measured = s.measured ∧ p.loading.count = s.count) ∨
      ∃ s11 s21, p.failed = false ∧ p.stored = some (s.count, s11, s21) ∧
        p.loading.measured = storePoint s.measured s.count s11 s21 ∧
        p.loading.count = s.count + 1 := by
  simp only [readChar, endLine]
  split
  · split
    · exact Or.inl ⟨rfl, rfl, rfl⟩
    · split
      · exact Or.inl ⟨rfl, rfl, rfl⟩
      · split
        · exact Or.inl ⟨rfl, rfl, rfl⟩
        · exact Or.inr ⟨_, _, rfl, rfl, rfl, rfl⟩
  · split
    · exact Or.inl ⟨rfl, rfl, rfl⟩
    · split
      · exact Or.inl ⟨rfl, rfl, rfl⟩
      · exact Or.inl ⟨rfl, rfl, rfl⟩

theorem readFile_measured (s : Loading F) (file : List Char) :
    (readFile a board format unset s file).2.measured =
      storeRows s.measured s.count (dataRows a board format unset s file) := by
  induction file generalizing s with
  | nil => rfl
  | cons c file ih =>
    rw [readFile, dataRows]
    obtain ⟨hnone, hmeasured, hcount⟩ | ⟨s11, s21, hgoes, hsome, hmeasured, hcount⟩ :=
      @readChar_stored F a board format unset s c
    · rw [hnone]
      split
      next hfailed => exact hmeasured
      next hgoes =>
        rw [ih, hmeasured, hcount]
        rfl
    · rw [hsome, hgoes, if_neg Bool.false_ne_true, if_neg Bool.false_ne_true, ih, hmeasured, hcount]
      rfl

theorem storeRows_below (measured : Measured F) {count i : Nat} (hi : i < count)
    (rows : List (Sample F × Sample F)) (channel : Fin 2) :
    storeRows measured count rows channel i = measured channel i := by
  induction rows generalizing measured count with
  | nil => rfl
  | cons row rows ih =>
    rw [storeRows, ih _ (Nat.lt_succ_of_lt hi)]
    exact if_neg (Nat.ne_of_lt hi)

theorem storePoint_eq_iff (measured : Measured F) (count : Nat) (s11 s21 : Sample F) :
    storePoint measured count s11 s21 = measured ↔
      s11 = measured 0 count ∧ s21 = measured 1 count := by
  constructor
  · intro heq
    have h0 := congrFun (congrFun heq 0) count
    have h1 := congrFun (congrFun heq 1) count
    simp only [storePoint, if_true] at h0 h1
    exact ⟨h0, h1⟩
  · intro ⟨h0, h1⟩
    funext channel i
    simp only [storePoint]
    split
    next hi =>
      subst hi
      match channel with
      | 0 => exact h0
      | 1 => exact h1
    next => rfl

theorem storeRows_eq_iff (measured : Measured F) (count : Nat) (rows : List (Sample F × Sample F)) :
    storeRows measured count rows = measured ↔ ∀ k s11 s21, rows[k]? = some (s11, s21) →
      s11 = measured 0 (count + k) ∧ s21 = measured 1 (count + k) := by
  induction rows generalizing measured count with
  | nil => exact iff_of_true rfl fun _ _ _ hk => nomatch hk
  | cons row rows ih =>
    obtain ⟨s11, s21⟩ := row
    rw [storeRows]
    constructor
    · intro heq
      have hfirst : storePoint measured count s11 s21 = measured := by
        rw [storePoint_eq_iff]
        have h0 := storeRows_below (storePoint measured count s11 s21) (Nat.lt_succ_self count) rows 0
        have h1 := storeRows_below (storePoint measured count s11 s21) (Nat.lt_succ_self count) rows 1
        rw [heq] at h0 h1
        simp only [storePoint, if_true] at h0 h1
        exact ⟨h0.symm, h1.symm⟩
      rw [hfirst] at heq
      intro k t11 t21 hk
      cases k with
      | zero =>
        cases hk
        exact (storePoint_eq_iff measured count s11 s21).mp hfirst
      | succ k =>
        rw [← Nat.add_assoc, Nat.add_right_comm]
        exact (ih measured (count + 1)).mp heq k t11 t21 hk
    · intro hall
      have hfirst := (storePoint_eq_iff measured count s11 s21).mpr (hall 0 s11 s21 rfl)
      rw [hfirst]
      refine (ih measured (count + 1)).mpr fun k t11 t21 hk => ?_
      rw [Nat.add_right_comm]
      exact hall (k + 1) t11 t21 hk

theorem error_iff (memory file : List Char) (vna : Vna R) (measured : Measured F)
    {loaded : Bool × Vna R × Measured F}
    (hloaded : loadSnpData a board format unset memory file vna measured = loaded) :
    (loaded.1 = true → loaded.2.1 = vna ∧ loaded.2.2 = measured) ↔
      ((readFile a board format unset (fresh memory measured) file).1 = true →
        ∀ k s11 s21, (dataRows a board format unset (fresh memory measured) file)[k]? =
          some (s11, s21) → s11 = measured 0 k ∧ s21 = measured 1 k) := by
  have hmeasured := @readFile_measured F a board format unset (fresh memory measured) file
  have hrows := storeRows_eq_iff measured 0
    (dataRows a board format unset (fresh memory measured) file)
  simp only [Nat.zero_add] at hrows
  rw [← hrows, ← hloaded, loadSnpData]
  cases hfailed : (readFile a board format unset (fresh memory measured) file).1 with
  | true =>
    simp only [if_true, forall_const, true_and, hmeasured]
    exact Iff.rfl
  | false =>
    rw [if_neg Bool.false_ne_true]
    refine iff_of_true (fun hfailed => ?_) fun herror => nomatch herror
    split at hfailed <;> cases hfailed

end Data

theorem fits_fresh {memory : List Char} (hmemory : lineSize < memory.length)
    (measured : Measured F) : Fits (fresh memory measured) :=
  ⟨Nat.zero_le _, hmemory, fun _ hx => nomatch hx⟩

theorem steps_iff {a : FloatArith F} {board : Board} {format : SnpFormat}
    {unset : Loading F → Nat → Arg} {memory : List Char} (hmemory : lineSize < memory.length)
    (file : List Char) (measured : Measured F) :
    Along (feed a board format unset)
        (fun s c => StepSafe board s (readChar a board format unset s c))
        (fresh memory measured) file ↔
      Along (feed a board format unset) (fun s c => c = '\r' → LineSound board format s)
        (fresh memory measured) file :=
  along_congr_of_invariant (fun _ c h => stepSafe_iff h c) (fun _ _ _ h ht => feed_fits h ht)
    (fits_fresh hmemory measured)

/-- A file is loaded safely exactly when its lines are sound. -/
theorem load_safe_iff (a : FloatArith F) (board : Board) (format : SnpFormat)
    (unset : Loading F → Nat → Arg) (memory : List Char) (hmemory : lineSize < memory.length)
    (file : List Char) (vna : Vna R) (measured : Measured F) :
    LoadsSafely a board format unset memory file vna measured ↔
      FileSound a board format unset memory file measured := by
  have hlines := @steps_iff F a board format unset memory hmemory file measured
  have herror := @error_iff R F a board format unset memory file vna measured _ rfl
  exact ⟨fun h => ⟨hlines.mp h.steps, herror.mp h.error⟩,
    fun h => ⟨hlines.mpr h.lines, herror.mpr h.error⟩⟩

def noData : Measured (Option Nat) := fun _ _ => ⟨none, none⟩

def used : List Char := List.replicate 130 'x' ++ ['"']

theorem lineSize_lt_used : lineSize < used.length := by
  rw [used, List.length_append, List.length_replicate]
  decide

theorem load_safe_two_points :
    LoadsSafely natArith .f072 .s2p (fun _ _ => []) used
      "! NanoVNA\r\n1000000 1 2 3 4 0 0 0 0\r\n2000000 5 6 7 8\r\n".toList oneToTwoMHz noData :=
  (load_safe_iff natArith .f072 .s2p (fun _ _ => []) used lineSize_lt_used _ oneToTwoMHz
    noData).mpr
    ⟨by decide +kernel, fun herror => absurd herror (by decide +kernel)⟩

/-- Lines of two fields, and of four in a two-port file; a quote at the end of a line, which has a
zero put behind the buffer; and a frequency too high after a line that was good. -/
theorem load_unsafe :
    ¬ LoadsSafely natArith .f072 .s1p (fun _ _ => []) used "1000000 1\r".toList oneToTwoMHz noData ∧
      ¬ LoadsSafely natArith .f072 .s2p (fun _ _ => []) used "1000000 1 2 3\r".toList oneToTwoMHz
        noData ∧
      ¬ LoadsSafely natArith .f072 .s1p (fun _ _ => []) used "\"\r".toList oneToTwoMHz noData ∧
      ¬ LoadsSafely natArith .f072 .s1p (fun _ _ => []) used
        "1000000 1 2\r4000000000 1 2\r".toList oneToTwoMHz noData := by
  refine ⟨fun h => ?_, fun h => ?_, fun h => ?_, fun h => ?_⟩
  · exact absurd ((steps_iff lineSize_lt_used _ noData).mp h.steps) (by decide +kernel)
  · exact absurd ((steps_iff lineSize_lt_used _ noData).mp h.steps) (by decide +kernel)
  · exact absurd ((steps_iff lineSize_lt_used _ noData).mp h.steps) (by decide +kernel)
  · have hkept := congrFun (congrFun (h.error (by decide +kernel)).2 0) 0
    exact absurd hkept (by decide +kernel)

end NanoVNA.SnpLoading
