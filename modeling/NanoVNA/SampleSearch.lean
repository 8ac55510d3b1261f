import NanoVNA.MatchQuadratic

namespace NanoVNA.SampleSearch

open NanoVNA.MatchQuadratic

/-! ### The search for a value from a sample on -/

/-- `MEASURE_SEARCH_LEFT` and `MEASURE_SEARCH_RIGHT` -/
inductive Mode
  | left
  | right
  deriving DecidableEq, Repr

/-- `x += mode`; the right end is checked before the index could wrap, the left end as well. -/
def Mode.next : Mode → ℕ → ℕ
  | .left, x => x - 1
  | .right, x => x + 1

/-- `x -= mode` -/
def Mode.back : Mode → ℕ → ℕ
  | .left, x => x + 1
  | .right, x => x - 1

structure Window (K : Type) where
  x : ℕ
  y1 : K
  y2 : K
  y3 : K

/-- What is found: the index, the marker that is put on it, if any, and the frequency. -/
structure Found (K : Type) where
  idx : ℕ
  marker : Option (ℕ × ℕ)
  frequency : K

section Code

variable {K : Type} [Field K] [LinearOrder K] (get : ℕ → K) (y : K) (points : ℕ)

def searchLoop (mode : Mode) (result : Bool) (w : Window K) : Window K :=
  if points ≤ w.x ∨ (mode = .left ∧ w.x = 0) then w
  else
    let y3 := get w.x
    if result ≠ decide (y < y3) then { w with y3 := y3 }
    else searchLoop mode result ⟨mode.next w.x, w.y2, y3, y3⟩
termination_by
  match mode with
  | .left => w.x
  | .right => points - w.x
decreasing_by
  rename_i hend _
  rw [not_or, not_and, not_le] at hend
  cases mode with
  | left =>
    have hpos : w.x ≠ 0 := hend.2 rfl
    simp only [Mode.next]
    omega
  | right =>
    simp only [Mode.next]
    omega

/-- The place of the target on the parabola through the three values, from the second one on. -/
def crossingPlace (sqrt : K → K) (w : Window K) : K :=
  let a := 1 / 2 * (w.y1 + w.y3) - w.y2
  let b := 1 / 2 * (w.y3 - w.y1)
  let c := w.y2 - y
  let r := matchQuadraticEquation sqrt a b c
  if 0 < r.1 ∧ r.1 < 1 then r.1 else r.2

/-- `none` where the function returns 0. -/
def measureSearchValue (sqrt : K → K) (frequency : ℕ → K) (step : K) (mode : Mode)
    (markerIdx : Option ℕ) (idx : ℕ) : Option (Found K) :=
  let y3 := get idx
  let w := searchLoop get y points mode (decide (y < y3)) ⟨idx, y3, y3, y3⟩
  if points ≤ w.x then none
  else
    let x := mode.back w.x
    let res := crossingPlace y sqrt w
    let res := if mode = .left then -res else res
    some ⟨x, markerIdx.map fun m => (m, x), frequency x + step * res⟩

end Code

/-! ### The samples on the way -/

section Path

variable {K : Type} [LinearOrder K] (get : ℕ → K) (y : K) (points : ℕ) (mode : Mode) (start : ℕ)

def sampleIndex (k : ℕ) : ℕ :=
  match mode with
  | .left => start - k
  | .right => start + k

def pathLength : ℕ :=
  match mode with
  | .left => if start < points then start + 1 else 0
  | .right => points - start

def sample (k : ℕ) : K := get (sampleIndex mode start k)

/-- The target separates two values; a value that hits it counts as below. -/
def Straddles (a b : K) : Prop := ¬ (y < a ↔ y < b)

def Crosses (k : ℕ) : Prop :=
  k + 1 < pathLength points mode start ∧
    Straddles y (sample get mode start k) (sample get mode start (k + 1))

/-- The samples that the loop reads; the search to the left never comes to the first one. -/
def reads : ℕ :=
  match mode with
  | .left => if start < points then start else 0
  | .right => points - start

end Path

section Loop

variable {K : Type} [LinearOrder K] {get : ℕ → K} {y : K} {points : ℕ} {mode : Mode}
  {start : ℕ}

/-- The values of the loop in front of a sample, the first one standing for those before it. -/
def windowAt (get : ℕ → K) (mode : Mode) (start k : ℕ) : Window K :=
  ⟨sampleIndex mode start k, sample get mode start (k - 2), sample get mode start (k - 1),
    sample get mode start (k - 1)⟩

theorem searchLoop_end {result : Bool} {w : Window K}
    (hx : w.x = sampleIndex mode start (reads points mode start)) :
    searchLoop get y points mode result w = w := by
  rw [searchLoop, if_pos]
  rw [hx]
  cases mode with
  | left =>
    simp only [sampleIndex, reads]
    split
    · exact Or.inr ⟨trivial, by omega⟩
    · exact Or.inl (by omega)
  | right =>
    simp only [sampleIndex, reads]
    exact Or.inl (by omega)

theorem next_sampleIndex (mode : Mode) (start k : ℕ) :
    mode.next (sampleIndex mode start k) = sampleIndex mode start (k + 1) := by
  cases mode <;> simp only [Mode.next, sampleIndex] <;> omega

theorem searchLoop_read {result : Bool} {k : ℕ} (hk : k < reads points mode start) {w : Window K}
    (hx : w.x = sampleIndex mode start k) :
    searchLoop get y points mode result w =
      if result ≠ decide (y < sample get mode start k) then
        { w with y3 := sample get mode start k }
      else searchLoop get y points mode result
        ⟨sampleIndex mode start (k + 1), w.y2, sample get mode start k,
          sample get mode start k⟩ := by
  have hend : ¬ (points ≤ w.x ∨ (mode = .left ∧ w.x = 0)) := by
    rw [hx]
    cases mode with
    | left =>
      simp only [sampleIndex, reads] at hk ⊢
      split at hk <;> omega
    | right =>
      simp only [sampleIndex, reads] at hk ⊢
      simp
      omega
  rw [searchLoop, if_neg hend, hx, next_sampleIndex]
  rfl

theorem searchLoop_run {result : Bool} (k : ℕ) (hk : k ≤ reads points mode start)
    (hsame : ∀ i < k, decide (y < sample get mode start i) = result) :
    ∃ j ≤ reads points mode start, (∀ i < j, decide (y < sample get mode start i) = result) ∧
      (j < reads points mode start → decide (y < sample get mode start j) ≠ result) ∧
      searchLoop get y points mode result (windowAt get mode start k) =
        { windowAt get mode start j with
          y3 := sample get mode start (if j < reads points mode start then j else j - 1) } := by
  obtain ⟨m, hm⟩ : ∃ m, m = reads points mode start - k := ⟨_, rfl⟩
  induction m generalizing k with
  | zero =>
    obtain rfl : k = reads points mode start := by omega
    refine ⟨_, le_refl _, hsame, fun h => absurd h (lt_irrefl _), ?_⟩
    rw [searchLoop_end rfl, if_neg (lt_irrefl _)]
    rfl
  | succ m ih =>
    have hlt : k < reads points mode start := by omega
    rw [searchLoop_read hlt rfl]
    by_cases hside : decide (y < sample get mode start k) = result
    · have hsame' : ∀ i < k + 1, decide (y < sample get mode start i) = result := by
        intro i hi
        obtain hi | rfl := Nat.lt_succ_iff_lt_or_eq.mp hi
        · exact hsame i hi
        · exact hside
      obtain ⟨j, hj, hbefore, hstop, hloop⟩ := ih (k + 1) hlt hsame' (by omega)
      refine ⟨j, hj, hbefore, hstop, ?_⟩
      rw [if_neg (not_not_intro hside.symm), ← hloop]
      rfl
    · refine ⟨k, hk, hsame, fun _ => hside, ?_⟩
      rw [if_pos (Ne.symm hside), if_pos hlt]

theorem searchLoop_start (get : ℕ → K) (y : K) (points : ℕ) (mode : Mode) (start : ℕ) :
    ∃ j ≤ reads points mode start,
      (∀ i < j, decide (y < sample get mode start i) = decide (y < get start)) ∧
      (j < reads points mode start →
        decide (y < sample get mode start j) ≠ decide (y < get start)) ∧
      searchLoop get y points mode (decide (y < get start))
          ⟨start, get start, get start, get start⟩ =
        { windowAt get mode start j with
          y3 := sample get mode start (if j < reads points mode start then j else j - 1) } := by
  have hstart : windowAt get mode start 0 = ⟨start, get start, get start, get start⟩ := by
    cases mode <;> rfl
  have hrun := @searchLoop_run K _ get y points mode start (decide (y < get start)) 0
    (Nat.zero_le _) fun i hi => absurd hi (Nat.not_lt_zero i)
  rwa [hstart] at hrun

end Loop

section Search

variable {K : Type} [LinearOrder K] {get : ℕ → K} {y : K} {points : ℕ} {mode : Mode}
  {start : ℕ}

theorem straddles_iff {a b : K} : Straddles y a b ↔ decide (y < a) ≠ decide (y < b) := by
  rw [Straddles, Ne, decide_eq_decide]

theorem pathLength_bounds (points : ℕ) (mode : Mode) (start : ℕ) :
    reads points mode start ≤ pathLength points mode start ∧
      pathLength points mode start ≤ reads points mode start + 1 := by
  cases mode with
  | left =>
    simp only [reads, pathLength]
    split <;> omega
  | right =>
    simp only [reads, pathLength]
    omega

theorem sampleIndex_lt {k : ℕ} (hk : k < pathLength points mode start) :
    sampleIndex mode start k < points := by
  cases mode with
  | left =>
    simp only [pathLength] at hk
    simp only [sampleIndex]
    split at hk <;> omega
  | right =>
    simp only [pathLength] at hk
    simp only [sampleIndex]
    omega

theorem back_sampleIndex {k : ℕ} (hk : k + 1 < pathLength points mode start) :
    mode.back (sampleIndex mode start (k + 1)) = sampleIndex mode start k := by
  cases mode with
  | left =>
    simp only [pathLength] at hk
    simp only [sampleIndex, Mode.back]
    split at hk <;> omega
  | right =>
    simp only [sampleIndex, Mode.back]
    omega

theorem exists_first {P : ℕ → Prop} (h : ∃ k, P k) : ∃ k, P k ∧ ∀ i < k, ¬ P i := by
  classical
  exact ⟨Nat.find h, Nat.find_spec h, fun i hi => Nat.find_min h hi⟩

theorem stop_of_first {j k : ℕ} {result : Bool} (hcross : Crosses get y points mode start k)
    (hfirst : ∀ i < k, ¬ Crosses get y points mode start i)
    (hzero : decide (y < sample get mode start 0) = result)
    (hbefore : ∀ i < j, decide (y < sample get mode start i) = result)
    (hstop : j < reads points mode start → decide (y < sample get mode start j) ≠ result) :
    j ≤ reads points mode start → j = k + 1 := by
  intro hj
  have hbounds := pathLength_bounds points mode start
  obtain ⟨hk, hstraddles⟩ := hcross
  rw [straddles_iff] at hstraddles
  by_contra hne
  obtain hlt | hgt : j ≤ k ∨ k + 1 < j := by omega
  · have hside := hstop (by omega)
    obtain rfl | ⟨i, rfl⟩ : j = 0 ∨ ∃ i, j = i + 1 := by
      cases j with
      | zero => exact Or.inl rfl
      | succ i => exact Or.inr ⟨i, rfl⟩
    · exact hside hzero
    · refine hfirst i (by omega) ⟨by omega, straddles_iff.mpr ?_⟩
      rw [hbefore i (Nat.lt_succ_self i)]
      exact hside.symm
  · exact hstraddles ((hbefore k (by omega)).trans (hbefore (k + 1) hgt).symm)

end Search

section Results

variable {K : Type} [Field K] [LinearOrder K] {get : ℕ → K} {y : K} {points : ℕ} {mode : Mode}
  {start : ℕ} (sqrt : K → K) (frequency : ℕ → K) (step : K) (markerIdx : Option ℕ)

def crossingWindow (get : ℕ → K) (points : ℕ) (mode : Mode) (start k : ℕ) : Window K :=
  { windowAt get mode start (k + 1) with
    y3 := sample get mode start (if k + 1 < reads points mode start then k + 1 else k) }

theorem found_of_first {k : ℕ} (hcross : Crosses get y points mode start k)
    (hfirst : ∀ i < k, ¬ Crosses get y points mode start i) :
    measureSearchValue get y points sqrt frequency step mode markerIdx start =
      some ⟨sampleIndex mode start k, markerIdx.map fun m => (m, sampleIndex mode start k),
        frequency (sampleIndex mode start k) + step *
          if mode = .left then -crossingPlace y sqrt (crossingWindow get points mode start k)
          else crossingPlace y sqrt (crossingWindow get points mode start k)⟩ := by
  have hzero : sample get mode start 0 = get start := by cases mode <;> rfl
  obtain ⟨j, hj, hbefore, hstop, hloop⟩ := searchLoop_start get y points mode start
  obtain rfl := stop_of_first hcross hfirst (by rw [hzero]) hbefore hstop hj
  have hlt := sampleIndex_lt hcross.1
  have hback := back_sampleIndex hcross.1
  unfold measureSearchValue
  dsimp only
  rw [hloop]
  refine (if_neg (Nat.not_le.mpr hlt)).trans ?_
  dsimp only [windowAt]
  rw [hback]
  rfl

theorem not_found_iff (hnone : ¬ ∃ k, Crosses get y points mode start k) :
    measureSearchValue get y points sqrt frequency step mode markerIdx start = none ↔
      mode = .right ∨ points ≤ start := by
  have hzero : sample get mode start 0 = get start := by cases mode <;> rfl
  obtain ⟨j, hj, hbefore, hstop, hloop⟩ := searchLoop_start get y points mode start
  have hend : measureSearchValue get y points sqrt frequency step mode markerIdx start = none ↔
      points ≤ sampleIndex mode start j := by
    obtain ⟨w, hw, hx⟩ : ∃ w, searchLoop get y points mode (decide (y < get start))
        ⟨start, get start, get start, get start⟩ = w ∧ w.x = sampleIndex mode start j := ⟨_, hloop, rfl⟩
    unfold measureSearchValue
    dsimp only
    rw [hw, ← hx]
    split
    next hle => exact iff_of_true rfl hle
    next hgt => exact iff_of_false (Option.some_ne_none _) hgt
  have hbounds := pathLength_bounds points mode start
  have hall : j = reads points mode start := by
    by_contra hne
    have hside := hstop (by omega)
    cases j with
    | zero => exact hside (by rw [hzero])
    | succ i =>
      refine hnone ⟨i, by omega, straddles_iff.mpr ?_⟩
      rw [hbefore i (Nat.lt_succ_self i)]
      exact hside.symm
  rw [hend, hall]
  cases mode with
  | left =>
    simp only [sampleIndex, reads, reduceCtorEq, false_or]
    split <;> omega
  | right =>
    simp only [sampleIndex, reads, true_or, iff_true]
    omega

/-- A search that reports success where two samples straddle the target, and then the last sample
before the first such place. -/
def Meets (get : ℕ → K) (y : K) (points : ℕ) (mode : Mode) (start : ℕ) : Prop :=
  ((∃ found, measureSearchValue get y points sqrt frequency step mode markerIdx start =
      some found) ↔ ∃ k, Crosses get y points mode start k) ∧
    ∀ found, measureSearchValue get y points sqrt frequency step mode markerIdx start =
        some found → ∃ k, Crosses get y points mode start k ∧
      (∀ i < k, ¬ Crosses get y points mode start i) ∧ found.idx = sampleIndex mode start k

end Results

end NanoVNA.SampleSearch
