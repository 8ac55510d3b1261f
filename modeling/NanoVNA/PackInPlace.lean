import NanoVNA.TiffFiles

namespace NanoVNA.PackInPlace

open NanoVNA.DeviceState NanoVNA.PackBits NanoVNA.PackBitsFormat NanoVNA.SpiBuffer NanoVNA.TiffFiles

/-- The variables of `packbits`, and the memory that `source` and `dest` both point into. -/
structure Place where
  i : Nat
  pk : Nat
  sz : Nat
  memory : Memory

abbrev Write := Nat × UInt8

def store (m : Memory) (w : Write) : Memory := Function.update m w.1 w.2

/-- The writes of a round that takes the byte `c` with `rle` copies after it, in their order, and
what they leave. -/
def writeRound (dest : Nat) (c : UInt8) (rle : Nat) (s : Place) : List Write × Place :=
  let i := s.i + 1
  let (rle, sz, pk) :=
    if s.sz ≠ 0 ∧ rle < 2 then (0, s.sz, s.pk)
    else if s.sz = 0 ∨ 0 < rle then (rle, s.pk, s.pk + 1)
    else (rle, s.sz, s.pk)
  let char : Write := (dest + pk, c)
  let pk := pk + 1
  if 0 < rle then
    let writes := [char, (dest + sz, -(UInt8.ofNat rle))]
    (writes, ⟨i + rle, pk, 0, writes.foldl store s.memory⟩)
  else
    let count := UInt8.ofNat (pk - sz - 2)
    let writes := [char, (dest + sz, count)]
    (writes, ⟨i, pk, if count < 127 then sz else 0, writes.foldl store s.memory⟩)

/-- One round of the loop of `packbits`; all its reads come before its writes. -/
def packRound (source dest size : Nat) (s : Place) : List Write × Place :=
  writeRound dest (s.memory (source + s.i)) (copiesAt size (fun k => s.memory (source + k)) s.i) s

def packRounds (source dest size : Nat) : Nat → Place → Place
  | 0, s => s
  | rounds + 1, s =>
    if 0 < size - s.i then packRounds source dest size rounds (packRound source dest size s).2
    else s

/-- The bytes from `dest` on that `packbits` returns the number of. -/
def packed (source dest size : Nat) (m : Memory) : List UInt8 :=
  let s := packRounds source dest size size ⟨0, 0, 0, m⟩
  (List.range s.pk).map fun k => s.memory (dest + k)

def bytesAt (m : Memory) (source size : Nat) : List UInt8 :=
  (List.range size).map fun k => m (source + k)

/-- The next round writes on no byte that a later round reads. -/
def KeepsUnread (source dest size : Nat) (s : Place) : Prop :=
  0 < size - s.i → ∀ w ∈ (packRound source dest size s).1,
    ∀ k, (packRound source dest size s).2.i ≤ k → k < size → w.1 ≠ source + k

/-- What the encoder may have written once `i` bytes are taken lies off the bytes from `i` on. -/
def Clear (source dest size : Nat) : Prop :=
  ∀ i k, i ≤ k → k < size → source + k < dest ∨ dest + (i + 2 + i / 128) ≤ source + k

def Disjoint (source dest size : Nat) : Prop :=
  source + size ≤ dest ∨ dest + (size + 2 + size / 128) ≤ source

theorem clear_of_disjoint {source dest size : Nat} (h : Disjoint source dest size) :
    Clear source dest size := by
  intro i k hik hk
  rw [Disjoint] at h
  omega

/-- With the destination 128 bytes ahead, the encoder would catch up after 16128 bytes. -/
theorem clear_behind {size : Nat} (h : size ≤ 16128) : Clear 128 0 size := by
  intro i k hik hk
  omega

section Store

/-- The memory with `bytes` from `dest` on. -/
def storeAt (m : Memory) (dest : Nat) (bytes : List UInt8) : Memory := fun a =>
  if a < dest then m a else bytes.getD (a - dest) (m a)

variable (m : Memory) (dest : Nat)

theorem storeAt_nil : storeAt m dest [] = m := by
  funext a
  rw [storeAt, List.getD_nil, ite_self]

theorem storeAt_of_le {bytes : List UInt8} {a : Nat} (h : a < dest ∨ dest + bytes.length ≤ a) :
    storeAt m dest bytes a = m a := by
  rw [storeAt]
  split
  · rfl
  · exact List.getD_eq_default _ _ (by omega)

theorem storeAt_add (bytes : List UInt8) (k : Nat) :
    storeAt m dest bytes (dest + k) = bytes.getD k (m (dest + k)) := by
  rw [storeAt, if_neg (Nat.not_lt_of_le (Nat.le_add_right dest k)), Nat.add_sub_cancel_left]

theorem storeAt_update {bytes other : List UInt8} {n : Nat} {b : UInt8}
    (hat : ∀ v, other.getD n v = b)
    (hoff : ∀ k v, k ≠ n → other.getD k v = bytes.getD k v) :
    storeAt m dest other = Function.update (storeAt m dest bytes) (dest + n) b := by
  funext a
  by_cases ha : a = dest + n
  · rw [ha, Function.update_self, storeAt_add, hat]
  · rw [Function.update_of_ne ha, storeAt, storeAt]
    split
    · rfl
    · exact hoff _ _ (by omega)

theorem storeAt_concat (bytes : List UInt8) (b : UInt8) :
    storeAt m dest (bytes ++ [b]) =
      Function.update (storeAt m dest bytes) (dest + bytes.length) b := by
  apply storeAt_update
  · intro v
    rw [List.getD_append_right _ _ _ _ (Nat.le_refl _), Nat.sub_self]
    rfl
  · intro k v hk
    obtain hlt | hgt := Nat.lt_or_gt_of_ne hk
    · exact List.getD_append _ _ _ _ hlt
    · rw [List.getD_eq_default _ _ (Nat.le_of_lt hgt), List.getD_eq_default]
      rw [List.length_append]
      exact Nat.succ_le_of_lt hgt

theorem storeAt_set {bytes : List UInt8} {n : Nat} (hn : n < bytes.length) (b : UInt8) :
    storeAt m dest (bytes.set n b) = Function.update (storeAt m dest bytes) (dest + n) b := by
  apply storeAt_update
  · intro v
    rw [List.getD_eq_getElem?_getD, List.getElem?_set_self hn, Option.getD_some]
  · intro k v hk
    rw [List.getD_eq_getElem?_getD, List.getElem?_set_ne hk.symm, ← List.getD_eq_getElem?_getD]

theorem storeAt_block (bytes : List UInt8) (header c : UInt8) :
    storeAt m dest (bytes ++ [header, c]) =
      Function.update (Function.update (storeAt m dest bytes) (dest + (bytes.length + 1)) c)
        (dest + bytes.length) header := by
  have hsplit : bytes ++ [header, c] = bytes ++ [header] ++ [c] := by
    rw [List.append_assoc]
    rfl
  rw [hsplit, storeAt_concat, storeAt_concat, List.length_append, List.length_singleton,
    Function.update_comm (by omega)]

end Store

/-- The variables in memory when `dest` holds what has been packed. -/
def placed (m : Memory) (dest : Nat) (st : Pack) : Place :=
  ⟨st.i, st.dest.length, st.sz, storeAt m dest st.dest⟩

section Round

variable (dest : Nat) (c : UInt8) {rle : Nat} {s : Place}

theorem writeRound_join (hsz : s.sz ≠ 0) (hrle : rle < 2) :
    writeRound dest c rle s =
      ([(dest + s.pk, c), (dest + s.sz, UInt8.ofNat (s.pk + 1 - s.sz - 2))],
        ⟨s.i + 1, s.pk + 1, if UInt8.ofNat (s.pk + 1 - s.sz - 2) < 127 then s.sz else 0,
          Function.update (Function.update s.memory (dest + s.pk) c) (dest + s.sz)
            (UInt8.ofNat (s.pk + 1 - s.sz - 2))⟩) := by
  have hjoin : s.sz ≠ 0 ∧ rle < 2 := ⟨hsz, hrle⟩
  simp only [writeRound, if_pos hjoin, Nat.lt_irrefl, if_false, List.foldl_cons, List.foldl_nil,
    store]

theorem writeRound_run (hrle : 1 ≤ rle) (hsz : s.sz ≠ 0 → 2 ≤ rle) :
    writeRound dest c rle s =
      ([(dest + (s.pk + 1), c), (dest + s.pk, -(UInt8.ofNat rle))],
        ⟨s.i + 1 + rle, s.pk + 1 + 1, 0,
          Function.update (Function.update s.memory (dest + (s.pk + 1)) c) (dest + s.pk)
            (-(UInt8.ofNat rle))⟩) := by
  have hjoin : ¬ (s.sz ≠ 0 ∧ rle < 2) := fun h => Nat.not_lt_of_le (hsz h.1) h.2
  have hopen : s.sz = 0 ∨ 0 < rle := .inr hrle
  simp only [writeRound, if_neg hjoin, if_pos hopen, if_pos (Nat.lt_of_succ_le hrle),
    List.foldl_cons, List.foldl_nil, store]

theorem writeRound_open (hsz : s.sz = 0) :
    writeRound dest c 0 s =
      ([(dest + (s.pk + 1), c), (dest + s.pk, 0)],
        ⟨s.i + 1, s.pk + 1 + 1, s.pk,
          Function.update (Function.update s.memory (dest + (s.pk + 1)) c) (dest + s.pk) 0⟩) := by
  have hjoin : ¬ (s.sz ≠ 0 ∧ 0 < 2) := fun h => h.1 hsz
  have hopen : s.sz = 0 ∨ 0 < 0 := .inl hsz
  have hcount : UInt8.ofNat (s.pk + 1 + 1 - s.pk - 2) = 0 := by
    have hzero : s.pk + 1 + 1 - s.pk - 2 = 0 := by omega
    rw [hzero]
    rfl
  simp only [writeRound, if_neg hjoin, if_pos hopen, List.foldl_cons, List.foldl_nil, store]
  rw [if_neg (Nat.lt_irrefl 0), hcount]
  rfl

theorem round_cases (rle sz : Nat) :
    (sz ≠ 0 ∧ rle < 2) ∨ (1 ≤ rle ∧ (sz ≠ 0 → 2 ≤ rle)) ∨ (rle = 0 ∧ sz = 0) := by
  omega

theorem writeRound_within (h : s.sz ≤ s.pk) :
    ∀ w ∈ (writeRound dest c rle s).1,
      dest ≤ w.1 ∧ w.1 < dest + (writeRound dest c rle s).2.pk := by
  obtain ⟨hsz, hrle⟩ | ⟨hrle, hsz⟩ | ⟨rfl, hsz⟩ := round_cases rle s.sz
  · rw [writeRound_join dest c hsz hrle]
    simp only [List.forall_mem_cons, List.not_mem_nil, false_implies, implies_true, and_true]
    omega
  · rw [writeRound_run dest c hrle hsz]
    simp only [List.forall_mem_cons, List.not_mem_nil, false_implies, implies_true, and_true]
    omega
  · rw [writeRound_open dest c hsz]
    simp only [List.forall_mem_cons, List.not_mem_nil, false_implies, implies_true, and_true]
    omega

theorem writeRound_placed (m : Memory) (rle : Nat) {st : Pack} (h : st.sz ≤ st.dest.length) :
    (writeRound dest c rle (placed m dest st)).2 = placed m dest (packWrite c rle st) := by
  obtain ⟨hsz, hrle⟩ | ⟨hrle, hsz⟩ | ⟨rfl, hsz⟩ := round_cases rle st.sz
  · have hplace : st.sz < (st.dest ++ [c]).length := by
      rw [List.length_append]
      exact Nat.lt_succ_of_le h
    rw [@writeRound_join dest c rle (placed m dest st) hsz hrle, packWrite_join c hsz hrle]
    simp only [placed, storeAt_set m dest hplace, storeAt_concat, List.length_set,
      List.length_append, List.length_singleton]
    rfl
  · rw [@writeRound_run dest c rle (placed m dest st) hrle hsz, packWrite_run c hrle hsz]
    simp only [placed, storeAt_block, List.length_append, List.length_cons, List.length_nil]
  · rw [@writeRound_open dest c (placed m dest st) hsz, packWrite_open c hsz]
    simp only [placed, storeAt_block, List.length_append, List.length_cons, List.length_nil]

end Round

section Loop

variable {source dest size : Nat}

theorem length_bytesAt (m : Memory) (source size : Nat) : (bytesAt m source size).length = size := by
  rw [bytesAt, List.length_map, List.length_range]

theorem getD_bytesAt (m : Memory) (source : Nat) {size k : Nat} (hk : k < size) :
    (bytesAt m source size).getD k 0 = m (source + k) := by
  rw [bytesAt, List.getD_eq_getElem _ _ (by simpa using hk), List.getElem_map, List.getElem_range]

theorem Clear.readable (h : Clear source dest size) (m : Memory) :
    Readable (bytesAt m source size) fun written k => storeAt m dest written (source + k) := by
  intro written i k hwritten hik hk
  rw [length_bytesAt] at hk
  have hclear := h i k hik hk
  dsimp only
  rw [storeAt_of_le m dest (by omega), getD_bytesAt m source hk]

variable {m : Memory} {st : Pack} {done : List Packet} {opened : List UInt8}

theorem packRound_placed (source dest size : Nat)
    (h : Packed (bytesAt m source size) st done opened) :
    (packRound source dest size (placed m dest st)).2 =
      placed m dest (packStep size (fun k => storeAt m dest st.dest (source + k)) st) :=
  writeRound_placed dest _ m _ h.sz_le

theorem Clear.round (hclear : Clear source dest size)
    (h : Packed (bytesAt m source size) st done opened) (hmore : 0 < size - st.i) :
    ∃ done opened, Packed (bytesAt m source size)
      (packStep size (fun k => storeAt m dest st.dest (source + k)) st) done opened := by
  have hi : st.i < (bytesAt m source size).length := by
    rw [length_bytesAt]
    exact Nat.lt_of_sub_pos hmore
  have hround := h.round (hclear.readable m) hi
  rw [length_bytesAt] at hround
  exact hround

theorem packRounds_placed (hclear : Clear source dest size)
    (h : Packed (bytesAt m source size) st done opened) (rounds : Nat) :
    packRounds source dest size rounds (placed m dest st) =
      placed m dest
        (packLoop size (fun written k => storeAt m dest written (source + k)) rounds st) := by
  induction rounds generalizing st done opened with
  | zero => rfl
  | succ rounds ih =>
    rw [packRounds, packLoop]
    by_cases hmore : 0 < size - st.i
    · obtain ⟨done, opened, hnext⟩ := hclear.round h hmore
      rw [if_pos hmore, if_pos (show 0 < size - (placed m dest st).i from hmore),
        packRound_placed source dest size h, ih hnext]
    · rw [if_neg hmore, if_neg (show ¬ 0 < size - (placed m dest st).i from hmore)]

theorem keepsUnread_placed (hclear : Clear source dest size)
    (h : Packed (bytesAt m source size) st done opened) :
    KeepsUnread source dest size (placed m dest st) := by
  intro hmore w hw k hk hks
  obtain ⟨done, opened, hnext⟩ := hclear.round h hmore
  obtain ⟨habove, hbelow⟩ := @writeRound_within dest _ _ (placed m dest st) h.sz_le w hw
  have hleft := packRound_placed source dest size h
  rw [hleft] at hk
  have hpk : w.1 < dest + (packRound source dest size (placed m dest st)).2.pk := hbelow
  rw [hleft] at hpk
  have hbound := hnext.dest_bound
  obtain hlow | hhigh := hclear _ k hk hks
  · omega
  · dsimp only [placed] at hhigh hpk
    omega

theorem placed_start (m : Memory) (dest : Nat) : placed m dest ⟨0, 0, []⟩ = ⟨0, 0, 0, m⟩ := by
  rw [placed, storeAt_nil]
  rfl

theorem packRounds_start (hclear : Clear source dest size) (m : Memory) (rounds : Nat) :
    packRounds source dest size rounds ⟨0, 0, 0, m⟩ =
      placed m dest (packLoop size (fun written k => storeAt m dest written (source + k)) rounds
        ⟨0, 0, []⟩) := by
  rw [← placed_start m dest]
  exact packRounds_placed hclear (packed_start _) rounds

theorem keepsUnread_packRounds (hclear : Clear source dest size) (m : Memory) (rounds : Nat) :
    KeepsUnread source dest size (packRounds source dest size rounds ⟨0, 0, 0, m⟩) := by
  have hrounds := (packed_start (bytesAt m source size)).rounds (hclear.readable m) rounds
  rw [length_bytesAt] at hrounds
  obtain ⟨done, opened, h⟩ := hrounds
  rw [packRounds_start hclear]
  exact keepsUnread_placed hclear h

theorem packed_eq (hclear : Clear source dest size) (m : Memory) :
    packed source dest size m = packbitsApart (bytesAt m source size) := by
  have happart := packbits_apart (hclear.readable m)
  rw [length_bytesAt] at happart
  rw [← happart, packbits, packed, packRounds_start hclear]
  apply List.ext_getElem
  · rw [List.length_map, List.length_range]
    rfl
  · intro k hk hk'
    rw [List.getElem_map, List.getElem_range]
    exact (storeAt_add m dest _ k).trans (List.getD_eq_getElem _ _ hk')

end Loop

section Row

theorem bytesAt_expandRow (y w : Nat) (screen : Screen) (m : Memory) :
    bytesAt (expandRow w (lcdReadMemory y w screen m)) 128 (3 * w) = expandedRow w y screen := by
  apply List.ext_getElem
  · rw [length_bytesAt, length_expandedRow]
  · intro k hk hk'
    have hrow : k < 3 * w := by
      rw [length_bytesAt] at hk
      exact hk
    rw [← List.getD_eq_getElem _ 0 hk, ← List.getD_eq_getElem _ 0 hk', getD_bytesAt _ _ hrow,
      expandRow_screen y screen m hrow]

/-- On a row of any bytes, no wider than the screen, the call of `packbits` in `save_tiff` writes on
no byte that is still to be read, takes the whole row, and gives the bytes that it gives in separate
buffers. -/
theorem packs_in_place (board : Board) {w : Nat} (hw : w ≤ lcdWidth board) (m : Memory) :
    (∀ rounds, KeepsUnread 128 0 (3 * w) (packRounds 128 0 (3 * w) rounds ⟨0, 0, 0, m⟩)) ∧
      3 * w ≤ (packRounds 128 0 (3 * w) (3 * w) ⟨0, 0, 0, m⟩).i ∧
      (∀ source dest (apart : Memory), Disjoint source dest (3 * w) →
        bytesAt apart source (3 * w) = bytesAt m 128 (3 * w) →
        packed 128 0 (3 * w) m = packed source dest (3 * w) apart) ∧
      ∀ y screen, (saveRow w y screen m).1 =
        packed 128 0 (3 * w) (expandRow w (lcdReadMemory y w screen m)) := by
  have hwidth := lcdWidth_le board
  have hclear : Clear 128 0 (3 * w) := clear_behind (by omega)
  refine ⟨keepsUnread_packRounds hclear m, ?_, fun source dest apart hdisjoint hsame => ?_,
    fun y screen => ?_⟩
  · rw [packRounds_start hclear]
    exact packLoop_ends _ (Nat.sub_le _ _)
  · rw [packed_eq hclear, packed_eq (clear_of_disjoint hdisjoint), hsame]
  · have happart := packbits_apart (saveRow_readable y (by omega : w ≤ 5376) screen m)
    rw [length_expandedRow] at happart
    rw [packed_eq hclear, bytesAt_expandRow, ← happart]
    rfl

/-- The widest row. -/
theorem packs_in_place_widest :
    lcdWidth .f303 = 480 ∧ ∀ rounds,
      KeepsUnread 128 0 1440 (packRounds 128 0 1440 rounds ⟨0, 0, 0, fun k => UInt8.ofNat k⟩) :=
  ⟨rfl, (packs_in_place .f303 (Nat.le_refl 480) _).1⟩

end Row

end NanoVNA.PackInPlace
