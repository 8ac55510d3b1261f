import NanoVNA.PackBitsFormat

namespace NanoVNA.PackBits

open NanoVNA.PackBitsFormat

/-- The variables of `packbits`; the first `pk` bytes of the destination are `dest`. -/
structure Pack where
  i : Nat
  sz : Nat
  dest : List UInt8

/-- The loop over `rle`, from the index after the byte `c` on. -/
def runLength (source : Nat → UInt8) (c : UInt8) (size : Nat) (index : Nat) : Nat → Nat
  | 0 => 0
  | room + 1 =>
    if index < size ∧ source index = c then runLength source c size (index + 1) room + 1 else 0

def copiesAt (size : Nat) (source : Nat → UInt8) (i : Nat) : Nat :=
  let l := if 128 < size - i then 128 else size - i
  runLength source (source i) size (i + 1) (l - 1)

/-- The writes of a round that takes the byte `c` with `rle` copies after it. The place of a header
is taken before the header is known. -/
def packWrite (c : UInt8) (rle : Nat) (s : Pack) : Pack :=
  let i := s.i + 1
  let (rle, sz, dest) :=
    if s.sz ≠ 0 ∧ rle < 2 then (0, s.sz, s.dest)
    else if s.sz = 0 ∨ 0 < rle then (rle, s.dest.length, s.dest ++ [0])
    else (rle, s.sz, s.dest)
  let dest := dest ++ [c]
  if 0 < rle then ⟨i + rle, 0, dest.set sz (-(UInt8.ofNat rle))⟩
  else
    let count := UInt8.ofNat (dest.length - sz - 2)
    ⟨i, if count < 127 then sz else 0, dest.set sz count⟩

/-- One round of the loop of `packbits`; it reads before it writes. -/
def packStep (size : Nat) (source : Nat → UInt8) (s : Pack) : Pack :=
  packWrite (source s.i) (copiesAt size source s.i) s

/-- What `source` holds may depend on what has been written to `dest`, as the two may share their
memory. A round takes a byte at least, so there are no more rounds than bytes. -/
def packLoop (size : Nat) (source : List UInt8 → Nat → UInt8) : Nat → Pack → Pack
  | 0, s => s
  | rounds + 1, s =>
    if 0 < size - s.i then packLoop size source rounds (packStep size (source s.dest) s) else s

def packbits (source : List UInt8 → Nat → UInt8) (size : Nat) : List UInt8 :=
  (packLoop size source size ⟨0, 0, []⟩).dest

/-- `packbits` with the source and the destination in separate buffers. -/
def packbitsApart (s : List UInt8) : List UInt8 := packbits (fun _ k => s.getD k 0) s.length

/-- The loop of `load_tiff` over one row, with the bytes it still needs; a file that ends too soon
is `none`. Also gives the rest of the file. -/
def unpackbits (need : Nat) (file : List UInt8) : Option (List UInt8 × List UInt8) :=
  if need = 0 then some ([], file)
  else
    match file with
    | head :: byte :: file =>
      let count := head.toInt8.toInt
      if 0 < count then
        if file.length < count.toNat then none
        else
          (unpackbits (need - (1 + count.toNat)) (file.drop count.toNat)).map fun (row, rest) =>
            (byte :: file.take count.toNat ++ row, rest)
      else
        (unpackbits (need - (1 + (-count).toNat)) file).map fun (row, rest) =>
          (byte :: List.replicate (-count).toNat byte ++ row, rest)
    | _ => none
termination_by need

example : packbitsApart [65, 65, 65, 66, 67] = [254, 65, 1, 66, 67] := by decide

theorem literal_count {n : Nat} (h : n < 128) : (UInt8.ofNat n).toInt8.toInt = n := by
  have hall : ∀ k : Fin 128, (UInt8.ofNat k).toInt8.toInt = (k : Nat) := by decide
  exact hall ⟨n, h⟩

theorem run_count {n : Nat} (h : n < 128) : (-(UInt8.ofNat n)).toInt8.toInt = -(n : Int) := by
  have hall : ∀ k : Fin 128, (-(UInt8.ofNat k)).toInt8.toInt = -((k : Nat) : Int) := by decide
  exact hall ⟨n, h⟩

theorem unpackbits_zero (file : List UInt8) : unpackbits 0 file = some ([], file) := by
  unfold unpackbits
  rfl

theorem unpackbits_of_pos {need : Nat} (hneed : need ≠ 0) {head : UInt8} {count : Nat}
    (hhead : head.toInt8.toInt = count) (hcount : 0 < count) (byte : UInt8) {file : List UInt8}
    (hfile : count ≤ file.length) :
    unpackbits need (head :: byte :: file) =
      (unpackbits (need - (1 + count)) (file.drop count)).map fun (row, rest) =>
        (byte :: file.take count ++ row, rest) := by
  have hpos : (0 : Int) < count := Int.natCast_pos.mpr hcount
  rw [unpackbits.eq_def]
  simp only [if_neg hneed, hhead, if_pos hpos, Int.toNat_natCast, if_neg (Nat.not_lt_of_le hfile)]

theorem unpackbits_of_neg {need : Nat} (hneed : need ≠ 0) {head : UInt8} {count : Nat}
    (hhead : head.toInt8.toInt = -(count : Int)) (byte : UInt8) (file : List UInt8) :
    unpackbits need (head :: byte :: file) =
      (unpackbits (need - (1 + count)) file).map fun (row, rest) =>
        (byte :: List.replicate count byte ++ row, rest) := by
  have hneg : ¬ (0 : Int) < -(count : Int) := by omega
  rw [unpackbits.eq_def]
  simp only [if_neg hneed, hhead, if_neg hneg, Int.neg_neg, Int.toNat_natCast]

theorem unpackbits_literal {need : Nat} (hneed : need ≠ 0) {bytes : List UInt8}
    (h : (Packet.literal bytes).Valid) (file : List UInt8) :
    unpackbits need ((Packet.literal bytes).encode ++ file) =
      (unpackbits (need - bytes.length) file).map fun (row, rest) => (bytes ++ row, rest) := by
  cases bytes with
  | nil => exact absurd h.1 (by decide)
  | cons byte bytes =>
    have hcount := literal_count (Nat.lt_of_succ_le h.2)
    rw [List.length_cons, Nat.add_comm]
    cases bytes with
    | nil => exact @unpackbits_of_neg need hneed _ 0 hcount byte file
    | cons next bytes =>
      have hroom : (next :: bytes).length ≤ (next :: bytes ++ file).length := by
        rw [List.length_append]
        exact Nat.le_add_right _ _
      have hread := unpackbits_of_pos hneed hcount (Nat.succ_pos bytes.length) byte hroom
      rw [List.drop_left, List.take_left] at hread
      exact hread

theorem unpackbits_run {need : Nat} (hneed : need ≠ 0) {copies : Nat} {byte : UInt8}
    (h : (Packet.run copies byte).Valid) (file : List UInt8) :
    unpackbits need ((Packet.run copies byte).encode ++ file) =
      (unpackbits (need - (copies + 1)) file).map fun (row, rest) =>
        (List.replicate (copies + 1) byte ++ row, rest) := by
  rw [Nat.add_comm copies 1, Nat.add_comm 1 copies, List.replicate_succ, Nat.add_comm copies 1]
  exact unpackbits_of_neg hneed (run_count (Nat.lt_succ_of_le h.2)) byte file

theorem unpackbits_packet {need : Nat} (hneed : need ≠ 0) {p : Packet} (h : p.Valid)
    (file : List UInt8) :
    unpackbits need (p.encode ++ file) =
      (unpackbits (need - p.expand.length) file).map fun (row, rest) => (p.expand ++ row, rest) := by
  cases p with
  | literal bytes => exact unpackbits_literal hneed h file
  | run copies byte =>
    rw [unpackbits_run hneed h, Packet.expand, List.length_replicate]

theorem unpackbits_encode {packets : List Packet} (h : ∀ p ∈ packets, p.Valid)
    (file : List UInt8) :
    unpackbits (expand packets).length (encode packets ++ file) = some (expand packets, file) := by
  induction packets with
  | nil =>
    rw [expand_nil, List.length_nil, unpackbits_zero]
    rfl
  | cons p packets ih =>
    rw [List.forall_mem_cons] at h
    have hneed : (expand (p :: packets)).length ≠ 0 := by
      have hpos := h.1.expand_pos
      rw [expand_cons, List.length_append]
      omega
    rw [encode_cons, List.append_assoc, unpackbits_packet hneed h.1, expand_cons,
      List.length_append, Nat.add_sub_cancel_left, ih h.2]
    rfl

section Run

variable (source : Nat → UInt8) (c : UInt8) (size : Nat)

theorem runLength_le (index room : Nat) : runLength source c size index room ≤ room := by
  induction room generalizing index with
  | zero => exact Nat.le_refl 0
  | succ room ih =>
    rw [runLength]
    split
    · exact Nat.succ_le_succ (ih _)
    · exact Nat.zero_le _

theorem runLength_within {index : Nat} (h : index ≤ size) (room : Nat) :
    index + runLength source c size index room ≤ size := by
  induction room generalizing index with
  | zero => exact h
  | succ room ih =>
    rw [runLength]
    split
    · rename_i hnext
      have hrest := @ih (index + 1) hnext.1
      omega
    · exact h

theorem runLength_equal {index room k : Nat} (hk : k < runLength source c size index room) :
    source (index + k) = c := by
  induction room generalizing index k with
  | zero => exact absurd hk (Nat.not_lt_zero k)
  | succ room ih =>
    rw [runLength] at hk
    split at hk
    · rename_i hnext
      cases k with
      | zero => exact hnext.2
      | succ k =>
        rw [Nat.add_comm k 1, ← Nat.add_assoc]
        exact ih (Nat.lt_of_succ_lt_succ hk)
    · exact absurd hk (Nat.not_lt_zero k)

theorem runLength_congr {other : Nat → UInt8} {index : Nat}
    (h : ∀ k, index ≤ k → k < size → source k = other k) (room : Nat) :
    runLength source c size index room = runLength other c size index room := by
  induction room generalizing index with
  | zero => rfl
  | succ room ih =>
    have hrest := @ih (index + 1) fun k hk => h k (Nat.le_of_succ_le hk)
    by_cases hindex : index < size
    · rw [runLength, runLength, h index (Nat.le_refl _) hindex, hrest]
    · rw [runLength, runLength, if_neg (fun hnext => hindex hnext.1),
        if_neg (fun hnext => hindex hnext.1)]

end Run

theorem set_header (dest : List UInt8) (c header : UInt8) :
    (dest ++ [0] ++ [c]).set dest.length header = dest ++ [header, c] := by
  rw [List.append_assoc, List.set_append_right _ _ (Nat.le_refl _), Nat.sub_self]
  rfl

theorem copiesAt_le (size : Nat) (source : Nat → UInt8) (i : Nat) :
    copiesAt size source i ≤ 127 := by
  refine Nat.le_trans (runLength_le ..) ?_
  split <;> omega

theorem copiesAt_within (source : Nat → UInt8) {size i : Nat} (hi : i < size) :
    i + 1 + copiesAt size source i ≤ size := runLength_within _ _ _ (Nat.succ_le_of_lt hi) _

theorem copiesAt_equal (source : Nat → UInt8) {size i k : Nat} (hk : k < copiesAt size source i) :
    source (i + 1 + k) = source i := runLength_equal _ _ _ hk

theorem copiesAt_congr {source other : Nat → UInt8} {size i : Nat} (hi : i < size)
    (h : ∀ k, i ≤ k → k < size → source k = other k) :
    copiesAt size source i = copiesAt size other i := by
  have hrest (room : Nat) := runLength_congr source (other i) size
    (fun k (hk : i + 1 ≤ k) => h k (Nat.le_of_succ_le hk)) room
  simp only [copiesAt, h i (Nat.le_refl _) hi, hrest]

theorem packWrite_join (c : UInt8) {rle : Nat} {s : Pack} (hsz : s.sz ≠ 0) (hrle : rle < 2) :
    packWrite c rle s =
      ⟨s.i + 1, if UInt8.ofNat (s.dest.length + 1 - s.sz - 2) < 127 then s.sz else 0,
        (s.dest ++ [c]).set s.sz (UInt8.ofNat (s.dest.length + 1 - s.sz - 2))⟩ := by
  have hjoin : s.sz ≠ 0 ∧ rle < 2 := ⟨hsz, hrle⟩
  simp only [packWrite, if_pos hjoin, Nat.lt_irrefl, if_false, List.length_append,
    List.length_singleton]

theorem packWrite_run (c : UInt8) {rle : Nat} {s : Pack} (hrle : 1 ≤ rle)
    (hsz : s.sz ≠ 0 → 2 ≤ rle) :
    packWrite c rle s = ⟨s.i + 1 + rle, 0, s.dest ++ [-(UInt8.ofNat rle), c]⟩ := by
  have hjoin : ¬ (s.sz ≠ 0 ∧ rle < 2) := fun h => Nat.not_lt_of_le (hsz h.1) h.2
  have hopen : s.sz = 0 ∨ 0 < rle := .inr hrle
  simp only [packWrite, if_neg hjoin, if_pos hopen, if_pos (Nat.lt_of_succ_le hrle), set_header]

theorem packWrite_open (c : UInt8) {s : Pack} (hsz : s.sz = 0) :
    packWrite c 0 s = ⟨s.i + 1, s.dest.length, s.dest ++ [0, c]⟩ := by
  have hjoin : ¬ (s.sz ≠ 0 ∧ 0 < 2) := fun h => h.1 hsz
  have hopen : s.sz = 0 ∨ 0 < 0 := .inl hsz
  have hcount : UInt8.ofNat ((s.dest ++ [0] ++ [c]).length - s.dest.length - 2) = 0 := by
    simp only [List.length_append, List.length_singleton]
    have hzero : s.dest.length + 1 + 1 - s.dest.length - 2 = 0 := by omega
    rw [hzero]
    rfl
  simp only [packWrite, if_neg hjoin, if_pos hopen]
  rw [if_neg (Nat.lt_irrefl 0), hcount, set_header]
  rfl

/-- The bytes of a packet that more bytes may join; none while there is no such packet. -/
def openBytes (opened : List UInt8) : List UInt8 :=
  if opened = [] then [] else (Packet.literal opened).encode

/-- What `dest` holds between two rounds: whole packets and one that may still grow, which
together stand for the bytes taken from the source. A packet at the very start does not grow, as
its place is zero. -/
structure Packed (s : List UInt8) (st : Pack) (done : List Packet) (opened : List UInt8) :
    Prop where
  valid : ∀ p ∈ done, p.Valid
  short : opened.length < 128
  taken : expand done ++ opened = s.take st.i
  within : st.i ≤ s.length
  dest : st.dest = encode done ++ openBytes opened
  place : st.sz = if opened = [] then 0 else (encode done).length
  started : opened ≠ [] → (encode done).length ≠ 0
  bound : 128 * st.dest.length + opened.length ≤
    128 * (st.i + if opened = [] then 1 else 2) + st.i

theorem packed_start (s : List UInt8) : Packed s ⟨0, 0, []⟩ [] [] where
  valid := nofun
  short := by decide
  taken := rfl
  within := Nat.zero_le _
  dest := rfl
  place := rfl
  started := fun h => absurd rfl h
  bound := by decide

theorem take_copies {s : List UInt8} {i copies : Nat} (hi : i + copies < s.length)
    (h : ∀ k < copies, s.getD (i + 1 + k) 0 = s.getD i 0) :
    s.take (i + 1 + copies) = s.take i ++ List.replicate (copies + 1) (s.getD i 0) := by
  have hsum : i + 1 + copies = i + (copies + 1) := by omega
  rw [hsum, List.take_add]
  congr 1
  refine List.eq_replicate_iff.mpr ⟨by simp only [List.length_take, List.length_drop]; omega, ?_⟩
  intro b hb
  obtain ⟨k, hk, rfl⟩ := List.mem_iff_getElem.mp hb
  rw [List.length_take, List.length_drop] at hk
  have hget (j : Nat) (hj : i + j < s.length) : s[i + j] = s.getD (i + j) 0 := by
    rw [List.getD_eq_getElem?_getD, List.getElem?_eq_getElem hj, Option.getD_some]
  rw [List.getElem_take, List.getElem_drop, hget k (by omega)]
  cases k with
  | zero => rfl
  | succ k =>
    rw [Nat.add_comm k 1, ← Nat.add_assoc]
    exact h k (by omega)

section Step

variable {s : List UInt8} {st : Pack} {done : List Packet} {opened : List UInt8}

theorem Packed.dest_bound (h : Packed s st done opened) :
    st.dest.length ≤ st.i + 2 + st.i / 128 := by
  have hb := h.bound
  split at hb <;> omega

theorem openBytes_cons {opened : List UInt8} (h : opened ≠ []) :
    openBytes opened = UInt8.ofNat (opened.length - 1) :: opened := if_neg h

theorem Packed.sz_ne_zero (h : Packed s st done opened) (hsz : st.sz ≠ 0) : opened ≠ [] := by
  intro hnil
  have hplace := h.place
  rw [if_pos hnil] at hplace
  exact hsz hplace

theorem Packed.sz_le (h : Packed s st done opened) : st.sz ≤ st.dest.length := by
  rw [h.place, h.dest, List.length_append]
  split
  · exact Nat.zero_le _
  · exact Nat.le_add_right _ _

theorem Packed.close (h : Packed s st done opened) :
    ∃ closed, (∀ p ∈ closed, p.Valid) ∧ encode closed = st.dest ∧ expand closed = s.take st.i := by
  by_cases hnil : opened = []
  · have hdest := h.dest
    have htaken := h.taken
    rw [hnil, List.append_nil] at htaken
    rw [hnil, openBytes, if_pos rfl, List.append_nil] at hdest
    exact ⟨done, h.valid, hdest.symm, htaken⟩
  · have hpos := List.length_pos_iff.mpr hnil
    have hopened : (Packet.literal opened).Valid := ⟨hpos, Nat.le_of_lt h.short⟩
    refine ⟨done ++ [.literal opened], valid_concat h.valid hopened, ?_, ?_⟩
    · rw [encode_concat, h.dest, openBytes, if_neg hnil]
    · rw [expand_concat, Packet.expand, h.taken]

section Join

variable (h : Packed s st done opened) (hopened : opened ≠ [])

include h hopened

theorem Packed.place_opened : st.sz = (encode done).length := by
  rw [h.place, if_neg hopened]

theorem Packed.dest_opened :
    st.dest = encode done ++ UInt8.ofNat (opened.length - 1) :: opened := by
  rw [h.dest, openBytes_cons hopened]

theorem Packed.dest_join (b : UInt8) :
    (st.dest ++ [b]).set st.sz (UInt8.ofNat opened.length) =
      encode done ++ (Packet.literal (opened ++ [b])).encode := by
  rw [h.dest_opened hopened, h.place_opened hopened, List.append_assoc,
    List.set_append_right _ _ (Nat.le_refl _), Nat.sub_self, Packet.encode, List.length_append,
    List.length_singleton, Nat.add_sub_cancel]
  rfl

theorem Packed.count_join : st.dest.length + 1 - st.sz - 2 = opened.length := by
  rw [h.dest_opened hopened, h.place_opened hopened, List.length_append, List.length_cons]
  omega

omit hopened in
theorem Packed.taken_join (hi : st.i < s.length) :
    expand done ++ (opened ++ [s.getD st.i 0]) = s.take (st.i + 1) := by
  have hnext := @take_copies s st.i 0 hi nofun
  rw [hnext, ← List.append_assoc, h.taken]
  rfl

end Join

theorem Packed.join (h : Packed s st done opened) (hi : st.i < s.length) (hsz : st.sz ≠ 0) {rle : Nat}
    (hrle : rle < 2) :
    ∃ done opened, Packed s (packWrite (s.getD st.i 0) rle st) done opened := by
  have hopened := h.sz_ne_zero hsz
  have hplace := h.place_opened hopened
  have hset := h.dest_join hopened (s.getD st.i 0)
  have htaken := h.taken_join hi
  have hlen : ((st.dest ++ [s.getD st.i 0]).set st.sz (UInt8.ofNat opened.length)).length =
      st.dest.length + 1 := by
    rw [List.length_set, List.length_append, List.length_singleton]
  have hne : opened ++ [s.getD st.i 0] ≠ [] := List.append_ne_nil_of_right_ne_nil _ (List.cons_ne_nil _ _)
  have hbound := h.bound
  rw [if_neg hopened] at hbound
  rw [packWrite_join _ hsz hrle, h.count_join hopened]
  have hsmall : UInt8.ofNat opened.length < 127 ↔ opened.length < 127 := by
    have hshort := h.short
    rw [UInt8.lt_iff_toNat_lt, UInt8.toNat_ofNat_of_lt' (Nat.lt_trans hshort (by decide))]
    rfl
  by_cases hmore : opened.length < 127
  · refine ⟨done, opened ++ [s.getD st.i 0], h.valid, ?_, htaken, hi, ?_, ?_, fun _ => ?_, ?_⟩
    · rw [List.length_append, List.length_singleton]
      omega
    · rw [openBytes, if_neg hne]
      exact hset
    · rw [if_neg hne, if_pos (hsmall.mpr hmore)]
      exact hplace
    · exact hplace ▸ hsz
    · rw [if_neg hne, hlen, List.length_append, List.length_singleton]
      dsimp only
      omega
  · have hlit : (Packet.literal (opened ++ [s.getD st.i 0])).Valid := by
      have hshort := h.short
      constructor <;> rw [List.length_append, List.length_singleton] <;> omega
    refine ⟨done ++ [.literal (opened ++ [s.getD st.i 0])], [], valid_concat h.valid hlit, by decide,
      ?_, hi, ?_, ?_, fun hnil => absurd rfl hnil, ?_⟩
    · rw [expand_concat, List.append_nil]
      exact htaken
    · rw [encode_concat, openBytes, if_pos rfl, List.append_nil]
      exact hset
    · rw [if_pos rfl, if_neg (mt hsmall.mp hmore)]
    · rw [if_pos rfl, hlen, List.length_nil]
      dsimp only
      have hshort := h.short
      omega

/-- A run closes what was open; a run of three pays for the new header. -/
theorem Packed.run (h : Packed s st done opened) {copies : Nat} (hlo : 1 ≤ copies)
    (hhi : copies ≤ 127) (hsz : st.sz ≠ 0 → 2 ≤ copies) (hi : st.i + copies < s.length)
    (hequal : ∀ k < copies, s.getD (st.i + 1 + k) 0 = s.getD st.i 0) :
    ∃ done opened, Packed s (packWrite (s.getD st.i 0) copies st) done opened := by
  obtain ⟨closed, hvalid, hencode, hexpand⟩ := h.close
  have hrun : (Packet.run copies (s.getD st.i 0)).Valid := ⟨hlo, hhi⟩
  rw [packWrite_run _ hlo hsz]
  refine ⟨closed ++ [.run copies (s.getD st.i 0)], [], valid_concat hvalid hrun, by decide, ?_, ?_,
    ?_, rfl, fun hnil => absurd rfl hnil, ?_⟩
  · rw [expand_concat, List.append_nil, hexpand, take_copies hi hequal]
    rfl
  · dsimp only
    omega
  · rw [encode_concat, openBytes, if_pos rfl, List.append_nil, hencode]
    rfl
  · have hbound := h.bound
    simp only [if_true, List.length_append, List.length_cons, List.length_nil]
    by_cases hnil : opened = []
    · rw [if_pos hnil] at hbound
      omega
    · have hlong := hsz (by rw [h.place, if_neg hnil]; exact h.started hnil)
      rw [if_neg hnil] at hbound
      omega

/-- A packet opens; at the very start of `dest` it stays a packet of one byte. -/
theorem Packed.open_ (h : Packed s st done opened) (hi : st.i < s.length) (hsz : st.sz = 0) :
    ∃ done opened, Packed s (packWrite (s.getD st.i 0) 0 st) done opened := by
  have hnil : opened = [] := by
    by_cases hnil : opened = []
    · exact hnil
    · have hplace := h.place
      rw [if_neg hnil] at hplace
      exact absurd (hplace.symm.trans hsz) (h.started hnil)
  have hdest := h.dest
  have htaken := h.taken
  have hbound := h.bound
  have hnext : s.take (st.i + 1) = s.take st.i ++ [s.getD st.i 0] :=
    @take_copies s st.i 0 hi nofun
  rw [hnil, openBytes, if_pos rfl, List.append_nil] at hdest
  rw [hnil, List.append_nil] at htaken
  rw [hnil, if_pos rfl, List.length_nil] at hbound
  rw [packWrite_open _ hsz]
  by_cases hfirst : (encode done).length = 0
  · have hone : (Packet.literal [s.getD st.i 0]).Valid := ⟨Nat.le_refl 1, show 1 ≤ 128 by decide⟩
    refine ⟨done ++ [.literal [s.getD st.i 0]], [], valid_concat h.valid hone, by decide, ?_, hi, ?_,
      ?_, fun hne => absurd rfl hne, ?_⟩
    · rw [expand_concat, List.append_nil, htaken, hnext]
      rfl
    · rw [encode_concat, openBytes, if_pos rfl, List.append_nil, hdest]
      rfl
    · rw [if_pos rfl, hdest, hfirst]
    · rw [if_pos rfl, hdest, List.length_append, hfirst]
      simp only [List.length_cons, List.length_nil]
      omega
  · refine ⟨done, [s.getD st.i 0], h.valid, show 1 < 128 by decide, ?_, hi, ?_, ?_, fun _ => hfirst,
      ?_⟩
    · rw [htaken, hnext]
    · rw [openBytes_cons (List.cons_ne_nil _ _), hdest]
      rfl
    · rw [if_neg (List.cons_ne_nil _ _), hdest]
    · rw [if_neg (List.cons_ne_nil _ _), List.length_append]
      simp only [List.length_cons, List.length_nil]
      omega

end Step

theorem packWrite_i_lt (c : UInt8) (rle : Nat) (st : Pack) : st.i < (packWrite c rle st).i := by
  by_cases hjoin : st.sz ≠ 0 ∧ rle < 2
  · rw [packWrite_join c hjoin.1 hjoin.2]
    exact Nat.lt_succ_self st.i
  · obtain rfl | hpos := Nat.eq_zero_or_pos rle
    · rw [packWrite_open c (by omega)]
      exact Nat.lt_succ_self st.i
    · rw [packWrite_run c hpos (by omega)]
      exact Nat.lt_of_lt_of_le (Nat.lt_succ_self st.i) (Nat.le_add_right _ _)

/-- The source still holds the bytes to come wherever the destination has not outgrown it. -/
def Readable (s : List UInt8) (source : List UInt8 → Nat → UInt8) : Prop :=
  ∀ dest i k, dest.length ≤ i + 2 + i / 128 → i ≤ k → k < s.length → source dest k = s.getD k 0

theorem Packed.round {s : List UInt8} {st : Pack} {done : List Packet} {opened : List UInt8}
    {source : List UInt8 → Nat → UInt8} (hread : Readable s source) (h : Packed s st done opened)
    (hi : st.i < s.length) :
    ∃ done opened, Packed s (packStep s.length (source st.dest) st) done opened := by
  have hsource (k : Nat) (hk : st.i ≤ k) (hks : k < s.length) : source st.dest k = s.getD k 0 :=
    hread st.dest st.i k h.dest_bound hk hks
  have hwithin := copiesAt_within (source st.dest) hi
  rw [packStep, hsource st.i (Nat.le_refl _) hi]
  have hequal : ∀ k < copiesAt s.length (source st.dest) st.i,
      s.getD (st.i + 1 + k) 0 = s.getD st.i 0 := by
    intro k hk
    rw [← hsource st.i (Nat.le_refl _) hi, ← copiesAt_equal (source st.dest) hk]
    exact (hsource _ (by omega) (by omega)).symm
  have hle := copiesAt_le s.length (source st.dest) st.i
  generalize copiesAt s.length (source st.dest) st.i = copies at hwithin hequal hle
  by_cases hjoin : st.sz ≠ 0 ∧ copies < 2
  · exact h.join hi hjoin.1 hjoin.2
  · obtain rfl | hpos := Nat.eq_zero_or_pos copies
    · exact h.open_ hi (by omega)
    · exact h.run hpos hle (by omega) (by omega) hequal

theorem packLoop_ends {size : Nat} (source : List UInt8 → Nat → UInt8) {rounds : Nat} {st : Pack}
    (hrounds : size - st.i ≤ rounds) : size ≤ (packLoop size source rounds st).i := by
  induction rounds generalizing st with
  | zero => exact Nat.le_of_sub_eq_zero (Nat.le_zero.mp hrounds)
  | succ rounds ih =>
    rw [packLoop]
    split
    · have hlt : st.i < (packStep size (source st.dest) st).i := packWrite_i_lt _ _ _
      exact ih (by omega)
    · rename_i hend
      exact Nat.le_of_sub_eq_zero (Nat.eq_zero_of_not_pos hend)

theorem Packed.rounds {s : List UInt8} {source : List UInt8 → Nat → UInt8}
    (hread : Readable s source) {st : Pack} {done : List Packet} {opened : List UInt8}
    (h : Packed s st done opened) (rounds : Nat) :
    ∃ done opened, Packed s (packLoop s.length source rounds st) done opened := by
  induction rounds generalizing st done opened with
  | zero => exact ⟨done, opened, h⟩
  | succ rounds ih =>
    rw [packLoop]
    split
    · rename_i hmore
      obtain ⟨done, opened, hnext⟩ := h.round hread (Nat.lt_of_sub_pos hmore)
      exact ih hnext
    · exact ⟨done, opened, h⟩

theorem Packed.loop {s : List UInt8} {source : List UInt8 → Nat → UInt8} (hread : Readable s source)
    {rounds : Nat} {st : Pack} {done : List Packet} {opened : List UInt8}
    (h : Packed s st done opened) (hrounds : s.length - st.i ≤ rounds) :
    ∃ done opened, Packed s (packLoop s.length source rounds st) done opened ∧
      (packLoop s.length source rounds st).i = s.length := by
  obtain ⟨done, opened, hpacked⟩ := h.rounds hread rounds
  exact ⟨done, opened, hpacked, Nat.le_antisymm hpacked.within (packLoop_ends source hrounds)⟩

/-- A round on the shared memory does what it does on separate buffers. -/
theorem Packed.step_apart {s : List UInt8} {st : Pack} {done : List Packet} {opened : List UInt8}
    {source : List UInt8 → Nat → UInt8} (hread : Readable s source) (h : Packed s st done opened)
    (hi : st.i < s.length) :
    packStep s.length (source st.dest) st = packStep s.length (fun k => s.getD k 0) st := by
  have hsource (k : Nat) (hk : st.i ≤ k) (hks : k < s.length) : source st.dest k = s.getD k 0 :=
    hread st.dest st.i k h.dest_bound hk hks
  rw [packStep, packStep, copiesAt_congr hi hsource, hsource st.i (Nat.le_refl _) hi]

theorem Packed.loop_apart {s : List UInt8} {source : List UInt8 → Nat → UInt8}
    (hread : Readable s source) {st : Pack} {done : List Packet} {opened : List UInt8}
    (h : Packed s st done opened) (rounds : Nat) :
    packLoop s.length source rounds st =
      packLoop s.length (fun _ k => s.getD k 0) rounds st := by
  induction rounds generalizing st done opened with
  | zero => rfl
  | succ rounds ih =>
    rw [packLoop, packLoop]
    by_cases hmore : 0 < s.length - st.i
    · obtain ⟨done, opened, hnext⟩ := h.round hread (Nat.lt_of_sub_pos hmore)
      rw [if_pos hmore, if_pos hmore, ih hnext, h.step_apart hread (Nat.lt_of_sub_pos hmore)]
    · rw [if_neg hmore, if_neg hmore]

theorem packbits_apart {s : List UInt8} {source : List UInt8 → Nat → UInt8}
    (hread : Readable s source) : packbits source s.length = packbitsApart s := by
  rw [packbits, (packed_start s).loop_apart hread]
  rfl

/-- The encoder writes packets that stand for its source, whether or not the destination shares
its memory, and spends at most a header on every 128 bytes and two more. -/
theorem packbits_spec {s : List UInt8} {source : List UInt8 → Nat → UInt8} (hread : Readable s source) :
    ∃ packets, (∀ p ∈ packets, p.Valid) ∧ expand packets = s ∧
      packbits source s.length = encode packets ∧
      (packbits source s.length).length ≤ s.length + (s.length + 127) / 128 + 1 := by
  obtain ⟨done, opened, h, hi⟩ := (packed_start s).loop hread (Nat.le_refl s.length)
  obtain ⟨closed, hvalid, hencode, hexpand⟩ := h.close
  rw [hi, List.take_length] at hexpand
  refine ⟨closed, hvalid, hexpand, hencode.symm, ?_⟩
  have hbound := h.bound
  rw [hi] at hbound
  unfold packbits
  split at hbound
  · omega
  · rename_i hopened
    have hpos := List.length_pos_iff.mpr hopened
    omega

theorem readable_apart (s : List UInt8) : Readable s fun _ k => s.getD k 0 :=
  fun _ _ _ _ _ _ => rfl

theorem unpackbits_packbits {s : List UInt8} {source : List UInt8 → Nat → UInt8}
    (hread : Readable s source) (file : List UInt8) :
    unpackbits s.length (packbits source s.length ++ file) = some (s, file) := by
  obtain ⟨packets, hvalid, rfl, hencode, -⟩ := packbits_spec hread
  rw [hencode]
  exact unpackbits_encode hvalid file

theorem packbits_round_trip (s : List UInt8) :
    unpackbits s.length (packbitsApart s) = some (s, []) ∧
      (packbitsApart s).length ≤ s.length + (s.length + 127) / 128 + 1 := by
  obtain ⟨packets, -, -, -, hbound⟩ := packbits_spec (readable_apart s)
  have h := unpackbits_packbits (readable_apart s) []
  rw [List.append_nil] at h
  exact ⟨h, hbound⟩

end NanoVNA.PackBits
