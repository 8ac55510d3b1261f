import Mathlib.Data.List.Induction
import NanoVNA.FloatNumerals
import NanoVNA.LineParser

namespace NanoVNA.KeypadInput

open NanoVNA.LineParser (nul)
open NanoVNA.FloatNumerals (digitChar)

def numInputLen : Nat := 12

/-- The places of `kp_buf`. -/
def kpBufSize : Nat := numInputLen + 2

inductive Key
  | digit (d : Fin 10)
  | period
  | minus
  | bs
  | k
  | M
  | G
  | m
  | u
  | n
  | p
  | x1
  | enter
  | percent
  deriving DecidableEq

inductive Pad
  | freq
  | ufloat
  | percent
  | float
  | mfloat
  | mkufloat
  | nfloat

def digitKeys : List Key := (List.finRange 10).map .digit

def Pad.keys : Pad → List Key
  | freq => .period :: digitKeys ++ [.G, .M, .k, .x1, .bs]
  | ufloat => .period :: digitKeys ++ [.enter, .bs]
  | percent => .period :: digitKeys ++ [.percent, .bs]
  | float => .period :: digitKeys ++ [.minus, .enter, .bs]
  | mfloat => .period :: digitKeys ++ [.u, .m, .minus, .enter, .bs]
  | mkufloat => .period :: digitKeys ++ [.m, .k, .x1, .bs]
  | nfloat => .period :: digitKeys ++ [.u, .n, .p, .minus, .bs]

/-- What a callback reads the input with; a date or a time is read digit by digit. -/
inductive Getter
  | uint
  | float
  | digits
  deriving DecidableEq

inductive KeypadMode
  | start
  | stop
  | center
  | span
  | cw
  | step
  | var
  | points
  | top
  | nTop
  | bottom
  | nBottom
  | scale
  | nScale
  | refpos
  | edelay
  | varDelay
  | s21Offset
  | velocityFactor
  | actualCableLen
  | xtal
  | threshold
  | vbat
  | measureR
  | zPort
  | calLoadR
  | rtcDate
  | rtcTime
  | rtcCal
  deriving DecidableEq

def keypadsModeTbl : KeypadMode → Pad × Getter
  | .start => (.freq, .uint)
  | .stop => (.freq, .uint)
  | .center => (.freq, .uint)
  | .span => (.freq, .uint)
  | .cw => (.freq, .uint)
  | .step => (.freq, .uint)
  | .var => (.freq, .uint)
  | .points => (.ufloat, .uint)
  | .top => (.mfloat, .float)
  | .nTop => (.nfloat, .float)
  | .bottom => (.mfloat, .float)
  | .nBottom => (.nfloat, .float)
  | .scale => (.ufloat, .float)
  | .nScale => (.nfloat, .float)
  | .refpos => (.float, .float)
  | .edelay => (.nfloat, .float)
  | .varDelay => (.nfloat, .float)
  | .s21Offset => (.float, .float)
  | .velocityFactor => (.percent, .uint)
  | .actualCableLen => (.mkufloat, .float)
  | .xtal => (.freq, .uint)
  | .threshold => (.freq, .uint)
  | .vbat => (.ufloat, .uint)
  | .measureR => (.ufloat, .float)
  | .zPort => (.ufloat, .float)
  | .calLoadR => (.ufloat, .float)
  | .rtcDate => (.ufloat, .digits)
  | .rtcTime => (.ufloat, .digits)
  | .rtcCal => (.float, .float)

def maxLength (mode : KeypadMode) : Nat :=
  if mode = .rtcDate ∨ mode = .rtcTime then 6 else numInputLen

/-! ### The click on a key -/

/-- A store in `kp_buf`; `none` when it is behind the buffer. -/
def store (buf : List Char) (i : Nat) (c : Char) : Option (List Char) :=
  if i < buf.length then some (buf.set i c) else none

def strlen (buf : List Char) : Option Nat := buf.findIdx? (· = nul)

def periodPos (buf : List Char) : Option Nat := buf.findIdx? fun c => c = nul ∨ c = '.'

inductive Result
  | cont
  | done
  | cancel
  deriving DecidableEq

structure Click where
  result : Result
  rounds : Nat
  buf : List Char
  deriving DecidableEq

/-- One round of the loop of a unit key: the point, or the end of the text, changes places with the
next character. -/
def unitRound (i : Nat) (buf : List Char) : Option (List Char) := do
  let v ← buf[i + 1]?
  let point ← buf[i]?
  if v = nul ∨ point = nul then
    let buf ← store buf (i + 2) nul
    let buf ← store buf (i + 1) point
    store buf i '0'
  else
    let buf ← store buf (i + 1) point
    store buf i v

def unitRounds : Nat → Nat → List Char → Option (List Char)
  | 0, _, buf => some buf
  | rounds + 1, i, buf => do
    let buf ← unitRound i buf
    unitRounds rounds (i + 1) buf

/-- The counter of the loop has 16 bits and is tested after it is decremented. -/
def roundsOf (scale : Nat) : Nat := if scale = 0 then 2 ^ 16 else scale

def unitScale : Key → Option Nat
  | .k => some 3
  | .M => some 6
  | .G => some 9
  | _ => none

def prefixOf : Key → Option Char
  | .m => some 'm'
  | .u => some 'u'
  | .n => some 'n'
  | .p => some 'p'
  | _ => none

def closes (c : Key) : Bool :=
  (unitScale c).isSome ∨ (prefixOf c).isSome ∨ c = .x1 ∨ c = .enter ∨ c = .percent

def close (c : Key) (kpIndex : Nat) (buf : List Char) : Option Click :=
  match unitScale c, prefixOf c with
  | some scale, _ => do
    let i ← periodPos buf
    let scale := if numInputLen < scale + i then (2 ^ 16 + numInputLen - i) % 2 ^ 16 else scale
    let buf ← unitRounds (roundsOf scale) i buf
    some ⟨.done, roundsOf scale, buf⟩
  | none, some letter => do
    let buf ← store buf kpIndex letter
    let buf ← store buf (kpIndex + 1) nul
    some ⟨.done, 0, buf⟩
  | none, none => some ⟨.done, 0, buf⟩

def endText (kpIndex : Nat) (buf : List Char) : Option Click := do
  let buf ← store buf kpIndex nul
  some ⟨.cont, 0, buf⟩

def moveDown (buf : List Char) : Option (List Char) :=
  (List.range numInputLen).foldlM (fun buf i => do store buf i (← buf[i + 1]?)) buf

def moveUp (buf : List Char) : Option (List Char) :=
  (List.range numInputLen).reverse.foldlM (fun buf i => do store buf (i + 1) (← buf[i]?)) buf

def numKeypadClick (maxlength : Nat) (c : Key) (kpIndex : Nat) (buf : List Char) : Option Click :=
  if closes c then
    if kpIndex = 0 then some ⟨.cancel, 0, buf⟩ else close c kpIndex buf
  else
    match c with
    | .bs => if kpIndex = 0 then some ⟨.cancel, 0, buf⟩ else endText (kpIndex - 1) buf
    | .minus => do
      if (← buf[0]?) = '-' then
        let buf ← moveDown buf
        endText (kpIndex - 1) buf
      else
        let buf ← moveUp buf
        let buf ← store buf 0 '-'
        endText (if kpIndex < maxlength then kpIndex + 1 else kpIndex) buf
    | .digit d =>
      if kpIndex < maxlength then do
        let buf ← store buf kpIndex (digitChar d)
        endText (kpIndex + 1) buf
      else endText kpIndex buf
    | .period =>
      if kpIndex < maxlength ∧ periodPos buf = some kpIndex ∧ maxlength = numInputLen then do
        let buf ← store buf kpIndex '.'
        endText (kpIndex + 1) buf
      else endText kpIndex buf
    | _ => endText kpIndex buf

def keypadClick (maxlength : Nat) (c : Key) (buf : List Char) : Option Click := do
  let kpIndex ← strlen buf
  numKeypadClick maxlength c kpIndex buf

/-- The keys up to the one that ends the input; `none` when a click leaves the buffer. -/
def keypadRun (maxlength : Nat) : List Key → List Char → Option Click
  | [], buf => some ⟨.cont, 0, buf⟩
  | c :: keys, buf => do
    let r ← keypadClick maxlength c buf
    if r.result = .cont then keypadRun maxlength keys r.buf else some r

/-! ### The text that is typed -/

def typeKey (maxlength : Nat) (text : List Char) : Key → List Char
  | .bs => text.dropLast
  | .minus => if text.head? = some '-' then text.tail else ('-' :: text).take maxlength
  | .digit d => if text.length < maxlength then text ++ [digitChar d] else text
  | .period =>
    if text.length < maxlength ∧ '.' ∉ text ∧ maxlength = numInputLen then text ++ ['.'] else text
  | _ => text

def ends (text : List Char) (c : Key) : Bool := closes c ∨ c = .bs ∧ text = []

def entered (maxlength : Nat) : List Key → List Char → List Char × Option Key
  | [], text => (text, none)
  | c :: keys, text =>
    if ends text c then (text, some c) else entered maxlength keys (typeKey maxlength text c)

example : keypadRun 12 [.digit 1, .period, .digit 5, .k] (List.replicate 14 nul) =
    some ⟨.done, 3, "1500.\x00".toList ++ List.replicate 8 nul⟩ := by decide

/-! ### The buffer holds the text -/

theorem moveDown_eq : ∀ {buf : List Char}, buf.length = kpBufSize →
    moveDown buf = some ((buf.drop 1).take numInputLen ++ buf.drop numInputLen)
  | [_, _, _, _, _, _, _, _, _, _, _, _, _, _], _ => rfl

theorem moveUp_eq : ∀ {buf : List Char}, buf.length = kpBufSize →
    ((moveUp buf).bind fun buf => store buf 0 '-') =
      some ('-' :: (buf.take numInputLen ++ buf.drop (numInputLen + 1)))
  | [_, _, _, _, _, _, _, _, _, _, _, _, _, _], _ => rfl

structure Holding (buf text : List Char) : Prop where
  length : buf.length = kpBufSize
  chars : ∀ x ∈ text, x ≠ nul
  split : ∃ rest, buf = text ++ nul :: rest

section Holding

variable {maxlength : Nat} {buf text : List Char}

theorem findIdx?_front {p : Char → Bool} {front : List Char} {c : Char}
    (hfront : ∀ x ∈ front, p x = false) (hc : p c = true) (rest : List Char) :
    (front ++ c :: rest).findIdx? p = some front.length := by
  induction front with
  | nil => rw [List.nil_append, List.findIdx?_cons, hc, if_pos rfl]; rfl
  | cons x front ih =>
    rw [List.cons_append, List.findIdx?_cons, hfront x List.mem_cons_self,
      if_neg Bool.false_ne_true, ih fun y hy => hfront y (List.mem_cons_of_mem x hy)]
    rfl

theorem Holding.strlen (h : Holding buf text) : strlen buf = some text.length := by
  obtain ⟨rest, rfl⟩ := h.split
  exact findIdx?_front (fun x hx => decide_eq_false (h.chars x hx)) (by decide) rest

theorem Holding.periodPos (h : Holding buf text) :
    periodPos buf = some (text.takeWhile (· ≠ '.')).length := by
  obtain ⟨rest, rfl⟩ := h.split
  have hsplit := @List.takeWhile_append_dropWhile _ (· ≠ '.') text
  have hfront : ∀ x ∈ text.takeWhile (· ≠ '.'), decide (x = nul ∨ x = '.') = false := by
    intro x hx
    have hpoint : x ≠ '.' := by simpa using List.mem_takeWhile_imp hx
    have hnul := h.chars x ((List.takeWhile_sublist _).subset hx)
    exact decide_eq_false (not_or.mpr ⟨hnul, hpoint⟩)
  cases hdrop : text.dropWhile (· ≠ '.') with
  | nil =>
    rw [hdrop, List.append_nil] at hsplit
    rw [hsplit] at hfront ⊢
    exact findIdx?_front hfront (decide_eq_true (Or.inl rfl)) rest
  | cons c back =>
    have hc := List.head?_dropWhile_not (· ≠ '.') text
    rw [hdrop] at hc
    have hpoint : c = '.' := by simpa using hc
    rw [hdrop, hpoint] at hsplit
    have hwhole : text ++ nul :: rest =
        text.takeWhile (· ≠ '.') ++ '.' :: (back ++ nul :: rest) := by
      conv_lhs => rw [← hsplit]
      rw [List.append_assoc, List.cons_append]
    rw [hwhole]
    exact findIdx?_front hfront (decide_eq_true (Or.inr rfl)) _

theorem Holding.length_lt (h : Holding buf text) : text.length < kpBufSize := by
  obtain ⟨rest, hsplit⟩ := h.split
  have hlength := congrArg List.length hsplit
  rw [h.length, List.length_append, List.length_cons] at hlength
  omega

theorem Holding.ended (h : Holding buf text) : nul ∈ buf := by
  obtain ⟨rest, rfl⟩ := h.split
  exact List.mem_append_right _ List.mem_cons_self

theorem Holding.take (h : Holding buf text) {n : Nat} (hn : n ≤ text.length) :
    buf.take n = text.take n := by
  obtain ⟨rest, rfl⟩ := h.split
  exact List.take_append_of_le_length hn

theorem store_eq {i : Nat} (hi : i < buf.length) (c : Char) :
    store buf i c = some (buf.take i ++ c :: buf.drop (i + 1)) := by
  rw [store, if_pos hi, List.set_eq_take_append_cons_drop, if_pos hi]

theorem endText_holding (hlength : buf.length = kpBufSize) {n : Nat} (hn : n < kpBufSize)
    (hchars : ∀ x ∈ buf.take n, x ≠ nul) :
    ∃ buf', endText n buf = some ⟨.cont, 0, buf'⟩ ∧ Holding buf' (buf.take n) := by
  have hstore := @store_eq buf n (by omega) nul
  rw [endText, hstore]
  refine ⟨_, rfl, ?_, hchars, _, rfl⟩
  rw [List.length_append, List.length_take, List.length_cons, List.length_drop, hlength]
  omega

theorem endText_append (h : Holding buf text) {c : Char} (hc : c ≠ nul)
    (hshort : text.length < numInputLen) :
    ∃ buf', (store buf text.length c).bind (endText (text.length + 1)) = some ⟨.cont, 0, buf'⟩ ∧
      Holding buf' (text ++ [c]) := by
  have hsize : kpBufSize = numInputLen + 2 := rfl
  obtain ⟨rest, hsplit⟩ := h.split
  have hlength := h.length
  have hstored : store buf text.length c = some (text ++ c :: rest) := by
    rw [store, if_pos (by omega), hsplit, List.set_append_right _ _ (Nat.le_refl _), Nat.sub_self,
      List.set_cons_zero]
  have htake : (text ++ c :: rest).take (text.length + 1) = text ++ [c] := by
    rw [List.take_append, List.take_of_length_le (Nat.le_succ _), Nat.add_sub_cancel_left]
    rfl
  have hlength' : (text ++ c :: rest).length = kpBufSize := by
    rw [hsplit] at hlength
    simpa using hlength
  have hchars : ∀ x ∈ (text ++ c :: rest).take (text.length + 1), x ≠ nul := by
    intro x hx
    rw [htake, List.mem_append, List.mem_singleton] at hx
    obtain hx | rfl := hx
    · exact h.chars x hx
    · exact hc
  obtain ⟨buf', hend, hholding⟩ := endText_holding hlength' (by omega) hchars
  rw [htake] at hholding
  rw [hstored]
  exact ⟨buf', hend, hholding⟩

theorem endText_take (h : Holding buf text) {n : Nat} (hn : n ≤ text.length) :
    ∃ buf', endText n buf = some ⟨.cont, 0, buf'⟩ ∧ Holding buf' (text.take n) := by
  have hlt := h.length_lt
  have htake := h.take hn
  obtain ⟨buf', hend, hholding⟩ := @endText_holding buf h.length n (by omega) fun x hx =>
    h.chars x ((List.take_sublist n text).subset (htake ▸ hx))
  rw [htake] at hholding
  exact ⟨buf', hend, hholding⟩

theorem endText_self (h : Holding buf text) :
    ∃ buf', endText text.length buf = some ⟨.cont, 0, buf'⟩ ∧ Holding buf' text := by
  obtain ⟨buf', hend, hholding⟩ := endText_take h (Nat.le_refl _)
  rw [List.take_length] at hholding
  exact ⟨buf', hend, hholding⟩

theorem minus_away {t : List Char} (h : Holding buf ('-' :: t)) :
    ∃ buf', ((moveDown buf).bind (endText t.length)) = some ⟨.cont, 0, buf'⟩ ∧ Holding buf' t := by
  have hlt := h.length_lt
  have hlength := h.length
  have hsize : kpBufSize = numInputLen + 2 := rfl
  obtain ⟨rest, hsplit⟩ := h.split
  rw [List.length_cons] at hlt
  have htake : ((buf.drop 1).take numInputLen ++ buf.drop numInputLen).take t.length = t := by
    have hdrop : buf.drop 1 = t ++ nul :: rest := by rw [hsplit]; rfl
    have hfirst : t.length ≤ ((t ++ nul :: rest).take numInputLen).length := by
      rw [List.length_take, List.length_append]
      omega
    rw [hdrop, List.take_append_of_le_length hfirst, List.take_take, Nat.min_eq_left (by omega),
      List.take_left]
  have hlength' : ((buf.drop 1).take numInputLen ++ buf.drop numInputLen).length = kpBufSize := by
    rw [List.length_append, List.length_take, List.length_drop, List.length_drop, hlength]
    rfl
  obtain ⟨buf', hend, hholding⟩ := endText_holding hlength' (n := t.length) (by omega) fun x hx =>
    h.chars x (List.mem_cons_of_mem _ (htake ▸ hx))
  rw [htake] at hholding
  rw [moveDown_eq hlength]
  exact ⟨buf', hend, hholding⟩

theorem minus_before (h : Holding buf text) {n : Nat} (hn : n ≤ text.length + 1)
    (hn' : n ≤ numInputLen) :
    ∃ buf', ((moveUp buf).bind fun buf => (store buf 0 '-').bind (endText n)) =
      some ⟨.cont, 0, buf'⟩ ∧ Holding buf' (('-' :: text).take n) := by
  have hlength := h.length
  have hsize : kpBufSize = numInputLen + 2 := rfl
  have hlength' : ('-' :: (buf.take numInputLen ++ buf.drop (numInputLen + 1))).length =
      kpBufSize := by
    rw [List.length_cons, List.length_append, List.length_take, List.length_drop, hlength]
    rfl
  have htake : ('-' :: (buf.take numInputLen ++ buf.drop (numInputLen + 1))).take n =
      ('-' :: text).take n := by
    cases n with
    | zero => rfl
    | succ n =>
      have hfirst : n ≤ (buf.take numInputLen).length := by
        rw [List.length_take]
        omega
      rw [List.take_succ_cons, List.take_succ_cons, List.take_append_of_le_length hfirst,
        List.take_take, Nat.min_eq_left (by omega), h.take (by omega)]
  have hchars : ∀ x ∈ ('-' :: text).take n, x ≠ nul := by
    intro x hx
    obtain rfl | hx := List.mem_cons.mp ((List.take_sublist n _).subset hx)
    · decide
    · exact h.chars x hx
  obtain ⟨buf', hend, hholding⟩ := endText_holding hlength' (by omega) (htake.symm ▸ hchars)
  rw [htake] at hholding
  rw [← Option.bind_assoc, moveUp_eq hlength]
  exact ⟨buf', hend, hholding⟩

theorem mem_takeWhile_length : (text.takeWhile (· ≠ '.')).length = text.length ↔ '.' ∉ text := by
  constructor
  · intro hlength hmem
    have hself := (List.takeWhile_prefix (· ≠ '.')).eq_of_length hlength
    rw [← hself] at hmem
    have hpoint := List.mem_takeWhile_imp hmem
    simp at hpoint
  · intro hmem
    have hself := @List.takeWhile_append_of_pos _ (fun x => decide (x ≠ '.')) text [] fun x hx =>
      decide_eq_true fun hx' => hmem (hx' ▸ hx)
    rw [List.append_nil, List.takeWhile_nil, List.append_nil] at hself
    rw [hself]

theorem digitChar_ne_nul (d : Fin 10) : digitChar d ≠ nul := by
  have htable : ∀ d : Fin 10, digitChar d ≠ nul := by decide
  exact htable d

/-- The key changes the text in the buffer as it should, and the input goes on. -/
def Types (maxlength : Nat) (buf text : List Char) (c : Key) : Prop :=
  ∃ buf', numKeypadClick maxlength c text.length buf = some ⟨.cont, 0, buf'⟩ ∧
    Holding buf' (typeKey maxlength text c)

theorem types_digit (h : Holding buf text) (hmax : maxlength ≤ numInputLen) (d : Fin 10) :
    Types maxlength buf text (.digit d) := by
  have hcloses : closes (.digit d) = false := rfl
  unfold Types numKeypadClick
  rw [hcloses, if_neg Bool.false_ne_true, typeKey]
  dsimp only
  by_cases hroom : text.length < maxlength
  · rw [if_pos hroom, if_pos hroom]
    exact endText_append h (digitChar_ne_nul d) (by omega)
  · rw [if_neg hroom, if_neg hroom]
    exact endText_self h

theorem types_period (h : Holding buf text) :
    Types maxlength buf text .period := by
  have hcloses : closes .period = false := rfl
  have hnew : periodPos buf = some text.length ↔ '.' ∉ text := by
    rw [h.periodPos, Option.some.injEq, mem_takeWhile_length]
  unfold Types numKeypadClick
  rw [hcloses, if_neg Bool.false_ne_true, typeKey]
  dsimp only
  by_cases hroom : text.length < maxlength ∧ '.' ∉ text ∧ maxlength = numInputLen
  · rw [if_pos hroom, if_pos ⟨hroom.1, hnew.mpr hroom.2.1, hroom.2.2⟩]
    exact endText_append h (by decide) (by omega)
  · rw [if_neg hroom, if_neg fun hroom' => hroom ⟨hroom'.1, hnew.mp hroom'.2.1, hroom'.2.2⟩]
    exact endText_self h

/-- A sign goes in front of the text, whose last character it can cost. -/
theorem minus_inserted (h : Holding buf text) (hmax : maxlength ≤ numInputLen)
    (htext : text.length ≤ maxlength) :
    ∃ buf', ((moveUp buf).bind fun buf => (store buf 0 '-').bind
      (endText (if text.length < maxlength then text.length + 1 else text.length))) =
        some ⟨.cont, 0, buf'⟩ ∧ Holding buf' (('-' :: text).take maxlength) := by
  split
  next hroom =>
    have hall : ('-' :: text).take maxlength = '-' :: text := List.take_of_length_le hroom
    have hsame : ('-' :: text).take (text.length + 1) = '-' :: text :=
      List.take_of_length_le (Nat.le_refl _)
    rw [hall, ← hsame]
    exact minus_before h (Nat.le_refl _) (by omega)
  next hroom =>
    obtain rfl : maxlength = text.length := by omega
    exact minus_before h (Nat.le_succ _) hmax

theorem types_minus (h : Holding buf text) (hmax : maxlength ≤ numInputLen)
    (htext : text.length ≤ maxlength) : Types maxlength buf text .minus := by
  have hcloses : closes .minus = false := rfl
  have hmore := minus_inserted h hmax htext
  unfold Types numKeypadClick
  rw [hcloses, if_neg Bool.false_ne_true, typeKey]
  dsimp only
  cases text with
  | nil =>
    have hfirst : buf[0]? = some nul := by
      obtain ⟨rest, rfl⟩ := h.split
      rfl
    have hnone : ¬ nul = '-' := by decide
    have hempty : ¬ ([] : List Char).head? = some '-' := by decide
    rw [hfirst, Option.bind_eq_bind, Option.bind_some, if_neg hnone, if_neg hempty]
    exact hmore
  | cons x t =>
    have hfirst : buf[0]? = some x := by
      obtain ⟨rest, rfl⟩ := h.split
      rfl
    rw [hfirst, Option.bind_eq_bind, Option.bind_some, List.head?_cons]
    by_cases hx : x = '-'
    · subst hx
      rw [if_pos rfl, if_pos rfl]
      exact minus_away h
    · have hx' : some x ≠ some '-' := fun heq => hx (Option.some.inj heq)
      rw [if_neg hx, if_neg hx']
      exact hmore

theorem types_bs (h : Holding buf text) (hne : text ≠ []) : Types maxlength buf text .bs := by
  have hcloses : closes .bs = false := rfl
  have hpos : text.length ≠ 0 := fun hzero => hne (List.length_eq_zero_iff.mp hzero)
  unfold Types numKeypadClick
  rw [hcloses, if_neg Bool.false_ne_true]
  dsimp only
  rw [if_neg hpos, typeKey, List.dropLast_eq_take]
  exact endText_take h (Nat.sub_le _ _)

theorem keypadClick_typing (h : Holding buf text) (hmax : maxlength ≤ numInputLen)
    (htext : text.length ≤ maxlength) {c : Key} (hends : ends text c = false) :
    ∃ buf', keypadClick maxlength c buf = some ⟨.cont, 0, buf'⟩ ∧
      Holding buf' (typeKey maxlength text c) := by
  have hclick : keypadClick maxlength c buf = numKeypadClick maxlength c text.length buf := by
    rw [keypadClick, h.strlen]
    rfl
  have hcloses : closes c = false := by
    simp [ends] at hends
    exact hends.1
  rw [hclick]
  cases c with
  | digit d => exact types_digit h hmax d
  | period => exact types_period h
  | minus => exact types_minus h hmax htext
  | bs =>
    have hne : text ≠ [] := by
      simpa [ends, hcloses] using hends
    exact types_bs h hne
  | k | M | G | m | u | n | p | x1 | enter | percent => cases hcloses

theorem typeKey_length (htext : text.length ≤ maxlength) (c : Key) :
    (typeKey maxlength text c).length ≤ maxlength := by
  cases c with
  | digit d =>
    rw [typeKey]
    split
    · rw [List.length_append, List.length_singleton]
      omega
    · exact htext
  | period =>
    rw [typeKey]
    split
    next hroom =>
      rw [List.length_append, List.length_singleton]
      omega
    · exact htext
  | minus =>
    rw [typeKey]
    split
    · rw [List.length_tail]
      omega
    · exact List.length_take_le _ _
  | bs =>
    rw [typeKey, List.length_dropLast]
    omega
  | k | M | G | m | u | n | p | x1 | enter | percent => exact htext

theorem keypadClick_ends (h : Holding buf text) {c : Key} (hends : ends text c = true) :
    keypadClick maxlength c buf =
      if text = [] then some ⟨.cancel, 0, buf⟩ else close c text.length buf := by
  have hclick : keypadClick maxlength c buf = numKeypadClick maxlength c text.length buf := by
    rw [keypadClick, h.strlen]
    rfl
  have hempty : text.length = 0 ↔ text = [] := List.length_eq_zero_iff
  rw [hclick]
  unfold numKeypadClick
  rw [ends, decide_eq_true_eq] at hends
  by_cases hcloses : closes c = true
  · rw [if_pos hcloses]
    simp only [hempty]
  · obtain ⟨rfl, rfl⟩ := hends.resolve_left hcloses
    rw [if_neg hcloses]
    rfl

theorem close_result {c : Key} {kpIndex : Nat} {r : Click} (h : close c kpIndex buf = some r) :
    r.result = .done := by
  unfold close at h
  split at h
  · obtain ⟨i, -, h⟩ := Option.bind_eq_some_iff.mp h
    obtain ⟨buf', -, h⟩ := Option.bind_eq_some_iff.mp h
    cases h
    rfl
  · obtain ⟨buf', -, h⟩ := Option.bind_eq_some_iff.mp h
    obtain ⟨buf'', -, h⟩ := Option.bind_eq_some_iff.mp h
    cases h
    rfl
  · cases h
    rfl

theorem keypadRun_entered (hmax : maxlength ≤ numInputLen) (h : Holding buf text)
    (htext : text.length ≤ maxlength) (keys : List Key) :
    ∃ buf', Holding buf' (entered maxlength keys text).1 ∧
      (entered maxlength keys text).1.length ≤ maxlength ∧
      match (entered maxlength keys text).2 with
      | none => keypadRun maxlength keys buf = some ⟨.cont, 0, buf'⟩
      | some c => ends (entered maxlength keys text).1 c = true ∧
          keypadRun maxlength keys buf = keypadClick maxlength c buf' := by
  induction keys generalizing buf text with
  | nil => exact ⟨buf, h, htext, rfl⟩
  | cons c keys ih =>
    rw [entered, keypadRun]
    cases hends : ends text c with
    | true =>
      rw [if_pos rfl]
      refine ⟨buf, h, htext, hends, ?_⟩
      have hclick := @keypadClick_ends maxlength buf text h c hends
      cases hr : keypadClick maxlength c buf with
      | none => rfl
      | some r =>
        have hresult : r.result ≠ .cont := by
          rw [hr] at hclick
          split at hclick
          · cases hclick
            exact fun h => by cases h
          · rw [close_result hclick.symm]
            decide
        rw [Option.bind_eq_bind, Option.bind_some, if_neg hresult]
    | false =>
      rw [if_neg Bool.false_ne_true]
      obtain ⟨buf', hclick, hholding⟩ := keypadClick_typing h hmax htext hends
      rw [hclick]
      exact ih hholding (typeKey_length htext c)

end Holding

end NanoVNA.KeypadInput
