import Mathlib.Logic.Function.Basic
import NanoVNA.SdCard

namespace NanoVNA.SdBlockStore

open NanoVNA.ByteBus NanoVNA.SdCard

section Store

abbrev Memory := Nat → List UInt8

def store : Nat → List UInt8 → Nat → Memory → Memory
  | 0, _, _, m => m
  | count + 1, buff, sector, m =>
    store count (buff.drop sdSectorSize) (sector + 1)
      (Function.update m sector (buff.take sdSectorSize))

def fetch : Nat → Nat → Memory → List UInt8
  | 0, _, _ => []
  | count + 1, sector, m => m sector ++ fetch count (sector + 1) m

def Outside (sector count s : Nat) : Prop := s < sector ∨ sector + count ≤ s

theorem store_outside {sector count s : Nat} (h : Outside sector count s) (buff : List UInt8)
    (m : Memory) : store count buff sector m s = m s := by
  induction count generalizing buff sector m with
  | zero => rfl
  | succ count ih =>
    unfold Outside at h ih
    rw [store, ih (by omega), Function.update_of_ne (by omega)]

theorem fetch_congr {sector count : Nat} {m m' : Memory}
    (h : ∀ s, sector ≤ s → s < sector + count → m s = m' s) :
    fetch count sector m = fetch count sector m' := by
  induction count generalizing sector with
  | zero => rfl
  | succ count ih =>
    rw [fetch, fetch, h sector (Nat.le_refl sector) (by omega),
      ih fun s hs hlt => h s (by omega) (by omega)]

theorem fetch_store {count : Nat} {buff : List UInt8}
    (hlength : buff.length = sdSectorSize * count) (sector : Nat) (m : Memory) :
    fetch count sector (store count buff sector m) = buff := by
  induction count generalizing buff sector m with
  | zero => exact (List.length_eq_zero_iff.mp hlength).symm
  | succ count ih =>
    have hrest : (buff.drop sdSectorSize).length = sdSectorSize * count := by
      rw [List.length_drop, hlength, Nat.mul_succ, Nat.add_sub_cancel]
    rw [fetch, store, store_outside (.inl (Nat.lt_succ_self sector)), Function.update_self,
      ih hrest, List.take_append_drop]

/-- What an operation may do to the memory; a write that fails may spoil the sector it failed at
and leaves those behind it alone. -/
inductive Written (count : Nat) (buff : List UInt8) (sector : Nat) (m : Memory) :
    Bool → Memory → Prop
  | all : Written count buff sector m true (store count buff sector m)
  | part {done : Nat} (h : done < count) (block : List UInt8) :
      Written count buff sector m false
        (Function.update (store done buff sector m) (sector + done) block)

theorem Written.succ {count sector : Nat} {buff : List UInt8} {m m' : Memory} {ok : Bool}
    (h : Written count (buff.drop sdSectorSize) (sector + 1)
      (Function.update m sector (buff.take sdSectorSize)) ok m') :
    Written (count + 1) buff sector m ok m' := by
  cases h with
  | all => exact .all
  | part hdone block =>
    rw [Nat.add_right_comm, Nat.add_assoc]
    exact .part (Nat.succ_lt_succ hdone) block

theorem Written.outside {count sector s : Nat} {buff : List UInt8} {m m' : Memory} {ok : Bool}
    (h : Written count buff sector m ok m') (hs : Outside sector count s) : m' s = m s := by
  unfold Outside at hs
  cases h with
  | all => exact store_outside hs buff m
  | part hdone block =>
    rw [Function.update_of_ne (by omega), store_outside (by unfold Outside; omega)]

end Store

section Contract

variable {σ : Type} (bus : Bus σ)

/-- The sector that an address stands for on a card that counts blocks, or bytes. -/
def sectorAt (blockAddressed : Bool) (addr : UInt32) : Nat :=
  if blockAddressed then addr.toNat else addr.toNat / sdSectorSize

/-- What the driver relies on of a card: it is selected and let go, and a dialogue does to its
memory what the dialogue says. -/
structure Card where
  blockAddressed : Bool
  memory : σ → Memory
  Idle : σ → Prop
  Ready : σ → Prop
  select : ∀ {s}, Idle s → Ready (bus.select s true) ∧ memory (bus.select s true) = memory s
  part : ∀ {s t d}, Ready s → Parting d → Speaks bus s d t → Idle t ∧ memory t = memory s
  wait : ∀ {s t d}, Ready s → Released d ∨ HeldBusy d → Speaks bus s d t →
    Ready t ∧ memory t = memory s
  read : ∀ {s t d addr block}, Ready s → BlockRead addr block d → Speaks bus s d t →
    Ready t ∧ memory t = memory s ∧ block = memory s (sectorAt blockAddressed addr)
  readRefused : ∀ {s t d addr}, Ready s → ReadRefused addr d → Speaks bus s d t →
    Ready t ∧ memory t = memory s
  write : ∀ {s t d addr block}, Ready s → block.length = sdSectorSize →
    BlockWritten addr block d → Speaks bus s d t →
    Ready t ∧ memory t = Function.update (memory s) (sectorAt blockAddressed addr) block
  writeRefused : ∀ {s t d addr block}, Ready s → block.length = sdSectorSize →
    WriteRefused addr block d → Speaks bus s d t →
    Ready t ∧ ∃ spoilt,
      memory t = Function.update (memory s) (sectorAt blockAddressed addr) spoilt

variable {bus} (card : Card bus)

def Known (cardStatus : UInt8) : Prop :=
  (cardStatus &&& ctBlock ≠ 0 ↔ card.blockAddressed = true)

/-- The sectors of an operation can be addressed. -/
def Within (sector : UInt32) (count : Nat) : Prop :=
  sector.toNat + count ≤ if card.blockAddressed then 2 ^ 32 else 2 ^ 23

variable {card}

theorem sectorAt_addressOf {cardStatus : UInt8} (hstatus : Known card cardStatus)
    {sector : UInt32} {count : Nat} (h : Within card sector (count + 1)) :
    sectorAt card.blockAddressed (addressOf cardStatus sector) = sector.toNat := by
  unfold Known at hstatus
  unfold Within at h
  unfold sectorAt addressOf
  by_cases hblock : card.blockAddressed = true
  · rw [if_pos hblock, if_pos (hstatus.mpr hblock)]
  · rw [if_neg hblock] at h
    have hbyte : (sector * 512).toNat = sector.toNat * 512 := by
      rw [UInt32.toNat_mul]
      exact Nat.mod_eq_of_lt (by simp; omega)
    rw [if_neg hblock, if_neg fun hon => hblock (hstatus.mp hon), hbyte]
    exact Nat.mul_div_cancel _ (by decide)

theorem within_succ {sector : UInt32} {count : Nat} (h : Within card sector (count + 1))
    (hcount : 0 < count) :
    (sector + 1).toNat = sector.toNat + 1 ∧ Within card (sector + 1) count := by
  have hlt : sector.toNat + (count + 1) ≤ 2 ^ 32 := by
    unfold Within at h
    split_ifs at h <;> omega
  have hnext : (sector + 1).toNat = sector.toNat + 1 := by
    rw [UInt32.toNat_add]
    exact Nat.mod_eq_of_lt (by simp; omega)
  refine ⟨hnext, ?_⟩
  unfold Within at h ⊢
  rw [hnext]
  omega

theorem readSession_fetches {cardStatus : UInt8} (hstatus : Known card cardStatus)
    {count left : Nat} {sector : UInt32} {buff : List UInt8} {d : List Signal}
    (hsession : ReadSession cardStatus count sector buff d left)
    (hwithin : Within card sector count)
    {s t : σ} (hs : card.Ready s) (h : Speaks bus s d t) :
    card.Ready t ∧ card.memory t = card.memory s ∧
      buff = fetch (count - left) sector.toNat (card.memory s) := by
  induction hsession generalizing s with
  | done sector =>
    obtain rfl := h
    exact ⟨hs, rfl, rfl⟩
  | refused hrefused =>
    obtain ⟨ht, hm⟩ := card.readRefused hs hrefused h
    exact ⟨ht, hm, by rw [Nat.sub_self]; rfl⟩
  | @block count left sector block buff d rest hblock hrest ih =>
    obtain ⟨u, hu, hmore⟩ := speaks_append h
    obtain ⟨hready, hm, hdata⟩ := card.read hs hblock hu
    rw [sectorAt_addressOf hstatus hwithin] at hdata
    have hleft := hrest.length.1
    rw [Nat.succ_sub hleft, fetch, hdata]
    rcases Nat.eq_zero_or_pos count with rfl | hpos
    · cases hrest
      obtain rfl := hmore
      exact ⟨hready, hm, rfl⟩
    · obtain ⟨hnext, hin⟩ := within_succ hwithin hpos
      obtain ⟨ht, hm', hbuff⟩ := ih hin hready hmore
      rw [hnext, hm] at hbuff
      exact ⟨ht, hm'.trans hm, by rw [← hbuff]⟩

theorem writeSession_stores {cardStatus : UInt8} (hstatus : Known card cardStatus)
    {count left : Nat} {buff : List UInt8} {sector : UInt32} {d : List Signal}
    (hsession : WriteSession cardStatus count buff sector d left)
    (hlength : buff.length = sdSectorSize * count) (hwithin : Within card sector count)
    {s t : σ} (hs : card.Ready s) (h : Speaks bus s d t) :
    card.Ready t ∧
      Written count buff sector.toNat (card.memory s) (decide (left = 0)) (card.memory t) := by
  induction hsession generalizing s with
  | done buff sector =>
    obtain rfl := h
    exact ⟨hs, .all⟩
  | @refused count buff sector d hrefused =>
    have htake : (buff.take sdSectorSize).length = sdSectorSize := by
      rw [List.length_take, hlength, Nat.mul_succ]
      omega
    obtain ⟨ht, spoilt, hm⟩ := card.writeRefused hs htake hrefused h
    rw [hm, sectorAt_addressOf hstatus hwithin]
    exact ⟨ht, .part (Nat.succ_pos count) spoilt⟩
  | @block count left buff sector d rest hblock hrest ih =>
    have htake : (buff.take sdSectorSize).length = sdSectorSize := by
      rw [List.length_take, hlength, Nat.mul_succ]
      omega
    have hdrop : (buff.drop sdSectorSize).length = sdSectorSize * count := by
      rw [List.length_drop, hlength, Nat.mul_succ, Nat.add_sub_cancel]
    obtain ⟨u, hu, hmore⟩ := speaks_append h
    obtain ⟨hready, hm⟩ := card.write hs htake hblock hu
    rw [sectorAt_addressOf hstatus hwithin] at hm
    rcases Nat.eq_zero_or_pos count with rfl | hpos
    · cases hrest
      obtain rfl := hmore
      rw [hm]
      exact ⟨hready, .all⟩
    · obtain ⟨hnext, hin⟩ := within_succ hwithin hpos
      obtain ⟨ht, hwritten⟩ := ih hdrop hin hready hmore
      rw [hm, hnext] at hwritten
      exact ⟨ht, hwritten.succ⟩

end Contract

section Operations

variable {σ : Type} (bus : Bus σ)

inductive Op
  | read (sector : UInt32) (count : Nat)
  | write (buff : List UInt8) (sector : UInt32) (count : Nat)

def perform (d : Disk σ) : Op → Disk σ × DResult × List UInt8
  | .read sector count => diskRead bus 0 sector count d
  | .write buff sector count =>
    ((diskWrite bus 0 buff sector count d).1, (diskWrite bus 0 buff sector count d).2, [])

def run (d : Disk σ) (ops : List Op) : Disk σ := ops.foldl (fun d op => (perform bus d op).1) d

inductive Effect (m : Memory) : Op → DResult → List UInt8 → Memory → Prop
  | fetched (sector : UInt32) (count : Nat) :
      Effect m (.read sector count) .ok (fetch count sector.toNat m) m
  | fetchedPart {sector : UInt32} {count done : Nat} (h : done < count) :
      Effect m (.read sector count) .error (fetch done sector.toNat m) m
  | stored {buff : List UInt8} {sector : UInt32} {count : Nat} {m' : Memory}
      (h : Written count buff sector.toNat m true m') :
      Effect m (.write buff sector count) .ok [] m'
  | storedPart {buff : List UInt8} {sector : UInt32} {count : Nat} {m' : Memory}
      (h : Written count buff sector.toNat m false m') :
      Effect m (.write buff sector count) .error [] m'
  | notReady (op : Op) : Effect m op .notRdy [] m
  | writeProtected (op : Op) : Effect m op .wrprt [] m

variable {bus} (card : Card bus)

def Fits : Op → Prop
  | .read sector count => Within card sector count
  | .write buff sector count => Within card sector count ∧ buff.length = sdSectorSize * count

/-- Between two operations the card is let go, and the driver knows how it counts. -/
def Rests (d : Disk σ) : Prop := card.Idle d.host.device ∧ Known card d.cardStatus

variable {card}

theorem perform_effect {d : Disk σ} (hd : Rests card d) {op : Op} (hop : Fits card op) :
    Rests card (perform bus d op).1 ∧
      Effect (card.memory d.host.device) op (perform bus d op).2.1 (perform bus d op).2.2
        (card.memory (perform bus d op).1.host.device) := by
  obtain ⟨hidle, hstatus⟩ := hd
  obtain ⟨hselected, hsame⟩ := card.select hidle
  cases op with
  | read sector count =>
    simp only [perform]
    rcases diskRead_session bus 0 sector count d with
      ⟨-, hoff⟩ | ⟨session, parting, left, hsession, hparting, hspoken, hkept, hlength, hresult⟩
    · rw [hoff]
      exact ⟨⟨hidle, hstatus⟩, .notReady _⟩
    obtain ⟨t, ht, hlast⟩ := speaks_append hspoken.speaks
    obtain ⟨hready, hm, hbuff⟩ := readSession_fetches hstatus hsession hop hselected ht
    obtain ⟨hrest, hm'⟩ := card.part hready hparting hlast
    rw [hm', hm, hsame, hresult, hbuff, hsame]
    refine ⟨⟨hrest, by rw [hkept]; exact hstatus⟩, ?_⟩
    split_ifs with hleft
    · rw [hleft]
      exact .fetched sector count
    · have hle := hsession.length.1
      exact .fetchedPart (by omega)
  | write buff sector count =>
    simp only [perform]
    rcases diskWrite_session bus 0 buff sector count d with
      ⟨-, hoff⟩ | ⟨-, hoff⟩ |
      ⟨session, last, parting, left, hsession, hend, hparting, hspoken, hkept, hresult⟩
    · rw [hoff]
      exact ⟨⟨hidle, hstatus⟩, .notReady _⟩
    · rw [hoff]
      exact ⟨⟨hidle, hstatus⟩, .writeProtected _⟩
    obtain ⟨u, hu, hlast⟩ := speaks_append hspoken.speaks
    obtain ⟨t, ht, hwait⟩ := speaks_append hu
    obtain ⟨hready, hwritten⟩ := writeSession_stores hstatus hsession hop.2 hop.1 hselected ht
    obtain ⟨hready', hm⟩ := card.wait hready hend hwait
    obtain ⟨hrest, hm'⟩ := card.part hready' hparting hlast
    rw [hm', hm, hresult]
    rw [hsame] at hwritten
    refine ⟨⟨hrest, by rw [hkept]; exact hstatus⟩, ?_⟩
    split_ifs with hleft
    · rw [decide_eq_true hleft] at hwritten
      exact .stored hwritten
    · rw [decide_eq_false hleft] at hwritten
      exact .storedPart hwritten

def Spares (s : Nat) : Op → Prop
  | .read _ _ => True
  | .write _ sector count => Outside sector.toNat count s

theorem Effect.spares {m m' : Memory} {op : Op} {result : DResult} {data : List UInt8}
    (h : Effect m op result data m') {s : Nat} (hs : Spares s op) : m' s = m s := by
  cases h with
  | fetched | fetchedPart | notReady | writeProtected => rfl
  | stored hwritten | storedPart hwritten => exact hwritten.outside hs

theorem run_spares {d : Disk σ} (hd : Rests card d) {ops : List Op}
    (hops : ∀ op ∈ ops, Fits card op) :
    Rests card (run bus d ops) ∧ ∀ s, (∀ op ∈ ops, Spares s op) →
      card.memory (run bus d ops).host.device s = card.memory d.host.device s := by
  induction ops generalizing d with
  | nil => exact ⟨hd, fun _ _ => rfl⟩
  | cons op ops ih =>
    obtain ⟨hfirst, hothers⟩ := List.forall_mem_cons.mp hops
    obtain ⟨hrest, heffect⟩ := perform_effect hd hfirst
    obtain ⟨hlast, hsame⟩ := ih hrest hothers
    refine ⟨hlast, fun s hs => ?_⟩
    obtain ⟨hspares, hmore⟩ := List.forall_mem_cons.mp hs
    exact (hsame s hmore).trans (heffect.spares hspares)

theorem effect_write_ok {m m' : Memory} {buff data : List UInt8} {sector : UInt32} {count : Nat}
    (h : Effect m (.write buff sector count) .ok data m') :
    m' = store count buff sector.toNat m := by
  cases h with
  | stored hwritten =>
    cases hwritten
    rfl

theorem effect_read_ok {m m' : Memory} {data : List UInt8} {sector : UInt32} {count : Nat}
    (h : Effect m (.read sector count) .ok data m') : data = fetch count sector.toNat m := by
  cases h
  rfl

/-- What a successful write has stored, a successful read finds again, after any operations
between them that write elsewhere, the failed ones included. -/
theorem read_after_write (before between : List Op) {d : Disk σ} (hd : Rests card d)
    {buff : List UInt8} {sector : UInt32} {count : Nat} (hbefore : ∀ op ∈ before, Fits card op)
    (hwrite : Fits card (.write buff sector count)) (hbetween : ∀ op ∈ between, Fits card op)
    (helsewhere : ∀ op ∈ between, ∀ s, sector.toNat ≤ s → s < sector.toNat + count → Spares s op)
    (hstored : (perform bus (run bus d before) (.write buff sector count)).2.1 = .ok)
    (hread : (perform bus (run bus (perform bus (run bus d before)
      (.write buff sector count)).1 between) (.read sector count)).2.1 = .ok) :
    (perform bus (run bus (perform bus (run bus d before)
      (.write buff sector count)).1 between) (.read sector count)).2.2 = buff := by
  obtain ⟨hready, -⟩ := run_spares hd hbefore
  obtain ⟨hrest, heffect⟩ := perform_effect hready hwrite
  rw [hstored] at heffect
  obtain ⟨hlast, hsame⟩ := run_spares hrest hbetween
  have hfits : Fits card (.read sector count) := hwrite.1
  obtain ⟨-, hfetched⟩ := perform_effect hlast hfits
  rw [hread] at hfetched
  rw [effect_read_ok hfetched, fetch_congr fun s hs hlt => hsame s fun op hop =>
    helsewhere op hop s hs hlt, effect_write_ok heffect, fetch_store hwrite.2]

end Operations

section PromptCard

/-- Where a card stands that answers every byte at once; bytes that have come are kept with the
last one first. -/
inductive Phase
  | command (got : List UInt8)
  | answer (cmd : UInt8) (addr : Nat)
  | reading (bytes : List UInt8)
  | waiting (addr : Nat)
  | writing (addr : Nat) (got : List UInt8)
  | accepting (addr : Nat) (got : List UInt8)

structure PromptCard where
  selected : Bool
  phase : Phase
  memory : Memory

def argumentOf (b₄ b₃ b₂ b₁ : UInt8) : Nat :=
  ((b₁.toNat * 256 + b₂.toNat) * 256 + b₃.toNat) * 256 + b₄.toNat

/-- A frame is over with its sixth byte, the checksum. -/
def takeFrame : List UInt8 → Phase
  | [_crc, b₄, b₃, b₂, b₁, cmd] => .answer cmd (argumentOf b₄ b₃ b₂ b₁)
  | got => .command got

def afterAnswer (cmd : UInt8) (addr : Nat) (m : Memory) : Phase :=
  if cmd = cmd17 then .reading (sdTokenStartBlock :: (m addr ++ [0xFF, 0xFF]))
  else if cmd = cmd24 then .waiting addr
  else .command []

def takeData (addr : Nat) (got : List UInt8) : Phase :=
  if got.length = sdSectorSize + 2 then .accepting addr got else .writing addr got

def exchange (c : PromptCard) (out : UInt8) : PromptCard × UInt8 :=
  if c.selected = false then (c, 0xFF)
  else
    match c.phase with
    | .command got =>
      if got = [] ∧ out = 0xFF then (c, 0xFF)
      else ({ c with phase := takeFrame (out :: got) }, 0xFF)
    | .answer cmd addr => ({ c with phase := afterAnswer cmd addr c.memory }, 0)
    | .reading bytes =>
      ({ c with phase := if bytes.tail = [] then .command [] else .reading bytes.tail },
        bytes.headD 0xFF)
    | .waiting addr =>
      (if out = sdTokenStartBlock then { c with phase := .writing addr [] } else c, 0xFF)
    | .writing addr got => ({ c with phase := takeData addr (out :: got) }, 0xFF)
    | .accepting addr got =>
      ({ c with
          phase := .command []
          memory := Function.update c.memory addr (got.reverse.take sdSectorSize) },
        sdTokenDataAccepted)

def promptBus : Bus PromptCard where
  exchange := exchange
  select c selected := { c with selected := selected }
  patience _ _ := 0
  depth := 4
  depth_pos := by decide

def Whole (c : PromptCard) : Prop := ∀ s, (c.memory s).length = sdSectorSize

def PromptReady (c : PromptCard) : Prop :=
  c.selected = true ∧ c.phase = .command [] ∧ Whole c

theorem speaks_free {c t : PromptCard} (hon : c.selected = true)
    (hphase : c.phase = .command [] ∨ ∃ addr, c.phase = .waiting addr) {bs : List UInt8}
    (h : Speaks promptBus c (heard bs) t) : t = c ∧ ∀ b ∈ bs, b = 0xFF := by
  have hstep : exchange c 0xFF = (c, 0xFF) := by
    rcases hphase with hphase | ⟨addr, hphase⟩ <;> simp [exchange, hon, hphase, sdTokenStartBlock]
  induction bs with
  | nil => exact ⟨h, by simp⟩
  | cons b bs ih =>
    obtain ⟨hb, hrest⟩ := h
    change (exchange c 0xFF).2 = b at hb
    change Speaks promptBus (exchange c 0xFF).1 (heard bs) t at hrest
    rw [hstep] at hb hrest
    obtain ⟨ht, hall⟩ := ih hrest
    exact ⟨ht, List.forall_mem_cons.mpr ⟨hb.symm, hall⟩⟩

theorem speaks_released {c t : PromptCard} (hon : c.selected = true)
    (hphase : c.phase = .command [] ∨ ∃ addr, c.phase = .waiting addr) {d : List Signal}
    (hd : Released d) (h : Speaks promptBus c d t) : t = c := by
  obtain ⟨busy, -, rfl⟩ := hd
  exact (speaks_free hon hphase h).1

theorem not_heldBusy {c t : PromptCard} (hon : c.selected = true)
    (hphase : c.phase = .command [] ∨ ∃ addr, c.phase = .waiting addr) {d : List Signal}
    (hd : HeldBusy d) (h : Speaks promptBus c d t) : False := by
  obtain ⟨busy, hsome, hbusy, rfl⟩ := hd
  obtain ⟨b, hb⟩ := List.exists_mem_of_ne_nil busy hsome
  exact hbusy b hb ((speaks_free hon hphase h).2 b hb)

theorem argumentOf_bytes (arg : UInt32) :
    argumentOf arg.toUInt8 (arg >>> 8).toUInt8 (arg >>> 16).toUInt8 (arg >>> 24).toUInt8 =
      arg.toNat := by
  have hlt := arg.toNat_lt
  simp only [argumentOf, UInt32.toNat_toUInt8, UInt32.toNat_shiftRight, UInt32.reduceToNat,
    Nat.shiftRight_eq_div_pow, Nat.reduceMod, Nat.reducePow]
  omega

theorem speaks_frame {c t : PromptCard} (hon : c.selected = true) (hphase : c.phase = .command [])
    {cmd : UInt8} {arg : UInt32} (hcmd : cmd &&& 0x7F ≠ 0xFF) {d : List Signal}
    (hd : Sends (frameOf cmd arg) d) (h : Speaks promptBus c d t) :
    t = { c with phase := .answer (cmd &&& 0x7F) arg.toNat } := by
  obtain ⟨selected, phase, memory⟩ := c
  obtain rfl : selected = true := hon
  obtain rfl : phase = .command [] := hphase
  obtain ⟨backs, hlength, rfl⟩ := hd
  rcases backs with _ | ⟨b₁, _ | ⟨b₂, _ | ⟨b₃, _ | ⟨b₄, _ | ⟨b₅, _ | ⟨b₆, _ | ⟨b₇, backs⟩⟩⟩⟩⟩⟩⟩ <;>
    simp [frameOf] at hlength
  simp only [frameOf, List.zipWith_cons_cons, List.zipWith_nil_left, Speaks, promptBus, exchange,
    takeFrame, hcmd, and_false, if_false, Bool.true_eq_false, reduceCtorEq, false_and,
    argumentOf_bytes] at h
  exact h.2.2.2.2.2.2

theorem speaks_answer {c t : PromptCard} (hon : c.selected = true) {cmd : UInt8} {addr : Nat}
    (hphase : c.phase = .answer cmd addr) {waits : List UInt8} {r1 : UInt8}
    (hwaits : ∀ b ∈ waits, b &&& 0x80 ≠ 0)
    (h : Speaks promptBus c (heard (waits ++ [r1])) t) :
    r1 = 0 ∧ t = { c with phase := afterAnswer cmd addr c.memory } := by
  have hstep : exchange c 0xFF = ({ c with phase := afterAnswer cmd addr c.memory }, 0) := by
    simp [exchange, hon, hphase]
  cases waits with
  | nil =>
    obtain ⟨hr1, ht⟩ := h
    change (exchange c 0xFF).2 = r1 at hr1
    change t = (exchange c 0xFF).1 at ht
    rw [hstep] at hr1 ht
    exact ⟨hr1.symm, ht⟩
  | cons b waits =>
    have hb : (exchange c 0xFF).2 = b := h.1
    rw [hstep] at hb
    have hbad := hwaits b List.mem_cons_self
    rw [← hb] at hbad
    exact absurd (show (0 : UInt8) &&& 0x80 = 0 by decide) hbad

theorem speaks_answered {c t : PromptCard} (hon : c.selected = true)
    (hphase : c.phase = .command []) {cmd r1 : UInt8} {arg : UInt32} (hcmd : cmd &&& 0x7F ≠ 0xFF)
    {d : List Signal} (hd : Answered cmd arg r1 d) (h : Speaks promptBus c d t) :
    r1 = 0 ∧ t = { c with phase := afterAnswer (cmd &&& 0x7F) arg.toNat c.memory } := by
  obtain ⟨free, frame, waits, hfree, hframe, hwaits, -, rfl⟩ := hd
  obtain ⟨v, hv, hanswer⟩ := speaks_append h
  obtain ⟨u, hu, hsent⟩ := speaks_append hv
  obtain rfl := speaks_released hon (.inl hphase) hfree hu
  obtain rfl := speaks_frame hon hphase hcmd hframe hsent
  exact speaks_answer (c := { u with phase := .answer (cmd &&& 0x7F) arg.toNat }) hon rfl hwaits
    hanswer

theorem speaks_reading {m : Memory} {t : PromptCard} {bytes bs : List UInt8}
    (hsome : bytes ≠ []) (hlength : bs.length = bytes.length)
    (h : Speaks promptBus ⟨true, .reading bytes, m⟩ (heard bs) t) :
    bs = bytes ∧ t = ⟨true, .command [], m⟩ := by
  induction bytes generalizing bs with
  | nil => exact absurd rfl hsome
  | cons b bytes ih =>
    cases bs with
    | nil => exact absurd hlength (by simp)
    | cons b' bs =>
      obtain ⟨hb, hrest⟩ := h
      obtain rfl : b = b' := hb
      by_cases hlast : bytes = []
      · subst hlast
        obtain rfl := List.length_eq_zero_iff.mp (Nat.succ.inj hlength)
        exact ⟨rfl, hrest⟩
      · have hnext : exchange ⟨true, .reading (b :: bytes), m⟩ 0xFF =
            (⟨true, .reading bytes, m⟩, b) := by simp [exchange, hlast]
        change Speaks promptBus (exchange ⟨true, .reading (b :: bytes), m⟩ 0xFF).1 _ t at hrest
        rw [hnext] at hrest
        obtain ⟨rfl, ht⟩ := ih hlast (Nat.succ.inj hlength) hrest
        exact ⟨rfl, ht⟩

theorem speaks_writing {m : Memory} {addr : Nat} {t : PromptCard} {outs got : List UInt8}
    {d : List Signal} (hsome : outs ≠ [])
    (hlength : outs.length + got.length = sdSectorSize + 2) (hd : Sends outs d)
    (h : Speaks promptBus ⟨true, .writing addr got, m⟩ d t) :
    t = ⟨true, .accepting addr (outs.reverse ++ got), m⟩ := by
  induction outs generalizing got d with
  | nil => exact absurd rfl hsome
  | cons out outs ih =>
    obtain ⟨backs, hbacks, rfl⟩ := hd
    cases backs with
    | nil => exact absurd hbacks (by simp)
    | cons b backs =>
      obtain ⟨-, hrest⟩ := h
      change Speaks promptBus ⟨true, takeData addr (out :: got), m⟩ _ t at hrest
      by_cases hlast : outs = []
      · subst hlast
        have hfull : takeData addr (out :: got) = .accepting addr (out :: got) :=
          if_pos (by simpa [Nat.add_comm] using hlength)
        rw [hfull] at hrest
        exact hrest
      · have hmore : takeData addr (out :: got) = .writing addr (out :: got) := by
          refine if_neg fun hfull => hlast (List.length_eq_zero_iff.mp ?_)
          simp only [List.length_cons] at hfull hlength
          omega
        rw [hmore] at hrest
        simp only [List.length_cons] at hlength
        rw [ih hlast (by simp only [List.length_cons]; omega)
          ⟨backs, Nat.succ.inj hbacks, rfl⟩ hrest]
        simp

theorem prompt_read {c t : PromptCard} (hc : PromptReady c) {addr : UInt32} {block : List UInt8}
    {d : List Signal} (hd : BlockRead addr block d) (h : Speaks promptBus c d t) :
    t = c ∧ block = c.memory addr.toNat := by
  obtain ⟨selected, phase, memory⟩ := c
  obtain ⟨hon, hphase, hwhole⟩ := hc
  obtain rfl : selected = true := hon
  obtain rfl : phase = .command [] := hphase
  obtain ⟨command, waits, crc, hcommand, hwaits, hlength, hcrc, rfl⟩ := hd
  rw [List.append_assoc, List.append_assoc, ← heard_append, ← heard_append] at h
  obtain ⟨u, hu, hdata⟩ := speaks_append h
  obtain ⟨-, rfl⟩ := speaks_answered rfl rfl (by decide : cmd17 &&& 0x7F ≠ 0xFF) hcommand hu
  cases waits with
  | cons b waits =>
    have hb : sdTokenStartBlock = b := hdata.1
    exact absurd hb.symm (hwaits b List.mem_cons_self)
  | nil =>
    have hmemory := hwhole addr.toNat
    obtain ⟨hbytes, rfl⟩ := speaks_reading (List.cons_ne_nil _ _)
      (by simp [hlength, hcrc, hmemory]) hdata
    simp only [List.nil_append, List.cons_append, List.cons.injEq, true_and] at hbytes
    exact ⟨rfl, (List.append_inj hbytes (by rw [hlength, hmemory])).1⟩

theorem prompt_write {c t : PromptCard} (hc : PromptReady c) {addr : UInt32} {block : List UInt8}
    {accept : UInt8} (hblock : block.length = sdSectorSize) {d : List Signal}
    (hd : BlockSent addr block accept d) (h : Speaks promptBus c d t) :
    accept = sdTokenDataAccepted ∧
      t = { c with memory := Function.update c.memory addr.toNat block } := by
  obtain ⟨selected, phase, memory⟩ := c
  obtain ⟨hon, hphase, -⟩ := hc
  obtain rfl : selected = true := hon
  obtain rfl : phase = .command [] := hphase
  obtain ⟨command, free, data, waits, hcommand, hfree, hdata, hwaits, -, rfl⟩ := hd
  obtain ⟨w, hw, haccept⟩ := speaks_append h
  obtain ⟨v, hv, hsent⟩ := speaks_append hw
  obtain ⟨u, hu, hidle⟩ := speaks_append hv
  obtain ⟨-, rfl⟩ := speaks_answered rfl rfl (by decide : cmd24 &&& 0x7F ≠ 0xFF) hcommand hu
  obtain rfl := speaks_released rfl (.inr ⟨addr.toNat, rfl⟩) hfree hidle
  obtain ⟨backs, hbacks, rfl⟩ := hdata
  cases backs with
  | nil => exact absurd hbacks (by simp)
  | cons b backs =>
    have hrest : Speaks promptBus ⟨true, .writing addr.toNat [], memory⟩
        (List.zipWith Signal.byte (block ++ [0xFF, 0xFF]) backs) w := hsent.2
    obtain rfl := speaks_writing (by simp) (by simp [hblock]) ⟨backs, Nat.succ.inj hbacks, rfl⟩
      hrest
    cases waits with
    | cons b waits =>
      have hb : sdTokenDataAccepted = b := haccept.1
      rw [hwaits b List.mem_cons_self] at hb
      exact absurd hb (by decide)
    | nil =>
      obtain ⟨hb, ht⟩ := haccept
      refine ⟨hb.symm, ht.trans ?_⟩
      simp [promptBus, exchange, ← hblock]

theorem not_readRefused {c t : PromptCard} (hc : PromptReady c) {addr : UInt32} {d : List Signal}
    (hd : ReadRefused addr d) (h : Speaks promptBus c d t) : False := by
  obtain ⟨hon, hphase, -⟩ := hc
  rcases hd with hheld | ⟨r1, hr1, hanswered⟩ | ⟨command, waits, hanswered, hsome, hwaits, rfl⟩
  · exact not_heldBusy hon (.inl hphase) hheld h
  · exact hr1 (speaks_answered hon hphase (by decide : cmd17 &&& 0x7F ≠ 0xFF) hanswered h).1
  · obtain ⟨u, hu, hdata⟩ := speaks_append h
    obtain ⟨-, rfl⟩ :=
      speaks_answered hon hphase (by decide : cmd17 &&& 0x7F ≠ 0xFF) hanswered hu
    cases waits with
    | nil => exact hsome rfl
    | cons b waits =>
      have hstep : (exchange { c with phase := afterAnswer cmd17 addr.toNat c.memory } 0xFF).2 =
          sdTokenStartBlock := by simp [exchange, hon, afterAnswer]
      have hb : sdTokenStartBlock = b := hstep.symm.trans hdata.1
      exact hwaits b List.mem_cons_self hb.symm

theorem not_writeRefused {c t : PromptCard} (hc : PromptReady c) {addr : UInt32}
    {block : List UInt8} (hblock : block.length = sdSectorSize) {d : List Signal}
    (hd : WriteRefused addr block d) (h : Speaks promptBus c d t) : False := by
  obtain ⟨hon, hphase, hwhole⟩ := hc
  rcases hd with hheld | ⟨r1, hr1, hanswered⟩ | ⟨command, busy, hanswered, hheld, rfl⟩ |
    ⟨accept, hbad, hsent⟩ | ⟨sent, busy, accept, -, hsent, hheld, rfl⟩
  · exact not_heldBusy hon (.inl hphase) hheld h
  · exact hr1 (speaks_answered hon hphase (by decide : cmd24 &&& 0x7F ≠ 0xFF) hanswered h).1
  · obtain ⟨u, hu, hbusy⟩ := speaks_append h
    obtain ⟨-, rfl⟩ :=
      speaks_answered hon hphase (by decide : cmd24 &&& 0x7F ≠ 0xFF) hanswered hu
    refine not_heldBusy ?_ (.inr ⟨addr.toNat, rfl⟩) hheld hbusy
    exact hon
  · rw [(prompt_write ⟨hon, hphase, hwhole⟩ hblock hsent h).1] at hbad
    exact hbad rfl
  · obtain ⟨u, hu, hbusy⟩ := speaks_append h
    obtain ⟨-, rfl⟩ := prompt_write ⟨hon, hphase, hwhole⟩ hblock hsent hu
    refine not_heldBusy ?_ (.inl ?_) hheld hbusy
    · exact hon
    · exact hphase

theorem speaks_parting {c t : PromptCard} {d : List Signal} (hd : Parting d)
    (h : Speaks promptBus c d t) : t = { c with selected := false } := by
  obtain ⟨back, rfl⟩ := hd
  exact h.2

theorem prompt_written {c t : PromptCard} (hc : PromptReady c) {addr : UInt32}
    {block : List UInt8} (hblock : block.length = sdSectorSize) {d : List Signal}
    (hd : BlockWritten addr block d) (h : Speaks promptBus c d t) :
    PromptReady t ∧ t.memory = Function.update c.memory addr.toNat block := by
  obtain ⟨sent, free, accept, -, hsent, hfree, rfl⟩ := hd
  obtain ⟨u, hu, hreleased⟩ := speaks_append h
  obtain ⟨-, rfl⟩ := prompt_write hc hblock hsent hu
  obtain ⟨hon, hphase, hwhole⟩ := hc
  obtain rfl := speaks_released (c := { c with
    memory := Function.update c.memory addr.toNat block }) hon (.inl hphase) hfree hreleased
  refine ⟨⟨hon, hphase, fun s => ?_⟩, rfl⟩
  simp only [Function.update_apply]
  split_ifs
  · exact hblock
  · exact hwhole s

def promptCard : Card promptBus where
  blockAddressed := true
  memory := PromptCard.memory
  Idle c := c.selected = false ∧ c.phase = .command [] ∧ Whole c
  Ready := PromptReady
  select h := ⟨⟨rfl, h.2⟩, rfl⟩
  part h hd hs := by
    obtain rfl := speaks_parting hd hs
    exact ⟨⟨rfl, h.2⟩, rfl⟩
  wait h hd hs := by
    rcases hd with hd | hd
    · obtain rfl := speaks_released h.1 (.inl h.2.1) hd hs
      exact ⟨h, rfl⟩
    · exact (not_heldBusy h.1 (.inl h.2.1) hd hs).elim
  read h hd hs := by
    obtain ⟨rfl, hblock⟩ := prompt_read h hd hs
    exact ⟨h, rfl, hblock⟩
  readRefused h hd hs := (not_readRefused h hd hs).elim
  write h hlength hd hs := prompt_written h hlength hd hs
  writeRefused h hlength hd hs := (not_writeRefused h hlength hd hs).elim

def blankDisk : Disk PromptCard :=
  ⟨⟨⟨false, .command [], fun _ => List.replicate sdSectorSize 0⟩, [], []⟩,
    ctPowerOn ||| ctSd2 ||| ctBlock⟩

def sevens : List UInt8 := List.replicate sdSectorSize 7

theorem rests_blankDisk : Rests promptCard blankDisk :=
  ⟨⟨rfl, rfl, fun _ => List.length_replicate⟩, by unfold Known; decide⟩

theorem read_after_write_sevens :
    (perform promptBus (run promptBus (perform promptBus (run promptBus blankDisk [])
      (.write sevens 5 1)).1 [.read 3 1]) (.read 5 1)).2.2 = sevens :=
  read_after_write [] [.read 3 1] rests_blankDisk (by simp)
    ⟨by unfold Within; decide, List.length_replicate⟩
    (by simp [Fits, Within, promptCard]) (by simp [Spares]) (by decide +kernel) (by decide +kernel)

end PromptCard

end NanoVNA.SdBlockStore
