import Mathlib.Logic.Function.Iterate
import NanoVNA.ByteBus

namespace NanoVNA.SdCard

open NanoVNA.ByteBus

/-! ### Commands, answers and tokens -/

def cmd0 : UInt8 := 0x40

def cmd1 : UInt8 := 0x41

def cmd8 : UInt8 := 0x48

def cmd12 : UInt8 := 0x4C

def cmd16 : UInt8 := 0x50

def cmd17 : UInt8 := 0x51

def cmd24 : UInt8 := 0x58

def cmd55 : UInt8 := 0x77

def cmd58 : UInt8 := 0x7A

/-- Sent after `CMD55`; the high bit marks it for the driver only. -/
def acmd41 : UInt8 := 0xE9

def ctMmc : UInt8 := 0x01

def ctSd1 : UInt8 := 0x02

def ctSd2 : UInt8 := 0x04

def ctBlock : UInt8 := 0x08

def ctWrprotect : UInt8 := 0x40

def ctPowerOn : UInt8 := 0x80

def sdR1Idle : UInt8 := 0x01

def sdTokenStartBlock : UInt8 := 0xFE

def sdTokenDataAccepted : UInt8 := 0x05

def sdOcrVddMask : UInt32 := 0xFF80000

def sdOcrCcs : UInt32 := 0x40000000

def sdOcrPowerUp : UInt32 := 0x80000000

def sdOcrCapacity : UInt32 := 0x40000000

def sdSectorSize : Nat := 512

inductive DResult
  | ok
  | error
  | wrprt
  | notRdy
  deriving DecidableEq, Repr

structure Disk (σ : Type) where
  host : Host σ
  cardStatus : UInt8

variable {σ : Type} (bus : Bus σ)

section Bus

def spiTxByte (data : UInt8) (h : Host σ) : Host σ := clock bus data h

def spiTxBuffer (buffer : List UInt8) (h : Host σ) : Host σ := send bus buffer h

def spiRxByte (h : Host σ) : Host σ × UInt8 := receive bus h

def spiRxBuffer (len : Nat) (h : Host σ) : Host σ × List UInt8 := receiveMany bus len h

def spiDropRx (h : Host σ) : Host σ := drop h

def sdSelectSpi (h : Host σ) : Host σ := setSelected bus true h

def sdUnselectSpi (h : Host σ) : Host σ := (spiRxByte bus (setSelected bus false h)).1

/-- The first read is not counted. -/
def sdReadR1 (cnt : Nat) (h : Host σ) : Host σ × UInt8 :=
  poll bus (fun r1 => r1 &&& 0x80 ≠ 0) (cnt - 1) (spiDropRx h)

def sdWaitDataToken (token : UInt8) (waitTime : Nat) (h : Host σ) : Host σ × Bool :=
  let h := spiDropRx h
  let (h, res) := poll bus (fun res => res ≠ token) (bus.patience h.device waitTime) h
  (h, res = token)

def sdWaitDataAccept (cnt : Nat) (h : Host σ) : Host σ × UInt8 :=
  let (h, res) := poll bus (fun res => res = 0xFF) (cnt - 1) (spiDropRx h)
  (h, res &&& 0x1F)

def sdWaitNotBusy (waitTime : Nat) (h : Host σ) : Host σ × UInt8 :=
  let h := spiDropRx h
  let (h, res) := poll bus (fun res => res ≠ 0xFF) (bus.patience h.device waitTime) h
  (h, if res = 0xFF then res else 0)

def be32 (buf : List UInt8) : UInt32 :=
  ((buf.getD 0 0).toUInt32 <<< 24) ||| ((buf.getD 1 0).toUInt32 <<< 16) |||
    ((buf.getD 2 0).toUInt32 <<< 8) ||| (buf.getD 3 0).toUInt32

def sdReadBe32 (h : Host σ) : Host σ × UInt32 :=
  let (h, buf) := spiRxBuffer bus 4 h
  (h, be32 buf)

/-- No block when the token does not come; the two bytes of the checksum are read and not
looked at. -/
def sdRxDataBlock (len : Nat) (token : UInt8) (h : Host σ) : Host σ × Option (List UInt8) :=
  let (h, started) := sdWaitDataToken bus token 100 h
  if started then
    let (h, buff) := spiRxBuffer bus len h
    let (h, _crc) := spiRxBuffer bus 2 h
    (h, some buff)
  else (h, none)

def sdTxDataBlock (buff : List UInt8) (token : UInt8) (h : Host σ) : Host σ × Bool :=
  let (h, ready) := sdWaitNotBusy bus 2000 h
  if ready ≠ 0xFF then (h, false)
  else
    let h := spiTxByte bus token h
    let h := spiTxBuffer bus buff h
    let h := spiTxByte bus 0xFF h
    let h := spiTxByte bus 0xFF h
    let (h, r1) := sdWaitDataAccept bus 100 h
    if r1 ≠ sdTokenDataAccepted then (h, false)
    else
      let (h, ready) := sdWaitNotBusy bus 2000 h
      (h, ready = 0xFF)

/-- The six bytes of a command; two commands are sent with their real checksum. -/
def frameOf (cmd : UInt8) (arg : UInt32) : List UInt8 :=
  [cmd &&& 0x7F, (arg >>> 24).toUInt8, (arg >>> 16).toUInt8, (arg >>> 8).toUInt8, arg.toUInt8,
    if cmd = cmd0 then 0x95 else if cmd = cmd8 then 0x87 else 0x01]

/-- What `sd_send_cmd` does for any command but the prefix of an application command. -/
def sdSendPlainCmd (cmd : UInt8) (arg : UInt32) (h : Host σ) : Host σ × UInt8 :=
  let (h, ready) := sdWaitNotBusy bus 200 h
  if ready = 0xFF then
    let h := spiTxBuffer bus (frameOf cmd arg) h
    let h := if cmd = cmd12 then (spiRxByte bus h).1 else h
    sdReadR1 bus 100 h
  else (h, 0xFF)

def sdSendCmd (cmd : UInt8) (arg : UInt32) (h : Host σ) : Host σ × UInt8 :=
  if cmd &&& 0x80 ≠ 0 then
    let (h, r1) := sdSendPlainCmd bus cmd55 0 h
    if 1 < r1 then (h, r1) else sdSendPlainCmd bus cmd arg h
  else sdSendPlainCmd bus cmd arg h

end Bus

section Disk

def addressOf (cardStatus : UInt8) (sector : UInt32) : UInt32 :=
  if cardStatus &&& ctBlock ≠ 0 then sector else sector * 512

/-- The loop of `disk_read`: what is left of the count, and the bytes that were stored. -/
def readBlocks (cardStatus : UInt8) : Nat → UInt32 → Host σ → Host σ × Nat × List UInt8
  | 0, _, h => (h, 0, [])
  | count + 1, sector, h =>
    let (h, r1) := sdSendCmd bus cmd17 (addressOf cardStatus sector) h
    if r1 ≠ 0 then (h, count + 1, [])
    else
      let (h, block) := sdRxDataBlock bus sdSectorSize sdTokenStartBlock h
      if block.isNone then (h, count + 1, [])
      else
        let (h, left, buff) := readBlocks cardStatus count (sector + 1) h
        (h, left, block.getD [] ++ buff)

def diskRead (pdrv : UInt8) (sector : UInt32) (count : Nat) (d : Disk σ) :
    Disk σ × DResult × List UInt8 :=
  if pdrv ≠ 0 ∨ d.cardStatus &&& ctPowerOn = 0 then (d, .notRdy, [])
  else
    let (h, left, buff) := readBlocks bus d.cardStatus count sector (sdSelectSpi bus d.host)
    ({ d with host := sdUnselectSpi bus h }, if left ≠ 0 then .error else .ok, buff)

/-- The loop of `disk_write`: what is left of the count. -/
def writeBlocks (cardStatus : UInt8) : Nat → List UInt8 → UInt32 → Host σ → Host σ × Nat
  | 0, _, _, h => (h, 0)
  | count + 1, buff, sector, h =>
    let (h, r1) := sdSendCmd bus cmd24 (addressOf cardStatus sector) h
    if r1 ≠ 0 then (h, count + 1)
    else
      let (h, accepted) := sdTxDataBlock bus (buff.take sdSectorSize) sdTokenStartBlock h
      if accepted then writeBlocks cardStatus count (buff.drop sdSectorSize) (sector + 1) h
      else (h, count + 1)

def diskWrite (pdrv : UInt8) (buff : List UInt8) (sector : UInt32) (count : Nat) (d : Disk σ) :
    Disk σ × DResult :=
  if pdrv ≠ 0 ∨ d.cardStatus &&& ctPowerOn = 0 then (d, .notRdy)
  else if d.cardStatus &&& ctWrprotect ≠ 0 then (d, .wrprt)
  else
    let (h, left) := writeBlocks bus d.cardStatus count buff sector (sdSelectSpi bus d.host)
    let (h, _ready) := sdWaitNotBusy bus 2000 h
    ({ d with host := sdUnselectSpi bus h }, if left ≠ 0 then .error else .ok)

end Disk

section Identification

/-- Ask for the end of the card's own initialisation; the answer and what is left of the
count. -/
def opCondLoop (cmd : UInt8) (arg : UInt32) : Nat → Host σ → Host σ × UInt8 × Nat
  | 0, h => (h, 0xFF, 0)
  | cnt + 1, h =>
    let (h, r1) := sdSendCmd bus cmd arg h
    if r1 = 0 then (h, r1, cnt + 1)
    else if cnt = 0 then (h, r1, 0)
    else opCondLoop cmd arg cnt h

def typeOf (ocr : UInt32) : UInt8 :=
  if ocr &&& sdOcrPowerUp ≠ 0 ∧ ocr &&& sdOcrVddMask ≠ 0 then
    if ocr &&& sdOcrCcs ≠ 0 then ctSd2 ||| ctBlock else ctSd2
  else 0

/-- A card of the second version, which has answered `CMD8`. -/
def identifySd2 (h : Host σ) : Host σ × UInt8 :=
  let (h, r7) := spiRxBuffer bus 4 h
  if r7.getD 2 0 = 0x01 ∧ r7.getD 3 0 = 0xAA then
    let (h, r1, cnt) := opCondLoop bus acmd41 (sdOcrVddMask ||| sdOcrCapacity) 100 h
    if r1 = 0 ∧ cnt ≠ 0 then
      let (h, r1) := sdSendCmd bus cmd58 0 h
      if r1 = 0 then
        let (h, ocr) := sdReadBe32 bus h
        (h, typeOf ocr)
      else (h, 0)
    else (h, 0)
  else (h, 0)

def identifyOld (h : Host σ) : Host σ × UInt8 :=
  let (h, r1) := sdSendCmd bus acmd41 sdOcrVddMask h
  let cmd := if r1 ≤ 1 then acmd41 else cmd1
  let (h, r1, cnt) := opCondLoop bus cmd (if cmd = acmd41 then sdOcrVddMask else 0) 100 h
  if r1 = 0 ∧ cnt ≠ 0 then
    let (h, r1) := sdSendCmd bus cmd16 512 h
    if r1 = 0 then (h, if cmd = acmd41 then ctSd1 else ctMmc) else (h, 0)
  else (h, 0)

def identify (h : Host σ) : Host σ × UInt8 :=
  let (h, r1) := sdSendCmd bus cmd0 0 h
  if r1 = sdR1Idle then
    let (h, r1) := sdSendCmd bus cmd8 0x1AA h
    if r1 = sdR1Idle then identifySd2 bus h else identifyOld bus h
  else (h, 0)

/-- The ten bytes are clocked while the card is not selected. -/
def diskInitialize (pdrv : UInt8) (d : Disk σ) : Disk σ :=
  if pdrv ≠ 0 then d
  else
    let h := ((fun h => (spiRxByte bus h).1)^[10]) d.host
    let (h, type) := identify bus (sdSelectSpi bus h)
    ⟨sdUnselectSpi bus h, if type ≠ 0 then ctPowerOn ||| type else 0⟩

end Identification

section Dialogues

def Released (d : List Signal) : Prop :=
  ∃ busy : List UInt8, (∀ b ∈ busy, b ≠ 0xFF) ∧ d = heard (busy ++ [0xFF])

def HeldBusy (d : List Signal) : Prop :=
  ∃ busy : List UInt8, busy ≠ [] ∧ (∀ b ∈ busy, b ≠ 0xFF) ∧ d = heard busy

def Answered (cmd : UInt8) (arg : UInt32) (r1 : UInt8) (d : List Signal) : Prop :=
  ∃ free frame, ∃ waits : List UInt8, Released free ∧ Sends (frameOf cmd arg) frame ∧
    (∀ b ∈ waits, b &&& 0x80 ≠ 0) ∧ waits.length ≤ 99 ∧
    d = free ++ frame ++ heard (waits ++ [r1])

def BlockRead (addr : UInt32) (block : List UInt8) (d : List Signal) : Prop :=
  ∃ command, ∃ waits crc : List UInt8, Answered cmd17 addr 0 command ∧
    (∀ b ∈ waits, b ≠ sdTokenStartBlock) ∧ block.length = sdSectorSize ∧ crc.length = 2 ∧
    d = command ++ heard (waits ++ [sdTokenStartBlock]) ++ heard block ++ heard crc

/-- No block comes in: the line stays busy, the command is refused or the token does not come. -/
def ReadRefused (addr : UInt32) (d : List Signal) : Prop :=
  HeldBusy d ∨ (∃ r1, r1 ≠ 0 ∧ Answered cmd17 addr r1 d) ∨
    ∃ command, ∃ waits : List UInt8, Answered cmd17 addr 0 command ∧ waits ≠ [] ∧
      (∀ b ∈ waits, b ≠ sdTokenStartBlock) ∧ d = command ++ heard waits

/-- A block goes out and the card has answered `accept`. -/
def BlockSent (addr : UInt32) (block : List UInt8) (accept : UInt8) (d : List Signal) : Prop :=
  ∃ command free data, ∃ waits : List UInt8, Answered cmd24 addr 0 command ∧ Released free ∧
    Sends (sdTokenStartBlock :: (block ++ [0xFF, 0xFF])) data ∧
    (∀ b ∈ waits, b = 0xFF) ∧ waits.length ≤ 99 ∧
    d = command ++ free ++ data ++ heard (waits ++ [accept])

def BlockWritten (addr : UInt32) (block : List UInt8) (d : List Signal) : Prop :=
  ∃ sent free, ∃ accept : UInt8, accept &&& 0x1F = sdTokenDataAccepted ∧
    BlockSent addr block accept sent ∧ Released free ∧ d = sent ++ free

def WriteRefused (addr : UInt32) (block : List UInt8) (d : List Signal) : Prop :=
  HeldBusy d ∨ (∃ r1, r1 ≠ 0 ∧ Answered cmd24 addr r1 d) ∨
    (∃ command busy, Answered cmd24 addr 0 command ∧ HeldBusy busy ∧ d = command ++ busy) ∨
    (∃ accept : UInt8, accept &&& 0x1F ≠ sdTokenDataAccepted ∧ BlockSent addr block accept d) ∨
    ∃ sent busy, ∃ accept : UInt8, accept &&& 0x1F = sdTokenDataAccepted ∧
      BlockSent addr block accept sent ∧ HeldBusy busy ∧ d = sent ++ busy

end Dialogues

section Waiting

theorem says_spiDropRx (h : Host σ) : Says bus h [] (spiDropRx h) := says_drop bus h

@[simp] theorem spiDropRx_queue (h : Host σ) : (spiDropRx h).queue = [] := rfl

theorem sdWaitNotBusy_eq (waitTime : Nat) (h : Host σ) :
    sdWaitNotBusy bus waitTime h =
      let r := poll bus (fun res => res ≠ 0xFF) (bus.patience (spiDropRx h).device waitTime)
        (spiDropRx h)
      (r.1, if r.2 = 0xFF then r.2 else 0) := rfl

theorem sdWaitDataToken_eq (token : UInt8) (waitTime : Nat) (h : Host σ) :
    sdWaitDataToken bus token waitTime h =
      let r := poll bus (fun res => res ≠ token) (bus.patience (spiDropRx h).device waitTime)
        (spiDropRx h)
      (r.1, decide (r.2 = token)) := rfl

theorem sdWaitNotBusy_spec (waitTime : Nat) (h : Host σ) :
    ∃ d, Says bus h d (sdWaitNotBusy bus waitTime h).1 ∧
      (sdWaitNotBusy bus waitTime h).1.queue = [] ∧
      ((sdWaitNotBusy bus waitTime h).2 = 0xFF ∧ Released d ∨
        (sdWaitNotBusy bus waitTime h).2 ≠ 0xFF ∧ HeldBusy d) := by
  obtain ⟨waits, hwaits, -, -, hqueue, hspoken⟩ := poll_spec bus (fun res => res ≠ 0xFF)
    (bus.patience (spiDropRx h).device waitTime) (spiDropRx_queue h)
  have hbusy : ∀ b ∈ waits, b ≠ 0xFF := fun b hb => of_decide_eq_true (hwaits b hb)
  rw [sdWaitNotBusy_eq]
  generalize poll bus (fun res => res ≠ 0xFF) (bus.patience (spiDropRx h).device waitTime)
    (spiDropRx h) = r at hqueue hspoken ⊢
  dsimp only
  refine ⟨_, (says_spiDropRx bus h).trans hspoken, hqueue, ?_⟩
  by_cases hfree : r.2 = 0xFF
  · exact .inl ⟨by rw [if_pos hfree, hfree], waits, hbusy, by rw [List.nil_append, hfree]⟩
  · refine .inr ⟨?_, waits ++ [r.2], by simp, fun b hb => ?_, rfl⟩
    · rw [if_neg hfree]
      decide
    · rcases List.mem_append.mp hb with hb | hb
      · exact hbusy b hb
      · rw [List.mem_singleton.mp hb]
        exact hfree

theorem sdWaitDataToken_spec (token : UInt8) (waitTime : Nat) (h : Host σ) :
    ∃ waits : List UInt8, (∀ b ∈ waits, b ≠ token) ∧
      ((sdWaitDataToken bus token waitTime h).2 = false → waits ≠ []) ∧
      Says bus h (heard (if (sdWaitDataToken bus token waitTime h).2 then waits ++ [token]
        else waits)) (sdWaitDataToken bus token waitTime h).1 ∧
      (sdWaitDataToken bus token waitTime h).1.queue = [] := by
  obtain ⟨waits, hwaits, -, -, hqueue, hspoken⟩ := poll_spec bus (fun res => res ≠ token)
    (bus.patience (spiDropRx h).device waitTime) (spiDropRx_queue h)
  have hother : ∀ b ∈ waits, b ≠ token := fun b hb => of_decide_eq_true (hwaits b hb)
  rw [sdWaitDataToken_eq]
  generalize poll bus (fun res => res ≠ token) (bus.patience (spiDropRx h).device waitTime)
    (spiDropRx h) = r at hqueue hspoken ⊢
  have hall := (says_spiDropRx bus h).trans hspoken
  by_cases hstart : r.2 = token
  · refine ⟨waits, hother, by simp [hstart], ?_, hqueue⟩
    rw [hstart] at hall
    simpa [hstart] using hall
  · refine ⟨waits ++ [r.2], fun b hb => ?_, by simp, by simpa [hstart] using hall, hqueue⟩
    rcases List.mem_append.mp hb with hb | hb
    · exact hother b hb
    · rw [List.mem_singleton.mp hb]
      exact hstart

theorem sdWaitDataAccept_spec (cnt : Nat) (h : Host σ) :
    ∃ waits : List UInt8, ∃ accept : UInt8, (∀ b ∈ waits, b = 0xFF) ∧ waits.length ≤ cnt - 1 ∧
      (sdWaitDataAccept bus cnt h).2 = accept &&& 0x1F ∧
      Says bus h (heard (waits ++ [accept])) (sdWaitDataAccept bus cnt h).1 ∧
      (sdWaitDataAccept bus cnt h).1.queue = [] := by
  obtain ⟨waits, hwaits, hlength, -, hqueue, hspoken⟩ := poll_spec bus
    (fun res => res = 0xFF) (cnt - 1) (spiDropRx_queue h)
  exact ⟨waits, _, fun b hb => of_decide_eq_true (hwaits b hb), hlength, rfl,
    (says_spiDropRx bus h).trans hspoken, hqueue⟩

theorem sdReadR1_spec (cnt : Nat) (h : Host σ) :
    ∃ waits : List UInt8, (∀ b ∈ waits, b &&& 0x80 ≠ 0) ∧ waits.length ≤ cnt - 1 ∧
      Says bus h (heard (waits ++ [(sdReadR1 bus cnt h).2])) (sdReadR1 bus cnt h).1 ∧
      (sdReadR1 bus cnt h).1.queue = [] := by
  obtain ⟨waits, hwaits, hlength, -, hqueue, hspoken⟩ := poll_spec bus
    (fun r1 => r1 &&& 0x80 ≠ 0) (cnt - 1) (spiDropRx_queue h)
  exact ⟨waits, fun b hb => of_decide_eq_true (hwaits b hb), hlength,
    (says_spiDropRx bus h).trans hspoken, hqueue⟩

theorem sdSendPlainCmd_spec {cmd : UInt8} (hcmd : cmd ≠ cmd12) (arg : UInt32) (h : Host σ) :
    ∃ d, Says bus h d (sdSendPlainCmd bus cmd arg h).1 ∧
      (sdSendPlainCmd bus cmd arg h).1.queue = [] ∧
      (Answered cmd arg (sdSendPlainCmd bus cmd arg h).2 d ∨
        (sdSendPlainCmd bus cmd arg h).2 = 0xFF ∧ HeldBusy d) := by
  obtain ⟨free, hspoken, hqueue, hcases⟩ := sdWaitNotBusy_spec bus 200 h
  unfold sdSendPlainCmd
  dsimp only
  rcases hcases with ⟨hready, hfree⟩ | ⟨hready, hheld⟩
  · obtain ⟨frame, hframe, hsend⟩ := send_spec bus (frameOf cmd arg)
      (sdWaitNotBusy bus 200 h).1
    obtain ⟨waits, hwaits, hlength, hread, hlast⟩ := sdReadR1_spec bus 100
      (send bus (frameOf cmd arg) (sdWaitNotBusy bus 200 h).1)
    rw [if_pos hready, if_neg hcmd]
    exact ⟨_, (hspoken.trans hsend).trans hread, hlast,
      .inl ⟨free, frame, waits, hfree, hframe, hwaits, hlength, rfl⟩⟩
  · rw [if_neg hready]
    exact ⟨free, hspoken, hqueue, .inr ⟨rfl, hheld⟩⟩

theorem sdSendCmd_plain {cmd : UInt8} (hcmd : cmd &&& 0x80 = 0) (arg : UInt32) (h : Host σ) :
    sdSendCmd bus cmd arg h = sdSendPlainCmd bus cmd arg h :=
  if_neg (not_not.mpr hcmd)

theorem sdRxDataBlock_spec (len : Nat) (token : UInt8) (h : Host σ) :
    ∃ waits : List UInt8, (∀ b ∈ waits, b ≠ token) ∧
      (sdRxDataBlock bus len token h).1.queue = [] ∧
      ((∃ block crc : List UInt8, (sdRxDataBlock bus len token h).2 = some block ∧
          block.length = len ∧ crc.length = 2 ∧
          Says bus h (heard (waits ++ [token]) ++ heard block ++ heard crc)
            (sdRxDataBlock bus len token h).1) ∨
        (sdRxDataBlock bus len token h).2 = none ∧ waits ≠ [] ∧
          Says bus h (heard waits) (sdRxDataBlock bus len token h).1) := by
  obtain ⟨waits, hwaits, hsome, hspoken, hqueue⟩ := sdWaitDataToken_spec bus token 100 h
  refine ⟨waits, hwaits, ?_⟩
  unfold sdRxDataBlock
  dsimp only
  by_cases hstart : (sdWaitDataToken bus token 100 h).2 = true
  · obtain ⟨hblock, hlength, hdata⟩ := receiveMany_spec bus len hqueue
    obtain ⟨hcrc, hcrcLength, hcheck⟩ := receiveMany_spec bus 2 hblock
    rw [if_pos hstart] at hspoken ⊢
    exact ⟨hcrc, .inl ⟨_, _, rfl, hlength, hcrcLength, (hspoken.trans hdata).trans hcheck⟩⟩
  · rw [if_neg hstart] at hspoken ⊢
    exact ⟨hqueue, .inr ⟨rfl, hsome (Bool.eq_false_iff.mpr hstart), hspoken⟩⟩

theorem says_block (token : UInt8) (buff : List UInt8) (h : Host σ) :
    ∃ data, Sends (token :: (buff ++ [0xFF, 0xFF])) data ∧
      Says bus h data (spiTxByte bus 0xFF
        (spiTxByte bus 0xFF (spiTxBuffer bus buff (spiTxByte bus token h)))) := by
  have hsend : spiTxByte bus 0xFF
      (spiTxByte bus 0xFF (spiTxBuffer bus buff (spiTxByte bus token h))) =
        send bus (token :: (buff ++ [0xFF, 0xFF])) h := by
    simp only [spiTxByte, spiTxBuffer, send, List.foldl_cons, List.foldl_append, List.foldl_nil]
  rw [hsend]
  exact send_spec bus _ h

/-- The three ways a block ends after its command, when the line was free for it. -/
theorem sdTxDataBlock_spec (buff : List UInt8) (token : UInt8) (h : Host σ) :
    (sdTxDataBlock bus buff token h).2 = false ∧
        (∃ busy, HeldBusy busy ∧ Says bus h busy (sdTxDataBlock bus buff token h).1) ∨
      ∃ free data, ∃ waits : List UInt8, ∃ accept : UInt8, Released free ∧
        Sends (token :: (buff ++ [0xFF, 0xFF])) data ∧ (∀ b ∈ waits, b = 0xFF) ∧
        waits.length ≤ 99 ∧
        ((sdTxDataBlock bus buff token h).2 = false ∧ accept &&& 0x1F ≠ sdTokenDataAccepted ∧
            Says bus h (free ++ data ++ heard (waits ++ [accept]))
              (sdTxDataBlock bus buff token h).1 ∨
          accept &&& 0x1F = sdTokenDataAccepted ∧ ∃ last,
            ((sdTxDataBlock bus buff token h).2 = true ∧ Released last ∨
              (sdTxDataBlock bus buff token h).2 = false ∧ HeldBusy last) ∧
            Says bus h (free ++ data ++ heard (waits ++ [accept]) ++ last)
              (sdTxDataBlock bus buff token h).1) := by
  obtain ⟨free, hspoken, -, hcases⟩ := sdWaitNotBusy_spec bus 2000 h
  unfold sdTxDataBlock
  dsimp only
  rcases hcases with ⟨hready, hfree⟩ | ⟨hready, hheld⟩
  · obtain ⟨data, hdata, hsent⟩ := says_block bus token buff (sdWaitNotBusy bus 2000 h).1
    obtain ⟨waits, accept, hwaits, hlength, haccept, hanswer, -⟩ := sdWaitDataAccept_spec bus 100
      (spiTxByte bus 0xFF (spiTxByte bus 0xFF (spiTxBuffer bus buff
        (spiTxByte bus token (sdWaitNotBusy bus 2000 h).1))))
    have hall := (hspoken.trans hsent).trans hanswer
    rw [if_neg (not_not.mpr hready), haccept]
    refine .inr ⟨free, data, waits, accept, hfree, hdata, hwaits, hlength, ?_⟩
    by_cases hok : accept &&& 0x1F = sdTokenDataAccepted
    · obtain ⟨last, hlast, -, hend⟩ := sdWaitNotBusy_spec bus 2000 (sdWaitDataAccept bus 100
        (spiTxByte bus 0xFF (spiTxByte bus 0xFF (spiTxBuffer bus buff
          (spiTxByte bus token (sdWaitNotBusy bus 2000 h).1))))).1
      rw [if_neg (not_not.mpr hok)]
      refine .inr ⟨hok, last, ?_, hall.trans hlast⟩
      rcases hend with ⟨hff, hreleased⟩ | ⟨hff, hbusy⟩
      · exact .inl ⟨decide_eq_true hff, hreleased⟩
      · exact .inr ⟨decide_eq_false hff, hbusy⟩
    · rw [if_pos hok]
      exact .inl ⟨rfl, hok, hall⟩
  · rw [if_pos hready]
    exact .inl ⟨rfl, free, hheld, hspoken⟩

end Waiting

section Sessions

/-- What passes while blocks are read: block after block, and at most one refusal at the end.
The indices are the count, the sector, the bytes stored and what is left of the count. -/
inductive ReadSession (cardStatus : UInt8) :
    Nat → UInt32 → List UInt8 → List Signal → Nat → Prop
  | done (sector : UInt32) : ReadSession cardStatus 0 sector [] [] 0
  | refused {count : Nat} {sector : UInt32} {d : List Signal}
      (h : ReadRefused (addressOf cardStatus sector) d) :
      ReadSession cardStatus (count + 1) sector [] d (count + 1)
  | block {count left : Nat} {sector : UInt32} {block buff : List UInt8} {d rest : List Signal}
      (h : BlockRead (addressOf cardStatus sector) block d)
      (hrest : ReadSession cardStatus count (sector + 1) buff rest left) :
      ReadSession cardStatus (count + 1) sector (block ++ buff) (d ++ rest) left

inductive WriteSession (cardStatus : UInt8) :
    Nat → List UInt8 → UInt32 → List Signal → Nat → Prop
  | done (buff : List UInt8) (sector : UInt32) : WriteSession cardStatus 0 buff sector [] 0
  | refused {count : Nat} {buff : List UInt8} {sector : UInt32} {d : List Signal}
      (h : WriteRefused (addressOf cardStatus sector) (buff.take sdSectorSize) d) :
      WriteSession cardStatus (count + 1) buff sector d (count + 1)
  | block {count left : Nat} {buff : List UInt8} {sector : UInt32} {d rest : List Signal}
      (h : BlockWritten (addressOf cardStatus sector) (buff.take sdSectorSize) d)
      (hrest : WriteSession cardStatus count (buff.drop sdSectorSize) (sector + 1) rest left) :
      WriteSession cardStatus (count + 1) buff sector (d ++ rest) left

theorem readBlocks_session (cardStatus : UInt8) (count : Nat) (sector : UInt32) (h : Host σ) :
    ∃ d, ReadSession cardStatus count sector (readBlocks bus cardStatus count sector h).2.2 d
        (readBlocks bus cardStatus count sector h).2.1 ∧
      Says bus h d (readBlocks bus cardStatus count sector h).1 := by
  induction count generalizing sector h with
  | zero => exact ⟨[], .done sector, Says.refl h⟩
  | succ count ih =>
    obtain ⟨command, hcommand, -, hanswer⟩ := sdSendPlainCmd_spec bus (by decide : cmd17 ≠ cmd12)
      (addressOf cardStatus sector) h
    rw [← sdSendCmd_plain bus (by decide : cmd17 &&& 0x80 = 0)] at hcommand hanswer
    unfold readBlocks
    dsimp only
    by_cases hr1 : (sdSendCmd bus cmd17 (addressOf cardStatus sector) h).2 = 0
    · rw [if_neg (not_not.mpr hr1)]
      rw [hr1] at hanswer
      have hzero := hanswer.resolve_right fun hheld => absurd hheld.1 (by decide)
      obtain ⟨waits, hwaits, -, hdata⟩ := sdRxDataBlock_spec bus sdSectorSize sdTokenStartBlock
        (sdSendCmd bus cmd17 (addressOf cardStatus sector) h).1
      rcases hdata with ⟨block, crc, hblock, hlength, hcrc, hspoken⟩ | ⟨hnone, hsome, hspoken⟩
      · obtain ⟨rest, hrest, hmore⟩ := ih (sector + 1) (sdRxDataBlock bus sdSectorSize
          sdTokenStartBlock (sdSendCmd bus cmd17 (addressOf cardStatus sector) h).1).1
        simp only [hblock, Option.isNone_some, Bool.false_eq_true, if_false, Option.getD_some]
        refine ⟨_, .block ⟨command, waits, crc, hzero, hwaits, hlength, hcrc, rfl⟩ hrest, ?_⟩
        simpa only [List.append_assoc] using (hcommand.trans hspoken).trans hmore
      · rw [hnone]
        exact ⟨_, .refused (.inr (.inr ⟨command, waits, hzero, hsome, hwaits, rfl⟩)),
          hcommand.trans hspoken⟩
    · rw [if_pos hr1]
      refine ⟨command, .refused ?_, hcommand⟩
      rcases hanswer with hanswer | ⟨-, hheld⟩
      · exact .inr (.inl ⟨_, hr1, hanswer⟩)
      · exact .inl hheld

theorem writeBlocks_session (cardStatus : UInt8) (count : Nat) (buff : List UInt8)
    (sector : UInt32) (h : Host σ) :
    ∃ d, WriteSession cardStatus count buff sector d
        (writeBlocks bus cardStatus count buff sector h).2 ∧
      Says bus h d (writeBlocks bus cardStatus count buff sector h).1 := by
  induction count generalizing buff sector h with
  | zero => exact ⟨[], .done buff sector, Says.refl h⟩
  | succ count ih =>
    obtain ⟨command, hcommand, -, hanswer⟩ := sdSendPlainCmd_spec bus (by decide : cmd24 ≠ cmd12)
      (addressOf cardStatus sector) h
    rw [← sdSendCmd_plain bus (by decide : cmd24 &&& 0x80 = 0)] at hcommand hanswer
    unfold writeBlocks
    dsimp only
    by_cases hr1 : (sdSendCmd bus cmd24 (addressOf cardStatus sector) h).2 = 0
    · rw [if_neg (not_not.mpr hr1)]
      rw [hr1] at hanswer
      have hzero := hanswer.resolve_right fun hheld => absurd hheld.1 (by decide)
      rcases sdTxDataBlock_spec bus (buff.take sdSectorSize) sdTokenStartBlock
        (sdSendCmd bus cmd24 (addressOf cardStatus sector) h).1 with
        ⟨hno, busy, hheld, hspoken⟩ |
        ⟨free, data, waits, accept, hfree, hdata, hwaits, hlength, hend⟩
      · rw [if_neg (Bool.eq_false_iff.mp hno)]
        exact ⟨_, .refused (.inr (.inr (.inl ⟨command, busy, hzero, hheld, rfl⟩))),
          hcommand.trans hspoken⟩
      have hsent : BlockSent (addressOf cardStatus sector) (buff.take sdSectorSize) accept
          (command ++ free ++ data ++ heard (waits ++ [accept])) :=
        ⟨command, free, data, waits, hzero, hfree, hdata, hwaits, hlength, rfl⟩
      rcases hend with ⟨hno, hbad, hspoken⟩ | ⟨hok, last, ⟨hyes, hreleased⟩ | ⟨hno, hheld⟩, hspoken⟩
      · rw [if_neg (Bool.eq_false_iff.mp hno)]
        refine ⟨_, .refused (.inr (.inr (.inr (.inl ⟨accept, hbad, hsent⟩)))), ?_⟩
        simpa only [List.append_assoc] using hcommand.trans hspoken
      · rw [if_pos hyes]
        obtain ⟨rest, hrest, hmore⟩ := ih (buff.drop sdSectorSize) (sector + 1)
          (sdTxDataBlock bus (buff.take sdSectorSize) sdTokenStartBlock
            (sdSendCmd bus cmd24 (addressOf cardStatus sector) h).1).1
        refine ⟨_, .block ⟨_, last, accept, hok, hsent, hreleased, rfl⟩ hrest, ?_⟩
        simpa only [List.append_assoc] using (hcommand.trans hspoken).trans hmore
      · rw [if_neg (Bool.eq_false_iff.mp hno)]
        refine ⟨_, .refused (.inr (.inr (.inr (.inr ⟨_, last, accept, hok, hsent, hheld, rfl⟩)))),
          ?_⟩
        simpa only [List.append_assoc] using hcommand.trans hspoken
    · rw [if_pos hr1]
      refine ⟨command, .refused ?_, hcommand⟩
      rcases hanswer with hanswer | ⟨-, hheld⟩
      · exact .inr (.inl ⟨_, hr1, hanswer⟩)
      · exact .inl hheld

def Parting (d : List Signal) : Prop :=
  ∃ back, d = [.select false, .byte 0xFF back]

theorem sdUnselectSpi_spec (h : Host σ) :
    ∃ d, Parting d ∧ Says bus h d (sdUnselectSpi bus h) :=
  ⟨_, ⟨_, rfl⟩, (says_setSelected bus false h).trans ⟨rfl, rfl, rfl⟩⟩

theorem ReadSession.length {cardStatus : UInt8} {count left : Nat} {sector : UInt32}
    {buff : List UInt8} {d : List Signal} (h : ReadSession cardStatus count sector buff d left) :
    left ≤ count ∧ buff.length = sdSectorSize * (count - left) := by
  induction h with
  | done sector => exact ⟨Nat.le_refl 0, rfl⟩
  | refused h => exact ⟨Nat.le_refl _, by rw [Nat.sub_self]; rfl⟩
  | block h hrest ih =>
    obtain ⟨command, waits, crc, -, -, hlength, -, -⟩ := h
    refine ⟨Nat.le_succ_of_le ih.1, ?_⟩
    rw [List.length_append, hlength, ih.2, Nat.succ_sub ih.1, Nat.mul_succ, Nat.add_comm]

/-- Whatever the card answers, a read that reports success has taken each block out of a dialogue
for its own sector, and another one ends at the first refusal. -/
theorem diskRead_session (pdrv : UInt8) (sector : UInt32) (count : Nat) (d : Disk σ) :
    (pdrv ≠ 0 ∨ d.cardStatus &&& ctPowerOn = 0) ∧
        diskRead bus pdrv sector count d = (d, .notRdy, []) ∨
      ∃ session parting left,
        ReadSession d.cardStatus count sector (diskRead bus pdrv sector count d).2.2 session left ∧
        Parting parting ∧
        Says bus d.host ([.select true] ++ session ++ parting)
          (diskRead bus pdrv sector count d).1.host ∧
        (diskRead bus pdrv sector count d).1.cardStatus = d.cardStatus ∧
        (diskRead bus pdrv sector count d).2.2.length = sdSectorSize * (count - left) ∧
        (diskRead bus pdrv sector count d).2.1 = if left = 0 then .ok else .error := by
  unfold diskRead
  by_cases hoff : pdrv ≠ 0 ∨ d.cardStatus &&& ctPowerOn = 0
  · exact .inl ⟨hoff, if_pos hoff⟩
  rw [if_neg hoff]
  obtain ⟨session, hsession, hspoken⟩ :=
    readBlocks_session bus d.cardStatus count sector (sdSelectSpi bus d.host)
  obtain ⟨parting, hparting, hend⟩ := sdUnselectSpi_spec bus
    (readBlocks bus d.cardStatus count sector (sdSelectSpi bus d.host)).1
  refine .inr ⟨session, parting, _, hsession, hparting,
    ((says_setSelected bus true d.host).trans hspoken).trans hend, rfl, hsession.length.2, ?_⟩
  dsimp only
  split_ifs <;> simp_all

/-- Whatever the card answers, a write that reports success has had each block of the buffer
accepted in a dialogue for its own sector, and another one ends at the first refusal. -/
theorem diskWrite_session (pdrv : UInt8) (buff : List UInt8) (sector : UInt32) (count : Nat)
    (d : Disk σ) :
    ((pdrv ≠ 0 ∨ d.cardStatus &&& ctPowerOn = 0) ∧
        diskWrite bus pdrv buff sector count d = (d, .notRdy)) ∨
      (d.cardStatus &&& ctWrprotect ≠ 0 ∧
        diskWrite bus pdrv buff sector count d = (d, .wrprt)) ∨
      ∃ session last parting left,
        WriteSession d.cardStatus count buff sector session left ∧
        (Released last ∨ HeldBusy last) ∧ Parting parting ∧
        Says bus d.host ([.select true] ++ session ++ last ++ parting)
          (diskWrite bus pdrv buff sector count d).1.host ∧
        (diskWrite bus pdrv buff sector count d).1.cardStatus = d.cardStatus ∧
        (diskWrite bus pdrv buff sector count d).2 = if left = 0 then .ok else .error := by
  unfold diskWrite
  by_cases hoff : pdrv ≠ 0 ∨ d.cardStatus &&& ctPowerOn = 0
  · exact .inl ⟨hoff, if_pos hoff⟩
  by_cases hprotected : d.cardStatus &&& ctWrprotect ≠ 0
  · exact .inr (.inl ⟨hprotected, by rw [if_neg hoff, if_pos hprotected]⟩)
  rw [if_neg hoff, if_neg hprotected]
  obtain ⟨session, hsession, hspoken⟩ :=
    writeBlocks_session bus d.cardStatus count buff sector (sdSelectSpi bus d.host)
  obtain ⟨last, hlast, -, hcases⟩ := sdWaitNotBusy_spec bus 2000
    (writeBlocks bus d.cardStatus count buff sector (sdSelectSpi bus d.host)).1
  obtain ⟨parting, hparting, hend⟩ := sdUnselectSpi_spec bus (sdWaitNotBusy bus 2000
    (writeBlocks bus d.cardStatus count buff sector (sdSelectSpi bus d.host)).1).1
  refine .inr (.inr ⟨session, last, parting, _, hsession, hcases.imp And.right And.right, hparting,
    (((says_setSelected bus true d.host).trans hspoken).trans hlast).trans hend, rfl, ?_⟩)
  dsimp only
  split_ifs <;> simp_all

end Sessions

section Identified

/-- What passes for a command. The prefix of an application command has to be answered too. -/
def Commanded (cmd : UInt8) (arg : UInt32) (r1 : UInt8) (d : List Signal) : Prop :=
  if cmd &&& 0x80 = 0 then Answered cmd arg r1 d ∨ r1 = 0xFF ∧ HeldBusy d
  else
    (1 < r1 ∧ (Answered cmd55 0 r1 d ∨ r1 = 0xFF ∧ HeldBusy d)) ∨
      ∃ announced rest, ∃ ready : UInt8, ready ≤ 1 ∧ Answered cmd55 0 ready announced ∧
        (Answered cmd arg r1 rest ∨ r1 = 0xFF ∧ HeldBusy rest) ∧ d = announced ++ rest

/-- The card was asked until it was ready, fewer than `cnt` times in vain. -/
def Activated (cmd : UInt8) (arg : UInt32) (cnt : Nat) (d : List Signal) : Prop :=
  ∃ tries : List (List Signal), ∃ ready, tries.length < cnt ∧
    (∀ asked ∈ tries, ∃ r1, r1 ≠ 0 ∧ Commanded cmd arg r1 asked) ∧ Commanded cmd arg 0 ready ∧
    d = tries.flatten ++ ready

/-- The whole dialogue in which a card is taken for a type: it is idle, and a card of the second
version gives the voltage and the pattern of `CMD8` back. -/
inductive Identified : UInt8 → List Signal → Prop
  | sd2 {reset voltage ready conditions : List Signal} {r7 ocr : List UInt8}
      (hreset : Answered cmd0 0 sdR1Idle reset)
      (hvoltage : Answered cmd8 0x1AA sdR1Idle voltage)
      (hr7 : r7.length = 4) (hecho : r7.getD 2 0 = 0x01 ∧ r7.getD 3 0 = 0xAA)
      (hready : Activated acmd41 (sdOcrVddMask ||| sdOcrCapacity) 100 ready)
      (hconditions : Answered cmd58 0 0 conditions) (hocr : ocr.length = 4) :
      Identified (typeOf (be32 ocr))
        (reset ++ voltage ++ heard r7 ++ ready ++ conditions ++ heard ocr)
  | sd1 {reset voltage probe ready blockLength : List Signal} {r1 probed : UInt8}
      (hreset : Answered cmd0 0 sdR1Idle reset)
      (hvoltage : Commanded cmd8 0x1AA r1 voltage) (hr1 : r1 ≠ sdR1Idle)
      (hprobe : Commanded acmd41 sdOcrVddMask probed probe) (hprobed : probed ≤ 1)
      (hready : Activated acmd41 sdOcrVddMask 100 ready)
      (hlength : Answered cmd16 512 0 blockLength) :
      Identified ctSd1 (reset ++ voltage ++ probe ++ ready ++ blockLength)
  | mmc {reset voltage probe ready blockLength : List Signal} {r1 probed : UInt8}
      (hreset : Answered cmd0 0 sdR1Idle reset)
      (hvoltage : Commanded cmd8 0x1AA r1 voltage) (hr1 : r1 ≠ sdR1Idle)
      (hprobe : Commanded acmd41 sdOcrVddMask probed probe) (hprobed : 1 < probed)
      (hready : Activated cmd1 0 100 ready)
      (hlength : Answered cmd16 512 0 blockLength) :
      Identified ctMmc (reset ++ voltage ++ probe ++ ready ++ blockLength)

theorem Commanded.answered {cmd : UInt8} {arg : UInt32} {r1 : UInt8} {d : List Signal}
    (h : Commanded cmd arg r1 d) (hplain : cmd &&& 0x80 = 0) (hr1 : r1 ≠ 0xFF) :
    Answered cmd arg r1 d := by
  rw [Commanded, if_pos hplain] at h
  exact h.resolve_right fun hheld => hr1 hheld.1

theorem sdSendCmd_spec {cmd : UInt8} (hcmd : cmd ≠ cmd12) (arg : UInt32) (h : Host σ) :
    ∃ d, Says bus h d (sdSendCmd bus cmd arg h).1 ∧ (sdSendCmd bus cmd arg h).1.queue = [] ∧
      Commanded cmd arg (sdSendCmd bus cmd arg h).2 d := by
  by_cases hplain : cmd &&& 0x80 = 0
  · rw [sdSendCmd_plain bus hplain]
    obtain ⟨d, hspoken, hqueue, hanswer⟩ := sdSendPlainCmd_spec bus hcmd arg h
    exact ⟨d, hspoken, hqueue, by rwa [Commanded, if_pos hplain]⟩
  obtain ⟨d, hspoken, hqueue, hanswer⟩ :=
    sdSendPlainCmd_spec bus (by decide : cmd55 ≠ cmd12) 0 h
  rw [sdSendCmd, if_pos hplain]
  dsimp only
  by_cases hrefused : 1 < (sdSendPlainCmd bus cmd55 0 h).2
  · rw [if_pos hrefused]
    refine ⟨d, hspoken, hqueue, ?_⟩
    rw [Commanded, if_neg hplain]
    exact .inl ⟨hrefused, hanswer⟩
  · obtain ⟨e, hrest, hlast, hend⟩ :=
      sdSendPlainCmd_spec bus hcmd arg (sdSendPlainCmd bus cmd55 0 h).1
    have hready := UInt8.not_lt.mp hrefused
    have hannounced := hanswer.resolve_right fun hheld => by
      rw [hheld.1] at hready
      exact absurd hready (by decide)
    rw [if_neg hrefused]
    refine ⟨d ++ e, hspoken.trans hrest, hlast, ?_⟩
    rw [Commanded, if_neg hplain]
    exact .inr ⟨d, e, _, hready, hannounced, hend, rfl⟩

theorem opCondLoop_spec {cmd : UInt8} (hcmd : cmd ≠ cmd12) (arg : UInt32) (cnt : Nat) (h : Host σ)
    (hq : h.queue = []) :
    ∃ d, Says bus h d (opCondLoop bus cmd arg cnt h).1 ∧
      (opCondLoop bus cmd arg cnt h).1.queue = [] ∧
      ((opCondLoop bus cmd arg cnt h).2.1 = 0 ∧ (opCondLoop bus cmd arg cnt h).2.2 ≠ 0 →
        Activated cmd arg cnt d) := by
  induction cnt generalizing h with
  | zero => exact ⟨[], Says.refl h, hq, fun hready => absurd rfl hready.2⟩
  | succ cnt ih =>
    obtain ⟨d, hspoken, hqueue, hanswer⟩ := sdSendCmd_spec bus hcmd arg h
    unfold opCondLoop
    dsimp only
    by_cases hzero : (sdSendCmd bus cmd arg h).2 = 0
    · rw [if_pos hzero]
      rw [hzero] at hanswer
      exact ⟨d, hspoken, hqueue,
        fun _ => ⟨[], d, Nat.succ_pos cnt, List.forall_mem_nil _, hanswer, rfl⟩⟩
    rw [if_neg hzero]
    by_cases hlast : cnt = 0
    · rw [if_pos hlast]
      exact ⟨d, hspoken, hqueue, fun hready => absurd rfl hready.2⟩
    rw [if_neg hlast]
    obtain ⟨e, hrest, hend, hready⟩ := ih _ hqueue
    refine ⟨d ++ e, hspoken.trans hrest, hend, fun hdone => ?_⟩
    obtain ⟨tries, ready, hcount, htries, hlastTry, rfl⟩ := hready hdone
    refine ⟨d :: tries, ready, Nat.succ_lt_succ hcount, ?_, hlastTry, ?_⟩
    · exact List.forall_mem_cons.mpr ⟨⟨_, hzero, hanswer⟩, htries⟩
    · rw [List.flatten_cons, List.append_assoc]

theorem identifySd2_spec {reset voltage : List Signal} (hreset : Answered cmd0 0 sdR1Idle reset)
    (hvoltage : Answered cmd8 0x1AA sdR1Idle voltage) (h : Host σ) (hq : h.queue = []) :
    ∃ d, Says bus h d (identifySd2 bus h).1 ∧
      ((identifySd2 bus h).2 ≠ 0 → Identified (identifySd2 bus h).2 (reset ++ voltage ++ d)) := by
  obtain ⟨hr7, hlength, hecho⟩ := receiveMany_spec bus 4 hq
  unfold identifySd2
  dsimp only [spiRxBuffer]
  generalize receiveMany bus 4 h = r7 at hr7 hlength hecho ⊢
  by_cases hpattern : r7.2.getD 2 0 = 0x01 ∧ r7.2.getD 3 0 = 0xAA
  swap
  · rw [if_neg hpattern]
    exact ⟨_, hecho, fun h => absurd rfl h⟩
  obtain ⟨loop, hloop, hqueue, hactivated⟩ := opCondLoop_spec bus (by decide : acmd41 ≠ cmd12)
    (sdOcrVddMask ||| sdOcrCapacity) 100 r7.1 hr7
  rw [if_pos hpattern]
  generalize opCondLoop bus acmd41 (sdOcrVddMask ||| sdOcrCapacity) 100 r7.1 = ready
    at hloop hqueue hactivated ⊢
  by_cases hready : ready.2.1 = 0 ∧ ready.2.2 ≠ 0
  swap
  · rw [if_neg hready]
    exact ⟨_, hecho.trans hloop, fun h => absurd rfl h⟩
  obtain ⟨command, hcommand, hfree, hanswer⟩ :=
    sdSendCmd_spec bus (by decide : cmd58 ≠ cmd12) 0 ready.1
  rw [if_pos hready]
  by_cases hzero : (sdSendCmd bus cmd58 0 ready.1).2 = 0
  · obtain ⟨-, hocr, hread⟩ := receiveMany_spec bus 4 hfree
    rw [hzero] at hanswer
    rw [if_pos hzero]
    refine ⟨_, ((hecho.trans hloop).trans hcommand).trans hread, fun _ => ?_⟩
    simp only [← List.append_assoc]
    exact .sd2 hreset hvoltage hlength hpattern (hactivated hready)
      (hanswer.answered (by decide) (by decide)) hocr
  · rw [if_neg hzero]
    exact ⟨_, (hecho.trans hloop).trans hcommand, fun h => absurd rfl h⟩

theorem identifyOld_spec {reset voltage : List Signal} {r1 : UInt8}
    (hreset : Answered cmd0 0 sdR1Idle reset) (hvoltage : Commanded cmd8 0x1AA r1 voltage)
    (hr1 : r1 ≠ sdR1Idle) (h : Host σ) :
    ∃ d, Says bus h d (identifyOld bus h).1 ∧
      ((identifyOld bus h).2 ≠ 0 → Identified (identifyOld bus h).2 (reset ++ voltage ++ d)) := by
  obtain ⟨first, hfirst, hq, hprobe⟩ :=
    sdSendCmd_spec bus (by decide : acmd41 ≠ cmd12) sdOcrVddMask h
  unfold identifyOld
  dsimp only
  generalize sdSendCmd bus acmd41 sdOcrVddMask h = answer at hfirst hq hprobe ⊢
  generalize hcmd : (if answer.2 ≤ 1 then acmd41 else cmd1) = cmd
  have hother : cmd ≠ cmd12 := by
    rw [← hcmd]
    split_ifs <;> decide
  obtain ⟨loop, hloop, -, hactivated⟩ := opCondLoop_spec bus hother
    (if cmd = acmd41 then sdOcrVddMask else 0) 100 answer.1 hq
  generalize opCondLoop bus cmd (if cmd = acmd41 then sdOcrVddMask else 0) 100 answer.1 = ready
    at hloop hactivated ⊢
  by_cases hready : ready.2.1 = 0 ∧ ready.2.2 ≠ 0
  swap
  · rw [if_neg hready]
    exact ⟨_, hfirst.trans hloop, fun h => absurd rfl h⟩
  replace hactivated := hactivated hready
  obtain ⟨command, hcommand, -, hanswer⟩ :=
    sdSendCmd_spec bus (by decide : cmd16 ≠ cmd12) 512 ready.1
  rw [if_pos hready]
  by_cases hzero : (sdSendCmd bus cmd16 512 ready.1).2 = 0
  swap
  · rw [if_neg hzero]
    exact ⟨_, (hfirst.trans hloop).trans hcommand, fun h => absurd rfl h⟩
  rw [hzero] at hanswer
  have hlength := hanswer.answered (by decide) (by decide)
  rw [if_pos hzero]
  refine ⟨_, (hfirst.trans hloop).trans hcommand, fun _ => ?_⟩
  simp only [← List.append_assoc]
  by_cases hprobed : answer.2 ≤ 1
  · rw [if_pos hprobed] at hcmd
    subst hcmd
    exact .sd1 hreset hvoltage hr1 hprobe hprobed hactivated hlength
  · rw [if_neg hprobed] at hcmd
    subst hcmd
    exact .mmc hreset hvoltage hr1 hprobe (UInt8.not_le.mp hprobed) hactivated hlength

theorem identify_spec (h : Host σ) :
    ∃ d, Says bus h d (identify bus h).1 ∧
      ((identify bus h).2 ≠ 0 → Identified (identify bus h).2 d) := by
  obtain ⟨reset, hreset, -, hanswer⟩ := sdSendCmd_spec bus (by decide : cmd0 ≠ cmd12) 0 h
  unfold identify
  dsimp only
  generalize sdSendCmd bus cmd0 0 h = idle at hreset hanswer ⊢
  by_cases hidle : idle.2 = sdR1Idle
  swap
  · rw [if_neg hidle]
    exact ⟨_, hreset, fun h => absurd rfl h⟩
  rw [hidle] at hanswer
  have hzero := hanswer.answered (by decide) (by decide)
  obtain ⟨voltage, hvoltage, hq, hpattern⟩ :=
    sdSendCmd_spec bus (by decide : cmd8 ≠ cmd12) 0x1AA idle.1
  rw [if_pos hidle]
  split_ifs with hsd2
  · rw [hsd2] at hpattern
    obtain ⟨d, hspoken, htype⟩ := identifySd2_spec bus hzero
      (hpattern.answered (by decide) (by decide)) _ hq
    exact ⟨_, (hreset.trans hvoltage).trans hspoken, htype⟩
  · obtain ⟨d, hspoken, htype⟩ := identifyOld_spec bus hzero hpattern hsd2
      (sdSendCmd bus cmd8 0x1AA idle.1).1
    exact ⟨_, (hreset.trans hvoltage).trans hspoken, htype⟩

theorem says_idle (n : Nat) (h : Host σ) :
    ∃ backs : List UInt8, backs.length = n ∧
      Says bus h (heard backs) ((fun h => (spiRxByte bus h).1)^[n] h) := by
  induction n generalizing h with
  | zero => exact ⟨[], rfl, Says.refl h⟩
  | succ n ih =>
    obtain ⟨backs, hlength, hspoken⟩ := ih (spiRxByte bus h).1
    refine ⟨(bus.exchange h.device 0xFF).2 :: backs, congrArg Nat.succ hlength, ?_⟩
    rw [Function.iterate_succ_apply]
    exact (⟨rfl, rfl, rfl⟩ : Says bus h _ (spiRxByte bus h).1).trans hspoken

/-- A card is taken for initialised only after the whole dialogue, from the idle card to its
operation conditions or its sector size, and it counts its sectors as those conditions say. -/
theorem diskInitialize_identified (d : Disk σ) :
    ∃ session parting, ∃ idle : List UInt8, idle.length = 10 ∧ Parting parting ∧
      Says bus d.host (heard idle ++ [.select true] ++ session ++ parting)
        (diskInitialize bus 0 d).host ∧
      ((diskInitialize bus 0 d).cardStatus = 0 ∨
        ∃ type, type ≠ 0 ∧ Identified type session ∧
          (diskInitialize bus 0 d).cardStatus = ctPowerOn ||| type) := by
  obtain ⟨idle, hlength, hidle⟩ := says_idle bus 10 d.host
  unfold diskInitialize
  rw [if_neg (not_not.mpr rfl)]
  dsimp only
  generalize (fun h => (spiRxByte bus h).1)^[10] d.host = h at hidle ⊢
  obtain ⟨session, hsession, htype⟩ := identify_spec bus (sdSelectSpi bus h)
  obtain ⟨parting, hparting, hend⟩ := sdUnselectSpi_spec bus (identify bus (sdSelectSpi bus h)).1
  refine ⟨session, parting, idle, hlength, hparting,
    ((hidle.trans (says_setSelected bus true h)).trans hsession).trans hend, ?_⟩
  split_ifs with hnone
  · exact .inr ⟨_, hnone, htype hnone, rfl⟩
  · exact .inl rfl

end Identified

end NanoVNA.SdCard
