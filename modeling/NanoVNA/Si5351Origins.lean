import NanoVNA.Si5351Requests

namespace NanoVNA.Si5351Origins

open NanoVNA.DeviceState NanoVNA.BandStrategy NanoVNA.BandSelection
  NanoVNA.Si5351Registers NanoVNA.Si5351 NanoVNA.Si5351Chip NanoVNA.Si5351Groups
  NanoVNA.Si5351Range NanoVNA.Si5351Format NanoVNA.Si5351Encoding NanoVNA.Si5351Planned
  NanoVNA.Si5351Requests

variable {s : Setup} {f : Frequency} {driveStrength : Nat} {q : Prepared} {d d' : Driver}

/-- The setup and the request that a group of registers was last written for. -/
structure Origin where
  setup : Setup
  freq : Frequency
  driveStrength : Nat
  prepared : Prepared
  prepared_eq : prepare setup freq driveStrength = some prepared

def Origin.row (o : Origin) : Band := o.setup.bandS.row o.prepared.band

/-- The driver, where its registers come from, whether the configuration changed since the last
frequency was set, and the frequency of the last call if it was the first after a change. -/
structure Session where
  driver : Driver
  pllOrigin : Origin
  outOrigin : Origin
  changed : Bool
  served : Option Frequency

inductive ConfigCall
  | setBandMode (mode : UInt16)
  | setTcxo (xtal : UInt32)
  | setFrequencyOffset (offset : Int32)
  | setFrequency (freq : Frequency) (driveStrength : UInt8)

def Session.configured (σ : Session) (d : Driver) : Session :=
  { σ with driver := d, changed := true, served := none }

def Session.request (σ : Session) (o : Origin) (d : Driver) : Session :=
  let band := (selectPower o.prepared.driveStrength σ.driver).currentBand
  { driver := d
    pllOrigin :=
      if CacheHit σ.driver o.prepared ∨ KeepsPll σ.driver.setup band o.prepared then σ.pllOrigin
      else o
    outOrigin :=
      if CacheHit σ.driver o.prepared ∨ KeepsOut σ.driver.setup band o.prepared then σ.outOrigin
      else o
    changed := false
    served := if σ.changed then some o.freq else none }

def configCall (board : Board) (σ : Session) : ConfigCall → Option Session
  | .setBandMode mode => (si5351SetBandMode board mode.toNat σ.driver).map σ.configured
  | .setTcxo xtal => some (σ.configured (si5351SetTcxo xtal.toNat σ.driver))
  | .setFrequencyOffset offset =>
    some (σ.configured (si5351SetFrequencyOffset offset.toInt σ.driver))
  | .setFrequency freq driveStrength =>
    match h : prepare σ.driver.setup freq driveStrength.toNat with
    | none => none
    | some q => (si5351SetFrequency freq driveStrength.toNat σ.driver).map fun r =>
      σ.request ⟨σ.driver.setup, freq, driveStrength.toNat, q, h⟩ r.1

/-- A row that leaves the registers another one skips as that one needs them. -/
def SameDivider (b c : Band) : Prop := b.mode = c.mode ∧ b.div = c.div

def Session.follower (σ : Session) : Origin :=
  if σ.pllOrigin.row.mode = .fixedPll then σ.outOrigin else σ.pllOrigin

/-- What is in the registers serves a frequency in another row: it was asked for before, under the
same crystal and offset, and with the same harmonics. -/
structure StillServes (σ : Session) (f : Frequency) (b : Band) : Prop where
  same : SameDivider σ.pllOrigin.row σ.outOrigin.row
  freq : σ.follower.freq = f
  fits : LowEndFits σ.follower.setup f
  xtalFreq : σ.follower.setup.xtalFreq = σ.driver.setup.xtalFreq
  ifOffset : σ.follower.setup.ifOffset = σ.driver.setup.ifOffset
  mul : b.mul = σ.follower.row.mul
  omul : b.omul = σ.follower.row.omul

structure Reaches (σ : Session) (f : Frequency) (q : Prepared) : Prop where
  hit : CacheHit σ.driver q → StillServes σ f (σ.driver.setup.bandS.row q.band)
  fits : ¬ CacheHit σ.driver q → LowEndFits σ.driver.setup f
  pll : ¬ CacheHit σ.driver q →
    KeepsPll σ.driver.setup (selectPower q.driveStrength σ.driver).currentBand q →
      SameDivider σ.pllOrigin.row (σ.driver.setup.bandS.row q.band)
  out : ¬ CacheHit σ.driver q →
    KeepsOut σ.driver.setup (selectPower q.driveStrength σ.driver).currentBand q →
      SameDivider σ.outOrigin.row (σ.driver.setup.bandS.row q.band)

/-- The calls stay inside the tables, and the first request after a change skips nothing stale. -/
def Configurable (board : Board) (σ : Session) : ConfigCall → Prop
  | .setBandMode mode => mode.toNat < (bandTables board).length
  | .setTcxo _ => True
  | .setFrequencyOffset _ => True
  | .setFrequency freq driveStrength =>
    Reached σ.driver.setup freq ∧
      ∀ q, prepare σ.driver.setup freq driveStrength.toNat = some q →
        InTable σ.driver q ∧ (σ.changed = true → Reaches σ freq q)

/-- After the first request for a frequency since a change the registers make it. -/
def FirstEncodes (σ : Session) : Prop :=
  ∀ f, σ.served = some f → EncodesFrequency σ.driver.setup σ.driver.regs f

def Held (σ : Session) : Prop :=
  Written σ.driver σ.pllOrigin.setup σ.pllOrigin.prepared σ.outOrigin.setup σ.outOrigin.prepared

theorem Origin.admissible (o : Origin) : Admissible o.setup o.freq o.driveStrength o.prepared :=
  prepare_admissible (frequency_ne_zero o.freq) o.prepared_eq

theorem Origin.selected (o : Origin) : Selected o.setup o.freq o.driveStrength o.prepared :=
  selected_of_prepare o.freq o.prepared_eq

theorem encodesFrequency_of (hq : prepare s f driveStrength = some q)
    (h : Encodes s (s.bandS.row q.band) (pllGroup d.regs) (outGroup d.regs) f) :
    EncodesFrequency s d.regs f := by
  obtain ⟨drive, hp⟩ := prepare_drive hq 0
  exact ⟨_, hp, h⟩

theorem StillServes.encodes {σ : Session} (hheld : Held σ) {b : Band} (h : StillServes σ f b) :
    Encodes σ.driver.setup b (pllGroup σ.driver.regs) (outGroup σ.driver.regs) f := by
  obtain ⟨⟨hmode, hdiv⟩, hfreq, hfits, hxtal, hoffset, hmul, homul⟩ := h
  rw [hheld.pll, hheld.out]
  by_cases hpll : σ.pllOrigin.row.mode = .fixedPll
  · rw [Session.follower, if_pos hpll] at *
    subst hfreq
    have hout := hmode.symm.trans hpll
    have hsel := σ.outOrigin.selected
    obtain ⟨_, hmul1, homul1⟩ := row_fixedPll _ (hsel.band_fixedPll hout)
    exact encodes_fixedPll hsel hxtal hoffset hout ((ratioInRange_iff hsel hfits.1).mpr hfits)
      (hmul.trans hmul1) (homul.trans homul1) hpll hdiv
  · rw [Session.follower, if_neg hpll] at *
    subst hfreq
    have hmult : σ.pllOrigin.row.mode = .fixedMult := by
      cases σ.pllOrigin.admissible.mode with
      | inl hlow => exact absurd hlow.2 hpll
      | inr hhigh => exact hhigh.2
    exact encodes_fixedMult σ.pllOrigin.selected hxtal hoffset hmult hmul homul
      (hmode.symm.trans hmult) hdiv.symm

theorem held_request {σ : Session} (hheld : Held σ) (o : Origin) (ho : o.setup = σ.driver.setup)
    (hmiss : ¬ CacheHit σ.driver o.prepared)
    (hprog : Programmed o.prepared (selectPower o.prepared.driveStrength σ.driver) d') :
    Held (σ.request o d') := by
  have hpll := hprog.pll
  have hout := hprog.out
  rw [selectPower_setup, selectPower_regs, ← ho] at hpll hout
  refine ⟨hprog.coherent, ?_, ?_⟩
  · simp only [Session.request, or_iff_right hmiss]
    rw [hpll, ← ho]
    split
    · exact hheld.pll
    · rfl
  · simp only [Session.request, or_iff_right hmiss]
    rw [hout, ← ho]
    split
    · exact hheld.out
    · rfl

section Programmed

variable {σ : Session} {o : Origin} (ho : o.setup = σ.driver.setup)
  (hmiss : ¬ CacheHit σ.driver o.prepared) (h : Reaches σ o.freq o.prepared)
include ho hmiss h

theorem sameDivider_pll : SameDivider (σ.request o d').pllOrigin.row o.row := by
  simp only [Session.request, or_iff_right hmiss]
  split
  · rename_i hk
    have hsame := h.pll hmiss hk
    rw [← ho] at hsame
    exact hsame
  · exact ⟨rfl, rfl⟩

theorem sameDivider_out : SameDivider (σ.request o d').outOrigin.row o.row := by
  simp only [Session.request, or_iff_right hmiss]
  split
  · rename_i hk
    have hsame := h.out hmiss hk
    rw [← ho] at hsame
    exact hsame
  · exact ⟨rfl, rfl⟩

theorem encodes_request (hheld : Held (σ.request o d')) :
    Encodes o.setup o.row (pllGroup d'.regs) (outGroup d'.regs) o.freq := by
  have hfits := h.fits hmiss
  rw [← ho] at hfits
  have hpll : pllGroup d'.regs = _ := hheld.pll
  have hout : outGroup d'.regs = _ := hheld.out
  cases o.admissible.mode with
  | inl hlow =>
    obtain ⟨_, hmul, homul⟩ := row_fixedPll o.setup.bandS hlow.1
    have hsame : SameDivider (σ.request o d').pllOrigin.row o.row := sameDivider_pll ho hmiss h
    have howner : (σ.request o d').outOrigin = o := by
      refine if_neg fun hk => ?_
      have hmode := (hk.resolve_left hmiss).1
      rw [← ho, hlow.2] at hmode
      cases hmode
    rw [howner] at hout
    rw [hpll, hout]
    exact encodes_fixedPll o.selected rfl rfl hlow.2
      ((ratioInRange_iff o.selected hfits.1).mpr hfits) hmul homul (hsame.1.trans hlow.2) hsame.2
  | inr hhigh =>
    have hsame : SameDivider (σ.request o d').outOrigin.row o.row := sameDivider_out ho hmiss h
    have howner : (σ.request o d').pllOrigin = o := by
      refine if_neg fun hk => ?_
      have hmode := (hk.resolve_left hmiss).1
      rw [← ho, hhigh.2] at hmode
      cases hmode
    rw [howner] at hpll
    rw [hpll, hout]
    exact encodes_fixedMult o.selected rfl rfl hhigh.2 rfl rfl (hsame.1.trans hhigh.2) hsame.2

end Programmed

end NanoVNA.Si5351Origins
