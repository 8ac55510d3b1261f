import Mathlib.Algebra.Order.Field.Basic
import NanoVNA.DeviceState
import NanoVNA.Numerals

namespace NanoVNA.Readouts

open NanoVNA.DeviceState

variable {R : Type} [Field R]

section Helpers

variable (re im z : R)

def getL : R := re * re + im * im

def getS11R : R := z * (1 - getL re im) / (1 - 2 * re + getL re im)

def getS11X : R := -2 * z * im / (1 - 2 * re + getL re im)

def getS21R : R := z * (1 - getL re im) / getL re im

def getS21X : R := -2 * z * im / getL re im

end Helpers

variable (portZ : R) (v : Sample R)

section Reflection

def resistance : R := getS11R (1 - v.re) (-v.im) portZ

def reactance : R := getS11X (1 - v.re) (-v.im) portZ

def conductance : R := getS11R (1 + v.re) v.im (1 / portZ)

def susceptance : R := getS11X (1 + v.re) v.im (1 / portZ)

def parallelR : R := 1 / conductance portZ v

def parallelX : R := -1 / susceptance portZ v

def modZ (sqrt : R → R) : R :=
  portZ * sqrt (getL (1 + v.re) v.im / getL (1 - v.re) v.im)

def qualityfactor [LinearOrder R] : R := |2 * v.im / (1 - getL v.re v.im)|

end Reflection

section Transmission

def s21shuntR : R := getS21R (1 - v.re) (-v.im) (1 / 2 * portZ)

def s21shuntX : R := getS21X (1 - v.re) (-v.im) (1 / 2 * portZ)

def s21shuntZ (sqrt : R → R) : R :=
  1 / 2 * portZ * sqrt (getL v.re v.im / getL (1 - v.re) v.im)

def s21seriesR : R := getS21R v.re v.im (2 * portZ)

def s21seriesX : R := getS21X v.re v.im (2 * portZ)

def s21seriesZ (sqrt : R → R) : R :=
  2 * portZ * sqrt (getL (1 - v.re) v.im / getL v.re v.im)

end Transmission

section Reactive

variable (w : R)

def parallelC : R := susceptance portZ v / w

def parallelL : R := parallelX portZ v / w

def seriesCImpl : R := -1 / (w * reactance portZ v)

def seriesLImpl : R := reactance portZ v / w

end Reactive

end NanoVNA.Readouts
