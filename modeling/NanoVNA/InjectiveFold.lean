import Mathlib.Logic.Function.Basic

namespace NanoVNA.InjectiveFold

variable {σ α : Type} {f : σ → α → σ}

theorem foldl_injective (hstate : ∀ a, Function.Injective fun s => f s a) (l : List α) :
    Function.Injective fun s => l.foldl f s := by
  induction l with
  | nil => exact fun s t h => h
  | cons a l ih => exact fun s t h => hstate a (ih h)

theorem foldl_set_ne (hstate : ∀ a, Function.Injective fun s => f s a)
    (hitem : ∀ s, Function.Injective (f s)) {l : List α} {k : Nat} {a b : α} (hk : l[k]? = some b)
    (hne : a ≠ b) (s : σ) : (l.set k a).foldl f s ≠ l.foldl f s := by
  induction l generalizing k s with
  | nil => cases hk
  | cons c l ih =>
    cases k with
    | zero =>
      obtain rfl := Option.some.inj hk
      exact fun h => hne (hitem s (foldl_injective hstate l h))
    | succ k => exact ih hk (f s c)

end NanoVNA.InjectiveFold
