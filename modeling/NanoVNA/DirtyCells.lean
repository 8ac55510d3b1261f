namespace NanoVNA.DirtyCells

variable {Cell View α : Type}

abbrev Screen (Cell View : Type) := Cell → View

def redraw (dirty : Cell → Bool) (now : View) (screen : Screen Cell View) : Screen Cell View :=
  fun c => if dirty c then now else screen c

/-- On a region the screen has what `look` sees in the view. -/
def Shows (look : View → α) (region : Cell → Prop) (screen : Screen Cell View) (now : View) :
    Prop :=
  ∀ c, region c → look (screen c) = look now

variable {look : View → α} {region region' : Cell → Prop} {screen : Screen Cell View}
variable {now now' : View} {dirty : Cell → Bool}

theorem redraw_of_dirty {c : Cell} (h : dirty c) : redraw dirty now screen c = now := by
  simp [redraw, h]

theorem shows_redraw_of_dirty (h : ∀ c, region c → dirty c) :
    Shows look region (redraw dirty now screen) now := by
  intro c hc
  rw [redraw_of_dirty (h c hc)]

theorem Shows.redraw (h : Shows look region screen now) :
    Shows look region (redraw dirty now screen) now := by
  intro c hc
  unfold DirtyCells.redraw
  split
  · rfl
  · exact h c hc

theorem Shows.mono (h : Shows look region screen now) (hr : ∀ c, region' c → region c) :
    Shows look region' screen now :=
  fun c hc => h c (hr c hc)

end NanoVNA.DirtyCells
