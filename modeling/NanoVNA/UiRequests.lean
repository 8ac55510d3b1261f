import Mathlib.Data.List.Count
import Mathlib.Logic.Function.Basic
import Mathlib.Order.Basic
import NanoVNA.Numerals

namespace NanoVNA.UiRequests

inductive BoardEvent
  | button
  | touch
  deriving DecidableEq

def topics : List BoardEvent := [.button, .touch]

def uint8Max : Nat := 255

structure BoardEvents where
  pendingChannels : BoardEvent → UInt16
  pendingCounts : BoardEvent → Nat

/-- Where the thread is inside `ui_process`: before it, in the loops of `board_events_dispatch` with
the topics left and the flag `dispatched`, at the listener of a topic with the topics left after it,
before the requests are acquired, and before the tests for the lever and for the touch panel with
the requests that were acquired. -/
inductive Pc
  | idle
  | dispatch (rest : List BoardEvent) (dispatched : Bool)
  | listener (topic : BoardEvent) (rest : List BoardEvent)
  | acquire
  | lever (requests : BoardEvent → Bool)
  | touch (requests : BoardEvent → Bool)

structure System where
  events : BoardEvents
  requestFlags : BoardEvent → Bool
  pc : Pc

/-- An interrupt, or another thread, publishes an event; or the thread of the user interface goes
on by what it does under one lock. -/
inductive Label
  | publish (topic : BoardEvent) (channel : UInt16)
  | thread

section Code

def boardEventsStoreEvent (topic : BoardEvent) (channel : UInt16) (e : BoardEvents) :
    BoardEvents where
  pendingChannels := Function.update e.pendingChannels topic channel
  pendingCounts :=
    if e.pendingCounts topic < uint8Max then
      Function.update e.pendingCounts topic (e.pendingCounts topic + 1)
    else e.pendingCounts

def takeOne (topic : BoardEvent) (e : BoardEvents) : BoardEvents :=
  { e with pendingCounts := Function.update e.pendingCounts topic (e.pendingCounts topic - 1) }

def threadStep (s : System) : System × Option BoardEvent :=
  match s.pc with
  | .idle => ({ s with pc := .dispatch topics false }, none)
  | .dispatch (topic :: rest) dispatched =>
    if 0 < s.events.pendingCounts topic then
      ({ s with events := takeOne topic s.events, pc := .listener topic rest }, none)
    else ({ s with pc := .dispatch rest dispatched }, none)
  | .dispatch [] true => ({ s with pc := .dispatch topics false }, none)
  | .dispatch [] false => ({ s with pc := .acquire }, none)
  | .listener topic rest =>
    ({ s with
      requestFlags := Function.update s.requestFlags topic true
      pc := .dispatch rest true }, none)
  | .acquire => ({ s with requestFlags := fun _ => false, pc := .lever s.requestFlags }, none)
  | .lever requests =>
    ({ s with pc := .touch requests }, if requests .button then some .button else none)
  | .touch requests => ({ s with pc := .idle }, if requests .touch then some .touch else none)

def step (s : System) : Label → System × Option BoardEvent
  | .publish topic channel =>
    ({ s with events := boardEventsStoreEvent topic channel s.events }, none)
  | .thread => threadStep s

def run (s : System) : List Label → System × List BoardEvent
  | [] => (s, [])
  | label :: labels =>
    let r := run (step s label).1 labels
    (r.1, (step s label).2.toList ++ r.2)

def boot : System := ⟨⟨fun _ => 0, fun _ => 0⟩, fun _ => false, .idle⟩

end Code

section Pending

def Held (t : BoardEvent) : Pc → Prop
  | .listener topic _ => topic = t
  | .lever requests => requests t = true
  | .touch requests => t = .touch ∧ requests t = true
  | _ => False

def Pending (s : System) (t : BoardEvent) : Prop :=
  0 < s.events.pendingCounts t ∨ s.requestFlags t = true ∨ Held t s.pc

/-- The event will be handled before `ui_process` returns. -/
def Due (s : System) (t : BoardEvent) : Prop :=
  match s.pc with
  | .idle => False
  | .dispatch rest dispatched =>
    s.requestFlags t = true ∨ 0 < s.events.pendingCounts t ∧ (t ∈ rest ∨ dispatched = true)
  | .listener topic _ =>
    topic = t ∨ s.requestFlags t = true ∨ 0 < s.events.pendingCounts t
  | .acquire => s.requestFlags t = true
  | pc => Held t pc

variable {s : System} {t : BoardEvent}

theorem store_counts (topic : BoardEvent) (channel : UInt16) (e : BoardEvents) (t : BoardEvent) :
    e.pendingCounts t ≤ (boardEventsStoreEvent topic channel e).pendingCounts t ∧
      (boardEventsStoreEvent topic channel e).pendingCounts t ≤
        e.pendingCounts t + if topic = t then 1 else 0 := by
  unfold boardEventsStoreEvent
  dsimp only
  by_cases htopic : topic = t
  · subst htopic
    rw [if_pos rfl]
    split_ifs
    · rw [Function.update_self]
      omega
    · omega
  · rw [if_neg htopic]
    split_ifs
    · rw [Function.update_of_ne (Ne.symm htopic)]
      omega
    · omega

theorem store_pos (topic : BoardEvent) (channel : UInt16) (e : BoardEvents) :
    0 < (boardEventsStoreEvent topic channel e).pendingCounts topic := by
  unfold boardEventsStoreEvent
  dsimp only
  split_ifs with hroom
  · rw [Function.update_self]
    exact Nat.succ_pos _
  · have hmax : 0 < uint8Max := by decide
    exact Nat.lt_of_lt_of_le hmax (Nat.not_lt.mp hroom)

theorem pending_publish (s : System) (topic : BoardEvent) (channel : UInt16) :
    Pending (step s (.publish topic channel)).1 topic := .inl (store_pos topic channel s.events)

theorem pending_step (h : Pending s t) (label : Label) :
    Pending (step s label).1 t ∨ (step s label).2 = some t := by
  cases label with
  | publish topic channel =>
    refine .inl ?_
    rcases h with hcount | hrest
    · exact .inl (Nat.lt_of_lt_of_le hcount (store_counts topic channel s.events t).1)
    · exact .inr hrest
  | thread =>
    obtain ⟨events, flags, pc⟩ := s
    rcases h with hcount | hflag | hheld
    · cases pc with
      | dispatch rest dispatched =>
        cases rest with
        | nil => cases dispatched <;> exact .inl (.inl hcount)
        | cons topic rest =>
          by_cases hpos : 0 < events.pendingCounts topic
          · left
            simp only [step, threadStep, hpos, if_true]
            by_cases htopic : topic = t
            · exact .inr (.inr htopic)
            · refine .inl ?_
              simpa [takeOne, Function.update_of_ne (Ne.symm htopic)] using hcount
          · left
            simp only [step, threadStep, hpos, if_false]
            exact .inl hcount
      | _ => exact .inl (.inl hcount)
    · cases pc with
      | dispatch rest dispatched =>
        cases rest with
        | nil => cases dispatched <;> exact .inl (.inr (.inl hflag))
        | cons topic rest =>
          left
          simp only [step, threadStep]
          split_ifs <;> exact .inr (.inl hflag)
      | listener topic rest =>
        refine .inl (.inr (.inl ?_))
        by_cases htopic : t = topic
        · subst htopic
          exact Function.update_self _ _ _
        · exact (Function.update_of_ne htopic _ _).trans hflag
      | acquire => exact .inl (.inr (.inr hflag))
      | _ => exact .inl (.inr (.inl hflag))
    · cases pc with
      | listener topic rest =>
        obtain rfl : topic = t := hheld
        exact .inl (.inr (.inl (Function.update_self _ _ _)))
      | lever requests =>
        cases t with
        | button => exact .inr (if_pos hheld)
        | touch => exact .inl (.inr (.inr ⟨rfl, hheld⟩))
      | touch requests =>
        obtain ⟨rfl, hrequest⟩ := hheld
        exact .inr (if_pos hrequest)
      | _ => exact absurd hheld id

theorem due_step (h : Due s t) (label : Label) :
    Due (step s label).1 t ∨ (step s label).2 = some t := by
  cases label with
  | publish topic channel =>
    refine .inl ?_
    have hcount := (store_counts topic channel s.events t).1
    obtain ⟨events, flags, pc⟩ := s
    cases pc with
    | dispatch rest dispatched =>
      exact h.imp_right fun hdue => ⟨Nat.lt_of_lt_of_le hdue.1 hcount, hdue.2⟩
    | listener u rest =>
      exact h.imp_right fun hdue => hdue.imp_right fun hpos => Nat.lt_of_lt_of_le hpos hcount
    | _ => exact h
  | thread =>
    obtain ⟨events, flags, pc⟩ := s
    cases pc with
    | idle => exact absurd h id
    | dispatch rest dispatched =>
      cases rest with
      | nil =>
        cases dispatched with
        | true =>
          refine .inl (h.imp_right fun hdue => ⟨hdue.1, .inl ?_⟩)
          cases t <;> simp [topics]
        | false => exact .inl (h.resolve_right fun hdue => by simpa using hdue.2)
      | cons topic rest =>
        left
        by_cases hpos : 0 < events.pendingCounts topic
        · simp only [step, threadStep, hpos, if_true]
          by_cases htopic : topic = t
          · exact .inl htopic
          · refine .inr (h.imp_right fun hdue => ?_)
            simpa [takeOne, Function.update_of_ne (Ne.symm htopic)] using hdue.1
        · simp only [step, threadStep, hpos, if_false]
          refine h.imp_right fun hdue => ⟨hdue.1, hdue.2.imp_left fun hmem => ?_⟩
          rcases List.mem_cons.mp hmem with rfl | hrest
          · exact absurd hdue.1 hpos
          · exact hrest
    | listener topic rest =>
      left
      by_cases htopic : t = topic
      · subst htopic
        exact .inl (Function.update_self _ _ _)
      · rcases h with hsame | hflag | hpos
        · exact absurd hsame.symm htopic
        · exact .inl ((Function.update_of_ne htopic _ _).trans hflag)
        · exact .inr ⟨hpos, .inr rfl⟩
    | acquire => exact .inl h
    | lever requests =>
      cases t with
      | button => exact .inr (if_pos h)
      | touch => exact .inl ⟨rfl, h⟩
    | touch requests =>
      obtain ⟨rfl, hrequest⟩ := h
      exact .inr (if_pos hrequest)

/-- When the thread begins, everything that is pending is due. -/
theorem due_of_pending (hidle : s.pc = .idle) (h : Pending s t) : Due (step s .thread).1 t := by
  obtain ⟨events, flags, pc⟩ := s
  subst hidle
  rcases h with hcount | hflag | hheld
  · exact .inr ⟨hcount, .inl (by cases t <;> simp [topics])⟩
  · exact .inl hflag
  · exact absurd hheld id

end Pending

section Runs

variable {s : System} {t : BoardEvent}

theorem run_append (s : System) (first last : List Label) :
    (run s (first ++ last)).1 = (run (run s first).1 last).1 ∧
      (run s (first ++ last)).2 = (run s first).2 ++ (run (run s first).1 last).2 := by
  induction first generalizing s with
  | nil => exact ⟨rfl, rfl⟩
  | cons label first ih =>
    obtain ⟨hstate, hhandled⟩ := ih (step s label).1
    refine ⟨hstate, ?_⟩
    rw [List.cons_append, run, hhandled, ← List.append_assoc]
    rfl

theorem pending_run (h : Pending s t) (labels : List Label) :
    Pending (run s labels).1 t ∨ t ∈ (run s labels).2 := by
  induction labels generalizing s with
  | nil => exact .inl h
  | cons label labels ih =>
    rcases pending_step h label with hstill | hhandled
    · exact (ih hstill).imp_right fun hmem => List.mem_append_right _ hmem
    · exact .inr (List.mem_append_left _ (by simp [hhandled]))

theorem due_run (h : Due s t) {labels : List Label} (hidle : (run s labels).1.pc = .idle) :
    t ∈ (run s labels).2 := by
  induction labels generalizing s with
  | nil =>
    rw [run] at hidle
    unfold Due at h
    rw [hidle] at h
    exact absurd h id
  | cons label labels ih =>
    rcases due_step h label with hstill | hhandled
    · exact List.mem_append_right _ (ih hstill hidle)
    · exact List.mem_append_left _ (by simp [hhandled])

/-- A pass of `ui_process` from its beginning to its end handles what is pending. -/
theorem pass_handles (hidle : s.pc = .idle) (h : Pending s t) {labels : List Label}
    (hmem : .thread ∈ labels) (hend : (run s labels).1.pc = .idle) : t ∈ (run s labels).2 := by
  induction labels generalizing s with
  | nil => exact absurd hmem List.not_mem_nil
  | cons label labels ih =>
    cases label with
    | publish topic channel =>
      have hstill := (pending_step h (.publish topic channel)).resolve_right (by simp [step])
      exact ih hidle hstill (by simpa using hmem) hend
    | thread => exact List.mem_append_right _ (due_run (due_of_pending hidle h) hend)

/-- An event that is published is handled at the latest in the first pass of `ui_process` that
begins after it, whatever else is published and whenever. -/
theorem published_handled (before after pass : List Label) (topic : BoardEvent)
    (channel : UInt16)
    (hbegin : (run boot (before ++ .publish topic channel :: after)).1.pc = .idle)
    (hpass : .thread ∈ pass)
    (hend : (run boot (before ++ .publish topic channel :: after ++ pass)).1.pc = .idle) :
    topic ∈ (run (run boot before).1 (.publish topic channel :: after ++ pass)).2 := by
  obtain ⟨hstate, -⟩ := run_append boot before (.publish topic channel :: after)
  obtain ⟨hlast, -⟩ := run_append boot (before ++ .publish topic channel :: after) pass
  rw [hstate] at hbegin hlast
  rw [hlast] at hend
  obtain ⟨-, hhandled⟩ := run_append (run boot before).1 (.publish topic channel :: after) pass
  have hpending := pending_run (pending_publish (run boot before).1 topic channel) after
  rw [hhandled, List.mem_append]
  rcases hpending with hstill | hmem
  · exact .inr (pass_handles hbegin hstill hpass hend)
  · exact .inl (List.mem_append_right _ hmem)

/-- A press of a button in the middle of a pass, after the loops, is handled in the next one. -/
theorem published_handled_late :
    .button ∈ (run (run boot (List.replicate 6 .thread)).1
      (.publish .button 3 :: [.thread] ++ List.replicate 11 .thread)).2 :=
  published_handled (List.replicate 6 .thread) [.thread] (List.replicate 11 .thread) .button 3 rfl
    (by simp) rfl

end Runs

section Rest

variable {s : System} {t : BoardEvent}

/-- No topic has a count that the thread has not seen, and behind the loops none is left. -/
def Clean (s : System) : Prop :=
  match s.pc with
  | .idle => ∀ t, ¬ Pending s t
  | .dispatch rest dispatched => dispatched = true ∨ ∀ t ∉ rest, s.events.pendingCounts t = 0
  | .listener _ _ => True
  | .acquire => ∀ t, s.events.pendingCounts t = 0
  | _ => ∀ t, s.events.pendingCounts t = 0 ∧ s.requestFlags t = false

theorem clean_start (hidle : s.pc = .idle) : Clean (step s .thread).1 := by
  obtain ⟨events, flags, pc⟩ := s
  subst hidle
  exact .inr fun t hmem => absurd (by cases t <;> simp [topics]) hmem

theorem clean_step (h : Clean s) : Clean (step s .thread).1 := by
  obtain ⟨events, flags, pc⟩ := s
  cases pc with
  | idle => exact clean_start rfl
  | dispatch rest dispatched =>
    cases rest with
    | nil =>
      cases dispatched with
      | true => exact .inr fun t hmem => absurd (by cases t <;> simp [topics]) hmem
      | false => exact fun t => (h.resolve_left (by simp)) t List.not_mem_nil
    | cons topic rest =>
      by_cases hpos : 0 < events.pendingCounts topic
      · simp only [step, threadStep, hpos, if_true]
        trivial
      · simp only [step, threadStep, hpos, if_false]
        refine h.imp_right fun hzero t hmem => ?_
        by_cases htopic : t = topic
        · subst htopic
          exact Nat.eq_zero_of_not_pos hpos
        · exact hzero t (by simp [htopic, hmem])
  | listener topic rest => exact .inl rfl
  | acquire => exact fun t => ⟨h t, rfl⟩
  | lever requests => exact h
  | touch requests =>
    rintro t (hcount | hflag | hheld)
    · have hzero := (h t).1
      exact absurd hzero (Nat.ne_of_gt hcount)
    · exact absurd (hflag.symm.trans (h t).2) (by decide)
    · exact hheld

/-- How many steps the thread still needs when nothing more is published. -/
def fuel (s : System) : Nat :=
  match s.pc with
  | .idle => 0
  | .dispatch rest dispatched =>
    4 + rest.length + 5 * (s.events.pendingCounts .button + s.events.pendingCounts .touch) +
      if dispatched then 3 else 0
  | .listener _ rest =>
    8 + rest.length + 5 * (s.events.pendingCounts .button + s.events.pendingCounts .touch)
  | .acquire => 3
  | .lever _ => 2
  | .touch _ => 1

theorem fuel_step (hbusy : s.pc ≠ .idle) : fuel (step s .thread).1 < fuel s := by
  obtain ⟨events, flags, pc⟩ := s
  cases pc with
  | idle => exact absurd rfl hbusy
  | dispatch rest dispatched =>
    cases rest with
    | nil =>
      cases dispatched <;> simp only [step, threadStep, fuel, topics, List.length_cons,
        List.length_nil, if_true, if_false, Bool.false_eq_true] <;> omega
    | cons topic rest =>
      by_cases hpos : 0 < events.pendingCounts topic
      · simp only [step, threadStep, hpos, if_true, fuel, takeOne, List.length_cons]
        cases topic with
        | button =>
          rw [Function.update_self, Function.update_of_ne (by decide)]
          omega
        | touch =>
          rw [Function.update_self, Function.update_of_ne (by decide)]
          omega
      · simp only [step, threadStep, hpos, if_false, fuel, List.length_cons]
        omega
  | listener topic rest =>
    simp only [step, threadStep, fuel, if_true]
    omega
  | acquire => exact Nat.lt_succ_self 2
  | lever requests => exact Nat.lt_succ_self 1
  | touch requests => exact Nat.lt_succ_self 0

theorem comes_idle (s : System) :
    ∃ n ≤ fuel s, (run s (List.replicate n .thread)).1.pc = .idle ∧
      (Clean s → Clean (run s (List.replicate n .thread)).1) := by
  generalize hfuel : fuel s = f
  induction f using Nat.strong_induction_on generalizing s with
  | h f ih =>
    by_cases hidle : s.pc = .idle
    · exact ⟨0, Nat.zero_le _, hidle, id⟩
    · have hless := fuel_step hidle
      obtain ⟨n, hn, hend, hclean⟩ := ih _ (hfuel ▸ hless) (step s .thread).1 rfl
      exact ⟨n + 1, by omega, hend, fun h => hclean (clean_step h)⟩

/-- When nothing more is published, the thread comes to rest: everything that was pending has been
handled, and nothing is pending any more. -/
theorem comes_to_rest (s : System) :
    ∃ n, (run s (List.replicate n .thread)).1.pc = .idle ∧
      (∀ t, ¬ Pending (run s (List.replicate n .thread)).1 t) ∧
      ∀ t, Pending s t → t ∈ (run s (List.replicate n .thread)).2 := by
  obtain ⟨first, -, hfirst, -⟩ := comes_idle s
  generalize hmid : (run s (List.replicate first .thread)).1 = mid at hfirst
  obtain ⟨last, -, hlast, hclean⟩ := comes_idle (step mid .thread).1
  have hpass : run mid (List.replicate (last + 1) .thread) =
      ((run (step mid .thread).1 (List.replicate last .thread)).1,
        (step mid .thread).2.toList ++
          (run (step mid .thread).1 (List.replicate last .thread)).2) := rfl
  have hsplit : List.replicate (first + (last + 1)) Label.thread =
      List.replicate first .thread ++ List.replicate (last + 1) .thread :=
    List.replicate_append_replicate.symm
  obtain ⟨hstate, hhandled⟩ := run_append s (List.replicate first .thread)
    (List.replicate (last + 1) .thread)
  rw [hmid] at hstate hhandled
  refine ⟨first + (last + 1), ?_, ?_, fun t hpending => ?_⟩
  · rw [hsplit, hstate, hpass]
    exact hlast
  · rw [hsplit, hstate, hpass]
    have hrest := hclean (clean_start hfirst)
    unfold Clean at hrest
    rw [hlast] at hrest
    exact hrest
  · rw [hsplit, hhandled, List.mem_append]
    have hstill := pending_run hpending (List.replicate first .thread)
    rw [hmid] at hstill
    refine hstill.symm.imp_right fun h => ?_
    exact pass_handles hfirst h (by simp) (hpass ▸ hlast)

end Rest

section Counts

variable (t : BoardEvent)

def isPublish : Label → Bool
  | .publish topic _ => topic = t
  | .thread => false

def heldCount : Pc → Nat
  | .listener topic _ => (decide (topic = t)).toNat
  | .lever requests => (requests t).toNat
  | .touch requests => (decide (t = .touch) && requests t).toNat
  | _ => 0

def tokens (s : System) : Nat :=
  s.events.pendingCounts t + (s.requestFlags t).toNat + heldCount t s.pc

theorem tokens_step (s : System) (label : Label) :
    tokens t (step s label).1 + (step s label).2.toList.count t ≤
      tokens t s + (isPublish t label).toNat := by
  cases label with
  | publish topic channel =>
    have hcount := (store_counts topic channel s.events t).2
    have hone : (if topic = t then 1 else 0) = (decide (topic = t)).toNat := by
      split <;> simp_all
    simp only [step, tokens, Option.toList_none, List.count_nil, isPublish]
    omega
  | thread =>
    obtain ⟨events, flags, pc⟩ := s
    cases pc with
    | idle => exact Nat.le_refl _
    | dispatch rest dispatched =>
      cases rest with
      | nil => cases dispatched <;> exact Nat.le_refl _
      | cons topic rest =>
        by_cases hpos : 0 < events.pendingCounts topic
        · simp only [step, threadStep, hpos, if_true, tokens, takeOne, heldCount, isPublish,
            Option.toList_none, List.count_nil]
          by_cases htopic : topic = t
          · subst htopic
            rw [Function.update_self, decide_eq_true rfl, Bool.toNat_true]
            omega
          · rw [Function.update_of_ne (Ne.symm htopic), decide_eq_false htopic]
            exact Nat.le_refl _
        · simp only [step, threadStep, hpos, if_false]
          exact Nat.le_refl _
    | listener topic rest =>
      simp only [step, threadStep, tokens, heldCount, isPublish, Option.toList_none, List.count_nil]
      by_cases htopic : topic = t
      · subst htopic
        rw [Function.update_self, decide_eq_true rfl, Bool.toNat_true]
        omega
      · rw [Function.update_of_ne (Ne.symm htopic), decide_eq_false htopic]
        exact Nat.le_refl _
    | acquire =>
      simp only [step, threadStep, tokens, heldCount, isPublish, Option.toList_none, List.count_nil,
        Bool.toNat_false]
      omega
    | lever requests =>
      cases t <;> cases hrequest : requests .button <;>
        simp [step, threadStep, tokens, heldCount, isPublish, hrequest]
    | touch requests =>
      cases t <;> cases hrequest : requests .touch <;>
        simp [step, threadStep, tokens, heldCount, isPublish, hrequest]

/-- No handler is run without an event that was published for it. -/
theorem handled_le_published (labels : List Label) :
    (run boot labels).2.count t ≤ labels.countP (isPublish t) := by
  have hrun (s : System) : tokens t (run s labels).1 + (run s labels).2.count t ≤
      tokens t s + labels.countP (isPublish t) := by
    induction labels generalizing s with
    | nil => exact Nat.le_refl _
    | cons label labels ih =>
      have hstep := tokens_step t s label
      have hrest := ih (step s label).1
      have hone : (if isPublish t label = true then 1 else 0) = (isPublish t label).toNat := by
        cases isPublish t label <;> rfl
      simp only [run, List.count_append, List.countP_cons, hone]
      omega
  have hboot := hrun boot
  have hzero : tokens t boot = 0 := rfl
  omega

end Counts

end NanoVNA.UiRequests
