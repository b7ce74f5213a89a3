import Mathlib.Data.Set.Basic
import Mathlib.Order.Basic

/-! Polling for events with a mark.

A poller is woken at increasing times. At each wake it looks at the events after
its mark and not after the wake; if there is one, it acts (a *hit*) and moves the
mark to the wake, rounded down. Before its first hit it has no mark and looks
back over a window of its own, `start now`.

Once there is a mark nothing is missed (`marked_hit`) and nothing is seen twice
(`window_unique`). Before that, events older than the window are lost: the first
hit decides, and `covered_iff` says exactly when it comes in time. -/
namespace NodeGet.Machine.Poll

variable {T : Type*}

section Definitions
variable (due : T → T → Bool) (start round : T → T)

/-- The time after which a wake at `now` looks for events. -/
def since (last : Option T) (now : T) : T := last.elim (start now) id

/-- The hits, each with the window it has looked at. -/
def polls (last : Option T) : List T → List (T × T)
  | [] => []
  | now :: rest =>
    if due (since start last now) now then (since start last now, now) :: polls (some (round now)) rest
    else polls last rest

end Definitions

variable {due : T → T → Bool} {start round : T → T}

variable {last : Option T} {now s w v f m : T} {rest : List T}

theorem polls_of_due (h : due (since start last now) now = true) :
    polls due start round last (now :: rest) =
      (since start last now, now) :: polls due start round (some (round now)) rest := if_pos h

theorem polls_of_not_due (h : ¬due (since start last now) now = true) :
    polls due start round last (now :: rest) = polls due start round last rest := if_neg h

theorem polls_wake {wakes : List T} (h : (s, w) ∈ polls due start round last wakes) : w ∈ wakes := by
  induction wakes generalizing last with
  | nil => exact absurd h List.not_mem_nil
  | cons now rest ih =>
    by_cases hdue : due (since start last now) now = true
    · rw [polls_of_due hdue] at h
      rcases List.mem_cons.mp h with heq | hrest
      · rw [(Prod.mk.inj heq).2]
        exact List.mem_cons_self
      · exact List.mem_cons_of_mem now (ih hrest)
    · rw [polls_of_not_due hdue] at h
      exact List.mem_cons_of_mem now (ih h)

variable [LinearOrder T]

/-- `due` finds the events of a window, and rounding a wake down passes over none. -/
structure Exact (due : T → T → Bool) (round : T → T) (events : Set T) : Prop where
  due_iff : ∀ s now, due s now = true ↔ ∃ f ∈ events, s < f ∧ f ≤ now
  round_le : ∀ now, round now ≤ now
  le_round : ∀ f ∈ events, ∀ now, f ≤ now → f ≤ round now

/-- The first wake at or after `f`. -/
def First (wakes : List T) (f w : T) : Prop := w ∈ wakes ∧ f ≤ w ∧ ∀ v ∈ wakes, f ≤ v → w ≤ v

/-- The first of increasing wakes is the earliest. -/
theorem head_le (hsorted : (now :: rest).Pairwise (· < ·)) (hv : v ∈ now :: rest) : now ≤ v := by
  rcases List.mem_cons.mp hv with heq | hrest
  · exact heq.ge
  · exact (List.rel_of_pairwise_cons hsorted hrest).le

/-- A wake that is not the first at or after `f` comes before it. -/
theorem First.head_lt (h : First (now :: rest) f w) (hsorted : (now :: rest).Pairwise (· < ·)) (hw : w ≠ now) :
    now < f := by
  by_contra hle
  have hback : w ≤ now := h.2.2 now List.mem_cons_self (not_lt.mp hle)
  have hrest : w ∈ rest := (List.mem_cons.mp h.1).resolve_left hw
  exact absurd (List.rel_of_pairwise_cons hsorted hrest) (not_lt.mpr hback)

theorem First.tail (h : First (now :: rest) f w) (hw : w ≠ now) : First rest f w :=
  ⟨(List.mem_cons.mp h.1).resolve_left hw, h.2.1, fun v hv => h.2.2 v (List.mem_cons_of_mem now hv)⟩

variable {events : Set T} {wakes : List T}

/-! ### With a mark -/

/-- An event after the mark is met at the first wake at or after it. -/
theorem marked_hit (hx : Exact due round events) (hsorted : wakes.Pairwise (· < ·)) (hf : f ∈ events) (hm : m < f)
    (hw : First wakes f w) : ∃ s, (s, w) ∈ polls due start round (some m) wakes := by
  induction wakes generalizing m with
  | nil => exact absurd hw.1 List.not_mem_nil
  | cons now rest ih =>
    by_cases hnow : w = now
    · subst hnow
      have hdue : due m w = true := (hx.due_iff m w).mpr ⟨f, hf, hm, hw.2.1⟩
      rw [polls_of_due (show due (since start (some m) w) w = true from hdue)]
      exact ⟨m, List.mem_cons_self⟩
    · have hrest := hw.tail hnow
      by_cases hdue : due (since start (some m) now) now = true
      · -- the wake at `now` is before `f`, so the new mark is too
        have hlt := hw.head_lt hsorted hnow
        rw [polls_of_due hdue]
        obtain ⟨s, hs⟩ := ih hsorted.of_cons (lt_of_le_of_lt (hx.round_le now) hlt) hrest
        exact ⟨s, List.mem_cons_of_mem _ hs⟩
      · rw [polls_of_not_due hdue]
        exact ih hsorted.of_cons hm hrest

/-- No window opens before an event that the mark has passed. -/
theorem passed_le (hx : Exact due round events) (hf : f ∈ events) (hm : f ≤ m) (hle : ∀ v ∈ wakes, f ≤ v)
    (h : (s, w) ∈ polls due start round (some m) wakes) : f ≤ s := by
  induction wakes generalizing m with
  | nil => exact absurd h List.not_mem_nil
  | cons now rest ih =>
    have hrest : ∀ v ∈ rest, f ≤ v := fun v hv => hle v (List.mem_cons_of_mem now hv)
    by_cases hdue : due (since start (some m) now) now = true
    · rw [polls_of_due hdue] at h
      rcases List.mem_cons.mp h with heq | htail
      · rw [(Prod.mk.inj heq).1]
        exact hm
      · exact ih (hx.le_round f hf now (hle now List.mem_cons_self)) hrest htail
    · rw [polls_of_not_due hdue] at h
      exact ih hm hrest h

/-- **No event lies in the windows of two hits.** -/
theorem window_unique (hx : Exact due round events) (hsorted : wakes.Pairwise (· < ·)) {t : T} (hf : f ∈ events)
    (hv : (s, v) ∈ polls due start round last wakes) (hsv : s < f ∧ f ≤ v)
    (hw : (t, w) ∈ polls due start round last wakes) (htw : t < f ∧ f ≤ w) : v = w := by
  induction wakes generalizing last with
  | nil => exact absurd hv List.not_mem_nil
  | cons now rest ih =>
    by_cases hdue : due (since start last now) now = true
    · -- the hit at `now` takes every event up to it; no later window holds one
      have hlater : f ≤ now → ∀ u x, (u, x) ∈ polls due start round (some (round now)) rest → f ≤ u :=
        fun hle u x hux => passed_le hx hf (hx.le_round f hf now hle)
          (fun y hy => hle.trans (List.rel_of_pairwise_cons hsorted hy).le) hux
      rw [polls_of_due hdue] at hv hw
      rcases List.mem_cons.mp hv with hv | hv <;> rcases List.mem_cons.mp hw with hw | hw
      · rw [(Prod.mk.inj hv).2, (Prod.mk.inj hw).2]
      · exact absurd htw.1 (not_lt.mpr (hlater ((Prod.mk.inj hv).2 ▸ hsv.2) t w hw))
      · exact absurd hsv.1 (not_lt.mpr (hlater ((Prod.mk.inj hw).2 ▸ htw.2) s v hv))
      · exact ih hsorted.of_cons hv hw
    · rw [polls_of_not_due hdue] at hv hw
      exact ih hsorted.of_cons hv hw

/-! ### The first hit -/

/-- A wake whose own window holds an event comes no earlier than the first hit. -/
theorem hit_of_window (hsorted : wakes.Pairwise (· < ·)) (hv : v ∈ wakes) (hdue : due (start v) v = true) :
    ∃ s u, (s, u) ∈ polls due start round none wakes ∧ u ≤ v := by
  induction wakes with
  | nil => exact absurd hv List.not_mem_nil
  | cons now rest ih =>
    by_cases hnow : due (since start none now) now = true
    · rw [polls_of_due hnow]
      exact ⟨_, now, List.mem_cons_self, head_le hsorted hv⟩
    · rw [polls_of_not_due hnow]
      have hne : v ≠ now := fun heq => hnow (heq ▸ hdue)
      exact ih hsorted.of_cons ((List.mem_cons.mp hv).resolve_left hne)

/-- At or before a hit there is a wake whose own window holds an event. -/
theorem window_of_hit (hsorted : wakes.Pairwise (· < ·)) (h : (s, w) ∈ polls due start round none wakes) :
    ∃ v ∈ wakes, v ≤ w ∧ due (start v) v = true := by
  induction wakes with
  | nil => exact absurd h List.not_mem_nil
  | cons now rest ih =>
    by_cases hnow : due (since start none now) now = true
    · exact ⟨now, List.mem_cons_self, head_le hsorted (polls_wake h), hnow⟩
    · rw [polls_of_not_due hnow] at h
      obtain ⟨v, hv, hle, hdue⟩ := ih hsorted.of_cons h
      exact ⟨v, List.mem_cons_of_mem now hv, hle, hdue⟩

/-- After a hit nothing is missed. -/
theorem hit_after_hit (hx : Exact due round events) (hsorted : wakes.Pairwise (· < ·)) {u : T}
    (hu : (s, u) ∈ polls due start round none wakes) (huw : u < w) (hf : f ∈ events) (hw : First wakes f w) :
    ∃ t, (t, w) ∈ polls due start round none wakes := by
  induction wakes with
  | nil => exact absurd hw.1 List.not_mem_nil
  | cons now rest ih =>
    have hne : w ≠ now := by
      intro heq
      rcases List.mem_cons.mp (polls_wake hu) with hhead | hrest
      · exact absurd (heq.trans hhead.symm) huw.ne'
      · exact absurd (heq ▸ List.rel_of_pairwise_cons hsorted hrest) huw.not_gt
    have hrest := hw.tail hne
    by_cases hnow : due (since start none now) now = true
    · have hlt := hw.head_lt hsorted hne
      rw [polls_of_due hnow]
      obtain ⟨t, ht⟩ := marked_hit hx hsorted.of_cons hf (lt_of_le_of_lt (hx.round_le now) hlt) hrest
      exact ⟨t, List.mem_cons_of_mem _ ht⟩
    · rw [polls_of_not_due hnow] at hu ⊢
      exact ih hsorted.of_cons hu hrest

/-- The first wake that has an event after `c` behind it. -/
def FirstSince (events : Set T) (c : T) (wakes : List T) (w : T) : Prop :=
  w ∈ wakes ∧ (∃ f ∈ events, c < f ∧ f ≤ w) ∧ ∀ v ∈ wakes, (∃ f ∈ events, c < f ∧ f ≤ v) → w ≤ v

theorem exists_firstSince (hsorted : wakes.Pairwise (· < ·)) {c : T} (hw : w ∈ wakes) (hf : f ∈ events) (hc : c < f)
    (hle : f ≤ w) : ∃ u, FirstSince events c wakes u ∧ u ≤ w := by
  induction wakes with
  | nil => exact absurd hw List.not_mem_nil
  | cons now rest ih =>
    by_cases hnow : ∃ g ∈ events, c < g ∧ g ≤ now
    · exact ⟨now, ⟨List.mem_cons_self, hnow, fun v hv _ => head_le hsorted hv⟩, head_le hsorted hw⟩
    · have hne : w ≠ now := fun heq => hnow ⟨f, hf, hc, heq ▸ hle⟩
      obtain ⟨u, ⟨hu, hev, hmin⟩, huw⟩ := ih hsorted.of_cons ((List.mem_cons.mp hw).resolve_left hne)
      refine ⟨u, ⟨List.mem_cons_of_mem now hu, hev, fun v hv hv' => ?_⟩, huw⟩
      rcases List.mem_cons.mp hv with heq | hrest
      · exact absurd (heq ▸ hv') hnow
      · exact hmin v hrest hv'

/-- **Every event after `c` is met at the first wake at or after it exactly when, at the
first wake that has one behind it, some wake so far has had an event in its own window.** -/
theorem covered_iff (start : T → T) (hx : Exact due round events) (hsorted : wakes.Pairwise (· < ·)) (c : T) :
    (∀ f ∈ events, c < f → ∀ w, First wakes f w → ∃ s, (s, w) ∈ polls due start round none wakes) ↔
      ∀ u, FirstSince events c wakes u → ∃ v ∈ wakes, v ≤ u ∧ due (start v) v = true := by
  constructor
  · rintro h u ⟨hu, ⟨f, hf, hc, hle⟩, hmin⟩
    obtain ⟨s, hs⟩ := h f hf hc u ⟨hu, hle, fun v hv hfv => hmin v hv ⟨f, hf, hc, hfv⟩⟩
    exact window_of_hit hsorted hs
  · intro h f hf hc w hw
    obtain ⟨u, hu, huw⟩ := exists_firstSince hsorted hw.1 hf hc hw.2.1
    obtain ⟨v, hv, hvu, hdue⟩ := h u hu
    obtain ⟨s, x, hx', hxv⟩ := hit_of_window hsorted hv hdue
    rcases (hxv.trans (hvu.trans huw)).lt_or_eq with hlt | heq
    · exact hit_after_hit hx hsorted hx' hlt hf hw
    · exact ⟨s, heq ▸ hx'⟩

end NodeGet.Machine.Poll
